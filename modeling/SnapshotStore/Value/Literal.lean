import SnapshotStore.Value.OfJson
import SnapshotStore.Decimal.Numeral

/-! Values as an operator types them. The first reading that fits decides:
a truth value, a whole number of 64 bits, a finite floating number, a JSON
list of texts. Whatever fits none of them is the text itself. -/
namespace SnapshotStore.Value

/-- A finite floating numeral. -/
def readFinite? (cs : List Char) : Option Binary64 :=
  (Decimal.readFloat? cs).filter Binary64.isFinite

/-- A JSON list of texts. -/
def readList? (text : String) : Option (List String) :=
  match Json.ofText text with
  | .ok (.list items) => items.mapM Json.text?
  | _ => none

/-- The value of a literal. Every text is one. -/
def ofLiteral (text : String) : Value :=
  if text = "true" then .bool true
  else if text = "false" then .bool false
  else match Decimal.readInt64? text.toList with
  | some i => .number (.int i)
  | none =>
    match readFinite? text.toList with
    | some f => .number (.float f)
    | none =>
      match readList? text with
      | some items => .list items
      | none => .text text

end SnapshotStore.Value
