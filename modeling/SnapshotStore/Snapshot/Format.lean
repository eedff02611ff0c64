import SnapshotStore.Text.Blank
import SnapshotStore.Snapshot.Basic
import SnapshotStore.Value.OfJson
import SnapshotStore.Text.Visible

/-! The text of a snapshot: one JSON record, its members in key order. It is
written on one line, or with one member and one list item a line. -/
namespace SnapshotStore

/-- How the text of a snapshot is laid out. -/
inductive Layout where
  | pretty
  | compact
deriving DecidableEq

namespace Snapshot

/-- Parts on lines of their own between two brackets. The brackets of an empty
sequence stand side by side. -/
def block (opening closing : Char) (indent : List Char) (parts : List (List Char)) : List Char :=
  if parts.isEmpty then [opening, closing]
  else
    opening :: '\n' :: [',', '\n'].intercalate (parts.map (indent ++ ' ' :: ' ' :: ·)) ++
      '\n' :: indent ++ [closing]

/-- A value inside a record that is laid out over lines. -/
def prettyValue : Value → List Char
  | .list items => block '[' ']' [' ', ' '] (items.map Json.quote)
  | value => value.json

/-- The record of a snapshot. -/
def written : Layout → Snapshot → List Char
  | .pretty, s =>
    block '\x7b' '\x7d' [] (s.entries.map fun (key, value) =>
      Json.quote key ++ ':' :: ' ' :: prettyValue value)
  | .compact, s =>
    '\x7b' :: [','].intercalate (s.entries.map fun (key, value) =>
      Json.quote key ++ ':' :: value.json) ++ ['\x7d']

/-- The content of a snapshot file: the record and a line break. -/
def encode (layout : Layout) (s : Snapshot) : String :=
  String.ofList (written layout s ++ ['\n'])

/-- The record over lines, without a line break at its end. -/
def dump (s : Snapshot) : String :=
  String.ofList (written .pretty s)

/-- Why a text is not a snapshot. -/
inductive Fault where
  | blank
  | notRecord (found : Json)
  | json (fault : Json.Fault)
  | emptyKey
  | notFinite (key : String)

/-- How a message names something that is not a record. -/
def found : Json → String
  | .null => "null"
  | .bool b => "boolean `" ++ String.ofList (Value.boolJson b) ++ "`"
  | .number (.whole n) => "integer `" ++ String.ofList (Decimal.ofInt n) ++ "`"
  | .number (.floating f) =>
    "floating point `" ++ String.ofList (Value.numberJson (.float f)) ++ "`"
  | .text s => "string " ++ Text.quoted s
  | .list _ => "sequence"
  | .record _ => "map"

/-- The words for a fault. -/
def Fault.message : Fault → String
  | .blank => "file is empty"
  | .notRecord tree => "invalid type: " ++ found tree ++ ", expected a map"
  | .json fault => fault.message
  | .emptyKey => "contains an empty key"
  | .notFinite key => "non-finite number at '" ++ key ++ "'"

/-- The value of a member. A tree that is no value is refused at once, before
anything after it is read. -/
def readMemberValue : Json.Reader Value := fun input =>
  match Json.readValue (Json.maxDepth - 1) input with
  | .error fault => .error fault
  | .ok step =>
    match Value.ofJson? step.value with
    | some value => .ok ⟨value, step.rest, step.shorter⟩
    | none => .error .unsupportedValue

/-- What stands where a record is due. A list is not read any further. -/
def readOther (input : List Char) : Fault :=
  match Json.skip input with
  | '[' :: _ => .notRecord (.list [])
  | _ =>
    match Json.readValue Json.maxDepth input with
    | .error fault => .json fault
    | .ok step => .notRecord step.value

/-- The members of the one record of a text. -/
def readRecord (text : String) : Except Fault (List (String × Value)) :=
  match Json.skip text.toList with
  | '\x7b' :: rest =>
    match Json.readMembers readMemberValue rest with
    | .error fault => .error (.json fault)
    | .ok step =>
      match Json.finish step with
      | .error fault => .error (.json fault)
      | .ok members => .ok members
  | _ => .error (readOther text.toList)

/-- The first key whose number is not finite. -/
def notFinite? (s : Snapshot) : Option String :=
  (s.entries.find? fun entry => !entry.2.isStorable).map Prod.fst

/-- The snapshot that a text describes. Of members with one name the last
stands, but each of them has to be a value. -/
def decode (text : String) : Except Fault Snapshot :=
  if Text.isBlankText text.toList then .error .blank
  else
    match readRecord text with
    | .error fault => .error fault
    | .ok members =>
      let s := KeyMap.ofList members
      if s.contains "" then .error .emptyKey
      else
        match notFinite? s with
        | some key => .error (.notFinite key)
        | none => .ok s

end Snapshot

end SnapshotStore
