import SnapshotStore.Value.Basic
import SnapshotStore.Json.Reader

/-! The values among the JSON trees: truth values, numbers, texts, and lists
of nothing but texts. -/
namespace SnapshotStore

/-- The text of a JSON text. -/
def Json.text? : Json → Option String
  | .text s => some s
  | _ => none

/-- The value that a JSON tree stands for, if it stands for one. -/
def Value.ofJson? : Json → Option Value
  | .bool b => some (.bool b)
  | .number n => some (.number n.number)
  | .text s => some (.text s)
  | .list items => (items.mapM Json.text?).map .list
  | .null => none
  | .record _ => none

end SnapshotStore
