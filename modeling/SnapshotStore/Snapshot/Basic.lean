import SnapshotStore.KeyMap.Basic
import SnapshotStore.Value.Basic

/-! A snapshot is the whole content of a store at one moment: every key with
its value. -/
namespace SnapshotStore

/-- All keys of a store with their values. -/
abbrev Snapshot :=
  KeyMap Value

/-- The snapshots that may be written to a file: no key is empty, and no
number is infinite or not a number. -/
def Snapshot.Storable (s : Snapshot) : Prop :=
  ∀ entry ∈ s.entries, entry.1 ≠ "" ∧ entry.2.isStorable = true

end SnapshotStore
