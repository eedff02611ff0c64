import SnapshotStore.Number.Order
import SnapshotStore.Snapshot.Basic

/-! Rankings: the highest numbers under a stem. -/
namespace SnapshotStore

/-- A row of a ranking: what follows the stem in the key, and the number. -/
structure Ranked where
  identity : String
  value : Number
deriving DecidableEq

namespace Ranking

/-- The numbers under a stem in key order; values of other kinds are left out. -/
def rows (s : Snapshot) (stem : String) : List Ranked :=
  (s.under stem).filterMap fun (key, value) =>
    value.number?.map fun n => ⟨Text.withoutStem key stem, n⟩

/-- The first row stands in front of the second, or they are equal. -/
def ahead (a b : Ranked) : Bool :=
  b.value.order a.value ≠ .gt

/-- The highest rows under a stem. Equal numbers keep the order of their keys,
the sorting being stable. -/
def top (s : Snapshot) (stem : String) (limit : Nat) : List Ranked :=
  ((rows s stem).mergeSort ahead).take limit

end Ranking

end SnapshotStore
