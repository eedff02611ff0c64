/-! Classes of characters as ranges of code points. -/
namespace SnapshotStore.Text

/-- Ranges of code points, each with both of its ends. -/
abbrev Ranges := List (Nat × Nat)

namespace Ranges

/-- The character lies in one of the ranges. -/
def contain (ranges : Ranges) (c : Char) : Bool :=
  ranges.any fun range => range.1 ≤ c.toNat && c.toNat ≤ range.2

theorem contain_iff {ranges : Ranges} {c : Char} :
    ranges.contain c = true ↔ ∃ range ∈ ranges, range.1 ≤ c.toNat ∧ c.toNat ≤ range.2 := by
  simp [contain]

end Ranges

end SnapshotStore.Text
