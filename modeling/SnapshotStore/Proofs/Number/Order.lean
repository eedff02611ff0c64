import SnapshotStore.Number.Order
import SnapshotStore.Proofs.Binary64.Rounding

/-! The exact value of a stored number in units, its order, and how arithmetic
rounds it. The order compares exact values, while a sum with a floating operand
rounds a whole one first; rounding is monotone, and does not move what is
floating already, so it never passes by a floating number. -/
namespace SnapshotStore

open Binary64

namespace Binary64

/-! ### Exact values -/

/-- The exact value of a finite number, in units. -/
def exactUnits : Binary64 → Int
  | .finite negative magnitude => signed negative magnitude.units
  | _ => 0

theorem signed_not (negative : Bool) (n : Nat) : signed (!negative) n = -signed negative n := by
  cases negative <;> simp [signed]

theorem natAbs_signed (negative : Bool) (n : Nat) : (signed negative n).natAbs = n := by
  cases negative with
  | true => exact Int.natAbs_neg n
  | false => exact Int.natAbs_natCast n

theorem compare_congr {a b c d : Int} (hLess : a < b ↔ c < d) (hMore : b < a ↔ d < c) :
    compare a b = compare c d := by
  rcases lt_trichotomy a b with h | h | h
  · rw [compare_lt_iff_lt.mpr h, compare_lt_iff_lt.mpr (hLess.mp h)]
  · rw [compare_eq_iff_eq.mpr h, compare_eq_iff_eq.mpr (by omega)]
  · rw [compare_gt_iff_gt.mpr h, compare_gt_iff_gt.mpr (hMore.mp h)]

/-- Signed indices are ordered as the values at them. -/
theorem compare_signed (s t : Bool) (a b : Nat) :
    compare (signed s a) (signed t b) =
      compare (signed s (gridUnits a)) (signed t (gridUnits b)) := by
  have hPositive : ∀ n : Nat, (0 < gridUnits n ↔ 0 < n) := fun n => by
    rw [← gridUnits_zero, gridUnits_strictMono.lt_iff_lt, gridUnits_zero]
  have hLess := gridUnits_strictMono.lt_iff_lt (a := a) (b := b)
  have hMore := gridUnits_strictMono.lt_iff_lt (a := b) (b := a)
  have ha := hPositive a
  have hb := hPositive b
  apply compare_congr
  · cases s <;> cases t <;> simp only [signed, if_true, Bool.false_eq_true, if_false] <;> omega
  · cases s <;> cases t <;> simp only [signed, if_true, Bool.false_eq_true, if_false] <;> omega

/-! ### Rounding -/

/-- Rounding does not come above what is on the grid. -/
theorem nearestIndex_le_of_le {num den index : Nat} (hDen : 0 < den)
    (h : num ≤ gridUnits index * den) : nearestIndex num den ≤ index := by
  have hMono := nearestIndex_mono hDen h
  rwa [nearestIndex_gridUnits index hDen] at hMono

end Binary64

namespace Number

/-! ### The order -/

/-- The exact value of a finite number, in units. -/
def exactUnits : Number → Int
  | .int i => i.toInt * unitsPerOne
  | .float f => f.exactUnits

/-- Comparing whole parts, and then the fraction, compares the values. -/
theorem compare_whole_part {i u one : Int} (hOne : 0 < one) :
    (match compare i (u.tdiv one) with
      | .eq => compare (u.tdiv one * one) u
      | other => other) = compare (i * one) u := by
  obtain ⟨r, hSplit, hSmall⟩ : ∃ r, u = u.tdiv one * one + r ∧
      (0 ≤ r ∧ r < one ∧ 0 ≤ u.tdiv one ∨ r ≤ 0 ∧ -one < r ∧ u.tdiv one ≤ 0) := by
    refine ⟨u.tmod one, by rw [Int.tdiv_mul_add_tmod], ?_⟩
    rcases le_total 0 u with hu | hu
    · exact Or.inl ⟨Int.tmod_nonneg one hu, Int.tmod_lt_of_pos u hOne,
        Int.tdiv_nonneg hu hOne.le⟩
    · have hOpposite : 0 ≤ -u := by omega
      have hNonneg := Int.tmod_nonneg one hOpposite
      have hLess := Int.tmod_lt_of_pos (-u) hOne
      have hQuotient := Int.tdiv_nonneg hOpposite hOne.le
      rw [Int.neg_tmod] at hNonneg hLess
      rw [Int.neg_tdiv] at hQuotient
      exact Or.inr (by omega)
  generalize u.tdiv one = whole at hSplit hSmall ⊢
  rcases lt_trichotomy i whole with h | h | h
  · rw [compare_lt_iff_lt.mpr h]
    have hStep : (i + 1) * one ≤ whole * one := Int.mul_le_mul_of_nonneg_right (by omega) hOne.le
    rw [Int.add_mul] at hStep
    exact (compare_lt_iff_lt.mpr (by omega)).symm
  · rw [compare_eq_iff_eq.mpr h, h]
  · rw [compare_gt_iff_gt.mpr h]
    have hStep : (whole + 1) * one ≤ i * one := Int.mul_le_mul_of_nonneg_right (by omega) hOne.le
    rw [Int.add_mul] at hStep
    exact (compare_gt_iff_gt.mpr (by omega)).symm

theorem compareIntFloat_finite (i : Int64) (negative : Bool) (m : Magnitude) :
    compareIntFloat i.toInt (.finite negative m) =
      compare (i.toInt * unitsPerOne) (signed negative m.units) := by
  have hOne : (0 : Int) < unitsPerOne := by exact_mod_cast unitsPerOne_pos
  have hLow := Int.mul_le_mul_of_nonneg_right i.le_toInt hOne.le
  have hHigh := Int.mul_lt_mul_of_pos_right i.toInt_lt hOne
  have hRange : rangeUnits = 2 ^ 63 * (unitsPerOne : Int) := rfl
  simp only [compareIntFloat]
  rw [hRange]
  generalize signed negative m.units = u
  generalize (unitsPerOne : Int) = one at *
  split_ifs with hAbove hBelow
  · exact (compare_lt_iff_lt.mpr (by omega)).symm
  · exact (compare_gt_iff_gt.mpr (by omega)).symm
  · exact compare_whole_part hOne

/-- The order of finite numbers is that of their exact values. -/
theorem order_eq_compare {a b : Number} (ha : a.isFinite = true) (hb : b.isFinite = true) :
    a.order b = compare a.exactUnits b.exactUnits := by
  cases a with
  | int i =>
      cases b with
      | int j =>
          have hOne : (0 : Int) < unitsPerOne := by exact_mod_cast unitsPerOne_pos
          exact compare_congr (Int.mul_lt_mul_right hOne).symm (Int.mul_lt_mul_right hOne).symm
      | float g =>
          cases g with
          | nan => cases hb
          | infinite negative => cases hb
          | finite negative m => exact compareIntFloat_finite i negative m
  | float f =>
      cases f with
      | nan => cases ha
      | infinite negative => cases ha
      | finite negative m =>
          cases b with
          | int j =>
              change (compareIntFloat j.toInt (.finite negative m)).swap = _
              rw [compareIntFloat_finite]
              exact Std.OrientedOrd.eq_swap.symm
          | float g =>
              cases g with
              | nan => cases hb
              | infinite sign => cases hb
              | finite sign n => exact compare_signed negative sign m.index n.index

end Number

end SnapshotStore
