import SnapshotStore.Proofs.Binary64.Grid
import Mathlib.Algebra.Order.Ring.Nat
import Mathlib.Tactic.Linarith

/-! Magnitudes as rounded quotients: how far one is from the quotient that it
stands for, which quotients are magnitudes already, and which ones do not round
past the largest. -/
namespace SnapshotStore

namespace Binary64

theorem unitsPerOne_pos : 0 < unitsPerOne := by
  positivity

theorem le_unitsPerOne : 2 ^ 52 ≤ unitsPerOne := by
  rw [unitsPerOne, Nat.pow_le_pow_iff_right] <;> decide

theorem gridUnits_indexOfInfinity : gridUnits indexOfInfinity = 2 ^ 1024 * unitsPerOne := by
  decide +kernel

/-- Rounding raises a quotient of at least `2^52` units by at most its part in
`2^53`. -/
theorem gridUnits_nearestIndex_le {num den : Nat} (hDen : 0 < den) (hNormal : 2 ^ 52 * den ≤ num) :
    gridUnits (nearestIndex num den) * den * 2 ^ 53 ≤ num * (2 ^ 53 + 1) := by
  obtain ⟨k, r, hIndex, hRounds, hLow, hHigh⟩ := exists_rounding num hDen
  have hScaled : 0 < den * 2 ^ k := Nat.mul_pos hDen (Nat.two_pow_pos k)
  have hSpacing : 2 ^ 52 * (den * 2 ^ k) ≤ num := by
    rcases hLow with rfl | hLow
    · simpa using hNormal
    · exact hLow
  have hLower := hRounds.lower
  rw [hIndex, gridUnits_run (Or.inr (hRounds.ge hScaled hSpacing)) (hRounds.le hScaled hHigh)]
  calc r * 2 ^ k * den * 2 ^ 53 = 2 ^ 52 * (2 * r * (den * 2 ^ k)) := by ring
    _ ≤ 2 ^ 52 * (2 * num + den * 2 ^ k) := Nat.mul_le_mul_left _ hLower
    _ = 2 ^ 53 * num + 2 ^ 52 * (den * 2 ^ k) := by ring
    _ ≤ 2 ^ 53 * num + num := Nat.add_le_add_left hSpacing _
    _ = num * (2 ^ 53 + 1) := by ring

/-- A magnitude is at most `2^53` times as large as its distance to the next. -/
theorem gridUnits_le_mul_gap (index : Nat) :
    gridUnits index + 2 ^ 53 * gridUnits index ≤ 2 ^ 53 * gridUnits (index + 1) := by
  obtain ⟨k, r, rfl, hHigh, hLow⟩ := exists_run index
  rw [gridUnits_run hLow (by omega), Nat.add_assoc, gridUnits_run (by omega) (by omega)]
  calc r * 2 ^ k + 2 ^ 53 * (r * 2 ^ k) ≤ 2 ^ 53 * 2 ^ k + 2 ^ 53 * (r * 2 ^ k) := by gcongr
    _ = 2 ^ 53 * ((r + 1) * 2 ^ k) := by ring

/-- Every whole number of at most 53 bits, shifted to the left, is on the grid. -/
theorem exists_gridUnits_eq (k : Nat) {r : Nat} (h : r ≤ 2 ^ 53) :
    ∃ index, gridUnits index = r * 2 ^ k := by
  induction k generalizing r with
  | zero => exact ⟨0 * 2 ^ 52 + r, gridUnits_run (Or.inl rfl) h⟩
  | succ k ih =>
      by_cases hFull : 2 ^ 52 ≤ r
      · exact ⟨(k + 1) * 2 ^ 52 + r, gridUnits_run (Or.inr hFull) h⟩
      · obtain ⟨index, hIndex⟩ := ih (r := 2 * r) (by omega)
        exact ⟨index, by rw [hIndex]; ring⟩

/-- A factor on both sides of a quotient changes nothing. -/
theorem belongs_mul_right_iff {num den index c : Nat} (hc : 0 < c) :
    Belongs (num * c) (den * c) index ↔ Belongs num den index := by
  have hLe (a b : Nat) : a * (b * c) ≤ 2 * (num * c) ↔ a * b ≤ 2 * num := by
    rw [← Nat.mul_assoc, ← Nat.mul_assoc, Nat.mul_le_mul_right_iff hc]
  have hGe (a b : Nat) : 2 * (num * c) ≤ a * (b * c) ↔ 2 * num ≤ a * b := by
    rw [← Nat.mul_assoc, ← Nat.mul_assoc, Nat.mul_le_mul_right_iff hc]
  constructor
  · rintro ⟨hLower, hUpper, hTie⟩
    simp only [hLe, hGe, ← not_le] at hLower hUpper hTie
    exact ⟨hLower, hUpper, by simpa only [← not_le] using hTie⟩
  · rintro ⟨hLower, hUpper, hTie⟩
    refine ⟨(hLe _ _).mpr hLower, (hGe _ _).mpr hUpper, ?_⟩
    simpa only [← not_le, hLe, hGe] using hTie

end Binary64

namespace Magnitude

open Binary64

theorem ofQuotient?_eq_some {num den : Nat} {m : Magnitude} (h : nearestIndex num den = m.index) :
    ofQuotient? num den = some m := by
  obtain ⟨index, hIndex⟩ := m
  subst h
  exact dif_pos hIndex

theorem index_of_ofQuotient? {num den : Nat} {m : Magnitude} (h : ofQuotient? num den = some m) :
    m.index = nearestIndex num den := by
  simp only [ofQuotient?] at h
  split at h
  · cases h
    rfl
  · cases h

/-- Below the midpoint after the largest magnitude a quotient has a magnitude. -/
theorem exists_ofQuotient? {num den : Nat} (hDen : 0 < den)
    (h : 2 * num < (gridUnits (indexOfInfinity - 1) + gridUnits indexOfInfinity) * den) :
    ∃ m, ofQuotient? num den = some m := by
  have hNext : indexOfInfinity - 1 + 1 = indexOfInfinity := by decide
  have hLast : nearestIndex num den ≤ indexOfInfinity - 1 := by
    apply nearestIndex_le hDen
    rwa [hNext]
  have hFinite : nearestIndex num den < indexOfInfinity :=
    Nat.lt_of_le_of_lt hLast (by decide)
  exact ⟨⟨_, hFinite⟩, ofQuotient?_eq_some rfl⟩

theorem ofNat?_zero : ofNat? 0 = some .zero := by
  have hExact := nearestIndex_gridUnits 0 Nat.one_pos
  rw [gridUnits_zero, Nat.zero_mul] at hExact
  rw [ofNat?, Nat.zero_mul]
  exact ofQuotient?_eq_some hExact

/-- A whole number of at most 53 bits, shifted to the left, is a magnitude if
it is below `2^1024`. -/
theorem exists_ofNat? {r k : Nat} (h : r ≤ 2 ^ 53) (hRange : r * 2 ^ k < 2 ^ 1024) :
    ∃ m, ofNat? (r * 2 ^ k) = some m ∧ m.units = r * 2 ^ k * unitsPerOne := by
  obtain ⟨index, hIndex⟩ := exists_gridUnits_eq (k + 1074) h
  have hUnits : gridUnits index = r * 2 ^ k * unitsPerOne := by
    rw [hIndex, pow_add, Nat.mul_assoc]
  have hFinite : index < indexOfInfinity := by
    rw [← gridUnits_strictMono.lt_iff_lt, hUnits, gridUnits_indexOfInfinity]
    exact Nat.mul_lt_mul_of_pos_right hRange unitsPerOne_pos
  refine ⟨⟨index, hFinite⟩, ofQuotient?_eq_some ?_, hUnits⟩
  have hExact := nearestIndex_gridUnits index Nat.one_pos
  rwa [hUnits, Nat.mul_one] at hExact

/-- Rounding raises a whole number by at most its part in `2^53`. -/
theorem units_of_ofNat?_le {n : Nat} {m : Magnitude} (h : ofNat? n = some m) :
    m.units * 2 ^ 53 ≤ n * unitsPerOne * (2 ^ 53 + 1) := by
  rw [units, index_of_ofQuotient? h]
  by_cases hZero : n = 0
  · subst hZero
    have hExact := nearestIndex_gridUnits 0 Nat.one_pos
    rw [gridUnits_zero, Nat.zero_mul] at hExact
    simp [hExact, gridUnits_zero]
  · have hNormal : 2 ^ 52 * 1 ≤ n * unitsPerOne := by
      rw [Nat.mul_one]
      exact le_trans le_unitsPerOne (Nat.le_mul_of_pos_left _ (Nat.pos_of_ne_zero hZero))
    simpa using gridUnits_nearestIndex_le Nat.one_pos hNormal

end Magnitude

end SnapshotStore
