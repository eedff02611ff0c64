import SnapshotStore.Binary64.Basic
import Mathlib.Algebra.Order.Ring.Nat
import Mathlib.Tactic.Ring

/-! The grid of magnitudes in runs. An index is a run number and a place in
that run, and within run `k` the magnitudes are the multiples of `2^k` units.
The nearest index of a quotient is pinned by the two midpoints around it. -/
namespace SnapshotStore.Binary64

/-- The place `r` of run `k`. Only the first run has places below `2^52`; the
place `2^53` of a run is the first one of the next run. -/
theorem gridUnits_run {k r : Nat} (hLow : k = 0 ∨ 2 ^ 52 ≤ r) (hHigh : r ≤ 2 ^ 53) :
    gridUnits (k * 2 ^ 52 + r) = r * 2 ^ k := by
  unfold gridUnits
  by_cases hSmall : k * 2 ^ 52 + r < 2 ^ 52
  · have hk : k = 0 := by omega
    subst hk
    rw [if_pos hSmall]
    simp
  · rw [if_neg hSmall]
    by_cases hTop : r = 2 ^ 53
    · subst hTop
      have hMod : (k * 2 ^ 52 + 2 ^ 53) % 2 ^ 52 = 0 := by omega
      have hDiv : (k * 2 ^ 52 + 2 ^ 53) / 2 ^ 52 - 1 = k + 1 := by omega
      rw [hMod, hDiv, pow_succ]
      ring
    · have hMod : (k * 2 ^ 52 + r) % 2 ^ 52 = r - 2 ^ 52 := by omega
      have hDiv : (k * 2 ^ 52 + r) / 2 ^ 52 - 1 = k := by omega
      have hPlace : 2 ^ 52 + (r - 2 ^ 52) = r := by omega
      rw [hMod, hDiv, hPlace]

/-- Every index has a run and a place in it. -/
theorem exists_run (index : Nat) :
    ∃ k r, index = k * 2 ^ 52 + r ∧ r < 2 ^ 53 ∧ (k = 0 ∨ 2 ^ 52 ≤ r) := by
  by_cases hSmall : index < 2 ^ 52
  · exact ⟨0, index, by omega, by omega, Or.inl rfl⟩
  · exact ⟨index / 2 ^ 52 - 1, 2 ^ 52 + index % 2 ^ 52, by omega, by omega, Or.inr (by omega)⟩

theorem gridUnits_zero : gridUnits 0 = 0 := by
  decide

/-- The grid is strictly increasing. -/
theorem gridUnits_lt_succ (index : Nat) : gridUnits index < gridUnits (index + 1) := by
  obtain ⟨k, r, rfl, hHigh, hLow⟩ := exists_run index
  rw [gridUnits_run hLow (by omega), Nat.add_assoc, gridUnits_run (by omega) (by omega)]
  exact Nat.mul_lt_mul_of_pos_right (Nat.lt_succ_self r) (Nat.two_pow_pos k)

theorem gridUnits_strictMono : StrictMono gridUnits :=
  strictMono_nat_of_lt_succ gridUnits_lt_succ

theorem gridUnits_pos {index : Nat} (h : index ≠ 0) : 0 < gridUnits index := by
  have hMono := gridUnits_strictMono (Nat.pos_of_ne_zero h)
  rwa [gridUnits_zero] at hMono

/-! ### Rounding to a whole number -/

/-- The quotient `num / den` rounds to `n`: it lies between the midpoints on
both sides of `n`, and on one of them only if `n` is even. -/
structure RoundsTo (num den n : Nat) : Prop where
  lower : 2 * n * den ≤ 2 * num + den
  upper : 2 * num ≤ 2 * n * den + den
  tie : n % 2 = 1 → 2 * n * den < 2 * num + den ∧ 2 * num < 2 * n * den + den

theorem roundsTo_roundQuotient (num : Nat) {den : Nat} (hDen : 0 < den) :
    RoundsTo num den (roundQuotient num den) := by
  have hDivision := Nat.div_add_mod num den
  have hLeft := Nat.mod_lt num hDen
  unfold roundQuotient
  simp only
  generalize num / den = low at *
  generalize num % den = left at *
  have hLow : 2 * low * den = 2 * (den * low) := by ring
  have hNext : 2 * (low + 1) * den = 2 * (den * low) + 2 * den := by ring
  split_ifs with h1 h2 h3 <;> constructor <;> omega

/-- The run and the place in it to which a quotient is rounded. -/
theorem exists_rounding (num : Nat) {den : Nat} (hDen : 0 < den) :
    ∃ k r, nearestIndex num den = k * 2 ^ 52 + r ∧ RoundsTo num (den * 2 ^ k) r ∧
      (k = 0 ∨ 2 ^ 52 * (den * 2 ^ k) ≤ num) ∧ num < 2 ^ 53 * (den * 2 ^ k) := by
  let k := (num / den).log2 - 52
  have hScaled : 0 < den * 2 ^ k := Nat.mul_pos hDen (Nat.two_pow_pos k)
  refine ⟨k, _, rfl, roundsTo_roundQuotient num hScaled, ?_, ?_⟩
  · by_cases hFirst : k = 0
    · exact Or.inl hFirst
    · right
      have hLog : (num / den).log2 = 52 + k := by omega
      have hZero : num / den ≠ 0 := by
        intro hZero
        rw [hZero, Nat.log2_zero] at hLog
        omega
      have hLe : 2 ^ (52 + k) ≤ num / den := (Nat.le_log2 hZero).mp (by omega)
      calc 2 ^ 52 * (den * 2 ^ k) = 2 ^ (52 + k) * den := by ring
        _ ≤ num := (Nat.le_div_iff_mul_le hDen).mp hLe
  · have hLt : num / den < 2 ^ (53 + k) :=
      lt_of_lt_of_le Nat.lt_log2_self (Nat.pow_le_pow_right (by decide) (by omega))
    calc num < 2 ^ (53 + k) * den := (Nat.div_lt_iff_lt_mul hDen).mp hLt
      _ = 2 ^ 53 * (den * 2 ^ k) := by ring

/-- A quotient below the end of a run rounds to a place of the run. -/
theorem RoundsTo.le {num den n bound : Nat} (h : RoundsTo num den n) (hDen : 0 < den)
    (hBound : num < bound * den) : n ≤ bound := by
  by_contra hFar
  have hStep : 2 * (bound + 1) * den ≤ 2 * n * den := Nat.mul_le_mul_right _ (by omega)
  have hExpand : 2 * (bound + 1) * den = 2 * (bound * den) + 2 * den := by ring
  have hLower := h.lower
  omega

theorem RoundsTo.ge {num den n bound : Nat} (h : RoundsTo num den n) (hDen : 0 < den)
    (hBound : bound * den ≤ num) : bound ≤ n := by
  by_contra hFar
  have hStep : 2 * (n + 1) * den ≤ 2 * bound * den := Nat.mul_le_mul_right _ (by omega)
  have hExpand : 2 * (n + 1) * den = 2 * n * den + 2 * den := by ring
  have hBoundTwice : 2 * bound * den = 2 * (bound * den) := by ring
  have hUpper := h.upper
  omega

/-! ### The nearest index -/

/-- A quotient of units belongs to the magnitude at an index: it lies between
the midpoints to both neighbours, and on one of them only if the index is
even. -/
structure Belongs (num den index : Nat) : Prop where
  lower : (gridUnits (index - 1) + gridUnits index) * den ≤ 2 * num
  upper : 2 * num ≤ (gridUnits index + gridUnits (index + 1)) * den
  tie : index % 2 = 1 → (gridUnits (index - 1) + gridUnits index) * den < 2 * num ∧
    2 * num < (gridUnits index + gridUnits (index + 1)) * den

/-- A rounded quotient is not beyond the midpoint to the next place, and not on it
if its own place is odd. -/
theorem RoundsTo.le_midpoint {num den k r : Nat} (h : RoundsTo num (den * 2 ^ k) r)
    (hFloor : k = 0 ∨ 2 ^ 52 ≤ r) (hTop : r ≤ 2 ^ 53) (hHigh : num < 2 ^ 53 * (den * 2 ^ k)) :
    2 * num ≤ (gridUnits (k * 2 ^ 52 + r) + gridUnits (k * 2 ^ 52 + r + 1)) * den ∧
      (r % 2 = 1 →
        2 * num < (gridUnits (k * 2 ^ 52 + r) + gridUnits (k * 2 ^ 52 + r + 1)) * den) := by
  have hHere : gridUnits (k * 2 ^ 52 + r) = r * 2 ^ k := gridUnits_run hFloor hTop
  obtain ⟨hLower, hUpper, hTie⟩ := h
  by_cases hEnd : r = 2 ^ 53
  · -- At the end of its run a place is farther from the next one.
    have hNext := Nat.mul_le_mul_right den (Nat.le_of_lt (gridUnits_lt_succ (k * 2 ^ 52 + r)))
    have hOwn : gridUnits (k * 2 ^ 52 + r) * den = 2 ^ 53 * (den * 2 ^ k) := by
      rw [hHere, hEnd]
      ring
    rw [Nat.add_mul]
    omega
  · have hMid : (r * 2 ^ k + (r + 1) * 2 ^ k) * den =
        2 * r * (den * 2 ^ k) + den * 2 ^ k := by ring
    rw [hHere, Nat.add_assoc, gridUnits_run (by omega) (by omega), hMid]
    omega

/-- Nor is it below the midpoint from the place before. -/
theorem RoundsTo.midpoint_le {num den k r : Nat} (h : RoundsTo num (den * 2 ^ k) r)
    (hFloor : k = 0 ∨ 2 ^ 52 ≤ r) (hTop : r ≤ 2 ^ 53) (hDen : 0 < den * 2 ^ k)
    (hLow : k = 0 ∨ 2 ^ 52 * (den * 2 ^ k) ≤ num) :
    (gridUnits (k * 2 ^ 52 + r - 1) + gridUnits (k * 2 ^ 52 + r)) * den ≤ 2 * num ∧
      (r % 2 = 1 →
        (gridUnits (k * 2 ^ 52 + r - 1) + gridUnits (k * 2 ^ 52 + r)) * den < 2 * num) := by
  have hHere : gridUnits (k * 2 ^ 52 + r) = r * 2 ^ k := gridUnits_run hFloor hTop
  obtain ⟨hLower, hUpper, hTie⟩ := h
  by_cases hStart : r = 0 ∨ (k ≠ 0 ∧ r = 2 ^ 52)
  · rcases hStart with rfl | ⟨hRun, rfl⟩
    · have hk : k = 0 := by omega
      subst hk
      simp [gridUnits_zero]
    · -- At the start of its run a place is nearer to the one before it.
      have hStep := gridUnits_strictMono (Nat.sub_lt (show 0 < k * 2 ^ 52 + 2 ^ 52 by omega)
        Nat.one_pos)
      have hPrior := Nat.mul_le_mul_right den (Nat.le_of_lt hStep)
      have hOwn : gridUnits (k * 2 ^ 52 + 2 ^ 52) * den = 2 ^ 52 * (den * 2 ^ k) := by
        rw [hHere]
        ring
      rw [Nat.add_mul]
      omega
  · have hPrior : gridUnits (k * 2 ^ 52 + r - 1) = (r - 1) * 2 ^ k := by
      rw [Nat.add_sub_assoc (by omega), gridUnits_run (by omega) (by omega)]
    have hMid : ((r - 1) * 2 ^ k + r * 2 ^ k) * den + den * 2 ^ k =
        2 * r * (den * 2 ^ k) := by
      obtain ⟨p, rfl⟩ : ∃ p, r = p + 1 := ⟨r - 1, by omega⟩
      rw [Nat.add_sub_cancel]
      ring
    rw [hPrior, hHere]
    omega

/-- A quotient belongs to the index at which it is rounded. -/
theorem belongs_nearestIndex (num : Nat) {den : Nat} (hDen : 0 < den) :
    Belongs num den (nearestIndex num den) := by
  obtain ⟨k, r, hIndex, hRounds, hLow, hHigh⟩ := exists_rounding num hDen
  rw [hIndex]
  have hScaled : 0 < den * 2 ^ k := Nat.mul_pos hDen (Nat.two_pow_pos k)
  have hTop : r ≤ 2 ^ 53 := hRounds.le hScaled hHigh
  have hFloor : k = 0 ∨ 2 ^ 52 ≤ r := hLow.imp_right (hRounds.ge hScaled)
  have hAfter := hRounds.le_midpoint hFloor hTop hHigh
  have hBefore := hRounds.midpoint_le hFloor hTop hScaled hLow
  exact ⟨hBefore.1, hAfter.1, fun hOdd => ⟨hBefore.2 (by omega), hAfter.2 (by omega)⟩⟩

/-- No larger index has a quotient that is not larger. Two neighbours would share the
midpoint between them, and one of them is odd. -/
theorem Belongs.le {num more den i j : Nat} (hi : Belongs more den i) (hj : Belongs num den j)
    (hDen : 0 < den) (hMore : num ≤ more) : j ≤ i := by
  by_contra hLess
  have hUpper := hi.upper
  have hLower := hj.lower
  have hBetween : gridUnits (i + 1) ≤ gridUnits j :=
    gridUnits_strictMono.monotone (by omega)
  by_cases hNext : j = i + 1
  · subst hNext
    rw [Nat.add_sub_cancel] at hLower
    rcases Nat.mod_two_eq_zero_or_one i with hEven | hOdd
    · have hStrict := (hj.tie (by omega)).1
      rw [Nat.add_sub_cancel] at hStrict
      omega
    · have hStrict := (hi.tie hOdd).2
      omega
  · have hApart : gridUnits i < gridUnits (j - 1) := gridUnits_strictMono (by omega)
    have hMidpoints : (gridUnits i + gridUnits (i + 1)) * den <
        (gridUnits (j - 1) + gridUnits j) * den :=
      Nat.mul_lt_mul_of_pos_right (by omega) hDen
    omega

/-- Rounding is monotone. -/
theorem nearestIndex_mono {num more den : Nat} (hDen : 0 < den) (h : num ≤ more) :
    nearestIndex num den ≤ nearestIndex more den :=
  (belongs_nearestIndex more hDen).le (belongs_nearestIndex num hDen) hDen h

/-- The nearest index is the one that the quotient belongs to. -/
theorem nearestIndex_eq {num den index : Nat} (hDen : 0 < den) (h : Belongs num den index) :
    nearestIndex num den = index :=
  have hOwn := belongs_nearestIndex num hDen
  Nat.le_antisymm (h.le hOwn hDen le_rfl) (hOwn.le h hDen le_rfl)

/-- Below the midpoint after an index nothing rounds past it. -/
theorem nearestIndex_le {num den index : Nat} (hDen : 0 < den)
    (h : 2 * num < (gridUnits index + gridUnits (index + 1)) * den) :
    nearestIndex num den ≤ index := by
  by_contra hFar
  have hLower := (belongs_nearestIndex num hDen).lower
  have hPrior : gridUnits index ≤ gridUnits (nearestIndex num den - 1) :=
    gridUnits_strictMono.monotone (by omega)
  have hOwn : gridUnits (index + 1) ≤ gridUnits (nearestIndex num den) :=
    gridUnits_strictMono.monotone (by omega)
  have hMidpoints := Nat.mul_le_mul_right den (Nat.add_le_add hPrior hOwn)
  omega

/-- What is on the grid already is not moved. -/
theorem nearestIndex_gridUnits (index : Nat) {den : Nat} (hDen : 0 < den) :
    nearestIndex (gridUnits index * den) den = index := by
  have hAfter := Nat.mul_lt_mul_of_pos_right (gridUnits_lt_succ index) hDen
  by_cases hIndex : index = 0
  · subst hIndex
    apply Nat.le_zero.mp
    apply nearestIndex_le hDen
    rw [Nat.add_mul]
    omega
  · have hPrior := Nat.mul_lt_mul_of_pos_right
      (gridUnits_strictMono (Nat.sub_lt (Nat.pos_of_ne_zero hIndex) Nat.one_pos)) hDen
    apply nearestIndex_eq hDen
    constructor <;> simp only [Nat.add_mul] <;> omega

end SnapshotStore.Binary64
