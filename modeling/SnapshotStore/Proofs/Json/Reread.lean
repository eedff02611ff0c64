import SnapshotStore.Json.Numeral
import SnapshotStore.Decimal.Layout
import SnapshotStore.Proofs.Decimal.Shortest

/-! What stepwise scaling makes of the digits that a magnitude is written with.
It always makes some magnitude of them, and where the digits and the power of
ten are both exact it makes the same one. -/
namespace SnapshotStore.Json

open Binary64 Decimal

/-- The digits and the exponent that the mixed text of a decimal shows. A
decimal that is written out without a fraction shows a zero after the point. -/
def shownDecimal (d : Scaled) : Scaled :=
  if 0 ≤ d.exponent ∧ d.leading ≤ 15 then ⟨d.digits * 10 ^ (d.exponent.toNat + 1), -1⟩ else d

/-- The digits and the exponent that the mixed text of a magnitude shows. -/
def shown (m : Magnitude) : Scaled :=
  if m.index = 0 then ⟨0, -1⟩ else shownDecimal (shortest .even m)

/-- The magnitude that is read from the mixed text of a magnitude. -/
def reread (m : Magnitude) : Magnitude :=
  (scale? (shown m).digits (shown m).exponent).getD .zero

/-! ### Scaling succeeds -/

section Scaling

variable {significand : Nat} {m : Magnitude}

theorem scale?_of_neg {exponent : Int} (hm : Magnitude.ofNat? significand = some m)
    (h : exponent < 0) : scale? significand exponent = some (scaleDown m exponent.natAbs) := by
  rw [scale?, hm]
  exact if_pos h

theorem scale?_of_nonneg {exponent : Nat} (hm : Magnitude.ofNat? significand = some m)
    (h : exponent ≤ 308) : scale? significand exponent = m.mul? (powerOfTen exponent) := by
  have hNotNeg : ¬(exponent : Int) < 0 := by omega
  have hInRange : (exponent : Int) ≤ 308 := by omega
  rw [scale?, hm, Option.bind_some, scaleBy?, if_neg hNotNeg, if_pos hInRange]
  rfl

theorem exists_ofNat?_of_le {n : Nat} (h : n ≤ 10 ^ 308) : ∃ m, Magnitude.ofNat? n = some m := by
  have hTop : 2 * (10 ^ 308 * unitsPerOne) <
      (gridUnits (indexOfInfinity - 1) + gridUnits indexOfInfinity) * 1 := by decide +kernel
  have hScaled := Nat.mul_le_mul_left 2 (Nat.mul_le_mul_right unitsPerOne h)
  exact Magnitude.exists_ofQuotient? Nat.one_pos (Nat.lt_of_le_of_lt hScaled hTop)

theorem exists_scale?_of_neg {exponent : Int} (hDigits : significand ≤ 10 ^ 308)
    (h : exponent < 0) : ∃ m, scale? significand exponent = some m := by
  obtain ⟨m, hm⟩ := exists_ofNat?_of_le hDigits
  exact ⟨_, scale?_of_neg hm h⟩

/-- Two factors that are each raised by at most a part in `2^53` raise their
product by little more than two such parts. -/
theorem mul_lt_of_raised {a b n p unit low high : Nat} (ha : a * 2 ^ 53 ≤ n * unit * (2 ^ 53 + 1))
    (hb : b * 2 ^ 53 ≤ p * unit * (2 ^ 53 + 1)) (hUnit : 0 < unit) (h : 2 * (n * p * unit) ≤ low)
    (hMargin : low * (2 ^ 53 + 1) ^ 2 < high * 2 ^ 106) : 2 * (a * b) < high * unit := by
  refine Nat.lt_of_mul_lt_mul_right (a := 2 ^ 106) ?_
  calc 2 * (a * b) * 2 ^ 106 = 2 * ((a * 2 ^ 53) * (b * 2 ^ 53)) := by ring
    _ ≤ 2 * ((n * unit * (2 ^ 53 + 1)) * (p * unit * (2 ^ 53 + 1))) :=
        Nat.mul_le_mul_left 2 (Nat.mul_le_mul ha hb)
    _ = 2 * (n * p * unit) * ((2 ^ 53 + 1) ^ 2 * unit) := by ring
    _ ≤ low * ((2 ^ 53 + 1) ^ 2 * unit) := Nat.mul_le_mul_right _ h
    _ = low * (2 ^ 53 + 1) ^ 2 * unit := (Nat.mul_assoc _ _ _).symm
    _ < high * 2 ^ 106 * unit := Nat.mul_lt_mul_of_pos_right hMargin hUnit
    _ = high * unit * 2 ^ 106 := Nat.mul_right_comm _ _ _

/-- A product that stays below the midpoint after the third largest magnitude
is not rounded past the largest, although both factors and the product itself
are rounded. -/
theorem exists_scale?_of_nonneg {exponent : Nat} (hDigits : significand ≤ 10 ^ 308)
    (hExponent : exponent ≤ 308)
    (h : 2 * (significand * 10 ^ exponent * unitsPerOne) ≤
      gridUnits (indexOfInfinity - 3) + gridUnits (indexOfInfinity - 2)) :
    ∃ m, scale? significand exponent = some m := by
  obtain ⟨a, ha⟩ := exists_ofNat?_of_le hDigits
  have hPower := pow_le_pow_right₀ (show 1 ≤ 10 by decide) hExponent
  obtain ⟨b, hb⟩ := exists_ofNat?_of_le hPower
  have hMargin : (gridUnits (indexOfInfinity - 3) + gridUnits (indexOfInfinity - 2)) *
        (2 ^ 53 + 1) ^ 2 <
      (gridUnits (indexOfInfinity - 1) + gridUnits indexOfInfinity) * 2 ^ 106 := by
    decide +kernel
  have hProduct := mul_lt_of_raised (Magnitude.units_of_ofNat?_le ha)
    (Magnitude.units_of_ofNat?_le hb) unitsPerOne_pos h hMargin
  rw [scale?_of_nonneg ha hExponent, powerOfTen, hb]
  exact Magnitude.exists_ofQuotient? unitsPerOne_pos hProduct

end Scaling

/-! ### The digits of a magnitude -/

theorem leading_ge_exponent (d : Scaled) : d.exponent ≤ d.leading := by
  rw [Scaled.leading]
  omega

/-- The power of ten of a decimal without a fraction is in the table. -/
theorem exponent_le {m : Magnitude} (h : m.index ≠ 0) {exponent : Nat}
    (hExponent : (shortest .even m).exponent = exponent) : exponent ≤ 308 := by
  have hBelongs := belongs_shortest_of_nonneg .even m h (by omega)
  rw [hExponent, Int.toNat_natCast] at hBelongs
  have hUpper := hBelongs.upper
  have hPositive := shortest_digits_pos .even m h
  have hHere : gridUnits m.index ≤ gridUnits indexOfInfinity :=
    gridUnits_strictMono.monotone m.index_lt.le
  have hNext : gridUnits (m.index + 1) ≤ gridUnits indexOfInfinity :=
    gridUnits_strictMono.monotone m.index_lt
  have hRange : 10 ^ exponent * unitsPerOne ≤ 2 ^ 1024 * unitsPerOne := by
    have hDigits : 10 ^ exponent * unitsPerOne ≤
        (shortest .even m).digits * 10 ^ exponent * unitsPerOne :=
      Nat.mul_le_mul_right _ (Nat.le_mul_of_pos_left _ hPositive)
    rw [← gridUnits_indexOfInfinity]
    omega
  have hPower : 10 ^ exponent ≤ 2 ^ 1024 := Nat.le_of_mul_le_mul_right hRange unitsPerOne_pos
  have hTop : 2 ^ 1024 < 10 ^ 309 := by decide +kernel
  have hLess := (Nat.pow_lt_pow_iff_right (by decide)).mp (Nat.lt_of_le_of_lt hPower hTop)
  exact Nat.le_of_lt_succ hLess

/-- Of the two largest magnitudes the digits are known. -/
theorem isSome_scale?_of_gt (m : Magnitude) (h : indexOfInfinity - 3 < m.index) :
    (scale? (shortest .even m).digits (shortest .even m).exponent).isSome = true := by
  obtain ⟨index, hIndex⟩ := m
  have hLargest : index = indexOfInfinity - 2 ∨ index = indexOfInfinity - 1 := by
    simp only [indexOfInfinity] at h hIndex ⊢
    omega
  rcases hLargest with rfl | rfl
  · decide +kernel +revert
  · decide +kernel +revert

/-- The digits that a magnitude is written with always have a magnitude. -/
theorem exists_scale?_shown (m : Magnitude) :
    ∃ n, scale? (shown m).digits (shown m).exponent = some n := by
  have hBound : 2 ^ 58 * 10 ^ 16 ≤ 10 ^ 308 := by decide +kernel
  unfold shown
  split_ifs with hZero
  · exact exists_scale?_of_neg (Nat.zero_le _) (by decide)
  · have hDigits := shortest_digits_le .even m hZero
    unfold shownDecimal
    split_ifs with hWhole
    · refine exists_scale?_of_neg (le_trans ?_ hBound) (by dsimp only; omega)
      have hLeading := leading_ge_exponent (shortest .even m)
      exact Nat.mul_le_mul hDigits (Nat.pow_le_pow_right (by decide) (by omega))
    · have hSmall : (shortest .even m).digits ≤ 10 ^ 308 :=
        le_trans hDigits (le_trans (Nat.le_mul_of_pos_right _ (by positivity)) hBound)
      by_cases hNeg : (shortest .even m).exponent < 0
      · exact exists_scale?_of_neg hSmall hNeg
      · obtain ⟨exponent, hExponent⟩ := Int.eq_ofNat_of_zero_le (not_lt.mp hNeg)
        have hBelongs := belongs_shortest_of_nonneg .even m hZero (by omega)
        rw [hExponent, Int.toNat_natCast] at hBelongs
        rw [hExponent]
        by_cases hTop : m.index ≤ indexOfInfinity - 3
        · refine exists_scale?_of_nonneg hSmall (exponent_le hZero hExponent) ?_
          refine hBelongs.upper.trans ?_
          rw [Nat.mul_one]
          exact Nat.add_le_add (gridUnits_strictMono.monotone hTop)
            (gridUnits_strictMono.monotone (by omega))
        · rw [← hExponent, ← Option.isSome_iff_exists]
          exact isSome_scale?_of_gt m (not_le.mp hTop)

theorem scale?_shown (m : Magnitude) :
    scale? (shown m).digits (shown m).exponent = some (reread m) := by
  obtain ⟨n, hn⟩ := exists_scale?_shown m
  rw [reread, hn, Option.getD_some]

/-! ### Where scaling is exact -/

/-- What is shown belongs to the magnitude, as a whole number or as a quotient
by a power of ten. -/
theorem belongs_shown (m : Magnitude) :
    (0 ≤ (shown m).exponent →
      Belongs ((shown m).digits * 10 ^ (shown m).exponent.toNat * unitsPerOne) 1 m.index) ∧
    ((shown m).exponent < 0 →
      Belongs ((shown m).digits * unitsPerOne) (10 ^ (shown m).exponent.natAbs) m.index) := by
  unfold shown
  split_ifs with hZero
  · refine ⟨fun h => absurd h (by decide), fun _ => ?_⟩
    rw [hZero]
    exact ⟨by simp [gridUnits_zero], by simp, by simp⟩
  · unfold shownDecimal
    split_ifs with hWhole
    · refine ⟨fun h => absurd h (show ¬(0 : Int) ≤ -1 by decide), fun _ => ?_⟩
      have hBelongs := belongs_shortest_of_nonneg .even m hZero hWhole.1
      rw [← belongs_mul_right_iff (show 0 < 10 by decide), Nat.mul_right_comm, Nat.mul_assoc _ _ 10,
        ← pow_succ, Nat.one_mul] at hBelongs
      exact hBelongs
    · exact ⟨belongs_shortest_of_nonneg .even m hZero, belongs_shortest_of_neg .even m hZero⟩

theorem units_powerOfTen {n : Nat} (h : n ≤ 22) :
    (powerOfTen n).units = 10 ^ n * unitsPerOne := by
  have hOdd : 5 ^ n ≤ 2 ^ 53 := (Nat.pow_le_pow_right (by decide) h).trans (by decide)
  have hSplit : 10 ^ n = 5 ^ n * 2 ^ n := (mul_pow 5 2 n)
  have hRange : 5 ^ n * 2 ^ n < 2 ^ 1024 := by
    rw [← hSplit]
    have hTop : 10 ^ 22 < 2 ^ 1024 := by decide +kernel
    exact Nat.lt_of_le_of_lt (Nat.pow_le_pow_right (by decide) h) hTop
  obtain ⟨m, hm, hUnits⟩ := Magnitude.exists_ofNat? hOdd hRange
  rw [powerOfTen, hSplit, hm, Option.getD_some, hUnits]

theorem belongs_mul {a b n p unit index : Nat} (ha : a = n * unit) (hb : b = p * unit)
    (hUnit : 0 < unit) (h : Belongs (n * p * unit) 1 index) : Belongs (a * b) unit index := by
  have hBelongs := (belongs_mul_right_iff hUnit).mpr h
  rwa [Nat.one_mul, Nat.mul_assoc _ unit, Nat.mul_mul_mul_comm, ← ha, ← hb] at hBelongs

theorem mul?_eq_some {a b m : Magnitude} {n p : Nat} (ha : a.units = n * unitsPerOne)
    (hb : b.units = p * unitsPerOne) (h : Belongs (n * p * unitsPerOne) 1 m.index) :
    a.mul? b = some m := by
  have hBelongs := belongs_mul ha hb unitsPerOne_pos h
  exact Magnitude.ofQuotient?_eq_some (nearestIndex_eq unitsPerOne_pos hBelongs)

/-- Digits of at most 53 bits and a power of ten up to `10^22` are magnitudes
themselves, so that only one rounding is left, and it finds the magnitude. -/
theorem reread_eq_self (m : Magnitude) (hDigits : (shown m).digits ≤ 2 ^ 53)
    (hExponent : (shown m).exponent.natAbs ≤ 22) : reread m = m := by
  have hRange : (shown m).digits * 2 ^ 0 < 2 ^ 1024 := by
    have hTop : 2 ^ 53 < 2 ^ 1024 := by decide +kernel
    rw [pow_zero, Nat.mul_one]
    exact Nat.lt_of_le_of_lt hDigits hTop
  obtain ⟨a, ha, hUnits⟩ := Magnitude.exists_ofNat? hDigits hRange
  rw [pow_zero, Nat.mul_one] at ha hUnits
  have hPower := units_powerOfTen hExponent
  obtain ⟨hWhole, hFraction⟩ := belongs_shown m
  have hScale := scale?_shown m
  by_cases hNeg : (shown m).exponent < 0
  · have hBelongs := (belongs_mul_right_iff unitsPerOne_pos).mpr (hFraction hNeg)
    have hPositive : 0 < 10 ^ (shown m).exponent.natAbs * unitsPerOne :=
      Nat.mul_pos (by positivity) unitsPerOne_pos
    have hFound : a.div? (powerOfTen (shown m).exponent.natAbs) = some m := by
      rw [Magnitude.div?, hPower, hUnits, if_neg hPositive.ne']
      exact Magnitude.ofQuotient?_eq_some (nearestIndex_eq hPositive hBelongs)
    rw [scale?_of_neg ha hNeg, scaleDown, if_pos (by omega), hFound] at hScale
    exact (Option.some_inj.mp hScale).symm
  · obtain ⟨exponent, hEq⟩ := Int.eq_ofNat_of_zero_le (not_lt.mp hNeg)
    rw [hEq, Int.natAbs_natCast] at hPower hExponent
    have hBelongs := hWhole (not_lt.mp hNeg)
    rw [hEq, Int.toNat_natCast] at hBelongs
    rw [hEq, scale?_of_nonneg ha (by omega), mul?_eq_some hUnits hPower hBelongs] at hScale
    exact (Option.some_inj.mp hScale).symm

end SnapshotStore.Json
