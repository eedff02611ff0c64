import SnapshotStore.Proofs.Number.Rounding

/-! Sums and differences of stored numbers keep the sign that they should have. Taking
whole numbers as floating ones keeps the order, so a difference that is covered in the
exact order is there and is not negative. -/
namespace SnapshotStore

namespace Number

open Binary64

variable {a b n : Number}

theorem toInt_of_ofInt? {i : Int} (h : ofInt? i = some n) :
    ∃ k : Int64, n = .int k ∧ k.toInt = i := by
  unfold ofInt? at h
  split_ifs at h with hFits
  exact ⟨_, (Option.some.inj h).symm, Int64.toInt_ofInt_of_le hFits.1 hFits.2⟩

theorem eq_of_ofFinite? {f : Binary64} (h : ofFinite? f = some n) :
    n = .float f ∧ f.isFinite = true := by
  unfold ofFinite? at h
  split_ifs at h with hFinite
  exact ⟨(Option.some.inj h).symm, hFinite⟩

/-! ### Taken as floating -/

/-- Taking a finite number as floating does not make it infinite. -/
theorem isFinite_toFloat (h : n.isFinite = true) : n.toFloat.isFinite = true := by
  cases n with
  | int i =>
      have hLow := i.le_toInt
      have hHigh := i.toInt_lt
      exact isFinite_ofInt (by omega)
  | float f => exact h

theorem isFinite_of_toFloat (h : n.toFloat.isFinite = true) : n.isFinite = true := by
  cases n with
  | int i => rfl
  | float f => exact h

/-- Taking numbers as floating ones keeps their order. -/
theorem exactUnits_toFloat_mono (ha : a.isFinite = true) (hb : b.isFinite = true)
    (h : a.exactUnits ≤ b.exactUnits) : a.toFloat.exactUnits ≤ b.toFloat.exactUnits := by
  have hRounded : ∀ {c : Number}, c.isFinite = true →
      (Binary64.ofUnits c.exactUnits).isFinite = true ∧
        c.toFloat.exactUnits = (Binary64.ofUnits c.exactUnits).exactUnits := by
    intro c hc
    cases c with
    | int i =>
        have hFinite := isFinite_toFloat hc
        rw [toFloat, ofInt_eq_ofUnits] at hFinite ⊢
        exact ⟨hFinite, rfl⟩
    | float f => exact (ofUnits_exactUnits hc).imp_right Eq.symm
  obtain ⟨haFinite, haUnits⟩ := hRounded ha
  obtain ⟨hbFinite, hbUnits⟩ := hRounded hb
  rw [haUnits, hbUnits]
  exact exactUnits_ofUnits_mono haFinite hbFinite h

/-! ### Sums and differences -/

/-- Two whole numbers have a whole difference, and others the rounded one. -/
theorem sub?_cases (h : a.sub? b = some n) :
    (∃ i j k, a = .int i ∧ b = .int j ∧ n = .int k ∧ k.toInt = i.toInt - j.toInt) ∨
    (a.isInteger = false ∨ b.isInteger = false) ∧ n = .float (a.toFloat.sub b.toFloat) ∧
      (a.toFloat.sub b.toFloat).isFinite = true := by
  cases a with
  | int i =>
      cases b with
      | int j =>
          obtain ⟨k, rfl, hk⟩ := toInt_of_ofInt? h
          exact Or.inl ⟨i, j, k, rfl, rfl, rfl, hk⟩
      | float g => exact Or.inr ⟨Or.inr rfl, eq_of_ofFinite? h⟩
  | float f => cases b <;> exact Or.inr ⟨Or.inl rfl, eq_of_ofFinite? h⟩

theorem add?_cases (h : a.add? b = some n) :
    (∃ i j k, a = .int i ∧ b = .int j ∧ n = .int k ∧ k.toInt = i.toInt + j.toInt) ∨
    (a.isInteger = false ∨ b.isInteger = false) ∧ n = .float (a.toFloat.add b.toFloat) ∧
      (a.toFloat.add b.toFloat).isFinite = true := by
  cases a with
  | int i =>
      cases b with
      | int j =>
          obtain ⟨k, rfl, hk⟩ := toInt_of_ofInt? h
          exact Or.inl ⟨i, j, k, rfl, rfl, rfl, hk⟩
      | float g => exact Or.inr ⟨Or.inr rfl, eq_of_ofFinite? h⟩
  | float f => cases b <;> exact Or.inr ⟨Or.inl rfl, eq_of_ofFinite? h⟩

/-! ### What may be a balance -/

/-- Finite, and not below zero in the numeric order. -/
def IsBalance (n : Number) : Prop :=
  n.isFinite = true ∧ n.order (.int 0) ≠ .lt

theorem isBalance_iff : n.IsBalance ↔ n.isFinite = true ∧ 0 ≤ n.exactUnits := by
  refine and_congr_right fun hFinite => ?_
  have hZero : (Number.int 0).exactUnits = 0 := Int.zero_mul _
  rw [order_eq_compare hFinite rfl, hZero, Ne, compare_lt_iff_lt, not_lt]

theorem isBalance_int {i : Int64} : (Number.int i).IsBalance ↔ 0 ≤ i.toInt := by
  have hOne : (0 : Int) < unitsPerOne := by exact_mod_cast unitsPerOne_pos
  rw [isBalance_iff]
  exact ⟨fun h => Int.nonneg_of_mul_nonneg_left h.2 hOne,
    fun h => ⟨rfl, Int.mul_nonneg h hOne.le⟩⟩

theorem isBalance_zeroLike (n : Number) : n.zeroLike.IsBalance := by
  cases n with
  | int i => exact isBalance_int.mpr (Int.le_refl 0)
  | float f => exact isBalance_iff.mpr ⟨rfl, Int.natCast_nonneg _⟩

/-- The sign of a finite number, as the order of places sees it. -/
theorem compare?_zero (negative : Bool) (m : Magnitude) :
    (finite negative m).compare? Binary64.zero = some (compare (signed negative m.units) 0) := by
  have hPlaces := compare_signed negative false m.index 0
  rw [gridUnits_zero] at hPlaces
  exact congrArg some hPlaces

theorem isBalance_of_isNegative (hFinite : n.isFinite = true) (h : n.isNegative = false) :
    n.IsBalance := by
  cases n with
  | int i => exact isBalance_int.mpr (by simpa [isNegative] using h)
  | float f =>
      cases f with
      | nan => cases hFinite
      | infinite negative => cases hFinite
      | finite negative m =>
          have hNonneg : 0 ≤ signed negative m.units := by
            simpa [isNegative, Binary64.isNegative, compare?_zero, compare_lt_iff_lt] using h
          exact isBalance_iff.mpr ⟨rfl, hNonneg⟩

theorem exactUnits_nonneg_of_isPositive (h : n.isPositive = true) : 0 ≤ n.toFloat.exactUnits := by
  cases n with
  | int i =>
      have hPositive : 0 < i.toInt := by simpa [isPositive] using h
      exact exactUnits_ofInt_nonneg hPositive.le
  | float f =>
      cases f with
      | nan => exact Int.le_refl 0
      | infinite negative => exact Int.le_refl 0
      | finite negative m =>
          have hPositive : 0 < signed negative m.units := by
            simpa [isPositive, Binary64.isPositive, compare?_zero, compare_gt_iff_gt] using h
          exact hPositive.le

theorem IsBalance.toFloat_nonneg (h : n.IsBalance) : 0 ≤ n.toFloat.exactUnits := by
  cases n with
  | int i => exact exactUnits_ofInt_nonneg (isBalance_int.mp h)
  | float f => exact (isBalance_iff.mp h).2

/-- A balance with a positive amount added is a balance. -/
theorem isBalance_add? (ha : a.IsBalance) (hb : b.isPositive = true) (h : a.add? b = some n) :
    n.IsBalance := by
  rcases add?_cases h with ⟨i, j, k, rfl, rfl, rfl, hk⟩ | ⟨-, rfl, hResult⟩
  · have hHeld := isBalance_int.mp ha
    have hAmount : 0 < j.toInt := by simpa [isPositive] using hb
    exact isBalance_int.mpr (by omega)
  · exact isBalance_iff.mpr ⟨hResult, exactUnits_add_nonneg hResult
      (Int.add_nonneg ha.toFloat_nonneg (exactUnits_nonneg_of_isPositive hb))⟩

/-- What is left of a balance by an amount that it covers is a balance. The cover
is checked between the exact values, and holds between the rounded ones too. -/
theorem isBalance_sub? (ha : a.IsBalance) (hCovered : a.order b ≠ .lt)
    (h : a.sub? b = some n) : n.IsBalance := by
  rcases sub?_cases h with ⟨i, j, k, rfl, rfl, rfl, hk⟩ | ⟨-, rfl, hResult⟩
  · have hLess : ¬ i.toInt < j.toInt := by simpa [order, compare_lt_iff_lt] using hCovered
    exact isBalance_int.mpr (by omega)
  · obtain ⟨-, hAmount⟩ := isFinite_of_sub hResult
    have hb := isFinite_of_toFloat hAmount
    rw [order_eq_compare ha.1 hb, Ne, compare_lt_iff_lt, not_lt] at hCovered
    exact isBalance_iff.mpr ⟨hResult,
      exactUnits_sub_nonneg hResult (exactUnits_toFloat_mono hb ha.1 hCovered)⟩

theorem exists_ofFinite? {f : Binary64} (h : f.isFinite = true) : ∃ n, ofFinite? f = some n :=
  ⟨.float f, if_pos h⟩

/-- An amount that is not negative can be taken from what covers it. -/
theorem exists_sub? (ha : a.isFinite = true) (hb : b.isFinite = true) (hNonneg : 0 ≤ b.exactUnits)
    (hCovered : b.exactUnits ≤ a.exactUnits) : ∃ n, a.sub? b = some n := by
  have hFloats : ((a.toFloat).sub b.toFloat).isFinite = true := by
    have hZero : 0 ≤ b.toFloat.exactUnits := (isBalance_iff.mpr ⟨hb, hNonneg⟩).toFloat_nonneg
    have hLess := exactUnits_toFloat_mono hb ha hCovered
    have hFinite := isFinite_toFloat ha
    rw [Binary64.sub, (add_of_isFinite hFinite ((b.toFloat.isFinite_neg).trans
      (isFinite_toFloat hb))).1, exactUnits_neg]
    exact isFinite_ofUnits hFinite (by omega)
  cases a with
  | int i =>
      cases b with
      | int j =>
          have hOne : (0 : ℤ) < unitsPerOne := by exact_mod_cast unitsPerOne_pos
          have hLow : 0 ≤ j.toInt := Int.nonneg_of_mul_nonneg_left hNonneg hOne
          have hLess : j.toInt ≤ i.toInt := Int.le_of_mul_le_mul_right hCovered hOne
          have hHigh := i.toInt_lt
          exact ⟨_, if_pos (by omega)⟩
      | float g => exact exists_ofFinite? hFloats
  | float f => cases b <;> exact exists_ofFinite? hFloats

end Number

end SnapshotStore
