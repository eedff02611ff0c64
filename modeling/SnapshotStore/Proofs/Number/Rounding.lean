import SnapshotStore.Proofs.Number.Order

/-! How floating arithmetic rounds. A sum is the exact sum, rounded once, and a whole
number is rounded as its number of units is. Rounding is monotone and does not move
what is floating already, so it does not pass by a floating number. -/
namespace SnapshotStore

namespace Binary64

variable {f g bound : Binary64} {units i : Int}

theorem exactUnits_neg (f : Binary64) : f.neg.exactUnits = -f.exactUnits := by
  cases f with
  | nan => rfl
  | infinite negative => rfl
  | finite negative m => exact signed_not negative m.units

theorem isFinite_of_add (h : (f.add g).isFinite = true) :
    f.isFinite = true ∧ g.isFinite = true := by
  cases f with
  | nan => cases h
  | infinite negative =>
      cases g with
      | nan => cases h
      | infinite sign =>
          change (if negative = sign then infinite negative else nan).isFinite = true at h
          split_ifs at h
          · cases h
          · cases h
      | finite sign n => cases h
  | finite negative m =>
      cases g with
      | nan => cases h
      | infinite sign => cases h
      | finite sign n => exact ⟨rfl, rfl⟩

theorem isFinite_neg (f : Binary64) : f.neg.isFinite = f.isFinite := by
  cases f <;> rfl

theorem isFinite_of_sub (h : (f.sub g).isFinite = true) :
    f.isFinite = true ∧ g.isFinite = true :=
  (isFinite_of_add h).imp_right g.isFinite_neg.symm.trans

/-! ### Rounding a number of units -/

theorem exactUnits_ofUnits (h : (ofUnits units).isFinite = true) : (ofUnits units).exactUnits =
    signed (units < 0) (gridUnits (nearestIndex units.natAbs 1)) := by
  unfold ofUnits at h ⊢
  cases hMagnitude : Magnitude.ofQuotient? units.natAbs 1 with
  | none => rw [hMagnitude] at h; cases h
  | some m =>
      change signed _ (gridUnits m.index) = _
      rw [Magnitude.index_of_ofQuotient? hMagnitude]

theorem nearestIndex_zero : nearestIndex (Int.natAbs 0) 1 = 0 :=
  Nat.le_zero.mp (nearestIndex_le_of_le Nat.one_pos (by simp))

/-- Rounding is monotone on both sides of zero. -/
theorem exactUnits_ofUnits_mono {more : Int} (hUnits : (ofUnits units).isFinite = true)
    (hMore : (ofUnits more).isFinite = true) (h : units ≤ more) :
    (ofUnits units).exactUnits ≤ (ofUnits more).exactUnits := by
  rw [exactUnits_ofUnits hUnits, exactUnits_ofUnits hMore]
  by_cases hBelow : units < 0
  · by_cases hAlso : more < 0
    · have hGrid := gridUnits_strictMono.monotone
        (nearestIndex_mono Nat.one_pos (show more.natAbs ≤ units.natAbs by omega))
      simp only [hBelow, hAlso, decide_true, signed, if_true]
      omega
    · simp only [hBelow, hAlso, decide_true, decide_false, signed, if_true, Bool.false_eq_true,
        if_false]
      omega
  · have hAlso : ¬ more < 0 := by omega
    have hGrid := gridUnits_strictMono.monotone
      (nearestIndex_mono Nat.one_pos (show units.natAbs ≤ more.natAbs by omega))
    simp only [hBelow, hAlso, decide_false, signed, Bool.false_eq_true, if_false]
    omega

/-- What is no farther from zero than some floating number is not rounded past the
largest. -/
theorem isFinite_ofUnits (hf : f.isFinite = true) (h : units.natAbs ≤ f.exactUnits.natAbs) :
    (ofUnits units).isFinite = true := by
  cases f with
  | nan => cases hf
  | infinite negative => cases hf
  | finite negative m =>
      have hBound : units.natAbs ≤ gridUnits m.index * 1 := by
        change units.natAbs ≤ (signed negative (gridUnits m.index)).natAbs at h
        cases negative <;> simp only [signed, if_true, Bool.false_eq_true, if_false] at h <;> omega
      have hIndex := lt_of_le_of_lt (nearestIndex_le_of_le Nat.one_pos hBound) m.index_lt
      have hMagnitude : Magnitude.ofQuotient? units.natAbs 1 = some ⟨_, hIndex⟩ :=
        Magnitude.ofQuotient?_eq_some rfl
      rw [ofUnits, hMagnitude]
      rfl

/-- What is floating already is not moved. -/
theorem ofUnits_exactUnits (hf : f.isFinite = true) :
    (ofUnits f.exactUnits).isFinite = true ∧
      (ofUnits f.exactUnits).exactUnits = f.exactUnits := by
  have hFinite := isFinite_ofUnits hf le_rfl
  refine ⟨hFinite, ?_⟩
  rw [exactUnits_ofUnits hFinite]
  cases f with
  | nan => cases hf
  | infinite negative => cases hf
  | finite negative m =>
      have hIndex := nearestIndex_gridUnits m.index Nat.one_pos
      rw [Nat.mul_one] at hIndex
      change signed (signed negative m.units < 0)
        (gridUnits (nearestIndex (signed negative m.units).natAbs 1)) = signed negative m.units
      rw [natAbs_signed, Magnitude.units, hIndex]
      cases negative with
      | false => rfl
      | true =>
          simp only [signed, if_true, decide_eq_true_eq]
          split_ifs <;> omega

/-- What a floating number is at most, the rounded number is too. -/
theorem le_exactUnits_ofUnits (hf : f.isFinite = true) (hUnits : (ofUnits units).isFinite = true)
    (h : f.exactUnits ≤ units) : f.exactUnits ≤ (ofUnits units).exactUnits := by
  obtain ⟨hFinite, hSame⟩ := ofUnits_exactUnits hf
  rw [← hSame]
  exact exactUnits_ofUnits_mono hFinite hUnits h

/-- What a floating number is at least, the rounded number is too. -/
theorem exactUnits_ofUnits_le (hf : f.isFinite = true) (hUnits : (ofUnits units).isFinite = true)
    (h : units ≤ f.exactUnits) : (ofUnits units).exactUnits ≤ f.exactUnits := by
  obtain ⟨hFinite, hSame⟩ := ofUnits_exactUnits hf
  rw [← hSame]
  exact exactUnits_ofUnits_mono hUnits hFinite h

/-! ### Sums -/

/-- The sum of finite numbers is their exact sum, rounded. Of zero only the sign is not
told by the exact sum. -/
theorem add_of_isFinite (hf : f.isFinite = true) (hg : g.isFinite = true) :
    (f.add g).isFinite = (ofUnits (f.exactUnits + g.exactUnits)).isFinite ∧
      (f.add g).exactUnits = (ofUnits (f.exactUnits + g.exactUnits)).exactUnits := by
  cases f with
  | nan => cases hf
  | infinite negative => cases hf
  | finite negative m =>
      cases g with
      | nan => cases hg
      | infinite sign => cases hg
      | finite sign n =>
          have hSum : (finite negative m).exactUnits + (finite sign n).exactUnits =
              signed negative m.units + signed sign n.units := rfl
          rw [hSum]
          simp only [add]
          split_ifs with hZero
          · have hFinite : (ofUnits 0).isFinite = true :=
              isFinite_ofUnits (f := zero) rfl (Nat.zero_le _)
            have hNone : (Magnitude.zero).units = 0 := gridUnits_zero
            rw [hZero, exactUnits_ofUnits hFinite, nearestIndex_zero, gridUnits_zero, hFinite]
            simp only [exactUnits, hNone]
            cases negative && sign <;> exact ⟨rfl, rfl⟩
          · exact ⟨rfl, rfl⟩

/-- A sum that is at least some floating number is not rounded below it. -/
theorem le_exactUnits_add (h : (f.add g).isFinite = true) (hBound : bound.isFinite = true)
    (hSum : bound.exactUnits ≤ f.exactUnits + g.exactUnits) :
    bound.exactUnits ≤ (f.add g).exactUnits := by
  obtain ⟨hf, hg⟩ := isFinite_of_add h
  obtain ⟨hFinite, hUnits⟩ := add_of_isFinite hf hg
  rw [hUnits]
  exact le_exactUnits_ofUnits hBound (hFinite ▸ h) hSum

/-- A sum that is at most some floating number is not rounded above it. -/
theorem exactUnits_add_le (h : (f.add g).isFinite = true) (hBound : bound.isFinite = true)
    (hSum : f.exactUnits + g.exactUnits ≤ bound.exactUnits) :
    (f.add g).exactUnits ≤ bound.exactUnits := by
  obtain ⟨hf, hg⟩ := isFinite_of_add h
  obtain ⟨hFinite, hUnits⟩ := add_of_isFinite hf hg
  rw [hUnits]
  exact exactUnits_ofUnits_le hBound (hFinite ▸ h) hSum

/-- A sum that is not negative is not rounded to a negative one. -/
theorem exactUnits_add_nonneg (h : (f.add g).isFinite = true)
    (hSum : 0 ≤ f.exactUnits + g.exactUnits) : 0 ≤ (f.add g).exactUnits :=
  le_exactUnits_add h (show zero.isFinite = true from rfl) hSum

/-- A covered difference is not rounded to a negative one. -/
theorem exactUnits_sub_nonneg (h : (f.sub g).isFinite = true)
    (hCovered : g.exactUnits ≤ f.exactUnits) : 0 ≤ (f.sub g).exactUnits := by
  refine exactUnits_add_nonneg h ?_
  rw [exactUnits_neg]
  omega

/-! ### Whole numbers -/

theorem exactUnits_ofMagnitude?_nonneg (m : Option Magnitude) :
    0 ≤ (ofMagnitude? false m).exactUnits := by
  cases m with
  | none => rfl
  | some m => exact Int.natCast_nonneg m.units

theorem exactUnits_ofInt_nonneg {n : Int} (h : 0 ≤ n) : 0 ≤ (ofInt n).exactUnits := by
  rw [ofInt, decide_eq_false (by omega)]
  exact exactUnits_ofMagnitude?_nonneg _

/-- A whole number is rounded as its number of units is. -/
theorem ofInt_eq_ofUnits (n : Int) : ofInt n = ofUnits (n * unitsPerOne) := by
  have hOne : (0 : Int) < unitsPerOne := by exact_mod_cast unitsPerOne_pos
  have hSign : n < 0 ↔ n * unitsPerOne < 0 :=
    ⟨fun h => Int.mul_neg_of_neg_of_pos h hOne,
      fun h => lt_of_not_ge fun hNonneg => h.not_ge (Int.mul_nonneg hNonneg hOne.le)⟩
  rw [ofInt, ofUnits, Magnitude.ofNat?, Int.natAbs_mul, Int.natAbs_natCast,
    decide_eq_decide.mpr hSign]

theorem le_exactUnits_ofInt {n : Int} (hf : f.isFinite = true) (hn : (ofInt n).isFinite = true)
    (h : f.exactUnits ≤ n * unitsPerOne) : f.exactUnits ≤ (ofInt n).exactUnits := by
  rw [ofInt_eq_ofUnits] at hn ⊢
  exact le_exactUnits_ofUnits hf hn h

theorem exactUnits_ofInt_le {n : Int} (hf : f.isFinite = true) (hn : (ofInt n).isFinite = true)
    (h : n * unitsPerOne ≤ f.exactUnits) : (ofInt n).exactUnits ≤ f.exactUnits := by
  rw [ofInt_eq_ofUnits] at hn ⊢
  exact exactUnits_ofUnits_le hf hn h

/-- Up to 2^53 a whole number is floating already. -/
theorem exactUnits_ofInt (h : i.natAbs ≤ 2 ^ 53) : (ofInt i).exactUnits = i * unitsPerOne := by
  have hRange : i.natAbs * 2 ^ 0 < 2 ^ 1024 := by
    have hTop : 2 ^ 53 < 2 ^ 1024 := by
      rw [Nat.pow_lt_pow_iff_right] <;> decide
    rw [Nat.pow_zero, Nat.mul_one]
    exact lt_of_le_of_lt h hTop
  obtain ⟨m, hNearest, hUnits⟩ := Magnitude.exists_ofNat? h hRange
  rw [Nat.pow_zero, Nat.mul_one] at hNearest hUnits
  rw [ofInt, hNearest]
  change signed (i < 0) m.units = i * unitsPerOne
  rw [hUnits]
  by_cases hNegative : i < 0
  · rw [signed, if_pos (decide_eq_true hNegative), Nat.cast_mul,
      Int.ofNat_natAbs_of_nonpos hNegative.le, Int.neg_mul, Int.neg_neg]
  · rw [signed, if_neg (by simpa using hNegative), Nat.cast_mul,
      Int.natAbs_of_nonneg (not_lt.mp hNegative)]

/-- No whole number of 64 bits is rounded past the largest floating one. -/
theorem isFinite_ofInt (h : i.natAbs ≤ 2 ^ 63) : (ofInt i).isFinite = true := by
  have hRange : 1 * 2 ^ 63 < 2 ^ 1024 := by
    rw [Nat.one_mul, Nat.pow_lt_pow_iff_right] <;> decide
  obtain ⟨m, -, hUnits⟩ := Magnitude.exists_ofNat? (k := 63) Nat.one_le_two_pow hRange
  rw [ofInt_eq_ofUnits]
  apply isFinite_ofUnits (f := .finite false m) rfl
  change (i * unitsPerOne).natAbs ≤ m.units
  rw [hUnits, Int.natAbs_mul, Int.natAbs_natCast, Nat.one_mul]
  exact Nat.mul_le_mul_right _ h

/-- What is not above a rounded whole number is not above the number itself, unless it
is the rounded one and rounding has moved it. -/
theorem le_or_eq_ofInt (hf : f.isFinite = true) (hi : (ofInt i).isFinite = true)
    (h : f.exactUnits ≤ (ofInt i).exactUnits) :
    f.exactUnits ≤ i * unitsPerOne ∨ 2 ^ 53 < i.natAbs ∧ f.exactUnits = (ofInt i).exactUnits := by
  by_cases hBelow : f.exactUnits ≤ i * unitsPerOne
  · exact Or.inl hBelow
  · refine Or.inr ⟨lt_of_not_ge fun hSmall => ?_, ?_⟩
    · rw [exactUnits_ofInt hSmall] at h
      exact hBelow h
    · exact le_antisymm h (exactUnits_ofInt_le hf hi (not_le.mp hBelow).le)

/-- What is not below a rounded whole number is not below the number itself either, with
the same exception. -/
theorem ge_or_eq_ofInt (hf : f.isFinite = true) (hi : (ofInt i).isFinite = true)
    (h : (ofInt i).exactUnits ≤ f.exactUnits) :
    i * unitsPerOne ≤ f.exactUnits ∨ 2 ^ 53 < i.natAbs ∧ f.exactUnits = (ofInt i).exactUnits := by
  by_cases hAbove : i * unitsPerOne ≤ f.exactUnits
  · exact Or.inl hAbove
  · refine Or.inr ⟨lt_of_not_ge fun hSmall => ?_, ?_⟩
    · rw [exactUnits_ofInt hSmall] at h
      exact hAbove h
    · exact le_antisymm (le_exactUnits_ofInt hf hi (not_le.mp hAbove).le) h

/-- Finite numbers of as many units are the same value. -/
theorem sameValue_of_exactUnits {g : Binary64} (hf : f.isFinite = true) (hg : g.isFinite = true)
    (h : f.exactUnits = g.exactUnits) : f.sameValue g = true := by
  cases f with
  | nan => cases hf
  | infinite negative => cases hf
  | finite negative m =>
      cases g with
      | nan => cases hg
      | infinite sign => cases hg
      | finite sign n =>
          have hPlaces := compare_signed negative sign m.index n.index
          exact beq_iff_eq.mpr (congrArg some (hPlaces.trans (compare_eq_iff_eq.mpr h)))

end Binary64

end SnapshotStore
