import SnapshotStore.Proofs.Number.Value

/-! The two floating zeros. They are the only numbers of the same value that are not the
same number, so what comes near a comparison of values has to look at them. -/
namespace SnapshotStore

theorem Magnitude.eq_zero_of_units {m : Magnitude} (h : m.units = 0) : m = .zero := by
  have hIndex : m.index = 0 := by
    apply Binary64.gridUnits_strictMono.injective
    rw [Binary64.gridUnits_zero]
    exact h
  cases m
  cases hIndex
  rfl

theorem Magnitude.units_zero : Magnitude.zero.units = 0 :=
  Binary64.gridUnits_zero

namespace Binary64

variable {f g : Binary64} {negative sign : Bool}

theorem exactUnits_zeros (negative : Bool) : (finite negative .zero).exactUnits = 0 := by
  rw [exactUnits, Magnitude.units_zero]
  cases negative <;> rfl

theorem exists_zero_of_exactUnits (hFinite : f.isFinite = true) (h : f.exactUnits = 0) :
    ∃ negative, f = .finite negative .zero := by
  cases f with
  | nan => cases hFinite
  | infinite negative => cases hFinite
  | finite negative m =>
      have hUnits : m.units = 0 := by
        rw [← natAbs_signed negative m.units]
        exact Int.natAbs_eq_zero.mpr h
      exact ⟨negative, by rw [Magnitude.eq_zero_of_units hUnits]⟩

/-- What has the value of a number is this number, or the zero of the other sign. -/
theorem eq_or_zeros_of_sameValue (h : f.sameValue g = true) :
    f = g ∨ ∃ negative, f = .finite (!negative) .zero ∧ g = .finite negative .zero := by
  by_cases hZero : g.place? = some 0
  · obtain ⟨negative, rfl⟩ := exists_zero_of_place? hZero
    rw [sameValue, beq_iff_eq, compare?, hZero] at h
    cases hPlace : f.place? with
    | none => simp [hPlace] at h
    | some place =>
        rw [hPlace] at h
        obtain rfl : place = 0 := compare_eq_iff_eq.mp (Option.some.inj h)
        obtain ⟨sign, rfl⟩ := exists_zero_of_place? hPlace
        cases sign <;> cases negative <;> simp
  · exact Or.inl (eq_of_sameValue h hZero)

theorem neg_neg (f : Binary64) : f.neg.neg = f := by
  cases f <;> simp [neg]

theorem add_zeros (s t : Bool) :
    (finite s .zero).add (finite t .zero) = .finite (s && t) .zero := by
  have hSum : signed s Magnitude.zero.units + signed t Magnitude.zero.units = 0 := by
    rw [Magnitude.units_zero]
    cases s <;> cases t <;> rfl
  exact if_pos hSum

/-- A zero turns into the one of the other sign if a positive zero is added to the
negative one, and by no other sum. -/
theorem add_eq_other_zero_iff :
    (finite negative .zero).add g = .finite (!negative) .zero ↔ negative = true ∧ g = zero := by
  constructor
  · intro h
    have hFinite : ((finite negative .zero).add g).isFinite = true := by
      rw [h]
      rfl
    obtain ⟨-, hg⟩ := isFinite_of_add hFinite
    have hUnits := (add_of_isFinite (f := finite negative .zero) rfl hg).2
    rw [h, exactUnits_zeros, exactUnits_zeros, Int.zero_add, (ofUnits_exactUnits hg).2] at hUnits
    obtain ⟨sign, rfl⟩ := exists_zero_of_exactUnits hg hUnits.symm
    rw [add_zeros] at h
    cases negative <;> cases sign <;> first | exact ⟨rfl, rfl⟩ | cases h
  · rintro ⟨rfl, rfl⟩
    exact add_zeros true false

/-- No whole number but zero is rounded to zero. -/
theorem eq_zero_of_ofInt {i : Int} (hFinite : (ofInt i).isFinite = true)
    (h : (ofInt i).exactUnits = 0) : i = 0 := by
  have hOne : (0 : Int) < unitsPerOne := by exact_mod_cast unitsPerOne_pos
  have hUnit : (ofInt 1).exactUnits = 1 * unitsPerOne := exactUnits_ofInt (by decide)
  have hMinus : (ofInt (-1)).exactUnits = -1 * unitsPerOne := exactUnits_ofInt (by decide)
  rcases lt_trichotomy i 0 with hBelow | rfl | hAbove
  · have hBound : i * unitsPerOne ≤ (ofInt (-1)).exactUnits := by
      rw [hMinus]
      exact Int.mul_le_mul_of_nonneg_right (by omega) hOne.le
    have hLow := exactUnits_ofInt_le (isFinite_ofInt (by decide)) hFinite hBound
    omega
  · rfl
  · have hBound : (ofInt 1).exactUnits ≤ i * unitsPerOne := by
      rw [hUnit]
      exact Int.mul_le_mul_of_nonneg_right (by omega) hOne.le
    have hHigh := le_exactUnits_ofInt (isFinite_ofInt (by decide)) hFinite hBound
    omega

end Binary64

namespace Number

variable {held amount n : Number} {negative : Bool}

theorem toFloat_zero : (int 0).toFloat = Binary64.zero := by
  change Binary64.ofMagnitude? false (Magnitude.ofNat? 0) = Binary64.zero
  rw [Magnitude.ofNat?_zero]
  rfl

theorem eq_of_toFloat_eq_zeros (h : n.toFloat = .finite negative .zero) :
    n = .float (.finite negative .zero) ∨ negative = false ∧ n = .int 0 := by
  cases n with
  | float f => exact Or.inl (congrArg Number.float h)
  | int i =>
      have hZero : i.toInt = 0 := by
        apply Binary64.eq_zero_of_ofInt (isFinite_toFloat (n := .int i) rfl)
        rw [show Binary64.ofInt i.toInt = _ from h, Binary64.exactUnits_zeros]
      obtain rfl : i = 0 := Int64.toInt_inj.mp hZero
      rw [toFloat_zero] at h
      cases h
      exact Or.inr ⟨rfl, rfl⟩

/-- Adding turns a zero into the one of the other sign only where it adds a zero that is
not negative to the negative one. -/
theorem add?_eq_other_zero_iff :
    (Number.float (.finite negative .zero)).add? amount =
        some (.float (.finite (!negative) .zero)) ↔
      negative = true ∧ (amount = .int 0 ∨ amount = .float .zero) := by
  constructor
  · intro h
    obtain ⟨hSum, -⟩ := eq_of_ofFinite? (f := (Binary64.finite negative .zero).add amount.toFloat) h
    obtain ⟨rfl, hAmount⟩ := Binary64.add_eq_other_zero_iff.mp (Number.float.inj hSum).symm
    rcases eq_of_toFloat_eq_zeros hAmount with rfl | ⟨-, rfl⟩
    · exact ⟨rfl, Or.inr rfl⟩
    · exact ⟨rfl, Or.inl rfl⟩
  · rintro ⟨rfl, hAmount⟩
    have hFloat : amount.toFloat = .zero := by
      rcases hAmount with rfl | rfl
      · exact toFloat_zero
      · rfl
    change ofFinite? ((Binary64.finite true .zero).add amount.toFloat) = _
    rw [hFloat, Binary64.add_eq_other_zero_iff.mpr ⟨rfl, rfl⟩]
    rfl

/-- Subtracting does so only where it takes the negative zero from itself. -/
theorem sub?_eq_other_zero_iff :
    (Number.float (.finite negative .zero)).sub? amount =
        some (.float (.finite (!negative) .zero)) ↔
      negative = true ∧ amount = .float (.finite true .zero) := by
  constructor
  · intro h
    obtain ⟨hDifference, -⟩ :=
      eq_of_ofFinite? (f := (Binary64.finite negative .zero).sub amount.toFloat) h
    obtain ⟨rfl, hAmount⟩ := Binary64.add_eq_other_zero_iff.mp (Number.float.inj hDifference).symm
    have hFloat : amount.toFloat = .finite true .zero := by
      rw [← Binary64.neg_neg amount.toFloat, hAmount]
      rfl
    exact ⟨rfl, (eq_of_toFloat_eq_zeros hFloat).resolve_right fun hOther => nomatch hOther.1⟩
  · rintro ⟨rfl, rfl⟩
    change ofFinite? ((Binary64.finite true .zero).add Binary64.zero) = _
    rw [Binary64.add_eq_other_zero_iff.mpr ⟨rfl, rfl⟩]
    rfl

end Number

end SnapshotStore
