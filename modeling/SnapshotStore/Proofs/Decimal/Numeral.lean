import SnapshotStore.Decimal.Numeral
import SnapshotStore.Proofs.Decimal.Digits

/-! How numerals are read as people type them. -/
namespace SnapshotStore.Decimal

open Binary64 (signed)

variable {cs run : List Char}

/-! ### Digits -/

theorem readNat?_eq_some_iff {n : Nat} :
    readNat? cs = some n ↔ IsRun cs ∧ ofDigits cs = n := by
  unfold readNat? IsRun
  cases cs with
  | nil => simp
  | cons c cs => simp [-List.all_cons]

theorem readNat?_of_isRun (h : IsRun run) : readNat? run = some (ofDigits run) :=
  readNat?_eq_some_iff.mpr ⟨h, rfl⟩

/-- What has anything but digits in it is no number. -/
theorem readNat?_eq_none {c : Char} (hc : c ∈ cs) (h : c.isDigit = false) : readNat? cs = none := by
  rw [Option.eq_none_iff_forall_ne_some]
  intro n hRead
  have hDigit := (readNat?_eq_some_iff.mp hRead).1.2 c hc
  rw [h] at hDigit
  cases hDigit

/-! ### Signs -/

/-- The text with a minus sign in front, or without one. -/
def withSign (negative : Bool) (body : List Char) : List Char :=
  if negative then '-' :: body else body

/-- What does not begin with a sign is not split. -/
theorem splitSign_of_head? (h : ∀ c ∈ cs.head?, c ≠ '-' ∧ c ≠ '+') :
    splitSign cs = (false, cs) := by
  cases cs with
  | nil => rfl
  | cons c cs =>
      obtain ⟨hMinus, hPlus⟩ := h c rfl
      unfold splitSign
      split
      · next hSame => exact absurd (List.cons.inj hSame).1 hMinus
      · next hSame => exact absurd (List.cons.inj hSame).1 hPlus
      · rfl

theorem splitSign_of_startsDigit (h : ∀ c ∈ cs.head?, c.isDigit = true) :
    splitSign cs = (false, cs) := by
  refine splitSign_of_head? fun c hc => ⟨?_, ?_⟩
  · rintro rfl
    exact absurd (h _ hc) (by decide)
  · rintro rfl
    exact absurd (h _ hc) (by decide)

theorem splitSign_withSign (negative : Bool) (h : ∀ c ∈ cs.head?, c.isDigit = true) :
    splitSign (withSign negative cs) = (negative, cs) := by
  cases negative with
  | true => rfl
  | false => exact splitSign_of_startsDigit h

theorem IsRun.head? (h : IsRun run) : ∀ c ∈ run.head?, c.isDigit = true :=
  fun c hc => h.2 c (List.mem_of_mem_head? hc)

/-! ### Whole numbers -/

theorem readInt?_of_isRun (negative : Bool) (h : IsRun run) :
    readInt? (withSign negative run) = some (signed negative (ofDigits run)) := by
  rw [readInt?, splitSign_withSign negative h.head?, readNat?_of_isRun h]
  rfl

theorem readInt?_plus (h : IsRun run) : readInt? ('+' :: run) = some (ofDigits run : Int) := by
  rw [readInt?, show splitSign ('+' :: run) = (false, run) from rfl, readNat?_of_isRun h]
  rfl

theorem readInt?_eq_none {negative : Bool} {body : List Char} {c : Char}
    (hSplit : splitSign cs = (negative, body)) (hc : c ∈ body) (h : c.isDigit = false) :
    readInt? cs = none := by
  rw [readInt?, hSplit, readNat?_eq_none hc h]
  rfl

theorem ofInt_eq_withSign (n : Int) : ofInt n = withSign (n < 0) (digits n.natAbs) := by
  by_cases hNegative : n < 0
  · rw [ofInt, if_pos hNegative, decide_eq_true hNegative]
    rfl
  · rw [ofInt, if_neg hNegative, decide_eq_false hNegative]
    rfl

/-- The text of a whole number is read as this number. -/
theorem readInt?_ofInt (n : Int) : readInt? (ofInt n) = some n := by
  rw [ofInt_eq_withSign, readInt?_of_isRun _ (isRun_digits _), ofDigits_digits, signed]
  split_ifs with hNegative <;> simp at hNegative <;> congr 1 <;> omega

theorem readInt64?_ofInt (i : Int64) : readInt64? (ofInt i.toInt) = some i := by
  have hLow := i.le_toInt
  have hHigh := i.toInt_lt
  rw [readInt64?, readInt?_ofInt]
  simp only
  rw [if_pos ⟨hLow, hHigh⟩, Int64.ofInt_toInt]

/-- A number of 64 bits is read as it is without this bound. -/
theorem readInt?_of_readInt64? {i : Int64} (h : readInt64? cs = some i) :
    readInt? cs = some i.toInt := by
  unfold readInt64? at h
  cases hRead : readInt? cs with
  | none => simp [hRead] at h
  | some n =>
      simp only [hRead] at h
      split_ifs at h with hRange
      rw [← Option.some.inj h, Int64.toInt_ofInt_of_le hRange.1 hRange.2]

theorem readInt64?_eq_none (h : readInt? cs = none) : readInt64? cs = none := by
  rw [readInt64?, h]

/-! ### Floating numbers -/

section Scaled

variable {whole fraction after rest : List Char}

theorem readScaled?_of_whole (hWhole : whole ≠ []) (hSplit : splitDigits cs = (whole, rest))
    (hRest : ∀ c ∈ rest.head?, c ≠ '.') : readScaled? cs =
      (readExponent? rest).map fun exponent : Int => (ofDigits whole, exponent) := by
  unfold readScaled?
  rw [hSplit]
  dsimp only
  split
  · next hPoint => exact absurd rfl (hRest '.' rfl)
  · simp [hWhole]

theorem readScaled?_of_point (hWhole : whole ≠ []) (hSplit : splitDigits cs = (whole, '.' :: after))
    (hAfter : splitDigits after = (fraction, rest)) : readScaled? cs =
      (readExponent? rest).map fun exponent : Int =>
        (ofDigits (whole ++ fraction), exponent - fraction.length) := by
  simp [readScaled?, hSplit, hAfter, hWhole]

theorem readFloat?_withSign {negative : Bool} {significand : Nat} {exponent : Int}
    (hHead : ∀ c ∈ cs.head?, c.isDigit = true)
    (h : readScaled? cs = some (significand, exponent)) : readFloat? (withSign negative cs) =
      some (.ofMagnitude? negative (Magnitude.ofDecimal? significand exponent)) := by
  simp [readFloat?, splitSign_withSign negative hHead, h]

end Scaled

end SnapshotStore.Decimal
