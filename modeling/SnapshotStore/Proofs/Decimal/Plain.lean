import Mathlib.Data.List.Basic
import SnapshotStore.Proofs.Decimal.Numeral
import SnapshotStore.Proofs.Json.Spelled
import SnapshotStore.Proofs.Number.Order

/-! The plain text of a finite number is read back as this number. Where it has no
point it is read as a whole number too, which may not be the same one, but is the same
one once it is floating again. -/
namespace SnapshotStore

namespace Json

open Decimal

/-! ### Numbers of JSON as people type them -/

theorem ExponentText.Valid.readInt? {e : ExponentText} (h : e.Valid) :
    Decimal.readInt? (e.sign.toList ++ e.digits) = some e.value := by
  obtain ⟨letter, sign, run⟩ := e
  obtain ⟨-, hSign, hRun⟩ := h
  dsimp only at hSign hRun
  rcases hSign with rfl | rfl | rfl
  · exact readInt?_of_isRun false hRun
  · exact readInt?_plus hRun
  · exact readInt?_of_isRun true hRun

namespace Literal

variable {l : Literal}

theorem readExponent?_tail (h : ∀ e ∈ l.exponent, e.Valid) :
    readExponent? l.tail = some (l.exponent.elim 0 ExponentText.value) := by
  unfold tail
  cases hExponent : l.exponent with
  | none => rfl
  | some e =>
      have hValid := h e hExponent
      have hLetter : e.letter = 'e' ∨ e.letter = 'E' := by
        simpa [isExponentLetter] using hValid.letter
      show readExponent? (e.letter :: (e.sign.toList ++ e.digits)) = _
      rw [readExponent?, if_pos hLetter, hValid.readInt?]
      rfl

/-- Neither a digit nor a point begins an exponent. -/
theorem head?_tail (h : ∀ e ∈ l.exponent, e.Valid) :
    ∀ c ∈ l.tail.head?, c.isDigit = false ∧ c ≠ '.' := by
  unfold tail
  cases hExponent : l.exponent with
  | none => exact nofun
  | some e =>
      rintro c hc
      obtain rfl : e.letter = c := Option.some.inj hc
      have hLetter : e.letter = 'e' ∨ e.letter = 'E' := by
        simpa [isExponentLetter] using (h e hExponent).letter
      rcases hLetter with hLetter | hLetter
      · rw [hLetter]
        decide
      · rw [hLetter]
        decide

/-- All digits of a number count as people type it. -/
theorem readScaled?_body (h : l.Valid) : readScaled? l.body =
    some (ofDigits (l.whole ++ l.fraction.getD []),
      l.exponent.elim 0 ExponentText.value - (l.fraction.getD []).length) := by
  have hTail := head?_tail h.exponent
  have hEnds : EndsRun l.tail := fun c hc => (hTail c hc).1
  have hExponent := readExponent?_tail h.exponent
  unfold body
  cases hFraction : l.fraction with
  | none =>
      have hSplit := splitDigits_append h.whole.2 hEnds
      rw [Option.elim_none, List.append_nil,
        readScaled?_of_whole h.whole.1 hSplit fun c hc => (hTail c hc).2, hExponent]
      simp
  | some run =>
      have hAfter := splitDigits_append (h.fraction run hFraction).2 hEnds
      have hSplit : splitDigits (l.whole ++ '.' :: (run ++ l.tail)) =
          (l.whole, '.' :: (run ++ l.tail)) :=
        splitDigits_append h.whole.2 fun c hc => Option.some.inj hc ▸ rfl
      rw [Option.elim_some, List.append_assoc, List.cons_append,
        readScaled?_of_point h.whole.1 hSplit hAfter, hExponent]
      rfl

theorem head?_body (h : l.Valid) : ∀ c ∈ l.body.head?, c.isDigit = true := by
  intro c hc
  rw [body, List.append_assoc, List.head?_append_of_ne_nil _ h.whole.1] at hc
  exact h.whole.head? c hc

end Literal

/-- The decimal that a number shows is read from it. -/
theorem Spells.readScaled? {l : Literal} {body : List Char} {d : Scaled} (h : Spells l body d) :
    Decimal.readScaled? body = some (d.digits, d.exponent) := by
  rw [← h.body, Literal.readScaled?_body h.valid, h.digits, h.exponent]

theorem Spells.head? {l : Literal} {body : List Char} {d : Scaled} (h : Spells l body d) :
    ∀ c ∈ body.head?, c.isDigit = true :=
  h.body ▸ Literal.head?_body h.valid

/-- A number with a point or an exponent is not read as a whole one. -/
theorem Spells.readInt? {l : Literal} {body : List Char} {d : Scaled} (h : Spells l body d)
    (negative : Bool) : Decimal.readInt? (withSign negative body) = none := by
  have hOther : ∃ c ∈ body, c.isDigit = false := by
    rw [← h.body, Literal.body]
    cases hFraction : l.fraction with
    | some run => exact ⟨'.', by simp, rfl⟩
    | none =>
        cases hExponent : l.exponent with
        | none => exact absurd ⟨hFraction, hExponent⟩ h.notWhole
        | some e =>
            have hTail := Literal.head?_tail h.valid.exponent e.letter
              (by simp [Literal.tail, hExponent, ExponentText.text])
            exact ⟨e.letter, by simp [Literal.tail, hExponent, ExponentText.text], hTail.1⟩
  obtain ⟨c, hc, hDigit⟩ := hOther
  exact readInt?_eq_none (splitSign_withSign negative h.head?) hc hDigit

end Json

namespace Decimal

open Binary64

variable {m : Magnitude} {negative : Bool}

/-! ### Shortest decimals -/

/-- A shortest decimal is not far out of range, since it is at least half a unit. -/
theorem lt_shortest_exponent (tie : Tie) (h : m.index ≠ 0) :
    -325 < (shortest tie m).exponent + (shortest tie m).digits.log2 := by
  by_contra hSmall
  have hFraction : (shortest tie m).exponent < 0 := by omega
  have hLower := (belongs_shortest_of_neg tie m h hFraction).lower
  have hUnit : 1 ≤ gridUnits (m.index - 1) + gridUnits m.index :=
    Nat.le_add_left_of_le (gridUnits_pos h)
  have hTop : 2 ^ 1076 < 10 ^ 325 := by
    refine Nat.lt_of_le_of_lt (two_pow_le_ten_pow 1076) ?_
    rw [Nat.pow_lt_pow_iff_right] <;> decide
  have hBits : (shortest tie m).digits < 2 ^ ((shortest tie m).digits.log2 + 1) :=
    Nat.lt_log2_self
  generalize hCount : (shortest tie m).digits.log2 = bits at hBits hSmall
  have hLess : 10 ^ (325 + bits) < 10 ^ (325 + bits) := by
    calc 10 ^ (325 + bits) ≤ 10 ^ (shortest tie m).exponent.natAbs :=
          Nat.pow_le_pow_right (by decide) (by omega)
      _ = 1 * 10 ^ (shortest tie m).exponent.natAbs := (Nat.one_mul _).symm
      _ ≤ (gridUnits (m.index - 1) + gridUnits m.index) *
            10 ^ (shortest tie m).exponent.natAbs := Nat.mul_le_mul_right _ hUnit
      _ ≤ 2 * ((shortest tie m).digits * unitsPerOne) := hLower
      _ ≤ 2 * (2 ^ (bits + 1) * 2 ^ 1074) :=
          Nat.mul_le_mul_left 2 (Nat.mul_le_mul_right unitsPerOne hBits.le)
      _ = 2 ^ 1076 * 2 ^ bits := by
          rw [← pow_add, ← pow_succ', ← pow_add, Nat.add_comm 1076]
      _ < 10 ^ 325 * 2 ^ bits := Nat.mul_lt_mul_of_pos_right hTop (by positivity)
      _ ≤ 10 ^ 325 * 10 ^ bits := Nat.mul_le_mul_left _ (Nat.pow_le_pow_left (by decide) bits)
      _ = 10 ^ (325 + bits) := (pow_add 10 325 bits).symm
  exact hLess.false

/-- The magnitude nearest to a shortest decimal with a fraction is the one that it is
shortest for. -/
theorem ofDecimal?_shortest (tie : Tie) (h : m.index ≠ 0)
    (hFraction : (shortest tie m).exponent < 0) :
    Magnitude.ofDecimal? (shortest tie m).digits (shortest tie m).exponent = some m := by
  have hDigits := shortest_digits_pos tie m h
  have hLow := lt_shortest_exponent tie h
  have hPlaces : (-(shortest tie m).exponent).toNat = (shortest tie m).exponent.natAbs := by omega
  unfold Magnitude.ofDecimal?
  rw [if_neg (by omega), if_neg (by omega), if_neg (by omega), if_neg (by omega), hPlaces]
  exact Magnitude.ofQuotient?_eq_some
    (nearestIndex_eq (by positivity) (belongs_shortest_of_neg tie m h hFraction))

theorem ofNat?_shortest (tie : Tie) (h : m.index ≠ 0) (hWhole : 0 ≤ (shortest tie m).exponent) :
    Magnitude.ofNat? ((shortest tie m).digits * 10 ^ (shortest tie m).exponent.toNat) = some m :=
  Magnitude.ofQuotient?_eq_some
    (nearestIndex_eq Nat.one_pos (belongs_shortest_of_nonneg tie m h hWhole))

/-- A whole number needs no shortcut. -/
theorem ofDecimal?_zero (n : Nat) : Magnitude.ofDecimal? n 0 = Magnitude.ofNat? n := by
  unfold Magnitude.ofDecimal?
  by_cases hZero : n = 0
  · rw [if_pos hZero, hZero, Magnitude.ofNat?_zero]
  · rw [if_neg hZero, if_neg (by decide), if_neg (by omega), if_pos (by decide)]
    simp

/-! ### Plain texts -/

theorem positional_of_neg {d : Scaled} (h : d.exponent < 0) (tail other : List Char) :
    d.positional tail = d.positional other := by
  simp [Scaled.positional, not_le.mpr h]

theorem ofDigits_zeros (n zeros : Nat) :
    ofDigits (digits n ++ List.replicate zeros '0') = n * 10 ^ zeros := by
  rw [ofDigits_append, ofDigits_digits, Nat.ofDigitChars_replicate_zero, Nat.mul_comm]

/-- The text of a magnitude is that of its shortest decimal if it has a fraction, and
otherwise digits to which it is the nearest magnitude. -/
theorem plainMagnitude_cases (m : Magnitude) :
    (∃ l, Json.Spells l (plainMagnitude m) (shortest .up m) ∧ Magnitude.ofDecimal?
      (shortest .up m).digits (shortest .up m).exponent = some m) ∨
    IsRun (plainMagnitude m) ∧ Magnitude.ofNat? (ofDigits (plainMagnitude m)) = some m := by
  unfold plainMagnitude
  split_ifs with hZero
  · have hm : m = .zero := by
      cases m
      cases hZero
      rfl
    subst hm
    exact Or.inr ⟨isRun_digits 0, Magnitude.ofNat?_zero⟩
  · by_cases hWhole : 0 ≤ (shortest .up m).exponent
    · right
      have hText : (shortest .up m).positional [] = digits (shortest .up m).digits ++
          List.replicate (shortest .up m).exponent.toNat '0' := by
        rw [Scaled.positional, if_pos hWhole, List.append_nil]
      rw [hText, ofDigits_zeros]
      exact ⟨Json.isRun_append (isRun_digits _) fun c hc => Json.isDigit_of_mem_zeros hc,
        ofNat?_shortest .up hZero hWhole⟩
    · left
      have hFraction := not_le.mp hWhole
      have hFits := Nat.lt_of_le_of_lt (shortest_digits_le .up m hZero)
        (show 2 ^ 58 < 2 ^ 64 by decide)
      obtain ⟨l, -, hSpells⟩ := Json.spells_of_fraction false (shortest_digits_pos .up m hZero)
        hFits hFraction
      rw [positional_of_neg hFraction [] ['.', '0']]
      exact ⟨l, hSpells, ofDecimal?_shortest .up hZero hFraction⟩

/-- Every finite number is read back from its plain text, also the negative zero. -/
theorem readFloat?_plain (negative : Bool) (m : Magnitude) :
    readFloat? (plain (.finite negative m)) = some (.finite negative m) := by
  change readFloat? (withSign negative (plainMagnitude m)) = _
  rcases plainMagnitude_cases m with ⟨l, hSpells, hDecimal⟩ | ⟨hRun, hNat⟩
  · rw [readFloat?_withSign hSpells.head? hSpells.readScaled?, hDecimal]
    rfl
  · have hSplit : splitDigits (plainMagnitude m ++ []) = (plainMagnitude m, []) :=
      splitDigits_append hRun.2 nofun
    rw [List.append_nil] at hSplit
    have hScaled := readScaled?_of_whole hRun.1 hSplit nofun
    rw [readFloat?_withSign hRun.head? hScaled, ofDecimal?_zero, hNat]
    rfl

/-- What a plain text is as a whole number, if it is one, is the number itself once it is
floating again. Only the sign of zero is lost. -/
theorem ofInt_of_readInt?_plain {n : Int} (h : readInt? (plain (.finite negative m)) = some n) :
    Binary64.ofInt n = .finite negative m ∨ negative = true ∧ m = .zero ∧ n = 0 := by
  change readInt? (withSign negative (plainMagnitude m)) = _ at h
  rcases plainMagnitude_cases m with ⟨l, hSpells, -⟩ | ⟨hRun, hNat⟩
  · rw [hSpells.readInt? negative] at h
    cases h
  · rw [readInt?_of_isRun negative hRun] at h
    obtain rfl := Option.some.inj h
    generalize ofDigits (plainMagnitude m) = digits at hNat
    have hNearest : Binary64.ofInt (signed negative digits) =
        .finite (signed negative digits < 0) m := by
      rw [Binary64.ofInt, natAbs_signed, hNat]
      rfl
    rw [hNearest]
    cases negative with
    | false => exact Or.inl (by simp [signed])
    | true =>
        by_cases hZero : digits = 0
        · subst hZero
          exact Or.inr ⟨rfl, Option.some.inj (hNat.symm.trans Magnitude.ofNat?_zero), rfl⟩
        · have hNegative : signed true digits < 0 := by
            simp only [signed, if_true]
            omega
          exact Or.inl (by rw [decide_eq_true hNegative])

end Decimal

end SnapshotStore
