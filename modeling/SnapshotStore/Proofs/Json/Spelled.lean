import SnapshotStore.Proofs.Json.Literal

/-! How stored numbers are written: a whole number as itself, a floating one with
digits that stand for the magnitude that scaling makes of them. -/
namespace SnapshotStore.Json

open Decimal

/-- The exponent as it is written, with its sign. -/
def ExponentText.ofInt (exponent : Int) : ExponentText :=
  ⟨'e', some (if exponent < 0 then '-' else '+'), Decimal.digits exponent.natAbs⟩

namespace ExponentText

theorem valid_ofInt (exponent : Int) : (ofInt exponent).Valid := by
  refine ⟨by rfl, ?_, isRun_digits exponent.natAbs⟩
  rw [ofInt]
  split_ifs
  · exact .inr (.inr rfl)
  · exact .inr (.inl rfl)

theorem value_ofInt (exponent : Int) : (ofInt exponent).value = exponent := by
  rw [ofInt, value]
  dsimp only
  rw [ofDigits_digits]
  by_cases hNegative : exponent < 0
  · rw [if_pos hNegative, if_pos rfl]
    omega
  · rw [if_neg hNegative, if_neg (by decide)]
    omega

end ExponentText

/-- A number that is not whole shows these digits, all of which count, and stands for this
decimal. -/
structure Spells (l : Literal) (body : List Char) (d : Scaled) : Prop where
  valid : l.Valid
  body : l.body = body
  digits : ofDigits (l.whole ++ l.fraction.getD []) = d.digits
  fits : d.digits < 2 ^ 64
  exponent : l.exponent.elim 0 ExponentText.value - (l.fraction.getD []).length = d.exponent
  notWhole : ¬(l.fraction = none ∧ l.exponent = none)

theorem Spells.denotes {l : Literal} {body : List Char} {d : Scaled} {m : Magnitude}
    (h : Spells l body d) (hScale : scale? d.digits d.exponent = some m) :
    l.Denotes (.float (.finite l.negative m)) := by
  obtain ⟨hCounted, hDropped⟩ := l.counted_eq (lt_of_eq_of_lt h.digits h.fits)
  have hExponent : l.scale = d.exponent := by
    rw [Literal.scale, Literal.places, hCounted, hDropped, ← h.exponent]
    omega
  refine .float (fun i hInt => h.notWhole ⟨hInt.1, hInt.2.1⟩) ?_
  rw [Literal.float?, hCounted, h.digits, hExponent, hScale]
  rfl

/-! ### The shapes of the mixed layout -/

section Shapes

variable {n : Nat} (negative : Bool)

theorem isRun_append {a b : List Char} (ha : IsRun a) (hb : ∀ c ∈ b, c.isDigit = true) :
    IsRun (a ++ b) := by
  refine ⟨by simp [ha.1], fun c hc => ?_⟩
  rcases List.mem_append.mp hc with hc | hc
  · exact ha.2 c hc
  · exact hb c hc

theorem isDigit_of_mem_zeros {count : Nat} {c : Char} (h : c ∈ List.replicate count '0') :
    c.isDigit = true := by
  rw [List.eq_of_mem_replicate h]
  decide

/-- Whatever begins like the digits of a positive number has no zero in front. -/
theorem not_leading_zero {run : List Char} (hn : 0 < n) (h : run.head? = (digits n).head?) :
    run.head? = some '0' → run = ['0'] := by
  intro hZero
  rw [h] at hZero
  exact absurd (eq_zero_of_head?_digits hZero) hn.ne'

theorem spells_whole (hn : 0 < n) {zeros : Nat} (hFits : n * 10 ^ (zeros + 1) < 2 ^ 64) :
    Spells ⟨negative, digits n ++ List.replicate zeros '0', some ['0'], none⟩
      (digits n ++ List.replicate zeros '0' ++ ['.', '0']) ⟨n * 10 ^ (zeros + 1), -1⟩ := by
  have hDigits :
      ofDigits (digits n ++ List.replicate zeros '0' ++ ['0']) = n * 10 ^ (zeros + 1) := by
    rw [ofDigits_append, ofDigits_append, ofDigits_digits, Nat.ofDigitChars_replicate_zero,
      Nat.pow_succ, Nat.mul_comm (10 ^ zeros), ← Nat.mul_assoc, Nat.mul_comm _ 10]
    rfl
  refine ⟨⟨?_, ?_, ?_, nofun⟩, ?_, hDigits, hFits, rfl, by simp⟩
  · exact isRun_append (isRun_digits n) fun c hc => isDigit_of_mem_zeros hc
  · refine not_leading_zero hn ?_
    rw [List.head?_append, Option.or_of_isSome (by simp [digits])]
  · intro run hRun
    cases hRun
    exact ⟨by simp, by simp⟩
  · simp [Literal.body, Literal.tail]

theorem spells_split (hn : 0 < n) (hFits : n < 2 ^ 64) (count : Nat) (hCount : 0 < count)
    (hInside : count < (digits n).length) :
    Spells ⟨negative, (digits n).take count, some ((digits n).drop count), none⟩
      ((digits n).take count ++ '.' :: (digits n).drop count)
      ⟨n, -((digits n).length - count : Nat)⟩ := by
  have hAll : ofDigits ((digits n).take count ++ (digits n).drop count) = n := by
    rw [List.take_append_drop, ofDigits_digits]
  have hDigits := (isRun_digits n).2
  refine ⟨⟨⟨?_, ?_⟩, ?_, ?_, nofun⟩, ?_, hAll, hFits, ?_, by simp⟩
  · simp [hCount.ne', digits]
  · exact fun c hc => hDigits c (List.mem_of_mem_take hc)
  · refine not_leading_zero hn ?_
    rw [List.head?_take, if_neg hCount.ne']
  · intro run hRun
    cases hRun
    exact ⟨by simp [hInside], fun c hc => hDigits c (List.mem_of_mem_drop hc)⟩
  · simp [Literal.body, Literal.tail]
  · simp

theorem spells_small (hFits : n < 2 ^ 64) (zeros : Nat) :
    Spells ⟨negative, ['0'], some (List.replicate zeros '0' ++ digits n), none⟩
      ('0' :: '.' :: List.replicate zeros '0' ++ digits n)
      ⟨n, -(zeros + (digits n).length : Nat)⟩ := by
  have hAll : ofDigits (['0'] ++ (List.replicate zeros '0' ++ digits n)) = n := by
    rw [ofDigits_append, Nat.ofDigitChars_append, Nat.ofDigitChars_replicate_zero]
    exact ofDigits_digits n
  refine ⟨⟨⟨by simp, by simp⟩, fun _ => rfl, ?_, nofun⟩, ?_, hAll, hFits, ?_, by simp⟩
  · intro run hRun
    cases hRun
    refine ⟨by simp [digits], fun c hc => ?_⟩
    rcases List.mem_append.mp hc with hc | hc
    · exact isDigit_of_mem_zeros hc
    · exact (isRun_digits n).2 c hc
  · simp [Literal.body, Literal.tail]
  · simp

theorem spells_scientific (hn : 0 < n) (hFits : n < 2 ^ 64) (exponent : Int) :
    Spells ⟨negative, (digits n).take 1,
        if (digits n).length ≤ 1 then none else some ((digits n).drop 1),
        some (.ofInt exponent)⟩
      ((digits n).take 1 ++ (if (digits n).length ≤ 1 then [] else '.' :: (digits n).drop 1) ++
        (ExponentText.ofInt exponent).text)
      ⟨n, exponent - ((digits n).length - 1 : Nat)⟩ := by
  have hDigits := (isRun_digits n).2
  have hRun : IsRun ((digits n).take 1) :=
    ⟨by simp [digits], fun c hc => hDigits c (List.mem_of_mem_take hc)⟩
  have hLeading : ((digits n).take 1).head? = some '0' → (digits n).take 1 = ['0'] := by
    refine not_leading_zero hn ?_
    rw [List.head?_take, if_neg (by decide)]
  have hExponent : ∀ e ∈ some (ExponentText.ofInt exponent), e.Valid := by
    intro e he
    cases he
    exact ExponentText.valid_ofInt exponent
  split_ifs with hShort
  · have hTake : (digits n).take 1 = digits n := List.take_of_length_le hShort
    have hAll : ofDigits ((digits n).take 1 ++ []) = n := by
      rw [List.append_nil, hTake, ofDigits_digits]
    refine ⟨⟨hRun, hLeading, by simp, hExponent⟩, ?_, hAll, hFits, ?_, by simp⟩
    · simp [Literal.body, Literal.tail]
    · simp [ExponentText.value_ofInt]
      omega
  · have hAll : ofDigits ((digits n).take 1 ++ (digits n).drop 1) = n := by
      rw [List.take_append_drop, ofDigits_digits]
    refine ⟨⟨hRun, hLeading, ?_, hExponent⟩, ?_, hAll, hFits, ?_, by simp⟩
    · intro run hFraction
      cases hFraction
      refine ⟨?_, fun c hc => hDigits c (List.mem_of_mem_drop hc)⟩
      rw [Ne, List.drop_eq_nil_iff]
      exact hShort
    · simp [Literal.body, Literal.tail]
    · simp [ExponentText.value_ofInt]

end Shapes

/-! ### Stored numbers -/

section Decimal

variable {d : Scaled} (negative : Bool)

theorem spells_of_fraction (hPositive : 0 < d.digits) (hFits : d.digits < 2 ^ 64)
    (hFraction : d.exponent < 0) :
    ∃ l, Literal.negative l = negative ∧ Spells l (d.positional ['.', '0']) d := by
  have hNotWhole : ¬0 ≤ d.exponent := not_le.mpr hFraction
  by_cases hInside : (-d.exponent).toNat < (digits d.digits).length
  · have hText : d.positional ['.', '0'] =
        (digits d.digits).take ((digits d.digits).length - (-d.exponent).toNat) ++
          '.' :: (digits d.digits).drop ((digits d.digits).length - (-d.exponent).toNat) := by
      rw [Scaled.positional, if_neg hNotWhole, if_pos hInside]
    have hSpells := spells_split negative hPositive hFits
      ((digits d.digits).length - (-d.exponent).toNat) (by omega) (by omega)
    rw [← hText, Nat.sub_sub_self hInside.le,
      show -((-d.exponent).toNat : Int) = d.exponent by omega] at hSpells
    exact ⟨_, rfl, hSpells⟩
  · have hText : d.positional ['.', '0'] =
        '0' :: '.' :: List.replicate ((-d.exponent).toNat - (digits d.digits).length) '0' ++
          digits d.digits := by
      rw [Scaled.positional, if_neg hNotWhole, if_neg hInside]
    have hSpells := spells_small negative hFits ((-d.exponent).toNat - (digits d.digits).length)
    rw [← hText, Nat.sub_add_cancel (not_lt.mp hInside),
      show -((-d.exponent).toNat : Int) = d.exponent by omega] at hSpells
    exact ⟨_, rfl, hSpells⟩

theorem mul_ten_pow_lt_of_leading_le (hWhole : 0 ≤ d.exponent) (hLeading : d.leading ≤ 15) :
    d.digits * 10 ^ (d.exponent.toNat + 1) < 2 ^ 64 := by
  have hLength := digits_length_pos d.digits
  rw [Scaled.leading] at hLeading
  calc d.digits * 10 ^ (d.exponent.toNat + 1)
      < 10 ^ (digits d.digits).length * 10 ^ (d.exponent.toNat + 1) :=
        Nat.mul_lt_mul_of_pos_right (lt_ten_pow_length d.digits) (by positivity)
    _ = 10 ^ ((digits d.digits).length + (d.exponent.toNat + 1)) := (pow_add 10 _ _).symm
    _ ≤ 10 ^ 17 := Nat.pow_le_pow_right (by decide) (by omega)
    _ < 2 ^ 64 := by decide

/-- Every layout of a decimal shows the same decimal. -/
theorem spells_mixed (hPositive : 0 < d.digits) (hFits : d.digits < 2 ^ 64) :
    ∃ l, Literal.negative l = negative ∧ Spells l d.mixed (shownDecimal d) := by
  have hExponent := leading_ge_exponent d
  by_cases hPositional : -5 ≤ d.leading ∧ d.leading ≤ 15
  · have hText : d.mixed = d.positional ['.', '0'] := if_pos hPositional
    by_cases hWhole : 0 ≤ d.exponent
    · have hShown : shownDecimal d = ⟨d.digits * 10 ^ (d.exponent.toNat + 1), -1⟩ :=
        if_pos ⟨hWhole, hPositional.2⟩
      have hZeros : d.positional ['.', '0'] =
          digits d.digits ++ List.replicate d.exponent.toNat '0' ++ ['.', '0'] := if_pos hWhole
      rw [hText, hShown, hZeros]
      exact ⟨_, rfl, spells_whole negative hPositive
        (mul_ten_pow_lt_of_leading_le hWhole hPositional.2)⟩
    · have hShown : shownDecimal d = d := if_neg fun h => hWhole h.1
      rw [hText, hShown]
      exact spells_of_fraction negative hPositive hFits (not_le.mp hWhole)
  · have hText : d.mixed = d.scientific := if_neg hPositional
    have hShown : shownDecimal d = d := if_neg fun h => hPositional ⟨by omega, h.2⟩
    have hSpells := spells_scientific negative hPositive hFits d.leading
    rw [show d.leading - ((digits d.digits).length - 1 : Nat) = d.exponent from
      Int.add_sub_cancel _ _] at hSpells
    rw [hText, hShown]
    exact ⟨_, rfl, hSpells⟩

end Decimal

theorem exists_spells (negative : Bool) (m : Magnitude) :
    ∃ l, Literal.negative l = negative ∧ Spells l (mixedMagnitude m) (shown m) := by
  unfold mixedMagnitude shown
  split_ifs with hZero
  · exact ⟨_, rfl, spells_small negative (show 0 < 2 ^ 64 by decide) 0⟩
  · have hFits := Nat.lt_of_le_of_lt (shortest_digits_le .even m hZero)
      (show 2 ^ 58 < 2 ^ 64 by decide)
    exact spells_mixed negative (shortest_digits_pos .even m hZero) hFits

/-- The text of a floating number stands for the magnitude that scaling makes of its digits,
under the same sign. -/
theorem exists_literal_mixed (negative : Bool) (m : Magnitude) : ∃ l : Literal, l.Valid ∧
    l.text = mixed negative m ∧ l.Denotes (.float (.finite negative (reread m))) := by
  obtain ⟨l, hNegative, hSpells⟩ := exists_spells negative m
  have hDenotes := hSpells.denotes (scale?_shown m)
  rw [hNegative] at hDenotes
  refine ⟨l, hSpells.valid, ?_, hDenotes⟩
  rw [Literal.text, hNegative, hSpells.body, mixed]

/-- The text of a whole number of 64 bits stands for that number. -/
theorem exists_literal_ofInt (i : Int64) : ∃ l : Literal, l.Valid ∧
    l.text = ofInt i.toInt ∧ l.Denotes (.int i) := by
  refine ⟨⟨decide (i.toInt < 0), digits i.toInt.natAbs, none, none⟩,
    ⟨isRun_digits _, fun hZero => ?_, nofun, nofun⟩, ?_, .int ⟨rfl, rfl, ?_, ?_⟩⟩
  · rw [eq_zero_of_head?_digits hZero]
    rfl
  · simp [Literal.text, Literal.body, Literal.tail, ofInt]
  · rw [ofDigits_digits, Binary64.signed]
    split_ifs with hNegative <;> simp at hNegative <;> omega
  · rw [ofDigits_digits]
    simp
    omega

end SnapshotStore.Json
