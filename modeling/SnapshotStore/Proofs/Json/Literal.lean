import SnapshotStore.Proofs.Json.Numeral
import SnapshotStore.Proofs.Json.Reread

/-! Numbers as they are written in a JSON text: which texts are numbers, and what
each of them stands for. The reader of numbers takes exactly these texts. -/
namespace SnapshotStore.Json

open Decimal

/-- The exponent of a number as it is written: a letter, perhaps a sign, and digits. -/
structure ExponentText where
  letter : Char
  sign : Option Char
  digits : List Char

namespace ExponentText

def text (e : ExponentText) : List Char :=
  e.letter :: (e.sign.toList ++ e.digits)

def value (e : ExponentText) : Int :=
  if e.sign = some '-' then -(ofDigits e.digits : Int) else ofDigits e.digits

structure Valid (e : ExponentText) : Prop where
  letter : isExponentLetter e.letter = true
  sign : e.sign = none ∨ e.sign = some '+' ∨ e.sign = some '-'
  digits : IsRun e.digits

end ExponentText

/-- A number as it is written: perhaps a minus sign, digits, and perhaps a point with
more digits and an exponent. -/
structure Literal where
  negative : Bool
  whole : List Char
  fraction : Option (List Char)
  exponent : Option ExponentText

namespace Literal

def tail (l : Literal) : List Char :=
  l.exponent.elim [] ExponentText.text

/-- The text without the sign. -/
def body (l : Literal) : List Char :=
  l.whole ++ l.fraction.elim [] ('.' :: ·) ++ l.tail

def text (l : Literal) : List Char :=
  if l.negative then '-' :: l.body else l.body

/-- Digits stand on both sides of a point, and no zero leads. -/
structure Valid (l : Literal) : Prop where
  whole : IsRun l.whole
  leading : l.whole.head? = some '0' → l.whole = ['0']
  fraction : ∀ run ∈ l.fraction, IsRun run
  exponent : ∀ e ∈ l.exponent, e.Valid

/-- The digits in front of the point, as they are gathered. -/
def gathered (l : Literal) : Gathered :=
  .ofWhole l.whole

/-- The digits that count, and how many of them stand after the point. -/
def counted (l : Literal) : Nat × Nat :=
  l.fraction.elim (l.gathered.significand, 0) (Gathered.takeFraction l.gathered.significand)

/-- The power of ten of the digits that count, apart from the exponent. -/
def places (l : Literal) : Int :=
  l.gathered.dropped - l.counted.2

def scale (l : Literal) : Int :=
  l.places + l.exponent.elim 0 ExponentText.value

/-- What a number stands for: without point and exponent it may be whole. -/
def numeral (l : Literal) : Except Fault Numeral :=
  if l.fraction = none ∧ l.exponent = none ∧ l.gathered.dropped = 0 then
    Json.whole l.negative l.counted.1
  else floating l.negative l.counted.1 l.scale

end Literal

/-- A step that was only changed in its value succeeded before. -/
theorem exists_of_map_eq_ok {α β : Type} {f : α → β} {x : Except Fault α} {result : β}
    (h : x.map f = .ok result) : ∃ found, x = .ok found ∧ f found = result := by
  cases x with
  | error fault => cases h
  | ok found => exact ⟨found, rfl, Except.ok.inj h⟩

/-! ### Exponents -/

section Exponent

variable {input rest : List Char}

theorem ExponentText.Valid.reads {e : ExponentText} (h : e.Valid) (hRest : EndsRun rest) :
    Reads readExponent (e.sign.toList ++ e.digits ++ rest) e.value rest := by
  obtain ⟨letter, sign, run⟩ := e
  obtain ⟨-, hSign, hRun⟩ := h
  dsimp only at hSign hRun
  obtain ⟨shorter, hRead⟩ := reads_readDigits hRun hRest
  rcases hSign with rfl | rfl | rfl
  · obtain ⟨hNonempty, hDigits⟩ := hRun
    cases run with
    | nil => exact absurd rfl hNonempty
    | cons c run =>
        have hDigit := hDigits c List.mem_cons_self
        have hPlus : c ≠ '+' := by rintro rfl; exact absurd hDigit (by decide)
        have hMinus : c ≠ '-' := by rintro rfl; exact absurd hDigit (by decide)
        refine ⟨shorter, ?_⟩
        simp only [List.cons_append] at hRead
        simp [readExponent, value, hPlus, hMinus, hRead, Step.map]
  · exact ⟨Nat.lt_succ_of_lt shorter, by simp [readExponent, value, hRead, Step.map, Step.widen]⟩
  · exact ⟨Nat.lt_succ_of_lt shorter, by simp [readExponent, value, hRead, Step.map, Step.widen]⟩

theorem isRun_of_reads_readDigits {run : List Char} (h : Reads readDigits input run rest) :
    IsRun run ∧ input = run ++ rest := by
  obtain ⟨shorter, h⟩ := h
  cases input with
  | nil => cases h
  | cons c input =>
      rw [readDigits] at h
      split_ifs at h with hDigit
      obtain ⟨rfl, rfl⟩ := Step.mk.inj (Except.ok.inj h)
      refine ⟨⟨by simp, ?_⟩, ?_⟩
      · intro d hd
        rcases List.mem_cons.mp hd with rfl | hd
        · exact hDigit
        · exact List.mem_takeWhile_imp hd
      · simp [splitDigits, List.takeWhile_append_dropWhile]

theorem exists_of_reads_readExponent {letter : Char} {value : Int}
    (hLetter : isExponentLetter letter = true) (h : Reads readExponent input value rest) :
    ∃ e : ExponentText, e.Valid ∧ letter :: input = e.text ++ rest ∧ e.value = value := by
  obtain ⟨shorter, h⟩ := h
  unfold readExponent at h
  split at h
  · next after =>
    cases hDigits : readDigits after with
    | error fault => simp [hDigits] at h
    | ok step =>
        rw [hDigits] at h
        obtain ⟨rfl, rfl⟩ := Step.mk.inj (Except.ok.inj h)
        obtain ⟨hRun, hAfter⟩ := isRun_of_reads_readDigits ⟨_, hDigits⟩
        exact ⟨⟨letter, some '+', step.value⟩, ⟨hLetter, by simp, hRun⟩,
          congrArg (letter :: '+' :: ·) hAfter, rfl⟩
  · next after =>
    cases hDigits : readDigits after with
    | error fault => simp [hDigits] at h
    | ok step =>
        rw [hDigits] at h
        obtain ⟨rfl, rfl⟩ := Step.mk.inj (Except.ok.inj h)
        obtain ⟨hRun, hAfter⟩ := isRun_of_reads_readDigits ⟨_, hDigits⟩
        exact ⟨⟨letter, some '-', step.value⟩, ⟨hLetter, by simp, hRun⟩,
          congrArg (letter :: '-' :: ·) hAfter, rfl⟩
  · cases hDigits : readDigits input with
    | error fault => simp [hDigits] at h
    | ok step =>
        rw [hDigits] at h
        obtain ⟨rfl, rfl⟩ := Step.mk.inj (Except.ok.inj h)
        obtain ⟨hRun, hInput⟩ := isRun_of_reads_readDigits ⟨_, hDigits⟩
        exact ⟨⟨letter, none, step.value⟩, ⟨hLetter, by simp, hRun⟩,
          congrArg (letter :: ·) hInput, rfl⟩

end Exponent

/-! ### Reading -/

namespace Literal

variable {l : Literal} {input rest : List Char} {negative : Bool} {value : Numeral}

/-- Without a point, a number that fits may be whole unless it has an exponent. -/
theorem numeral_of_fraction_eq_none (h : l.fraction = none) : l.numeral = l.exponent.elim
    (if l.gathered.dropped = 0 then Json.whole l.negative l.gathered.significand
      else floating l.negative l.gathered.significand l.gathered.dropped)
    fun e => floating l.negative l.gathered.significand (l.gathered.dropped + e.value) := by
  have hCounted : l.counted = (l.gathered.significand, 0) := by rw [counted, h, Option.elim_none]
  have hPlaces : l.places = l.gathered.dropped := by
    rw [places, hCounted]
    exact Int.sub_zero _
  rw [numeral, scale, hPlaces, hCounted]
  cases hExponent : l.exponent with
  | none =>
      rw [Option.elim_none, Option.elim_none, Int.add_zero]
      by_cases hDropped : l.gathered.dropped = 0
      · rw [if_pos hDropped, if_pos ⟨h, rfl, hDropped⟩]
      · rw [if_neg hDropped, if_neg fun hWhole => hDropped hWhole.2.2]
  | some e => rw [Option.elim_some, Option.elim_some, if_neg nofun]

/-- With a point a number is floating. -/
theorem numeral_of_fraction_eq_some {run : List Char} (h : l.fraction = some run) :
    l.numeral = l.exponent.elim (floating l.negative l.counted.1 l.places)
      fun e => floating l.negative l.counted.1 (l.places + e.value) := by
  have hNotWhole : ¬ (l.fraction = none ∧ l.exponent = none ∧ l.gathered.dropped = 0) := by
    simp [h]
  rw [numeral, scale, if_neg hNotWhole]
  cases l.exponent with
  | none => rw [Option.elim_none, Option.elim_none, Int.add_zero]
  | some e => rw [Option.elim_some, Option.elim_some]

theorem Valid.exists_digit (h : l.Valid) :
    ∃ c tail, l.body = c :: tail ∧ c.isDigit = true := by
  obtain ⟨hNonempty, hDigits⟩ := h.whole
  cases hWhole : l.whole with
  | nil => exact absurd hWhole hNonempty
  | cons c run =>
      refine ⟨c, run ++ l.fraction.elim [] ('.' :: ·) ++ l.tail, ?_, hDigits c ?_⟩
      · simp [body, hWhole]
      · simp [hWhole]

theorem Valid.endsRun_tail (h : l.Valid) (hRest : EndsNumber rest) : EndsRun (l.tail ++ rest) := by
  unfold tail
  cases hExponent : l.exponent with
  | none => exact hRest.endsRun
  | some e =>
      intro c hc
      obtain rfl : e.letter = c := by simpa [ExponentText.text] using hc
      have hLetter := (h.exponent e hExponent).letter
      simp only [isExponentLetter, Bool.or_eq_true, decide_eq_true_eq] at hLetter
      rcases hLetter with hLetter | hLetter <;> rw [hLetter] <;> decide

theorem Valid.tail_ne_point (h : l.Valid) (hRest : EndsNumber rest) (after : List Char) :
    l.tail ++ rest ≠ '.' :: after := by
  intro hPoint
  unfold tail at hPoint
  cases hExponent : l.exponent with
  | none =>
      rw [hExponent] at hPoint
      exact (hRest '.' (by simp_all)).2.1 rfl
  | some e =>
      rw [hExponent] at hPoint
      have hLetter := (h.exponent e hExponent).letter
      have hFirst : e.letter = '.' := by simpa [ExponentText.text] using congrArg List.head? hPoint
      rw [hFirst] at hLetter
      exact absurd hLetter (by decide)

theorem readScaled_exponent {e : ExponentText} (h : e.Valid) (hRest : EndsNumber rest)
    (significand : Nat) (exponent : Int) (absent : Except Fault Numeral) :
    ∃ shorter, readScaled negative significand exponent absent
        (e.letter :: (e.sign.toList ++ e.digits ++ rest)) =
      (floating negative significand (exponent + e.value)).map
        fun value => (value, ⟨rest, shorter⟩) := by
  obtain ⟨shorter, hRead⟩ := h.reads hRest.endsRun
  refine ⟨Nat.le_succ_of_le shorter.le, ?_⟩
  simp only [readScaled, h.letter, hRead, if_true]

/-- An exponent counts together with the places after the point. -/
theorem Valid.readScaled_tail (h : l.Valid) (hRest : EndsNumber rest) (significand : Nat)
    (exponent : Int) (absent : Except Fault Numeral) :
    ∃ shorter, readScaled l.negative significand exponent absent (l.tail ++ rest) =
      (l.exponent.elim absent fun e => floating l.negative significand (exponent + e.value)).map
        fun value => (value, ⟨rest, shorter⟩) := by
  cases hExponent : l.exponent with
  | none =>
      have hTail : l.tail ++ rest = rest := by rw [tail, hExponent]; rfl
      rw [hTail, Option.elim_none]
      exact ⟨Nat.le_refl _, readScaled_of_endsNumber hRest⟩
  | some e =>
      have hTail : l.tail ++ rest = e.letter :: (e.sign.toList ++ e.digits ++ rest) := by
        rw [tail, hExponent]
        rfl
      rw [hTail, Option.elim_some]
      exact readScaled_exponent (h.exponent e hExponent) hRest _ _ _

theorem reads_of_fraction_eq_none (h : l.Valid) (hRest : EndsNumber rest)
    (hFraction : l.fraction = none) (hValue : l.numeral = .ok value) :
    Reads (readMagnitude l.negative) (l.body ++ rest) value rest := by
  obtain ⟨shorter, hWhole⟩ := reads_readWhole h.whole h.leading (h.endsRun_tail hRest)
  obtain ⟨hLess, hTail⟩ := h.readScaled_tail hRest l.gathered.significand
    l.gathered.dropped (if l.gathered.dropped = 0 then Json.whole l.negative l.gathered.significand
      else floating l.negative l.gathered.significand l.gathered.dropped)
  have hResult := (numeral_of_fraction_eq_none hFraction).symm.trans hValue
  rw [hResult] at hTail
  have hText : l.body ++ rest = l.whole ++ (l.tail ++ rest) := by simp [body, hFraction]
  rw [hText]
  refine ⟨Nat.lt_of_le_of_lt hLess shorter, ?_⟩
  have hGathered : Gathered.ofWhole l.whole = l.gathered := rfl
  simp only [readMagnitude, hWhole, hGathered]
  split
  · next after hPoint => exact absurd hPoint (h.tail_ne_point hRest after)
  · simp [hTail, Except.map]

theorem reads_of_fraction_eq_some {run : List Char} (h : l.Valid) (hRest : EndsNumber rest)
    (hFraction : l.fraction = some run) (hValue : l.numeral = .ok value) :
    Reads (readMagnitude l.negative) (l.body ++ rest) value rest := by
  have hPoint : EndsRun ('.' :: (run ++ (l.tail ++ rest))) := by
    intro c hc
    cases hc
    rfl
  obtain ⟨shorter, hWhole⟩ := reads_readWhole h.whole h.leading hPoint
  obtain ⟨shorterFraction, hDigits⟩ :=
    reads_readDigits (h.fraction run hFraction) (h.endsRun_tail hRest)
  obtain ⟨hLess, hTail⟩ := h.readScaled_tail hRest l.counted.1
    l.places (floating l.negative l.counted.1 l.places)
  have hResult := (numeral_of_fraction_eq_some hFraction).symm.trans hValue
  rw [hResult] at hTail
  have hCounted : l.counted = Gathered.takeFraction l.gathered.significand run := by
    rw [counted, hFraction, Option.elim_some]
  have hText : l.body ++ rest = l.whole ++ '.' :: (run ++ (l.tail ++ rest)) := by
    simp [body, hFraction]
  rw [hText]
  refine ⟨?_, ?_⟩
  · rw [List.length_cons] at shorter
    omega
  · have hGathered : Gathered.ofWhole l.whole = l.gathered := rfl
    rw [places, hCounted] at hTail
    simp only [readMagnitude, hWhole, hDigits, hGathered]
    simp [hTail, Except.map]

/-- A number is read as what it stands for. -/
theorem Valid.reads (h : l.Valid) (hRest : EndsNumber rest) (hValue : l.numeral = .ok value) :
    Reads readNumber (l.text ++ rest) value rest := by
  have hBody : Reads (readMagnitude l.negative) (l.body ++ rest) value rest := by
    cases hFraction : l.fraction with
    | none => exact reads_of_fraction_eq_none h hRest hFraction hValue
    | some run => exact reads_of_fraction_eq_some h hRest hFraction hValue
  cases hNegative : l.negative with
  | true =>
      have hText : l.text = '-' :: l.body := by simp [text, hNegative]
      rw [hNegative] at hBody
      obtain ⟨shorter, hRead⟩ := hBody
      rw [hText]
      exact ⟨Nat.lt_succ_of_lt shorter, by simp [readNumber, hRead, Step.widen]⟩
  | false =>
      obtain ⟨c, tail, hFirst, hDigit⟩ := h.exists_digit
      have hSign : c ≠ '-' := by rintro rfl; exact absurd hDigit (by decide)
      have hText : l.text = c :: tail := by simp [text, hNegative, hFirst]
      rw [hNegative, hFirst, List.cons_append] at hBody
      obtain ⟨shorter, hRead⟩ := hBody
      rw [hText]
      exact ⟨shorter, by simp [readNumber, hSign, hRead]⟩

/-! ### What is read is a number -/

theorem exists_of_readScaled {significand : Nat} {exponent : Int} {absent : Except Fault Numeral}
    {after : { rest : List Char // rest.length ≤ input.length }}
    (h : readScaled negative significand exponent absent input = .ok (value, after)) :
    ∃ e : Option ExponentText, (∀ part ∈ e, part.Valid) ∧
      input = e.elim [] ExponentText.text ++ after.1 ∧
      (e.elim absent fun part => floating negative significand (exponent + part.value)) =
        .ok value := by
  unfold readScaled at h
  cases input with
  | nil =>
      obtain ⟨found, hFound, hPair⟩ := exists_of_map_eq_ok h
      obtain ⟨rfl, rfl⟩ := Prod.mk.inj hPair
      exact ⟨none, nofun, rfl, hFound⟩
  | cons c input =>
      dsimp only at h
      split_ifs at h with hLetter
      · cases hExponent : readExponent input with
        | error fault => simp [hExponent] at h
        | ok step =>
            rw [hExponent] at h
            obtain ⟨e, hValid, hInput, hValue⟩ :=
              exists_of_reads_readExponent hLetter ⟨step.shorter, hExponent⟩
            obtain ⟨found, hFound, hPair⟩ := exists_of_map_eq_ok h
            obtain ⟨rfl, rfl⟩ := Prod.mk.inj hPair
            refine ⟨some e, fun part hPart => ?_, hInput, ?_⟩
            · rw [← Option.some.inj hPart]
              exact hValid
            · rw [Option.elim_some, hValue, hFound]
      · obtain ⟨found, hFound, hPair⟩ := exists_of_map_eq_ok h
        obtain ⟨rfl, rfl⟩ := Prod.mk.inj hPair
        exact ⟨none, nofun, rfl, hFound⟩

theorem isRun_of_reads_readWhole {run : List Char} (h : Reads readWhole input run rest) :
    IsRun run ∧ (run.head? = some '0' → run = ['0']) ∧ input = run ++ rest := by
  obtain ⟨shorter, h⟩ := h
  unfold readWhole at h
  cases hDigits : readDigits input with
  | error fault => simp [hDigits] at h
  | ok step =>
      rw [hDigits] at h
      dsimp only at h
      split_ifs at h with hLeading
      obtain ⟨hRun, hInput⟩ := isRun_of_reads_readDigits ⟨step.shorter, hDigits⟩
      obtain ⟨rfl, rfl⟩ := Step.mk.inj (Except.ok.inj h)
      exact ⟨hRun, fun hZero => by_contra fun hMore => hLeading ⟨hZero, hMore⟩, hInput⟩

theorem exists_of_reads_readMagnitude (h : Reads (readMagnitude negative) input value rest) :
    ∃ l : Literal, l.Valid ∧ l.negative = negative ∧ input = l.body ++ rest ∧
      l.numeral = .ok value := by
  obtain ⟨shorter, h⟩ := h
  unfold readMagnitude at h
  cases hWhole : readWhole input with
  | error fault => simp [hWhole] at h
  | ok step =>
      obtain ⟨hRun, hLeading, hInput⟩ := isRun_of_reads_readWhole ⟨step.shorter, hWhole⟩
      rw [hWhole] at h
      dsimp only at h
      split at h
      · next afterPoint hPoint =>
        cases hDigits : readDigits afterPoint with
        | error fault => simp [hDigits] at h
        | ok fraction =>
            obtain ⟨hFraction, hAfter⟩ := isRun_of_reads_readDigits ⟨fraction.shorter, hDigits⟩
            rw [hDigits] at h
            dsimp only at h
            split at h
            · cases h
            · next found after hScaled =>
              obtain ⟨rfl, rfl⟩ := Step.mk.inj (Except.ok.inj h)
              obtain ⟨e, hValid, hTail, hValue⟩ := exists_of_readScaled hScaled
              refine ⟨⟨negative, step.value, some fraction.value, e⟩,
                ⟨hRun, hLeading, fun run hSome => ?_, hValid⟩, rfl, ?_, ?_⟩
              · rw [← Option.some.inj hSome]
                exact hFraction
              · have hRest : step.rest = '.' :: (fraction.value ++ (e.elim [] ExponentText.text ++
                    after.1)) :=
                  hPoint.trans (congrArg ('.' :: ·) (hAfter.trans
                    (congrArg (fraction.value ++ ·) hTail)))
                refine hInput.trans ((congrArg (step.value ++ ·) hRest).trans ?_)
                simp [body, tail]
              · exact (numeral_of_fraction_eq_some rfl).trans hValue
      · split at h
        · cases h
        · next found after hScaled =>
          obtain ⟨rfl, rfl⟩ := Step.mk.inj (Except.ok.inj h)
          obtain ⟨e, hValid, hTail, hValue⟩ := exists_of_readScaled hScaled
          refine ⟨⟨negative, step.value, none, e⟩, ⟨hRun, hLeading, nofun, hValid⟩, rfl, ?_, ?_⟩
          · refine hInput.trans ((congrArg (step.value ++ ·) hTail).trans ?_)
            simp [body, tail]
          · exact (numeral_of_fraction_eq_none rfl).trans hValue

/-- Whatever is read as a number is one. -/
theorem exists_of_reads (h : Reads readNumber input value rest) :
    ∃ l : Literal, l.Valid ∧ input = l.text ++ rest ∧ l.numeral = .ok value := by
  obtain ⟨shorter, h⟩ := h
  unfold readNumber at h
  split at h
  · next after =>
    cases hMagnitude : readMagnitude true after with
    | error fault => simp [hMagnitude] at h
    | ok step =>
        rw [hMagnitude] at h
        obtain ⟨rfl, rfl⟩ := Step.mk.inj (Except.ok.inj h)
        obtain ⟨l, hValid, hNegative, hAfter, hValue⟩ :=
          exists_of_reads_readMagnitude ⟨step.shorter, hMagnitude⟩
        refine ⟨l, hValid, ?_, hValue⟩
        rw [text, if_pos hNegative]
        exact congrArg ('-' :: ·) hAfter
  · obtain ⟨l, hValid, hNegative, hInput, hValue⟩ := exists_of_reads_readMagnitude ⟨shorter, h⟩
    refine ⟨l, hValid, ?_, hValue⟩
    rw [text, hNegative]
    exact hInput

end Literal

/-! ### Values -/

/-- Digits that were all gathered fit 64 bits. -/
theorem lt_of_dropped_eq_zero {run : List Char} {g : Gathered} (hg : g.significand < 2 ^ 64)
    (h : (run.foldl Gathered.takeWhole g).dropped = 0) :
    g.dropped = 0 ∧ Nat.ofDigitChars 10 run g.significand < 2 ^ 64 := by
  induction run generalizing g with
  | nil => exact ⟨h, by simpa using hg⟩
  | cons c run ih =>
      rw [List.foldl_cons] at h
      by_cases hTaken : g.dropped = 0 ∧ g.significand * 10 + Gathered.digitValue c < 2 ^ 64
      · have hTake : Gathered.takeWhole g c =
            ⟨g.significand * 10 + Gathered.digitValue c, g.dropped⟩ := if_pos hTaken
        rw [hTake] at h
        rw [ofDigitChars_digit]
        exact ⟨hTaken.1, (ih hTaken.2 h).2⟩
      · have hDrop : Gathered.takeWhole g c = ⟨g.significand, g.dropped + 1⟩ := if_neg hTaken
        rw [hDrop] at h
        exact absurd (ih (g := ⟨g.significand, g.dropped + 1⟩) hg h).1 (Nat.succ_ne_zero _)

/-- Multiplying by one changes nothing, so a whole number is rounded once. -/
theorem scale?_zero {n : Nat} {m : Magnitude} (h : Magnitude.ofNat? n = some m) :
    scale? n 0 = some m := by
  have hOne : (powerOfTen 0).units = Binary64.unitsPerOne := by
    rw [units_powerOfTen (Nat.zero_le _), pow_zero, Nat.one_mul]
  have hScale := scale?_of_nonneg h (Nat.zero_le 308)
  rw [Nat.cast_zero] at hScale
  rw [hScale, Magnitude.mul?, hOne]
  exact Magnitude.ofQuotient?_eq_some
    (Binary64.nearestIndex_gridUnits m.index Binary64.unitsPerOne_pos)

theorem floating_of_scale? {negative : Bool} {significand : Nat} {exponent : Int} {m : Magnitude}
    (h : scale? significand exponent = some m) :
    floating negative significand exponent = .ok (.floating (.finite negative m)) := by
  rw [floating, h]
  rfl

namespace Literal

variable {l : Literal} {value : Numeral} {i : Int64} {f : Binary64}

/-- The literal is a whole number of 64 bits. Minus zero does not count as whole. -/
def IsInt (l : Literal) (i : Int64) : Prop :=
  l.fraction = none ∧ l.exponent = none ∧
    Binary64.signed l.negative (ofDigits l.whole) = i.toInt ∧
    ¬ (l.negative = true ∧ ofDigits l.whole = 0)

/-- The floating number that the digits lead to, if they are not out of range. -/
def float? (l : Literal) : Option Binary64 :=
  (scale? l.counted.1 l.scale).map (.finite l.negative)

/-- A number with a point or an exponent, or with more digits than fit, is floating. -/
theorem numeral_of_not_fits (h : ¬ (l.fraction = none ∧ l.exponent = none ∧
    ofDigits l.whole < 2 ^ 64)) : l.numeral = floating l.negative l.counted.1 l.scale := by
  have hNotWhole : ¬ (l.fraction = none ∧ l.exponent = none ∧ l.gathered.dropped = 0) := by
    rintro ⟨hFraction, hExponent, hDropped⟩
    exact h ⟨hFraction, hExponent, (lt_of_dropped_eq_zero (by decide) hDropped).2⟩
  rw [numeral, if_neg hNotWhole]

/-- What is left is the digits alone, as they are. -/
theorem numeral_of_fits (hFraction : l.fraction = none) (hExponent : l.exponent = none)
    (h : ofDigits l.whole < 2 ^ 64) : l.numeral = Json.whole l.negative (ofDigits l.whole) ∧
      l.counted.1 = ofDigits l.whole ∧ l.scale = 0 := by
  have hGathered : l.gathered = ⟨ofDigits l.whole, 0⟩ := ofWhole_eq h
  have hCounted : l.counted = (ofDigits l.whole, 0) := by
    rw [counted, hFraction, hGathered, Option.elim_none]
  refine ⟨?_, by rw [hCounted], ?_⟩
  · rw [numeral, if_pos ⟨hFraction, hExponent, by rw [hGathered]⟩, hCounted]
  · rw [scale, places, hCounted, hGathered, hExponent]
    rfl

theorem not_isInt_of_not_fits (h : ¬ (l.fraction = none ∧ l.exponent = none ∧
    ofDigits l.whole < 2 ^ 64)) : ¬ l.IsInt i := by
  rintro ⟨hFraction, hExponent, hValue, -⟩
  have hLow := i.le_toInt
  have hHigh := i.toInt_lt
  refine h ⟨hFraction, hExponent, ?_⟩
  unfold Binary64.signed at hValue
  split_ifs at hValue <;> omega

/-- What the numeral of a literal comes to, as a stored number. -/
inductive Outcome (l : Literal) : Prop where
  | int (i : Int64) (hInt : l.IsInt i) (h : l.numeral = .ok (.whole i.toInt))
  | float (value : Numeral) (f : Binary64) (hOther : ∀ i, ¬ l.IsInt i) (hFloat : l.float? = some f)
      (h : l.numeral = .ok value) (hNumber : value.number = .float f)
  | tooLarge (hOther : ∀ i, ¬ l.IsInt i) (hFloat : l.float? = none)
      (h : l.numeral = .error .numberTooLarge)

theorem outcome_of_floating (hOther : ∀ i, ¬ l.IsInt i)
    (h : l.numeral = floating l.negative l.counted.1 l.scale) : l.Outcome := by
  cases hScale : scale? l.counted.1 l.scale with
  | none =>
      refine .tooLarge hOther (by rw [float?, hScale]; rfl) ?_
      rw [h, floating, hScale]
      rfl
  | some m =>
      refine .float (.floating (.finite l.negative m)) (.finite l.negative m) hOther
        (by rw [float?, hScale]; rfl) ?_ rfl
      rw [h, floating_of_scale? hScale]

/-- Digits alone that fit 64 bits without a sign. -/
theorem outcome_of_fits (hFraction : l.fraction = none) (hExponent : l.exponent = none)
    (h : ofDigits l.whole < 2 ^ 64) : l.Outcome := by
  obtain ⟨hNumeral, hCounted, hScale⟩ := numeral_of_fits hFraction hExponent h
  generalize hk : ofDigits l.whole = k at h hNumeral hCounted
  by_cases hMinus : (l.negative && (k = 0 || 2 ^ 63 < k)) = true
  · -- minus zero, or too far below zero
    refine outcome_of_floating (fun i hInt => ?_) ?_
    · obtain ⟨-, -, hValue, hZero⟩ := hInt
      have hLow := i.le_toInt
      simp only [Bool.and_eq_true, Bool.or_eq_true, decide_eq_true_eq] at hMinus
      obtain ⟨hNegative, hSmall⟩ := hMinus
      rw [hk, Binary64.signed, if_pos hNegative] at hValue
      rw [hk] at hZero
      rcases hSmall with hSmall | hSmall
      · exact hZero ⟨hNegative, hSmall⟩
      · omega
    · rw [hNumeral, hCounted, hScale, Json.whole, if_pos hMinus]
  have hWhole : l.numeral = .ok (.whole (Binary64.signed l.negative k)) := by
    rw [hNumeral, Json.whole, if_neg hMinus]
  by_cases hRange : -2 ^ 63 ≤ Binary64.signed l.negative k ∧ Binary64.signed l.negative k < 2 ^ 63
  · have hValue : (Int64.ofInt (Binary64.signed l.negative k)).toInt =
        Binary64.signed l.negative k := Int64.toInt_ofInt_of_le hRange.1 hRange.2
    refine .int (Int64.ofInt (Binary64.signed l.negative k)) ⟨hFraction, hExponent, ?_, ?_⟩ ?_
    · rw [hk, hValue]
    · rintro ⟨hNegative, hZero⟩
      rw [hk] at hZero
      simp [hNegative, hZero] at hMinus
    · rw [hWhole, hValue]
  · -- above the range with a sign, but within the one without
    have hPositive : l.negative = false := by
      by_contra hNegative
      simp only [Bool.not_eq_false] at hNegative
      simp only [hNegative, Binary64.signed, if_true, Bool.true_and, Bool.or_eq_true,
        decide_eq_true_eq, not_or, not_lt] at hMinus hRange
      omega
    have hBound : 2 ^ 64 ≤ 10 ^ 308 := by decide +kernel
    obtain ⟨m, hm⟩ := exists_ofNat?_of_le (h.le.trans hBound)
    have hNotNeg : ¬ ((k : Int) < 0) := by omega
    rw [hPositive, Binary64.signed, if_neg (by decide)] at hWhole hRange
    refine .float (.whole k) (.finite false m) (fun i hInt => ?_) ?_ hWhole ?_
    · obtain ⟨-, -, hValue, -⟩ := hInt
      rw [hk, hPositive, Binary64.signed, if_neg (by decide)] at hValue
      exact hRange (hValue ▸ ⟨i.le_toInt, i.toInt_lt⟩)
    · rw [float?, hCounted, hScale, scale?_zero hm, hPositive]
      rfl
    · rw [Numeral.number, Number.ofInt?, if_neg hRange, Option.getD_none, Binary64.ofInt,
        Int.natAbs_natCast, hm, decide_eq_false hNotNeg]
      rfl

theorem outcome (l : Literal) : l.Outcome := by
  by_cases h : l.fraction = none ∧ l.exponent = none ∧ ofDigits l.whole < 2 ^ 64
  · exact outcome_of_fits h.1 h.2.1 h.2.2
  · exact outcome_of_floating (fun i => not_isInt_of_not_fits h) (numeral_of_not_fits h)

/-- The number that a literal stands for: the whole number itself where it is one of 64
bits, and else the floating one that its digits lead to. -/
inductive Denotes (l : Literal) : Number → Prop where
  | int {i : Int64} (h : l.IsInt i) : Denotes l (.int i)
  | float {f : Binary64} (hOther : ∀ i, ¬ l.IsInt i) (h : l.float? = some f) :
      Denotes l (.float f)

theorem number_int (i : Int64) : Numeral.number (.whole i.toInt) = .int i := by
  rw [Numeral.number, Number.ofInt?, if_pos ⟨i.le_toInt, i.toInt_lt⟩, Option.getD_some,
    Int64.ofInt_toInt]

/-- A numeral is the number that its text stands for. -/
theorem denotes_iff {n : Number} :
    l.Denotes n ↔ ∃ value, l.numeral = .ok value ∧ value.number = n := by
  cases l.outcome with
  | int i hInt h =>
      constructor
      · intro hDenotes
        refine ⟨_, h, ?_⟩
        cases hDenotes with
        | @int j hInt' =>
            have hSame : i = j := Int64.toInt_inj.mp (hInt.2.2.1.symm.trans hInt'.2.2.1)
            rw [number_int, hSame]
        | float hOther => exact absurd hInt (hOther i)
      · rintro ⟨value, hValue, rfl⟩
        rw [h] at hValue
        obtain rfl := Except.ok.inj hValue
        rw [number_int]
        exact .int hInt
  | float value f hOther hFloat h hNumber =>
      constructor
      · intro hDenotes
        refine ⟨_, h, ?_⟩
        cases hDenotes with
        | int hInt => exact absurd hInt (hOther _)
        | float _ hFloat' => rw [hNumber, Option.some.inj (hFloat.symm.trans hFloat')]
      · rintro ⟨value', hValue, rfl⟩
        rw [h] at hValue
        obtain rfl := Except.ok.inj hValue
        rw [hNumber]
        exact .float hOther hFloat
  | tooLarge hOther hFloat h =>
      constructor
      · intro hDenotes
        cases hDenotes with
        | int hInt => exact absurd hInt (hOther _)
        | float _ hFloat' => rw [hFloat] at hFloat'; cases hFloat'
      · rintro ⟨value, hValue, -⟩
        rw [h] at hValue
        cases hValue

/-- A floating number whose digits all count. -/
theorem counted_eq (h : ofDigits (l.whole ++ l.fraction.getD []) < 2 ^ 64) :
    l.counted = (ofDigits (l.whole ++ l.fraction.getD []), (l.fraction.getD []).length) ∧
      l.gathered.dropped = 0 := by
  rw [ofDigits_append] at h ⊢
  have hWhole : l.gathered = ⟨ofDigits l.whole, 0⟩ :=
    ofWhole_eq (Nat.lt_of_le_of_lt (le_ofDigitChars _ _) h)
  refine ⟨?_, by rw [hWhole]⟩
  rw [counted, hWhole]
  cases hFraction : l.fraction with
  | none => simp
  | some run =>
      rw [hFraction, Option.getD_some] at h
      rw [Option.elim_some, takeFraction_eq h, Option.getD_some]

theorem isFinite_of_denotes {n : Number} (h : l.Denotes n) : n.isFinite = true := by
  cases h with
  | int hInt => rfl
  | float hOther hFloat =>
      obtain ⟨m, -, rfl⟩ := Option.map_eq_some_iff.mp hFloat
      rfl

end Literal

/-- A digit or a minus sign comes first. -/
def StartsNumber (text : List Char) : Prop :=
  ∃ c ∈ text.head?, (c = '-' || c.isDigit) = true

theorem Literal.Valid.startsNumber {l : Literal} (h : l.Valid) : StartsNumber l.text := by
  obtain ⟨c, tail, hBody, hDigit⟩ := h.exists_digit
  rw [Literal.text]
  split_ifs
  · exact ⟨'-', rfl, rfl⟩
  · exact ⟨c, by simp [hBody], by simp [hDigit]⟩

end SnapshotStore.Json
