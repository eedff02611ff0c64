import SnapshotStore.Json.Quoted
import Mathlib.Tactic.SplitIfs

/-! Texts between quotes: how each character may be written, and that the reader
takes exactly what is written so. Between the quotes any character may stand, and
what follows the closing quote is left. -/
namespace SnapshotStore.Json

/-- The reader takes this value from the beginning of the input, and leaves
this rest. -/
def Reads {α : Type} (read : Reader α) (input : List Char) (value : α) (rest : List Char) : Prop :=
  ∃ shorter, read input = .ok ⟨value, rest, shorter⟩

/-! ### What may be written -/

/-- Four hexadecimal digits and the number they write. -/
inductive HexText : List Char → Nat → Prop where
  | digits {a b c d : Char} {n : Nat} (h : hexValue4? a b c d = some n) : HexText [a, b, c, d] n

/-- How a character may be written after a backslash. -/
inductive EscapeText : List Char → Char → Prop where
  | letter {letter c : Char} (h : escaped? letter = some c) : EscapeText [letter] c
  | numbered {text : List Char} {n : Nat} (hText : HexText text n)
      (hLow : isLowSurrogate n = false) (hHigh : isHighSurrogate n = false) :
      EscapeText ('u' :: text) (.ofNat n)
  | pair {text text' : List Char} {high low : Nat} (hText : HexText text high)
      (hHigh : isHighSurrogate high = true) (hText' : HexText text' low)
      (hLow : isLowSurrogate low = true) :
      EscapeText ('u' :: (text ++ '\\' :: 'u' :: text')) (ofSurrogates high low)

/-- How characters may be written between quotes: as they are, unless they are quotes,
backslashes or control characters, or after a backslash. -/
inductive CharsText : List Char → List Char → Prop where
  | nil : CharsText [] []
  | plain {c : Char} {text chars : List Char} (hQuote : c ≠ '"') (hBackslash : c ≠ '\\')
      (hControl : ¬c.toNat < 0x20) (hTail : CharsText text chars) : CharsText (c :: text) (c :: chars)
  | escape {c : Char} {escape text chars : List Char} (hEscape : EscapeText escape c)
      (hTail : CharsText text chars) : CharsText ('\\' :: (escape ++ text)) (c :: chars)

/-- A text between quotes. -/
inductive QuotedText : List Char → String → Prop where
  | quoted {text : List Char} {s : String} (h : CharsText text s.toList) :
      QuotedText ('"' :: (text ++ ['"'])) s

/-! ### How texts are written -/

/-- How a character is written: with a letter of its own, with its number, or
as it is. -/
theorem escapeChar_cases (c : Char) :
    (∃ letter, escapeChar c = ['\\', letter] ∧ escaped? letter = some c) ∨
    (c.toNat < 0x20 ∧ escapeChar c =
      ['\\', 'u', '0', '0', hexDigit (c.toNat / 16), hexDigit (c.toNat % 16)]) ∨
    (escapeChar c = [c] ∧ c ≠ '"' ∧ c ≠ '\\' ∧ ¬c.toNat < 0x20) := by
  unfold escapeChar
  split_ifs with hQuote hBackslash hBack hTab hLine hForm hReturn hControl
  · exact .inl ⟨'"', rfl, by rw [hQuote]; rfl⟩
  · exact .inl ⟨'\\', rfl, by rw [hBackslash]; rfl⟩
  · exact .inl ⟨'b', rfl, by rw [hBack]; rfl⟩
  · exact .inl ⟨'t', rfl, by rw [hTab]; rfl⟩
  · exact .inl ⟨'n', rfl, by rw [hLine]; rfl⟩
  · exact .inl ⟨'f', rfl, by rw [hForm]; rfl⟩
  · exact .inl ⟨'r', rfl, by rw [hReturn]; rfl⟩
  · exact .inr (.inl ⟨hControl, rfl⟩)
  · exact .inr (.inr ⟨rfl, hQuote, hBackslash, hControl⟩)

theorem hexText_hexDigit {n : Nat} (h : n < 0x20) :
    HexText ['0', '0', hexDigit (n / 16), hexDigit (n % 16)] n := by
  have hAll : ∀ n : Fin 0x20,
      hexValue4? '0' '0' (hexDigit (n / 16)) (hexDigit (n % 16)) = some n.val := by decide
  exact .digits (hAll ⟨n, h⟩)

theorem escapeText_hexDigit {c : Char} (h : c.toNat < 0x20) :
    EscapeText ['u', '0', '0', hexDigit (c.toNat / 16), hexDigit (c.toNat % 16)] c := by
  have hLow : isLowSurrogate c.toNat = false := by
    simp only [isLowSurrogate, Bool.and_eq_false_iff, decide_eq_false_iff_not]
    omega
  have hHigh : isHighSurrogate c.toNat = false := by
    simp only [isHighSurrogate, Bool.and_eq_false_iff, decide_eq_false_iff_not]
    omega
  have hText := EscapeText.numbered (hexText_hexDigit h) hLow hHigh
  rw [Char.ofNat_toNat] at hText
  exact hText

theorem charsText_escapeChar (chars : List Char) : CharsText (chars.flatMap escapeChar) chars := by
  induction chars with
  | nil => exact .nil
  | cons c chars ih =>
      rw [List.flatMap_cons]
      rcases escapeChar_cases c with ⟨letter, hWritten, hEscaped⟩ | ⟨hControl, hWritten⟩ |
        ⟨hWritten, hQuote, hBackslash, hControl⟩
      · rw [hWritten]
        exact .escape (.letter hEscaped) ih
      · rw [hWritten]
        exact .escape (escapeText_hexDigit hControl) ih
      · rw [hWritten]
        exact .plain hQuote hBackslash hControl ih

theorem quotedText_quote (s : String) : QuotedText (quote s) s :=
  .quoted (charsText_escapeChar s.toList)

/-! ### What is written is read -/

section Quoted

variable {c : Char} {n : Nat} {input text chars rest : List Char} {s : String}

theorem HexText.reads (h : HexText text n) (rest : List Char) :
    Reads readHex (text ++ rest) n rest := by
  cases h with
  | digits h => exact ⟨by simp only [List.length_append, List.length_cons]; omega,
      by simp [readHex, h]⟩

theorem EscapeText.reads (h : EscapeText text c) (rest : List Char) :
    Reads readEscape (text ++ rest) c rest := by
  cases h with
  | @letter letter c h =>
      have hLetter : letter ≠ 'u' := by
        rintro rfl
        cases h
      exact ⟨by simp, by simp [readEscape, hLetter, h]⟩
  | numbered hText hLow hHigh =>
      obtain ⟨shorter, hRead⟩ := hText.reads rest
      refine ⟨Nat.lt_succ_of_lt shorter, ?_⟩
      simp [readEscape, readNumbered, hRead, hLow, hHigh, Step.map, Step.widen]
  | @pair text text' high low hText hHigh hText' hLow =>
      obtain ⟨shorter', hRead'⟩ := hText'.reads rest
      obtain ⟨shorter, hRead⟩ := hText.reads ('\\' :: 'u' :: (text' ++ rest))
      have hNotLow : isLowSurrogate high = false := by
        simp only [isHighSurrogate, isLowSurrogate, Bool.and_eq_true, Bool.and_eq_false_iff,
          decide_eq_true_eq, decide_eq_false_iff_not] at hHigh ⊢
        omega
      simp only [List.cons_append, List.append_assoc]
      refine ⟨?_, ?_⟩
      · simp only [List.length_cons] at shorter ⊢
        omega
      · simp [readEscape, readNumbered, hRead, hNotLow, hHigh, readLowSurrogate, hRead', hLow,
          Step.map, Step.widen]

theorem CharsText.reads (h : CharsText text chars) (rest : List Char) :
    Reads readQuoted (text ++ '"' :: rest) chars rest := by
  induction h with
  | nil =>
      rw [List.nil_append]
      refine ⟨by simp, ?_⟩
      rw [readQuoted]
      simp
  | plain hQuote hBackslash hControl hTail ih =>
      obtain ⟨shorter, hRead⟩ := ih
      rw [List.cons_append]
      refine ⟨Nat.lt_succ_of_lt shorter, ?_⟩
      rw [readQuoted]
      simp [hQuote, hBackslash, hControl, hRead, Step.map, Step.widen]
  | @escape c escape text chars hEscape hTail ih =>
      obtain ⟨shorter, hRead⟩ := ih
      obtain ⟨shorterEscape, hFirst⟩ := hEscape.reads (text ++ '"' :: rest)
      rw [List.cons_append, List.append_assoc]
      refine ⟨by simp only [List.length_cons]; omega, ?_⟩
      rw [readQuoted]
      simp [hFirst, hRead, Step.map, Step.widen]

/-- What stands after the opening quote of a quoted text gives the text. -/
theorem CharsText.reads_readText (h : CharsText text s.toList) (rest : List Char) :
    Reads readText (text ++ '"' :: rest) s rest := by
  obtain ⟨shorter, hRead⟩ := h.reads rest
  exact ⟨shorter, by simp [readText, hRead, Step.map]⟩

theorem reads_readText (s : String) (rest : List Char) :
    Reads readText (s.toList.flatMap escapeChar ++ '"' :: rest) s rest :=
  (charsText_escapeChar s.toList).reads_readText rest

/-! ### What is read is written so -/

theorem exists_of_reads_readHex (h : Reads readHex input n rest) :
    ∃ text, HexText text n ∧ input = text ++ rest := by
  obtain ⟨shorter, h⟩ := h
  unfold readHex at h
  split at h
  · next a b c d after =>
    cases hValue : hexValue4? a b c d with
    | none => simp [hValue] at h
    | some value =>
        rw [hValue] at h
        obtain ⟨rfl, rfl⟩ := Step.mk.inj (Except.ok.inj h)
        exact ⟨_, .digits hValue, rfl⟩
  · split_ifs at h

theorem exists_of_reads_readLowSurrogate {high : Nat}
    (h : Reads (readLowSurrogate high) input c rest) :
    ∃ text low, HexText text low ∧ isLowSurrogate low = true ∧
      input = '\\' :: 'u' :: (text ++ rest) ∧ c = ofSurrogates high low := by
  obtain ⟨shorter, h⟩ := h
  unfold readLowSurrogate at h
  split at h
  · cases h
  · cases h
  · next after =>
    cases hHex : readHex after with
    | error fault => simp [hHex] at h
    | ok step =>
        rw [hHex] at h
        dsimp only at h
        split_ifs at h with hLow
        obtain ⟨text, hText, hAfter⟩ := exists_of_reads_readHex ⟨step.shorter, hHex⟩
        obtain ⟨rfl, rfl⟩ := Step.mk.inj (Except.ok.inj h)
        refine ⟨text, step.value, hText, hLow, congrArg ('\\' :: 'u' :: ·) hAfter, ?_⟩
        simp only [Step.map]
  · cases h

theorem exists_of_reads_readNumbered (h : Reads readNumbered input c rest) :
    ∃ text, EscapeText ('u' :: text) c ∧ input = text ++ rest := by
  obtain ⟨shorter, h⟩ := h
  unfold readNumbered at h
  cases hHex : readHex input with
  | error fault => simp [hHex] at h
  | ok step =>
      obtain ⟨text, hText, hInput⟩ := exists_of_reads_readHex ⟨step.shorter, hHex⟩
      rw [hHex] at h
      dsimp only at h
      split_ifs at h with hLow hHigh
      · cases hPair : readLowSurrogate step.value step.rest with
        | error fault => simp [hPair] at h
        | ok low =>
            rw [hPair] at h
            obtain ⟨rfl, rfl⟩ := Step.mk.inj (Except.ok.inj h)
            obtain ⟨text', value, hText', hLow', hRest, hChar⟩ :=
              exists_of_reads_readLowSurrogate ⟨low.shorter, hPair⟩
            refine ⟨text ++ '\\' :: 'u' :: text', ?_, ?_⟩
            · rw [hChar]
              exact .pair hText hHigh hText' hLow'
            · refine hInput.trans ((congrArg (text ++ ·) hRest).trans ?_)
              simp
      · obtain ⟨rfl, rfl⟩ := Step.mk.inj (Except.ok.inj h)
        exact ⟨text, .numbered hText (Bool.eq_false_iff.mpr hLow) (Bool.eq_false_iff.mpr hHigh),
          hInput⟩

theorem exists_of_reads_readEscape (h : Reads readEscape input c rest) :
    ∃ text, EscapeText text c ∧ input = text ++ rest := by
  obtain ⟨shorter, h⟩ := h
  cases input with
  | nil => cases h
  | cons letter input =>
      rw [readEscape] at h
      split_ifs at h with hNumbered
      · cases hRead : readNumbered input with
        | error fault => simp [hRead] at h
        | ok step =>
            rw [hRead] at h
            obtain ⟨rfl, rfl⟩ := Step.mk.inj (Except.ok.inj h)
            obtain ⟨text, hText, hInput⟩ := exists_of_reads_readNumbered ⟨step.shorter, hRead⟩
            exact ⟨'u' :: text, hText, by rw [hNumbered]; exact congrArg ('u' :: ·) hInput⟩
      · cases hEscaped : escaped? letter with
        | none => simp [hEscaped] at h
        | some found =>
            rw [hEscaped] at h
            obtain ⟨rfl, rfl⟩ := Step.mk.inj (Except.ok.inj h)
            exact ⟨[letter], .letter hEscaped, rfl⟩

theorem exists_of_reads_readQuoted (h : Reads readQuoted input chars rest) :
    ∃ text, CharsText text chars ∧ input = text ++ '"' :: rest := by
  obtain ⟨shorter, h⟩ := h
  induction hLength : input.length using Nat.strongRecOn generalizing input chars with
  | _ length ih =>
  cases input with
  | nil =>
      rw [readQuoted] at h
      cases h
  | cons c input =>
      rw [readQuoted] at h
      split_ifs at h with hQuote hBackslash hControl
      · obtain ⟨rfl, rfl⟩ := Step.mk.inj (Except.ok.inj h)
        exact ⟨[], .nil, by rw [hQuote]; rfl⟩
      · cases hEscape : readEscape input with
        | error fault => simp [hEscape] at h
        | ok first =>
            cases hTail : readQuoted first.rest with
            | error fault => simp [hEscape, hTail] at h
            | ok tail =>
                simp only [hEscape, hTail] at h
                obtain ⟨rfl, rfl⟩ := Step.mk.inj (Except.ok.inj h)
                obtain ⟨escape, hText, hInput⟩ :=
                  exists_of_reads_readEscape ⟨first.shorter, hEscape⟩
                have hLess : first.rest.length < length := by
                  rw [← hLength]
                  exact Nat.lt_succ_of_lt first.shorter
                obtain ⟨text, hChars, hRest⟩ := ih _ hLess tail.shorter hTail rfl
                refine ⟨'\\' :: (escape ++ text), .escape hText hChars, ?_⟩
                rw [hBackslash]
                refine congrArg ('\\' :: ·) (hInput.trans ((congrArg (escape ++ ·) hRest).trans ?_))
                simp [Step.map]
      · cases hTail : readQuoted input with
        | error fault => simp [hTail] at h
        | ok tail =>
            rw [hTail] at h
            obtain ⟨rfl, rfl⟩ := Step.mk.inj (Except.ok.inj h)
            have hLess : input.length < length := by
              rw [← hLength]
              exact Nat.lt_succ_self _
            obtain ⟨text, hChars, hRest⟩ := ih _ hLess tail.shorter hTail rfl
            exact ⟨c :: text, .plain hQuote hBackslash hControl hChars,
              congrArg (c :: ·) hRest⟩

theorem exists_of_reads_readText (h : Reads readText input s rest) :
    ∃ text, CharsText text s.toList ∧ input = text ++ '"' :: rest := by
  obtain ⟨shorter, h⟩ := h
  unfold readText at h
  cases hRead : readQuoted input with
  | error fault => simp [hRead] at h
  | ok step =>
      rw [hRead] at h
      obtain ⟨rfl, rfl⟩ := Step.mk.inj (Except.ok.inj h)
      rw [String.toList_ofList]
      exact exists_of_reads_readQuoted ⟨step.shorter, hRead⟩

end Quoted

end SnapshotStore.Json
