import SnapshotStore.Proofs.Json.Literal
import SnapshotStore.Proofs.Json.Sequence
import SnapshotStore.Value.OfJson

/-! The first character of a value decides how it is read. -/
namespace SnapshotStore.Json

variable {room : Nat} {input text rest : List Char}

theorem StartsNumber.exists_cons (h : StartsNumber text) :
    ∃ c tail, text = c :: tail ∧ (c = '-' || c.isDigit) = true := by
  obtain ⟨c, hHead, hFirst⟩ := h
  obtain ⟨tail, hText⟩ := List.head?_eq_some_iff.mp hHead
  exact ⟨c, tail, hText, hFirst⟩

/-- What begins a number begins nothing else. -/
theorem not_other_of_startsNumber {c : Char} (h : (c = '-' || c.isDigit) = true) :
    isBlank c = false ∧ c ≠ ']' ∧ c ≠ 'n' ∧ c ≠ 't' ∧ c ≠ 'f' := by
  refine ⟨?_, ?_, ?_, ?_, ?_⟩
  · by_contra hBlank
    simp only [isBlank, Bool.not_eq_false, Bool.or_eq_true, decide_eq_true_eq] at hBlank
    rcases hBlank with ((rfl | rfl) | rfl) | rfl <;> exact absurd h (by decide)
  all_goals
    rintro rfl
    exact absurd h (by decide)

theorem accepts_number {numeral : Numeral} (hStarts : StartsNumber text)
    (hReads : ∀ rest, EndsNumber rest → Reads readNumber (text ++ rest) numeral rest) :
    Accepts (readValue room) text (.number numeral) := by
  obtain ⟨c, tail, rfl, hFirst⟩ := hStarts.exists_cons
  obtain ⟨hBlank, hBracket, hNull, hTrue, hFalse⟩ := not_other_of_startsNumber hFirst
  refine ⟨⟨c, tail, rfl, hBlank, hBracket⟩, fun input rest hRest hSkip => ?_⟩
  rw [List.cons_append] at hSkip
  obtain ⟨shorter, hRead⟩ : Reads readNumber (c :: (tail ++ rest)) numeral rest :=
    hReads rest hRest
  refine ⟨?_, ?_⟩
  · have hLess := length_le_of_skip hSkip
    omega
  · unfold readValue
    split
    · next h => simp [hSkip] at h
    · next d after h =>
      rw [hSkip] at h
      cases h
      rw [if_neg hNull, if_neg hTrue, if_neg hFalse, if_pos hFirst]
      simp [hRead, Step.map, Step.widen]

theorem accepts_quotedText {s : String} (h : QuotedText text s) :
    Accepts (readValue room) text (.text s) := by
  cases h with
  | @quoted chars s hChars =>
  refine ⟨⟨'"', _, rfl, by decide, by decide⟩, fun input rest _ hSkip => ?_⟩
  have hSkip' : skip input = '"' :: (chars ++ '"' :: rest) := by
    rw [hSkip]
    simp
  obtain ⟨shorter, hRead⟩ := hChars.reads_readText rest
  have hLess := length_lt_of_skip hSkip'
  refine ⟨by omega, ?_⟩
  unfold readValue
  split
  · next h => simp [hSkip'] at h
  · next d after h =>
    rw [hSkip'] at h
    cases h
    simp [hRead, Step.map, Step.widen]

theorem reads_letters (tree : Json) (letters rest : List Char) :
    ∃ notLonger, readLetters tree letters (letters ++ rest) = .ok (tree, ⟨rest, notLonger⟩) := by
  induction letters with
  | nil => exact ⟨_, rfl⟩
  | cons letter letters ih =>
      obtain ⟨notLonger, hRead⟩ := ih
      refine ⟨Nat.le_succ_of_le notLonger, ?_⟩
      simp [readLetters, hRead, Except.map]

/-- The words of JSON: the first letter, the others, and what the word stands for. -/
inductive Word : Char → List Char → Json → Prop where
  | null : Word 'n' ['u', 'l', 'l'] .null
  | true : Word 't' ['r', 'u', 'e'] (.bool true)
  | false : Word 'f' ['a', 'l', 's', 'e'] (.bool false)

theorem readValue_word {first : Char} {letters : List Char} {tree : Json}
    (h : Word first letters tree) (hSkip : skip input = first :: rest) :
    readValue room input = readWord tree letters (length_lt_of_skip hSkip) := by
  unfold readValue
  split
  · next hEnd => simp [hSkip] at hEnd
  · next hFound =>
    rw [hSkip] at hFound
    cases hFound
    cases h with
    | null => rfl
    | true => rfl
    | false => rfl

theorem accepts_word {first : Char} {letters : List Char} {tree : Json}
    (h : Word first letters tree) : Accepts (readValue room) (first :: letters) tree := by
  have hFirst : isBlank first = false ∧ first ≠ ']' := by
    cases h with
    | null => decide
    | true => decide
    | false => decide
  refine ⟨⟨first, letters, rfl, hFirst⟩, fun input rest _ hSkip => ?_⟩
  rw [List.cons_append] at hSkip
  obtain ⟨notLonger, hLetters⟩ := reads_letters tree letters rest
  refine ⟨Nat.lt_of_le_of_lt notLonger (length_lt_of_skip hSkip), ?_⟩
  rw [readValue_word h hSkip, readWord, hLetters]
  rfl

theorem accepts_bool (b : Bool) : Accepts (readValue room) (Value.boolJson b) (.bool b) := by
  cases b with
  | true => exact accepts_word .true
  | false => exact accepts_word .false

theorem accepts_list {items : List String} (h : Parts QuotedText ']' text items) :
    Accepts (readValue (room + 1)) ('[' :: text) (.list (items.map .text)) := by
  refine ⟨⟨'[', _, rfl, by decide, by decide⟩, fun input rest _ hSkip => ?_⟩
  have hItems : Parts (Accepts (readValue room)) ']' text (items.map .text) :=
    h.map fun _ _ => accepts_quotedText
  obtain ⟨shorter, hRead⟩ := hItems.reads_readItems rest
  rw [List.cons_append] at hSkip
  have hLess := length_lt_of_skip hSkip
  refine ⟨by omega, ?_⟩
  unfold readValue
  split
  · next h => simp [hSkip] at h
  · next d after h =>
    rw [hSkip] at h
    cases h
    simp [hRead, Step.map, Step.widen]

/-! ### What is taken for a value -/

/-- What a value was read from, after blanks: its first character decides. -/
inductive ReadFrom : Nat → List Char → Json → List Char → Prop where
  | word {room : Nat} {first : Char} {letters input rest : List Char} {tree : Json}
      (h : Word first letters tree) (hInput : input = letters ++ rest) :
      ReadFrom room (first :: input) tree rest
  | number {room : Nat} {input rest : List Char} {numeral : Numeral}
      (h : Reads readNumber input numeral rest) : ReadFrom room input (.number numeral) rest
  | text {room : Nat} {input rest : List Char} {s : String} (h : Reads readText input s rest) :
      ReadFrom room ('"' :: input) (.text s) rest
  | list {room : Nat} {input rest : List Char} {items : List Json}
      (h : Reads (readItems (readValue room)) input items rest) :
      ReadFrom (room + 1) ('[' :: input) (.list items) rest
  | record {room : Nat} {input rest : List Char} {members : List (String × Json)}
      (h : Reads (readMembers (readValue room)) input members rest) :
      ReadFrom (room + 1) ('\x7b' :: input) (.record members) rest

theorem eq_append_of_readLetters {tree tree' : Json} {letters : List Char}
    {after : { rest : List Char // rest.length ≤ input.length }}
    (h : readLetters tree letters input = .ok (tree', after)) :
    tree' = tree ∧ input = letters ++ after.1 := by
  induction letters generalizing input with
  | nil =>
      obtain ⟨rfl, rfl⟩ := Prod.mk.inj (Except.ok.inj h)
      exact ⟨rfl, rfl⟩
  | cons letter letters ih =>
      cases input with
      | nil => cases h
      | cons c input =>
          rw [readLetters] at h
          split_ifs at h with hLetter
          obtain ⟨⟨found, rest⟩, hFound, hPair⟩ := exists_of_map_eq_ok h
          obtain ⟨rfl, rfl⟩ := Prod.mk.inj hPair
          obtain ⟨hTree, hInput⟩ := ih hFound
          refine ⟨hTree, ?_⟩
          rw [hLetter]
          exact congrArg (c :: ·) hInput

theorem readFrom_of_readWord {first : Char} {letters inner : List Char} {tree tree' : Json}
    (hWord : Word first letters tree) {hLess : inner.length < input.length}
    {shorter : rest.length < input.length}
    (h : readWord tree letters hLess = .ok ⟨tree', rest, shorter⟩) :
    ReadFrom room (first :: inner) tree' rest := by
  obtain ⟨⟨found, after⟩, hFound, hStep⟩ := exists_of_map_eq_ok h
  obtain ⟨rfl, rfl⟩ := Step.mk.inj hStep
  obtain ⟨hTree, hInner⟩ := eq_append_of_readLetters hFound
  rw [hTree]
  exact .word hWord hInner

theorem readFrom_of_reads_readValue {tree : Json} (h : Reads (readValue room) input tree rest) :
    ∃ gap inner, Blanks gap ∧ ReadFrom room inner tree rest ∧ input = gap ++ inner := by
  obtain ⟨shorter, h⟩ := h
  unfold readValue at h
  split at h
  · cases h
  · next c inner hSkip =>
    obtain ⟨gap, hGap, hInput⟩ := exists_blanks_of_skip hSkip
    refine ⟨gap, c :: inner, hGap, ?_, hInput⟩
    split_ifs at h with hNull hTrue hFalse hNumber hQuote hList hRecord
    · rw [hNull]
      exact readFrom_of_readWord .null h
    · rw [hTrue]
      exact readFrom_of_readWord .true h
    · rw [hFalse]
      exact readFrom_of_readWord .false h
    · cases hRead : readNumber (c :: inner) with
      | error fault => simp [hRead] at h
      | ok step =>
          rw [hRead] at h
          obtain ⟨rfl, rfl⟩ := Step.mk.inj (Except.ok.inj h)
          exact .number ⟨step.shorter, hRead⟩
    · cases hRead : readText inner with
      | error fault => simp [hRead] at h
      | ok step =>
          rw [hRead] at h
          obtain ⟨rfl, rfl⟩ := Step.mk.inj (Except.ok.inj h)
          rw [hQuote]
          exact .text ⟨step.shorter, hRead⟩
    · cases room with
      | zero => cases h
      | succ room =>
          dsimp only at h
          cases hRead : readItems (readValue room) inner with
          | error fault => simp [hRead] at h
          | ok step =>
              rw [hRead] at h
              obtain ⟨rfl, rfl⟩ := Step.mk.inj (Except.ok.inj h)
              rw [hList]
              exact .list ⟨step.shorter, hRead⟩
    · cases room with
      | zero => cases h
      | succ room =>
          dsimp only at h
          cases hRead : readMembers (readValue room) inner with
          | error fault => simp [hRead] at h
          | ok step =>
              rw [hRead] at h
              obtain ⟨rfl, rfl⟩ := Step.mk.inj (Except.ok.inj h)
              rw [hRecord]
              exact .record ⟨step.shorter, hRead⟩

/-- A text among the values was written between quotes. -/
theorem takesOnly_quotedText {s : String} :
    TakesOnly (readValue room) (fun text tree => ∃ s, QuotedText text s ∧ tree = .text s)
      (.text s) := by
  intro input rest h
  obtain ⟨gap, inner, hGap, hFrom, hInput⟩ := readFrom_of_reads_readValue h
  cases hFrom with
  | word hWord => cases hWord
  | @text _ after _ _ hText =>
      obtain ⟨chars, hChars, hAfter⟩ := exists_of_reads_readText hText
      refine ⟨gap, '"' :: (chars ++ ['"']), hGap, ⟨s, .quoted hChars, rfl⟩, ?_⟩
      rw [hInput, hAfter]
      simp

end SnapshotStore.Json
