import SnapshotStore.Json.Reader
import SnapshotStore.Proofs.Json.Numeral

/-! Lists are read item by item. Any blanks may stand around the items and the
commas, so one theorem serves every layout; and nothing is taken for a list that
is not one. -/
namespace SnapshotStore.Json

variable {α β : Type}

/-! ### Blanks -/

def Blanks (text : List Char) : Prop :=
  ∀ c ∈ text, isBlank c = true

theorem blanks_nil : Blanks [] := by
  simp [Blanks]

theorem skip_blanks {blanks : List Char} (h : Blanks blanks) (rest : List Char) :
    skip (blanks ++ rest) = skip rest :=
  List.dropWhile_append_of_pos h

theorem skip_cons {c : Char} (h : isBlank c = false) (rest : List Char) :
    skip (c :: rest) = c :: rest := by
  rw [skip, List.dropWhile_cons, h]
  rfl

theorem exists_blanks_of_skip {input rest : List Char} (h : skip input = rest) :
    ∃ blanks, Blanks blanks ∧ input = blanks ++ rest := by
  refine ⟨input.takeWhile isBlank, fun c hc => List.mem_takeWhile_imp hc, ?_⟩
  rw [← h]
  exact List.takeWhile_append_dropWhile.symm

theorem endsNumber_cons_of_blank {c : Char} (h : isBlank c = true) (rest : List Char) :
    EndsNumber (c :: rest) := by
  intro d hd
  cases hd
  simp only [isBlank, Bool.or_eq_true, decide_eq_true_eq] at h
  rcases h with ((rfl | rfl) | rfl) | rfl <;> decide

theorem endsNumber_blanks {blanks rest : List Char} (h : Blanks blanks)
    (hRest : EndsNumber rest) : EndsNumber (blanks ++ rest) := by
  cases blanks with
  | nil => exact hRest
  | cons c blanks => exact endsNumber_cons_of_blank (h c List.mem_cons_self) _

theorem endsNumber_comma (rest : List Char) : EndsNumber (',' :: rest) := by
  intro d hd
  cases hd
  decide

theorem endsNumber_bracket (rest : List Char) : EndsNumber (']' :: rest) := by
  intro d hd
  cases hd
  decide

theorem endsNumber_brace (rest : List Char) : EndsNumber ('\x7d' :: rest) := by
  intro d hd
  cases hd
  decide

/-! ### Separated parts -/

section Parts

variable (language : List Char → α → Prop) (closing : Char)

/-- What follows a part of a sequence: the others, each after a comma, and the
closing bracket. -/
inductive MoreParts : List Char → List α → Prop where
  | closed {gap : List Char} (hGap : Blanks gap) : MoreParts (gap ++ [closing]) []
  | next {before after text more : List Char} {value : α} {values : List α}
      (hBefore : Blanks before) (hAfter : Blanks after) (hPart : language text value)
      (hMore : MoreParts more values) :
      MoreParts (before ++ ',' :: (after ++ text ++ more)) (value :: values)

/-- What follows the opening bracket of a sequence. -/
inductive Parts : List Char → List α → Prop where
  | closed {gap : List Char} (hGap : Blanks gap) : Parts (gap ++ [closing]) []
  | first {gap text more : List Char} {value : α} {values : List α} (hGap : Blanks gap)
      (hPart : language text value) (hMore : MoreParts language closing more values) :
      Parts (gap ++ text ++ more) (value :: values)

end Parts

section Parts

variable {language : List Char → α → Prop} {other : List Char → β → Prop} {f : α → β}
  {closing : Char} {text rest : List Char} {values : List α}

theorem MoreParts.map (h : MoreParts language closing text values)
    (hPart : ∀ part value, language part value → other part (f value)) :
    MoreParts other closing text (values.map f) := by
  induction h with
  | closed hGap => exact .closed hGap
  | next hBefore hAfter hFirst hMore ih => exact .next hBefore hAfter (hPart _ _ hFirst) ih

theorem Parts.map (h : Parts language closing text values)
    (hPart : ∀ part value, language part value → other part (f value)) :
    Parts other closing text (values.map f) := by
  cases h with
  | closed hGap => exact .closed hGap
  | first hGap hFirst hMore => exact .first hGap (hPart _ _ hFirst) (hMore.map hPart)

theorem Parts.mono {wider : List Char → α → Prop} (h : Parts language closing text values)
    (hPart : ∀ part value, language part value → wider part value) :
    Parts wider closing text values := by
  have hMapped := h.map (f := id) hPart
  rwa [List.map_id] at hMapped

theorem MoreParts.exists_part (h : MoreParts language closing text values) {value : α}
    (hValue : value ∈ values) : ∃ part, language part value := by
  induction h with
  | closed hGap => cases hValue
  | next hBefore hAfter hPart hMore ih =>
      rcases List.mem_cons.mp hValue with rfl | hValue
      · exact ⟨_, hPart⟩
      · exact ih hValue

theorem Parts.exists_part (h : Parts language closing text values) {value : α}
    (hValue : value ∈ values) : ∃ part, language part value := by
  cases h with
  | closed hGap => cases hValue
  | first hGap hPart hMore =>
      rcases List.mem_cons.mp hValue with rfl | hValue
      · exact ⟨_, hPart⟩
      · exact hMore.exists_part hValue

theorem MoreParts.endsNumber (h : MoreParts language closing text values)
    (hClosing : EndsNumber (closing :: rest)) : EndsNumber (text ++ rest) := by
  cases h with
  | closed hGap =>
      rw [List.append_assoc]
      exact endsNumber_blanks hGap hClosing
  | next hBefore hAfter hPart hMore =>
      rw [List.append_assoc]
      exact endsNumber_blanks hBefore (endsNumber_comma _)

end Parts

/-! ### Layouts -/

/-- What follows the first part of a sequence: the others, each after a comma
and a gap, and the closing bracket after a margin. -/
def following (gap margin : List Char) (closing : Char) (parts : List (List Char)) : List Char :=
  parts.flatMap (',' :: gap ++ ·) ++ margin ++ [closing]

/-- What follows the opening bracket of a sequence. -/
def inside (gap margin : List Char) (closing : Char) : List (List Char) → List Char
  | [] => [closing]
  | part :: parts => gap ++ part ++ following gap margin closing parts

theorem following_cons (gap margin : List Char) (closing : Char) (part : List Char)
    (parts : List (List Char)) : following gap margin closing (part :: parts) =
      ',' :: gap ++ part ++ following gap margin closing parts := by
  simp [following]

section Layouts

variable {language : List Char → α → Prop} {gap margin : List Char} {closing : Char}
  {text : β → List Char} {value : β → α} {parts : List β}

theorem moreParts_following (hGap : Blanks gap) (hMargin : Blanks margin)
    (hParts : ∀ part ∈ parts, language (text part) (value part)) :
    MoreParts language closing (following gap margin closing (parts.map text))
      (parts.map value) := by
  induction parts with
  | nil => exact .closed hMargin
  | cons part parts ih =>
      have hMore := ih fun other hOther => hParts other (List.mem_cons_of_mem part hOther)
      rw [List.map_cons, following_cons]
      exact .next blanks_nil hGap (hParts part List.mem_cons_self) hMore

theorem parts_inside (hGap : Blanks gap) (hMargin : Blanks margin)
    (hParts : ∀ part ∈ parts, language (text part) (value part)) :
    Parts language closing (inside gap margin closing (parts.map text)) (parts.map value) := by
  cases parts with
  | nil => exact .closed blanks_nil
  | cons part parts =>
      apply Parts.first hGap (hParts part List.mem_cons_self)
      exact moreParts_following hGap hMargin fun other hOther =>
        hParts other (List.mem_cons_of_mem part hOther)

theorem endsNumber_following (gap : List Char) {rest : List Char} (hMargin : Blanks margin)
    (hClosing : EndsNumber (closing :: rest)) (parts : List (List Char)) :
    EndsNumber (following gap margin closing parts ++ rest) := by
  cases parts with
  | nil =>
      simp only [following, List.flatMap_nil, List.nil_append, List.append_assoc]
      exact endsNumber_blanks hMargin hClosing
  | cons part parts =>
      rw [following_cons]
      exact endsNumber_comma _

end Layouts

/-! ### Readers and languages -/

/-- A reader accepts a text for a value if it takes it, whatever blanks stand
in front, and whatever follows that would not continue a number. No blank
comes first in the text, and it is not mistaken for a closing bracket. -/
structure Accepts (read : Reader α) (text : List Char) (value : α) : Prop where
  first : ∃ c tail, text = c :: tail ∧ isBlank c = false ∧ c ≠ ']'
  reads : ∀ input rest, EndsNumber rest → skip input = text ++ rest → Reads read input value rest

/-- For this value the reader takes only texts of the language, after blanks. -/
def TakesOnly (read : Reader α) (language : List Char → α → Prop) (value : α) : Prop :=
  ∀ input rest, Reads read input value rest →
    ∃ gap text, Blanks gap ∧ language text value ∧ input = gap ++ text ++ rest

section Accepts

variable {item : Reader α} {text gap rest : List Char} {value : α}

theorem Accepts.skip_append (h : Accepts item text value) (hGap : Blanks gap)
    (rest : List Char) : skip (gap ++ text ++ rest) = text ++ rest := by
  obtain ⟨c, tail, hText, hBlank, -⟩ := h.first
  rw [List.append_assoc, skip_blanks hGap, hText, List.cons_append, skip_cons hBlank]

theorem Accepts.exists_first (h : Accepts item text value) (hGap : Blanks gap)
    (rest : List Char) : ∃ c tail, skip (gap ++ text ++ rest) = c :: tail ∧ c ≠ ']' := by
  have hSkip := h.skip_append hGap rest
  obtain ⟨c, tail, hText, -, hBracket⟩ := h.first
  exact ⟨c, tail ++ rest, by rw [hSkip, hText, List.cons_append], hBracket⟩

theorem Accepts.reads_append (h : Accepts item text value) (hGap : Blanks gap)
    (hRest : EndsNumber rest) : Reads item (gap ++ text ++ rest) value rest :=
  h.reads _ _ hRest (h.skip_append hGap rest)

end Accepts

/-! ### Lists -/

section Items

variable {item : Reader α} {language : List Char → α → Prop}
  {input inner afterItem text rest : List Char} {value : α} {values : List α}

theorem reads_closingBracket (hSkip : skip input = ']' :: rest) :
    Reads (readMoreItems item) input [] rest := by
  refine ⟨length_lt_of_skip hSkip, ?_⟩
  rw [readMoreItems]
  split
  · next h => simp [hSkip] at h
  · next c inner h =>
    rw [hSkip] at h
    cases h
    simp

theorem Reads.nextItem (hSkip : skip input = ',' :: inner)
    (hFirst : ∃ c tail, skip inner = c :: tail ∧ c ≠ ']') (hItem : Reads item inner value afterItem)
    (hMore : Reads (readMoreItems item) afterItem values rest) :
    Reads (readMoreItems item) input (value :: values) rest := by
  obtain ⟨c, tail, hInner, hBracket⟩ := hFirst
  obtain ⟨shorter, hItem⟩ := hItem
  obtain ⟨shorterMore, hMore⟩ := hMore
  have hLess := length_lt_of_skip hSkip
  refine ⟨by omega, ?_⟩
  rw [readMoreItems]
  split
  · next h => simp [hSkip] at h
  · next d inner' h =>
    rw [hSkip] at h
    cases h
    simp [hInner, hBracket, hItem, hMore, Step.map, Step.widen]

theorem reads_noItems (hSkip : skip input = ']' :: rest) :
    Reads (readItems item) input [] rest := by
  refine ⟨length_lt_of_skip hSkip, ?_⟩
  unfold readItems
  split
  · next h => simp [hSkip] at h
  · next h =>
    rw [hSkip] at h
    cases h
    rfl
  · next h => exact absurd hSkip (h rest)

theorem Reads.firstItem (hFirst : ∃ c tail, skip input = c :: tail ∧ c ≠ ']')
    (hItem : Reads item input value afterItem)
    (hMore : Reads (readMoreItems item) afterItem values rest) :
    Reads (readItems item) input (value :: values) rest := by
  obtain ⟨c, tail, hSkip, hBracket⟩ := hFirst
  obtain ⟨shorter, hItem⟩ := hItem
  obtain ⟨shorterMore, hMore⟩ := hMore
  refine ⟨by omega, ?_⟩
  unfold readItems
  split
  · next h => simp [hSkip] at h
  · next h =>
    rw [hSkip] at h
    cases h
    exact absurd rfl hBracket
  · simp [hItem, hMore, Step.map, Step.widen]

theorem MoreParts.reads_readMoreItems (h : MoreParts (Accepts item) ']' text values)
    (rest : List Char) : Reads (readMoreItems item) (text ++ rest) values rest := by
  induction h with
  | closed hGap =>
      apply reads_closingBracket
      rw [List.append_assoc, skip_blanks hGap]
      exact skip_cons (by decide) rest
  | @next before after text more value values hBefore hAfter hPart hMore ih =>
      have hSkip : skip (before ++ ',' :: (after ++ text ++ more) ++ rest) =
          ',' :: (after ++ text ++ (more ++ rest)) := by
        rw [List.append_assoc, skip_blanks hBefore, List.cons_append, skip_cons (by decide),
          List.append_assoc]
      exact Reads.nextItem hSkip (hPart.exists_first hAfter _)
        (hPart.reads_append hAfter (hMore.endsNumber (endsNumber_bracket rest))) ih

/-- What stands after the opening bracket of a list gives the items. -/
theorem Parts.reads_readItems (h : Parts (Accepts item) ']' text values) (rest : List Char) :
    Reads (readItems item) (text ++ rest) values rest := by
  cases h with
  | closed hGap =>
      apply reads_noItems
      rw [List.append_assoc, skip_blanks hGap]
      exact skip_cons (by decide) rest
  | first hGap hPart hMore =>
      rw [List.append_assoc]
      exact Reads.firstItem (hPart.exists_first hGap _)
        (hPart.reads_append hGap (hMore.endsNumber (endsNumber_bracket rest)))
        (hMore.reads_readMoreItems rest)

theorem exists_of_reads_readMoreItems (h : Reads (readMoreItems item) input values rest)
    (hItem : ∀ value ∈ values, TakesOnly item language value) :
    ∃ text, MoreParts language ']' text values ∧ input = text ++ rest := by
  obtain ⟨shorter, h⟩ := h
  induction hLength : input.length using Nat.strongRecOn generalizing input values with
  | _ length ih =>
  rw [readMoreItems] at h
  split at h
  · cases h
  · next c after hSkip =>
    obtain ⟨before, hBefore, hInput⟩ := exists_blanks_of_skip hSkip
    split_ifs at h with hClosing hComma
    · obtain ⟨rfl, rfl⟩ := Step.mk.inj (Except.ok.inj h)
      rw [hClosing] at hInput
      exact ⟨before ++ [']'], .closed hBefore, by simp [hInput]⟩
    · split at h
      · cases h
      · cases h
      · cases hFirst : item after with
        | error fault => simp [hFirst] at h
        | ok first =>
            cases hMore : readMoreItems item first.rest with
            | error fault => simp [hFirst, hMore] at h
            | ok others =>
                simp only [hFirst, hMore] at h
                obtain ⟨rfl, rfl⟩ := Step.mk.inj (Except.ok.inj h)
                obtain ⟨gap, text, hGap, hText, hAfter⟩ :=
                  hItem first.value List.mem_cons_self _ _ ⟨first.shorter, hFirst⟩
                have hLess : first.rest.length < length := by
                  have hFirstLess := first.shorter
                  have hAfterLess := length_lt_of_skip hSkip
                  omega
                obtain ⟨more, hParts, hRest⟩ := ih _ hLess
                  (fun value hValue => hItem value (List.mem_cons_of_mem _ hValue))
                  others.shorter hMore rfl
                refine ⟨before ++ ',' :: (gap ++ text ++ more), .next hBefore hGap hText hParts, ?_⟩
                rw [hComma] at hInput
                refine hInput.trans ((congrArg (before ++ ',' :: ·)
                  (hAfter.trans (congrArg (gap ++ text ++ ·) hRest))).trans ?_)
                simp

theorem exists_of_reads_readItems (h : Reads (readItems item) input values rest)
    (hItem : ∀ value ∈ values, TakesOnly item language value) :
    ∃ text, Parts language ']' text values ∧ input = text ++ rest := by
  obtain ⟨shorter, h⟩ := h
  unfold readItems at h
  split at h
  · cases h
  · next after hSkip =>
    obtain ⟨gap, hGap, hInput⟩ := exists_blanks_of_skip hSkip
    obtain ⟨rfl, rfl⟩ := Step.mk.inj (Except.ok.inj h)
    exact ⟨gap ++ [']'], .closed hGap, by simp [hInput]⟩
  · cases hFirst : item input with
    | error fault => simp [hFirst] at h
    | ok first =>
        cases hMore : readMoreItems item first.rest with
        | error fault => simp [hFirst, hMore] at h
        | ok others =>
            simp only [hFirst, hMore] at h
            obtain ⟨rfl, rfl⟩ := Step.mk.inj (Except.ok.inj h)
            obtain ⟨gap, text, hGap, hText, hInput⟩ :=
              hItem first.value List.mem_cons_self _ _ ⟨first.shorter, hFirst⟩
            obtain ⟨more, hParts, hRest⟩ := exists_of_reads_readMoreItems
              ⟨others.shorter, hMore⟩ fun value hValue =>
                hItem value (List.mem_cons_of_mem _ hValue)
            refine ⟨gap ++ text ++ more, .first hGap hText hParts, ?_⟩
            refine hInput.trans ((congrArg (gap ++ text ++ ·) hRest).trans ?_)
            simp [Step.map]

end Items

end SnapshotStore.Json
