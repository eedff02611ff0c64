import Mathlib.Data.List.TakeWhile
import Mathlib.Data.List.Basic
import SnapshotStore.Command.Parse

/-! How a text is cut into its first word and the rest: what stands around both and
between them is blank, and what is inside the rest stays as it is. The cut of a text
is the only one of this kind. -/
namespace SnapshotStore

namespace Text

variable {cs word gap rest before after : List Char}

/-- Blanks, or nothing. -/
def Blank (cs : List Char) : Prop :=
  ∀ c ∈ cs, isBlank c = true

/-- Something without blanks. -/
def IsWord (cs : List Char) : Prop :=
  cs ≠ [] ∧ ∀ c ∈ cs, isBlank c = false

/-- Something that may have blanks inside, but neither begins nor ends with one. -/
def IsPhrase (cs : List Char) : Prop :=
  cs ≠ [] ∧ (∀ c ∈ cs.head?, isBlank c = false) ∧ ∀ c ∈ cs.getLast?, isBlank c = false

theorem blank_nil : Blank [] :=
  nofun

theorem blank_space : Blank [' '] := fun _ hc => List.mem_singleton.mp hc ▸ rfl

theorem IsWord.isPhrase (h : IsWord cs) : IsPhrase cs :=
  ⟨h.1, fun c hc => h.2 c (List.mem_of_mem_head? hc),
    fun c hc => h.2 c (List.mem_of_mem_getLast? hc)⟩

theorem isPhrase_append (hWord : IsWord word) (hRest : IsPhrase rest) :
    IsPhrase (word ++ gap ++ rest) := by
  obtain ⟨first, more, rfl⟩ := List.exists_cons_of_ne_nil hWord.1
  refine ⟨by simp, fun c hc => ?_, fun c hc => ?_⟩
  · obtain rfl : first = c := Option.some.inj hc
    exact hWord.2 first (List.mem_cons_self ..)
  · rw [List.getLast?_append_of_ne_nil _ hRest.1] at hc
    exact hRest.2.2 c hc

/-! ### Trimming -/

theorem trimStart_blank (h : Blank cs) : trimStart cs = [] :=
  List.dropWhile_eq_nil_iff.mpr h

theorem trimStart_append (h : Blank before) : trimStart (before ++ cs) = trimStart cs :=
  List.dropWhile_append_of_pos h

theorem trimStart_of_head? (h : ∀ c ∈ cs.head?, isBlank c = false) : trimStart cs = cs := by
  cases cs with
  | nil => rfl
  | cons c cs => exact List.dropWhile_cons_of_neg (by simp [h c rfl])

theorem trimEnd_append (h : Blank after) : trimEnd (cs ++ after) = trimEnd cs := by
  have hReverse : ∀ c ∈ after.reverse, isBlank c = true := fun c hc => h c (List.mem_reverse.mp hc)
  rw [trimEnd, List.reverse_append, List.dropWhile_append_of_pos hReverse, trimEnd]

theorem trimEnd_of_getLast? (h : ∀ c ∈ cs.getLast?, isBlank c = false) : trimEnd cs = cs := by
  rw [trimEnd, ← trimStart, trimStart_of_head? (by rwa [List.head?_reverse]), List.reverse_reverse]

theorem trim_blank (h : Blank cs) : trim cs = [] := by
  rw [trim, trimStart_blank h]
  rfl

theorem trim_phrase (hBefore : Blank before) (h : IsPhrase cs) (hAfter : Blank after) :
    trim (before ++ cs ++ after) = cs := by
  have hHead : ∀ c ∈ (cs ++ after).head?, isBlank c = false := fun c hc => by
    rw [List.head?_append_of_ne_nil _ h.1] at hc
    exact h.2.1 c hc
  rw [trim, List.append_assoc, trimStart_append hBefore, trimStart_of_head? hHead,
    trimEnd_append hAfter, trimEnd_of_getLast? h.2.2]

theorem isBlank_head?_trimStart (cs : List Char) :
    ∀ c ∈ (trimStart cs).head?, isBlank c = false := by
  intro c hc
  have hHead := List.head?_dropWhile_not isBlank cs
  rwa [← trimStart, Option.mem_def.mp hc] at hHead

theorem isBlank_getLast?_trimEnd (cs : List Char) :
    ∀ c ∈ (trimEnd cs).getLast?, isBlank c = false := by
  intro c hc
  rw [trimEnd, List.getLast?_reverse] at hc
  exact isBlank_head?_trimStart cs.reverse c hc

/-- What is trimmed at the end are blanks. -/
theorem exists_trimEnd (cs : List Char) : ∃ after, cs = trimEnd cs ++ after ∧ Blank after := by
  refine ⟨(cs.reverse.takeWhile isBlank).reverse, ?_, fun c hc =>
    List.mem_takeWhile_imp (List.mem_reverse.mp hc)⟩
  rw [trimEnd, ← List.reverse_append, List.takeWhile_append_dropWhile, List.reverse_reverse]

/-- A text that is not blank is a phrase with blanks around it. -/
theorem exists_phrase (cs : List Char) : Blank cs ∨ ∃ before phrase after,
    cs = before ++ phrase ++ after ∧ Blank before ∧ IsPhrase phrase ∧ Blank after := by
  have hBefore : Blank (cs.takeWhile isBlank) := fun c => List.mem_takeWhile_imp
  have hSplit : cs.takeWhile isBlank ++ trimStart cs = cs := List.takeWhile_append_dropWhile
  obtain ⟨after, hTail, hAfter⟩ := exists_trimEnd (trimStart cs)
  have hHead := isBlank_head?_trimStart cs
  have hLast := isBlank_getLast?_trimEnd (trimStart cs)
  generalize trimEnd (trimStart cs) = phrase at hTail hLast
  rw [hTail] at hSplit hHead
  by_cases hPhrase : phrase = []
  · subst hPhrase
    refine Or.inl fun c hc => ?_
    rw [← hSplit] at hc
    exact (List.mem_append.mp hc).elim (hBefore c) (hAfter c)
  · rw [List.head?_append_of_ne_nil _ hPhrase] at hHead
    exact Or.inr ⟨_, phrase, after, by rw [List.append_assoc, hSplit], hBefore,
      ⟨hPhrase, hHead, hLast⟩, hAfter⟩

/-! ### Cutting -/

/-- A text is cut into its first word and the rest. Nothing but blanks stands before,
between and after them, and where there is a rest there is a blank in front of it. -/
inductive Cut : List Char → List Char → List Char → Prop where
  | blank {cs : List Char} (h : Blank cs) : Cut cs [] []
  | word {before word after : List Char} (hBefore : Blank before) (hWord : IsWord word)
      (hAfter : Blank after) : Cut (before ++ word ++ after) word []
  | phrase {before word gap rest after : List Char} (hBefore : Blank before) (hWord : IsWord word)
      (hGap : Blank gap ∧ gap ≠ []) (hRest : IsPhrase rest) (hAfter : Blank after) :
      Cut (before ++ (word ++ gap ++ rest) ++ after) word rest

theorem splitWord_of_isWord (hWord : ∀ c ∈ word, isBlank c = false)
    (hRest : ∀ c ∈ rest.head?, isBlank c = true) : splitWord (word ++ rest) = (word, rest) := by
  have hLetters : ∀ c ∈ word, (!isBlank c) = true := fun c hc => by simp [hWord c hc]
  rw [splitWord, List.takeWhile_append_of_pos hLetters, List.dropWhile_append_of_pos hLetters]
  cases rest with
  | nil => simp
  | cons c rest => simp [hRest c rfl]

theorem Cut.splitToken_eq (h : Cut cs word rest) : Command.splitToken cs = (word, rest) := by
  unfold Command.splitToken
  cases h with
  | blank h =>
      rw [trim_blank h]
      rfl
  | word hBefore hWord hAfter =>
      have hSplit : splitWord (word ++ []) = (word, []) := splitWord_of_isWord hWord.2 nofun
      rw [List.append_nil] at hSplit
      rw [trim_phrase hBefore hWord.isPhrase hAfter, hSplit]
      rfl
  | @phrase _ _ gap _ _ hBefore hWord hGap hRest hAfter =>
      obtain ⟨first, more, rfl⟩ := List.exists_cons_of_ne_nil hGap.2
      have hHead : ∀ c ∈ (first :: more ++ rest).head?, isBlank c = true := fun c hc => by
        obtain rfl : first = c := Option.some.inj hc
        exact hGap.1 first (List.mem_cons_self ..)
      rw [trim_phrase hBefore (isPhrase_append hWord hRest) hAfter, List.append_assoc,
        splitWord_of_isWord hWord.2 hHead]
      simp only
      rw [trimStart_append hGap.1, trimStart_of_head? hRest.2.1]

/-- A phrase begins with a word, up to its first blank. -/
theorem exists_word {phrase : List Char} (h : IsPhrase phrase) : ∃ word back,
    phrase = word ++ back ∧ IsWord word ∧ ∀ c ∈ back.head?, isBlank c = true := by
  refine ⟨(splitWord phrase).1, (splitWord phrase).2, (splitWord_append phrase).symm,
    ⟨?_, fun c hc => ?_⟩, fun c hc => ?_⟩
  · obtain ⟨first, more, rfl⟩ := List.exists_cons_of_ne_nil h.1
    simp [splitWord, h.2.1 first rfl]
  · simpa using List.mem_takeWhile_imp hc
  · have hFound := List.head?_dropWhile_not (!isBlank ·) phrase
    rw [splitWord, Option.mem_def] at hc
    simpa [hc] using hFound

/-- Where a text begins with a blank and does not end with one, there is a phrase behind
the blanks. -/
theorem exists_gap {back : List Char} (hNonempty : back ≠ [])
    (hHead : ∀ c ∈ back.head?, isBlank c = true) (hLast : ∀ c ∈ back.getLast?, isBlank c = false) :
    ∃ gap rest, back = gap ++ rest ∧ (Blank gap ∧ gap ≠ []) ∧ IsPhrase rest := by
  have hGap : Blank (back.takeWhile isBlank) := fun c => List.mem_takeWhile_imp
  have hSplit : back.takeWhile isBlank ++ trimStart back = back := List.takeWhile_append_dropWhile
  have hRest : trimStart back ≠ [] := by
    intro hNothing
    have hBlank := List.dropWhile_eq_nil_iff.mp hNothing _ (List.getLast_mem hNonempty)
    rw [hLast _ (List.getLast?_eq_some_getLast hNonempty)] at hBlank
    cases hBlank
  refine ⟨_, _, hSplit.symm, ⟨hGap, ?_⟩, hRest, isBlank_head?_trimStart back, fun c hc => ?_⟩
  · obtain ⟨first, more, rfl⟩ := List.exists_cons_of_ne_nil hNonempty
    simp [hHead first rfl]
  · rw [← hSplit, List.getLast?_append_of_ne_nil _ hRest] at hLast
    exact hLast c hc

theorem exists_cut (cs : List Char) : ∃ word rest, Cut cs word rest := by
  rcases exists_phrase cs with hBlank | ⟨before, phrase, after, rfl, hBefore, hPhrase, hAfter⟩
  · exact ⟨[], [], .blank hBlank⟩
  obtain ⟨word, back, rfl, hWord, hHead⟩ := exists_word hPhrase
  by_cases hBack : back = []
  · subst hBack
    rw [List.append_nil]
    exact ⟨word, [], .word hBefore hWord hAfter⟩
  · have hLast := hPhrase.2.2
    rw [List.getLast?_append_of_ne_nil _ hBack] at hLast
    obtain ⟨gap, rest, rfl, hGap, hRest⟩ := exists_gap hBack hHead hLast
    rw [← List.append_assoc word]
    exact ⟨word, rest, .phrase hBefore hWord hGap hRest hAfter⟩

/-- Every text has one cut, which is the one that is computed. -/
theorem cut_iff : Cut cs word rest ↔ Command.splitToken cs = (word, rest) := by
  refine ⟨Cut.splitToken_eq, fun h => ?_⟩
  obtain ⟨word', rest', hCut⟩ := exists_cut cs
  obtain ⟨rfl, rfl⟩ := Prod.mk.inj (hCut.splitToken_eq.symm.trans h)
  exact hCut

/-! ### Words and phrases in a row -/

/-- A text is cut as it is once the blanks around it are gone. -/
theorem Cut.trimmed (h : Cut cs word rest) : Cut (trim cs) word rest := by
  cases h with
  | blank h =>
      rw [trim_blank h]
      exact .blank blank_nil
  | word hBefore hWord hAfter =>
      rw [trim_phrase hBefore hWord.isPhrase hAfter]
      simpa using Cut.word blank_nil hWord blank_nil
  | phrase hBefore hWord hGap hRest hAfter =>
      rw [trim_phrase hBefore (isPhrase_append hWord hRest) hAfter]
      simpa using Cut.phrase blank_nil hWord hGap hRest blank_nil

/-- A text begins with its first word, apart from blanks. -/
theorem Cut.head?_trim (h : Cut cs word rest) : (trim cs).head? = word.head? := by
  cases h with
  | blank h => rw [trim_blank h]
  | word hBefore hWord hAfter => rw [trim_phrase hBefore hWord.isPhrase hAfter]
  | phrase hBefore hWord hGap hRest hAfter =>
      rw [trim_phrase hBefore (isPhrase_append hWord hRest) hAfter, List.append_assoc,
        List.head?_append_of_ne_nil _ hWord.1]

theorem isPhrase_pair (hWord : IsWord word) (hRest : IsPhrase rest) :
    IsPhrase (word ++ ' ' :: rest) := by
  have hJoined : IsPhrase (word ++ [' '] ++ rest) := isPhrase_append hWord hRest
  simpa using hJoined

theorem cut_pair (hWord : IsWord word) (hRest : IsPhrase rest) :
    Cut (word ++ ' ' :: rest) word rest := by
  simpa using Cut.phrase blank_nil hWord ⟨blank_space, nofun⟩ hRest blank_nil

theorem cut_word (hWord : IsWord word) : Cut word word [] := by
  simpa using Cut.word blank_nil hWord blank_nil

end Text

end SnapshotStore
