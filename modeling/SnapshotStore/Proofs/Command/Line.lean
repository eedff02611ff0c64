import SnapshotStore.Proofs.Command.Grammar

/-! Lines that are put together from a verb and arguments, with one space between any two
of them. Where the arguments are a word and a phrase, the line is read as these. -/
namespace SnapshotStore.Command

open Text

variable {verb name : String} {arguments : List String} {word rest : List Char}

/-- Blanks around a line do not matter. -/
theorem parse_trim (line : String) : parse (String.ofList (trim line.toList)) = parse line := by
  obtain ⟨word, rest, hCut⟩ := exists_cut line.toList
  unfold parse
  rw [String.toList_ofList, hCut.trimmed.splitToken_eq, hCut.splitToken_eq]

/-! ### Verbs -/

/-- Letters and digits are not blank. -/
theorem isBlank_of_isAlphanum {c : Char} (h : c.isAlphanum = true) : isBlank c = false := by
  rw [Bool.eq_false_iff]
  intro hBlank
  obtain ⟨range, hRange, hLow, hHigh⟩ := Ranges.contain_iff.mp hBlank
  have hApart : ∀ range ∈ blankRanges, range.2 < '0'.toNat ∨ 'z'.toNat < range.1 := by decide
  have hOutside := hApart range hRange
  have hNumber : c.val.toNat = c.toNat := rfl
  simp only [Char.isAlphanum, Char.isAlpha, Char.isUpper, Char.isLower, Char.isDigit,
    Bool.or_eq_true, Bool.and_eq_true, decide_eq_true_eq, ge_iff_le, UInt32.le_iff_toNat_le,
    hNumber, Char.reduceVal, UInt32.reduceToNat] at h
  simp only [Char.reduceToNat] at hOutside
  omega

/-- The verb has the letters of a name, each of them in either case. -/
def SameLetters (verb name : String) : Prop :=
  verb.toList.map Char.toUpper = name.toList.map Char.toUpper

theorem SameLetters.isAlpha (h : SameLetters verb name)
    (hName : name.toList.all Char.isAlpha = true) : ∀ c ∈ verb.toList, c.isAlpha = true := by
  intro c hc
  have hUpper : c.toUpper ∈ name.toList.map Char.toUpper := h ▸ List.mem_map_of_mem hc
  obtain ⟨letter, hLetter, hSame⟩ := List.mem_map.mp hUpper
  have hAlpha := List.all_eq_true.mp hName letter hLetter
  rwa [← Char.isAlpha_toUpper_eq_isAlpha, hSame, Char.isAlpha_toUpper_eq_isAlpha] at hAlpha

theorem SameLetters.isWord (h : SameLetters verb name)
    (hName : name.toList.all Char.isAlpha = true) (hNonempty : name.toList ≠ []) :
    IsWord verb.toList := by
  refine ⟨fun hNone => hNonempty ?_, fun c hc => ?_⟩
  · rwa [SameLetters, hNone, List.map_nil, eq_comm, List.map_eq_nil_iff] at h
  · exact isBlank_of_isAlphanum (by simp [Char.isAlphanum, h.isAlpha hName c hc])

/-! ### Lines -/

/-- What stands behind a verb. -/
def restOf (arguments : List String) : List Char :=
  (" ".intercalate arguments).toList

def lineOf (verb : String) (arguments : List String) : String :=
  " ".intercalate (verb :: arguments)

@[simp]
theorem restOf_singleton (argument : String) : restOf [argument] = argument.toList := by
  rw [restOf, String.intercalate_singleton]

@[simp]
theorem restOf_pair (key argument : String) :
    restOf [key, argument] = key.toList ++ ' ' :: argument.toList := by
  simp [restOf]

/-- There is a space behind the verb if there are arguments. -/
theorem toList_lineOf (verb : String) (arguments : List String) :
    (lineOf verb arguments).toList = verb.toList ∧ restOf arguments = [] ∨
      (lineOf verb arguments).toList = verb.toList ++ ' ' :: restOf arguments := by
  by_cases hNone : arguments = []
  · subst hNone
    exact Or.inl ⟨rfl, rfl⟩
  · right
    rw [lineOf, String.intercalate_cons_of_ne_nil hNone]
    simp [restOf]

/-- A line holds what the verb and the arguments hold, and spaces. -/
theorem mem_lineOf {c : Char} (hc : c ∈ (lineOf verb arguments).toList) :
    c = ' ' ∨ c ∈ verb.toList ∨ ∃ argument ∈ arguments, c ∈ argument.toList := by
  induction arguments generalizing verb with
  | nil => exact Or.inr (Or.inl hc)
  | cons argument rest ih =>
      rw [lineOf, String.intercalate_cons_cons, String.toList_append, String.toList_append,
        List.append_assoc, List.mem_append, List.mem_append] at hc
      rcases hc with hVerb | hSpace | hRest
      · exact Or.inr (Or.inl hVerb)
      · exact Or.inl (List.mem_singleton.mp hSpace)
      · rcases ih hRest with hSpace | hArgument | ⟨other, hOther, hMore⟩
        · exact Or.inl hSpace
        · exact Or.inr (Or.inr ⟨argument, List.mem_cons_self, hArgument⟩)
        · exact Or.inr (Or.inr ⟨other, List.mem_cons_of_mem argument hOther, hMore⟩)

section Reading

variable (hVerb : IsWord verb.toList)
  (hRest : restOf arguments = [] ∨ IsPhrase (restOf arguments))

include hVerb hRest

theorem cut_lineOf : Cut (lineOf verb arguments).toList verb.toList (restOf arguments) := by
  rcases toList_lineOf verb arguments with ⟨hLine, hEmpty⟩ | hLine
  · rw [hLine, hEmpty]
    exact cut_word hVerb
  rw [hLine]
  rcases hRest with hEmpty | hPhrase
  · rw [hEmpty]
    exact .word blank_nil hVerb blank_space
  · exact cut_pair hVerb hPhrase

theorem parse_lineOf : parse (lineOf verb arguments) =
    ofVerb (String.ofList (verb.toList.map Char.toUpper)) (restOf arguments) := by
  unfold parse
  rw [(cut_lineOf hVerb hRest).splitToken_eq]
  simp [hVerb.1]

/-- The line ends in a space, or in no blank. -/
theorem getLast?_lineOf :
    ∀ c ∈ (lineOf verb arguments).toList.getLast?, c = ' ' ∨ isBlank c = false := by
  intro c hc
  rcases toList_lineOf verb arguments with ⟨hLine, -⟩ | hLine
  · rw [hLine] at hc
    exact Or.inr (hVerb.isPhrase.2.2 c hc)
  rw [hLine, List.getLast?_append_of_ne_nil _ (List.cons_ne_nil _ _)] at hc
  rcases hRest with hEmpty | hPhrase
  · rw [hEmpty] at hc
    exact Or.inl (Option.some.inj hc).symm
  · rw [List.getLast?_cons_of_ne_nil hPhrase.1] at hc
    exact Or.inr (hPhrase.2.2 c hc)

end Reading

/-! ### Arguments -/

theorem key_pair (hWord : IsWord word) (hRest : IsPhrase rest) (form : String) :
    key (word ++ ' ' :: rest) form = .ok (String.ofList word, rest) :=
  key_eq_ok_iff.mpr ⟨word, rest, cut_pair hWord hRest, hWord.1, rfl⟩

theorem delta_of_ne_nil (h : rest ≠ []) : delta rest = readNumber (String.ofList rest) := by
  simp [delta, h]

/-- A verb that changes a number by the one behind the key, if it is one. -/
theorem map_ofVerb_pair {capitals form key argument : String} {make : String → Number → Command}
    (hVerb : ∀ rest, ofVerb capitals rest =
      (keyAndDelta rest form).map fun (key, n) => make key n)
    (hKey : IsWord key.toList) (hArgument : IsPhrase argument.toList) :
    (ofVerb capitals (key.toList ++ ' ' :: argument.toList)).map some =
      (readNumber argument).map fun n => some (make key n) := by
  rw [hVerb, keyAndDelta, key_pair hKey hArgument, String.ofList_toList]
  dsimp only
  rw [delta_of_ne_nil hArgument.1, String.ofList_toList]
  cases readNumber argument <;> rfl

/-- A number of rows has no blanks. -/
theorem Count.isWord {n : Nat} (h : Count word n) : IsWord word := by
  have hDigits : ∀ {run : List Char}, Decimal.IsRun run → ∀ c ∈ run, isBlank c = false :=
    fun hRun c hc => isBlank_of_isAlphanum (by simp [Char.isAlphanum, hRun.2 c hc])
  cases h with
  | digits hRun hRange => exact ⟨hRun.1, hDigits hRun⟩
  | plus hRun hRange => exact ⟨List.cons_ne_nil _ _,
      List.forall_mem_cons.mpr ⟨by decide, hDigits hRun⟩⟩

end SnapshotStore.Command
