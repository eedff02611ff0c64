import Mathlib
import SnapshotStore.Proofs.Command.Cut
import SnapshotStore.Proofs.Decimal.Numeral

/-! The language of commands. A line is cut into a verb and the rest, and the rest into
a key and an argument; each verb says which of them there have to be and what they
mean. Reading a line gives a command if and only if the line is one of this language,
and then the one that it stands for. -/
namespace SnapshotStore

namespace Command

open Text

variable {cs rest word argument verb : List Char} {name form : String} {command : Command}

/-! ### Verbs -/

/-- The letters are those of a name in capitals, each of them in either case. Only ASCII
letters have two cases here. -/
def Spells (verb : List Char) (name : String) : Prop :=
  List.Forall₂ (fun c capital => c = capital ∨ c = capital.toLower) verb name.toList

theorem toUpper_eq_iff {c capital : Char} (h : capital.isUpper = true) :
    c.toUpper = capital ↔ c = capital ∨ c = capital.toLower := by
  have hCapital := Char.toUpper_eq_of_not_isLower (Char.not_isLower_of_isUpper h)
  constructor
  · rintro rfl
    by_cases hLower : c.isLower = true
    · rw [Char.toLower_toUpper_eq_toLower]
      exact Or.inr (Char.toLower_eq_of_not_isUpper (Char.not_isUpper_of_isLower hLower)).symm
    · exact Or.inl (Char.toUpper_eq_of_not_isLower hLower).symm
  · rintro (rfl | rfl)
    · exact hCapital
    · rw [Char.toUpper_toLower_eq_toUpper, hCapital]

theorem spells_iff (h : name.toList.all Char.isUpper = true) :
    Spells verb name ↔ String.ofList (verb.map Char.toUpper) = name := by
  have hCapitals : ∀ {letters capitals : List Char}, capitals.all Char.isUpper = true →
      (List.Forall₂ (fun c capital => c = capital ∨ c = capital.toLower) letters capitals ↔
        letters.map Char.toUpper = capitals) := by
    intro letters capitals hAll
    induction letters generalizing capitals with
    | nil => cases capitals <;> simp
    | cons c letters ih =>
        cases capitals with
        | nil => simp
        | cons capital capitals =>
            rw [List.all_cons, Bool.and_eq_true] at hAll
            rw [List.forall₂_cons, List.map_cons, List.cons.injEq, toUpper_eq_iff hAll.1,
              ih hAll.2]
  rw [Spells, hCapitals h, ← String.toList_inj, String.toList_ofList]

/-! ### Keys and arguments -/

/-- Without an argument a number changes by one; otherwise the argument is a number. -/
inductive Delta : List Char → Number → Prop where
  | one : Delta [] (.int 1)
  | literal {argument : List Char} {n : Number} (hNonempty : argument ≠ [])
      (h : Value.ofLiteral (String.ofList argument) = .number n) : Delta argument n

/-- A number of rows: digits with an optional plus in front, below 2^64. -/
inductive Count : List Char → Nat → Prop where
  | digits {run : List Char} (hRun : Decimal.IsRun run)
      (hRange : Decimal.ofDigits run < 2 ^ 64) : Count run (Decimal.ofDigits run)
  | plus {run : List Char} (hRun : Decimal.IsRun run)
      (hRange : Decimal.ofDigits run < 2 ^ 64) : Count ('+' :: run) (Decimal.ofDigits run)

/-- Without an argument there are ten rows; otherwise the argument is their number. -/
inductive Limit : List Char → Nat → Prop where
  | ten : Limit [] 10
  | count {argument : List Char} {n : Nat} (h : Count argument n) : Limit argument n

/-- What follows the name of a verb, and the command that both stand for. -/
inductive Fits : String → List Char → Command → Prop where
  | get {rest key : List Char} (hCut : Cut rest key []) (hKey : key ≠ []) :
      Fits "GET" rest (.get (String.ofList key) none)
  | getDefault {rest key argument : List Char} (hCut : Cut rest key argument)
      (hArgument : argument ≠ []) : Fits "GET" rest
        (.get (String.ofList key) (some (.ofLiteral (String.ofList argument))))
  | has {rest key : List Char} (hCut : Cut rest key []) (hKey : key ≠ []) :
      Fits "HAS" rest (.has (String.ofList key))
  | set {rest key argument : List Char} (hCut : Cut rest key argument)
      (hArgument : argument ≠ []) :
      Fits "SET" rest (.set (String.ofList key) (.ofLiteral (String.ofList argument)))
  | delete {name : String} {rest key : List Char} (hName : name = "DEL" ∨ name = "DELETE")
      (hCut : Cut rest key []) (hKey : key ≠ []) : Fits name rest (.delete (String.ofList key))
  | increment {rest key argument : List Char} {n : Number} (hCut : Cut rest key argument)
      (hKey : key ≠ []) (hDelta : Delta argument n) :
      Fits "INCR" rest (.increment (String.ofList key) n)
  | decrement {rest key argument : List Char} {n : Number} (hCut : Cut rest key argument)
      (hKey : key ≠ []) (hDelta : Delta argument n) :
      Fits "DECR" rest (.decrement (String.ofList key) n)
  | push {rest key argument : List Char} (hCut : Cut rest key argument)
      (hArgument : argument ≠ []) :
      Fits "PUSH" rest (.push (String.ofList key) (String.ofList argument))
  | keys {rest : List Char} : Fits "KEYS" rest (.keys (String.ofList rest))
  | array {rest key : List Char} (hCut : Cut rest key []) (hKey : key ≠ []) :
      Fits "ARRAY" rest (.array (String.ofList key))
  | top {rest key argument : List Char} {n : Nat} (hCut : Cut rest key argument)
      (hKey : key ≠ []) (hLimit : Limit argument n) :
      Fits "TOP" rest (.top (String.ofList key) n)
  | dump {rest : List Char} : Fits "DUMP" rest .dump
  | save {rest : List Char} : Fits "SAVE" rest .save

/-- The line is a verb, in any case of letters, with what fits it. -/
def Denotes (line : String) (command : Command) : Prop :=
  ∃ verb rest name, Cut line.toList verb rest ∧ Spells verb name ∧ Fits name rest command

/-! ### Reading -/

theorem key_eq_ok_iff {result : String × List Char} : key rest form = .ok result ↔
    ∃ word argument, Cut rest word argument ∧ word ≠ [] ∧
      result = (String.ofList word, argument) := by
  unfold key
  constructor
  · intro h
    rcases hSplit : splitToken rest with ⟨word, argument⟩
    rw [hSplit] at h
    cases word with
    | nil => cases h
    | cons c word => exact ⟨_, _, cut_iff.mpr hSplit, nofun, (Except.ok.inj h).symm⟩
  · rintro ⟨word, argument, hCut, hNonempty, rfl⟩
    rw [cut_iff.mp hCut]
    cases word with
    | nil => exact absurd rfl hNonempty
    | cons c word => rfl

/-- What begins by reading a key comes to something only with a key. -/
theorem bind_key_eq_ok_iff {α : Type} {next : String × List Char → Except CommandFault α}
    {result : α} : (key rest form).bind next = .ok result ↔
    ∃ word argument, Cut rest word argument ∧ word ≠ [] ∧
      next (String.ofList word, argument) = .ok result := by
  constructor
  · intro h
    cases hKey : key rest form with
    | error fault =>
        rw [hKey] at h
        cases h
    | ok pair =>
        obtain ⟨word, argument, hCut, hNonempty, rfl⟩ := key_eq_ok_iff.mp hKey
        rw [hKey] at h
        exact ⟨word, argument, hCut, hNonempty, h⟩
  · rintro ⟨word, argument, hCut, hNonempty, h⟩
    rw [key_eq_ok_iff.mpr ⟨word, argument, hCut, hNonempty, rfl⟩]
    exact h

theorem map_eq_ok_iff {α β : Type} {x : Except CommandFault α} {f : α → β} {result : β} :
    x.map f = .ok result ↔ ∃ a, x = .ok a ∧ f a = result := by
  cases x with
  | error fault => exact iff_of_false nofun nofun
  | ok a => simp [Except.map]

theorem map_onlyKey_eq_ok_iff {f : String → Command} :
    (onlyKey rest form).map f = .ok command ↔
      ∃ word, Cut rest word [] ∧ word ≠ [] ∧ f (String.ofList word) = command := by
  have hBind : onlyKey rest form = (key rest form).bind fun found =>
      if found.2.isEmpty then .ok found.1 else misuse form := by
    unfold onlyKey
    cases key rest form <;> rfl
  simp only [hBind, map_eq_ok_iff, bind_key_eq_ok_iff]
  constructor
  · rintro ⟨k, ⟨word, argument, hCut, hNonempty, h⟩, rfl⟩
    cases argument with
    | nil => exact ⟨word, hCut, hNonempty, congrArg f (Except.ok.inj h)⟩
    | cons c argument => cases h
  · rintro ⟨word, hCut, hNonempty, rfl⟩
    exact ⟨_, ⟨word, [], hCut, hNonempty, rfl⟩, rfl⟩

/-- Where there is an argument there is a key before it. -/
theorem ne_nil_of_cut (h : Cut rest word argument) (hArgument : argument ≠ []) : word ≠ [] := by
  cases h with
  | phrase hBefore hWord => exact hWord.1
  | _ => exact absurd rfl hArgument

theorem map_keyAndArgument_eq_ok_iff {f : String × List Char → Command} :
    (keyAndArgument rest form).map f = .ok command ↔
      ∃ word argument, Cut rest word argument ∧ argument ≠ [] ∧
        f (String.ofList word, argument) = command := by
  have hBind : keyAndArgument rest form = (key rest form).bind fun found =>
      if found.2.isEmpty then misuse form else .ok found := by
    unfold keyAndArgument
    cases key rest form <;> rfl
  simp only [hBind, map_eq_ok_iff, bind_key_eq_ok_iff]
  constructor
  · rintro ⟨pair, ⟨word, argument, hCut, -, h⟩, rfl⟩
    cases argument with
    | nil => cases h
    | cons c argument => exact ⟨word, _, hCut, nofun, congrArg f (Except.ok.inj h)⟩
  · rintro ⟨word, argument, hCut, hArgument, rfl⟩
    refine ⟨_, ⟨word, argument, hCut, ne_nil_of_cut hCut hArgument, ?_⟩, rfl⟩
    simp [hArgument]

theorem delta_eq_ok_iff {n : Number} : delta argument = .ok n ↔ Delta argument n := by
  cases argument with
  | nil =>
      refine ⟨fun h => Except.ok.inj h ▸ .one, fun h => ?_⟩
      cases h with
      | one => rfl
      | literal hNonempty => exact absurd rfl hNonempty
  | cons c argument =>
      have hNumber : delta (c :: argument) = .ok n ↔
          Value.ofLiteral (String.ofList (c :: argument)) = .number n := by
        unfold delta readNumber
        cases Value.ofLiteral (String.ofList (c :: argument)) <;> simp [Value.number?]
      refine hNumber.trans ⟨.literal nofun, fun h => ?_⟩
      cases h with
      | literal hNonempty h => exact h

/-- Digits that are read as a number of rows. -/
theorem readNat?_lt_iff {run : List Char} {n : Nat} :
    (match Decimal.readNat? run with
      | some m => if m < 2 ^ (64 : Nat) then some m else none
      | none => none) = some n ↔
    Decimal.IsRun run ∧ Decimal.ofDigits run = n ∧ n < 2 ^ 64 := by
  rw [← and_assoc, ← Decimal.readNat?_eq_some_iff]
  cases Decimal.readNat? run with
  | none => simp
  | some m =>
      simp only [Option.ite_none_right_eq_some, Option.some.injEq]
      exact and_comm.trans (and_congr_right fun h => h ▸ Iff.rfl)

theorem readCount?_eq_some_iff {n : Nat} :
    Decimal.readCount? argument = some n ↔ Count argument n := by
  unfold Decimal.readCount?
  split
  · rename_i run
    refine readNat?_lt_iff.trans ⟨?_, fun h => ?_⟩
    · rintro ⟨hRun, rfl, hRange⟩
      exact .plus hRun hRange
    · cases h with
      | digits hRun => exact absurd (hRun.2 '+' (List.mem_cons_self ..)) (by decide)
      | plus hRun hRange => exact ⟨hRun, rfl, hRange⟩
  · rename_i hPlus
    refine readNat?_lt_iff.trans ⟨?_, fun h => ?_⟩
    · rintro ⟨hRun, rfl, hRange⟩
      exact .digits hRun hRange
    · cases h with
      | digits hRun hRange => exact ⟨hRun, rfl, hRange⟩
      | plus hRun => exact absurd rfl (hPlus _)

theorem limit_eq_ok_iff {n : Nat} : limit argument = .ok n ↔ Limit argument n := by
  cases argument with
  | nil =>
      refine ⟨fun h => Except.ok.inj h ▸ .ten, fun h => ?_⟩
      cases h with
      | ten => rfl
      | count h => cases h with
        | digits hRun => exact absurd rfl hRun.1
  | cons c argument =>
      have hCount : limit (c :: argument) = .ok n ↔
          Decimal.readCount? (c :: argument) = some n := by
        unfold limit
        cases Decimal.readCount? (c :: argument) <;> simp
      rw [hCount, readCount?_eq_some_iff]
      refine ⟨.count, fun h => ?_⟩
      cases h with
      | count h => exact h

theorem map_keyAndDelta_eq_ok_iff {f : String × Number → Command} :
    (keyAndDelta rest form).map f = .ok command ↔
      ∃ word argument n, Cut rest word argument ∧ word ≠ [] ∧ Delta argument n ∧
        f (String.ofList word, n) = command := by
  have hBind : keyAndDelta rest form = (key rest form).bind fun found =>
      (delta found.2).map (found.1, ·) := by
    unfold keyAndDelta
    cases key rest form <;> rfl
  simp only [hBind, map_eq_ok_iff, bind_key_eq_ok_iff, delta_eq_ok_iff]
  constructor
  · rintro ⟨_, ⟨word, argument, hCut, hNonempty, n, hDelta, rfl⟩, rfl⟩
    exact ⟨word, argument, n, hCut, hNonempty, hDelta, rfl⟩
  · rintro ⟨word, argument, n, hCut, hNonempty, hDelta, rfl⟩
    exact ⟨_, ⟨word, argument, hCut, hNonempty, n, hDelta, rfl⟩, rfl⟩

theorem map_stemAndLimit_eq_ok_iff {f : String × Nat → Command} :
    (stemAndLimit rest form).map f = .ok command ↔
      ∃ word argument n, Cut rest word argument ∧ word ≠ [] ∧ Limit argument n ∧
        f (String.ofList word, n) = command := by
  have hBind : stemAndLimit rest form = (key rest form).bind fun found =>
      (limit found.2).map (found.1, ·) := by
    unfold stemAndLimit
    cases key rest form <;> rfl
  simp only [hBind, map_eq_ok_iff, bind_key_eq_ok_iff, limit_eq_ok_iff]
  constructor
  · rintro ⟨_, ⟨word, argument, hCut, hNonempty, n, hLimit, rfl⟩, rfl⟩
    exact ⟨word, argument, n, hCut, hNonempty, hLimit, rfl⟩
  · rintro ⟨word, argument, n, hCut, hNonempty, hLimit, rfl⟩
    exact ⟨_, ⟨word, argument, hCut, hNonempty, n, hLimit, rfl⟩, rfl⟩

/-! ### Lines -/

/-- What a verb reads fits it. -/
theorem fits_of_ofVerb (h : ofVerb name rest = .ok command) : Fits name rest command := by
  unfold ofVerb at h
  split at h
  · obtain ⟨pair, hKey, rfl⟩ := map_eq_ok_iff.mp h
    obtain ⟨word, argument, hCut, hNonempty, rfl⟩ := key_eq_ok_iff.mp hKey
    cases argument with
    | nil => exact .get hCut hNonempty
    | cons c argument => exact .getDefault hCut nofun
  · obtain ⟨word, hCut, hNonempty, rfl⟩ := map_onlyKey_eq_ok_iff.mp h
    exact .has hCut hNonempty
  · obtain ⟨word, argument, hCut, hArgument, rfl⟩ := map_keyAndArgument_eq_ok_iff.mp h
    exact .set hCut hArgument
  · obtain ⟨word, hCut, hNonempty, rfl⟩ := map_onlyKey_eq_ok_iff.mp h
    exact .delete (Or.inl rfl) hCut hNonempty
  · obtain ⟨word, hCut, hNonempty, rfl⟩ := map_onlyKey_eq_ok_iff.mp h
    exact .delete (Or.inr rfl) hCut hNonempty
  · obtain ⟨word, argument, n, hCut, hNonempty, hDelta, rfl⟩ := map_keyAndDelta_eq_ok_iff.mp h
    exact .increment hCut hNonempty hDelta
  · obtain ⟨word, argument, n, hCut, hNonempty, hDelta, rfl⟩ := map_keyAndDelta_eq_ok_iff.mp h
    exact .decrement hCut hNonempty hDelta
  · obtain ⟨word, argument, hCut, hArgument, rfl⟩ := map_keyAndArgument_eq_ok_iff.mp h
    exact .push hCut hArgument
  · exact Except.ok.inj h ▸ .keys
  · obtain ⟨word, hCut, hNonempty, rfl⟩ := map_onlyKey_eq_ok_iff.mp h
    exact .array hCut hNonempty
  · obtain ⟨word, argument, n, hCut, hNonempty, hLimit, rfl⟩ := map_stemAndLimit_eq_ok_iff.mp h
    exact .top hCut hNonempty hLimit
  · exact Except.ok.inj h ▸ .dump
  · exact Except.ok.inj h ▸ .save
  · cases h

/-- A verb reads whatever fits it. -/
theorem Fits.ofVerb_eq (h : Fits name rest command) : ofVerb name rest = .ok command := by
  cases h with
  | get hCut hKey =>
      exact map_eq_ok_iff.mpr ⟨_, key_eq_ok_iff.mpr ⟨_, _, hCut, hKey, rfl⟩, rfl⟩
  | getDefault hCut hArgument =>
      have hKey := ne_nil_of_cut hCut hArgument
      refine map_eq_ok_iff.mpr ⟨_, key_eq_ok_iff.mpr ⟨_, _, hCut, hKey, rfl⟩, ?_⟩
      simp [hArgument]
  | has hCut hKey => exact map_onlyKey_eq_ok_iff.mpr ⟨_, hCut, hKey, rfl⟩
  | set hCut hArgument => exact map_keyAndArgument_eq_ok_iff.mpr ⟨_, _, hCut, hArgument, rfl⟩
  | delete hName hCut hKey =>
      rcases hName with rfl | rfl
      · exact map_onlyKey_eq_ok_iff.mpr ⟨_, hCut, hKey, rfl⟩
      · exact map_onlyKey_eq_ok_iff.mpr ⟨_, hCut, hKey, rfl⟩
  | increment hCut hKey hDelta =>
      exact map_keyAndDelta_eq_ok_iff.mpr ⟨_, _, _, hCut, hKey, hDelta, rfl⟩
  | decrement hCut hKey hDelta =>
      exact map_keyAndDelta_eq_ok_iff.mpr ⟨_, _, _, hCut, hKey, hDelta, rfl⟩
  | push hCut hArgument => exact map_keyAndArgument_eq_ok_iff.mpr ⟨_, _, hCut, hArgument, rfl⟩
  | keys => rfl
  | array hCut hKey => exact map_onlyKey_eq_ok_iff.mpr ⟨_, hCut, hKey, rfl⟩
  | top hCut hKey hLimit =>
      exact map_stemAndLimit_eq_ok_iff.mpr ⟨_, _, _, hCut, hKey, hLimit, rfl⟩
  | dump => rfl
  | save => rfl

/-- The names of verbs are in capitals. -/
theorem Fits.capitals (h : Fits name rest command) : name.toList.all Char.isUpper = true := by
  cases h with
  | delete hName => rcases hName with rfl | rfl <;> decide
  | _ => decide

theorem denotes_of_parse {line : String} (h : parse line = .ok command) : Denotes line command := by
  unfold parse at h
  rcases hSplit : splitToken line.toList with ⟨verb, rest⟩
  rw [hSplit] at h
  cases verb with
  | nil => cases h
  | cons c verb =>
      have hFits := fits_of_ofVerb h
      exact ⟨_, rest, _, cut_iff.mpr hSplit, (spells_iff hFits.capitals).mpr rfl, hFits⟩

theorem Denotes.parse_eq {line : String} (h : Denotes line command) : parse line = .ok command := by
  obtain ⟨verb, rest, name, hCut, hSpells, hFits⟩ := h
  have hName := (spells_iff hFits.capitals).mp hSpells
  unfold parse
  rw [cut_iff.mp hCut]
  cases verb with
  | nil =>
      subst hName
      cases hFits.ofVerb_eq
  | cons c verb =>
      subst hName
      exact hFits.ofVerb_eq

/-- Reading a line gives a command if and only if the line denotes it, so no line denotes
two. A line that denotes none is refused, and no other is. -/
theorem parse_language (line : String) :
    (∀ command, parse line = .ok command ↔ Denotes line command) ∧
    ((∃ fault, parse line = .error fault) ↔ ∀ command, ¬ Denotes line command) := by
  refine ⟨fun command => ⟨denotes_of_parse, Denotes.parse_eq⟩, ?_⟩
  constructor
  · rintro ⟨fault, hFault⟩ command hDenotes
    rw [hDenotes.parse_eq] at hFault
    cases hFault
  · intro hNothing
    cases hRead : parse line with
    | error fault => exact ⟨fault, rfl⟩
    | ok command => exact absurd (denotes_of_parse hRead) (hNothing command)

/-- Ideographic spaces separate words, and blanks inside an argument stay. -/
example : parse " Set\u3000k \t a\u3000 b " = .ok (.set "k" (.text "a\u3000 b")) := by
  rfl

end Command

end SnapshotStore
