import SnapshotStore.Proofs.Command.Grammar
import SnapshotStore.Proofs.Ledger.Debits
import SnapshotStore.Proofs.Store.Operation
import SnapshotStore.Proofs.Value.Literal

/-! What can go wrong with a command that was read from a line. Its key is a word and its
numbers are finite, so no command is refused for what it says. What is left depends on
the store: a value of another kind, a result that does not fit, or a disk that refuses
to write. -/
namespace SnapshotStore

namespace Store

variable {s : Store} {key item : String} {compute : Number → Option Number} {error : StoreError}

/-! ### Failing on one slot -/

/-- Why no new number is computed from the one at a key: what is there is not a number,
or the result does not fit. -/
inductive Uncomputed (s : Store) (key : String) (compute : Number → Option Number) :
    StoreError → Prop where
  | kind (value : Value) (hHeld : s.get? key = some value) (hKind : value.number? = none) :
      Uncomputed s key compute (.typeMismatch key .number value.kind)
  | overflow (held : Number) (hHeld : s.getNumber key (.int 0) = .ok held)
      (hResult : compute held = none) : Uncomputed s key compute (.overflow key)

theorem computing_eq_error_iff :
    computing key compute (s.get? key) = .error error ↔ Uncomputed s key compute error := by
  unfold computing
  constructor
  · intro h
    cases hRead : currentNumber key (s.get? key) (.int 0) with
    | error found =>
        rw [hRead] at h
        obtain ⟨value, hHeld, hKind, rfl⟩ := currentNumber_eq_error hRead
        rw [← Except.error.inj h]
        exact .kind value hHeld hKind
    | ok held =>
        rw [hRead] at h
        cases hResult : compute held with
        | some n => simp [hResult, bind, Except.bind, fitting, pure, Except.pure] at h
        | none =>
            obtain rfl : .overflow key = error := by
              simpa [hResult, bind, Except.bind, fitting] using h
            exact .overflow held hRead hResult
  · intro h
    cases h with
    | kind value hHeld hKind => simp [hHeld, currentNumber, expectNumber, hKind, bind, Except.bind]
    | overflow held hHeld hResult =>
        rw [show currentNumber key (s.get? key) (.int 0) = .ok held from hHeld]
        simp [hResult, bind, Except.bind, fitting]

/-- An update at a key fails as its change does, if what the change leaves may be
stored. -/
theorem update_fst_eq_error_iff {α : Type}
    {change : Option Value → Except StoreError (α × Option Value)} (hKey : key ≠ "")
    (hLeft : ∀ result value, change (s.get? key) = .ok (result, some value) →
      value.isStorable = true) :
    (s.update key change).1 = .error error ↔ change (s.get? key) = .error error := by
  constructor
  · intro h
    rcases update_error_cases (Prod.ext h rfl) with ⟨hEmpty, -⟩ | ⟨-, hError⟩ |
      ⟨-, -, result, value, hOk, hStorable, -⟩
    · exact absurd hEmpty hKey
    · exact hError
    · rw [hLeft result value hOk] at hStorable
      cases hStorable
  · intro h
    rw [update_eq_error hKey h]

theorem update_computing_error_iff (hKey : key ≠ "")
    (hFinite : ∀ {held n}, compute held = some n → n.isFinite = true) :
    (s.update key (computing key compute)).1 = .error error ↔ Uncomputed s key compute error := by
  rw [update_fst_eq_error_iff hKey, computing_eq_error_iff]
  intro n value hOk
  obtain ⟨held, -, hNext, hValue⟩ := computing_eq_ok hOk
  rw [Option.some.inj hValue]
  exact hFinite hNext

theorem appending_eq_error_iff {slot : Option Value} :
    appending key item slot = .error error ↔ ∃ value, slot = some value ∧ value.list? = none ∧
      error = .typeMismatch key .list value.kind := by
  cases slot with
  | none => simp [appending]
  | some value => cases value <;> simp [appending, Value.list?, eq_comm]

theorem push_error_iff (hKey : key ≠ "") :
    (s.push key item).1 = .error error ↔ ∃ value, s.get? key = some value ∧ value.list? = none ∧
      error = .typeMismatch key .list value.kind := by
  rw [push, update_fst_eq_error_iff hKey, appending_eq_error_iff]
  intro length value hOk
  cases hHeld : s.get? key with
  | none =>
      rw [hHeld] at hOk
      cases hOk
      rfl
  | some held =>
      rw [hHeld] at hOk
      cases held with
      | list items =>
          cases hOk
          rfl
      | _ => cases hOk

theorem replying_fst_eq_error_iff {β : Type} {reply : β → Reply}
    {result : Except StoreError β × Store} :
    (replying reply result).1 = .error error ↔ result.1 = .error error := by
  unfold replying
  cases result.1 <;> simp [Except.map]

end Store

namespace Command

open Program Store Text

variable {s s' : Store} {d e : Disk} {trace : List Event} {command : Command} {error : StoreError}
  {outcome : Except StoreError Reply}

/-! ### What a command says -/

/-- The key of a command, or the stem of a ranking. -/
def key? : Command → Option String
  | .get key _ | .has key | .set key _ | .delete key | .increment key _ | .decrement key _
  | .push key _ | .array key | .top key _ => some key
  | .keys _ | .dump | .save => none

/-- The number in a command, as its value, its default or its delta. -/
def number? : Command → Option Number
  | .get _ default => default.bind Value.number?
  | .set _ value => value.number?
  | .increment _ delta | .decrement _ delta => some delta
  | _ => none

theorem Fits.isWord_key? {name : String} {rest : List Char} (h : Fits name rest command) :
    ∀ key ∈ command.key?, IsWord key.toList := by
  have hWord : ∀ {cs word argument : List Char}, Cut cs word argument → word ≠ [] →
      ∀ key ∈ some (String.ofList word), IsWord key.toList := by
    rintro cs word argument hCut hNonempty key ⟨⟩
    rw [String.toList_ofList]
    cases hCut with
    | blank => exact absurd rfl hNonempty
    | word hBefore hWord => exact hWord
    | phrase hBefore hWord => exact hWord
  cases h with
  | get hCut hKey => exact hWord hCut hKey
  | getDefault hCut hArgument => exact hWord hCut (ne_nil_of_cut hCut hArgument)
  | has hCut hKey => exact hWord hCut hKey
  | set hCut hArgument => exact hWord hCut (ne_nil_of_cut hCut hArgument)
  | delete hName hCut hKey => exact hWord hCut hKey
  | increment hCut hKey => exact hWord hCut hKey
  | decrement hCut hKey => exact hWord hCut hKey
  | push hCut hArgument => exact hWord hCut (ne_nil_of_cut hCut hArgument)
  | array hCut hKey => exact hWord hCut hKey
  | top hCut hKey => exact hWord hCut hKey
  | _ => exact nofun

theorem Delta.isFinite {argument : List Char} {n : Number} (h : Delta argument n) :
    n.isFinite = true := by
  cases h with
  | one => rfl
  | literal hNonempty h =>
      have hNumber := congrArg Value.number? h
      exact Value.isFinite_of_number? (Value.isStorable_ofLiteral _) hNumber

theorem Fits.isFinite_number? {name : String} {rest : List Char} (h : Fits name rest command) :
    ∀ n ∈ command.number?, n.isFinite = true := by
  have hLiteral : ∀ text, ∀ n ∈ (Value.ofLiteral text).number?, n.isFinite = true :=
    fun text n => Value.isFinite_of_number? (Value.isStorable_ofLiteral text)
  cases h with
  | getDefault => exact hLiteral _
  | set => exact hLiteral _
  | increment hCut hKey hDelta =>
      rintro n ⟨⟩
      exact hDelta.isFinite
  | decrement hCut hKey hDelta =>
      rintro n ⟨⟩
      exact hDelta.isFinite
  | _ => exact nofun

/-! ### Failing -/

/-- How a command may fail on a store. Where there is no case for a command, it never
does. -/
inductive Fails (s : Store) : Command → StoreError → Prop where
  | increment {key : String} {delta : Number} {error : StoreError}
      (h : Uncomputed s key (·.add? delta) error) : Fails s (.increment key delta) error
  | decrement {key : String} {delta : Number} {error : StoreError}
      (h : Uncomputed s key (·.sub? delta) error) : Fails s (.decrement key delta) error
  | push {key item : String} (value : Value) (hHeld : s.get? key = some value)
      (hKind : value.list? = none) :
      Fails s (.push key item) (.typeMismatch key .list value.kind)
  | save (fault : Disk.Fault) : Fails s .save (.disk fault)

/-- No failure blames the key or the value that a command has. -/
theorem Fails.not_refused (h : Fails s command error) :
    error ≠ .emptyKey ∧ ∀ key fault, error ≠ .invalidValue key fault := by
  cases h with
  | increment h => cases h <;> exact ⟨nofun, nofun⟩
  | decrement h => cases h <;> exact ⟨nofun, nofun⟩
  | push => exact ⟨nofun, nofun⟩
  | save => exact ⟨nofun, nofun⟩

/-- A command with a proper key and a value that may be stored, if it needs no disk. -/
theorem answer_error_iff (hKey : ∀ key ∈ command.key?, key ≠ "")
    (hNumber : ∀ n ∈ command.number?, n.isFinite = true) (hSave : command ≠ .save) :
    (s.answer command).1 = .error error ↔ Fails s command error := by
  cases command with
  | set key value =>
      have hStorable : value.isStorable = true := by
        cases value with
        | number n => exact hNumber n rfl
        | _ => rfl
      have hStored : (s.answer (.set key value)).1 ≠ .error error := by
        simp [answer, replying, Store.set, checkKey, hKey key rfl, checkValue, hStorable,
          Except.map]
      refine iff_of_false hStored fun h => ?_
      cases h
  | increment key delta =>
      have hUpdate : (s.increment key delta).1 = .error error ↔
          Uncomputed s key (·.add? delta) error :=
        update_computing_error_iff (hKey key rfl) Number.isFinite_of_add?
      refine (replying_fst_eq_error_iff.trans hUpdate).trans ⟨.increment, fun h => ?_⟩
      cases h with
      | increment h => exact h
  | decrement key delta =>
      have hUpdate : (s.decrement key delta).1 = .error error ↔
          Uncomputed s key (·.sub? delta) error :=
        update_computing_error_iff (hKey key rfl) Number.isFinite_of_sub?
      refine (replying_fst_eq_error_iff.trans hUpdate).trans ⟨.decrement, fun h => ?_⟩
      cases h with
      | decrement h => exact h
  | push key item =>
      refine (replying_fst_eq_error_iff.trans (push_error_iff (hKey key rfl))).trans
        ⟨?_, fun h => ?_⟩
      · rintro ⟨value, hHeld, hKind, rfl⟩
        exact .push value hHeld hKind
      · cases h with
        | push value hHeld hKind => exact ⟨value, hHeld, hKind, rfl⟩
  | save => exact absurd rfl hSave
  | _ => constructor <;> intro h <;> cases h

/-- Text commands do not produce keys or numbers that a store refuses. The key of a
command that was read is not empty and has no blank in it, and its numbers are finite.
On any store, it fails only at a value of another kind, by a result that does not fit,
or where a save fails; and where nothing is saved, each of these is a failure. -/
theorem parsed_never_refused (line : String) (command : Command)
    (h : parse line = .ok command) :
    (∀ key ∈ command.key?, IsWord key.toList) ∧
    (∀ n ∈ command.number?, n.isFinite = true) ∧
    ∀ s d trace outcome s' e, Runs (s.execute command) d trace (outcome, s') e →
      (∀ error, outcome = .error error → Fails s command error ∧ error ≠ .emptyKey ∧
        ∀ key fault, error ≠ .invalidValue key fault) ∧
      (command ≠ .save → ∀ error, Fails s command error → outcome = .error error) := by
  obtain ⟨verb, rest, name, -, -, hFits⟩ := denotes_of_parse h
  refine ⟨hFits.isWord_key?, hFits.isFinite_number?, fun s d trace outcome s' e hRuns => ?_⟩
  by_cases hSave : command = .save
  · subst hSave
    obtain ⟨saved, rfl, hSaved⟩ := Operation.runs_execute_save hRuns
    obtain ⟨written, -, hWritten⟩ := runs_save hSaved
    refine ⟨fun error hError => ?_, fun hOther => absurd rfl hOther⟩
    cases written with
    | error fault =>
        rw [hWritten.1] at hError
        rw [← Except.error.inj hError]
        exact ⟨.save fault, nofun, nofun⟩
    | ok _ =>
        rw [hWritten.1] at hError
        cases hError
  · have hKey : ∀ key ∈ command.key?, key ≠ "" := by
      rintro key hKey rfl
      exact (hFits.isWord_key? "" hKey).1 rfl
    have hFails : ∀ error, (s.answer command).1 = .error error ↔ Fails s command error :=
      fun error => answer_error_iff hKey hFits.isFinite_number? hSave
    rw [Operation.execute_eq hSave] at hRuns
    obtain ⟨-, hResult, -⟩ := hRuns.pure_inv
    obtain rfl : outcome = (s.answer command).1 := congrArg Prod.fst hResult
    refine ⟨fun error hError => ?_, fun _ error => (hFails error).mpr⟩
    have hFound := (hFails error).mp hError
    exact ⟨hFound, hFound.not_refused⟩

/-- The key holds the text 1e999, so it cannot be incremented. -/
theorem parsed_never_refused_text : ∃ s s' : Store,
    s.get? "k" = some (.ofLiteral "1e999") ∧
    parse "incr k" = .ok (.increment "k" (.int 1)) ∧ IsWord "k".toList ∧
    Runs (s.execute (.increment "k" (.int 1))) .empty []
      (.error (.typeMismatch "k" .number .text), s') .empty ∧
    Fails s (.increment "k" (.int 1)) (.typeMismatch "k" .number .text) := by
  let s : Store := .opened {} (.ofList [("k", .text "1e999")])
  have hRuns : Runs (s.execute (.increment "k" (.int 1))) .empty []
      (.error (.typeMismatch "k" .number .text), s) .empty := .done _ _
  have hHeld : s.get? "k" = some (.ofLiteral "1e999") := by
    rw [Value.ofLiteral_huge]
    rfl
  obtain ⟨hKey, -, hFails⟩ := parsed_never_refused "incr k" (.increment "k" (.int 1)) rfl
  exact ⟨s, s, hHeld, rfl, hKey "k" rfl, hRuns, ((hFails _ _ _ _ _ _ hRuns).1 _ rfl).1⟩

end Command

end SnapshotStore
