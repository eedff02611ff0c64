import SnapshotStore.CommandLine.Run
import SnapshotStore.Proofs.Store.Operation

/-! Lines of commands, carried out one after the other. What they come to in the end
is what the successful ones make of the content that the first one has found. -/
namespace SnapshotStore

open Disk Program

/-! ### What a command makes of the content -/

namespace Store

variable {s t : Store} {α : Type}

theorem data_update (h : s.data = t.data) (key : String)
    (change : Option Value → Except StoreError (α × Option Value)) :
    (s.update key change).2.data = (t.update key change).2.data := by
  have hHeld : s.get? key = t.get? key := congrArg (fun data => KeyMap.get? data key) h
  unfold update
  rw [hHeld]
  cases checkKey key with
  | error error => exact h
  | ok _ =>
      cases change (t.get? key) with
      | error error => exact h
      | ok changed =>
          obtain ⟨result, slot⟩ := changed
          dsimp only
          split_ifs
          · exact h
          · cases slot with
            | none => simp [putBack, changeTo, h]
            | some value =>
                cases hValue : checkValue key value <;> simp [putBack, changeTo, hValue, h]

end Store

/-- What a command makes of the content of a store. -/
def Command.apply (data : Snapshot) (command : Command) : Snapshot :=
  ((Store.opened {} data).answer command).2.data

theorem Store.data_answer (s : Store) (command : Command) :
    (s.answer command).2.data = command.apply s.data := by
  have hData : s.data = (Store.opened {} s.data).data := rfl
  cases command with
  | set key value =>
      cases hKey : checkKey key <;> cases hValue : checkValue key value <;>
        simp [Command.apply, answer, replying, set, hKey, hValue, changeTo, opened]
  | delete key =>
      have hHas : s.has key = (opened {} s.data).has key := rfl
      simp only [Command.apply, answer, delete, hHas]
      split_ifs <;> rfl
  | increment key delta => exact data_update hData key _
  | decrement key delta => exact data_update hData key _
  | push key item => exact data_update hData key _
  | _ => rfl

namespace CommandLine

/-! ### One line -/

/-- A line that has been carried out, with the store in front of it and behind it. -/
structure Entry where
  number : Nat
  text : String
  before : Store
  outcome : Except StoreError Reply
  after : Store

namespace Entry

def Failed (x : Entry) : Prop :=
  ∃ error, x.outcome = .error error

/-- The command of the line, if it succeeded. -/
def command? (x : Entry) : Option Command :=
  match x.outcome, Command.parse x.text with
  | .ok _, .ok command => some command
  | _, _ => none

/-- The line has marked the store as changed, or it was to save the store. -/
def Writes (x : Entry) : Prop :=
  x.after.generation ≠ x.before.generation ∨ Command.parse x.text = .ok .save

end Entry

/-- What carrying out a text can come to. -/
inductive Executes (s : Store) (d : Disk) (text : String) :
    List Event → Except StoreError Reply → Store → Disk → Prop where
  | unread {fault : CommandFault} (h : Command.parse text = .error fault) :
      Executes s d text [] (.error (.command fault)) s d
  | answered {command : Command} (h : Command.parse text = .ok command) (hSave : command ≠ .save) :
      Executes s d text [] (s.answer command).1 (s.answer command).2 d
  | saved {trace : List Event} {e : Disk} (h : Command.parse text = .ok .save)
      (hReplaced : Replaced s.path (Snapshot.content s.config.layout s.data) d e)
      (hWrites : Snapshot.WritesSucceed s.path trace) :
      Executes s d text trace (.ok .ok) (s.publish s.copy) e
  | notSaved {trace : List Event} {error : StoreError} {e : Disk}
      (h : Command.parse text = .ok .save) (hWrites : ¬ Snapshot.WritesSucceed s.path trace) :
      Executes s d text trace (.error error) s e

/-- If nothing is unsaved, the file holds the content. -/
def Backed (s : Store) (d : Disk) : Prop :=
  s.isDirty = false → d.read s.path = .ok (Snapshot.content s.config.layout s.data)

section Executes

variable {s s' : Store} {d e : Disk} {number : Nat} {text : String} {trace : List Event}
  {outcome : Except StoreError Reply}

theorem executes_of_runs (h : Runs (executeText s text) d trace (outcome, s') e) :
    Executes s d text trace outcome s' e := by
  unfold executeText at h
  cases hParse : Command.parse text with
  | error fault =>
      rw [hParse] at h
      obtain ⟨rfl, hResult, rfl⟩ := h.pure_inv
      obtain ⟨rfl, rfl⟩ := Prod.mk.inj hResult
      exact .unread hParse
  | ok command =>
      rw [hParse] at h
      by_cases hSave : command = .save
      · subst hSave
        obtain ⟨saved, hOutcome, hSaved⟩ := Operation.runs_execute_save h
        have hWrites := Store.runs_save_iff hSaved
        subst hOutcome
        cases saved with
        | error error =>
            obtain rfl := (Store.runs_save_error hSaved).1
            exact .notSaved hParse fun hSucceed => nomatch hWrites.mp hSucceed
        | ok _ =>
            obtain ⟨rfl, hReplaced⟩ := Store.runs_save_ok hSaved
            exact .saved hParse hReplaced (hWrites.mpr rfl)
      · dsimp only at h
        rw [Operation.execute_eq hSave] at h
        obtain ⟨rfl, hResult, rfl⟩ := h.pure_inv
        obtain ⟨rfl, rfl⟩ : outcome = (s.answer command).1 ∧ s' = (s.answer command).2 :=
          Prod.mk.inj hResult
        exact .answered hParse hSave

/-- A text that fails leaves the store as it was. -/
theorem Executes.eq_of_error {error : StoreError} (h : Executes s d text trace outcome s' e)
    (hError : outcome = .error error) : s' = s := by
  cases h with
  | unread hParse => rfl
  | answered hParse hSave => exact Operation.failsInPlace_answer s _ error hError
  | saved hParse hReplaced hWrites => cases hError
  | notSaved hParse hWrites => rfl

theorem Executes.config (h : Executes s d text trace outcome s' e) : s'.config = s.config := by
  cases h with
  | unread hParse => rfl
  | answered hParse hSave => exact (Operation.change_answer s _).config
  | saved hParse hReplaced hWrites => rfl
  | notSaved hParse hWrites => rfl

/-- A successful text changes the content as its command does. -/
theorem Executes.data (h : Executes s d text trace outcome s' e) (number : Nat) :
    s'.data = (Entry.command? ⟨number, text, s, outcome, s'⟩).elim s.data (·.apply s.data) := by
  cases hOutcome : outcome with
  | error error =>
      rw [h.eq_of_error hOutcome]
      rfl
  | ok reply =>
      cases h with
      | unread hParse => cases hOutcome
      | @answered command hParse hSave =>
          rw [Store.data_answer]
          simp [Entry.command?, hParse]
      | saved hParse hReplaced hWrites =>
          simp only [Entry.command?, hParse]
          rfl
      | notSaved hParse hWrites => cases hOutcome

theorem Executes.savedGeneration_le (h : Executes s d text trace outcome s' e)
    (hs : s.savedGeneration ≤ s.generation) : s'.savedGeneration ≤ s'.generation := by
  cases h with
  | unread hParse => exact hs
  | @answered command hParse hSave =>
      have hChange := Operation.change_answer s command
      rw [hChange.savedGeneration]
      rcases hChange.generation with hKept | hCounted
      · rw [hKept]
        exact hs
      · omega
  | saved hParse hReplaced hWrites => exact Nat.le_refl _
  | notSaved hParse hWrites => exact hs

/-- A text that does not write leaves store and disk alone. -/
theorem Executes.kept (h : Executes s d text trace outcome s' e)
    (hWrites : ¬ Entry.Writes ⟨number, text, s, outcome, s'⟩) : trace = [] ∧ s' = s ∧ e = d := by
  obtain ⟨hSame, hSave⟩ := not_or.mp hWrites
  cases h with
  | unread hParse => exact ⟨rfl, rfl, rfl⟩
  | @answered command hParse hCommand =>
      rcases (Operation.change_answer s command).generation with hKept | hCounted
      · exact ⟨rfl, hKept, rfl⟩
      · exact absurd (by rw [hCounted]; exact Nat.succ_ne_self _) hSame
  | saved hParse hReplaced hSucceed => exact absurd hParse hSave
  | notSaved hParse hSucceed => exact absurd hParse hSave

/-- If nothing that is written is refused, a text leaves the content in the file, or
unsaved, if it writes or if that was so before. -/
theorem Executes.backed (h : Executes s d text trace outcome s' e) (number : Nat)
    (hs : s.savedGeneration ≤ s.generation)
    (hBefore : Backed s d ∨ Entry.Writes ⟨number, text, s, outcome, s'⟩)
    (hSucceed : Snapshot.WritesSucceed s.path trace) : Backed s' e := by
  cases h with
  | unread hParse =>
      rcases hBefore with hBacked | hSame | hSave
      · exact hBacked
      · exact absurd rfl hSame
      · rw [hParse] at hSave
        cases hSave
  | @answered command hParse hCommand =>
      have hChange := Operation.change_answer s command
      rcases hChange.generation with hKept | hCounted
      · rw [hKept]
        rcases hBefore with hBacked | hSame | hSave
        · exact hBacked
        · exact absurd (congrArg Store.generation hKept) hSame
        · exact absurd (Except.ok.inj (hParse.symm.trans hSave)) hCommand
      · -- what has been counted is not saved yet
        intro hClean
        have hCounters : (s.answer command).2.generation =
            (s.answer command).2.savedGeneration := by
          simpa [Store.isDirty] using hClean
        rw [hChange.savedGeneration] at hCounters
        omega
  | saved hParse hReplaced hWrites => exact fun _ => hReplaced.read
  | notSaved hParse hWrites => exact absurd hSucceed hWrites

theorem Executes.writesSucceed (h : Executes s d text trace outcome s' e)
    (hOutcome : ¬ Entry.Failed ⟨number, text, s, outcome, s'⟩) :
    Snapshot.WritesSucceed s.path trace := by
  cases h with
  | unread hParse => exact Snapshot.writesSucceed_nil _
  | answered hParse hSave => exact Snapshot.writesSucceed_nil _
  | saved hParse hReplaced hWrites => exact hWrites
  | notSaved hParse hWrites => exact absurd ⟨_, rfl⟩ hOutcome

end Executes

/-! ### Lines in order -/

/-- Texts are carried out in order, each on the store that the one before has left. -/
inductive CarriesOut : Store → Disk → List Event → List Entry → Store → Disk → Prop where
  | done (s : Store) (d : Disk) : CarriesOut s d [] [] s d
  | line {number : Nat} {text : String} {outcome : Except StoreError Reply} {s s' last : Store}
      {d c e : Disk} {before after : List Event} {log : List Entry}
      (first : Runs (executeText s text) d before (outcome, s') c)
      (rest : CarriesOut s' c after log last e) :
      CarriesOut s d (before ++ after) (⟨number, text, s, outcome, s'⟩ :: log) last e

section CarriesOut

variable {s last : Store} {d e : Disk} {trace : List Event} {log : List Entry}

theorem CarriesOut.config (h : CarriesOut s d trace log last e) : last.config = s.config := by
  induction h with
  | done s d => rfl
  | line first rest ih => rw [ih, (executes_of_runs first).config]

theorem CarriesOut.eq_of_failed (h : CarriesOut s d trace log last e) :
    ∀ x ∈ log, x.Failed → x.after = x.before := by
  induction h with
  | done s d => simp
  | line first rest ih =>
      intro x hx hFailed
      rcases List.mem_cons.mp hx with rfl | hx
      · obtain ⟨error, hError⟩ := hFailed
        exact (executes_of_runs first).eq_of_error hError
      · exact ih x hx hFailed

/-- The commands that succeed make the content what it is in the end. -/
theorem CarriesOut.data (h : CarriesOut s d trace log last e) :
    last.data = (log.filterMap Entry.command?).foldl Command.apply s.data := by
  induction h with
  | done s d => rfl
  | @line number text outcome s s' last d c e before after log first rest ih =>
      rw [ih, (executes_of_runs first).data number]
      cases hCommand : Entry.command? ⟨number, text, s, outcome, s'⟩ with
      | none => rw [List.filterMap_cons_none hCommand]; rfl
      | some command => rw [List.filterMap_cons_some hCommand]; rfl

/-- Where no line writes, store and disk are left alone. -/
theorem CarriesOut.kept (h : CarriesOut s d trace log last e) (hWrites : ∀ x ∈ log, ¬ x.Writes) :
    trace = [] ∧ last = s ∧ e = d := by
  induction h with
  | done s d => exact ⟨rfl, rfl, rfl⟩
  | line first rest ih =>
      obtain ⟨hFirst, hRest⟩ := List.forall_mem_cons.mp hWrites
      obtain ⟨rfl, rfl, rfl⟩ := (executes_of_runs first).kept hFirst
      obtain ⟨rfl, rfl, rfl⟩ := ih hRest
      exact ⟨rfl, rfl, rfl⟩

/-- If nothing that is written is refused, the content is in the file or unsaved once
a line has written, and stays so. -/
theorem CarriesOut.backed (h : CarriesOut s d trace log last e)
    (hs : s.savedGeneration ≤ s.generation)
    (hBefore : Backed s d ∨ ∃ x ∈ log, x.Writes)
    (hSucceed : Snapshot.WritesSucceed s.path trace) : Backed last e := by
  induction h with
  | done s d => simpa using hBefore
  | @line number text outcome s s' last d c e before after log first rest ih =>
      have hFirst := executes_of_runs first
      obtain ⟨hBeforeSucceed, hAfterSucceed⟩ := Snapshot.writesSucceed_append.mp hSucceed
      have hPath : s'.path = s.path := congrArg Config.path hFirst.config
      refine ih (hFirst.savedGeneration_le hs) ?_ (hPath ▸ hAfterSucceed)
      rcases hBefore with hBacked | ⟨x, hx, hWrites⟩
      · exact Or.inl (hFirst.backed number hs (Or.inl hBacked) hBeforeSucceed)
      · rcases List.mem_cons.mp hx with rfl | hx
        · exact Or.inl (hFirst.backed number hs (Or.inr hWrites) hBeforeSucceed)
        · exact Or.inr ⟨x, hx, hWrites⟩

/-- Where no line fails, nothing that was written has been refused. -/
theorem CarriesOut.writesSucceed (h : CarriesOut s d trace log last e)
    (hLog : ∀ x ∈ log, ¬ x.Failed) : Snapshot.WritesSucceed s.path trace := by
  induction h with
  | done s d => exact Snapshot.writesSucceed_nil _
  | @line number text outcome s s' last d c e before after log first rest ih =>
      have hFirst := executes_of_runs first
      obtain ⟨hHead, hTail⟩ := List.forall_mem_cons.mp hLog
      have hPath : s'.path = s.path := congrArg Config.path hFirst.config
      rw [Snapshot.writesSucceed_append]
      exact ⟨hFirst.writesSucceed hHead, hPath ▸ ih hTail⟩

end CarriesOut

end CommandLine

end SnapshotStore
