import SnapshotStore.Proofs.Store.Saving
import SnapshotStore.Proofs.Store.Writing
import SnapshotStore.Store.Execute

/-! Everything that changes an open store, as data: the operations of the store
itself, the commands that it carries out, and the operations of any ledger on
it. -/
namespace SnapshotStore

/-- The keys whose values a command may change. -/
def Command.Touches : Command → String → Prop
  | .set key _ | .delete key | .increment key _ | .decrement key _ | .push key _ =>
    fun other => other = key
  | _ => fun _ => False

/-- An operation on a store, by the type of its result. The change of an update
may be any function. -/
inductive Operation : Type → Type 1 where
  | set (key : String) (value : Value) : Operation Unit
  | delete (key : String) : Operation Bool
  | clear : Operation Nat
  | update {α : Type} (key : String)
      (change : Option Value → Except StoreError (α × Option Value)) : Operation α
  | increment (key : String) (delta : Number) : Operation Number
  | decrement (key : String) (delta : Number) : Operation Number
  | decrementIfAtLeast (key : String) (amount : Number) : Operation Bool
  | getOrSet (key : String) (default : Value) : Operation Value
  | push (key item : String) : Operation Nat
  | execute (command : Command) : Operation Reply
  | openAccount (l : Ledger) (identity : String) : Operation Bool
  | setBalance (l : Ledger) (identity : String) (amount : Number) : Operation Number
  | give (l : Ledger) (identity : String) (amount : Number) : Operation Bool
  | take (l : Ledger) (identity : String) (amount : Number) : Operation Bool
  | transfer (l : Ledger) (source target : String) (amount : Number) : Operation Bool

namespace Operation

open Store Disk Program

variable {α : Type}

/-- Carry out an operation. Only saving needs the disk. -/
def perform (s : Store) : Operation α → Program (Except StoreError α × Store)
  | .set key value => return s.set key value
  | .delete key => return (.ok (s.delete key).1, (s.delete key).2)
  | .clear => return (.ok s.clear.1, s.clear.2)
  | .update key change => return s.update key change
  | .increment key delta => return s.increment key delta
  | .decrement key delta => return s.decrement key delta
  | .decrementIfAtLeast key amount => return s.decrementIfAtLeast key amount
  | .getOrSet key default => return s.getOrSet key default
  | .push key item => return s.push key item
  | .execute command => s.execute command
  | .openAccount l identity => return l.openAccount s identity
  | .setBalance l identity amount => return l.setBalance s identity amount
  | .give l identity amount => return l.give s identity amount
  | .take l identity amount => return l.take s identity amount
  | .transfer l source target amount => return l.transfer s source target amount

/-- The keys whose values an operation may change: one of them, except that
clearing may change all, and a transfer those of two balances. -/
def Touches : Operation α → String → Prop
  | .set key _ | .delete key | .update key _ | .increment key _ | .decrement key _
  | .decrementIfAtLeast key _ | .getOrSet key _ | .push key _ => fun other => other = key
  | .clear => fun _ => True
  | .execute command => command.Touches
  | .openAccount l identity | .setBalance l identity _ | .give l identity _
  | .take l identity _ => fun other => other = l.key identity
  | .transfer l source target _ => fun other => other = l.key source ∨ other = l.key target

def IsTransfer : Operation α → Prop
  | .transfer _ _ _ _ => True
  | _ => False

/-- One step on the store in memory: neither a transfer, which is two of them, nor
a save. -/
def IsMutation : Operation α → Prop
  | .transfer _ _ _ _ => False
  | .execute command => command ≠ .save
  | _ => True

/-! ### Commands -/

variable {operation : Operation α} {s s' : Store} {d e : Disk} {trace : List Event}
  {outcome : Except StoreError α} {error : StoreError}

theorem change_answer (s : Store) (command : Command) :
    Change s command.Touches (s.answer command).2 := by
  cases command with
  | set key value => exact change_set s key value
  | delete key => exact change_delete s key
  | increment key delta => exact change_update s key (computing key (·.add? delta))
  | decrement key delta => exact change_update s key (computing key (·.sub? delta))
  | push key item => exact change_update s key (appending key item)
  | _ => exact .kept

theorem execute_eq {command : Command} (h : command ≠ .save) :
    s.execute command = pure (s.answer command) := by
  cases command <;> first | rfl | exact absurd rfl h

theorem runs_execute_save {outcome : Except StoreError Reply}
    (h : Runs (s.execute .save) d trace (outcome, s') e) : ∃ saved,
      outcome = saved.map (fun _ => .ok) ∧ Runs s.save d trace (saved, s') e := by
  obtain ⟨_, _, saved, c, rfl, hSave, hReturn⟩ := h.bind_inv
  obtain ⟨rfl, hResult, rfl⟩ := hReturn.pure_inv
  obtain ⟨rfl, rfl⟩ := Prod.mk.inj hResult
  rw [List.append_nil]
  exact ⟨saved.1, rfl, hSave⟩

/-- A save changes at most what counts as saved. -/
theorem of_runs_execute_save {outcome : Except StoreError Reply}
    (h : Runs (s.execute .save) d trace (outcome, s') e) :
    s' = s ∨ s' = s.publish s.copy := by
  obtain ⟨saved, -, hSave⟩ := runs_execute_save h
  cases saved with
  | error error => exact Or.inl (runs_save_error hSave).1
  | ok _ => exact Or.inr (runs_save_ok hSave).1

/-! ### Operations -/

/-- A mutation changes at most one thing. -/
theorem change_of_isMutation (hMutation : operation.IsMutation)
    (h : Runs (operation.perform s) d trace (outcome, s') e) : Change s operation.Touches s' := by
  have hPure : ∀ {β : Type} {result : Except StoreError β × Store} {touched : String → Prop}
      {outcome : Except StoreError β},
      Runs (pure result : Program (Except StoreError β × Store)) d trace (outcome, s') e →
      Change s touched result.2 → Change s touched s' := by
    intro β result touched outcome hRuns hChange
    obtain ⟨-, rfl, -⟩ := hRuns.pure_inv
    exact hChange
  cases operation with
  | set key value => exact hPure h (change_set s key value)
  | delete key => exact hPure h (change_delete s key)
  | clear => exact hPure h (change_clear s)
  | update key change => exact hPure h (change_update s key change)
  | increment key delta => exact hPure h (change_update s key (computing key (·.add? delta)))
  | decrement key delta => exact hPure h (change_update s key (computing key (·.sub? delta)))
  | decrementIfAtLeast key amount => exact hPure h (change_decrementIfAtLeast s key amount)
  | getOrSet key default => exact hPure h (change_update s key _)
  | push key item => exact hPure h (change_update s key (appending key item))
  | execute command =>
      rw [perform, execute_eq hMutation] at h
      exact hPure h (change_answer s command)
  | openAccount l identity => exact hPure h (change_update s (l.key identity) _)
  | setBalance l identity amount => exact hPure h (l.change_setBalance s identity amount)
  | give l identity amount => exact hPure h (l.change_give s identity amount)
  | take l identity amount => exact hPure h (l.change_take s identity amount)
  | transfer l source target amount => cases hMutation

/-- An operation that is no transfer changes at most one thing, and a save at
most what counts as saved. -/
theorem change_of_runs (hSingle : ¬ operation.IsTransfer)
    (h : Runs (operation.perform s) d trace (outcome, s') e) :
    Change s operation.Touches s' ∨ s' = s.publish s.copy := by
  by_cases hMutation : operation.IsMutation
  · exact Or.inl (change_of_isMutation hMutation h)
  · cases operation with
    | execute command =>
        obtain rfl : command = .save := not_not.mp hMutation
        rcases of_runs_execute_save h with rfl | hSaved
        · exact Or.inl .kept
        · exact Or.inr hSaved
    | transfer l source target amount => exact absurd trivial hSingle
    | _ => exact absurd trivial hMutation

/-- Every operation is at most two changes in a row, or a save. -/
theorem changes_of_runs (h : Runs (operation.perform s) d trace (outcome, s') e) :
    (∃ middle, Change s operation.Touches middle ∧ Change middle operation.Touches s') ∨
      s' = s.publish s.copy := by
  by_cases hSingle : operation.IsTransfer
  · cases operation with
    | transfer l source target amount =>
        obtain ⟨middle, hTake, hGive⟩ := l.change_transfer s source target amount
        obtain ⟨-, hResult, -⟩ := Runs.pure_inv h
        have hLast : s' = (l.transfer s source target amount).2 := congrArg Prod.snd hResult
        rw [← hLast] at hGive
        exact Or.inl ⟨middle, hTake.mono fun _ => Or.inl, hGive.mono fun _ => Or.inr⟩
    | _ => cases hSingle
  · exact (change_of_runs hSingle h).imp_left fun hChange => ⟨s', hChange, .kept⟩

theorem failsInPlace_replying {β : Type} {reply : β → Reply} {result : Except StoreError β × Store}
    (h : FailsInPlace s result) : FailsInPlace s (replying reply result) := by
  intro error hError
  refine h error ?_
  unfold replying at hError
  cases hResult : result.1 with
  | error found => simpa [hResult, Except.map] using hError
  | ok value => simp [hResult, Except.map] at hError

theorem failsInPlace_answer (s : Store) (command : Command) :
    FailsInPlace s (s.answer command) := by
  cases command with
  | set key value => exact failsInPlace_replying (failsInPlace_set s key value)
  | increment key delta => exact failsInPlace_replying (failsInPlace_update s key _)
  | decrement key delta => exact failsInPlace_replying (failsInPlace_update s key _)
  | push key item => exact failsInPlace_replying (failsInPlace_update s key _)
  | _ => exact fun _ => nofun

/-- An operation that is no transfer, and reports an error, leaves the store as it
was. -/
theorem eq_of_runs_error (hSingle : ¬ operation.IsTransfer)
    (h : Runs (operation.perform s) d trace (.error error, s') e) : s' = s := by
  have hPure : ∀ {β : Type} {result : Except StoreError β × Store},
      Runs (pure result : Program (Except StoreError β × Store)) d trace (.error error, s') e →
      FailsInPlace s result → s' = s := by
    intro β result hRuns hFails
    obtain ⟨-, rfl, -⟩ := hRuns.pure_inv
    exact hFails error rfl
  cases operation with
  | set key value => exact hPure h (failsInPlace_set s key value)
  | delete key => exact hPure h fun _ => nofun
  | clear => exact hPure h fun _ => nofun
  | update key change => exact hPure h (failsInPlace_update s key change)
  | increment key delta => exact hPure h (failsInPlace_update s key _)
  | decrement key delta => exact hPure h (failsInPlace_update s key _)
  | decrementIfAtLeast key amount => exact hPure h (failsInPlace_decrementIfAtLeast s key amount)
  | getOrSet key default => exact hPure h (failsInPlace_update s key _)
  | push key item => exact hPure h (failsInPlace_update s key _)
  | execute command =>
      by_cases hSave : command = .save
      · subst hSave
        obtain ⟨saved, hOutcome, hSaved⟩ := runs_execute_save h
        cases saved with
        | error found => exact (runs_save_error hSaved).1
        | ok _ => cases hOutcome
      · rw [perform, execute_eq hSave] at h
        exact hPure h (failsInPlace_answer s command)
  | openAccount l identity => exact hPure h (failsInPlace_update s _ _)
  | setBalance l identity amount => exact hPure h (l.failsInPlace_setBalance s identity amount)
  | give l identity amount => exact hPure h (l.failsInPlace_give s identity amount)
  | take l identity amount => exact hPure h (l.failsInPlace_take s identity amount)
  | transfer l source target amount => exact absurd trivial hSingle

/-- A command that is not meant to change anything changes at most what counts as
saved. -/
theorem data_eq_of_runs_execute {command : Command} {outcome : Except StoreError Reply}
    (hCommand : command.isMutation = false) (h : Runs (s.execute command) d trace (outcome, s') e) :
    s'.data = s.data ∧ s'.generation = s.generation := by
  by_cases hSave : command = .save
  · subst hSave
    rcases of_runs_execute_save h with rfl | rfl
    · exact ⟨rfl, rfl⟩
    · exact ⟨rfl, rfl⟩
  · rw [execute_eq hSave] at h
    obtain ⟨-, hResult, -⟩ := h.pure_inv
    obtain rfl : s' = (s.answer command).2 := congrArg Prod.snd hResult
    cases command with
    | set key value => cases hCommand
    | delete key => cases hCommand
    | increment key delta => cases hCommand
    | decrement key delta => cases hCommand
    | push key item => cases hCommand
    | _ => exact ⟨rfl, rfl⟩

theorem get?_eq_of_runs (h : Runs (operation.perform s) d trace (outcome, s') e) {key : String}
    (hKey : ¬ operation.Touches key) : s'.get? key = s.get? key := by
  rcases changes_of_runs h with ⟨middle, hFirst, hSecond⟩ | rfl
  · rw [hSecond.get?_eq hKey, hFirst.get?_eq hKey]
  · rfl

/-- A store whose content has changed has counted the change. -/
theorem counted_of_runs (h : Runs (operation.perform s) d trace (outcome, s') e)
    (hData : s'.data ≠ s.data) :
    s.generation < s'.generation ∧ s'.savedGeneration = s.savedGeneration := by
  rcases changes_of_runs h with ⟨middle, hFirst, hSecond⟩ | rfl
  · refine ⟨?_, hSecond.savedGeneration.trans hFirst.savedGeneration⟩
    rcases hFirst.generation with rfl | hMiddle
    · rcases hSecond.generation with rfl | hLast
      · exact absurd rfl hData
      · omega
    · rcases hSecond.generation with rfl | hLast
      · omega
      · omega
  · exact absurd rfl hData

/-- An operation takes place as a whole or not at all, touches no other keys, and
leaves no change uncounted. An error, as well as a debit or a credit or a removal
that is declined, leaves the store with both of its counters as it was; a store
whose content has changed is dirty; and commands that are no mutations change
neither content nor generation. -/
theorem perform_atomic (s : Store) :
    (∀ {α : Type} (operation : Operation α), ¬ operation.IsTransfer → ∀ d trace error s' e,
      Runs (operation.perform s) d trace (.error error, s') e → s' = s) ∧
    (∀ key amount s', s.decrementIfAtLeast key amount = (.ok false, s') → s' = s) ∧
    (∀ (l : Ledger) identity amount s', l.give s identity amount = (.ok false, s') → s' = s) ∧
    (∀ (l : Ledger) identity amount s', l.take s identity amount = (.ok false, s') → s' = s) ∧
    (∀ key s', s.delete key = (false, s') → s' = s) ∧
    (∀ {α : Type} (operation : Operation α) d trace outcome s' e,
      Runs (operation.perform s) d trace (outcome, s') e →
        (∀ key, ¬ operation.Touches key → s'.get? key = s.get? key) ∧
        (s'.data ≠ s.data →
          s.generation < s'.generation ∧ s'.savedGeneration = s.savedGeneration ∧
          (s.savedGeneration ≤ s.generation → s'.isDirty = true))) ∧
    (∀ command, command.isMutation = false → ∀ d trace outcome s' e,
      Runs (s.execute command) d trace (outcome, s') e →
        s'.data = s.data ∧ s'.generation = s.generation) := by
  refine ⟨fun operation hSingle d trace error s' e h => eq_of_runs_error hSingle h,
    fun key amount s' h => eq_of_decrementIfAtLeast_false h,
    fun l identity amount s' h => l.eq_of_give_false h,
    fun l identity amount s' h => l.eq_of_take_false h,
    fun key s' h => eq_of_delete_false h,
    fun operation d trace outcome s' e h => ⟨fun key hKey => get?_eq_of_runs h hKey,
      fun hData => ?_⟩,
    fun command hCommand d trace outcome s' e h => data_eq_of_runs_execute hCommand h⟩
  obtain ⟨hCounted, hSaved⟩ := counted_of_runs h hData
  refine ⟨hCounted, hSaved, fun hBehind => ?_⟩
  have hApart : s'.generation ≠ s'.savedGeneration := by omega
  simpa [isDirty] using hApart

/-- On a store with one truth value an increment of it is refused, an update that
leaves not-a-number too, and only its removal counts. -/
theorem perform_atomic_flagged : ∃ refused unstorable removed : Store,
    Runs ((Operation.increment "k" (.int 1)).perform (opened {} flagged)) .empty []
      (.error (.typeMismatch "k" .number .bool), refused) .empty ∧
    Runs ((Operation.update "k" fun _ => .ok ((), some (.number (.float .nan)))).perform
      (opened {} flagged)) .empty [] (.error (.invalidValue "k" .notFinite), unstorable) .empty ∧
    Runs ((Operation.delete "k").perform (opened {} flagged)) .empty [] (.ok true, removed) .empty ∧
    refused = opened {} flagged ∧ unstorable = opened {} flagged ∧
    removed.data ≠ flagged ∧ removed.isDirty = true := by
  obtain ⟨hFails, -, -, -, -, hCounts, -⟩ := perform_atomic (opened {} flagged)
  have hRefused : Runs ((Operation.increment "k" (.int 1)).perform (opened {} flagged)) .empty []
      (.error (.typeMismatch "k" .number .bool), opened {} flagged) .empty := .done _ _
  have hUnstorable : Runs ((Operation.update "k" fun _ =>
      .ok ((), some (.number (.float .nan)))).perform (opened {} flagged)) .empty []
      (.error (.invalidValue "k" .notFinite), opened {} flagged) .empty := .done _ _
  have hRemoved : Runs ((Operation.delete "k").perform (opened {} flagged)) .empty []
      (.ok true, (opened {} flagged).withSlot "k" none) .empty := .done _ _
  have hChanged : ((opened {} flagged).withSlot "k" none).data ≠ flagged := nofun
  exact ⟨_, _, _, hRefused, hUnstorable, hRemoved, hFails (.increment "k" (.int 1)) id _ _ _ _ _
    hRefused, hFails (.update "k" _) id _ _ _ _ _ hUnstorable, hChanged,
    ((hCounts _ _ _ _ _ _ hRemoved).2 hChanged).2.2 (Nat.le_refl 0)⟩

end Operation

end SnapshotStore
