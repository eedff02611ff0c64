import SnapshotStore.Proofs.Snapshot.Refused
import SnapshotStore.Proofs.Store.Operation

/-! The stores that a program can have: whatever opens, and whatever any
operations make of it. None of them holds what its own file could not. -/
namespace SnapshotStore.Store

open Disk Program

variable {s s' : Store} {d e : Disk} {trace : List Event} {config : Config}

/-- A store that was opened on some disk and has gone through any operations, each
on a disk of its own; nothing is assumed of these disks. -/
inductive Reachable : Store → Prop where
  | opened {config : Config} {d e : Disk} {trace : List Event} {s : Store}
      (h : Runs («open» config) d trace (.ok s) e) : Reachable s
  | performed {α : Type} {operation : Operation α} {s s' : Store} {d e : Disk}
      {trace : List Event} {outcome : Except StoreError α} (hs : Reachable s)
      (h : Runs (operation.perform s) d trace (outcome, s') e) : Reachable s'

theorem storable_of_contentOf? {read : Except Disk.Fault ByteArray} {data : Snapshot}
    (h : contentOf? config read = some data) : data.Storable := by
  unfold contentOf? at h
  split at h
  · split at h
    · next hContent =>
        obtain rfl := Option.some.inj h
        exact Snapshot.storable_of_ofContent hContent
    · obtain rfl := Option.some.inj h
      exact Snapshot.storable_empty
    · cases h
  · obtain rfl := Option.some.inj h
    exact Snapshot.storable_empty
  · cases h

theorem storable_of_runs {α : Type} {operation : Operation α} {outcome : Except StoreError α}
    (h : Runs (operation.perform s) d trace (outcome, s') e) (hs : s.data.Storable) :
    s'.data.Storable := by
  rcases Operation.changes_of_runs h with ⟨middle, hFirst, hSecond⟩ | rfl
  · exact hSecond.storable (hFirst.storable hs)
  · exact hs

theorem Reachable.storable (h : Reachable s) : s.data.Storable := by
  induction h with
  | opened h => exact storable_of_contentOf? (runs_open_ok h).2.1
  | performed hs h ih => exact storable_of_runs h ih

/-- A finite number is never written as `null`. -/
theorem numberJson_ne_null {n : Number} (h : n.isFinite = true) :
    Value.numberJson n ≠ ['n', 'u', 'l', 'l'] := by
  have hStarts : Json.StartsNumber (Value.numberJson n) := by
    cases n with
    | int i =>
        obtain ⟨l, hValid, hText, -⟩ := Json.exists_literal_ofInt i
        rw [Value.numberJson, ← hText]
        exact hValid.startsNumber
    | float f =>
        cases f with
        | nan => cases h
        | infinite negative => cases h
        | finite negative m =>
            obtain ⟨l, hValid, hText, -⟩ := Json.exists_literal_mixed negative m
            rw [Value.numberJson, ← hText]
            exact hValid.startsNumber
  obtain ⟨c, tail, hText, hFirst⟩ := hStarts.exists_cons
  intro hNull
  rw [hNull] at hText
  exact (Json.not_other_of_startsNumber hFirst).2.2.1 (List.cons.inj hText).1.symm

/-- A file that holds what may not be stored is corrupt when it is loaded. -/
theorem run_load_corrupt {path : Path} {layout : Layout} {data : Snapshot}
    (hData : ¬ data.Storable) (hRead : d.read path = .ok (Snapshot.content layout data))
    (second : Nat) :
    ∃ reason, (Snapshot.load path).run second d = (.error (.corrupt path reason), d) := by
  obtain ⟨reason, hReason⟩ := Snapshot.ofContent_content_error layout hData
  refine ⟨reason, ?_⟩
  unfold Snapshot.load
  rw [run_request_bind]
  simp [Disk.answer, hRead, hReason]

/-- No store that a program can have holds an empty key or a number that is not
finite. So what a save of it puts in the file has neither an empty key nor `null`
in place of a number, and is accepted when it is loaded; with either of them it
would be corrupt. -/
theorem Reachable.loadable (h : Reachable s) :
    (∀ key value, s.get? key = some value →
      key ≠ "" ∧ ∀ n, value = .number n →
        n.isFinite = true ∧ Value.numberJson n ≠ ['n', 'u', 'l', 'l']) ∧
    (∀ layout, ∃ data, Snapshot.decode (Snapshot.encode layout s.data) = .ok data) ∧
    (∀ d trace s' e, Runs s.save d trace (.ok (), s') e →
      ∃ content data, e.read s.path = .ok content ∧ Snapshot.ofContent content = .ok data) ∧
    (∀ layout (data : Snapshot), ¬ data.Storable → ∀ (path : Path) d,
      d.read path = .ok (Snapshot.content layout data) → ∀ second,
        ∃ reason, (Snapshot.load path).run second d = (.error (.corrupt path reason), d)) := by
  have hStorable := h.storable
  refine ⟨fun key value hValue => ?_, fun layout => ⟨_, Snapshot.decode_encode_reloaded layout
    hStorable⟩, fun d trace s' e hSave => ?_, fun layout data hData path d hRead second =>
    run_load_corrupt hData hRead second⟩
  · obtain ⟨hKey, hFinite⟩ := Snapshot.storable_iff.mp hStorable key value hValue
    refine ⟨hKey, fun n hNumber => ?_⟩
    subst hNumber
    exact ⟨hFinite, numberJson_ne_null hFinite⟩
  · exact ⟨_, _, (runs_save_ok hSave).2.read, Snapshot.ofContent_content _ hStorable⟩

/-- A store that was opened without a file, and in which a value was set. A ledger
whose starting balance is infinite is refused an infinite credit, and nothing
infinite is stored. -/
theorem Reachable.loadable_infinite : ∃ s : Store, Reachable s ∧
    Runs ((Operation.give ⟨"l", .float (.infinite false)⟩ "a"
      (.float (.infinite false))).perform
      (Store.opened localConfig .empty |>.withSlot "k" (some (.bool true)))) .empty []
      (.error (.overflow "l.a"), s) .empty ∧
    s.get? "k" = some (.bool true) ∧
    ∀ layout, ∃ data, Snapshot.decode (Snapshot.encode layout s.data) = .ok data := by
  have hOpen : («open» localConfig).run 0 .empty =
      (.ok (Store.opened localConfig .empty), .empty) :=
    rfl
  obtain ⟨trace, hOpened⟩ := runs_of_run hOpen
  have hSet : Runs ((Operation.set "k" (.bool true)).perform (Store.opened localConfig .empty))
      .empty [] (.ok (), Store.opened localConfig .empty |>.withSlot "k" (some (.bool true)))
      .empty := .done _ _
  have hGive : Runs ((Operation.give ⟨"l", .float (.infinite false)⟩ "a"
      (.float (.infinite false))).perform
      (Store.opened localConfig .empty |>.withSlot "k" (some (.bool true)))) .empty []
      (.error (.overflow "l.a"),
        Store.opened localConfig .empty |>.withSlot "k" (some (.bool true))) .empty := .done _ _
  have hReachable := Reachable.performed (Reachable.performed (.opened hOpened) hSet) hGive
  exact ⟨_, hReachable, hGive, rfl, hReachable.loadable.2.1⟩

end SnapshotStore.Store
