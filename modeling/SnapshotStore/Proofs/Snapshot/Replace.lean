import SnapshotStore.Proofs.Disk.Sibling
import SnapshotStore.Snapshot.File

/-! A file is replaced as a whole or stays as it is, wherever the replacing
fails or is stopped for good. -/
namespace SnapshotStore.Snapshot

open Disk Program

variable {path : Path} {content : ByteArray} {durable : Bool} {d e : Disk} {trace : List Event}
  {fault : Disk.Fault}

/-! ### Preparing -/

theorem settles_settling (path : Path) (durable : Bool) : AsksOnly Request.Settles
    (if durable then request (.settle path) else return .ok ()) := by
  cases durable with
  | false => exact asksOnly_pure _
  | true => exact asksOnly_request ⟨path, rfl⟩

/-- While a new version is prepared, no other file changes. -/
theorem onlyFile_of_reaches_prepare (h : Reaches (prepare path content durable) d e) :
    OnlyFile path d e := by
  rcases h.bind_inv with hStart | ⟨_, started, c, hStart, hRest⟩
  · rcases hStart.request_inv with rfl | ⟨started, hStarted⟩
    · exact OnlyFile.refl path _
    · exact hStarted.onlyFile_startFile
  refine hStart.request_inv.1.onlyFile_startFile.trans ?_
  cases started with
  | error fault => rw [hRest.pure_inv]; exact OnlyFile.refl path c
  | ok _ =>
      rcases hRest.bind_inv with hAppend | ⟨_, appended, c', hAppend, hSettle⟩
      · rcases hAppend.request_inv with rfl | ⟨appended, hAppended⟩
        · exact OnlyFile.refl path _
        · exact hAppended.onlyFile_append
      refine hAppend.request_inv.1.onlyFile_append.trans ?_
      cases appended with
      | error fault => rw [hSettle.pure_inv]; exact OnlyFile.refl path c'
      | ok _ =>
          rw [hSettle.eq_of_settles (settles_settling path durable)]
          exact OnlyFile.refl path c'

/-- What was prepared without a fault is complete. -/
theorem read_of_runs_prepare (h : Runs (prepare path content durable) d trace (.ok ()) e) :
    e.read path = .ok content := by
  obtain ⟨_, _, started, c, -, hStart, hRest⟩ := h.bind_inv
  cases started with
  | error fault => cases hRest.pure_inv.2.1
  | ok _ =>
      obtain ⟨_, _, appended, c', -, hAppend, hSettle⟩ := hRest.bind_inv
      cases appended with
      | error fault => cases hSettle.pure_inv.2.1
      | ok _ =>
          have hEmpty := read_of_write hStart.request_inv.1.startFile_ok
          have hFull := read_of_append hAppend.request_inv.1.append_ok hEmpty
          rw [hSettle.reaches.eq_of_settles (settles_settling path durable), hFull,
            ByteArray.empty_append]

/-- What preparing a new version asks for. -/
inductive Prepares (path : Path) : Request → Prop where
  | start : Prepares path (.startFile path)
  | append (content : ByteArray) : Prepares path (.append path content)
  | settle : Prepares path (.settle path)

theorem asksOnly_prepare (path : Path) (content : ByteArray) (durable : Bool) :
    AsksOnly (Prepares path) (prepare path content durable) := by
  refine (asksOnly_request .start).bind fun started => ?_
  cases started with
  | error fault => exact asksOnly_pure _
  | ok _ =>
      refine (asksOnly_request (.append content)).bind fun appended => ?_
      cases appended with
      | error fault => exact asksOnly_pure _
      | ok _ =>
          cases durable with
          | false => exact asksOnly_pure _
          | true => exact asksOnly_request .settle

/-! ### Replacing -/

/-- What a fault leaves: the prepared sibling is removed, or it is left behind. -/
def abandon (path : Path) (fault : Disk.Fault) : Program (Except Disk.Fault Unit) := do
  let _ ← request (.remove path.temp)
  return .error fault

/-- What is left to do once the new version is in place. -/
def conclude (path : Path) (durable : Bool) : Program (Except Disk.Fault Unit) := do
  if durable then
    let _ ← request (.settle path.parent)
  return .ok ()

theorem replaceFile_eq (path : Path) (content : ByteArray) (durable : Bool) :
    replaceFile path content durable =
      (prepare path.temp content durable >>= fun prepared => match prepared with
        | .error fault => abandon path fault
        | .ok _ => request (.rename path.temp path) >>= fun renamed => match renamed with
          | .error fault => abandon path fault
          | .ok _ => conclude path durable) :=
  rfl

theorem asksOnly_conclude (path : Path) (durable : Bool) :
    AsksOnly (· = .settle path.parent) (conclude path durable) := by
  cases durable with
  | false => exact asksOnly_pure _
  | true =>
      have hSettle : AsksOnly (· = .settle path.parent) (request (.settle path.parent)) :=
        asksOnly_request rfl
      exact hSettle.bind fun _ => asksOnly_pure _

theorem settles_conclude (path : Path) (durable : Bool) :
    AsksOnly Request.Settles (conclude path durable) :=
  (asksOnly_conclude path durable).mono fun _ hRequest => ⟨path.parent, hRequest⟩

/-- What replacing a file asks for. -/
inductive Replaces (path : Path) : Request → Prop where
  | prepare {request : Request} (h : Prepares path.temp request) : Replaces path request
  | rename : Replaces path (.rename path.temp path)
  | remove : Replaces path (.remove path.temp)
  | settle : Replaces path (.settle path.parent)

theorem asksOnly_replaceFile (path : Path) (content : ByteArray) (durable : Bool) :
    AsksOnly (Replaces path) (replaceFile path content durable) := by
  have hAbandon : ∀ fault, AsksOnly (Replaces path) (abandon path fault) := fun fault =>
    (asksOnly_request .remove).bind fun _ => asksOnly_pure _
  rw [replaceFile_eq]
  refine ((asksOnly_prepare path.temp content durable).mono fun _ => .prepare).bind
    fun prepared => ?_
  cases prepared with
  | error fault => exact hAbandon fault
  | ok _ =>
      refine (asksOnly_request .rename).bind fun renamed => ?_
      cases renamed with
      | error fault => exact hAbandon fault
      | ok _ => exact (asksOnly_conclude path durable).mono fun _ hRequest => hRequest ▸ .settle

theorem runs_conclude_result {result : Except Disk.Fault Unit}
    (h : Runs (conclude path durable) d trace result e) : result = .ok () := by
  cases durable with
  | false => exact h.pure_inv.2.1
  | true =>
      obtain ⟨_, _, _, _, -, -, hReturn⟩ := h.bind_inv
      exact hReturn.pure_inv.2.1

theorem onlyFile_of_reaches_abandon (h : Reaches (abandon path fault) d e) :
    OnlyFile path.temp d e := by
  have hRemove : Reaches (request (.remove path.temp)) d e := h.of_bind_pure fun _ => ⟨_, rfl⟩
  rcases hRemove.request_inv with rfl | ⟨removed, hRemoved⟩
  · exact OnlyFile.refl path.temp _
  · exact hRemoved.onlyFile_remove

/-- If the sibling is said to be removed, it is gone. -/
theorem runs_abandon {result : Except Disk.Fault Unit}
    (h : Runs (abandon path fault) d trace result e) : result = .error fault ∧
      (⟨.remove path.temp, true⟩ ∈ trace → e.contains path.temp = false) := by
  obtain ⟨_, _, removed, c, rfl, hRemove, hReturn⟩ := h.bind_inv
  obtain ⟨hRemoved, rfl⟩ := hRemove.request_inv
  obtain ⟨rfl, rfl, rfl⟩ := hReturn.pure_inv
  refine ⟨rfl, fun hEvent => ?_⟩
  cases removed with
  | error fault => simp [Except.isOk, Except.toBool] at hEvent
  | ok _ => exact contains_of_remove hRemoved.remove_ok

/-- Until the new version takes its place, nothing but its sibling changes. It takes its
place complete and in one step, and that is the last change. -/
theorem reaches_replaceFile_cases (h : Reaches (replaceFile path content durable) d e) :
    OnlyFile path.temp d e ∨ ∃ c, OnlyFile path.temp d c ∧ c.read path.temp = .ok content ∧
      c.rename path.temp path = .ok e := by
  rw [replaceFile_eq] at h
  rcases h.bind_inv with hPrepare | ⟨_, prepared, c, hPrepare, hRest⟩
  · exact Or.inl (onlyFile_of_reaches_prepare hPrepare)
  have hBefore := onlyFile_of_reaches_prepare hPrepare.reaches
  cases prepared with
  | error fault => exact Or.inl (hBefore.trans (onlyFile_of_reaches_abandon hRest))
  | ok _ =>
      have hRead := read_of_runs_prepare hPrepare
      rcases hRest.bind_inv with hRename | ⟨_, renamed, c', hRename, hAfter⟩
      · rcases hRename.request_inv with rfl | ⟨renamed, hRenamed⟩
        · exact Or.inl hBefore
        · cases renamed with
          | error fault => rw [hRenamed.rename_error]; exact Or.inl hBefore
          | ok _ => exact Or.inr ⟨c, hBefore, hRead, hRenamed.rename_ok⟩
      · have hRenamed := hRename.request_inv.1
        cases renamed with
        | error fault =>
            rw [hRenamed.rename_error] at hAfter
            exact Or.inl (hBefore.trans (onlyFile_of_reaches_abandon hAfter))
        | ok _ =>
            rw [hAfter.eq_of_settles (settles_conclude path durable)]
            exact Or.inr ⟨c, hBefore, hRead, hRenamed.rename_ok⟩

theorem reaches_replaceFile (h : Reaches (replaceFile path content durable) d e) :
    OnlyFile path.temp d e ∨ Replaced path content d e := by
  rcases reaches_replaceFile_cases h with hOnly | ⟨c, hBefore, hRead, hRenamed⟩
  · exact Or.inl hOnly
  · exact Or.inr ((replaced_of_rename hRenamed hRead).of_onlyFile hBefore)

/-- A run that ends without a fault has replaced the file. -/
theorem replaced_of_runs (h : Runs (replaceFile path content durable) d trace (.ok ()) e) :
    Replaced path content d e := by
  rw [replaceFile_eq] at h
  obtain ⟨_, _, prepared, c, -, hPrepare, hRest⟩ := h.bind_inv
  have hBefore := onlyFile_of_reaches_prepare hPrepare.reaches
  cases prepared with
  | error fault => cases (runs_abandon hRest).1
  | ok _ =>
      have hRead := read_of_runs_prepare hPrepare
      obtain ⟨_, _, renamed, c', -, hRename, hAfter⟩ := hRest.bind_inv
      cases renamed with
      | error fault => cases (runs_abandon hAfter).1
      | ok _ =>
          rw [hAfter.reaches.eq_of_settles (settles_conclude path durable)]
          exact (replaced_of_rename hRename.request_inv.1.rename_ok hRead).of_onlyFile hBefore

/-- A run that ends with a fault has changed nothing but the sibling, and has
left none if its removal succeeded. -/
theorem onlyFile_of_runs_error
    (h : Runs (replaceFile path content durable) d trace (.error fault) e) :
    OnlyFile path.temp d e ∧
      (⟨.remove path.temp, true⟩ ∈ trace → e.contains path.temp = false) := by
  rw [replaceFile_eq] at h
  obtain ⟨before, after, prepared, c, rfl, hPrepare, hRest⟩ := h.bind_inv
  have hBefore := onlyFile_of_reaches_prepare hPrepare.reaches
  have hNone : (⟨.remove path.temp, true⟩ : Event) ∉ before := fun hEvent =>
    nomatch hPrepare.request_of_mem (asksOnly_prepare _ _ _) _ hEvent
  cases prepared with
  | error fault =>
      refine ⟨hBefore.trans (onlyFile_of_reaches_abandon hRest.reaches), fun hEvent => ?_⟩
      exact (runs_abandon hRest).2 ((List.mem_append.mp hEvent).resolve_left hNone)
  | ok _ =>
      obtain ⟨_, after, renamed, c', rfl, hRename, hAfter⟩ := hRest.bind_inv
      obtain ⟨hRenamed, rfl⟩ := hRename.request_inv
      cases renamed with
      | error fault =>
          rw [hRenamed.rename_error] at hAfter
          refine ⟨hBefore.trans (onlyFile_of_reaches_abandon hAfter.reaches), fun hEvent => ?_⟩
          refine (runs_abandon hAfter).2 ?_
          simpa [hNone] using hEvent
      | ok _ => cases runs_conclude_result hAfter

/-! ### Where writing succeeds -/

/-- A request without which no new version of the file comes into its place. -/
def Writes (path : Path) : Request → Prop
  | .startFile target | .append target _ | .settle target => target = path.temp
  | .rename source _ => source = path.temp
  | _ => False

/-- All of these requests that were made succeeded. -/
def WritesSucceed (path : Path) (trace : List Event) : Prop :=
  ∀ event ∈ trace, Writes path event.request → event.done = true

theorem writesSucceed_nil (path : Path) : WritesSucceed path [] :=
  nofun

theorem writesSucceed_append {before after : List Event} : WritesSucceed path (before ++ after) ↔
    WritesSucceed path before ∧ WritesSucceed path after := by
  simp [WritesSucceed, or_imp, forall_and]

theorem writesSucceed_singleton {request : Request} {answer : Except Disk.Fault request.Answer}
    (h : Writes path request) :
    WritesSucceed path [⟨request, answer.isOk⟩] ↔ ∃ value, answer = .ok value := by
  cases answer <;> simp [WritesSucceed, h, Except.isOk, Except.toBool]

/-- A run without requests that write does not fail to write. -/
theorem writesSucceed_of_asksOnly {α : Type} {p : Program α} {value : α}
    (h : Runs p d trace value e) (hAsks : AsksOnly (fun request => ¬ Writes path request) p) :
    WritesSucceed path trace :=
  fun event hEvent hWrites => absurd hWrites (h.request_of_mem hAsks event hEvent)

theorem runs_prepare_iff {result : Except Disk.Fault Unit}
    (h : Runs (prepare path.temp content durable) d trace result e) :
    WritesSucceed path trace ↔ result = .ok () := by
  obtain ⟨_, _, started, c, rfl, hStart, hRest⟩ := h.bind_inv
  obtain ⟨-, rfl⟩ := hStart.request_inv
  rw [writesSucceed_append, writesSucceed_singleton (show Writes path (.startFile _) from rfl)]
  cases started with
  | error fault =>
      obtain ⟨rfl, rfl, rfl⟩ := hRest.pure_inv
      simp
  | ok _ =>
      obtain ⟨_, _, appended, c', rfl, hAppend, hSettle⟩ := hRest.bind_inv
      obtain ⟨-, rfl⟩ := hAppend.request_inv
      rw [writesSucceed_append, writesSucceed_singleton (show Writes path (.append _ _) from rfl)]
      cases appended with
      | error fault =>
          obtain ⟨rfl, rfl, rfl⟩ := hSettle.pure_inv
          simp
      | ok _ =>
          cases durable with
          | false =>
              obtain ⟨rfl, rfl, rfl⟩ := Runs.pure_inv hSettle
              simp [writesSucceed_nil]
          | true =>
              obtain ⟨-, rfl⟩ := Runs.request_inv hSettle
              rw [writesSucceed_singleton (show Writes path (.settle _) from rfl)]
              cases result <;> simp

/-- That the directory settles is not needed. -/
theorem writesSucceed_of_runs_conclude {result : Except Disk.Fault Unit}
    (h : Runs (conclude path durable) d trace result e) : WritesSucceed path trace := by
  refine writesSucceed_of_asksOnly h ((asksOnly_conclude path durable).mono ?_)
  rintro _ rfl
  exact parent_ne_temp path

/-- A file is replaced if and only if none of these requests fails. -/
theorem runs_replaceFile_iff {result : Except Disk.Fault Unit}
    (h : Runs (replaceFile path content durable) d trace result e) :
    WritesSucceed path trace ↔ result = .ok () := by
  rw [replaceFile_eq] at h
  obtain ⟨before, after, prepared, c, rfl, hPrepare, hRest⟩ := h.bind_inv
  rw [writesSucceed_append, runs_prepare_iff hPrepare]
  cases prepared with
  | error fault =>
      obtain rfl := (runs_abandon hRest).1
      simp
  | ok _ =>
      obtain ⟨_, after, renamed, c', rfl, hRename, hAfter⟩ := hRest.bind_inv
      obtain ⟨-, rfl⟩ := hRename.request_inv
      rw [writesSucceed_append, writesSucceed_singleton (show Writes path (.rename _ _) from rfl)]
      cases renamed with
      | error fault =>
          obtain rfl := (runs_abandon hAfter).1
          simp
      | ok _ =>
          obtain rfl := runs_conclude_result hAfter
          simp [writesSucceed_of_runs_conclude hAfter]

/-- Replacing one file does not write a new version of another one. -/
theorem Replaces.not_writes {other : Path} {request : Request} (h : Replaces path request)
    (hTemp : path.temp ≠ other.temp) (hParent : path.parent ≠ other.temp) :
    ¬ Writes other request := by
  cases h with
  | prepare h => cases h <;> exact hTemp
  | rename => exact hTemp
  | remove => exact id
  | settle => exact hParent

end SnapshotStore.Snapshot
