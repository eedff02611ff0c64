import Mathlib.Logic.Relation
import SnapshotStore.Proofs.Store.Operation
import SnapshotStore.Proofs.Store.Saving

/-! A store that several use at once. A mutation is one step, and a save is
several of them: it waits until no other save is under way, copies the content,
writes the copy to the file, counts it as saved, and lets the next save go on.
Anything may happen between two of these steps. The generation tells the contents
of a store apart, so it also tells whether a copy is still the content. -/
namespace SnapshotStore

open Disk Store
open Program (Runs Reaches)

/-- A copy from now or before. One of the current generation is the content. -/
def Store.Copy.Behind (c : Copy) (s : Store) : Prop :=
  c.generation ≤ s.generation ∧ (c.generation = s.generation → c.data = s.data)

theorem Store.behind_copy (s : Store) : s.copy.Behind s :=
  ⟨Nat.le_refl _, fun _ => rfl⟩

theorem Store.Copy.Behind.change {c : Copy} {s s' : Store} {touched : String → Prop}
    (h : c.Behind s) (hChange : Change s touched s') : c.Behind s' := by
  obtain ⟨hLe, hData⟩ := h
  rcases hChange.generation with rfl | hNext
  · exact ⟨hLe, hData⟩
  · exact ⟨by omega, fun hSame => absurd hLe (by omega)⟩

/-- A copy of the generation that counts as saved is the content of a store that is
not dirty. -/
theorem Store.Copy.Behind.eq_data {c : Copy} {s : Store} (h : c.Behind s)
    (hSaved : s.savedGeneration ≤ c.generation) (hClean : s.isDirty = false) : c.data = s.data := by
  have hSame : s.generation = s.savedGeneration := by simpa [isDirty] using hClean
  exact h.2 (Nat.le_antisymm h.1 (by omega))

/-! ### Calls -/

/-- Where a call of a save is. What it returns is the copy that it wrote, or why
that failed. -/
inductive SaveCall where
  | idle
  | waiting
  | entered
  | copied (c : Copy)
  | written (c : Copy)
  | failed (fault : Disk.Fault)
  | published (c : Copy)
  | returned (outcome : Except Disk.Fault Copy)

namespace SaveCall

variable {call : SaveCall} {s s' : Store} {filed filed' : List Copy}

def HoldsLock : SaveCall → Prop
  | .entered | .copied _ | .written _ | .failed _ | .published _ => True
  | _ => False

/-- The copy that a call has made. -/
def copy? : SaveCall → Option Copy
  | .copied c | .written c | .published c | .returned (.ok c) => some c
  | _ => none

/-- The copy of the call has reached the file. -/
def Succeeded : SaveCall → Prop
  | .written _ | .published _ | .returned (.ok _) => True
  | _ => False

/-- What a call may rely on: its copy is not older than what was saved, nor than
what has reached the file, and what it has written is the last that did. -/
def Fits (s : Store) (filed : List Copy) : SaveCall → Prop
  | .copied c =>
    c.Behind s ∧ s.savedGeneration ≤ c.generation ∧ ∀ f ∈ filed, f.generation ≤ c.generation
  | .written c => filed.getLast? = some c
  | .published c | .returned (.ok c) => c ∈ filed
  | _ => True

/-- Without the lock a call relies only on what stays. -/
theorem Fits.of_not_holdsLock (h : call.Fits s filed) (hOutside : ¬ call.HoldsLock)
    (hFiled : filed ⊆ filed') : call.Fits s' filed' := by
  cases call with
  | idle => trivial
  | waiting => trivial
  | returned outcome =>
      cases outcome with
      | error fault => trivial
      | ok c => exact hFiled h
  | _ => exact absurd trivial hOutside

theorem Fits.change {touched : String → Prop} (h : call.Fits s filed)
    (hChange : Change s touched s') : call.Fits s' filed := by
  cases call with
  | copied c =>
      obtain ⟨hBehind, hSaved, hFiled⟩ := h
      exact ⟨hBehind.change hChange, hChange.savedGeneration ▸ hSaved, hFiled⟩
  | returned outcome =>
      cases outcome with
      | error fault => trivial
      | ok c => exact h
  | _ => exact h

end SaveCall

/-! ### Stores in use -/

/-- A store with its disk and the calls of saves on it. The copies that have
reached the file are kept in order. -/
structure Shared (ι : Type) where
  store : Store
  disk : Disk
  lock : Option ι
  calls : ι → SaveCall
  filed : List Copy

namespace Shared

variable {ι : Type} {m m' later : Shared ι} {i j : ι} {c : Copy} {d e : Disk} {s s' : Store}

/-- A store on which no save was called. -/
def start (s : Store) (d : Disk) : Shared ι :=
  ⟨s, d, none, fun _ => .idle, []⟩

/-- The disk is at some moment like this: as it is now, or as the writing of a copy
comes past it. -/
def Passes (m : Shared ι) (e : Disk) : Prop :=
  e = m.disk ∨ ∃ i c, m.calls i = .copied c ∧ Reaches (m.store.writeCopy c) m.disk e

/-- What holds at every moment: one call at most holds the lock, the file has the
last copy that reached it, and no copy is ahead of the store. -/
structure Sound (m : Shared ι) : Prop where
  lock : ∀ i, (m.calls i).HoldsLock → m.lock = some i
  saved : m.store.savedGeneration ≤ m.store.generation
  behind : ∀ c ∈ m.filed, c.Behind m.store
  ordered : m.filed.Pairwise (·.generation ≤ ·.generation)
  file : ∀ c ∈ m.filed.getLast?, m.store.savedGeneration ≤ c.generation ∧
    m.disk.read m.store.path = .ok (Snapshot.content m.store.config.layout c.data)
  calls : ∀ i, (m.calls i).Fits m.store m.filed

theorem sound_start (h : s.savedGeneration ≤ s.generation) : Sound (start s d : Shared ι) :=
  ⟨nofun, h, nofun, .nil, nofun, fun _ => trivial⟩

theorem Sound.eq_of_holdsLock (h : Sound m) (hi : (m.calls i).HoldsLock)
    (hj : (m.calls j).HoldsLock) : j = i :=
  Option.some.inj ((h.lock j hj).symm.trans (h.lock i hi))

/-- While a copy is written, the file holds what it held, or the copy. -/
theorem Sound.read_of_passes (h : Sound m) (hPasses : m.Passes e) :
    e.read m.store.path = m.disk.read m.store.path ∨
      ∃ c : Copy, c.Behind m.store ∧ m.store.savedGeneration ≤ c.generation ∧
        e.read m.store.path = .ok (Snapshot.content m.store.config.layout c.data) := by
  rcases hPasses with rfl | ⟨i, c, hCall, hReaches⟩
  · exact Or.inl rfl
  · rcases Snapshot.reaches_replaceFile hReaches with hBefore | hReplaced
    · exact Or.inl hBefore.read_eq
    · have hFits := h.calls i
      rw [hCall] at hFits
      exact Or.inr ⟨c, hFits.1, hFits.2.1, hReplaced.read⟩

/-! ### Steps -/

variable [DecidableEq ι]

/-- The same with one call in another place. -/
def move (m : Shared ι) (i : ι) (call : SaveCall) : Shared ι :=
  { m with calls := Function.update m.calls i call }

theorem calls_move_self (m : Shared ι) (i : ι) (call : SaveCall) :
    (m.move i call).calls i = call := by
  simp [move]

theorem calls_move_of_ne (h : j ≠ i) (m : Shared ι) (call : SaveCall) :
    (m.move i call).calls j = m.calls j := by
  simp [move, h]

/-- One step of one save. Writing the copy is a single step here; the disks that it
comes past are those of `Passes`. -/
inductive SaveStep (i : ι) (m : Shared ι) : Shared ι → Prop where
  | call (hCall : m.calls i = .idle) : SaveStep i m (m.move i .waiting)
  | enter (hCall : m.calls i = .waiting) (hFree : m.lock = none) :
      SaveStep i m ({ m with lock := some i }.move i .entered)
  | copy (hCall : m.calls i = .entered) : SaveStep i m (m.move i (.copied m.store.copy))
  | write {c : Copy} {trace : List Event} {e : Disk} (hCall : m.calls i = .copied c)
      (hWrite : Runs (m.store.writeCopy c) m.disk trace (.ok ()) e) :
      SaveStep i m ({ m with disk := e, filed := m.filed ++ [c] }.move i (.written c))
  | fail {c : Copy} {trace : List Event} {fault : Disk.Fault} {e : Disk}
      (hCall : m.calls i = .copied c)
      (hWrite : Runs (m.store.writeCopy c) m.disk trace (.error fault) e) :
      SaveStep i m ({ m with disk := e }.move i (.failed fault))
  | publish {c : Copy} (hCall : m.calls i = .written c) :
      SaveStep i m ({ m with store := m.store.publish c }.move i (.published c))
  | leave {c : Copy} (hCall : m.calls i = .published c) :
      SaveStep i m ({ m with lock := none }.move i (.returned (.ok c)))
  | giveUp {fault : Disk.Fault} (hCall : m.calls i = .failed fault) :
      SaveStep i m ({ m with lock := none }.move i (.returned (.error fault)))

/-- One step of a save, one mutation, or anything that happens elsewhere on the
disk. -/
inductive Step (m : Shared ι) : Shared ι → Prop where
  | save {m' : Shared ι} (i : ι) (h : SaveStep i m m') : Step m m'
  | mutate {α : Type} {operation : Operation α} {outcome : Except StoreError α} {s : Store}
      (hMutation : operation.IsMutation)
      (hRuns : Runs (operation.perform m.store) m.disk [] (outcome, s) m.disk) :
      Step m { m with store := s }
  | elsewhere {e : Disk} (hRead : e.read m.store.path = m.disk.read m.store.path) :
      Step m { m with disk := e }

/-- Any number of steps in any order. -/
def Steps : Shared ι → Shared ι → Prop :=
  Relation.ReflTransGen Step

/-! ### What holds at every moment -/

/-- A call may go on where the store and the file stay. -/
theorem Sound.move (h : Sound m) {lock : Option ι} {call : SaveCall}
    (hRead : e.read m.store.path = m.disk.read m.store.path)
    (hLock : call.HoldsLock → lock = some i)
    (hOthers : ∀ j ≠ i, (m.calls j).HoldsLock → lock = some j)
    (hFits : call.Fits m.store m.filed) :
    Sound ({ m with lock := lock, disk := e }.move i call) := by
  refine ⟨?_, h.saved, h.behind, h.ordered, fun c hLast => ?_, ?_⟩
  · exact (Function.forall_update_iff m.calls fun j call => call.HoldsLock → lock = some j).mpr
      ⟨hLock, hOthers⟩
  · obtain ⟨hSaved, hFile⟩ := h.file c hLast
    exact ⟨hSaved, hRead.trans hFile⟩
  · exact (Function.forall_update_iff m.calls fun _ call => call.Fits m.store m.filed).mpr
      ⟨hFits, fun j _ => h.calls j⟩

/-- Who holds the lock may change what is saved, and what is in the file. -/
theorem Sound.move_holding (h : Sound m) {call : SaveCall} {filed : List Copy}
    (hHolds : (m.calls i).HoldsLock) (hSaved : s.savedGeneration ≤ s.generation)
    (hBehind : ∀ c ∈ filed, c.Behind s) (hOrdered : filed.Pairwise (·.generation ≤ ·.generation))
    (hFile : ∀ c ∈ filed.getLast?, s.savedGeneration ≤ c.generation ∧
      e.read s.path = .ok (Snapshot.content s.config.layout c.data))
    (hFiled : m.filed ⊆ filed) (hFits : call.Fits s filed) :
    Sound ({ m with store := s, disk := e, filed := filed }.move i call) := by
  refine ⟨?_, hSaved, hBehind, hOrdered, hFile, ?_⟩
  · exact (Function.forall_update_iff m.calls fun j call => call.HoldsLock → m.lock = some j).mpr
      ⟨fun _ => h.lock i hHolds, fun j _ => h.lock j⟩
  · refine (Function.forall_update_iff m.calls fun _ call => call.Fits s filed).mpr
      ⟨hFits, fun j hOther => ?_⟩
    have hOutside : ¬ (m.calls j).HoldsLock := fun hCall =>
      hOther (h.eq_of_holdsLock hHolds hCall)
    exact (h.calls j).of_not_holdsLock hOutside hFiled

theorem SaveStep.sound (h : SaveStep i m m') (hSound : Sound m) : Sound m' := by
  have hFits := hSound.calls i
  have hHolds := hSound.lock i
  have hOthers : ∀ j ≠ i, (m.calls j).HoldsLock → m.lock = some j := fun j _ => hSound.lock j
  cases h with
  | call hCall => exact hSound.move rfl nofun hOthers trivial
  | enter hCall hFree =>
      refine hSound.move rfl (fun _ => rfl) (fun j hj hOther => ?_) trivial
      rw [hSound.lock j hOther] at hFree
      cases hFree
  | copy hCall =>
      rw [hCall] at hHolds
      exact hSound.move rfl hHolds hOthers
        ⟨behind_copy m.store, hSound.saved, fun f hFiled => (hSound.behind f hFiled).1⟩
  | @write c trace e hCall hWrite =>
      rw [hCall] at hFits
      obtain ⟨hBehind, hSaved, hOrder⟩ := hFits
      refine hSound.move_holding (hCall ▸ trivial) hSound.saved (fun f hFiled => ?_) ?_
        (fun f hLast => ?_) (List.subset_append_left _ _) List.getLast?_concat
      · rcases List.mem_append.mp hFiled with hBefore | hLast
        · exact hSound.behind f hBefore
        · rw [List.mem_singleton.mp hLast]
          exact hBehind
      · refine List.pairwise_append.mpr ⟨hSound.ordered, List.pairwise_singleton _ _,
          fun f hFiled last hLast => ?_⟩
        rw [List.mem_singleton.mp hLast]
        exact hOrder f hFiled
      · obtain rfl : c = f := by simpa using hLast
        exact ⟨hSaved, (Snapshot.replaced_of_runs hWrite).read⟩
  | fail hCall hWrite =>
      rw [hCall] at hHolds
      exact hSound.move (Snapshot.onlyFile_of_runs_error hWrite).1.read_eq hHolds hOthers trivial
  | @publish c hCall =>
      rw [hCall] at hFits
      have hFiled : c ∈ m.filed := List.mem_of_getLast? hFits
      refine hSound.move_holding (hCall ▸ trivial) (hSound.behind c hFiled).1 hSound.behind
        hSound.ordered (fun f hLast => ?_) (List.Subset.refl _) hFiled
      obtain rfl : c = f := Option.some.inj (hFits.symm.trans hLast)
      exact ⟨Nat.le_refl _, (hSound.file c hLast).2⟩
  | leave hCall =>
      rw [hCall] at hFits
      refine hSound.move rfl nofun (fun j hj hOther => ?_) hFits
      exact absurd (hSound.eq_of_holdsLock (hCall ▸ trivial) hOther) hj
  | giveUp hCall =>
      refine hSound.move rfl nofun (fun j hj hOther => ?_) trivial
      exact absurd (hSound.eq_of_holdsLock (hCall ▸ trivial) hOther) hj

theorem Step.sound (h : Step m m') (hSound : Sound m) : Sound m' := by
  cases h with
  | save i hSave => exact hSave.sound hSound
  | @mutate α operation outcome s hMutation hRuns =>
      have hChange := Operation.change_of_isMutation hMutation hRuns
      have hSaved := hChange.savedGeneration
      have hPath : s.path = m.store.path := congrArg Config.path hChange.config
      refine ⟨hSound.lock, ?_, fun c hFiled => (hSound.behind c hFiled).change hChange,
        hSound.ordered, fun c hLast => ?_, fun i => (hSound.calls i).change hChange⟩
      · have hBefore := hSound.saved
        change s.savedGeneration ≤ s.generation
        rcases hChange.generation with rfl | hNext
        · exact hBefore
        · omega
      · change s.savedGeneration ≤ _ ∧ m.disk.read s.path = .ok (Snapshot.content s.config.layout _)
        rw [hSaved, hPath, hChange.config]
        exact hSound.file c hLast
  | elsewhere hRead =>
      refine ⟨hSound.lock, hSound.saved, hSound.behind, hSound.ordered, fun c hLast => ?_,
        hSound.calls⟩
      obtain ⟨hSaved, hFile⟩ := hSound.file c hLast
      exact ⟨hSaved, hRead.trans hFile⟩

theorem Steps.sound (h : Steps m later) (hSound : Sound m) : Sound later := by
  induction h with
  | refl => exact hSound
  | tail steps last ih => exact last.sound ih

/-! ### What a call goes through -/

theorem SaveStep.calls_of_ne (h : SaveStep i m m') (hOther : j ≠ i) : m'.calls j = m.calls j := by
  cases h <;> exact calls_move_of_ne hOther _ _

/-- A save that has a copy has made it before this step, or makes it now. -/
theorem SaveStep.copy? (h : SaveStep i m m') (hCopy : (m'.calls i).copy? = some c) :
    (m.calls i).copy? = some c ∨ m.store.copy = c := by
  cases h with
  | copy hCall =>
      rw [calls_move_self] at hCopy
      exact Or.inr (Option.some.inj hCopy)
  | write hCall | publish hCall | leave hCall =>
      rw [calls_move_self] at hCopy
      rw [hCall]
      exact Or.inl hCopy
  | call hCall | enter hCall | fail hCall | giveUp hCall =>
      rw [calls_move_self] at hCopy
      cases hCopy

theorem SaveStep.succeeded (h : SaveStep i m m') (hBefore : (m.calls i).Succeeded) :
    (m'.calls i).Succeeded := by
  cases h with
  | write hCall | publish hCall | leave hCall =>
      rw [calls_move_self]
      trivial
  | call hCall | enter hCall | copy hCall | fail hCall | giveUp hCall =>
      rw [hCall] at hBefore
      cases hBefore

theorem Step.copy? (h : Step m m') (hCopy : (m'.calls i).copy? = some c) :
    (m.calls i).copy? = some c ∨ m.store.copy = c := by
  cases h with
  | save j hSave =>
      by_cases hSame : i = j
      · subst hSame
        exact hSave.copy? hCopy
      · rw [hSave.calls_of_ne hSame] at hCopy
        exact Or.inl hCopy
  | mutate hMutation hRuns => exact Or.inl hCopy
  | elsewhere hRead => exact Or.inl hCopy

/-- The copy that a call has made in the meantime is the content of a moment in
between. -/
theorem Steps.copy? (h : Steps m later) (hCopy : (later.calls i).copy? = some c) :
    (m.calls i).copy? = some c ∨
      ∃ middle, Steps m middle ∧ Steps middle later ∧ middle.store.copy = c := by
  induction h with
  | refl => exact Or.inl hCopy
  | tail steps last ih =>
      rcases last.copy? hCopy with hBefore | hNow
      · exact (ih hBefore).imp_right fun ⟨middle, hFirst, hRest, hSame⟩ =>
          ⟨middle, hFirst, hRest.tail last, hSame⟩
      · exact Or.inr ⟨_, steps, .single last, hNow⟩

theorem Step.succeeded (h : Step m m') (hBefore : (m.calls i).Succeeded) :
    (m'.calls i).Succeeded := by
  cases h with
  | save j hSave =>
      by_cases hSame : i = j
      · subst hSame
        exact hSave.succeeded hBefore
      · rwa [hSave.calls_of_ne hSame]
  | mutate hMutation hRuns => exact hBefore
  | elsewhere hRead => exact hBefore

theorem Steps.succeeded (h : Steps m later) (hBefore : (m.calls i).Succeeded) :
    (later.calls i).Succeeded := by
  induction h with
  | refl => exact hBefore
  | tail steps last ih => exact last.succeeded ih

/-- No step of a save that fails in the end touches the store or the file. -/
theorem SaveStep.kept_of_error {fault : Disk.Fault} (h : SaveStep i m m')
    (hRest : Steps m' later) (hFails : later.calls i = .returned (.error fault)) :
    m'.store = m.store ∧ m'.disk.read m.store.path = m.disk.read m.store.path := by
  have hNever : ¬ (m'.calls i).Succeeded := fun hBefore => by
    have hLast := hRest.succeeded hBefore
    rw [hFails] at hLast
    exact hLast
  cases h with
  | write hCall hWrite => exact absurd (by rw [calls_move_self]; trivial) hNever
  | publish hCall => exact absurd (by rw [calls_move_self]; trivial) hNever
  | fail hCall hWrite => exact ⟨rfl, (Snapshot.onlyFile_of_runs_error hWrite).1.read_eq⟩
  | _ => exact ⟨rfl, rfl⟩

/-- A save that nothing comes between. -/
theorem steps_of_save {trace : List Event} {outcome : Except StoreError Unit}
    (hCall : m.calls i = .idle) (hFree : m.lock = none)
    (h : Runs m.store.save m.disk trace (outcome, s') e) :
    ∃ (later : Shared ι) (saved : Except Disk.Fault Copy), Steps m later ∧
      later.store = s' ∧ later.disk = e ∧ later.calls i = .returned saved ∧
      match saved with
        | .ok c => outcome = .ok () ∧ later.filed = m.filed ++ [c]
        | .error fault => outcome = .error (.disk fault) ∧ later.filed = m.filed := by
  obtain ⟨written, hWrite, hOutcome⟩ := runs_save h
  have hWaiting : Steps m (m.move i .waiting) := .single (.save i (.call hCall))
  have hEntered := hWaiting.tail (.save i (.enter (calls_move_self m i _) hFree))
  have hCopied := hEntered.tail (.save i (.copy (calls_move_self _ i _)))
  cases written with
  | error fault =>
      obtain ⟨rfl, rfl⟩ := hOutcome
      have hFailed := hCopied.tail (.save i (.fail (calls_move_self _ i _) hWrite))
      have hReturned := hFailed.tail (.save i (.giveUp (calls_move_self _ i _)))
      exact ⟨_, .error fault, hReturned, rfl, rfl, calls_move_self _ i _, rfl, rfl⟩
  | ok _ =>
      obtain ⟨rfl, rfl⟩ := hOutcome
      have hWritten := hCopied.tail (.save i (.write (calls_move_self _ i _) hWrite))
      have hPublished := hWritten.tail (.save i (.publish (calls_move_self _ i _)))
      have hReturned := hPublished.tail (.save i (.leave (calls_move_self _ i _)))
      exact ⟨_, .ok m.store.copy, hReturned, rfl, rfl, calls_move_self _ i _, rfl, rfl⟩

/-- What a whole save leaves that succeeds and that nothing comes between, whatever has come
before: the store is clean, its content is in the file, and no copy that reached the file
earlier is from a later generation. -/
theorem Sound.save_ok {trace : List Event} (h : Sound m) (hCall : m.calls i = .idle)
    (hFree : m.lock = none) (hRuns : Runs m.store.save m.disk trace (.ok (), s') e) :
    s'.data = m.store.data ∧ s'.isDirty = false ∧
      e.read s'.path = .ok (Snapshot.content s'.config.layout s'.data) ∧
      ∃ later c, Steps m later ∧ Sound later ∧ later.store = s' ∧ later.disk = e ∧
        later.filed = m.filed ++ [c] ∧ c.data = s'.data ∧
        ∀ f ∈ m.filed, f.generation ≤ c.generation := by
  obtain ⟨later, saved, hSteps, rfl, rfl, -, hSaved⟩ := steps_of_save hCall hFree hRuns
  obtain ⟨hPublished, -⟩ := runs_save_ok hRuns
  have hClean : later.store.isDirty = false := by
    rw [hPublished]
    exact decide_eq_false (not_not.mpr rfl)
  cases saved with
  | error fault => cases hSaved.1
  | ok c =>
      obtain ⟨-, hFiled⟩ := hSaved
      have hLater := hSteps.sound h
      have hLast : c ∈ later.filed.getLast? := by
        rw [hFiled]
        exact List.getLast?_concat
      obtain ⟨hGeneration, hRead⟩ := hLater.file c hLast
      have hData : c.data = later.store.data :=
        (hLater.behind c (List.mem_of_getLast? hLast)).eq_data hGeneration hClean
      rw [hData] at hRead
      refine ⟨by rw [hPublished]; rfl, hClean, hRead, later, c, hSteps, hLater, rfl, rfl, hFiled,
        hData, fun f hBefore => ?_⟩
      have hOrdered := hLater.ordered
      rw [hFiled] at hOrdered
      exact (List.pairwise_append.mp hOrdered).2.2 f hBefore c (List.mem_singleton_self c)

/-- One that fails leaves the store and the file as they were, and no copy has come to the
file. -/
theorem Sound.save_error {trace : List Event} {error : StoreError} (h : Sound m)
    (hCall : m.calls i = .idle) (hFree : m.lock = none)
    (hRuns : Runs m.store.save m.disk trace (.error error, s') e) :
    s' = m.store ∧ e.read m.store.path = m.disk.read m.store.path ∧
      ∃ later, Steps m later ∧ Sound later ∧ later.store = m.store ∧ later.disk = e ∧
        later.filed = m.filed := by
  obtain ⟨rfl, hOnly⟩ := runs_save_error hRuns
  obtain ⟨later, saved, hSteps, hStore, hDisk, -, hSaved⟩ := steps_of_save hCall hFree hRuns
  cases saved with
  | error fault =>
      exact ⟨rfl, hOnly.read_eq, later, hSteps, hSteps.sound h, hStore, hDisk, hSaved.2⟩
  | ok c => cases hSaved.1

/-- Any number of mutations and saves, with their steps in any order, on a store that
was opened or saved before. The generation that counts as saved is not ahead. The
copies that reach the file do so in the order of their generations, and the file
holds the last of them. After a successful save, as soon as the store is not dirty,
the file holds its content, also while another copy is being written. A save that
fails leaves the store with both of its counters, and the file; and the copy of a
save that succeeds is the content of a moment after it was called, with all the
mutations that came before. -/
theorem saves_ordered {m : Shared ι} (hStart : s.savedGeneration ≤ s.generation)
    (hSteps : Steps (start s d) m) :
    m.store.savedGeneration ≤ m.store.generation ∧
    m.filed.Pairwise (fun before after => before.generation ≤ after.generation) ∧
    (∀ c, m.filed.getLast? = some c →
      m.disk.read m.store.path = .ok (Snapshot.content m.store.config.layout c.data)) ∧
    (∀ i c, m.calls i = .returned (.ok c) → c ∈ m.filed) ∧
    (m.store.isDirty = false → m.filed ≠ [] → ∀ e, m.Passes e →
      e.read m.store.path = .ok (Snapshot.content m.store.config.layout m.store.data)) ∧
    (∀ i m' later fault, SaveStep i m m' → Steps m' later →
      later.calls i = .returned (.error fault) →
      m'.store = m.store ∧ m'.disk.read m.store.path = m.disk.read m.store.path) ∧
    (∀ i later c, m.calls i = .idle → Steps m later → later.calls i = .returned (.ok c) →
      ∃ middle, Steps m middle ∧ Steps middle later ∧ middle.store.copy = c) := by
  have hSound := hSteps.sound (sound_start hStart)
  refine ⟨hSound.saved, hSound.ordered, fun c hLast => (hSound.file c hLast).2,
    fun i c hCall => ?_, fun hClean hFiled e hPasses => ?_,
    fun i m' later fault hStep hRest hFails => hStep.kept_of_error hRest hFails,
    fun i later c hIdle hRest hCall => ?_⟩
  · have hFits := hSound.calls i
    rw [hCall] at hFits
    exact hFits
  · rcases hSound.read_of_passes hPasses with hBefore | ⟨c, hBehind, hSaved, hRead⟩
    · obtain ⟨hSaved, hRead⟩ := hSound.file _ (List.getLast?_eq_some_getLast hFiled)
      rw [hBefore, hRead, (hSound.behind _ (List.getLast_mem hFiled)).eq_data hSaved hClean]
    · rw [hRead, hBehind.eq_data hSaved hClean]
  · refine (hRest.copy? (by rw [hCall]; rfl)).resolve_left fun hBefore => ?_
    rw [hIdle] at hBefore
    cases hBefore

/-- After a value is set, one save puts it in the file while another one waits. -/
theorem saves_ordered_waiting : ∃ m : Shared Bool,
    Steps (start (opened localConfig .empty) .empty) m ∧ m.calls false = .waiting ∧
    m.store.get? "k" = some (.bool true) ∧ m.store.generation = 1 ∧ m.store.isDirty = false ∧
    m.disk.read ⟨"s.json"⟩ = .ok (Snapshot.content .pretty m.store.data) := by
  let first : Store := opened localConfig .empty
  let changed : Store := first.withSlot "k" (some (.bool true))
  have hMutation : (Operation.set "k" (.bool true)).IsMutation := trivial
  have hSet : Runs ((Operation.set "k" (.bool true)).perform first) .empty [] (.ok (), changed)
      .empty := .done _ _
  have hReplaced : ∀ content, ∃ trace e,
      Runs (Snapshot.replaceFile ⟨"s.json"⟩ content true) .empty trace (.ok ()) e := fun content =>
    ⟨_, _, .ask (.answered 0 rfl) (.ask (.answered 0 rfl) (.ask (.answered 0 rfl)
      (.ask (.answered 0 rfl) (.ask (.answered 0 rfl) (.done _ _)))))⟩
  have hPath : changed.path = ⟨"s.json"⟩ := by decide
  obtain ⟨trace, e, hWrite⟩ : ∃ trace e,
      Runs (changed.writeCopy changed.copy) .empty trace (.ok ()) e := by
    unfold writeCopy
    rw [hPath]
    exact hReplaced _
  have hChanged : Steps (start first .empty : Shared Bool) _ :=
    .single (.mutate hMutation hSet)
  have hCalled := hChanged.tail (.save true (.call rfl))
  have hWaiting := hCalled.tail (.save false (.call rfl))
  have hEntered := hWaiting.tail (.save true (.enter rfl rfl))
  have hCopied := hEntered.tail (.save true (.copy (calls_move_self _ _ _)))
  have hWritten := hCopied.tail (.save true (.write (calls_move_self _ _ _) hWrite))
  have hPublished := hWritten.tail (.save true (.publish (calls_move_self _ _ _)))
  have hLeft := hPublished.tail (.save true (.leave (calls_move_self _ _ _)))
  obtain ⟨-, -, -, -, hClean, -⟩ := saves_ordered (Nat.le_refl 0) hLeft
  have hRead : e.read changed.path = .ok (Snapshot.content .pretty changed.data) :=
    hClean rfl nofun e (Or.inl rfl)
  rw [hPath] at hRead
  exact ⟨_, hLeft, rfl, rfl, rfl, rfl, hRead⟩

end Shared

end SnapshotStore
