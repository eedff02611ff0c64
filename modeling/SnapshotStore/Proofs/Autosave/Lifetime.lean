import SnapshotStore.Proofs.Autosave.Leaving
import SnapshotStore.Proofs.Autosave.Undisturbed

/-! An autosaver from its start to its end. As long as its owner does not call for the end
it sees to ticks, whatever becomes of the saves. Between the call and its return the
worker ends first; then the last pass goes over the stores, if there is one, and the
target is let go. -/
namespace SnapshotStore.Autosaver

open Disk Store
open Program (Runs)

/-- The owner ends the autosaver without a last save. -/
def Owner.LetsGo (owner : Owner) : Prop :=
  owner = .dropping ∨ owner.HasLeft ∧ owner.last? = none

/-- Letting go is no way to a last pass. -/
theorem Owner.Moves.letsGo {owner owner' : Owner} {action : Action}
    (h : owner.Moves action owner') (hLetsGo : owner.LetsGo) :
    action ≠ .join ∧ action ≠ .save ∧ owner'.LetsGo := by
  rcases hLetsGo with rfl | ⟨hLeft, hLast⟩
  · cases h with
    | leave => exact ⟨nofun, nofun, Or.inr ⟨trivial, rfl⟩⟩
  · refine ⟨?_, ?_, Or.inr ⟨h.hasLeft hLeft, (h.last_eq hLeft).trans hLast⟩⟩
    · rintro rfl
      cases h with
      | join => cases hLeft
    · rintro rfl
      cases h with
      | save => cases hLeft

namespace Running

variable {r r' first middle : Running} {action : Action} {past log : List Action}
  {name : String} {t : Tick} {p p' : Pass} {s : Store}

/-! ### Passes that nothing comes between -/

theorem ran_of_works {q q' : Saving} (h : Saving.Steps r.target q q') : ∃ n,
    Ran { r with manager := q.manager, disk := q.disk, worker := .busy t q.pass }
      (List.replicate n .work)
      { r with manager := q'.manager, disk := q'.disk, worker := .busy t q'.pass } := by
  induction h using Relation.ReflTransGen.head_induction_on with
  | refl => exact ⟨0, .nil _⟩
  | head step rest ih =>
      obtain ⟨n, hRan⟩ := ih
      exact ⟨n + 1, .cons (.work rfl step) hRan⟩

theorem ran_of_saves {q q' : Saving} (h : Saving.Steps r.target q q') : ∃ n,
    Ran { r with manager := q.manager, disk := q.disk, owner := .saving q.pass }
      (List.replicate n .save)
      { r with manager := q'.manager, disk := q'.disk, owner := .saving q'.pass } := by
  induction h using Relation.ReflTransGen.head_induction_on with
  | refl => exact ⟨0, .nil _⟩
  | head step rest ih =>
      obtain ⟨n, hRan⟩ := ih
      exact ⟨n + 1, .cons (.save rfl step) hRan⟩

/-- A pass of the worker can come to its end, and then the worker waits again. -/
theorem ran_of_busy (hSound : r.Sound) (hCovering : r.Covering) (hBusy : r.worker = .busy t p) :
    ∃ n m e, Ran r (List.replicate n .work ++ [.rest])
      { r with manager := m, disk := e, worker := .waiting } := by
  have hHolds : ¬ r.owner.HasLeft := fun hLeft => by
    rw [hSound.alone hLeft.hasJoined] at hBusy
    cases hBusy
  have hPass : r.pass? = some p := pass?_of_busy hBusy
  obtain ⟨q, hSteps, hOver⟩ := Saving.exists_steps_isOver r.target (hSound.pass p hPass)
    (hCovering p hPass) fun name hCovers => hSound.exists_store hHolds hCovers
  obtain ⟨target, manager, disk, worker, owner, held⟩ := r
  obtain rfl : worker = .busy t p := hBusy
  obtain ⟨n, hWorks⟩ := ran_of_works (r := ⟨target, manager, disk, _, owner, held⟩) (t := t) hSteps
  exact ⟨n, q.manager, q.disk, hWorks.append (.cons (.rest rfl hOver) (.nil _))⟩

/-- So can the last pass of the owner. -/
theorem ran_of_saving (hSound : r.Sound) (hCovering : r.Covering) (hSaving : r.owner = .saving p) :
    ∃ n m e q, Ran r (List.replicate n .save)
      { r with manager := m, disk := e, owner := .saving q } ∧ q.IsOver := by
  have hHolds : ¬ r.owner.HasLeft := by
    rw [hSaving]
    exact id
  obtain ⟨-, hPass⟩ := hSound.of_saving hSaving
  obtain ⟨q, hSteps, hOver⟩ := Saving.exists_steps_isOver r.target (hSound.pass p hPass)
    (hCovering p hPass) fun name hCovers => hSound.exists_store hHolds hCovers
  obtain ⟨target, manager, disk, worker, owner, held⟩ := r
  obtain rfl : owner = .saving p := hSaving
  obtain ⟨n, hSaves⟩ := ran_of_saves (r := ⟨target, manager, disk, worker, _, held⟩) hSteps
  exact ⟨n, q.manager, q.disk, q.pass, hSaves, hOver⟩

/-- A tick that nothing comes between does what seeing to it does, and then the worker
waits again, whatever has become of the saves. -/
theorem ran_of_seesTo {trace : List Event} {m : Manager} {e : Disk} (hRegular : r.manager.Regular)
    (hWaiting : r.worker = .waiting) (h : SeesTo t r.manager r.disk r.target trace m e) :
    ∃ n, Ran r (.tick t :: (List.replicate n .work ++ [.rest]))
      { r with manager := m, disk := e, worker := .waiting } := by
  obtain ⟨names, q, hListed, hSteps, hOver⟩ := h.steps hRegular
  obtain ⟨n, hWorks⟩ := ran_of_works (r := r) (t := t) hSteps
  exact ⟨n, .cons (.tick t hWaiting hListed) (hWorks.append (.cons (.rest rfl hOver) (.nil _)))⟩

/-- A last pass that nothing comes between does what saving the target does, and reports
the same. -/
theorem ran_of_lastSave {trace : List Event} {m : Manager} {e : Disk}
    {outcome : Except StoreError Unit} (hRegular : r.manager.Regular)
    (hStopping : r.owner = .stopping) (hEnded : r.worker = .ended)
    (h : Saves r.manager r.disk r.target trace outcome m e) :
    ∃ n p, Ran r (.join :: List.replicate n .save)
      { r with manager := m, disk := e, owner := .saving p } ∧ p.IsOver ∧ p.outcome = outcome := by
  obtain ⟨names, q, hListed, hSteps, hOver, hOutcome⟩ := h.steps hRegular
  obtain ⟨n, hSaves⟩ := ran_of_saves (r := r) hSteps
  exact ⟨n, q, .cons (.join hStopping hEnded hListed) hSaves, hOver, hOutcome⟩

/-! ### The end of an autosaver -/

/-- When the owner has seen the worker end, no further pass begins. -/
theorem Step.joined (h : Step r action r') (hSound : r.Sound) (hJoined : r.owner.HasJoined) :
    action.begun? = none ∧ r'.owner.HasJoined := by
  rcases h.owner_cases with hMoves | ⟨hSame, ⟨-, hBusy⟩ | hOther⟩
  · exact hMoves.joined hJoined
  · exact absurd (hSound.alone hJoined) hBusy
  · rw [hSame]
    exact ⟨Action.begun?_eq_none hOther, hJoined⟩

theorem Ran.joined (h : Ran r log r') (hSound : r.Sound) (hJoined : r.owner.HasJoined) :
    ∀ action ∈ log, action.begun? = none := by
  induction h with
  | nil r => exact fun _ => nofun
  | cons first rest ih =>
      obtain ⟨hFirst, hJoined'⟩ := first.joined hSound hJoined
      exact List.forall_mem_cons.mpr ⟨hFirst, ih (first.sound hSound) hJoined'⟩

/-- When the call that ends the autosaver has returned, nothing of it goes on. -/
theorem Step.done (h : Step r action r') (hSound : r.Sound) (hDone : r.owner.IsDone) :
    ¬ action.OfAutosaver ∧ r'.owner = r.owner := by
  rcases h.owner_cases with hMoves | ⟨hSame, ⟨-, hBusy⟩ | hOther⟩
  · exact absurd hDone hMoves.not_isDone
  · exact absurd (hSound.alone hDone.hasLeft.hasJoined) hBusy
  · exact ⟨hOther, hSame⟩

theorem Ran.done (h : Ran r log r') (hSound : r.Sound) (hDone : r.owner.IsDone) :
    r'.owner = r.owner ∧ ∀ action ∈ log, ¬ action.OfAutosaver := by
  induction h with
  | nil r => exact ⟨rfl, fun _ => nofun⟩
  | cons first rest ih =>
      obtain ⟨hFirst, hOwner⟩ := first.done hSound hDone
      obtain ⟨hOwner', hRest⟩ := ih (first.sound hSound) (hOwner ▸ hDone)
      exact ⟨hOwner'.trans hOwner, List.forall_mem_cons.mpr ⟨hFirst, hRest⟩⟩

/-- Until the worker has ended, the owner who has called for the end waits for that. -/
theorem Step.stopping (h : Step r action r') (hStopping : r.owner = .stopping) :
    action = .join ∨ r'.owner = .stopping := by
  rcases h.owner_cases with hMoves | ⟨hSame, -⟩
  · exact Or.inl (hStopping ▸ hMoves).eq_of_stopping
  · exact Or.inr (hSame.trans hStopping)

/-- What holds at first and not in the end is ended by one of the actions that may end it. -/
theorem Ran.split {P : Running → Prop} {Q : Action → Prop}
    (hStep : ∀ r action r', Step r action r' → P r → Q action ∨ P r') (h : Ran r log r')
    (hFirst : P r) (hLast : ¬ P r') : ∃ before middle action next after,
      log = before ++ action :: after ∧ Q action ∧ Ran r before middle ∧ P middle ∧
      Step middle action next ∧ Ran next after r' := by
  induction h with
  | nil r => exact absurd hFirst hLast
  | cons first rest ih =>
      rcases hStep _ _ _ first hFirst with hEnds | hMiddle
      · exact ⟨[], _, _, _, _, rfl, hEnds, .nil _, hFirst, first, rest⟩
      · obtain ⟨before, middle, action, next, after, rfl, hEnds, hBefore, hAfter⟩ :=
          ih hMiddle hLast
        exact ⟨_ :: before, middle, action, next, after, rfl, hEnds, .cons first hBefore, hAfter⟩

/-- An owner that saves for a last time has joined the worker on its way. -/
theorem Ran.split_join (h : Ran r log r') (hStopping : r.owner = .stopping)
    (hSaving : r'.owner = .saving p) :
    ∃ before joined next after, log = before ++ .join :: after ∧ Ran r before joined ∧
      Step joined .join next ∧ Ran next after r' := by
  have hLast : ¬ r'.owner = .stopping := by
    rw [hSaving]
    nofun
  obtain ⟨before, joined, _, next, after, rfl, rfl, hBefore, -, hJoin⟩ :=
    h.split (Q := (· = .join)) (fun _ _ _ hStep => hStep.stopping) hStopping hLast
  exact ⟨before, joined, next, after, rfl, hBefore, hJoin⟩

/-- What was the last pass when the owner left is so from then on. -/
theorem Step.last_eq (h : Step r action r') (hLeft : r.owner.HasLeft) :
    r'.owner.last? = r.owner.last? := by
  rcases h.owner_cases with hMoves | ⟨hSame, -⟩
  · exact hMoves.last_eq hLeft
  · rw [hSame]

theorem Ran.last_eq (h : Ran r log r') (hLeft : r.owner.HasLeft) :
    r'.owner.last? = r.owner.last? := by
  induction h with
  | nil r => rfl
  | cons first rest ih => exact (ih (first.hasLeft hLeft)).trans (first.last_eq hLeft)

theorem Step.leaves (h : Step r action r') (hNot : ¬ r.owner.HasLeft) :
    action = .leave ∨ ¬ r'.owner.HasLeft := by
  rcases h.owner_cases with hMoves | ⟨hSame, -⟩
  · exact hMoves.leaves hNot
  · rw [hSame]
    exact Or.inr hNot

/-- An owner that has left after a last pass has come to the end of that pass before. -/
theorem Ran.split_leave (h : Ran r log r') (hNot : ¬ r.owner.HasLeft)
    (hLast : r'.owner.last? = some p) :
    ∃ before saved left after, log = before ++ .leave :: after ∧ Ran r before saved ∧
      saved.owner = .saving p ∧ p.IsOver ∧ Step saved .leave left ∧ Ran left after r' := by
  obtain ⟨before, saved, _, left, after, rfl, rfl, hBefore, -, hLeave, hAfter⟩ :=
    h.split (P := fun r => ¬ r.owner.HasLeft) (Q := (· = .leave))
      (fun _ _ _ hStep => hStep.leaves) hNot (not_not.mpr (Owner.hasLeft_of_last? hLast))
  have hSame := hAfter.last_eq (by cases hLeave with | leave => trivial)
  rw [hLast] at hSame
  have hMay : saved.MayLeave (some p) := by
    cases hLeave with
    | leave hMay => exact hSame ▸ hMay
  cases hMay with
  | saving hSaving hOver =>
      exact ⟨before, saved, left, after, rfl, hBefore, hSaving, hOver, hLeave, hAfter⟩

theorem Step.letsGo (h : Step r action r') (hLetsGo : r.owner.LetsGo) :
    action ≠ .join ∧ action ≠ .save ∧ r'.owner.LetsGo := by
  rcases h.owner_cases with hMoves | ⟨hSame, hNot⟩
  · exact hMoves.letsGo hLetsGo
  · have hOwners : action = .join ∨ action = .save → False := by
      rintro (rfl | rfl) <;> exact hNot.elim And.left (absurd trivial)
    exact ⟨fun hJoin => hOwners (Or.inl hJoin), fun hSave => hOwners (Or.inr hSave), by rwa [hSame]⟩

theorem Ran.letsGo (h : Ran r log r') (hLetsGo : r.owner.LetsGo) :
    .join ∉ log ∧ .save ∉ log ∧ r'.owner.LetsGo := by
  induction h with
  | nil r => exact ⟨nofun, nofun, hLetsGo⟩
  | cons first rest ih =>
      obtain ⟨hJoin, hSave, hLetsGo'⟩ := first.letsGo hLetsGo
      obtain ⟨hNoJoin, hNoSave, hLast⟩ := ih hLetsGo'
      exact ⟨List.not_mem_cons_of_ne_of_not_mem hJoin.symm hNoJoin,
        List.not_mem_cons_of_ne_of_not_mem hSave.symm hNoSave, hLast⟩

theorem Step.running (h : Step r action r') (hRunning : r.owner = .running) :
    (action = .shutdown ∨ action = .drop) ∨ r'.owner = .running := by
  rcases h.owner_cases with hMoves | ⟨hSame, -⟩
  · exact Or.inl (hRunning ▸ hMoves).eq_of_running
  · exact Or.inr (hSame.trans hRunning)

/-- Where a last save is made, it was called for. -/
theorem Ran.split_shutdown (h : Ran r log r') (hRunning : r.owner = .running)
    (hSaving : r'.owner = .saving p) :
    ∃ before called next after, log = before ++ .shutdown :: after ∧ Ran r before called ∧
      Step called .shutdown next ∧ Ran next after r' := by
  have hLast : ¬ r'.owner = .running := by
    rw [hSaving]
    nofun
  obtain ⟨before, called, _, next, after, rfl, rfl | rfl, hBefore, -, hCalls, hAfter⟩ :=
    h.split (Q := fun action => action = .shutdown ∨ action = .drop)
      (fun _ _ _ hStep => hStep.running) hRunning hLast
  · exact ⟨before, called, next, after, rfl, hBefore, hCalls, hAfter⟩
  · obtain ⟨-, -, hLetsGo⟩ := hAfter.letsGo (by cases hCalls with | drop => exact Or.inl rfl)
    rw [hSaving] at hLetsGo
    rcases hLetsGo with hDropping | ⟨hLeft, -⟩
    · cases hDropping
    · cases hLeft

/-- A last pass comes after a call for it, and after the worker that it has waited for. -/
theorem Ran.split_lastSave (h : Ran r log r') (hRunning : r.owner = .running)
    (hSaving : r'.owner = .saving p) :
    ∃ before called between joined next after,
      log = before ++ .shutdown :: (between ++ .join :: after) ∧ Ran r before called ∧
      Ran called (.shutdown :: between) joined ∧ Step joined .join next ∧ Ran next after r' := by
  obtain ⟨before, called, stopping, rest, rfl, hBefore, hCall, hRest⟩ :=
    h.split_shutdown hRunning hSaving
  have hStopping : stopping.owner = .stopping := by
    cases hCall with
    | shutdown => rfl
  obtain ⟨between, joined, next, after, rfl, hBetween, hJoin, hAfter⟩ :=
    hRest.split_join hStopping hSaving
  exact ⟨before, called, between, joined, next, after, rfl, hBefore, .cons hCall hBetween, hJoin,
    hAfter⟩

/-! ### Ticks -/

/-- A busy worker has begun with a tick, and no other pass has begun since. -/
theorem Ran.split_tick (h : Ran r log r') (hSound : r.Sound) (hBusy : r'.worker = .busy t p) :
    ((∃ q, r.worker = .busy t q) ∧ ∀ action ∈ log, action.begun? = none) ∨
    ∃ before begun next after, log = before ++ .tick t :: after ∧ Ran r before begun ∧
      Step begun (.tick t) next ∧ Ran next after r' ∧ ∀ action ∈ after, action.begun? = none := by
  induction h with
  | nil r => exact Or.inl ⟨⟨p, hBusy⟩, fun _ => nofun⟩
  | @cons action log r middle r' first rest ih =>
      rcases ih (first.sound hSound) hBusy with ⟨⟨q, hMiddle⟩, hNone⟩ |
        ⟨before, begun, next, after, rfl, hBefore, hTick, hAfter, hNone⟩
      · cases first with
        | tick u hWaiting hListed =>
            obtain ⟨rfl, rfl⟩ := Worker.busy.inj hMiddle
            exact Or.inr ⟨[], _, _, _, rfl, .nil _, .tick u hWaiting hListed, rest, hNone⟩
        | work hBefore hStep =>
            obtain ⟨rfl, rfl⟩ := Worker.busy.inj hMiddle
            exact Or.inl ⟨⟨_, hBefore⟩, List.forall_mem_cons.mpr ⟨rfl, hNone⟩⟩
        | rest | quit => cases hMiddle
        | join hOwner hEnded hListed =>
            rw [hEnded] at hMiddle
            cases hMiddle
        | _ => exact Or.inl ⟨⟨q, hMiddle⟩, List.forall_mem_cons.mpr ⟨rfl, hNone⟩⟩
      · exact Or.inr ⟨_ :: before, begun, next, after, rfl, .cons first hBefore, hTick, hAfter,
          hNone⟩

/-! ### After a last pass -/

/-- A last pass that has succeeded leaves nothing to save of what was not changed since it
began, also not of stores that were opened in the meantime. -/
theorem cleanAt_of_lastSave (hSound : r.Sound) (first : Step r .join middle)
    (h : Ran middle log r') (hNone : ∀ action ∈ log, action.begun? = none)
    (hSaving : r'.owner = .saving p) (hOver : p.IsOver) (hOutcome : p.outcome = .ok ())
    (hSame : .mutate name ∉ Action.join :: log) (hCovers : r'.target.Covers r'.manager name) :
    r'.CleanAt name := by
  intro s hStore
  have hRan : Ran r (.join :: log) r' := .cons first h
  have hMiddle := first.sound hSound
  have hPass : r'.pass? = some p := ((hRan.sound hSound).of_saving hSaving).2
  have hHolds : ¬ r'.owner.HasLeft := by
    rw [hSaving]
    exact id
  have hAccount := h.account first rfl hNone hSound hPass
  by_cases hSaved : ∃ c, (name, .ok c) ∈ p.saved
  · obtain ⟨c, hSaved⟩ := hSaved
    exact hAccount.clean_of_saved hSound hHolds hSaved hSame hStore
  have hNot : ¬ p.Wrote name := by
    rintro (hWrote | ⟨c, left, hStage⟩)
    · exact hSaved hWrote
    · rcases hOver with hEnd | hEnd <;> (rw [hStage] at hEnd; cases hEnd)
  have hNew : ¬ r.target.Covers r.manager name := fun hBefore => by
    obtain ⟨result, hResult, hOk⟩ := hAccount.due hOver name hBefore nofun
    obtain ⟨c, rfl⟩ := hOk hOutcome
    exact hSaved ⟨c, hResult⟩
  rw [hRan.target_eq] at hCovers
  obtain ⟨names, -, -, hManager⟩ := first.begun (t := .save) rfl
  have hMissing : middle.CleanAt name := fun found hFound => by
    rw [hManager, hCovers.get?_eq_none hNew] at hFound
    cases hFound
  exact h.cleanAt hNone hMiddle hPass hNot (List.not_mem_of_not_mem_cons hSame) hMissing s hStore

/-- It is so still when the owner has left, whatever it has let go. -/
theorem cleanAt_of_left {saved left : Running} (hSound : saved.Sound)
    (hLeave : Step saved .leave left) (h : Ran left log r) (hSame : .mutate name ∉ log)
    (hCovers : r.target.Covers r.manager name)
    (hClean : saved.target.Covers saved.manager name → saved.CleanAt name) : r.CleanAt name := by
  have hManager : left.manager = saved.manager := by
    cases hLeave with
    | leave => rfl
  have hQuiet : left.IsQuiet :=
    (hLeave.sound hSound).isQuiet (by cases hLeave with | leave => trivial)
  refine h.cleanAt_of_isQuiet (hLeave.sound hSound) hQuiet hSame fun s hStore => ?_
  rw [hManager] at hStore
  refine hClean ?_ s hStore
  rw [h.target_eq, hLeave.target_eq] at hCovers
  cases hTarget : saved.target with
  | store own =>
      rw [hTarget] at hCovers
      exact hCovers
  | all => exact KeyMap.mem_keys_iff_exists.mpr ⟨s, hStore⟩

/-! ### What an autosaver keeps to -/

/-- What a shutdown that has made its last pass, and has left, has done before. The call came,
the worker ended, the pass began when the owner had joined it, and was over before the
owner left. If it has succeeded, each store that was covered when it began has a copy
from then or later in its file, with all that was done before the call; and what was not
changed since the call has nothing to save. -/
def HasSaved (first : Running) (past : List Action) (r : Running) (p : Pass) : Prop :=
  ∃ before called between joined log saved left after,
    past = before ++ .shutdown :: (between ++ .join :: (log ++ .leave :: after)) ∧
    Ran first before called ∧ Ran called (.shutdown :: between) joined ∧
    Ran joined (.join :: log) saved ∧ Step saved .leave left ∧ Ran left after r ∧
    saved.owner = .saving p ∧ p.IsOver ∧ Account joined (.join :: log) saved .save p ∧
    (p.outcome = .ok () →
      (∀ name, r.target.Covers joined.manager name → ∃ c,
        MadeDuring joined (.join :: log) saved name c ∧
        (∀ s, called.manager.stores.get? name = some s → s.generation ≤ c.generation) ∧
        Filed saved.manager saved.disk name c ∧ Stays left after r name c) ∧
      ∀ name, r.target.Covers r.manager name →
        .mutate name ∉ between ++ .join :: (log ++ .leave :: after) → r.CleanAt name)

theorem hasSaved (hStart : first.Starts) (hRan : Ran first past r)
    (hLast : r.owner.last? = some p) : HasSaved first past r p := by
  have hNot : ¬ first.owner.HasLeft := by
    rw [hStart.owner]
    exact id
  obtain ⟨front, saved, left, after, rfl, hFront, hSaving, hOver, hLeave, hAfter⟩ :=
    hRan.split_leave hNot hLast
  obtain ⟨before, called, between, joined, next, log, rfl, hBefore, hWaited, hJoin, hLog⟩ :=
    hFront.split_lastSave hStart.owner hSaving
  have hCalled := hBefore.sound hStart.sound
  have hJoined := hWaited.sound hCalled
  have hSaved := hFront.sound hStart.sound
  have hPass : Ran joined (.join :: log) saved := .cons hJoin hLog
  have hNone := hLog.joined (hJoin.sound hJoined) (by cases hJoin with | join => trivial)
  have hAccount := hLog.account hJoin rfl hNone hJoined (hSaved.of_saving hSaving).2
  have hLeft : left.manager = saved.manager ∧ left.disk = saved.disk := by
    cases hLeave with
    | leave => exact ⟨rfl, rfl⟩
  have hHolds : ¬ saved.owner.HasLeft := by
    rw [hSaving]
    exact id
  refine ⟨before, called, between, joined, log, saved, left, after, by simp, hBefore, hWaited,
    hPass, hLeave, hAfter, hSaving, hOver, hAccount,
    fun hOutcome => ⟨fun name hCovers => ?_, fun name hCovers hSame => ?_⟩⟩
  · rw [hAfter.target_eq, hLeave.target_eq, hPass.target_eq] at hCovers
    obtain ⟨result, hResult, hOk⟩ := hAccount.due hOver name hCovers nofun
    obtain ⟨c, rfl⟩ := hOk hOutcome
    obtain ⟨hMade, hFiled⟩ := hAccount.saved name c hResult
    refine ⟨c, hMade, fun s hStore => ?_, hFiled, ?_⟩
    · exact (hMade.append hWaited).generation_le hCalled
        ((hWaited.append hPass).not_released hHolds name) hStore
    · rw [← hLeft.1, ← hLeft.2] at hFiled
      exact hAfter.stays (hLeave.sound hSaved)
        ((hLeave.sound hSaved).isQuiet (by cases hLeave with | leave => trivial)) hFiled
  · simp only [List.mem_append, List.mem_cons, not_or] at hSame
    obtain ⟨-, -, hDuring, -, hSince⟩ := hSame
    refine cleanAt_of_left hSaved hLeave hAfter hSince hCovers fun hCovers' => ?_
    exact cleanAt_of_lastSave hJoined hJoin hLog hNone hSaving hOver hOutcome
      (List.not_mem_cons_of_ne_of_not_mem nofun hDuring) hCovers'

/-- What an autosaver keeps to, after any steps from its start. -/
structure Keeps (first : Running) (past : List Action) (r : Running) : Prop where
  /-- As long as a store is not let go, the autosaver does not change what it holds. -/
  mapping : ∀ action r' name, Step r action r' → action.OfAutosaver → action ≠ .release name →
    (r'.manager.stores.get? name).map Store.copy = (r.manager.stores.get? name).map Store.copy
  /-- A pass on a tick accounts for what it has saved since it began. -/
  passes : ∀ t p, r.worker = .busy t p → ∃ before begun log, past = before ++ .tick t :: log ∧
    Ran first before begun ∧ Account begun (.tick t :: log) r t p
  /-- A flush comes to save a store only if that has something to save, and does not write one
  that is clean when it chooses. -/
  flush : ∀ p, r.worker = .busy .flush p →
    (∀ name ∈ p.stage.chosen, ∃ s, r.manager.stores.get? name = some s ∧ s.isDirty = true) ∧
    (¬ p.stage.IsSaving → ∀ name, ¬ p.Wrote name) ∧
    ∀ name left chosen s middle log r' p', p.stage = .choosing (name :: left) chosen →
      r.manager.stores.get? name = some s → s.isDirty = false → Step r .work middle →
      Ran middle log r' → (∀ action ∈ log, action.begun? = none) →
      r'.worker = .busy .flush p' → ¬ p'.Wrote name
  /-- The worker does not end before it is told to. -/
  works : r.worker = .ended → r.owner ≠ .running
  /-- Whatever has become of the saves so far, a pass can come to its end; and whatever it
  reports then, the worker waits again. -/
  rests : ∀ t p, r.worker = .busy t p →
    (∃ n m e, Ran r (List.replicate n .work ++ [.rest])
      { r with manager := m, disk := e, worker := .waiting }) ∧
    (p.IsOver → Step r .rest { r with worker := .waiting })
  /-- The last pass can come to its end as well. -/
  ends : ∀ p, r.owner = .saving p → ∃ n m e q, Ran r (List.replicate n .save)
    { r with manager := m, disk := e, owner := .saving q } ∧ q.IsOver
  /-- The program for a tick comes to an end. Of the stores that the tick comes to save it
  puts those in their files of which no write is refused, and nothing else is written; and
  it is what the worker does on the tick where nothing comes between. -/
  ticks : ¬ r.owner.HasLeft → ∀ t,
    (∃ trace m e, SeesTo t r.manager r.disk r.target trace m e) ∧
    ∀ trace m e, SeesTo t r.manager r.disk r.target trace m e →
      (∃ outcome, r.manager.Saves (r.target.Wants t r.manager) r.disk trace outcome m e) ∧
      (r.worker = .waiting → ∃ n, Ran r (.tick t :: (List.replicate n .work ++ [.rest]))
        { r with manager := m, disk := e, worker := .waiting })
  /-- So it is with the program for the last save and what the owner does when it has seen
  the worker end. -/
  lastSave : ¬ r.owner.HasLeft →
    (∃ trace outcome m e, Saves r.manager r.disk r.target trace outcome m e) ∧
    ∀ trace outcome m e, Saves r.manager r.disk r.target trace outcome m e →
      r.manager.Saves (r.target.Covers r.manager) r.disk trace outcome m e ∧
      (r.owner = .stopping → r.worker = .ended → ∃ n p, Ran r (.join :: List.replicate n .save)
        { r with manager := m, disk := e, owner := .saving p } ∧ p.IsOver ∧ p.outcome = outcome)
  /-- And with the program for letting go of the target and what the owner does when it
  leaves: what it has to save of a store that nobody else holds is saved, and the files of
  the other stores are left alone. -/
  leaves : ¬ r.owner.HasLeft →
    (∃ trace e, Leaves r.held r.manager r.disk r.target trace e) ∧
    ∀ trace e, Leaves r.held r.manager r.disk r.target trace e →
      (∀ name s, r.manager.stores.get? name = some s →
        (r.target.Covers r.manager name → name ∉ r.held → s.Released r.disk trace e) ∧
        (¬ r.target.Covers r.manager name ∨ name ∈ r.held → e.read s.path = r.disk.read s.path)) ∧
      ∀ last, r.MayLeave last → ∃ names log m, r.target.Lists r.manager names ∧
        Ran r (.leave :: (log ++ [.finish]))
          { r with manager := m, disk := e, owner := .gone last } ∧ LetGo r.held names r.manager m
  /-- A shutdown has saved what it says. -/
  saved : ∀ p, r.owner.last? = some p → HasSaved first past r p
  /-- When the call that ends the autosaver has returned, nothing of it goes on. -/
  done : r.owner.IsDone → ∀ log r', Ran r log r' →
    r'.owner = r.owner ∧ ∀ action ∈ log, ¬ action.OfAutosaver
  /-- Dropping makes no last pass. -/
  dropped : ∀ log r', Ran r (.drop :: log) r' → .join ∉ log ∧ .save ∉ log
  /-- When the worker has ended and the owner makes no pass any more, a store is left alone
  unless it is let go. -/
  quiet : r.IsQuiet → ∀ log r' name, Ran r log r' → .release name ∉ log → Kept r log r' name
  /-- Only a store that nobody else holds is let go, with what it has to save. -/
  releases : ∀ name r', Step r (.release name) r' → ∃ s trace,
    r.manager.stores.get? name = some s ∧ name ∉ r.held ∧ r'.manager = r.manager.without name ∧
      s.Released r.disk trace r'.disk

/-- Any steps of an autosaver on one store, or on all stores of a manager, in between what
others do: change stores, open further ones, come to hold stores or give them up, and use
the disk elsewhere. -/
theorem autosave_keeps (hStart : first.Starts) (hRan : Ran first past r) :
    Keeps first past r := by
  have hSound := hRan.sound hStart.sound
  have hCovering := hRan.covering hStart.sound hStart.covering
  have hOpen : ¬ r.owner.HasLeft → ∀ name, r.target.Covers r.manager name →
      ∃ s, r.manager.stores.get? name = some s :=
    fun hHolds name hCovers => hSound.exists_store hHolds hCovers
  exact {
    mapping := fun action r' name hStep hOwn hNot => hStep.copy_eq hOwn hNot hSound.regular
    passes := fun t p hBusy => by
      rcases hRan.split_tick hStart.sound hBusy with ⟨⟨q, hBefore⟩, -⟩ |
        ⟨before, begun, next, log, hPast, hBefore, hTick, hLog, hNone⟩
      · rw [hStart.worker] at hBefore
        cases hBefore
      · exact ⟨before, begun, log, hPast, hBefore, hLog.account hTick rfl hNone
          (hBefore.sound hStart.sound) (pass?_of_busy hBusy)⟩
    flush := fun p hBusy => by
      refine ⟨hSound.flush p hBusy, fun hEarly name => ?_, ?_⟩
      · exact (hSound.pass p (pass?_of_busy hBusy)).not_wrote_of_not_isSaving hEarly
      · intro name left chosen s middle log r' p' hStage hStore hClean hStep hLog hNone hBusy'
        exact hLog.not_wrote_of_clean hStep hBusy hStage hStore hClean hNone hSound
          (pass?_of_busy hBusy')
    works := hSound.ended
    rests := fun t p hBusy =>
      ⟨ran_of_busy hSound hCovering hBusy, fun hOver => .rest hBusy hOver⟩
    ends := fun p hSaving => ran_of_saving hSound hCovering hSaving
    ticks := fun hHolds t => ⟨exists_seesTo t r.manager r.disk (hOpen hHolds),
      fun trace m e hTick => ⟨hTick.spec hSound.regular,
        fun hWaiting => ran_of_seesTo hSound.regular hWaiting hTick⟩⟩
    lastSave := fun hHolds => ⟨exists_saves r.manager r.disk (hOpen hHolds),
      fun trace outcome m e hSaves => ⟨hSaves.spec hSound.regular,
        fun hStopping hEnded => ran_of_lastSave hSound.regular hStopping hEnded hSaves⟩⟩
    leaves := fun hHolds => ⟨exists_leaves r.held r.manager r.disk (hOpen hHolds),
      fun trace e hLeaves => ⟨fun name s hStore => hLeaves.spec hSound.regular hStore,
        fun last hMay => ran_of_leaves hMay hLeaves⟩⟩
    saved := fun p hLast => hasSaved hStart hRan hLast
    done := fun hDone log r' hLater => hLater.done hSound hDone
    dropped := fun log r' hDrop => by
      cases hDrop with
      | cons hFirst hRest =>
          obtain ⟨hJoin, hSave, -⟩ := hRest.letsGo (by cases hFirst with | drop => exact Or.inl rfl)
          exact ⟨hJoin, hSave⟩
    quiet := fun hQuiet log r' name hLater hNot => hLater.kept_of_isQuiet hSound hQuiet hNot
    releases := fun name r' hStep => hStep.released }

/-- An autosaver that has just been started on a store without a file. Somebody else holds
the store as well. -/
def started : Running :=
  ⟨.store "s", ⟨localConfig, KeyMap.empty.insert "s" (Store.opened localConfig .empty)⟩, .empty,
    .waiting, .running, ["s"]⟩

theorem starts_started : started.Starts := by
  have hOpen : (Store.open localConfig).run 0 .empty =
      (.ok (Store.opened localConfig .empty), .empty) := rfl
  obtain ⟨trace, hRuns⟩ := Program.runs_of_run hOpen
  exact starts_of_runs_open_store hRuns ["s"]

/-- The same once a key has been set. -/
def ahead : Running :=
  { started with manager := started.manager.put (Manager.unsaved "s") }

theorem get?_ahead : ahead.manager.stores.get? "s" = some (Manager.unsaved "s") :=
  (Manager.get?_put started.manager (Manager.unsaved "s") "s").trans (if_pos rfl)

theorem step_ahead : Step started (.mutate "s") ahead := by
  have hMutation : (Operation.set "k" (.bool true)).IsMutation := trivial
  have hSet : Runs ((Operation.set "k" (.bool true)).perform (Store.opened localConfig .empty))
      .empty [] (.ok (), Manager.unsaved "s") .empty := .done _ _
  exact .mutate (r := started) List.mem_cons_self rfl hMutation hSet

/-- On the empty disk its copy can be written, and writing it can be refused. -/
theorem exists_written : ∃ trace e,
    Runs ((Manager.unsaved "s").writeCopy (Manager.unsaved "s").copy) .empty trace (.ok ()) e :=
  ⟨_, _, .ask (.answered 0 rfl) (.ask (.answered 0 rfl) (.ask (.answered 0 rfl)
    (.ask (.answered 0 rfl) (.ask (.answered 0 rfl) (.done _ _)))))⟩

theorem exists_refused : ∃ trace,
    Runs ((Manager.unsaved "s").writeCopy (Manager.unsaved "s").copy) .empty trace
      (.error .busy) .empty :=
  ⟨_, .ask (.failed .busy rfl nofun rfl) (.ask (.answered 0 rfl) (.done _ _))⟩

/-- The key is set and a flush fails; the worker goes on. If the next flush succeeds, the
file has the key afterwards. The shutdown puts it there in any case, and leaves the store
with whoever else holds it. -/
theorem autosave_keeps_retried : ∃ (tried r : Running) (past log : List Action) (p : Pass)
    (s : Store), started.Starts ∧ Ran started past tried ∧ tried.disk = .empty ∧
    (∃ trace m e, SeesTo .flush tried.manager tried.disk tried.target trace m e ∧
      e.read ⟨"s.json"⟩ = .ok (Snapshot.content .pretty flagged)) ∧
    Ran tried log r ∧ r.owner = .gone (some p) ∧ r.manager.stores.get? "s" = some s ∧
    s.data = flagged ∧ s.isDirty = false ∧
    r.disk.read ⟨"s.json"⟩ = .ok (Snapshot.content .pretty flagged) := by
  have hPath : (Manager.unsaved "s").path = ⟨"s.json"⟩ := by decide
  have hDirty : (Manager.unsaved "s").isDirty = true := rfl
  obtain ⟨trace, e, hWrite⟩ := exists_written
  obtain ⟨refused, hFail⟩ := exists_refused
  have hFlush : Ran started [.mutate "s", .tick .flush, .work, .work, .work, .work, .work, .rest]
      ahead :=
    .cons step_ahead <| .cons (.tick .flush rfl rfl) <|
      .cons (.work rfl (.list rfl get?_ahead hDirty rfl)) <|
      .cons (.work rfl (.choose rfl get?_ahead hDirty)) <| .cons (.work rfl (.begin rfl)) <|
      .cons (.work rfl (.copy rfl get?_ahead)) <|
      .cons (.work rfl (.fail rfl get?_ahead hFail)) <| .cons (.rest rfl (Or.inr rfl)) (.nil _)
  have hShutdown : Ran ahead [.shutdown, .quit, .join, .save, .save, .save, .leave, .keep, .finish]
      _ :=
    .cons (.shutdown rfl) <| .cons (.quit rfl nofun) <| .cons (.join rfl rfl rfl) <|
      .cons (.save rfl (.copy rfl get?_ahead)) <|
      .cons (.save rfl (.write rfl get?_ahead hWrite)) <|
      .cons (.save rfl (.publish rfl get?_ahead)) <|
      .cons (.leave (.saving rfl (Or.inr rfl)) rfl) <| .cons (.keep rfl List.mem_cons_self) <|
      .cons (.finish rfl) (.nil _)
  -- the flush that succeeds
  let published := (Manager.unsaved "s").publish (Manager.unsaved "s").copy
  have hPublished : (ahead.manager.put published).stores.get? "s" = some published :=
    (Manager.get?_put ahead.manager published "s").trans (if_pos rfl)
  have hSave : Runs (Manager.unsaved "s").save .empty (trace ++ []) (.ok (), published) e :=
    hWrite.bind (.done _ _)
  have hSees : SeesTo .flush ahead.manager ahead.disk ahead.target _
      (ahead.manager.put published) e := .store get?_ahead (hSave.bind (.done _ _))
  obtain ⟨-, hTicks⟩ := (autosave_keeps starts_started hFlush).ticks id .flush
  obtain ⟨⟨_, hTick⟩, -⟩ := hTicks _ _ _ hSees
  obtain ⟨s, hStore, hSaved⟩ := hTick.saved "s" _ get?_ahead
    ⟨rfl, (Manager.isDirtyAt_eq get?_ahead).trans hDirty⟩
  obtain rfl : published = s := Option.some.inj (hPublished.symm.trans hStore)
  have hDiffer : published ≠ Manager.unsaved "s" := fun hSame =>
    absurd (congrArg Store.isDirty hSame) nofun
  have hRead := (hSaved.written (by_contra fun hNot => hDiffer (hSaved.refused hNot).1)).2.2
  -- the shutdown
  have hNever : Action.release "s" ∉ [.mutate "s", .tick .flush, .work, .work, .work, .work,
      .work, .rest] ++ [.shutdown, .quit, .join, .save, .save, .save, .leave, .keep, .finish] := by
    simp
  obtain ⟨_, _, _, _, _, _, _, after, hPast, -, -, -, -, -, -, -, -, hLast⟩ :=
    (autosave_keeps starts_started (hFlush.append hShutdown)).saved _ rfl
  obtain ⟨⟨data, generation⟩, -, -, -, hStays⟩ := (hLast rfl).1 "s" rfl
  rcases hStays with ⟨s, hStore, hBehind, hGeneration, hFile⟩ | ⟨_, _, _, _, _, _, hReleased, -⟩
  · obtain rfl : published = s := Option.some.inj (hPublished.symm.trans hStore)
    obtain rfl : data = flagged := hBehind.2 hGeneration.symm
    exact ⟨ahead, _, _, _, _, published, starts_started, hFlush, rfl,
      ⟨_, _, e, hSees, (congrArg e.read hPath.symm).trans hRead⟩, hShutdown, rfl, hPublished, rfl,
      rfl, (congrArg e.read hPath.symm).trans hFile⟩
  · refine absurd ?_ hNever
    rw [hPast, hReleased]
    simp

/-- A tick that fails for one store saves the others all the same. And an owner that drops the
autosaver saves a store when nobody else holds it any more, though it makes no last pass
and the worker has done nothing. -/
theorem tick_fails_and_drop_saves :
    (∃ trace after, Runs Manager.twoUnsaved.saveAll Manager.blockedFirst trace
        (.error (.disk .isDirectory), after) Manager.halfSaved ∧
      SeesTo .save Manager.twoUnsaved Manager.blockedFirst .all trace after Manager.halfSaved ∧
      (Manager.twoUnsaved.stores.get? "b").map Store.isDirty = some true ∧
      (after.stores.get? "b").map Store.isDirty = some false ∧
      Manager.blockedFirst.read ⟨"b.json"⟩ = .error .notFound ∧
      Manager.halfSaved.read ⟨"b.json"⟩ = .ok (Snapshot.content .pretty flagged)) ∧
    ∃ r, started.Starts ∧
      Ran started [.mutate "s", .hold, .drop, .quit, .leave, .release "s", .finish] r ∧
      r.owner = .gone none ∧ started.disk.read ⟨"s.json"⟩ = .error .notFound ∧
      r.disk.read ⟨"s.json"⟩ = .ok (Snapshot.content .pretty flagged) := by
  refine ⟨?_, ?_⟩
  · have hRun : Manager.twoUnsaved.saveAll.run 0 Manager.blockedFirst =
        ((.error (.disk .isDirectory), Manager.twoUnsaved.put Manager.secondSaved),
          Manager.halfSaved) := rfl
    obtain ⟨trace, hRuns⟩ := Program.runs_of_run hRun
    have hTick := hRuns.bind (f := fun saved => pure saved.2) (.done _ _)
    rw [List.append_nil] at hTick
    exact ⟨trace, _, hRuns, .all hTick, rfl, rfl, rfl, rfl⟩
  · have hPath : (Manager.unsaved "s").path = ⟨"s.json"⟩ := by decide
    obtain ⟨trace, e, hWrite⟩ := exists_written
    have hSave : Runs (Manager.unsaved "s").save .empty (trace ++ []) (.ok (), _) e :=
      hWrite.bind (.done _ _)
    have hRelease : Runs (Manager.unsaved "s").release .empty _ () e := hSave.bind (.done _ _)
    have hNobody : ∀ name, (name ∈ ([] : List String) ↔ name ∈ ahead.held) ∨ ahead.Holds name := by
      intro name
      by_cases hName : name = "s"
      · exact Or.inr ⟨hName, trivial⟩
      · exact Or.inl (iff_of_false nofun fun hHeld => hName (List.mem_singleton.mp hHeld))
    refine ⟨_, starts_started, .cons step_ahead <| .cons (.hold hNobody) <| .cons (.drop rfl) <|
      .cons (.quit rfl nofun) <| .cons (.leave (.dropping rfl rfl) rfl) <|
      .cons (.release rfl nofun get?_ahead hRelease) <| .cons (.finish rfl) (.nil _), rfl, rfl, ?_⟩
    exact (congrArg e.read hPath.symm).trans (runs_save_ok hSave).2.read

end Running

end SnapshotStore.Autosaver
