import SnapshotStore.Proofs.Autosave.Pass
import SnapshotStore.Proofs.Store.Operation

/-! An autosaver at work. A worker waits for ticks, and sees to each of them with a pass over
the stores. Its owner stops it, waits until it has ended, and saves for a last time, or
does not. Then it lets go of the target, and with it of every store that nobody else
holds. In the meantime others change stores, open further ones, and give up stores. -/
namespace SnapshotStore.Autosaver

open Disk Store
open Program (Runs)

/-- Where the worker is. -/
inductive Worker where
  | waiting
  | busy (tick : Tick) (pass : Pass)
  | ended

/-- Where the owner is. It waits for the worker to end before it saves for a last time, and
also where it does not. It leaves the stores of the target one by one, and is gone when
the call that ends the autosaver has returned; it remembers its last pass, if it has made
one. -/
inductive Owner where
  | running
  | stopping
  | dropping
  | saving (pass : Pass)
  | leaving (last : Option Pass) (left : List String)
  | gone (last : Option Pass)

namespace Owner

variable {owner : Owner}

/-- The owner has seen the worker end. -/
def HasJoined : Owner → Prop
  | .saving _ | .leaving _ _ | .gone _ => True
  | _ => False

/-- The owner no longer holds the target. -/
def HasLeft : Owner → Prop
  | .leaving _ _ | .gone _ => True
  | _ => False

theorem HasLeft.hasJoined (h : owner.HasLeft) : owner.HasJoined := by
  cases owner with
  | leaving last left => trivial
  | gone last => trivial
  | _ => cases h

/-- The call that ends the autosaver has come to its end. -/
def IsDone : Owner → Prop
  | .gone _ => True
  | _ => False

theorem IsDone.hasLeft (h : owner.IsDone) : owner.HasLeft := by
  cases owner with
  | gone last => trivial
  | _ => cases h

/-- The owner saves no more: it has called for the end without a last save, or it has left. -/
def SavesNoMore : Owner → Prop
  | .dropping | .leaving _ _ | .gone _ => True
  | _ => False

/-- The pass that is under way. -/
def pass? : Owner → Option Pass
  | .saving p => some p
  | _ => none

theorem SavesNoMore.pass?_eq_none (h : owner.SavesNoMore) : owner.pass? = none := by
  cases owner with
  | saving p => cases h
  | _ => rfl

theorem HasLeft.savesNoMore (h : owner.HasLeft) : owner.SavesNoMore := by
  cases owner with
  | leaving last left => trivial
  | gone last => trivial
  | _ => cases h

/-- The last pass of an owner that has left. -/
def last? : Owner → Option Pass
  | .leaving last _ | .gone last => last
  | _ => none

theorem hasLeft_of_last? {p : Pass} (h : owner.last? = some p) : owner.HasLeft := by
  cases owner with
  | leaving last left => trivial
  | gone last => trivial
  | _ => cases h

/-- Of the stores of the target, the owner still holds this one. -/
def Holds (owner : Owner) (name : String) : Prop :=
  match owner with
  | .leaving _ left => name ∈ left
  | .gone _ => False
  | _ => True

end Owner

/-- What happens in one step. The worker begins to see to a tick, works on it, rests when
it is done with it, or quits. The owner calls for the end with or without a last save,
joins the worker when that has ended, and saves. Then it leaves: of each store it keeps
out where others hold it, and releases it where nobody does; and it finishes. Others
change a store, use one that may have to be opened, come to hold stores or give them up,
or do something elsewhere. -/
inductive Action where
  | tick (tick : Tick)
  | work
  | rest
  | quit
  | shutdown
  | drop
  | join
  | save
  | leave
  | keep
  | release (name : String)
  | finish
  | mutate (name : String)
  | use (name : String)
  | hold
  | elsewhere

/-- The action is one of the worker or the owner. -/
def Action.OfAutosaver : Action → Prop
  | .mutate _ | .use _ | .hold | .elsewhere => False
  | _ => True

/-- The action is one of the worker. -/
def Action.OfWorker : Action → Prop
  | .tick _ | .work | .rest | .quit => True
  | _ => False

/-- The pass that begins with the action. -/
def Action.begun? : Action → Option Tick
  | .tick t => some t
  | .join => some .save
  | _ => none

/-- How the owner comes from one place to another one. -/
inductive Owner.Moves : Owner → Action → Owner → Prop where
  | shutdown : Moves .running .shutdown .stopping
  | drop : Moves .running .drop .dropping
  | join {p : Pass} : Moves .stopping .join (.saving p)
  | save {p p' : Pass} : Moves (.saving p) .save (.saving p')
  | leave {names : List String} : Moves .dropping .leave (.leaving none names)
  | leaveSaved {p : Pass} {names : List String} (hOver : p.IsOver) :
      Moves (.saving p) .leave (.leaving (some p) names)
  | keep {last : Option Pass} {name : String} {left : List String} :
      Moves (.leaving last (name :: left)) .keep (.leaving last left)
  | release {last : Option Pass} {name : String} {left : List String} :
      Moves (.leaving last (name :: left)) (.release name) (.leaving last left)
  | finish {last : Option Pass} : Moves (.leaving last []) .finish (.gone last)

namespace Owner.Moves

variable {owner owner' : Owner} {action : Action}

theorem hasLeft (h : owner.Moves action owner') (hLeft : owner.HasLeft) : owner'.HasLeft := by
  cases h with
  | keep | release | finish => trivial
  | _ => cases hLeft

theorem last_eq (h : owner.Moves action owner') (hLeft : owner.HasLeft) :
    owner'.last? = owner.last? := by
  cases h with
  | keep | release | finish => rfl
  | _ => cases hLeft

/-- Only by leaving does an owner come to have left. -/
theorem leaves (h : owner.Moves action owner') (hNot : ¬ owner.HasLeft) :
    action = .leave ∨ ¬ owner'.HasLeft := by
  cases h with
  | leave | leaveSaved => exact Or.inl rfl
  | keep | release | finish => exact absurd trivial hNot
  | _ => exact Or.inr id

/-- When the owner has seen the worker end, it begins no further pass. -/
theorem joined (h : owner.Moves action owner') (hJoined : owner.HasJoined) :
    action.begun? = none ∧ owner'.HasJoined := by
  cases h with
  | shutdown | drop | join | leave => cases hJoined
  | _ => exact ⟨rfl, trivial⟩

theorem not_isDone (h : owner.Moves action owner') : ¬ owner.IsDone := by
  cases h <;> exact id

theorem eq_of_running (h : Moves .running action owner') :
    action = .shutdown ∨ action = .drop := by
  cases h with
  | shutdown => exact Or.inl rfl
  | drop => exact Or.inr rfl

theorem eq_of_stopping (h : Moves .stopping action owner') : action = .join := by
  cases h with
  | join => rfl

end Owner.Moves

/-- Only the autosaver begins a pass. -/
theorem Action.begun?_eq_none {action : Action} (h : ¬ action.OfAutosaver) :
    action.begun? = none := by
  cases action with
  | mutate | use | hold | elsewhere => rfl
  | _ => exact absurd trivial h

/-- An autosaver with the stores that it saves and their disk, and with the names of those
that others hold as well, by themselves or with all of the target. -/
structure Running where
  target : Target
  manager : Manager
  disk : Disk
  worker : Worker
  owner : Owner
  held : List String

namespace Running

variable {r r' first : Running} {action : Action} {log : List Action} {name : String} {c : Copy}
  {t : Tick} {p : Pass}

/-- The autosaver holds this store. -/
def Holds (r : Running) (name : String) : Prop :=
  r.target.Covers r.manager name ∧ r.owner.Holds name

/-- The owner may leave, with this as its last pass: without one as soon as the worker has
ended, and otherwise when the pass is over. -/
inductive MayLeave (r : Running) : Option Pass → Prop where
  | dropping (hOwner : r.owner = .dropping) (hEnded : r.worker = .ended) : MayLeave r none
  | saving {p : Pass} (hOwner : r.owner = .saving p) (hOver : p.IsOver) : MayLeave r (some p)

/-- One step. That the owner wants the worker to end is seen by the worker only while it
waits; and if a tick has come as well, it may see to that first. The worker gives up the
target when it ends, while the owner still holds it. Who changes a store holds it, and who
has had one opened. Others come to hold stores, or give them up, only as long as the
autosaver holds these; what they have when it leaves, they keep. Opening a store is a
single step, as writing a copy is, and letting one go; none of them touches a file of
another store. -/
inductive Step (r : Running) : Action → Running → Prop where
  | tick (t : Tick) {names : List String} (hWaiting : r.worker = .waiting)
      (hListed : r.target.Lists r.manager names) :
      Step r (.tick t) { r with worker := .busy t (Pass.onTick t names) }
  | work {t : Tick} {p p' : Pass} {m : Manager} {d : Disk} (hBusy : r.worker = .busy t p)
      (hStep : Saving.Step r.target ⟨r.manager, r.disk, p⟩ ⟨m, d, p'⟩) :
      Step r .work { r with manager := m, disk := d, worker := .busy t p' }
  | rest {t : Tick} {p : Pass} (hBusy : r.worker = .busy t p) (hOver : p.IsOver) :
      Step r .rest { r with worker := .waiting }
  | quit (hWaiting : r.worker = .waiting) (hStopped : r.owner ≠ .running) :
      Step r .quit { r with worker := .ended }
  | shutdown (hOwner : r.owner = .running) : Step r .shutdown { r with owner := .stopping }
  | drop (hOwner : r.owner = .running) : Step r .drop { r with owner := .dropping }
  | join {names : List String} (hOwner : r.owner = .stopping) (hEnded : r.worker = .ended)
      (hListed : r.target.Lists r.manager names) :
      Step r .join { r with owner := .saving (Pass.saveAll names) }
  | save {p p' : Pass} {m : Manager} {d : Disk} (hOwner : r.owner = .saving p)
      (hStep : Saving.Step r.target ⟨r.manager, r.disk, p⟩ ⟨m, d, p'⟩) :
      Step r .save { r with manager := m, disk := d, owner := .saving p' }
  | leave {last : Option Pass} {names : List String} (hMay : r.MayLeave last)
      (hListed : r.target.Lists r.manager names) :
      Step r .leave { r with owner := .leaving last names }
  | keep {last : Option Pass} {name : String} {left : List String}
      (hOwner : r.owner = .leaving last (name :: left)) (hHeld : name ∈ r.held) :
      Step r .keep { r with owner := .leaving last left }
  | release {last : Option Pass} {name : String} {left : List String} {s : Store}
      {trace : List Event} {e : Disk} (hOwner : r.owner = .leaving last (name :: left))
      (hNobody : name ∉ r.held) (hStore : r.manager.stores.get? name = some s)
      (hRuns : Runs s.release r.disk trace () e) :
      Step r (.release name)
        { r with manager := r.manager.without name, disk := e, owner := .leaving last left }
  | finish {last : Option Pass} (hOwner : r.owner = .leaving last []) :
      Step r .finish { r with owner := .gone last }
  | mutate {α : Type} {name : String} {operation : Operation α} {outcome : Except StoreError α}
      {s s' : Store} (hHeld : name ∈ r.held) (hStore : r.manager.stores.get? name = some s)
      (hMutation : operation.IsMutation)
      (hRuns : Runs (operation.perform s) r.disk [] (outcome, s') r.disk) :
      Step r (.mutate name) { r with manager := r.manager.put s' }
  | use {name : String} {trace : List Event} {outcome : Except StoreError Unit} {m : Manager}
      {e : Disk} (hRuns : Runs (r.manager.use name) r.disk trace (outcome, m) e) :
      Step r (.use name) { r with manager := m, disk := e, held := name :: r.held }
  | hold {held : List String}
      (hHolds : ∀ name, (name ∈ held ↔ name ∈ r.held) ∨ r.Holds name) :
      Step r .hold { r with held := held }
  | elsewhere {e : Disk} (hFiles : ∀ name s content, r.manager.stores.get? name = some s →
      r.disk.read s.path = .ok content → e.read s.path = .ok content) :
      Step r .elsewhere { r with disk := e }

/-- The steps that have led from one moment to another one. -/
inductive Ran : Running → List Action → Running → Prop where
  | nil (r : Running) : Ran r [] r
  | cons {action : Action} {log : List Action} {r middle r' : Running}
      (first : Step r action middle) (rest : Ran middle log r') : Ran r (action :: log) r'

theorem Ran.append {middle : Running} {before after : List Action} (h : Ran r before middle)
    (h' : Ran middle after r') : Ran r (before ++ after) r' := by
  induction h with
  | nil r => exact h'
  | cons first rest ih => exact .cons first (ih h')

theorem Ran.append_inv {before after : List Action} (h : Ran r (before ++ after) r') :
    ∃ middle, Ran r before middle ∧ Ran middle after r' := by
  induction before generalizing r with
  | nil => exact ⟨r, .nil r, h⟩
  | cons action before ih =>
      cases h with
      | cons first rest =>
          obtain ⟨middle, hBefore, hAfter⟩ := ih rest
          exact ⟨middle, .cons first hBefore, hAfter⟩

/-- An autosaver that has just been started. -/
structure Starts (r : Running) : Prop where
  regular : r.manager.Regular
  present : ∀ own, r.target = .store own → ∃ s, r.manager.stores.get? own = some s
  worker : r.worker = .waiting
  owner : r.owner = .running

/-- A manager that has just been opened can be saved at regular times. -/
theorem starts_of_runs_open {config : Config} {m : Manager} {d e : Disk} {trace : List Event}
    (h : Runs (Manager.open config) d trace (.ok m) e) (held : List String) :
    Starts ⟨.all, m, e, .waiting, .running, held⟩ := by
  unfold Manager.open at h
  cases hCheck : config.check with
  | error fault =>
      rw [hCheck] at h
      cases h.pure_inv.2.1
  | ok _ =>
      rw [hCheck] at h
      obtain ⟨_, _, created, c, -, -, hReturn⟩ := h.bind_inv
      cases created with
      | error fault => cases hReturn.pure_inv.2.1
      | ok _ =>
          obtain ⟨-, hSame, -⟩ := hReturn.pure_inv
          obtain rfl := Except.ok.inj hSame
          exact ⟨Manager.regular_empty config, fun _ => nofun, rfl, rfl⟩

/-- So can a store that has been opened by itself. -/
theorem starts_of_runs_open_store {config : Config} {s : Store} {d e : Disk} {trace : List Event}
    (h : Runs (Store.open config) d trace (.ok s) e) (held : List String) :
    Starts ⟨.store s.name, ⟨s.config, KeyMap.empty.insert s.name s⟩, e, .waiting, .running,
      held⟩ := by
  obtain ⟨hCheck, -, hStore, -⟩ := runs_open_ok h
  have hConfig : s.config = config := by
    rw [hStore]
    rfl
  have hName : Config.checkName s.name = .ok () := by
    rw [Store.name, hConfig]
    exact Config.checkName_of_check hCheck
  have hSaved : s.savedGeneration ≤ s.generation := by
    rw [hStore]
    exact Nat.le_refl 0
  refine ⟨Manager.regular_single hName hSaved, ?_, rfl, rfl⟩
  rintro own hOwn
  obtain rfl := Target.store.inj hOwn
  exact ⟨s, by rw [KeyMap.get?_insert, if_pos rfl]⟩

/-- The pass of the worker or the last pass of the owner. -/
def pass? (r : Running) : Option Pass :=
  match r.worker with
  | .busy _ p => some p
  | _ => r.owner.pass?

/-- The stores and the disk as a pass sees them. -/
def seenBy (r : Running) (p : Pass) : Saving :=
  ⟨r.manager, r.disk, p⟩

/-- What holds at every moment: the passes rely on what they may, the owner does not save
before the worker has ended, and a store by itself is there until it is left. -/
structure Sound (r : Running) : Prop where
  regular : r.manager.Regular
  present : ¬ r.owner.HasLeft → ∀ own, r.target = .store own →
    ∃ s, r.manager.stores.get? own = some s
  pass : ∀ p, r.pass? = some p → Saving.Holds (r.seenBy p)
  flush : ∀ p, r.worker = .busy .flush p → Saving.Choosy (r.seenBy p)
  alone : r.owner.HasJoined → r.worker = .ended
  ended : r.worker = .ended → r.owner ≠ .running

theorem Starts.sound (h : r.Starts) : r.Sound := by
  have hNone : r.pass? = none := by
    rw [pass?, h.worker, h.owner]
    rfl
  refine ⟨h.regular, fun _ => h.present, fun p hPass => ?_, fun p hBusy => ?_,
    fun hJoined => ?_, fun hEnded => ?_⟩
  · rw [hNone] at hPass
    cases hPass
  · rw [h.worker] at hBusy
    cases hBusy
  · rw [h.owner] at hJoined
    cases hJoined
  · rw [h.worker] at hEnded
    cases hEnded

/-- What the target stands for is open until the owner leaves. -/
theorem Sound.exists_store (h : r.Sound) (hHolds : ¬ r.owner.HasLeft)
    (hCovers : r.target.Covers r.manager name) :
    ∃ s, r.manager.stores.get? name = some s := by
  cases hTarget : r.target with
  | store own =>
      rw [hTarget] at hCovers
      obtain rfl : name = own := hCovers
      exact h.present hHolds name hTarget
  | all =>
      rw [hTarget] at hCovers
      exact KeyMap.mem_keys_iff_exists.mp hCovers

theorem pass?_of_busy (h : r.worker = .busy t p) : r.pass? = some p := by
  rw [pass?, h]

theorem pass?_of_owner_none {owner : Owner} (hNone : owner.pass? = none)
    (h : pass? { r with owner := owner } = some p) : r.pass? = some p := by
  cases hWorker : r.worker with
  | busy t q =>
      rw [pass?, hWorker] at h
      rw [pass?, hWorker]
      exact h
  | _ =>
      simp only [pass?, hWorker, hNone] at h
      cases h

theorem Sound.pass?_of_owner (h : r.Sound) (hPass : r.owner.pass? = some p) :
    r.pass? = some p := by
  have hJoined : r.owner.HasJoined := by
    cases hOwner : r.owner with
    | saving q => trivial
    | _ =>
        rw [hOwner] at hPass
        cases hPass
  rw [pass?, h.alone hJoined, hPass]

/-- While the owner saves for a last time, the worker has ended. -/
theorem Sound.of_saving (h : r.Sound) (hOwner : r.owner = .saving p) :
    r.worker = .ended ∧ r.pass? = some p :=
  ⟨h.alone (by rw [hOwner]; trivial), h.pass?_of_owner (by rw [hOwner]; rfl)⟩

/-- When the worker has ended and the owner saves no more, no pass is under way. -/
theorem pass?_eq_none (hEnded : r.worker = .ended) (hOwner : r.owner.SavesNoMore) :
    r.pass? = none := by
  rw [pass?, hEnded, hOwner.pass?_eq_none]

theorem Sound.pass?_of_hasLeft (h : r.Sound) (hLeft : r.owner.HasLeft) : r.pass? = none :=
  pass?_eq_none (h.alone hLeft.hasJoined) hLeft.savesNoMore

/-- An owner that may leave has seen the worker end. -/
theorem Sound.ended_of_mayLeave {last : Option Pass} (h : r.Sound) (hMay : r.MayLeave last) :
    r.worker = .ended := by
  cases hMay with
  | dropping hOwner hEnded => exact hEnded
  | saving hOwner hOver => exact (h.of_saving hOwner).1

/-! ### What holds at every moment -/

theorem Step.target_eq (h : Step r action r') : r'.target = r.target := by
  cases h <;> rfl

theorem Ran.target_eq (h : Ran r log r') : r'.target = r.target := by
  induction h with
  | nil r => rfl
  | cons first rest ih => exact ih.trans first.target_eq

/-- What others do leaves the passes as they are. -/
theorem Step.evolves (h : Step r action r') (hOther : ¬ action.OfAutosaver)
    (hRegular : r.manager.Regular) : Evolves r.manager r.disk r'.manager r'.disk ∧
      r'.manager.Regular ∧ r'.worker = r.worker ∧ r'.owner = r.owner := by
  cases h with
  | @mutate α name operation outcome s s' hHeld hStore hMutation hRuns =>
      have hChange := Operation.change_of_isMutation hMutation hRuns
      have hSaved := hChange.savedGeneration
      have hBefore := (hRegular name s hStore).2.2
      have hGeneration : s.generation ≤ s'.generation ∧
          (s'.generation = s.generation → s'.data = s.data) := by
        rcases hChange.generation with rfl | hNext
        · exact ⟨Nat.le_refl _, fun _ => rfl⟩
        · exact ⟨by omega, fun hSame => by omega⟩
      refine ⟨⟨fun other found hFound => ?_, fun _ _ _ _ => id⟩,
        hRegular.put hStore hChange.config (by omega), rfl, rfl⟩
      by_cases hName : other = name
      · subst hName
        obtain rfl := Option.some.inj (hFound.symm.trans hStore)
        exact ⟨s', hRegular.get?_put_self hStore hChange.config, hChange.config, hSaved,
          hGeneration⟩
      · exact ⟨found, (hRegular.get?_put_of_ne hStore hChange.config hName).trans hFound, rfl, rfl,
          Nat.le_refl _, fun _ => rfl⟩
  | use hRuns =>
      obtain ⟨hExtends, hAfter⟩ := hRegular.extends_of_runs_use hRuns
      exact ⟨⟨fun name s hStore => ⟨s, hExtends.kept name s hStore, rfl, rfl, Nat.le_refl _,
        fun _ => rfl⟩, hExtends.files⟩, hAfter, rfl, rfl⟩
  | hold hHolds => exact ⟨.refl _ _, hRegular, rfl, rfl⟩
  | elsewhere hFiles =>
      exact ⟨⟨fun name s hStore => ⟨s, hStore, rfl, rfl, Nat.le_refl _, fun _ => rfl⟩, hFiles⟩,
        hRegular, rfl, rfl⟩
  | _ => exact absurd trivial hOther

/-- As long as it does not let go of a store, the autosaver changes neither what that holds
nor its generation. -/
theorem Step.copy_eq (h : Step r action r') (hOwn : action.OfAutosaver)
    (hNot : action ≠ .release name) (hRegular : r.manager.Regular) :
    (r'.manager.stores.get? name).map Store.copy = (r.manager.stores.get? name).map Store.copy := by
  cases h with
  | work hBusy hStep => exact hStep.copy_eq hRegular name
  | save hOwner hStep => exact hStep.copy_eq hRegular name
  | @release last own left s trace e hOwner hNobody hStore hRuns =>
      have hNames : name ≠ own := by
        rintro rfl
        exact hNot rfl
      rw [Manager.get?_without_of_ne _ hNames]
  | mutate | use | hold | elsewhere => cases hOwn
  | _ => rfl

/-- A store that is not let go stays open. -/
theorem Step.stays_open {s : Store} (h : Step r action r') (hNot : action ≠ .release name)
    (hRegular : r.manager.Regular) (hStore : r.manager.stores.get? name = some s) :
    ∃ s', r'.manager.stores.get? name = some s' := by
  by_cases hOther : action.OfAutosaver
  · have hCopy := h.copy_eq hOther hNot hRegular
    rw [hStore, Option.map_some] at hCopy
    obtain ⟨s', hStore', -⟩ := Option.map_eq_some_iff.mp hCopy
    exact ⟨s', hStore'⟩
  · obtain ⟨s', hStore', -⟩ := (h.evolves hOther hRegular).1.stores name s hStore
    exact ⟨s', hStore'⟩

/-- A step moves the owner; or it leaves it where it is, as one of a worker that has not ended
or one of others. -/
theorem Step.owner_cases (h : Step r action r') : r.owner.Moves action r'.owner ∨
    r'.owner = r.owner ∧ (action.OfWorker ∧ r.worker ≠ .ended ∨ ¬ action.OfAutosaver) := by
  cases h with
  | tick t hWorker | work hWorker | rest hWorker | quit hWorker =>
      refine Or.inr ⟨rfl, Or.inl ⟨trivial, ?_⟩⟩
      rw [hWorker]
      nofun
  | shutdown hOwner => exact Or.inl (hOwner ▸ .shutdown)
  | drop hOwner => exact Or.inl (hOwner ▸ .drop)
  | join hOwner => exact Or.inl (hOwner ▸ .join)
  | save hOwner => exact Or.inl (hOwner ▸ .save)
  | leave hMay =>
      cases hMay with
      | dropping hOwner => exact Or.inl (hOwner ▸ .leave)
      | saving hOwner hOver => exact Or.inl (hOwner ▸ .leaveSaved hOver)
  | keep hOwner => exact Or.inl (hOwner ▸ .keep)
  | release hOwner => exact Or.inl (hOwner ▸ .release)
  | finish hOwner => exact Or.inl (hOwner ▸ .finish)
  | mutate | use | hold | elsewhere => exact Or.inr ⟨rfl, Or.inr id⟩

/-- Once the owner has left, it does not come back. -/
theorem Step.hasLeft (h : Step r action r') (hLeft : r.owner.HasLeft) : r'.owner.HasLeft := by
  rcases h.owner_cases with hMoves | ⟨hSame, -⟩
  · exact hMoves.hasLeft hLeft
  · rwa [hSame]

/-- Stores are let go only by an owner that has left. -/
theorem Step.hasLeft_of_release (h : Step r (.release name) r') : r'.owner.HasLeft := by
  cases h with
  | release => trivial

theorem Step.present (h : Step r action r') (hSound : r.Sound) (hHolds : ¬ r'.owner.HasLeft)
    (own : String) (hTarget : r'.target = .store own) :
    ∃ s, r'.manager.stores.get? own = some s := by
  have hBefore : ¬ r.owner.HasLeft := fun hLeft => hHolds (h.hasLeft hLeft)
  have hNot : action ≠ .release own := by
    rintro rfl
    exact hHolds h.hasLeft_of_release
  obtain ⟨s, hStore⟩ := hSound.present hBefore own (h.target_eq ▸ hTarget)
  exact h.stays_open hNot hSound.regular hStore

/-- A pass that has been begun has nothing behind it. -/
theorem holds_begun {names : List String} (hRegular : r.manager.Regular)
    (hListed : r.target.Lists r.manager names) (t : Tick) :
    Saving.Holds (r.seenBy (Pass.onTick t names)) := by
  cases t with
  | save =>
      exact ⟨hRegular, hListed.nodup, List.Perm.refl _, Or.inl trivial, fun _ _ => nofun, trivial⟩
  | flush =>
      exact ⟨hRegular, hListed.nodup, List.Perm.refl _, Or.inr rfl, fun _ _ => nofun, trivial⟩

/-- What holds is kept where only the worker comes to another place. -/
theorem Sound.of_worker (h : r.Sound) {worker : Worker}
    (hPass : ∀ t p, worker = .busy t p → Saving.Holds (r.seenBy p))
    (hFlush : ∀ p, worker = .busy .flush p → Saving.Choosy (r.seenBy p))
    (hAlone : r.owner.HasJoined → worker = .ended)
    (hEnded : worker = .ended → r.owner ≠ .running) : Sound { r with worker := worker } := by
  refine ⟨h.regular, h.present, fun p hSome => ?_, hFlush, hAlone, hEnded⟩
  cases hWorker : worker with
  | busy t q =>
      rw [hWorker, pass?] at hSome
      obtain rfl : q = p := Option.some.inj hSome
      exact hPass t q hWorker
  | waiting =>
      rw [hWorker, pass?] at hSome
      exact h.pass p (h.pass?_of_owner hSome)
  | ended =>
      rw [hWorker, pass?] at hSome
      exact h.pass p (h.pass?_of_owner hSome)

/-- What holds is kept where only the owner comes to another place. -/
theorem Sound.of_owner (h : r.Sound) {owner : Owner}
    (hStays : ¬ owner.HasLeft → ¬ r.owner.HasLeft)
    (hPass : ∀ p, owner.pass? = some p → Saving.Holds (r.seenBy p))
    (hAlone : owner.HasJoined → r.worker = .ended)
    (hEnded : r.worker = .ended → owner ≠ .running) : Sound { r with owner := owner } := by
  refine ⟨h.regular, fun hHolds => h.present (hStays hHolds), fun p hSome => ?_, h.flush, hAlone,
    hEnded⟩
  cases hWorker : r.worker with
  | busy t q =>
      rw [pass?, hWorker] at hSome
      exact h.pass p ((pass?_of_busy hWorker).trans hSome)
  | waiting =>
      rw [pass?, hWorker] at hSome
      exact hPass p hSome
  | ended =>
      rw [pass?, hWorker] at hSome
      exact hPass p hSome

theorem Step.sound (h : Step r action r') (hSound : r.Sound) : r'.Sound := by
  have hPresent := h.present hSound
  by_cases hOther : action.OfAutosaver
  · cases h with
    | @tick t names hWaiting hListed =>
        refine hSound.of_worker (fun u p hBusy => ?_) (fun p hBusy => ?_) (fun hJoined => ?_) nofun
        · obtain ⟨rfl, rfl⟩ := Worker.busy.inj hBusy
          exact holds_begun hSound.regular hListed t
        · obtain ⟨rfl, rfl⟩ := Worker.busy.inj hBusy
          exact fun _ => nofun
        · rw [hSound.alone hJoined] at hWaiting
          cases hWaiting
    | @work t p p' m d hBusy hStep =>
        have hHolds := hSound.pass p (pass?_of_busy hBusy)
        have hAfter := hStep.holds hHolds
        refine ⟨hAfter.regular, hPresent, fun q hSome => ?_, fun q hFlush => ?_,
          fun hJoined => ?_, nofun⟩
        · obtain rfl : p' = q := Option.some.inj hSome
          exact hAfter
        · obtain ⟨rfl, rfl⟩ := Worker.busy.inj hFlush
          exact hStep.choosy hHolds (hSound.flush p hBusy)
        · rw [hSound.alone hJoined] at hBusy
          cases hBusy
    | rest hBusy hOver =>
        refine hSound.of_worker (fun _ _ => nofun) (fun _ => nofun) (fun hJoined => ?_) nofun
        rw [hSound.alone hJoined] at hBusy
        cases hBusy
    | quit hWaiting hStopped =>
        exact hSound.of_worker (fun _ _ => nofun) (fun _ => nofun) (fun _ => rfl) fun _ => hStopped
    | shutdown hOwner | drop hOwner =>
        exact hSound.of_owner (by rw [hOwner]; exact id) (fun _ => nofun) nofun fun _ => nofun
    | join hOwner hEnded hListed =>
        refine hSound.of_owner (by rw [hOwner]; exact id) (fun p hSome => ?_) (fun _ => hEnded)
          fun _ => nofun
        obtain rfl := Option.some.inj hSome
        exact holds_begun hSound.regular hListed .save
    | @save p p' m d hOwner hStep =>
        obtain ⟨hEnded, hPass⟩ := hSound.of_saving hOwner
        have hAfter := hStep.holds (hSound.pass p hPass)
        refine ⟨hAfter.regular, hPresent, fun q hSome => ?_, fun q hFlush => ?_, fun _ => hEnded,
          fun _ => nofun⟩
        · simp only [pass?, hEnded] at hSome
          obtain rfl : p' = q := Option.some.inj hSome
          exact hAfter
        · change r.worker = .busy .flush q at hFlush
          rw [hEnded] at hFlush
          cases hFlush
    | leave hMay hListed =>
        have hEnded := hSound.ended_of_mayLeave hMay
        exact hSound.of_owner (absurd trivial) (fun _ => nofun) (fun _ => hEnded) fun _ => nofun
    | keep hOwner hHeld =>
        have hEnded := hSound.alone (by rw [hOwner]; trivial)
        exact hSound.of_owner (absurd trivial) (fun _ => nofun) (fun _ => hEnded) fun _ => nofun
    | @release last name left s trace e hOwner hNobody hStore hRuns =>
        have hEnded := hSound.alone (by rw [hOwner]; trivial)
        refine ⟨hSound.regular.without name, hPresent, fun p hSome => ?_, fun p hBusy => ?_,
          fun _ => hEnded, fun _ => nofun⟩
        · rw [pass?, hEnded] at hSome
          cases hSome
        · change r.worker = .busy .flush p at hBusy
          rw [hEnded] at hBusy
          cases hBusy
    | finish hOwner =>
        have hEnded := hSound.alone (by rw [hOwner]; trivial)
        exact hSound.of_owner (absurd trivial) (fun _ => nofun) (fun _ => hEnded) fun _ => nofun
    | mutate | use | hold | elsewhere => cases hOther
  · obtain ⟨hEvolves, hRegular, hWorker, hOwner⟩ := h.evolves hOther hSound.regular
    have hPass : r'.pass? = r.pass? := by rw [pass?, pass?, hWorker, hOwner]
    refine ⟨hRegular, hPresent, fun p hSome => ?_, fun p hBusy => ?_, fun hJoined => ?_,
      fun hEnded => ?_⟩
    · exact (hSound.pass p (hPass ▸ hSome)).evolves hEvolves hRegular
    · exact (hSound.flush p (hWorker ▸ hBusy)).evolves hEvolves hSound.regular
    · rw [hWorker]
      exact hSound.alone (hOwner ▸ hJoined)
    · rw [hOwner]
      exact hSound.ended (hWorker ▸ hEnded)

theorem Ran.sound (h : Ran r log r') (hSound : r.Sound) : r'.Sound := by
  induction h with
  | nil r => exact hSound
  | cons first rest ih => exact ih (first.sound hSound)

theorem Ran.hasLeft (h : Ran r log r') (hLeft : r.owner.HasLeft) : r'.owner.HasLeft := by
  induction h with
  | nil r => exact hLeft
  | cons first rest ih => exact ih (first.hasLeft hLeft)

/-- As long as the owner has not left, no store has been let go. -/
theorem Ran.not_released (h : Ran r log r') (hHolds : ¬ r'.owner.HasLeft) (name : String) :
    .release name ∉ log := by
  induction h with
  | nil r => exact nofun
  | cons first rest ih =>
      refine List.not_mem_cons_of_ne_of_not_mem ?_ (ih hHolds)
      rintro rfl
      exact hHolds (rest.hasLeft first.hasLeft_of_release)

/-! ### Single passes -/

theorem Step.not_hasLeft_of_pass (h : Step r action r') (hSound : r.Sound)
    (hPass : r'.pass? = some p) : ¬ r'.owner.HasLeft := fun hLeft => by
  rw [(h.sound hSound).pass?_of_hasLeft hLeft] at hPass
  cases hPass

/-- While a pass is under way, no store is let go. -/
theorem Step.ne_release_of_pass (h : Step r action r') (hSound : r.Sound)
    (hPass : r'.pass? = some p) : action ≠ .release name := by
  rintro rfl
  exact h.not_hasLeft_of_pass hSound hPass h.hasLeft_of_release

/-- A store that the autosaver neither writes nor lets go stays as it is, with its file. -/
theorem Step.untouched {s : Store} (h : Step r action r') (hOwn : action.OfAutosaver)
    (hNot : action ≠ .release name) (hSound : r.Sound)
    (hStore : r.manager.stores.get? name = some s) :
    r'.manager.stores.get? name = some s ∧ r'.disk.read s.path = r.disk.read s.path ∨
      ∃ p, r'.pass? = some p ∧ p.Wrote name := by
  cases h with
  | work hBusy hStep =>
      exact (hStep.untouched hSound.regular hStore).imp_right fun hWrote => ⟨_, rfl, hWrote⟩
  | save hOwner hStep =>
      obtain ⟨hEnded, -⟩ := hSound.of_saving hOwner
      refine (hStep.untouched hSound.regular hStore).imp_right fun hWrote => ⟨_, ?_, hWrote⟩
      simp only [pass?, hEnded, Owner.pass?]
  | @release last own left s' trace e hOwner hNobody hOther hRuns =>
      have hNames : name ≠ own := by
        rintro rfl
        exact hNot rfl
      exact Or.inl ⟨(Manager.get?_without_of_ne _ hNames).trans hStore,
        hSound.regular.read_eq_of_reaches_release hOther hStore hNames hRuns.reaches⟩
  | mutate | use | hold | elsewhere => cases hOwn
  | _ => exact Or.inl ⟨hStore, rfl⟩

/-- A pass that is under way after a step was under way before. It has gone on by a step,
or others have done something. -/
theorem Step.pass_inv {p' : Pass} (h : Step r action r') (hSound : r.Sound)
    (hNone : action.begun? = none) (hPass : r'.pass? = some p') : ∃ p, r.pass? = some p ∧
      (Saving.Step r.target (r.seenBy p) (r'.seenBy p') ∨
        p' = p ∧ Evolves r.manager r.disk r'.manager r'.disk) := by
  have hHolds := h.not_hasLeft_of_pass hSound hPass
  by_cases hOther : action.OfAutosaver
  · cases h with
    | tick t hWaiting hListed => cases hNone
    | join hOwner hEnded hListed => cases hNone
    | work hBusy hStep =>
        obtain rfl := Option.some.inj hPass
        exact ⟨_, pass?_of_busy hBusy, Or.inl hStep⟩
    | rest hBusy hOver => exact ⟨p', hSound.pass?_of_owner hPass, Or.inr ⟨rfl, .refl _ _⟩⟩
    | quit hWaiting hStopped => exact ⟨p', hSound.pass?_of_owner hPass, Or.inr ⟨rfl, .refl _ _⟩⟩
    | shutdown hOwner => exact ⟨p', pass?_of_owner_none rfl hPass, Or.inr ⟨rfl, .refl _ _⟩⟩
    | drop hOwner => exact ⟨p', pass?_of_owner_none rfl hPass, Or.inr ⟨rfl, .refl _ _⟩⟩
    | save hOwner hStep =>
        obtain ⟨hEnded, hBefore⟩ := hSound.of_saving hOwner
        simp only [pass?, hEnded, Owner.pass?] at hPass
        obtain rfl := Option.some.inj hPass
        exact ⟨_, hBefore, Or.inl hStep⟩
    | leave | keep | release | finish => exact absurd trivial hHolds
    | mutate | use | hold | elsewhere => cases hOther
  · obtain ⟨hEvolves, -, hWorker, hOwner⟩ := h.evolves hOther hSound.regular
    have hSame : r'.pass? = r.pass? := by rw [pass?, pass?, hWorker, hOwner]
    exact ⟨p', hSame ▸ hPass, Or.inr ⟨rfl, hEvolves⟩⟩

theorem Step.begun (h : Step r action r') (hBegins : action.begun? = some t) :
    ∃ names, r.target.Lists r.manager names ∧ r'.pass? = some (Pass.onTick t names) ∧
      r'.manager = r.manager := by
  cases h with
  | tick u hWaiting hListed =>
      obtain rfl := Option.some.inj hBegins
      exact ⟨_, hListed, rfl, rfl⟩
  | join hOwner hEnded hListed =>
      obtain rfl := Option.some.inj hBegins
      refine ⟨_, hListed, ?_, rfl⟩
      simp only [pass?, hEnded]
      rfl
  | _ => cases hBegins

/-- What a pass still has before it are stores of the target. -/
def Covering (r : Running) : Prop :=
  ∀ p, r.pass? = some p → (r.seenBy p).Covered r.target

theorem Starts.covering (h : r.Starts) : r.Covering := fun p hPass => by
  rw [pass?, h.worker, h.owner] at hPass
  cases hPass

theorem Step.covering (h : Step r action r') (hSound : r.Sound) (hCovering : r.Covering) :
    r'.Covering := by
  intro p' hPass
  rw [h.target_eq]
  cases hBegins : action.begun? with
  | some t =>
      obtain ⟨names, hListed, hBegun, hManager⟩ := h.begun hBegins
      obtain rfl := Option.some.inj (hBegun.symm.trans hPass)
      rw [← hManager] at hListed
      intro name hName
      cases t <;> exact hListed.mem_iff.mp hName
  | none =>
      obtain ⟨p, hBefore, hGoes⟩ := h.pass_inv hSound hBegins hPass
      have hCovered := hCovering p hBefore
      rcases hGoes with hWorks | ⟨rfl, hOthers⟩
      · exact hWorks.covered hSound.regular hCovered
      · exact hCovered.evolves hOthers

theorem Ran.covering (h : Ran r log r') (hSound : r.Sound) (hCovering : r.Covering) :
    r'.Covering := by
  induction h with
  | nil r => exact hCovering
  | cons first rest ih => exact ih (first.sound hSound) (first.covering hSound hCovering)

/-- What every step of a pass preserves, and what others leave, holds to the end of it. -/
theorem Ran.keeps_pass {target : Target} {P : Saving → Prop}
    (hStep : ∀ q q', q.Holds → Saving.Step target q q' → P q → P q')
    (hEvolves : ∀ q m e, q.Holds → Evolves q.manager q.disk m e → P q → P ⟨m, e, q.pass⟩)
    (h : Ran r log r') (hTarget : r.target = target) (hNone : ∀ action ∈ log, action.begun? = none)
    (hSound : r.Sound) (hStart : ∀ p, r.pass? = some p → P (r.seenBy p)) :
    ∀ p, r'.pass? = some p → P (r'.seenBy p) := by
  induction h with
  | nil r => exact hStart
  | cons first rest ih =>
      refine ih (first.target_eq.trans hTarget) (fun action hAction =>
        hNone action (List.mem_cons_of_mem _ hAction)) (first.sound hSound) fun p' hPass => ?_
      obtain ⟨p, hBefore, hGoes⟩ := first.pass_inv hSound (hNone _ List.mem_cons_self) hPass
      have hHolds := hSound.pass p hBefore
      rcases hGoes with hWorks | ⟨rfl, hOthers⟩
      · exact hStep _ _ hHolds (hTarget ▸ hWorks) (hStart p hBefore)
      · exact hEvolves _ _ _ hHolds hOthers (hStart p' hBefore)

/-- At some moment between two moments the store held what the copy says. -/
def MadeDuring (r : Running) (log : List Action) (r' : Running) (name : String) (c : Copy) :
    Prop :=
  ∃ before middle after, log = before ++ after ∧ Ran r before middle ∧ Ran middle after r' ∧
    (middle.manager.stores.get? name).map Store.copy = some c

theorem MadeDuring.cons {middle : Running} (first : Step r action middle)
    (h : MadeDuring middle log r' name c) : MadeDuring r (action :: log) r' name c := by
  obtain ⟨before, at', after, rfl, hBefore, hAfter, hCopy⟩ := h
  exact ⟨action :: before, at', after, rfl, .cons first hBefore, hAfter, hCopy⟩

theorem MadeDuring.append {middle : Running} {before : List Action} (hBefore : Ran r before middle)
    (h : MadeDuring middle log r' name c) : MadeDuring r (before ++ log) r' name c := by
  obtain ⟨front, at', after, rfl, hFront, hAfter, hCopy⟩ := h
  exact ⟨before ++ front, at', after, (List.append_assoc _ _ _).symm, hBefore.append hFront, hAfter,
    hCopy⟩

/-- A copy that a pass has got in the meantime was the content of the store at some moment
in between. -/
theorem Ran.has (h : Ran r log r') (hSound : r.Sound) (hPass : r'.pass? = some p)
    (hHas : p.Has name c) :
    (∃ q, r.pass? = some q ∧ q.Has name c) ∨ MadeDuring r log r' name c := by
  induction h with
  | nil r => exact Or.inl ⟨p, hPass, hHas⟩
  | @cons action log r middle r' first rest ih =>
      rcases ih (first.sound hSound) hPass with ⟨q', hPass', hHas'⟩ | hMade
      · cases hBegins : action.begun? with
        | some t =>
            obtain ⟨names, -, hBegun, -⟩ := first.begun hBegins
            obtain rfl := Option.some.inj (hBegun.symm.trans hPass')
            exact absurd hHas' (Pass.not_has_onTick t names name c)
        | none =>
            obtain ⟨q, hBefore, hWorks | ⟨rfl, -⟩⟩ := first.pass_inv hSound hBegins hPass'
            · rcases hWorks.has hHas' with hHas | hNow
              · exact Or.inl ⟨q, hBefore, hHas⟩
              · exact Or.inr ⟨[], r, action :: log, rfl, .nil r, .cons first rest, hNow⟩
            · exact Or.inl ⟨q', hBefore, hHas'⟩
      · exact Or.inr (hMade.cons first)

end Running

end SnapshotStore.Autosaver
