import SnapshotStore.Proofs.Autosave.Account
import SnapshotStore.Proofs.Manager.Saving

/-! How an autosaver lets go of what it saves. By then the worker has ended, and no more is
saved but the stores that nobody else holds, each as it is let go, if it has anything to
save. Stores that others hold are left alone, with their files. -/
namespace SnapshotStore.Autosaver

open Disk Store
open Program (Runs)
open Snapshot (WritesSucceed)

namespace Running

variable {r r' : Running} {action : Action} {log : List Action} {name : String} {c : Copy}
  {s : Store} {m : Manager} {d e : Disk} {trace : List Event}

/-! ### When no more is saved -/

/-- The worker has ended, and the owner makes no pass any more. -/
structure IsQuiet (r : Running) : Prop where
  worker : r.worker = .ended
  owner : r.owner.SavesNoMore

theorem IsQuiet.pass?_eq_none (h : r.IsQuiet) : r.pass? = none :=
  Running.pass?_eq_none h.worker h.owner

theorem Sound.isQuiet (h : r.Sound) (hLeft : r.owner.HasLeft) : r.IsQuiet :=
  ⟨h.alone hLeft.hasJoined, hLeft.savesNoMore⟩

theorem Step.isQuiet (h : Step r action r') (hQuiet : r.IsQuiet) : r'.IsQuiet := by
  obtain ⟨hEnded, hOwner⟩ := hQuiet
  cases h with
  | tick t hWorker | work hWorker | rest hWorker | quit hWorker =>
      rw [hEnded] at hWorker
      cases hWorker
  | shutdown hBefore | drop hBefore | join hBefore | save hBefore =>
      rw [hBefore] at hOwner
      cases hOwner
  | leave | keep | release | finish => exact ⟨hEnded, trivial⟩
  | _ => exact ⟨hEnded, hOwner⟩

theorem Ran.isQuiet (h : Ran r log r') (hQuiet : r.IsQuiet) : r'.IsQuiet := by
  induction h with
  | nil r => exact hQuiet
  | cons first rest ih => exact ih (first.isQuiet hQuiet)

/-- A store that is not let go is left alone from then on. -/
theorem Ran.kept_of_isQuiet (h : Ran r log r') (hSound : r.Sound) (hQuiet : r.IsQuiet)
    (hStays : .release name ∉ log) : Kept r log r' name := by
  induction h with
  | nil r => exact kept_refl r name
  | cons first rest ih =>
      have hMiddle := first.isQuiet hQuiet
      refine Kept.trans (first.kept hSound (List.ne_of_not_mem_cons hStays).symm fun p hPass => ?_)
        (ih (first.sound hSound) hMiddle (List.not_mem_of_not_mem_cons hStays))
      rw [hMiddle.pass?_eq_none] at hPass
      cases hPass

theorem Ran.cleanAt_of_isQuiet (h : Ran r log r') (hSound : r.Sound) (hQuiet : r.IsQuiet)
    (hSame : .mutate name ∉ log) (hClean : r.CleanAt name) : r'.CleanAt name := by
  induction h with
  | nil r => exact hClean
  | cons first rest ih =>
      have hMiddle := first.isQuiet hQuiet
      refine ih (first.sound hSound) hMiddle (List.not_mem_of_not_mem_cons hSame) ?_
      refine first.cleanAt hSound (fun p hPass => ?_) (List.ne_of_not_mem_cons hSame).symm hClean
      rw [hMiddle.pass?_eq_none] at hPass
      cases hPass

/-! ### One store -/

/-- Only a store that nobody else holds is let go. What it has to save is saved then, and the
other stores are left alone. -/
theorem Step.released (h : Step r (.release name) r') : ∃ s trace,
    r.manager.stores.get? name = some s ∧ name ∉ r.held ∧ r'.manager = r.manager.without name ∧
      s.Released r.disk trace r'.disk := by
  cases h with
  | @release last own left s trace e hOwner hNobody hStore hRuns =>
      exact ⟨s, trace, hStore, hNobody, rfl, released_of_runs hRuns⟩

/-- A copy that was saved stays in the file of a store that is not let go. -/
theorem Ran.filed_of_isQuiet (h : Ran r log r') (hSound : r.Sound) (hQuiet : r.IsQuiet)
    (hStays : .release name ∉ log) (hFiled : Filed r.manager r.disk name c) :
    Filed r'.manager r'.disk name c := by
  obtain ⟨s, hStore, hBehind, hSaved, hRead⟩ := hFiled
  obtain ⟨s', hStore', hConfig, hSaved', -, hFile, -⟩ :=
    h.kept_of_isQuiet hSound hQuiet hStays s hStore
  obtain ⟨s'', hStore'', hLess, hData, -⟩ := h.advances hSound hStays hStore
  obtain rfl := Option.some.inj (hStore'.symm.trans hStore'')
  have hPath : s'.path = s.path := congrArg Config.path hConfig
  refine ⟨s', hStore', behind_of_generation hBehind hLess hData, hSaved'.trans hSaved, ?_⟩
  rw [hPath, hConfig]
  exact hFile _ hRead

/-- When a store with a copy in its file is let go, the file has that copy afterwards, or
what the store held last, if it had something to save. -/
theorem Step.read_of_released (h : Step r (.release name) r')
    (hFiled : Filed r.manager r.disk name c) : ∃ s data, r.manager.stores.get? name = some s ∧
      (data = c.data ∨ s.isDirty = true ∧ data = s.data) ∧
      r'.disk.read s.path = .ok (Snapshot.content s.config.layout data) := by
  obtain ⟨s, hStore, -, -, hRead⟩ := hFiled
  obtain ⟨s', trace, hStore', -, -, hReleased⟩ := h.released
  obtain rfl := Option.some.inj (hStore'.symm.trans hStore)
  by_cases hUnsaved : s'.isDirty = true ∧ WritesSucceed s'.path trace
  · obtain ⟨hDirty, hWrites⟩ := hUnsaved
    exact ⟨s', s'.data, hStore, Or.inr ⟨hDirty, rfl⟩, hReleased.written hDirty hWrites⟩
  · have hKept : s'.isDirty = false ∨ ¬ WritesSucceed s'.path trace := by
      rwa [not_and_or, Bool.not_eq_true] at hUnsaved
    exact ⟨s', c.data, hStore, Or.inl rfl, (hReleased.kept hKept).trans hRead⟩

/-- A store of the name was let go, and nothing is open under it now. -/
structure Shut (r : Running) (name : String) (s : Store) : Prop where
  missing : r.manager.stores.get? name = none
  checked : Config.checkName name = .ok ()
  config : s.config = r.manager.config.forStore name

theorem Step.shut (h : Step r (.release name) r') (hSound : r.Sound)
    (hStore : r.manager.stores.get? name = some s) : Shut r' name s := by
  obtain ⟨-, -, -, -, hManager, -⟩ := h.released
  obtain ⟨hName, hSetup, -⟩ := hSound.regular name s hStore
  refine ⟨?_, hName, ?_⟩
  · rw [hManager, Manager.get?_without_self]
  · rw [hManager]
    exact hSetup

/-- The file of a store that was let go is left alone by the autosaver, and by others who do
not use the disk. -/
theorem Step.stays_shut (h : Step r action r') (hSound : r.Sound) (hQuiet : r.IsQuiet)
    (hNobody : ¬ action.UsesDisk) (hShut : Shut r name s) :
    Shut r' name s ∧ r'.disk.read s.path = r.disk.read s.path := by
  obtain ⟨hMissing, hName, hSetup⟩ := hShut
  cases h with
  | work hBusy hStep =>
      rw [hQuiet.worker] at hBusy
      cases hBusy
  | save hSaving hStep =>
      have hOwner := hQuiet.owner
      rw [hSaving] at hOwner
      cases hOwner
  | @release last own left t trace e hOwner hHeld hStore hRuns =>
      have hNames : name ≠ own := by
        rintro rfl
        rw [hMissing] at hStore
        cases hStore
      exact ⟨⟨(Manager.get?_without_of_ne _ hNames).trans hMissing, hName, hSetup⟩,
        hSound.regular.read_eq_of_onlyFiles hStore hName hSetup hNames
          (onlyFiles_of_reaches_release hRuns.reaches)⟩
  | @mutate α own operation outcome t t' hHeld hStore hMutation hRuns =>
      have hNames : name ≠ own := by
        rintro rfl
        rw [hMissing] at hStore
        cases hStore
      have hConfig := (Operation.change_of_isMutation hMutation hRuns).config
      exact ⟨⟨(hSound.regular.get?_put_of_ne hStore hConfig hNames).trans hMissing, hName, hSetup⟩,
        rfl⟩
  | use | elsewhere => exact absurd trivial hNobody
  | _ => exact ⟨⟨hMissing, hName, hSetup⟩, rfl⟩

theorem Ran.stays_shut (h : Ran r log r') (hSound : r.Sound) (hQuiet : r.IsQuiet)
    (hNobody : ∀ action ∈ log, ¬ action.UsesDisk) (hShut : Shut r name s) :
    r'.disk.read s.path = r.disk.read s.path := by
  induction h with
  | nil r => rfl
  | cons first rest ih =>
      obtain ⟨hFirst, hRest⟩ := List.forall_mem_cons.mp hNobody
      obtain ⟨hShut', hRead⟩ := first.stays_shut hSound hQuiet hFirst hShut
      exact (ih (first.sound hSound) (first.isQuiet hQuiet) hRest hShut').trans hRead

/-- What has become of a copy that was in the file of a store. It is there still; or the
store has been let go since. Then the file had the copy, or what the store held last if
it had changed, and has it still unless others have used the disk. -/
def Stays (r : Running) (log : List Action) (r' : Running) (name : String) (c : Copy) : Prop :=
  Filed r'.manager r'.disk name c ∨ ∃ before letting gone after s data,
    log = before ++ .release name :: after ∧ Ran r before letting ∧
    Step letting (.release name) gone ∧ Ran gone after r' ∧
    letting.manager.stores.get? name = some s ∧ Filed letting.manager letting.disk name c ∧
    (data = c.data ∨ s.isDirty = true ∧ data = s.data) ∧
    gone.disk.read s.path = .ok (Snapshot.content s.config.layout data) ∧
    ((∀ action ∈ after, ¬ action.UsesDisk) → r'.disk.read s.path = gone.disk.read s.path)

theorem Ran.stays (h : Ran r log r') (hSound : r.Sound) (hQuiet : r.IsQuiet)
    (hFiled : Filed r.manager r.disk name c) : Stays r log r' name c := by
  by_cases hMember : .release name ∈ log
  · obtain ⟨before, after, rfl, hFirst⟩ := List.eq_append_cons_of_mem hMember
    obtain ⟨letting, hBefore, hRest⟩ := h.append_inv
    cases hRest with
    | @cons _ _ _ gone _ hRelease hAfter =>
        have hLetting := hBefore.sound hSound
        have hKept := hBefore.filed_of_isQuiet hSound hQuiet hFirst hFiled
        obtain ⟨s, data, hStore, hData, hRead⟩ := hRelease.read_of_released hKept
        have hGone : gone.IsQuiet := hRelease.isQuiet (hBefore.isQuiet hQuiet)
        exact Or.inr ⟨before, letting, gone, after, s, data, rfl, hBefore, hRelease, hAfter, hStore,
          hKept, hData, hRead, fun hNobody => hAfter.stays_shut (hRelease.sound hLetting) hGone
            hNobody (hRelease.shut hLetting hStore)⟩
  · exact Or.inl (h.filed_of_isQuiet hSound hQuiet hMember hFiled)

/-! ### Leaving as a single program -/

/-- What letting go of the target does as a single program, where others hold these stores. -/
inductive Leaves (held : List String) (m : Manager) (d : Disk) :
    Target → List Event → Disk → Prop where
  | kept {own : String} (hHeld : own ∈ held) : Leaves held m d (.store own) [] d
  | store {own : String} {s : Store} {trace : List Event} {e : Disk} (hNobody : own ∉ held)
      (hStore : m.stores.get? own = some s) (hRuns : Runs s.release d trace () e) :
      Leaves held m d (.store own) trace e
  | all {trace : List Event} {e : Disk}
      (hRuns : Runs (m.release fun name => name ∈ held) d trace () e) :
      Leaves held m d .all trace e

/-- Letting go of the target always comes to an end. -/
theorem exists_leaves {target : Target} (held : List String) (m : Manager) (d : Disk)
    (hOpen : ∀ name, target.Covers m name → ∃ s, m.stores.get? name = some s) :
    ∃ trace e, Leaves held m d target trace e := by
  cases target with
  | store own =>
      by_cases hHeld : own ∈ held
      · exact ⟨[], d, .kept hHeld⟩
      · obtain ⟨s, hStore⟩ := hOpen own rfl
        obtain ⟨trace, hRuns⟩ := Program.exists_runs 0 s.release d
        exact ⟨trace, _, .store hHeld hStore hRuns⟩
  | all =>
      obtain ⟨trace, hRuns⟩ := Program.exists_runs 0 (m.release fun name => name ∈ held) d
      exact ⟨trace, _, .all hRuns⟩

/-- A store that the target stands for and that nobody else holds is let go, with what it
has to save; the files of the others are left alone. -/
theorem Leaves.spec {target : Target} {held : List String}
    (h : Leaves held m d target trace e) (hRegular : m.Regular)
    (hStore : m.stores.get? name = some s) :
    (target.Covers m name → name ∉ held → s.Released d trace e) ∧
      (¬ target.Covers m name ∨ name ∈ held → e.read s.path = d.read s.path) := by
  cases h with
  | kept hHeld =>
      refine ⟨fun hCovers hNot => absurd ?_ hNot, fun _ => rfl⟩
      rwa [show name = _ from hCovers]
  | @store own t trace e hNobody hOwn hRuns =>
      refine ⟨fun hCovers _ => ?_, fun hOther => ?_⟩
      · obtain rfl : name = own := hCovers
        obtain rfl := Option.some.inj (hStore.symm.trans hOwn)
        exact released_of_runs hRuns
      · have hNames : name ≠ own := by
          rintro rfl
          exact hOther.elim (absurd rfl) hNobody
        exact hRegular.read_eq_of_reaches_release hOwn hStore hNames hRuns.reaches
  | all hRuns =>
      obtain ⟨hReleased, hKept⟩ := hRegular.released_of_runs hRuns hStore
      refine ⟨fun _ hNot => hReleased (decide_eq_false hNot), fun hOther => hKept ?_⟩
      exact decide_eq_true (hOther.resolve_left
        (not_not.mpr (KeyMap.mem_keys_iff_exists.mpr ⟨s, hStore⟩)))

/-- Of these names, the ones that nobody else holds are no longer open in the later manager,
and whatever else was open is open still. -/
def LetGo (held names : List String) (m m' : Manager) : Prop :=
  ∀ name, (name ∈ names → name ∉ held → m'.stores.get? name = none) ∧
    (name ∉ names ∨ name ∈ held → m'.stores.get? name = m.stores.get? name)

theorem letGo_nil (held : List String) (m : Manager) : LetGo held [] m m :=
  fun _ => ⟨nofun, fun _ => rfl⟩

theorem LetGo.keep {held names : List String} {m' : Manager} (h : LetGo held names m m')
    (hHeld : name ∈ held) : LetGo held (name :: names) m m' := by
  refine fun other => ⟨fun hMember hNot => ?_, fun hOther => (h other).2 ?_⟩
  · refine (h other).1 ((List.mem_cons.mp hMember).resolve_left ?_) hNot
    rintro rfl
    exact hNot hHeld
  · exact hOther.imp_left List.not_mem_of_not_mem_cons

theorem LetGo.release {held names : List String} {m' : Manager}
    (h : LetGo held names (m.without name) m') (hNobody : name ∉ held) (hNew : name ∉ names) :
    LetGo held (name :: names) m m' := by
  refine fun other => ⟨fun hMember hNot => ?_, fun hOther => ?_⟩
  · rcases List.mem_cons.mp hMember with rfl | hRest
    · rw [(h other).2 (Or.inl hNew), Manager.get?_without_self]
    · exact (h other).1 hRest hNot
  · have hNames : other ≠ name := by
      rintro rfl
      exact hOther.elim (fun hNot => hNot List.mem_cons_self) hNobody
    rw [(h other).2 (hOther.imp_left List.not_mem_of_not_mem_cons),
      Manager.get?_without_of_ne _ hNames]

/-- Stores are let go one after the other, those that others hold left out. -/
theorem ran_of_leaving {last : Option Pass} {entries : List (String × Store)}
    (hOwner : r.owner = .leaving last (entries.map Prod.fst))
    (hNodup : (entries.map Prod.fst).Nodup)
    (hOpen : ∀ entry ∈ entries, r.manager.stores.get? entry.1 = some entry.2)
    (h : Runs ((entries.filter fun entry => !decide (entry.1 ∈ r.held)).forM
      fun entry => entry.2.release) r.disk trace () e) :
    ∃ log m, Ran r log { r with manager := m, disk := e, owner := .leaving last [] } ∧
      LetGo r.held (entries.map Prod.fst) r.manager m := by
  induction entries generalizing r trace with
  | nil =>
      obtain ⟨-, -, rfl⟩ := h.pure_inv
      refine ⟨[], r.manager, ?_, letGo_nil r.held r.manager⟩
      have hSame : { r with owner := .leaving last [] } = r := by
        rw [← show r.owner = .leaving last [] from hOwner]
      rw [hSame]
      exact .nil r
  | cons entry rest ih =>
      obtain ⟨own, s⟩ := entry
      obtain ⟨hNew, hRest⟩ := List.nodup_cons.mp hNodup
      have hLeft : ∀ other ∈ rest, r.manager.stores.get? other.1 = some other.2 :=
        fun other hOther => hOpen other (List.mem_cons_of_mem _ hOther)
      by_cases hHeld : own ∈ r.held
      · rw [List.filter_cons_of_neg (by simpa using hHeld)] at h
        obtain ⟨log, m, hRan, hLetGo⟩ := ih
          (r := { r with owner := .leaving last (rest.map Prod.fst) }) rfl hRest hLeft h
        exact ⟨.keep :: log, m, .cons (.keep hOwner hHeld) hRan, hLetGo.keep hHeld⟩
      · rw [List.filter_cons_of_pos (by simpa using hHeld), List.forM] at h
        obtain ⟨_, _, _, c, -, hRelease, hOthers⟩ := h.bind_inv
        have hStore : r.manager.stores.get? own = some s := hOpen (own, s) List.mem_cons_self
        have hOpen' : ∀ other ∈ rest,
            (r.manager.without own).stores.get? other.1 = some other.2 := fun other hOther => by
          have hMember : other.1 ∈ rest.map Prod.fst := List.mem_map_of_mem hOther
          have hNames : other.1 ≠ own := fun hSame => hNew (hSame ▸ hMember)
          exact (Manager.get?_without_of_ne _ hNames).trans (hLeft other hOther)
        obtain ⟨log, m, hRan, hLetGo⟩ := ih
          (r := { r with manager := r.manager.without own, disk := c,
                         owner := .leaving last (rest.map Prod.fst) }) rfl hRest hOpen' hOthers
        exact ⟨.release own :: log, m, .cons (.release hOwner hHeld hStore hRelease) hRan,
          hLetGo.release hHeld hNew⟩

/-- An owner that leaves without anything coming between does what letting go of the target
does as a single program. What was open is open still, apart from the stores of the target
that nobody else holds. -/
theorem ran_of_leaves {last : Option Pass} (hMay : r.MayLeave last)
    (h : Leaves r.held r.manager r.disk r.target trace e) :
    ∃ names log m, r.target.Lists r.manager names ∧
      Ran r (.leave :: (log ++ [.finish]))
        { r with manager := m, disk := e, owner := .gone last } ∧
      LetGo r.held names r.manager m := by
  obtain ⟨target, manager, disk, worker, owner, held⟩ := r
  cases h with
  | @kept own hHeld =>
      exact ⟨[own], [.keep], manager, rfl, .cons (.leave hMay rfl) <| .cons (.keep rfl hHeld) <|
        .cons (.finish rfl) (.nil _), (letGo_nil held manager).keep hHeld⟩
  | @store own s trace e hNobody hStore hRuns =>
      exact ⟨[own], [.release own], manager.without own, rfl, .cons (.leave hMay rfl) <|
        .cons (.release rfl hNobody hStore hRuns) <| .cons (.finish rfl) (.nil _),
        (letGo_nil held _).release hNobody nofun⟩
  | @all trace e hRuns =>
      have hOpen : ∀ entry ∈ manager.stores.entries,
          manager.stores.get? entry.1 = some entry.2 :=
        fun entry hEntry => KeyMap.get?_eq_some_iff.mpr hEntry
      obtain ⟨log, m, hRan, hLetGo⟩ := ran_of_leaving
        (r := ⟨.all, manager, disk, worker, .leaving last manager.names, held⟩) rfl
        manager.stores.nodup_keys hOpen hRuns
      exact ⟨manager.names, log, m, .refl _, .cons (.leave hMay (.refl _))
        (hRan.append (.cons (.finish rfl) (.nil _))), hLetGo⟩

end Running

end SnapshotStore.Autosaver
