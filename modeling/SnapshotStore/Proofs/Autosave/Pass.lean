import Mathlib.Data.List.Nodup
import Mathlib.Logic.Relation
import SnapshotStore.Autosave
import SnapshotStore.Proofs.Manager.Regular
import SnapshotStore.Proofs.Store.Shared

/-! One pass of an autosaver over what it saves. A pass that saves everything lists the
stores and saves them one after the other. One that saves only what has changed first
asks whether there is anything, then lists the stores again and leaves out those that are
clean. Stores may change while they are examined, copied and written; the pass keeps
account of which it has found clean, and of what has become of each save. -/
namespace SnapshotStore

open Disk Store
open Program (Runs Reaches)

namespace Autosaver

variable {target : Target} {m m' : Manager} {d e : Disk} {name : String} {c : Copy}

/-- The store is among those that the target stands for. -/
def Target.Covers (target : Target) (m : Manager) (name : String) : Prop :=
  match target with
  | .store own => name = own
  | .all => name ∈ m.names

/-- One listing of the target: one store, or all that are open, in whatever order. -/
def Target.Lists (target : Target) (m : Manager) (names : List String) : Prop :=
  match target with
  | .store own => names = [own]
  | .all => names.Perm m.names

theorem Target.exists_lists (target : Target) (m : Manager) : ∃ names, target.Lists m names := by
  cases target with
  | store own => exact ⟨[own], rfl⟩
  | all => exact ⟨m.names, .refl _⟩

theorem Target.Lists.mem_iff {names : List String} (h : target.Lists m names) :
    name ∈ names ↔ target.Covers m name := by
  cases target with
  | store own => rw [show names = [own] from h, List.mem_singleton]; rfl
  | all => exact List.Perm.mem_iff h

theorem Target.Lists.nodup {names : List String} (h : target.Lists m names) : names.Nodup := by
  cases target with
  | store own => rw [show names = [own] from h]; exact List.pairwise_singleton _ own
  | all => exact (List.Perm.nodup_iff h).mpr m.stores.nodup_keys

/-- What is covered is covered as long as the stores stay open. -/
theorem Target.Covers.mono (h : target.Covers m name) (hOpen : ∀ s, m.stores.get? name = some s →
    ∃ s', m'.stores.get? name = some s') : target.Covers m' name := by
  cases target with
  | store own => exact h
  | all =>
      obtain ⟨s, hStore⟩ := KeyMap.mem_keys_iff_exists.mp h
      exact KeyMap.mem_keys_iff_exists.mpr (hOpen s hStore)

/-- What is covered in the end and was not before was not open. -/
theorem Target.Covers.get?_eq_none (h : target.Covers m' name) (hNot : ¬ target.Covers m name) :
    m.stores.get? name = none := by
  cases target with
  | store own => exact absurd h hNot
  | all =>
      refine Option.eq_none_iff_forall_ne_some.mpr fun s hStore => hNot ?_
      exact KeyMap.mem_keys_iff_exists.mpr ⟨s, hStore⟩

/-! ### Passes -/

/-- Where a pass is, with the names that it still has before it. -/
inductive Stage where
  | asking (left : List String)
  | choosing (left chosen : List String)
  | saving (left : List String)
  | copied (name : String) (c : Copy) (left : List String)
  | written (name : String) (c : Copy) (left : List String)

namespace Stage

/-- The stores that the pass may still save. -/
def names : Stage → List String
  | .asking left => left
  | .choosing left chosen => chosen ++ left
  | .saving left => left
  | .copied name _ left | .written name _ left => name :: left

/-- The stores that were chosen, and have not been written yet. -/
def chosen : Stage → List String
  | .asking _ => []
  | .choosing _ chosen => chosen
  | .saving left | .written _ _ left => left
  | .copied name _ left => name :: left

/-- The stores have been chosen. -/
def IsSaving : Stage → Prop
  | .asking _ | .choosing _ _ => False
  | _ => True

/-- Nothing is known yet but that some stores are clean. -/
def IsAsking : Stage → Prop
  | .asking _ => True
  | _ => False

/-- The copy that is being saved. -/
def copy? : Stage → Option (String × Copy)
  | .copied name c _ | .written name c _ => some (name, c)
  | _ => none

end Stage

/-- A pass: the stores that it has listed, those that it has found clean, and what has
become of the saves, with the copy that was saved, or the error. -/
structure Pass where
  listed : List String
  clean : List String
  saved : List (String × Except StoreError Copy)
  stage : Stage

namespace Pass

/-- A pass that saves everything. -/
def saveAll (names : List String) : Pass :=
  ⟨names, [], [], .saving names⟩

/-- A pass that saves what has changed. -/
def saveDirty (names : List String) : Pass :=
  ⟨names, [], [], .asking names⟩

/-- The pass on a tick. -/
def onTick : Tick → List String → Pass
  | .save => saveAll
  | .flush => saveDirty

/-- Nothing is left to do. -/
def IsOver (p : Pass) : Prop :=
  p.stage = .asking [] ∨ p.stage = .saving []

/-- What several saves report: the first error. -/
def reported : List (String × Except StoreError Copy) → Except StoreError Unit
  | [] => .ok ()
  | (_, result) :: rest => Manager.firstError (result.map fun _ => ()) (reported rest)

def outcome (p : Pass) : Except StoreError Unit :=
  reported p.saved

/-- The file of the store was written. -/
def Wrote (p : Pass) (name : String) : Prop :=
  (∃ c, (name, .ok c) ∈ p.saved) ∨ ∃ c left, p.stage = .written name c left

/-- The pass has made this copy of the store. -/
def Has (p : Pass) (name : String) (c : Copy) : Prop :=
  (name, .ok c) ∈ p.saved ∨ p.stage.copy? = some (name, c)

/-- A pass begins with nothing. -/
theorem not_has_onTick (t : Tick) (names : List String) (name : String) (c : Copy) :
    ¬ (onTick t names).Has name c := by
  cases t <;> (rintro (hSaved | hCopy); cases hSaved; cases hCopy)

theorem exists_of_reported_eq_ok {saved : List (String × Except StoreError Copy)}
    (h : reported saved = .ok ()) {result : Except StoreError Copy}
    (hSaved : (name, result) ∈ saved) : ∃ c, result = .ok c := by
  induction saved with
  | nil => cases hSaved
  | cons entry rest ih =>
      obtain ⟨other, own⟩ := entry
      cases own with
      | error error => cases h
      | ok c =>
          rcases List.mem_cons.mp hSaved with hFirst | hRest
          · exact ⟨c, (Prod.mk.inj hFirst).2⟩
          · exact ih h hRest

end Pass

/-- A pass together with the stores and the disk. -/
structure Saving where
  manager : Manager
  disk : Disk
  pass : Pass

namespace Saving

variable {p p' : Saving} {s : Store}

/-- The same at another stage. -/
def moveTo (p : Saving) (stage : Stage) : Saving :=
  { p with pass := { p.pass with stage } }

/-- A store has been found clean. -/
def leaveOut (p : Saving) (name : String) (stage : Stage) : Saving :=
  { p with pass := { p.pass with clean := p.pass.clean ++ [name], stage } }

/-- The save of a store has come to an end. -/
def record (p : Saving) (name : String) (result : Except StoreError Copy) (stage : Stage) :
    Saving :=
  { p with pass := { p.pass with saved := p.pass.saved ++ [(name, result)], stage } }

/-- One step of a pass. Writing a copy is a single step here. -/
inductive Step (target : Target) (p : Saving) : Saving → Prop where
  | askOn {name : String} {left : List String} {s : Store}
      (hStage : p.pass.stage = .asking (name :: left))
      (hStore : p.manager.stores.get? name = some s) (hClean : s.isDirty = false) :
      Step target p (p.leaveOut name (.asking left))
  | list {name : String} {left names : List String} {s : Store}
      (hStage : p.pass.stage = .asking (name :: left))
      (hStore : p.manager.stores.get? name = some s) (hDirty : s.isDirty = true)
      (hListed : target.Lists p.manager names) :
      Step target p { p with pass := ⟨names, [], p.pass.saved, .choosing names []⟩ }
  | leaveOut {name : String} {left chosen : List String} {s : Store}
      (hStage : p.pass.stage = .choosing (name :: left) chosen)
      (hStore : p.manager.stores.get? name = some s) (hClean : s.isDirty = false) :
      Step target p (p.leaveOut name (.choosing left chosen))
  | choose {name : String} {left chosen : List String} {s : Store}
      (hStage : p.pass.stage = .choosing (name :: left) chosen)
      (hStore : p.manager.stores.get? name = some s) (hDirty : s.isDirty = true) :
      Step target p (p.moveTo (.choosing left (chosen ++ [name])))
  | begin {chosen : List String} (hStage : p.pass.stage = .choosing [] chosen) :
      Step target p (p.moveTo (.saving chosen))
  | copy {name : String} {left : List String} {s : Store}
      (hStage : p.pass.stage = .saving (name :: left))
      (hStore : p.manager.stores.get? name = some s) :
      Step target p (p.moveTo (.copied name s.copy left))
  | write {name : String} {c : Copy} {left : List String} {s : Store} {trace : List Event}
      {e : Disk} (hStage : p.pass.stage = .copied name c left)
      (hStore : p.manager.stores.get? name = some s)
      (hWrite : Runs (s.writeCopy c) p.disk trace (.ok ()) e) :
      Step target p ({ p with disk := e }.moveTo (.written name c left))
  | fail {name : String} {c : Copy} {left : List String} {s : Store} {trace : List Event}
      {fault : Disk.Fault} {e : Disk} (hStage : p.pass.stage = .copied name c left)
      (hStore : p.manager.stores.get? name = some s)
      (hWrite : Runs (s.writeCopy c) p.disk trace (.error fault) e) :
      Step target p ({ p with disk := e }.record name (.error (.disk fault)) (.saving left))
  | publish {name : String} {c : Copy} {left : List String} {s : Store}
      (hStage : p.pass.stage = .written name c left)
      (hStore : p.manager.stores.get? name = some s) :
      Step target p ({ p with manager := p.manager.put (s.publish c) }.record name (.ok c)
        (.saving left))

/-- Any number of steps of a pass, with nothing in between. -/
def Steps (target : Target) : Saving → Saving → Prop :=
  Relation.ReflTransGen (Step target)

end Saving

/-! ### What a pass relies on -/

/-- The file of an open store holds this copy, and the store counts it as saved. -/
def Filed (m : Manager) (d : Disk) (name : String) (c : Copy) : Prop :=
  ∃ s, m.stores.get? name = some s ∧ c.Behind s ∧ s.savedGeneration = c.generation ∧
    d.read s.path = .ok (Snapshot.content s.config.layout c.data)

/-- A copy that is being saved is not ahead of its store, and is in the file once it was
written. -/
def Stage.Fits (m : Manager) (d : Disk) : Stage → Prop
  | .copied name c _ => ∃ s, m.stores.get? name = some s ∧ c.Behind s
  | .written name c _ => ∃ s, m.stores.get? name = some s ∧ c.Behind s ∧
    d.read s.path = .ok (Snapshot.content s.config.layout c.data)
  | _ => True

/-- What others may do while a pass is under way: change stores, count the changes, and
leave what the files of the stores hold. What counts as saved is not theirs. -/
structure Evolves (m : Manager) (d : Disk) (m' : Manager) (e : Disk) : Prop where
  stores : ∀ name s, m.stores.get? name = some s → ∃ s', m'.stores.get? name = some s' ∧
    s'.config = s.config ∧ s'.savedGeneration = s.savedGeneration ∧
    s.generation ≤ s'.generation ∧ (s'.generation = s.generation → s'.data = s.data)
  files : ∀ name s content, m.stores.get? name = some s → d.read s.path = .ok content →
    e.read s.path = .ok content

variable {s s' : Store}

theorem behind_of_generation (h : c.Behind s) (hLess : s.generation ≤ s'.generation)
    (hData : s'.generation = s.generation → s'.data = s.data) : c.Behind s' := by
  obtain ⟨hBehind, hSame⟩ := h
  refine ⟨hBehind.trans hLess, fun hEqual => ?_⟩
  have hStays : s'.generation = s.generation := by omega
  rw [hSame (hEqual.trans hStays), hData hStays]

theorem Evolves.refl (m : Manager) (d : Disk) : Evolves m d m d :=
  ⟨fun _ s hStore => ⟨s, hStore, rfl, rfl, Nat.le_refl _, fun _ => rfl⟩, fun _ _ _ _ => id⟩

theorem Evolves.covers (h : Evolves m d m' e) (hCovers : target.Covers m name) :
    target.Covers m' name :=
  hCovers.mono fun s hStore => by
    obtain ⟨s', hStore', -⟩ := h.stores name s hStore
    exact ⟨s', hStore'⟩

theorem Evolves.filed (h : Evolves m d m' e) (hFiled : Filed m d name c) : Filed m' e name c := by
  obtain ⟨s, hStore, hBehind, hSaved, hRead⟩ := hFiled
  obtain ⟨s', hStore', hConfig, hSaved', hLess, hData⟩ := h.stores name s hStore
  have hPath : s'.path = s.path := congrArg Config.path hConfig
  refine ⟨s', hStore', behind_of_generation hBehind hLess hData, hSaved'.trans hSaved, ?_⟩
  rw [hPath, hConfig]
  exact h.files name s _ hStore hRead

theorem Evolves.fits {stage : Stage} (h : Evolves m d m' e) (hFits : stage.Fits m d) :
    stage.Fits m' e := by
  cases stage with
  | copied name c left =>
      obtain ⟨s, hStore, hBehind⟩ := hFits
      obtain ⟨s', hStore', -, -, hLess, hData⟩ := h.stores name s hStore
      exact ⟨s', hStore', behind_of_generation hBehind hLess hData⟩
  | written name c left =>
      obtain ⟨s, hStore, hBehind, hRead⟩ := hFits
      obtain ⟨s', hStore', hConfig, -, hLess, hData⟩ := h.stores name s hStore
      have hPath : s'.path = s.path := congrArg Config.path hConfig
      refine ⟨s', hStore', behind_of_generation hBehind hLess hData, ?_⟩
      rw [hPath, hConfig]
      exact h.files name s _ hStore hRead
  | _ => trivial

/-- A store with something to save still has it after others have changed it. -/
theorem Evolves.exists_dirty (h : Evolves m d m' e) (hRegular : m.Regular)
    (hDirty : ∃ s, m.stores.get? name = some s ∧ s.isDirty = true) :
    ∃ s', m'.stores.get? name = some s' ∧ s'.isDirty = true := by
  obtain ⟨s, hStore, hDirty⟩ := hDirty
  obtain ⟨s', hStore', -, hSaved, hLess, -⟩ := h.stores name s hStore
  have hBehind := (hRegular name s hStore).2.2
  simp only [isDirty, ne_eq, decide_not, Bool.not_eq_true', decide_eq_false_iff_not] at hDirty ⊢
  exact ⟨s', hStore', by omega⟩

namespace Saving

variable {p p' : Saving} {other : String} {c' : Copy}

/-- What holds at every moment of a pass: each listed store is found clean, or its save has
come to an end, or it is still before the pass; and the copies that were saved are in the
files. -/
structure Holds (p : Saving) : Prop where
  regular : p.manager.Regular
  nodup : p.pass.listed.Nodup
  names : (p.pass.clean ++ (p.pass.saved.map Prod.fst ++ p.pass.stage.names)).Perm p.pass.listed
  unsaved : p.pass.stage.IsSaving ∨ p.pass.saved = []
  filed : ∀ name c, (name, .ok c) ∈ p.pass.saved → Filed p.manager p.disk name c
  stage : p.pass.stage.Fits p.manager p.disk

theorem Holds.evolves (h : p.Holds) (hEvolves : Evolves p.manager p.disk m e)
    (hRegular : m.Regular) : Holds ⟨m, e, p.pass⟩ :=
  ⟨hRegular, h.nodup, h.names, h.unsaved,
    fun name c hSaved => hEvolves.filed (h.filed name c hSaved), hEvolves.fits h.stage⟩

/-- No store comes twice in a pass. -/
theorem Holds.nodup_names (h : p.Holds) :
    (p.pass.clean ++ (p.pass.saved.map Prod.fst ++ p.pass.stage.names)).Nodup :=
  h.names.nodup_iff.mpr h.nodup

theorem Holds.ne_of_mem_saved {left : List String} {result : Except StoreError Copy} (h : p.Holds)
    (hNames : p.pass.stage.names = name :: left) (hSaved : (other, result) ∈ p.pass.saved) :
    other ≠ name := by
  rintro rfl
  have hTail := (List.nodup_append.mp h.nodup_names).2.1
  refine (List.nodup_append.mp hTail).2.2 other (List.mem_map_of_mem hSaved) other ?_ rfl
  rw [hNames]
  exact List.mem_cons_self

theorem Holds.not_mem_left {left : List String} (h : p.Holds)
    (hNames : p.pass.stage.names = name :: left) : name ∉ left := by
  have hTail := (List.nodup_append.mp (List.nodup_append.mp h.nodup_names).2.1).2.1
  rw [hNames] at hTail
  exact (List.nodup_cons.mp hTail).1

/-- A store that was found clean is not written. -/
theorem Holds.not_wrote_of_mem_clean (h : p.Holds) (hClean : name ∈ p.pass.clean) :
    ¬ p.pass.Wrote name := by
  intro hWrote
  refine (List.nodup_append.mp h.nodup_names).2.2 name hClean name ?_ rfl
  rcases hWrote with ⟨c, hSaved⟩ | ⟨c, left, hStage⟩
  · exact List.mem_append_left _ (List.mem_map_of_mem hSaved)
  · rw [hStage]
    exact List.mem_append_right _ List.mem_cons_self

/-- Nothing is written before the stores are chosen. -/
theorem Holds.not_wrote_of_not_isSaving (h : p.Holds) (hEarly : ¬ p.pass.stage.IsSaving) :
    ¬ p.pass.Wrote name := by
  rintro (⟨c, hSaved⟩ | ⟨c, left, hStage⟩)
  · rw [h.unsaved.resolve_left hEarly] at hSaved
    cases hSaved
  · rw [hStage] at hEarly
    exact hEarly trivial

/-- A store whose save has failed is not written. -/
theorem Holds.not_wrote_of_failed {error : StoreError} (h : p.Holds)
    (hFailed : (name, .error error) ∈ p.pass.saved) : ¬ p.pass.Wrote name := by
  rintro (⟨c, hSaved⟩ | ⟨c, left, hStage⟩)
  · have hNodup := (List.nodup_append.mp (List.nodup_append.mp h.nodup_names).2.1).1
    cases List.inj_on_of_nodup_map hNodup hFailed hSaved rfl
  · exact h.ne_of_mem_saved (by rw [hStage]; rfl) hFailed rfl

/-- A name that is left out has come to the clean ones. -/
theorem perm_leaveOut (clean saved left : List String) (name : String) :
    ((clean ++ [name]) ++ (saved ++ left)).Perm (clean ++ (saved ++ name :: left)) := by
  have hMiddle : (name :: (saved ++ left)).Perm (saved ++ name :: left) := List.perm_middle.symm
  rw [List.append_assoc]
  exact hMiddle.append_left clean

/-- While one store is written, what was saved of another one stays in its file. -/
theorem filed_of_reaches (hRegular : m.Regular) (hStore : m.stores.get? name = some s)
    (hWrite : Reaches (s.writeCopy c) d e) (hNames : other ≠ name)
    (h : Filed m d other c') : Filed m e other c' := by
  obtain ⟨s', hOther, hBehind, hSaved, hRead⟩ := h
  refine ⟨s', hOther, hBehind, hSaved, ?_⟩
  rw [hRegular.read_eq_of_reaches hStore hOther hNames hWrite, hRead]

theorem filed_publish_of_ne (hRegular : m.Regular) (hStore : m.stores.get? name = some s)
    (hNames : other ≠ name) (h : Filed m d other c') : Filed (m.put (s.publish c)) d other c' := by
  obtain ⟨found, hOther, hFound⟩ := h
  exact ⟨found, (hRegular.get?_publish_of_ne hStore c hNames).trans hOther, hFound⟩

/-- A copy that is not ahead of its store, and is in the file, is counted as saved. -/
theorem filed_publish (hRegular : m.Regular) (hStore : m.stores.get? name = some s)
    (hBehind : c.Behind s)
    (hRead : d.read s.path = .ok (Snapshot.content s.config.layout c.data)) :
    Filed (m.put (s.publish c)) d name c :=
  ⟨s.publish c, hRegular.get?_publish_self hStore c, hBehind, rfl, hRead⟩

theorem Step.holds (h : Step target p p') (hHolds : p.Holds) : p'.Holds := by
  obtain ⟨hRegular, hNodup, hNames, hUnsaved, hFiled, hFits⟩ := hHolds
  have hHolds : p.Holds := ⟨hRegular, hNodup, hNames, hUnsaved, hFiled, hFits⟩
  cases h with
  | askOn hStage hStore hClean =>
      rw [hStage] at hNames hUnsaved
      exact ⟨hRegular, hNodup, (perm_leaveOut _ _ _ _).trans hNames, hUnsaved, hFiled, trivial⟩
  | list hStage hStore hDirty hListed =>
      rw [hStage] at hUnsaved
      have hNone : p.pass.saved = [] := hUnsaved.resolve_left id
      refine ⟨hRegular, hListed.nodup, ?_, Or.inr hNone, hFiled, trivial⟩
      rw [hNone]
      exact List.Perm.refl _
  | @leaveOut name left chosen s hStage hStore hClean =>
      rw [hStage] at hNames hUnsaved
      refine ⟨hRegular, hNodup, List.Perm.trans ?_ hNames, hUnsaved, hFiled, trivial⟩
      have hMoved := perm_leaveOut p.pass.clean (p.pass.saved.map Prod.fst ++ chosen) left name
      simpa [Stage.names, Saving.leaveOut] using hMoved
  | choose hStage hStore hDirty =>
      rw [hStage] at hNames hUnsaved
      refine ⟨hRegular, hNodup, ?_, hUnsaved, hFiled, trivial⟩
      simpa [Stage.names, moveTo] using hNames
  | begin hStage =>
      rw [hStage] at hNames
      refine ⟨hRegular, hNodup, ?_, Or.inl trivial, hFiled, trivial⟩
      simpa [Stage.names, moveTo] using hNames
  | copy hStage hStore =>
      rw [hStage] at hNames
      exact ⟨hRegular, hNodup, hNames, Or.inl trivial, hFiled, _, hStore, behind_copy _⟩
  | @write name c left s trace e hStage hStore hWrite =>
      have hAhead : p.pass.stage.names = name :: left := by rw [hStage]; rfl
      rw [hStage] at hNames hFits
      obtain ⟨found, hFound, hBehind⟩ := hFits
      obtain rfl : found = s := Option.some.inj (hFound.symm.trans hStore)
      refine ⟨hRegular, hNodup, hNames, Or.inl trivial, fun other c' hSaved => ?_,
        found, hStore, hBehind, (Snapshot.replaced_of_runs hWrite).read⟩
      exact filed_of_reaches hRegular hStore hWrite.reaches (hHolds.ne_of_mem_saved hAhead hSaved)
        (hFiled other c' hSaved)
  | @fail name c left s trace fault e hStage hStore hWrite =>
      have hAhead : p.pass.stage.names = name :: left := by rw [hStage]; rfl
      rw [hStage] at hNames
      refine ⟨hRegular, hNodup, ?_, Or.inl trivial, fun other c' hSaved => ?_, trivial⟩
      · simpa [Stage.names, record] using hNames
      · have hBefore : (other, .ok c') ∈ p.pass.saved := by simpa [record] using hSaved
        exact filed_of_reaches hRegular hStore hWrite.reaches
          (hHolds.ne_of_mem_saved hAhead hBefore) (hFiled other c' hBefore)
  | @publish name c left s hStage hStore =>
      have hAhead : p.pass.stage.names = name :: left := by rw [hStage]; rfl
      rw [hStage] at hNames hFits
      obtain ⟨found, hFound, hBehind, hRead⟩ := hFits
      obtain rfl : found = s := Option.some.inj (hFound.symm.trans hStore)
      refine ⟨hRegular.put hStore rfl hBehind.1, hNodup, ?_, Or.inl trivial,
        fun other c' hSaved => ?_, trivial⟩
      · simpa [Stage.names, record] using hNames
      · rcases List.mem_append.mp hSaved with hBefore | hLast
        · exact filed_publish_of_ne hRegular hStore (hHolds.ne_of_mem_saved hAhead hBefore)
            (hFiled other c' hBefore)
        · obtain ⟨rfl, hSame⟩ := Prod.mk.inj (List.mem_singleton.mp hLast)
          obtain rfl := Except.ok.inj hSame
          exact filed_publish hRegular hStore hBehind hRead

/-! ### What a pass does -/

/-- The stores of a pass change only where a copy is counted as saved. -/
theorem Step.manager_cases (h : Step target p p') : p'.manager = p.manager ∨
    ∃ name c s, p.manager.stores.get? name = some s ∧
      p'.manager = p.manager.put (s.publish c) := by
  cases h with
  | publish hStage hStore => exact Or.inr ⟨_, _, _, hStore, rfl⟩
  | _ => exact Or.inl rfl

/-- A pass changes neither what a store holds nor its setup. -/
theorem Step.copy_eq (h : Step target p p') (hRegular : p.manager.Regular) (name : String) :
    (p'.manager.stores.get? name).map Store.copy = (p.manager.stores.get? name).map Store.copy := by
  rcases h.manager_cases with hSame | ⟨own, c, s, hStore, hPut⟩
  · rw [hSame]
  · rw [hPut]
    by_cases hName : name = own
    · subst hName
      rw [hRegular.get?_publish_self hStore, hStore]
      rfl
    · rw [hRegular.get?_publish_of_ne hStore c hName]

theorem Step.covers (h : Step target p p') (hRegular : p.manager.Regular)
    (hCovers : target.Covers p.manager name) : target.Covers p'.manager name :=
  hCovers.mono fun s hStore => by
    have hSame := h.copy_eq hRegular name
    rw [hStore, Option.map_some] at hSame
    obtain ⟨s', hStore', -⟩ := Option.map_eq_some_iff.mp hSame
    exact ⟨s', hStore'⟩

/-- A store whose file is not written stays as it is, with its file. -/
theorem Step.untouched (h : Step target p p') (hRegular : p.manager.Regular)
    (hStore : p.manager.stores.get? name = some s) :
    p'.manager.stores.get? name = some s ∧ p'.disk.read s.path = p.disk.read s.path ∨
      p'.pass.Wrote name := by
  cases h with
  | @write own c left s' trace e hStage hOwn hWrite =>
      by_cases hName : name = own
      · subst hName
        exact Or.inr (Or.inr ⟨c, left, rfl⟩)
      · exact Or.inl ⟨hStore, hRegular.read_eq_of_reaches hOwn hStore hName hWrite.reaches⟩
  | @fail own c left s' trace fault e hStage hOwn hWrite =>
      refine Or.inl ⟨hStore, ?_⟩
      by_cases hName : name = own
      · subst hName
        obtain rfl := Option.some.inj (hStore.symm.trans hOwn)
        exact (Snapshot.onlyFile_of_runs_error hWrite).1.read_eq
      · exact hRegular.read_eq_of_reaches hOwn hStore hName hWrite.reaches
  | @publish own c left s' hStage hOwn =>
      by_cases hName : name = own
      · subst hName
        exact Or.inr (Or.inl ⟨c, List.mem_append_right _ (.head _)⟩)
      · exact Or.inl ⟨(hRegular.get?_publish_of_ne hOwn c hName).trans hStore, rfl⟩
  | _ => exact Or.inl ⟨hStore, rfl⟩

theorem Step.wrote (h : Step target p p') (hWrote : p.pass.Wrote name) : p'.pass.Wrote name := by
  rcases hWrote with ⟨c, hSaved⟩ | ⟨c, left, hWritten⟩
  · cases h with
    | fail hStage hStore hWrite => exact Or.inl ⟨c, List.mem_append_left _ hSaved⟩
    | publish hStage hStore => exact Or.inl ⟨c, List.mem_append_left _ hSaved⟩
    | _ => exact Or.inl ⟨c, hSaved⟩
  · cases h with
    | publish hStage hStore =>
        obtain ⟨rfl, rfl, rfl⟩ := Stage.written.inj (hStage.symm.trans hWritten)
        exact Or.inl ⟨_, List.mem_append_right _ (.head _)⟩
    | askOn hStage | list hStage | leaveOut hStage | choose hStage | begin hStage | copy hStage
    | write hStage | fail hStage =>
        rw [hStage] at hWritten
        cases hWritten

/-- A copy that a pass has was made before, or is the content of the store at this step. -/
theorem Step.has (h : Step target p p') (hHas : p'.pass.Has name c) : p.pass.Has name c ∨
    (p.manager.stores.get? name).map Store.copy = some c := by
  cases h with
  | copy hStage hStore =>
      rcases hHas with hSaved | hCopy
      · exact Or.inl (Or.inl hSaved)
      · obtain ⟨rfl, rfl⟩ := Prod.mk.inj (Option.some.inj hCopy)
        exact Or.inr (by rw [hStore]; rfl)
  | write hStage hStore hWrite =>
      refine Or.inl (hHas.imp_right fun hCopy => ?_)
      rw [hStage]
      exact hCopy
  | fail hStage hStore hWrite =>
      rcases hHas with hSaved | hCopy
      · rcases List.mem_append.mp hSaved with hBefore | hLast
        · exact Or.inl (Or.inl hBefore)
        · cases (Prod.mk.inj (List.mem_singleton.mp hLast)).2
      · cases hCopy
  | publish hStage hStore =>
      rcases hHas with hSaved | hCopy
      · rcases List.mem_append.mp hSaved with hBefore | hLast
        · exact Or.inl (Or.inl hBefore)
        · obtain ⟨rfl, hSame⟩ := Prod.mk.inj (List.mem_singleton.mp hLast)
          obtain rfl := Except.ok.inj hSame
          exact Or.inl (Or.inr (by rw [hStage]; rfl))
      · cases hCopy
  | _ =>
      rcases hHas with hSaved | hCopy
      · exact Or.inl (Or.inl hSaved)
      · cases hCopy

/-- Every store that was chosen, and is still before the pass, has something to save. -/
def Choosy (p : Saving) : Prop :=
  ∀ name ∈ p.pass.stage.chosen, ∃ s, p.manager.stores.get? name = some s ∧ s.isDirty = true

theorem Choosy.evolves (h : p.Choosy) (hEvolves : Evolves p.manager p.disk m e)
    (hRegular : p.manager.Regular) : Choosy ⟨m, e, p.pass⟩ :=
  fun name hName => hEvolves.exists_dirty hRegular (h name hName)

theorem Step.choosy (h : Step target p p') (hHolds : p.Holds) (hChoosy : p.Choosy) :
    p'.Choosy := by
  cases h with
  | askOn hStage hStore hClean => exact fun _ => nofun
  | list hStage hStore hDirty hListed => exact fun _ => nofun
  | leaveOut hStage hStore hClean =>
      rw [Choosy, hStage] at hChoosy
      exact hChoosy
  | choose hStage hStore hDirty =>
      rw [Choosy, hStage] at hChoosy
      intro other hOther
      rcases List.mem_append.mp hOther with hBefore | hLast
      · exact hChoosy other hBefore
      · rw [List.mem_singleton.mp hLast]
        exact ⟨_, hStore, hDirty⟩
  | begin hStage =>
      rw [Choosy, hStage] at hChoosy
      exact hChoosy
  | copy hStage hStore =>
      rw [Choosy, hStage] at hChoosy
      exact hChoosy
  | write hStage hStore hWrite =>
      rw [Choosy, hStage] at hChoosy
      exact fun other hOther => hChoosy other (List.mem_cons_of_mem _ hOther)
  | fail hStage hStore hWrite =>
      rw [Choosy, hStage] at hChoosy
      exact fun other hOther => hChoosy other (List.mem_cons_of_mem _ hOther)
  | @publish name c left s hStage hStore =>
      rw [Choosy, hStage] at hChoosy
      have hNot : name ∉ left := hHolds.not_mem_left (by rw [hStage]; rfl)
      intro other hOther
      have hNames : other ≠ name := by
        rintro rfl
        exact hNot hOther
      obtain ⟨s', hStore', hDirty⟩ := hChoosy other hOther
      exact ⟨s', (hHolds.regular.get?_publish_of_ne hStore c hNames).trans hStore', hDirty⟩

/-- The store has been found clean when it came to choosing. -/
def LeftOut (p : Saving) (name : String) : Prop :=
  name ∈ p.pass.clean ∧ ¬ p.pass.stage.IsAsking

theorem Step.leftOut (h : Step target p p') (hLeftOut : p.LeftOut name) : p'.LeftOut name := by
  obtain ⟨hClean, hAsking⟩ := hLeftOut
  cases h with
  | askOn hStage | list hStage =>
      rw [hStage] at hAsking
      exact absurd trivial hAsking
  | leaveOut hStage => exact ⟨List.mem_append_left _ hClean, id⟩
  | _ => exact ⟨hClean, id⟩

theorem Step.leftOut_of_clean {left chosen : List String} (h : Step target p p')
    (hStage : p.pass.stage = .choosing (name :: left) chosen)
    (hStore : p.manager.stores.get? name = some s) (hClean : s.isDirty = false) :
    p'.LeftOut name := by
  cases h with
  | leaveOut hOwn =>
      obtain ⟨hNames, -⟩ := Stage.choosing.inj (hOwn.symm.trans hStage)
      obtain ⟨rfl, -⟩ := List.cons.inj hNames
      exact ⟨List.mem_append_right _ (.head _), id⟩
  | choose hOwn hStore' hDirty =>
      obtain ⟨hNames, -⟩ := Stage.choosing.inj (hOwn.symm.trans hStage)
      obtain ⟨rfl, -⟩ := List.cons.inj hNames
      rw [Option.some.inj (hStore'.symm.trans hStore), hClean] at hDirty
      cases hDirty
  | askOn hOwn | list hOwn | begin hOwn | copy hOwn | write hOwn | fail hOwn | publish hOwn =>
      rw [hStage] at hOwn
      cases hOwn

/-- The pass has come to an end with this store, or will still come to save it: because
the store was chosen, or because it will be found dirty. -/
def Due (p : Saving) (name : String) : Prop :=
  (∃ result, (name, result) ∈ p.pass.saved) ∨ name ∈ p.pass.stage.names ∧
    (p.pass.stage.IsSaving ∨ ∃ s, p.manager.stores.get? name = some s ∧ s.isDirty = true)

theorem Due.evolves (h : p.Due name) (hEvolves : Evolves p.manager p.disk m e)
    (hRegular : p.manager.Regular) : Due ⟨m, e, p.pass⟩ name :=
  h.imp_right fun ⟨hName, hSaved⟩ =>
    ⟨hName, hSaved.imp_right fun hDirty => hEvolves.exists_dirty hRegular hDirty⟩

/-- A store that is due at the end of a pass was saved, or its save has failed. -/
theorem Due.mem_saved (h : p.Due name) (hOver : p.pass.IsOver) :
    ∃ result, (name, result) ∈ p.pass.saved := by
  rcases h with hSaved | ⟨hName, -⟩
  · exact hSaved
  · rcases hOver with hStage | hStage <;> (rw [hStage] at hName; cases hName)

theorem Step.due (h : Step target p p') (hCovers : target.Covers p.manager name)
    (hDue : p.Due name) : p'.Due name := by
  rcases hDue with ⟨result, hSaved⟩ | ⟨hName, hComes⟩
  · cases h with
    | fail hStage hStore hWrite => exact Or.inl ⟨result, List.mem_append_left _ hSaved⟩
    | publish hStage hStore => exact Or.inl ⟨result, List.mem_append_left _ hSaved⟩
    | _ => exact Or.inl ⟨result, hSaved⟩
  cases h with
  | @askOn own left s hStage hStore hClean =>
      rw [hStage] at hName hComes
      obtain ⟨s', hStore', hDirty⟩ := hComes.resolve_left id
      refine Or.inr ⟨?_, Or.inr ⟨s', hStore', hDirty⟩⟩
      rcases List.mem_cons.mp hName with rfl | hLeft
      · rw [Option.some.inj (hStore'.symm.trans hStore), hClean] at hDirty
        cases hDirty
      · exact hLeft
  | list hStage hStore hDirty hListed =>
      rw [hStage] at hComes
      exact Or.inr ⟨hListed.mem_iff.mpr hCovers, Or.inr (hComes.resolve_left id)⟩
  | @leaveOut own left chosen s hStage hStore hClean =>
      rw [hStage] at hName hComes
      obtain ⟨s', hStore', hDirty⟩ := hComes.resolve_left id
      refine Or.inr ⟨?_, Or.inr ⟨s', hStore', hDirty⟩⟩
      rcases List.mem_append.mp hName with hChosen | hName
      · exact List.mem_append_left _ hChosen
      rcases List.mem_cons.mp hName with rfl | hLeft
      · rw [Option.some.inj (hStore'.symm.trans hStore), hClean] at hDirty
        cases hDirty
      · exact List.mem_append_right _ hLeft
  | choose hStage hStore hDirty =>
      rw [hStage] at hName hComes
      refine Or.inr ⟨?_, Or.inr (hComes.resolve_left id)⟩
      simpa [Stage.names, moveTo] using hName
  | begin hStage =>
      rw [hStage] at hName
      refine Or.inr ⟨?_, Or.inl trivial⟩
      simpa [Stage.names, moveTo] using hName
  | copy hStage hStore =>
      rw [hStage] at hName
      exact Or.inr ⟨hName, Or.inl trivial⟩
  | write hStage hStore hWrite =>
      rw [hStage] at hName
      exact Or.inr ⟨hName, Or.inl trivial⟩
  | fail hStage hStore hWrite =>
      rw [hStage] at hName
      rcases List.mem_cons.mp hName with rfl | hLeft
      · exact Or.inl ⟨_, List.mem_append_right _ (.head _)⟩
      · exact Or.inr ⟨hLeft, Or.inl trivial⟩
  | publish hStage hStore =>
      rw [hStage] at hName
      rcases List.mem_cons.mp hName with rfl | hLeft
      · exact Or.inl ⟨_, List.mem_append_right _ (.head _)⟩
      · exact Or.inr ⟨hLeft, Or.inl trivial⟩

/-! ### What a pass has before it -/

/-- The stores that the pass may still save are stores of the target. -/
def Covered (target : Target) (p : Saving) : Prop :=
  ∀ name ∈ p.pass.stage.names, target.Covers p.manager name

theorem Covered.evolves (h : p.Covered target) (hEvolves : Evolves p.manager p.disk m e) :
    Covered target ⟨m, e, p.pass⟩ :=
  fun name hName => hEvolves.covers (h name hName)

/-- A pass comes to further stores only where it lists them. -/
theorem Step.mem_names (h : Step target p p') (hName : name ∈ p'.pass.stage.names) :
    name ∈ p.pass.stage.names ∨ target.Covers p.manager name := by
  cases h with
  | list hStage hStore hDirty hListed => exact Or.inr (hListed.mem_iff.mp hName)
  | askOn hStage | fail hStage | publish hStage =>
      rw [hStage]
      exact Or.inl (List.mem_cons_of_mem _ hName)
  | leaveOut hStage =>
      rw [hStage]
      refine Or.inl (List.mem_append.mpr ((List.mem_append.mp hName).imp_right ?_))
      exact List.mem_cons_of_mem _
  | choose hStage | begin hStage =>
      rw [hStage]
      exact Or.inl (by simpa [Stage.names, moveTo] using hName)
  | copy hStage | write hStage =>
      rw [hStage]
      exact Or.inl hName

theorem Step.covered (h : Step target p p') (hRegular : p.manager.Regular)
    (hCovered : p.Covered target) : p'.Covered target := fun name hName =>
  h.covers hRegular ((h.mem_names hName).elim (hCovered name) id)

end Saving

end Autosaver

end SnapshotStore
