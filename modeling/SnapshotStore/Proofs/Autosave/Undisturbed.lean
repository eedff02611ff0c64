import SnapshotStore.Proofs.Autosave.Pass
import SnapshotStore.Proofs.Manager.Saving

/-! Passes that nothing comes between. Such a pass does to the stores and to the disk what
saving them does as a single program, and it reports the same. -/
namespace SnapshotStore

open Disk Store
open Program (Runs)

/-- Whether a tick comes to save the store of this name. -/
def Tick.wants (t : Tick) (m : Manager) (name : String) : Bool :=
  match t with
  | .save => true
  | .flush => m.isDirtyAt name

namespace Autosaver.Saving

variable (target : Target) {p : Saving} {name : String} {s s' : Store} {e : Disk}
  {trace : List Event} {outcome : Except StoreError Unit} {left : List String} {after : Manager}

/-- The save of one store. -/
theorem steps_of_save (hRegular : p.manager.Regular)
    (hStage : p.pass.stage = .saving (name :: left))
    (hStore : p.manager.stores.get? name = some s)
    (hSave : Runs s.save p.disk trace (outcome, s') e) :
    ∃ result, Steps target p
        ({ p with manager := p.manager.put s', disk := e }.record name result (.saving left)) ∧
      result.map (fun _ => ()) = outcome := by
  obtain ⟨written, hWrite, hOutcome⟩ := runs_save hSave
  have hCopied : Steps target p _ := .single (.copy hStage hStore)
  cases written with
  | error fault =>
      obtain ⟨rfl, rfl⟩ := hOutcome
      rw [hRegular.put_eq_self hStore]
      exact ⟨_, hCopied.tail (.fail rfl hStore hWrite), rfl⟩
  | ok _ =>
      obtain ⟨rfl, rfl⟩ := hOutcome
      have hWritten := hCopied.tail (.write rfl hStore hWrite)
      exact ⟨_, hWritten.tail (.publish rfl hStore), rfl⟩

/-- Saving stores one after the other. -/
theorem steps_of_saveAmong {names : List String} (hRegular : p.manager.Regular)
    (hStage : p.pass.stage = .saving names)
    (hOpen : ∀ name ∈ names, ∃ s, p.manager.stores.get? name = some s)
    (h : Runs (p.manager.saveAmong names) p.disk trace (outcome, after) e) :
    ∃ results, Steps target p ⟨after, e,
        { p.pass with saved := p.pass.saved ++ results, stage := .saving [] }⟩ ∧
      Pass.reported results = outcome := by
  induction names generalizing p trace outcome with
  | nil =>
      obtain ⟨-, hResult, rfl⟩ := h.pure_inv
      obtain ⟨rfl, rfl⟩ := Prod.mk.inj hResult
      refine ⟨[], ?_, rfl⟩
      rw [List.append_nil, ← hStage]
      exact .refl
  | cons name left ih =>
      obtain ⟨s, hStore⟩ := hOpen name List.mem_cons_self
      rw [Manager.saveAmong, hStore] at h
      obtain ⟨_, _, ⟨own, s'⟩, c, -, hSave, hThen⟩ := h.bind_inv
      obtain ⟨_, _, ⟨others, last⟩, f, -, hOthers, hReturn⟩ := hThen.bind_inv
      obtain ⟨-, hResult, rfl⟩ := hReturn.pure_inv
      obtain ⟨rfl, rfl⟩ := Prod.mk.inj hResult
      obtain ⟨result, hFirst, rfl⟩ := steps_of_save target hRegular hStage hStore hSave
      have hPut : (p.manager.put s').Regular := hRegular.put hStore (config_of_runs_save hSave)
        (savedGeneration_le_of_runs_save (hRegular name s hStore).2.2 hSave)
      let next : Saving :=
        { p with manager := p.manager.put s', disk := c }.record name result (.saving left)
      have hLeft : ∀ other ∈ left, ∃ s, next.manager.stores.get? other = some s :=
        fun other hOther =>
          Manager.exists_store_put s' (hOpen other (List.mem_cons_of_mem _ hOther))
      obtain ⟨results, hRest, rfl⟩ := ih (p := next) hPut rfl hLeft hOthers
      refine ⟨(name, result) :: results, ?_, rfl⟩
      rw [← List.singleton_append, ← List.append_assoc]
      exact hFirst.trans hRest

/-! ### Leaving out what is clean -/

/-- Stores are examined one after the other, and those that are clean are left out. -/
theorem steps_of_choosing {names chosen : List String}
    (hStage : p.pass.stage = .choosing names chosen)
    (hOpen : ∀ name ∈ names, ∃ s, p.manager.stores.get? name = some s) :
    ∃ clean, Steps target p { p with pass := { p.pass with
      clean := clean, stage := .saving (chosen ++ names.filter p.manager.isDirtyAt) } } := by
  induction names generalizing p chosen with
  | nil =>
      refine ⟨p.pass.clean, ?_⟩
      rw [List.filter_nil, List.append_nil]
      exact .single (.begin hStage)
  | cons name left ih =>
      obtain ⟨s, hStore⟩ := hOpen name List.mem_cons_self
      have hLeft : ∀ other ∈ left, ∃ s, p.manager.stores.get? other = some s :=
        fun other hOther => hOpen other (List.mem_cons_of_mem _ hOther)
      have hDirtyAt := Manager.isDirtyAt_eq hStore
      cases hDirty : s.isDirty with
      | false =>
          obtain ⟨clean, hRest⟩ := ih (p := p.leaveOut name (.choosing left chosen)) rfl hLeft
          refine ⟨clean, .head (.leaveOut hStage hStore hDirty) ?_⟩
          rw [List.filter_cons_of_neg (by rw [hDirtyAt, hDirty]; decide)]
          exact hRest
      | true =>
          obtain ⟨clean, hRest⟩ := ih (p := p.moveTo (.choosing left (chosen ++ [name]))) rfl hLeft
          refine ⟨clean, .head (.choose hStage hStore hDirty) ?_⟩
          rw [List.filter_cons_of_pos (by rw [hDirtyAt, hDirty]),
            List.append_cons chosen name (left.filter _)]
          exact hRest

/-- A pass that asks whether there is anything to save lists the stores again if there is,
and is over if there is not. -/
theorem steps_of_asking {names listed : List String} (hStage : p.pass.stage = .asking names)
    (hNone : p.pass.saved = []) (hListed : target.Lists p.manager listed)
    (hOpen : ∀ name ∈ names, ∃ s, p.manager.stores.get? name = some s) :
    names.any p.manager.isDirtyAt = true ∧
      Steps target p { p with pass := ⟨listed, [], [], .choosing listed []⟩ } ∨
    names.any p.manager.isDirtyAt = false ∧ ∃ clean,
      Steps target p { p with pass := { p.pass with clean := clean, stage := .asking [] } } := by
  induction names generalizing p with
  | nil =>
      refine Or.inr ⟨rfl, p.pass.clean, ?_⟩
      rw [← hStage]
      exact .refl
  | cons name left ih =>
      obtain ⟨s, hStore⟩ := hOpen name List.mem_cons_self
      have hLeft : ∀ other ∈ left, ∃ s, p.manager.stores.get? other = some s :=
        fun other hOther => hOpen other (List.mem_cons_of_mem _ hOther)
      rw [List.any_cons, Manager.isDirtyAt_eq hStore]
      cases hDirty : s.isDirty with
      | false =>
          rw [Bool.false_or]
          have hFirst : Step target p _ := .askOn hStage hStore hDirty
          rcases ih (p := p.leaveOut name (.asking left)) rfl hNone hListed hLeft with
            ⟨hAny, hRest⟩ | ⟨hAny, clean, hRest⟩
          · exact Or.inl ⟨hAny, .head hFirst hRest⟩
          · exact Or.inr ⟨hAny, clean, .head hFirst hRest⟩
      | true =>
          refine Or.inl ⟨rfl, .single ?_⟩
          rw [← hNone]
          exact .list hStage hStore hDirty hListed

/-- A pass that saves what has changed. -/
theorem steps_of_saveDirty {names : List String} (hRegular : p.manager.Regular)
    (hPass : p.pass = Pass.saveDirty names) (hListed : target.Lists p.manager names)
    (hOpen : ∀ name ∈ names, ∃ s, p.manager.stores.get? name = some s)
    (h : Runs (p.manager.saveAmong (names.filter p.manager.isDirtyAt)) p.disk trace
      (outcome, after) e) :
    ∃ q : Pass, Steps target p ⟨after, e, q⟩ ∧ q.IsOver := by
  obtain ⟨m, d, q⟩ := p
  obtain rfl : q = Pass.saveDirty names := hPass
  rcases steps_of_asking target rfl rfl hListed hOpen with ⟨-, hAsked⟩ | ⟨hAny, clean, hAsked⟩
  · obtain ⟨clean, hChosen⟩ := steps_of_choosing target
      (p := ⟨m, d, ⟨names, [], [], .choosing names []⟩⟩) rfl hOpen
    have hLeft : ∀ name ∈ names.filter m.isDirtyAt, ∃ s, m.stores.get? name = some s :=
      fun name hName => hOpen name (List.mem_filter.mp hName).1
    obtain ⟨results, hSaved, -⟩ := steps_of_saveAmong target
      (p := ⟨m, d, ⟨names, clean, [], .saving (names.filter m.isDirtyAt)⟩⟩) hRegular rfl hLeft h
    exact ⟨_, (hAsked.trans hChosen).trans hSaved, Or.inr rfl⟩
  · have hNone : names.filter m.isDirtyAt = [] := by
      simpa [List.filter_eq_nil_iff] using hAny
    rw [hNone] at h
    obtain ⟨-, hResult, rfl⟩ := h.pure_inv
    obtain ⟨-, rfl⟩ := Prod.mk.inj hResult
    exact ⟨_, hAsked, Or.inl rfl⟩

/-! ### Coming to an end -/

theorem exists_steps_of_saving {names : List String} (hRegular : p.manager.Regular)
    (hStage : p.pass.stage = .saving names)
    (hOpen : ∀ name ∈ names, ∃ s, p.manager.stores.get? name = some s) :
    ∃ q, Steps target p q ∧ q.pass.IsOver := by
  obtain ⟨trace, hRuns⟩ := Program.exists_runs 0 (p.manager.saveAmong names) p.disk
  obtain ⟨results, hSteps, -⟩ := steps_of_saveAmong target hRegular hStage hOpen hRuns
  exact ⟨_, hSteps, Or.inr rfl⟩

theorem exists_steps_of_written {c : Copy} (hHolds : p.Holds)
    (hStage : p.pass.stage = .written name c left)
    (hOpen : ∀ other ∈ name :: left, ∃ s, p.manager.stores.get? other = some s) :
    ∃ q, Steps target p q ∧ q.pass.IsOver := by
  obtain ⟨s, hStore⟩ := hOpen name List.mem_cons_self
  have hPublish : Step target p _ := .publish hStage hStore
  obtain ⟨q, hRest, hOver⟩ := exists_steps_of_saving target (hPublish.holds hHolds).regular rfl
    fun other hOther => Manager.exists_store_put _ (hOpen other (List.mem_cons_of_mem _ hOther))
  exact ⟨q, .head hPublish hRest, hOver⟩

theorem exists_steps_of_copied {c : Copy} (hHolds : p.Holds)
    (hStage : p.pass.stage = .copied name c left)
    (hOpen : ∀ other ∈ name :: left, ∃ s, p.manager.stores.get? other = some s) :
    ∃ q, Steps target p q ∧ q.pass.IsOver := by
  obtain ⟨s, hStore⟩ := hOpen name List.mem_cons_self
  obtain ⟨trace, hWrite⟩ := Program.exists_runs 0 (s.writeCopy c) p.disk
  cases hResult : ((s.writeCopy c).run 0 p.disk).1 with
  | error fault =>
      rw [hResult] at hWrite
      have hFail : Step target p _ := .fail hStage hStore hWrite
      obtain ⟨q, hRest, hOver⟩ := exists_steps_of_saving target (hFail.holds hHolds).regular rfl
        fun other hOther => hOpen other (List.mem_cons_of_mem _ hOther)
      exact ⟨q, .head hFail hRest, hOver⟩
  | ok _ =>
      rw [hResult] at hWrite
      have hWritten : Step target p _ := .write hStage hStore hWrite
      obtain ⟨q, hRest, hOver⟩ := exists_steps_of_written target (hWritten.holds hHolds) rfl hOpen
      exact ⟨q, .head hWritten hRest, hOver⟩

theorem exists_steps_of_choosing {names chosen : List String} (hRegular : p.manager.Regular)
    (hStage : p.pass.stage = .choosing names chosen)
    (hOpen : ∀ name ∈ chosen ++ names, ∃ s, p.manager.stores.get? name = some s) :
    ∃ q, Steps target p q ∧ q.pass.IsOver := by
  obtain ⟨clean, hChosen⟩ := steps_of_choosing target hStage fun name hName =>
    hOpen name (List.mem_append_right _ hName)
  obtain ⟨q, hRest, hOver⟩ := exists_steps_of_saving target (p := { p with pass := { p.pass with
      clean := clean, stage := .saving (chosen ++ names.filter p.manager.isDirtyAt) } })
    hRegular rfl fun name hName => hOpen name <| List.mem_append.mpr <|
      (List.mem_append.mp hName).imp_right fun hFiltered => (List.mem_filter.mp hFiltered).1
  exact ⟨q, hChosen.trans hRest, hOver⟩

/-- A pass can always come to its end, whatever has become of the saves so far. -/
theorem exists_steps_isOver (hHolds : p.Holds) (hCovered : p.Covered target)
    (hOpen : ∀ name, target.Covers p.manager name → ∃ s, p.manager.stores.get? name = some s) :
    ∃ q, Steps target p q ∧ q.pass.IsOver := by
  have hNames : ∀ name ∈ p.pass.stage.names, ∃ s, p.manager.stores.get? name = some s :=
    fun name hName => hOpen name (hCovered name hName)
  cases hStage : p.pass.stage with
  | asking names =>
      have hUnsaved := hHolds.unsaved
      rw [hStage] at hUnsaved hNames
      obtain ⟨listed, hListed⟩ := target.exists_lists p.manager
      have hEach : ∀ name ∈ listed, ∃ s, p.manager.stores.get? name = some s :=
        fun name hName => hOpen name (hListed.mem_iff.mp hName)
      rcases steps_of_asking target hStage (hUnsaved.resolve_left id) hListed hNames with
        ⟨-, hAsked⟩ | ⟨-, clean, hAsked⟩
      · obtain ⟨q, hRest, hOver⟩ := exists_steps_of_choosing target
          (p := { p with pass := ⟨listed, [], [], .choosing listed []⟩ }) hHolds.regular rfl hEach
        exact ⟨q, hAsked.trans hRest, hOver⟩
      · exact ⟨_, hAsked, Or.inl rfl⟩
  | choosing names chosen =>
      rw [hStage] at hNames
      exact exists_steps_of_choosing target hHolds.regular hStage hNames
  | saving names =>
      rw [hStage] at hNames
      exact exists_steps_of_saving target hHolds.regular hStage hNames
  | copied name c left =>
      rw [hStage] at hNames
      exact exists_steps_of_copied target hHolds hStage hNames
  | written name c left =>
      rw [hStage] at hNames
      exact exists_steps_of_written target hHolds hStage hNames

end Autosaver.Saving

namespace Autosaver

variable {target : Target} {m after : Manager} {d e : Disk} {t : Tick} {own : String}
  {s s' : Store} {trace : List Event} {outcome : Except StoreError Unit}

/-! ### Saving as a single program -/

/-- What saving the target does as a single program, with what it reports. -/
inductive Saves (m : Manager) (d : Disk) :
    Target → List Event → Except StoreError Unit → Manager → Disk → Prop where
  | store {own : String} {s s' : Store} {trace : List Event} {outcome : Except StoreError Unit}
      {e : Disk} (hStore : m.stores.get? own = some s)
      (hRuns : Runs s.save d trace (outcome, s') e) :
      Saves m d (.store own) trace outcome (m.put s') e
  | all {trace : List Event} {outcome : Except StoreError Unit} {after : Manager} {e : Disk}
      (hRuns : Runs m.saveAll d trace (outcome, after) e) : Saves m d .all trace outcome after e

theorem runs_saveAmong_single (hStore : m.stores.get? own = some s)
    (h : Runs s.save d trace (outcome, s') e) :
    Runs (m.saveAmong [own]) d trace (outcome, m.put s') e := by
  have hOutcome : Manager.firstError outcome (.ok ()) = outcome := by
    cases outcome <;> rfl
  rw [Manager.saveAmong, hStore]
  have hRuns := h.bind
    (f := fun saved => pure (Manager.firstError saved.1 (.ok ()), m.put saved.2)) (.done _ _)
  rw [List.append_nil, hOutcome] at hRuns
  exact hRuns

/-- It saves the stores of a listing one after the other. -/
theorem Saves.saveAmong (h : Saves m d target trace outcome after e) :
    ∃ names, target.Lists m names ∧ (∀ name ∈ names, ∃ s, m.stores.get? name = some s) ∧
      Runs (m.saveAmong names) d trace (outcome, after) e := by
  cases h with
  | @store own s s' trace outcome e hStore hRuns =>
      exact ⟨[own], rfl, fun name hName => ⟨s, List.mem_singleton.mp hName ▸ hStore⟩,
        runs_saveAmong_single hStore hRuns⟩
  | all hRuns =>
      exact ⟨m.names, .refl _, fun name hName => KeyMap.mem_keys_iff_exists.mp hName, hRuns⟩

theorem Saves.steps (h : Saves m d target trace outcome after e) (hRegular : m.Regular) :
    ∃ names q, target.Lists m names ∧
      Saving.Steps target ⟨m, d, Pass.saveAll names⟩ ⟨after, e, q⟩ ∧ q.IsOver ∧
      q.outcome = outcome := by
  obtain ⟨names, hListed, hOpen, hRuns⟩ := h.saveAmong
  obtain ⟨results, hSteps, rfl⟩ := Saving.steps_of_saveAmong target
    (p := ⟨m, d, Pass.saveAll names⟩) hRegular rfl hOpen hRuns
  exact ⟨names, _, hListed, hSteps, Or.inr rfl, rfl⟩

/-- Saving the target always comes to an end. -/
theorem exists_saves (m : Manager) (d : Disk)
    (hOpen : ∀ name, target.Covers m name → ∃ s, m.stores.get? name = some s) :
    ∃ trace outcome after e, Saves m d target trace outcome after e := by
  cases target with
  | store own =>
      obtain ⟨s, hStore⟩ := hOpen own rfl
      obtain ⟨trace, hRuns⟩ := Program.exists_runs 0 s.save d
      generalize s.save.run 0 d = result at hRuns
      obtain ⟨⟨outcome, s'⟩, e⟩ := result
      exact ⟨trace, outcome, _, e, .store hStore hRuns⟩
  | all =>
      obtain ⟨trace, hRuns⟩ := Program.exists_runs 0 m.saveAll d
      generalize m.saveAll.run 0 d = result at hRuns
      obtain ⟨⟨outcome, after⟩, e⟩ := result
      exact ⟨trace, outcome, after, e, .all hRuns⟩

/-- What saving the target makes of the stores and their files. -/
theorem Saves.spec (h : Saves m d target trace outcome after e) (hRegular : m.Regular) :
    m.Saves (target.Covers m) d trace outcome after e := by
  obtain ⟨names, hListed, hOpen, hRuns⟩ := h.saveAmong
  exact (hRegular.saves_of_runs hListed.nodup hOpen hRuns).congr
    fun name s hStore => hListed.mem_iff

/-! ### Seeing to a tick as a single program -/

/-- What seeing to a tick does as a single program. -/
inductive SeesTo (t : Tick) (m : Manager) (d : Disk) :
    Target → List Event → Manager → Disk → Prop where
  | store {own : String} {s s' : Store} {trace : List Event} {e : Disk}
      (hStore : m.stores.get? own = some s) (hRuns : Runs (s.onTick t) d trace s' e) :
      SeesTo t m d (.store own) trace (m.put s') e
  | all {trace : List Event} {after : Manager} {e : Disk}
      (hRuns : Runs (m.onTick t) d trace after e) : SeesTo t m d .all trace after e

/-- Seeing to a tick always comes to an end. -/
theorem exists_seesTo (t : Tick) (m : Manager) (d : Disk)
    (hOpen : ∀ name, target.Covers m name → ∃ s, m.stores.get? name = some s) :
    ∃ trace after e, SeesTo t m d target trace after e := by
  cases target with
  | store own =>
      obtain ⟨s, hStore⟩ := hOpen own rfl
      obtain ⟨trace, hRuns⟩ := Program.exists_runs 0 (s.onTick t) d
      exact ⟨trace, _, _, .store hStore hRuns⟩
  | all =>
      obtain ⟨trace, hRuns⟩ := Program.exists_runs 0 (m.onTick t) d
      exact ⟨trace, _, _, .all hRuns⟩

/-- The tick comes to save the store: the target stands for it, and on a flush it has
something to save. -/
def Target.Wants (target : Target) (t : Tick) (m : Manager) (name : String) : Prop :=
  target.Covers m name ∧ t.wants m name = true

/-- On one cadence everything is saved. -/
theorem SeesTo.saves (h : SeesTo .save m d target trace after e) :
    ∃ outcome, Saves m d target trace outcome after e := by
  cases h with
  | store hStore hRuns =>
      obtain ⟨_, _, ⟨outcome, s'⟩, c, rfl, hSave, hReturn⟩ := hRuns.bind_inv
      obtain ⟨rfl, rfl, rfl⟩ := hReturn.pure_inv
      rw [List.append_nil]
      exact ⟨outcome, .store hStore hSave⟩
  | all hRuns =>
      obtain ⟨_, _, ⟨outcome, m'⟩, c, rfl, hSave, hReturn⟩ := hRuns.bind_inv
      obtain ⟨rfl, rfl, rfl⟩ := hReturn.pure_inv
      rw [List.append_nil]
      exact ⟨outcome, .all hSave⟩

/-- On the other one a store is saved that has something to save. -/
theorem saveAmong_of_store_onTick (hRegular : m.Regular) (hStore : m.stores.get? own = some s)
    (h : Runs (s.onTick .flush) d trace s' e) : ∃ outcome,
      Runs (m.saveAmong ([own].filter m.isDirtyAt)) d trace (outcome, m.put s') e := by
  obtain ⟨saved, _, ⟨outcome, last⟩, c, rfl, hSave, hReturn⟩ := h.bind_inv
  obtain ⟨rfl, rfl, rfl⟩ := hReturn.pure_inv
  rw [List.append_nil]
  have hDirtyAt := Manager.isDirtyAt_eq hStore
  rw [saveDirty] at hSave
  cases hDirty : s.isDirty with
  | true =>
      rw [if_pos hDirty] at hSave
      refine ⟨outcome, ?_⟩
      rw [List.filter_cons_of_pos (hDirtyAt.trans hDirty), List.filter_nil]
      exact runs_saveAmong_single hStore hSave
  | false =>
      rw [if_neg (by rw [hDirty]; decide)] at hSave
      obtain ⟨rfl, hResult, rfl⟩ := hSave.pure_inv
      obtain ⟨-, rfl⟩ := Prod.mk.inj hResult
      refine ⟨.ok (), ?_⟩
      rw [List.filter_cons_of_neg (by rw [hDirtyAt, hDirty]; decide), List.filter_nil,
        hRegular.put_eq_self hStore]
      exact .done _ _

/-- So are all the stores of a manager that do. -/
theorem saveAmong_of_onTick (h : Runs (m.onTick .flush) d trace after e) : ∃ outcome,
    Runs (m.saveAmong (m.names.filter m.isDirtyAt)) d trace (outcome, after) e := by
  rw [Manager.onTick] at h
  by_cases hDirty : m.isDirty = true
  · rw [if_pos hDirty] at h
    obtain ⟨saved, _, ⟨outcome, last⟩, c, rfl, hSave, hReturn⟩ := h.bind_inv
    obtain ⟨rfl, rfl, rfl⟩ := hReturn.pure_inv
    rw [Manager.saveDirty, Manager.dirtyNames_eq] at hSave
    rw [List.append_nil]
    exact ⟨outcome, hSave⟩
  · rw [if_neg hDirty] at h
    obtain ⟨rfl, rfl, rfl⟩ := h.pure_inv
    have hNone : after.names.filter after.isDirtyAt = [] := by
      simpa [Manager.isDirty_eq, List.filter_eq_nil_iff] using hDirty
    rw [hNone]
    exact ⟨.ok (), .done _ _⟩

/-- On a tick the stores of a listing that it comes to save are saved one after the other. -/
theorem SeesTo.saveAmong (h : SeesTo t m d target trace after e) (hRegular : m.Regular) :
    ∃ names outcome, target.Lists m names ∧
      (∀ name ∈ names, ∃ s, m.stores.get? name = some s) ∧
      Runs (m.saveAmong (names.filter (t.wants m))) d trace (outcome, after) e := by
  cases t with
  | save =>
      obtain ⟨outcome, hSaves⟩ := h.saves
      obtain ⟨names, hListed, hOpen, hRuns⟩ := hSaves.saveAmong
      have hAll : names.filter (Tick.save.wants m) = names :=
        List.filter_eq_self.mpr fun _ _ => rfl
      refine ⟨names, outcome, hListed, hOpen, ?_⟩
      rwa [hAll]
  | flush =>
      cases h with
      | @store own s s' trace e hStore hRuns =>
          obtain ⟨outcome, hSaved⟩ := saveAmong_of_store_onTick hRegular hStore hRuns
          exact ⟨[own], outcome, rfl,
            fun name hName => ⟨s, List.mem_singleton.mp hName ▸ hStore⟩, hSaved⟩
      | all hRuns =>
          obtain ⟨outcome, hSaved⟩ := saveAmong_of_onTick hRuns
          exact ⟨m.names, outcome, .refl _,
            fun name hName => KeyMap.mem_keys_iff_exists.mp hName, hSaved⟩

/-- What a tick makes of the stores and their files: those that it comes to save are clean
and in their files unless a write was refused, and the others are left alone. -/
theorem SeesTo.spec (h : SeesTo t m d target trace after e) (hRegular : m.Regular) :
    ∃ outcome, m.Saves (target.Wants t m) d trace outcome after e := by
  obtain ⟨names, outcome, hListed, hOpen, hRuns⟩ := h.saveAmong hRegular
  refine ⟨outcome, (hRegular.saves_of_runs (hListed.nodup.filter _) (fun name hName => ?_)
    hRuns).congr fun name s hStore => ?_⟩
  · exact hOpen name (List.mem_filter.mp hName).1
  · rw [List.mem_filter, hListed.mem_iff]
    exact Iff.rfl

theorem SeesTo.steps (h : SeesTo t m d target trace after e) (hRegular : m.Regular) :
    ∃ names q, target.Lists m names ∧
      Saving.Steps target ⟨m, d, Pass.onTick t names⟩ ⟨after, e, q⟩ ∧ q.IsOver := by
  cases t with
  | save =>
      obtain ⟨outcome, hSaves⟩ := h.saves
      obtain ⟨names, q, hListed, hSteps, hOver, -⟩ := hSaves.steps hRegular
      exact ⟨names, q, hListed, hSteps, hOver⟩
  | flush =>
      obtain ⟨names, outcome, hListed, hOpen, hRuns⟩ := h.saveAmong hRegular
      obtain ⟨q, hSteps, hOver⟩ := Saving.steps_of_saveDirty target
        (p := ⟨m, d, Pass.saveDirty names⟩) hRegular rfl hListed hOpen hRuns
      exact ⟨names, q, hListed, hSteps, hOver⟩

end Autosaver

end SnapshotStore
