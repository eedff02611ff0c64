import SnapshotStore.Proofs.Autosave.Running

/-! What a pass accounts for while others use the stores. A store that the pass does not
write is left alone, and one that it has saved has in its file what it held at some
moment of the pass. No store is let go meanwhile. -/
namespace SnapshotStore.Autosaver

open Disk Store
open Program (Runs)

/-- Others use the disk. -/
def Action.UsesDisk : Action → Prop
  | .use _ | .elsewhere => True
  | _ => False

namespace Running

variable {r r' first middle : Running} {action : Action} {log before after : List Action}
  {name : String} {c : Copy} {t : Tick} {p : Pass} {s s' : Store}

/-! ### Stores that are left alone -/

/-- A store of which nothing was saved in the meantime. Its setup is the same, and so is
what counts as saved. The store itself is the same if it was not changed. What its file
held it still holds; and if nobody else has used the disk, then reading the file gives the
same as before, also where there is none. -/
def Kept (r : Running) (log : List Action) (r' : Running) (name : String) : Prop :=
  ∀ s, r.manager.stores.get? name = some s → ∃ s', r'.manager.stores.get? name = some s' ∧
    s'.config = s.config ∧ s'.savedGeneration = s.savedGeneration ∧
    (.mutate name ∉ log → s' = s) ∧
    (∀ content, r.disk.read s.path = .ok content → r'.disk.read s.path = .ok content) ∧
    ((∀ action ∈ log, ¬ action.UsesDisk) → r'.disk.read s.path = r.disk.read s.path)

theorem kept_refl (r : Running) (name : String) : Kept r [] r name :=
  fun s hStore => ⟨s, hStore, rfl, rfl, fun _ => rfl, fun _ => id, fun _ => rfl⟩

theorem Kept.trans (h : Kept r before middle name) (h' : Kept middle after r' name) :
    Kept r (before ++ after) r' name := by
  intro s hStore
  obtain ⟨s₁, hStore₁, hConfig₁, hSaved₁, hSame₁, hFile₁, hRead₁⟩ := h s hStore
  obtain ⟨s₂, hStore₂, hConfig₂, hSaved₂, hSame₂, hFile₂, hRead₂⟩ := h' s₁ hStore₁
  have hPath : s₁.path = s.path := congrArg Config.path hConfig₁
  rw [hPath] at hFile₂ hRead₂
  refine ⟨s₂, hStore₂, hConfig₂.trans hConfig₁, hSaved₂.trans hSaved₁, fun hNot => ?_,
    fun content hContent => hFile₂ content (hFile₁ content hContent), fun hNobody => ?_⟩
  · have hParts := fun hMember => hNot (List.mem_append.mpr hMember)
    exact (hSame₂ fun hAfter => hParts (Or.inr hAfter)).trans
      (hSame₁ fun hBefore => hParts (Or.inl hBefore))
  · exact (hRead₂ fun action hAction => hNobody action (List.mem_append_right _ hAction)).trans
      (hRead₁ fun action hAction => hNobody action (List.mem_append_left _ hAction))

/-- Others change a store only where they say so. -/
theorem Step.store_eq (h : Step r action r') (hOther : ¬ action.OfAutosaver)
    (hName : action ≠ .mutate name) (hRegular : r.manager.Regular)
    (hStore : r.manager.stores.get? name = some s) : r'.manager.stores.get? name = some s := by
  cases h with
  | @mutate α own operation outcome s₁ s₂ hHeld hOwn hMutation hRuns =>
      have hNames : name ≠ own := by
        rintro rfl
        exact hName rfl
      have hConfig := (Operation.change_of_isMutation hMutation hRuns).config
      exact (hRegular.get?_put_of_ne hOwn hConfig hNames).trans hStore
  | use hRuns => exact (hRegular.extends_of_runs_use hRuns).1.kept name s hStore
  | hold | elsewhere => exact hStore
  | _ => exact absurd trivial hOther

theorem Step.read_eq (h : Step r action r') (hOther : ¬ action.OfAutosaver)
    (hNobody : ¬ action.UsesDisk) : r'.disk = r.disk := by
  cases h with
  | mutate | hold => rfl
  | use | elsewhere => exact absurd trivial hNobody
  | _ => exact absurd trivial hOther

theorem Step.kept (h : Step r action r') (hSound : r.Sound) (hStays : action ≠ .release name)
    (hNot : ∀ p, r'.pass? = some p → ¬ p.Wrote name) : Kept r [action] r' name := by
  intro s hStore
  by_cases hOther : action.OfAutosaver
  · rcases h.untouched hOther hStays hSound hStore with ⟨hSame, hRead⟩ | ⟨p, hPass, hWrote⟩
    · exact ⟨s, hSame, rfl, rfl, fun _ => rfl, fun _ hContent => hRead.trans hContent,
        fun _ => hRead⟩
    · exact absurd hWrote (hNot p hPass)
  · obtain ⟨hEvolves, -⟩ := h.evolves hOther hSound.regular
    obtain ⟨s', hStore', hConfig, hSaved, -⟩ := hEvolves.stores name s hStore
    refine ⟨s', hStore', hConfig, hSaved, fun hNone => ?_,
      fun content => hEvolves.files name s content hStore, fun hNobody => ?_⟩
    · have hName : action ≠ .mutate name := fun hSame => hNone (List.mem_singleton.mpr hSame.symm)
      exact Option.some.inj (hStore'.symm.trans (h.store_eq hOther hName hSound.regular hStore))
    · rw [h.read_eq hOther (hNobody action (List.mem_singleton_self _))]

/-- A store that a pass has not written by now was left alone since the pass began. -/
theorem Ran.kept (h : Ran r log r') (hNone : ∀ action ∈ log, action.begun? = none)
    (hSound : r.Sound) (hPass : r'.pass? = some p) (hNot : ¬ p.Wrote name) :
    Kept r log r' name ∧ ∃ q, r.pass? = some q ∧ ¬ q.Wrote name := by
  induction h with
  | nil r => exact ⟨kept_refl r name, p, hPass, hNot⟩
  | @cons action log r middle r' first rest ih =>
      obtain ⟨hRest, q', hPass', hNot'⟩ := ih (fun action hAction =>
        hNone action (List.mem_cons_of_mem _ hAction)) (first.sound hSound) hPass
      have hFirst : Kept r [action] middle name :=
        first.kept hSound (first.ne_release_of_pass hSound hPass') fun q hSome => by
          rwa [← Option.some.inj (hPass'.symm.trans hSome)]
      refine ⟨hFirst.trans hRest, ?_⟩
      obtain ⟨q, hBefore, hGoes⟩ := first.pass_inv hSound (hNone _ List.mem_cons_self) hPass'
      refine ⟨q, hBefore, fun hWrote => hNot' ?_⟩
      rcases hGoes with hWorks | ⟨rfl, -⟩
      · exact hWorks.wrote hWrote
      · exact hWrote

/-! ### Stores that are open -/

/-- An open store stays open unless it is let go, and is not set back. What it holds
changes only where it is changed, and with it the generation. -/
theorem Step.advances (h : Step r action r') (hSound : r.Sound) (hStays : action ≠ .release name)
    (hStore : r.manager.stores.get? name = some s) :
    ∃ s', r'.manager.stores.get? name = some s' ∧ s.generation ≤ s'.generation ∧
      (s'.generation = s.generation → s'.data = s.data) ∧
      (action ≠ .mutate name → s'.copy = s.copy) := by
  by_cases hOther : action.OfAutosaver
  · have hCopy := h.copy_eq hOther hStays hSound.regular
    rw [hStore, Option.map_some] at hCopy
    obtain ⟨s', hStore', hSame⟩ := Option.map_eq_some_iff.mp hCopy
    exact ⟨s', hStore', (congrArg Copy.generation hSame).ge, fun _ => congrArg Copy.data hSame,
      fun _ => hSame⟩
  · obtain ⟨hEvolves, -⟩ := h.evolves hOther hSound.regular
    obtain ⟨s', hStore', -, -, hLess, hData⟩ := hEvolves.stores name s hStore
    refine ⟨s', hStore', hLess, hData, fun hName => ?_⟩
    rw [Option.some.inj (hStore'.symm.trans (h.store_eq hOther hName hSound.regular hStore))]

theorem Ran.advances (h : Ran r log r') (hSound : r.Sound) (hStays : .release name ∉ log)
    (hStore : r.manager.stores.get? name = some s) :
    ∃ s', r'.manager.stores.get? name = some s' ∧ s.generation ≤ s'.generation ∧
      (s'.generation = s.generation → s'.data = s.data) ∧
      (.mutate name ∉ log → s'.copy = s.copy) := by
  induction h generalizing s with
  | nil r => exact ⟨s, hStore, Nat.le_refl _, fun _ => rfl, fun _ => rfl⟩
  | cons first rest ih =>
      obtain ⟨s₁, hStore₁, hLess₁, hData₁, hCopy₁⟩ :=
        first.advances hSound (List.ne_of_not_mem_cons hStays).symm hStore
      obtain ⟨s₂, hStore₂, hLess₂, hData₂, hCopy₂⟩ :=
        ih (first.sound hSound) (List.not_mem_of_not_mem_cons hStays) hStore₁
      refine ⟨s₂, hStore₂, hLess₁.trans hLess₂, fun hSame => ?_, fun hNot => ?_⟩
      · exact (hData₂ (by omega)).trans (hData₁ (by omega))
      · exact (hCopy₂ (List.not_mem_of_not_mem_cons hNot)).trans
          (hCopy₁ (List.ne_of_not_mem_cons hNot).symm)

/-- A copy from later on has everything that was done before. -/
theorem MadeDuring.generation_le (h : MadeDuring r log r' name c) (hSound : r.Sound)
    (hStays : .release name ∉ log) (hStore : r.manager.stores.get? name = some s) :
    s.generation ≤ c.generation := by
  obtain ⟨before, middle, after, rfl, hBefore, -, hCopy⟩ := h
  have hStays' : .release name ∉ before := fun hMember => hStays (List.mem_append_left _ hMember)
  obtain ⟨s', hStore', hLess, -⟩ := hBefore.advances hSound hStays' hStore
  rw [hStore', Option.map_some] at hCopy
  exact hLess.trans (congrArg Copy.generation (Option.some.inj hCopy)).le

/-! ### Whole passes -/

/-- What a pass accounts for at some moment, when it has begun with the first of these
steps. A copy that it has saved is what the store held at a moment in between, and is in
its file. A store whose save has failed was not written, nor was one that has been found
clean; and what was not written was left alone. When the pass is over, each store that was
covered as it began has been saved, or its save has failed; of a pass that looks for
changes, this holds of the stores that had something to save. -/
structure Account (r : Running) (log : List Action) (r' : Running) (t : Tick) (p : Pass) :
    Prop where
  saved : ∀ name c, (name, .ok c) ∈ p.saved →
    MadeDuring r log r' name c ∧ Filed r'.manager r'.disk name c
  failed : ∀ name error, (name, .error error) ∈ p.saved → ¬ p.Wrote name
  clean : ∀ name ∈ p.clean, ¬ p.Wrote name
  kept : ∀ name, ¬ p.Wrote name → Kept r log r' name
  due : p.IsOver → ∀ name, r.target.Covers r.manager name →
    (t = .flush → ∃ s, r.manager.stores.get? name = some s ∧ s.isDirty = true) →
    ∃ result, (name, result) ∈ p.saved ∧ (p.outcome = .ok () → ∃ c, result = .ok c)

theorem due_onTick {names : List String} (hListed : r.target.Lists r.manager names)
    (hCovers : r.target.Covers r.manager name)
    (hDirty : t = .flush → ∃ s, r.manager.stores.get? name = some s ∧ s.isDirty = true) :
    Saving.Due (r.seenBy (Pass.onTick t names)) name := by
  have hName : name ∈ names := hListed.mem_iff.mpr hCovers
  cases t with
  | save => exact Or.inr ⟨hName, Or.inl trivial⟩
  | flush => exact Or.inr ⟨hName, Or.inr (hDirty rfl)⟩

theorem Ran.account (first : Step r action middle) (hBegun : action.begun? = some t)
    (h : Ran middle log r') (hNone : ∀ action ∈ log, action.begun? = none) (hSound : r.Sound)
    (hPass : r'.pass? = some p) : Account r (action :: log) r' t p := by
  have hMiddle := first.sound hSound
  obtain ⟨names, hListed, hBegins, hManager⟩ := first.begun hBegun
  have hHolds := (h.sound hMiddle).pass p hPass
  refine ⟨fun name c hSaved => ⟨?_, hHolds.filed name c hSaved⟩, fun name error hFailed => ?_,
    fun name hClean => ?_, fun name hNot => ?_, fun hOver name hCovers hDirty => ?_⟩
  · refine ((h.has hMiddle hPass (Or.inl hSaved)).resolve_left ?_).cons first
    rintro ⟨q, hFirst, hHas⟩
    rw [← Option.some.inj (hBegins.symm.trans hFirst)] at hHas
    exact Pass.not_has_onTick t names name c hHas
  · exact hHolds.not_wrote_of_failed hFailed
  · exact hHolds.not_wrote_of_mem_clean hClean
  · obtain ⟨hKept, q, hFirst, hNot'⟩ := h.kept hNone hMiddle hPass hNot
    refine Kept.trans (first.kept hSound (first.ne_release_of_pass hSound hBegins)
      fun q' hSome => ?_) hKept
    rwa [← Option.some.inj (hFirst.symm.trans hSome)]
  · have hDue := h.keeps_pass (P := fun q => r.target.Covers q.manager name ∧ q.Due name)
      (fun q q' hHolds hStep ⟨hCovers, hDue⟩ =>
        ⟨hStep.covers hHolds.regular hCovers, hStep.due hCovers hDue⟩)
      (fun q m e hHolds hEvolves ⟨hCovers, hDue⟩ =>
        ⟨hEvolves.covers hCovers, hDue.evolves hEvolves hHolds.regular⟩)
      first.target_eq hNone hMiddle ?_ p hPass
    · obtain ⟨result, hSaved⟩ := hDue.2.mem_saved hOver
      exact ⟨result, hSaved, fun hOutcome => Pass.exists_of_reported_eq_ok hOutcome hSaved⟩
    · intro q hFirst
      obtain rfl := Option.some.inj (hBegins.symm.trans hFirst)
      rw [← hManager] at hListed hCovers hDirty
      exact ⟨hCovers, due_onTick (first.target_eq ▸ hListed) (first.target_eq ▸ hCovers) hDirty⟩

/-- A store that is clean when a pass comes to choose whether to save it is not written by
that pass. -/
theorem Ran.not_wrote_of_clean {left chosen : List String} {q : Pass} (first : Step r .work middle)
    (hBusy : r.worker = .busy t q) (hStage : q.stage = .choosing (name :: left) chosen)
    (hStore : r.manager.stores.get? name = some s) (hClean : s.isDirty = false)
    (h : Ran middle log r') (hNone : ∀ action ∈ log, action.begun? = none) (hSound : r.Sound)
    (hPass : r'.pass? = some p) : ¬ p.Wrote name := by
  have hMiddle := first.sound hSound
  have hLeftOut := h.keeps_pass (P := fun q => q.LeftOut name)
    (fun q q' _ hStep hLeftOut => hStep.leftOut hLeftOut) (fun q m e _ _ hLeftOut => hLeftOut)
    first.target_eq hNone hMiddle ?_ p hPass
  · exact ((h.sound hMiddle).pass p hPass).not_wrote_of_mem_clean hLeftOut.1
  · intro q' hNext
    cases first with
    | work hBusy' hStep =>
        obtain ⟨rfl, rfl⟩ := Worker.busy.inj (hBusy'.symm.trans hBusy)
        obtain rfl := Option.some.inj hNext
        exact hStep.leftOut_of_clean hStage hStore hClean

/-! ### Stores that are opened on the way -/

/-- A store has nothing to save when it has just been opened. -/
theorem Step.clean_of_missing (h : Step r action r') (hSound : r.Sound)
    (hMissing : r.manager.stores.get? name = none)
    (hStore : r'.manager.stores.get? name = some s) : s.isDirty = false := by
  by_cases hOwn : action.OfAutosaver
  · by_cases hRelease : action = .release name
    · subst hRelease
      cases h with
      | release hOwner hNobody hBefore hRuns =>
          rw [hMissing] at hBefore
          cases hBefore
    · have hCopy := h.copy_eq hOwn hRelease hSound.regular
      rw [hMissing, hStore] at hCopy
      cases hCopy
  · cases h with
    | @mutate α own operation outcome s₁ s₂ hHeld hOther hMutation hRuns =>
        have hNames : name ≠ own := by
          rintro rfl
          rw [hMissing] at hOther
          cases hOther
        have hConfig := (Operation.change_of_isMutation hMutation hRuns).config
        rw [hSound.regular.get?_put_of_ne hOther hConfig hNames, hMissing] at hStore
        cases hStore
    | use hRuns =>
        rcases (hSound.regular.extends_of_runs_use hRuns).1.added name s hStore with
          hBefore | ⟨-, -, hClean, -⟩
        · rw [hMissing] at hBefore
          cases hBefore
        · exact hClean
    | hold | elsewhere =>
        rw [hMissing] at hStore
        cases hStore
    | _ => exact absurd trivial hOwn

/-- What is open under the name, if anything, has nothing to save. -/
def CleanAt (r : Running) (name : String) : Prop :=
  ∀ s, r.manager.stores.get? name = some s → s.isDirty = false

/-- It has nothing to save as long as it is not changed, also if it is let go and another
one is opened. -/
theorem Step.cleanAt (h : Step r action r') (hSound : r.Sound)
    (hNot : ∀ p, r'.pass? = some p → ¬ p.Wrote name) (hSame : action ≠ .mutate name)
    (hClean : r.CleanAt name) : r'.CleanAt name := by
  intro s' hStore'
  cases hStore : r.manager.stores.get? name with
  | none => exact h.clean_of_missing hSound hStore hStore'
  | some s =>
      have hStays : action ≠ .release name := by
        rintro rfl
        cases h with
        | release hOwner hNobody hBefore hRuns =>
            rw [Manager.get?_without_self] at hStore'
            cases hStore'
      obtain ⟨s'', hKept, -, -, hEqual, -⟩ := h.kept hSound hStays hNot s hStore
      rw [Option.some.inj (hStore'.symm.trans hKept),
        hEqual fun hMember => hSame (List.mem_singleton.mp hMember).symm]
      exact hClean s hStore

theorem Ran.cleanAt (h : Ran r log r') (hNone : ∀ action ∈ log, action.begun? = none)
    (hSound : r.Sound) (hPass : r'.pass? = some p) (hNot : ¬ p.Wrote name)
    (hSame : .mutate name ∉ log) (hClean : r.CleanAt name) : r'.CleanAt name := by
  induction h with
  | nil r => exact hClean
  | cons first rest ih =>
      have hRest := fun action hAction => hNone action (List.mem_cons_of_mem _ hAction)
      obtain ⟨-, q, hPass', hNot'⟩ := rest.kept hRest (first.sound hSound) hPass hNot
      refine ih hRest (first.sound hSound) hPass (List.not_mem_of_not_mem_cons hSame) ?_
      refine first.cleanAt hSound (fun q' hSome => ?_) (List.ne_of_not_mem_cons hSame).symm hClean
      rwa [← Option.some.inj (hPass'.symm.trans hSome)]

/-! ### Saves that have succeeded -/

/-- A store that a pass has saved has nothing to save if it was not changed in the
meantime. -/
theorem Account.clean_of_saved (h : Account r log r' t p) (hSound : r.Sound)
    (hHolds : ¬ r'.owner.HasLeft) (hSaved : (name, .ok c) ∈ p.saved) (hSame : .mutate name ∉ log)
    (hStore : r'.manager.stores.get? name = some s) : s.isDirty = false := by
  obtain ⟨⟨before, middle, after, rfl, hBefore, hAfter, hCopy⟩, s', hStore', -, hSavedAt, -⟩ :=
    h.saved name c hSaved
  obtain ⟨s₀, hStore₀, rfl⟩ := Option.map_eq_some_iff.mp hCopy
  obtain rfl := Option.some.inj (hStore'.symm.trans hStore)
  obtain ⟨s₁, hStore₁, -, -, hCopy₁⟩ :=
    hAfter.advances (hBefore.sound hSound) (hAfter.not_released hHolds name) hStore₀
  obtain rfl := Option.some.inj (hStore₁.symm.trans hStore)
  have hGeneration : s₁.generation = s₀.generation := congrArg Copy.generation
    (hCopy₁ fun hMember => hSame (List.mem_append_right _ hMember))
  rw [isDirty, hSavedAt, hGeneration]
  exact decide_eq_false (not_not.mpr rfl)

end Running

end SnapshotStore.Autosaver
