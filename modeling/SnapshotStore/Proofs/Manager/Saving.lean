import Mathlib.Data.List.Nodup
import SnapshotStore.Proofs.Manager.Regular

/-! The stores of a manager are saved one after the other, in any order. A save that fails
stops none of the others, and what becomes of a store and of its file depends only on
whether its own save succeeded. -/
namespace SnapshotStore

open Disk Program
open Snapshot (WritesSucceed)

/-! ### One store -/

/-- What becomes of a store that is saved, and of its file, in a run with these events: it is
clean and the file holds its content if nothing that the save writes is refused, and
otherwise both are as before. -/
structure Store.Saved (s s' : Store) (d : Disk) (trace : List Event) (e : Disk) : Prop where
  data : s'.data = s.data
  written : WritesSucceed s.path trace → s' = s.publish s.copy ∧ s'.isDirty = false ∧
    e.read s.path = .ok (Snapshot.content s.config.layout s.data)
  refused : ¬ WritesSucceed s.path trace → s' = s ∧ e.read s.path = d.read s.path

namespace Store

variable {s s' t : Store} {d d' e e' : Disk} {trace trace' : List Event}
  {outcome : Except StoreError Unit}

theorem saved_of_runs (h : Runs s.save d trace (outcome, s') e) : Saved s s' d trace e := by
  have hOutcome := runs_save_iff h
  cases outcome with
  | error error =>
      obtain ⟨rfl, hOnly⟩ := runs_save_error h
      refine ⟨rfl, fun hWrites => ?_, fun _ => ⟨rfl, hOnly.read_eq⟩⟩
      cases hOutcome.mp hWrites
  | ok _ =>
      obtain ⟨rfl, hReplaced⟩ := runs_save_ok h
      refine ⟨rfl, fun _ => ⟨rfl, ?_, hReplaced.read⟩, fun hRefused => absurd ?_ hRefused⟩
      · simp [isDirty, publish, copy]
      · exact hOutcome.mpr rfl

theorem Saved.path_eq (h : Saved s s' d trace e) : s'.path = s.path := by
  by_cases hWrites : WritesSucceed s.path trace
  · rw [(h.written hWrites).1]
    rfl
  · rw [(h.refused hWrites).1]

/-- What happens before and after to other files does not matter. -/
theorem Saved.congr (h : Saved s s' d trace e)
    (hTrace : WritesSucceed s.path trace' ↔ WritesSucceed s.path trace)
    (hBefore : d.read s.path = d'.read s.path) (hAfter : e'.read s.path = e.read s.path) :
    Saved s s' d' trace' e' := by
  refine ⟨h.data, fun hWrites => ?_, fun hRefused => ?_⟩
  · rw [hAfter]
    exact h.written (hTrace.mp hWrites)
  · rw [hAfter, ← hBefore]
    exact h.refused (mt hTrace.mpr hRefused)

/-- Which of the two it is decides both the store and the file. -/
theorem Saved.unique (h : Saved s s' d trace e) (h' : Saved s t d trace' e')
    (hTrace : WritesSucceed s.path trace ↔ WritesSucceed s.path trace') :
    t = s' ∧ e'.read s.path = e.read s.path := by
  by_cases hWrites : WritesSucceed s.path trace
  · obtain ⟨rfl, -, hRead⟩ := h.written hWrites
    obtain ⟨rfl, -, hRead'⟩ := h'.written (hTrace.mp hWrites)
    exact ⟨rfl, hRead'.trans hRead.symm⟩
  · obtain ⟨rfl, hRead⟩ := h.refused hWrites
    obtain ⟨rfl, hRead'⟩ := h'.refused (mt hTrace.mpr hWrites)
    exact ⟨rfl, hRead'.trans hRead.symm⟩

end Store

namespace Manager

variable {m after after' : Manager} {name other : String} {names names' : List String}
  {s s' : Store} {d e e' : Disk} {trace trace' : List Event}
  {outcome outcome' : Except StoreError Unit} {wanted wanted' : String → Prop}

/-! ### Stores with something to save -/

/-- The store of this name has something to save. -/
def isDirtyAt (m : Manager) (name : String) : Bool :=
  (m.stores.get? name).any Store.isDirty

theorem isDirtyAt_eq (hStore : m.stores.get? name = some s) : m.isDirtyAt name = s.isDirty := by
  rw [isDirtyAt, hStore]
  rfl

/-- Putting a store back closes none. -/
theorem exists_store_put (s : Store) (h : ∃ s, m.stores.get? name = some s) :
    ∃ s', (m.put s).stores.get? name = some s' := by
  rw [get?_put]
  split_ifs
  · exact ⟨s, rfl⟩
  · exact h

theorem isDirtyAt_of_mem_entries {entry : String × Store} (h : entry ∈ m.stores.entries) :
    m.isDirtyAt entry.1 = entry.2.isDirty :=
  isDirtyAt_eq (KeyMap.get?_eq_some_iff.mpr h)

theorem dirtyNames_eq (m : Manager) : m.dirtyNames = m.names.filter m.isDirtyAt := by
  unfold dirtyNames names KeyMap.keys KeyMap.filter
  rw [List.filter_map]
  refine congrArg (List.map Prod.fst) (List.filter_congr fun entry hEntry => ?_)
  exact (isDirtyAt_of_mem_entries hEntry).symm

theorem isDirty_eq (m : Manager) : m.isDirty = m.names.any m.isDirtyAt := by
  unfold isDirty names KeyMap.keys
  rw [List.any_map]
  refine Bool.eq_iff_iff.mpr ?_
  simp only [List.any_eq_true]
  exact exists_congr fun entry => and_congr_right fun hEntry => by
    rw [Function.comp_apply, isDirtyAt_of_mem_entries hEntry]

/-- A store that is put where it is already changes nothing. -/
theorem Regular.put_eq_self (h : m.Regular) (hStore : m.stores.get? name = some s) :
    m.put s = m := by
  have hStores : (m.put s).stores = m.stores := KeyMap.ext_get? fun other => by
    by_cases hName : other = name
    · subst hName
      rw [h.get?_put_self hStore rfl, hStore]
    · exact h.get?_put_of_ne hStore rfl hName
  calc m.put s = ⟨m.config, (m.put s).stores⟩ := rfl
    _ = m := by rw [hStores]

/-! ### Several stores -/

/-- While one store is saved, nothing of another one is written. -/
theorem Regular.writesSucceed_of_runs_save (h : m.Regular) {t : Store}
    (hStore : m.stores.get? name = some s) (hOther : m.stores.get? other = some t)
    (hNames : other ≠ name) (hSave : Runs s.save d trace (outcome, s') e) :
    WritesSucceed t.path trace := by
  obtain ⟨hName, hSetup, -⟩ := h name s hStore
  obtain ⟨hOtherName, hOtherSetup, -⟩ := h other t hOther
  have hIsName : Config.isName s.config.name = true := by
    rw [hSetup]
    exact Config.isName_of_checkName hName
  have hIsOtherName : Config.isName t.config.name = true := by
    rw [hOtherSetup]
    exact Config.isName_of_checkName hOtherName
  have hDirectory : s.config.directory = t.config.directory := by
    rw [hSetup, hOtherSetup]
    rfl
  have hDiffer : s.config.name ≠ t.config.name := by
    rw [hSetup, hOtherSetup]
    exact hNames.symm
  have hTemp : s.config.file .prepared ≠ t.config.file .prepared :=
    Config.file_ne hDirectory hIsName hIsOtherName fun hSame => hDiffer hSame.1
  have hParent : s.path.parent = t.path.parent := by
    unfold Store.path Config.path
    rw [hDirectory]
    exact Path.parent_join_eq _ (Config.not_mem_fileName_of_isName hIsName)
      s.config.isIdle_fileName (Config.not_mem_fileName_of_isName hIsOtherName)
      t.config.isIdle_fileName
  obtain ⟨written, hWrite, -⟩ := Store.runs_save hSave
  refine Snapshot.writesSucceed_of_asksOnly hWrite ((Snapshot.asksOnly_replaceFile _ _ _).mono ?_)
  intro request hRequest
  refine hRequest.not_writes hTemp ?_
  rw [hParent]
  exact parent_ne_temp t.path

theorem Regular.read_eq_of_runs_save (h : m.Regular) {t : Store}
    (hStore : m.stores.get? name = some s) (hOther : m.stores.get? other = some t)
    (hNames : other ≠ name) (hSave : Runs s.save d trace (outcome, s') e) :
    e.read t.path = d.read t.path := by
  obtain ⟨written, hWrite, -⟩ := Store.runs_save hSave
  exact h.read_eq_of_reaches hStore hOther hNames hWrite.reaches

/-- What saving the wanted stores makes of all of them and of their files, and what it
reports. -/
structure Saves (m : Manager) (wanted : String → Prop) (d : Disk) (trace : List Event)
    (outcome : Except StoreError Unit) (after : Manager) (e : Disk) : Prop where
  config : after.config = m.config
  closed : ∀ name, m.stores.get? name = none → after.stores.get? name = none
  saved : ∀ name s, m.stores.get? name = some s → wanted name →
    ∃ s', after.stores.get? name = some s' ∧ s.Saved s' d trace e
  left : ∀ name s, m.stores.get? name = some s → ¬ wanted name →
    after.stores.get? name = some s ∧ e.read s.path = d.read s.path ∧ WritesSucceed s.path trace
  ok : outcome = .ok () ↔
    ∀ name s, m.stores.get? name = some s → wanted name → WritesSucceed s.path trace
  /-- What is reported is what one of the failing saves has come to. -/
  error : ∀ error, outcome = .error error → ∃ name s, m.stores.get? name = some s ∧
    wanted name ∧ ¬ WritesSucceed s.path trace ∧
    ∃ before own s' between, own <:+: trace ∧ Runs s.save before own (.error error, s') between

theorem saves_nil (m : Manager) (d : Disk) : Saves m (· ∈ []) d [] (.ok ()) m d :=
  ⟨rfl, fun _ => id, fun _ _ _ => nofun,
    fun _ s hStore _ => ⟨hStore, rfl, Snapshot.writesSucceed_nil s.path⟩,
    iff_of_true rfl fun _ _ _ => nofun, fun _ => nofun⟩

theorem Saves.congr (h : Saves m wanted d trace outcome after e)
    (hWanted : ∀ name s, m.stores.get? name = some s → (wanted name ↔ wanted' name)) :
    Saves m wanted' d trace outcome after e := by
  refine ⟨h.config, h.closed, fun name s hStore hName => ?_, fun name s hStore hName => ?_,
    h.ok.trans ⟨fun hAll name s hStore hName => ?_, fun hAll name s hStore hName => ?_⟩,
    fun error hError => ?_⟩
  · exact h.saved name s hStore ((hWanted name s hStore).mpr hName)
  · exact h.left name s hStore (mt (hWanted name s hStore).mp hName)
  · exact hAll name s hStore ((hWanted name s hStore).mpr hName)
  · exact hAll name s hStore ((hWanted name s hStore).mp hName)
  · obtain ⟨name, s, hStore, hName, hFailed⟩ := h.error error hError
    exact ⟨name, s, hStore, (hWanted name s hStore).mp hName, hFailed⟩

theorem firstError_eq_ok_iff {first second : Except StoreError Unit} :
    firstError first second = .ok () ↔ first = .ok () ∧ second = .ok () := by
  cases first <;> simp [firstError]

theorem firstError_eq_error {first second : Except StoreError Unit} {error : StoreError}
    (h : firstError first second = .error error) : first = .error error ∨
      first = .ok () ∧ second = .error error := by
  cases first with
  | error found => exact Or.inl h
  | ok _ => exact Or.inr ⟨rfl, h⟩

/-- Saving one store leaves the others alone. -/
theorem Regular.saves_single (h : m.Regular) (hStore : m.stores.get? name = some s)
    (hSave : Runs s.save d trace (outcome, s') e) :
    Saves m (· = name) d trace outcome (m.put s') e := by
  have hConfig := Store.config_of_runs_save hSave
  refine ⟨rfl, fun other hMissing => ?_, ?_, fun other t hFound hNames => ⟨?_, ?_, ?_⟩,
    ⟨fun hOk => ?_, fun hAll => ?_⟩, fun error hError => ?_⟩
  · have hNames : other ≠ name := by
      rintro rfl
      rw [hStore] at hMissing
      cases hMissing
    rwa [h.get?_put_of_ne hStore hConfig hNames]
  · rintro other t hFound rfl
    obtain rfl : s = t := Option.some.inj (hStore.symm.trans hFound)
    exact ⟨s', h.get?_put_self hStore hConfig, Store.saved_of_runs hSave⟩
  · rwa [h.get?_put_of_ne hStore hConfig hNames]
  · exact h.read_eq_of_runs_save hStore hFound hNames hSave
  · exact h.writesSucceed_of_runs_save hStore hFound hNames hSave
  · rintro other t hFound rfl
    obtain rfl : s = t := Option.some.inj (hStore.symm.trans hFound)
    exact (Store.runs_save_iff hSave).mpr hOk
  · exact (Store.runs_save_iff hSave).mp (hAll name s hStore rfl)
  · subst hError
    refine ⟨name, s, hStore, rfl, fun hWrites => ?_, d, trace, s', e, List.infix_refl trace, hSave⟩
    cases (Store.runs_save_iff hSave).mp hWrites

section Append

variable {middle : Manager} {c : Disk} {own others : List Event}
  {first second : Except StoreError Unit}

/-- What has been saved first stays as it is while other stores are saved. -/
theorem Saves.saved_append (h : Saves m wanted d own first middle c)
    (hThen : Saves middle wanted' c others second after e) (hStore : m.stores.get? name = some s)
    (hName : wanted name) (hOther : ¬ wanted' name) :
    (∃ s', after.stores.get? name = some s' ∧ s.Saved s' d (own ++ others) e) ∧
      (WritesSucceed s.path (own ++ others) ↔ WritesSucceed s.path own) := by
  obtain ⟨s', hMiddle, hSaved⟩ := h.saved name s hStore hName
  obtain ⟨hAfter, hRead, hNone⟩ := hThen.left name s' hMiddle hOther
  rw [hSaved.path_eq] at hRead hNone
  have hTrace : WritesSucceed s.path (own ++ others) ↔ WritesSucceed s.path own :=
    Snapshot.writesSucceed_append.trans (and_iff_left hNone)
  exact ⟨⟨s', hAfter, hSaved.congr hTrace rfl hRead⟩, hTrace⟩

/-- What is saved later is as it was at first until then. -/
theorem Saves.left_append (h : Saves m wanted d own first middle c)
    (hStore : m.stores.get? name = some s) (hName : ¬ wanted name) :
    middle.stores.get? name = some s ∧ c.read s.path = d.read s.path ∧
      (WritesSucceed s.path (own ++ others) ↔ WritesSucceed s.path others) := by
  obtain ⟨hMiddle, hRead, hNone⟩ := h.left name s hStore hName
  exact ⟨hMiddle, hRead, Snapshot.writesSucceed_append.trans (and_iff_right hNone)⟩

/-- A store that was not saved first was open before. -/
theorem Saves.of_middle (h : Saves m wanted d own first middle c)
    (hMiddle : middle.stores.get? name = some s) (hName : ¬ wanted name) :
    m.stores.get? name = some s := by
  cases hStore : m.stores.get? name with
  | none =>
      rw [h.closed name hStore] at hMiddle
      cases hMiddle
  | some t => rw [← hMiddle, (h.left name t hStore hName).1]

/-- Success is reported for both if it is reported for each. -/
theorem Saves.ok_append (h : Saves m wanted d own first middle c)
    (hThen : Saves middle wanted' c others second after e)
    (hApart : ∀ name, wanted' name → ¬ wanted name) :
    firstError first second = .ok () ↔ ∀ name s, m.stores.get? name = some s →
      wanted name ∨ wanted' name → WritesSucceed s.path (own ++ others) := by
  rw [firstError_eq_ok_iff, h.ok, hThen.ok]
  constructor
  · rintro ⟨hFirst, hSecond⟩ name s hStore (hName | hName)
    · exact (h.saved_append hThen hStore hName fun hOther => hApart name hOther hName).2.mpr
        (hFirst name s hStore hName)
    · obtain ⟨hMiddle, -, hTrace⟩ := h.left_append hStore (hApart name hName)
      exact hTrace.mpr (hSecond name s hMiddle hName)
  · refine fun hAll => ⟨fun name s hStore hName => ?_, fun name s hMiddle hName => ?_⟩
    · exact (h.saved_append hThen hStore hName fun hOther => hApart name hOther hName).2.mp
        (hAll name s hStore (Or.inl hName))
    · have hStore := h.of_middle hMiddle (hApart name hName)
      exact (h.left_append hStore (hApart name hName)).2.2.mp (hAll name s hStore (Or.inr hName))

/-- Some stores are saved, and then some others. -/
theorem Saves.append (h : Saves m wanted d own first middle c)
    (hThen : Saves middle wanted' c others second after e)
    (hApart : ∀ name, wanted' name → ¬ wanted name) :
    Saves m (fun name => wanted name ∨ wanted' name) d (own ++ others) (firstError first second)
      after e := by
  refine ⟨hThen.config.trans h.config, fun name hStore => hThen.closed name (h.closed name hStore),
    ?_, fun name s hStore hName => ?_, h.ok_append hThen hApart, fun error hError => ?_⟩
  · rintro name s hStore (hName | hName)
    · exact (h.saved_append hThen hStore hName fun hOther => hApart name hOther hName).1
    · obtain ⟨hMiddle, hBefore, hTrace⟩ := h.left_append hStore (hApart name hName)
      obtain ⟨s', hAfter, hSaved⟩ := hThen.saved name s hMiddle hName
      exact ⟨s', hAfter, hSaved.congr hTrace hBefore rfl⟩
  · obtain ⟨hFirst, hSecond⟩ := not_or.mp hName
    obtain ⟨hMiddle, hBefore, hTrace⟩ := h.left_append hStore hFirst
    obtain ⟨hAfter, hRead, hNone⟩ := hThen.left name s hMiddle hSecond
    exact ⟨hAfter, hRead.trans hBefore, hTrace.mpr hNone⟩
  · rcases firstError_eq_error hError with hFirst | ⟨-, hSecond⟩
    · obtain ⟨name, s, hStore, hName, hRefused, before, mine, s', between, hInfix, hRuns⟩ :=
        h.error error hFirst
      exact ⟨name, s, hStore, Or.inl hName,
        fun hWrites => hRefused (Snapshot.writesSucceed_append.mp hWrites).1, before, mine, s',
        between, hInfix.trans (List.prefix_append own others).isInfix, hRuns⟩
    · obtain ⟨name, s, hMiddle, hName, hRefused, before, mine, s', between, hInfix, hRuns⟩ :=
        hThen.error error hSecond
      exact ⟨name, s, h.of_middle hMiddle (hApart name hName), Or.inr hName,
        fun hWrites => hRefused (Snapshot.writesSucceed_append.mp hWrites).2, before, mine, s',
        between, hInfix.trans (List.suffix_append own others).isInfix, hRuns⟩

end Append

/-- Saving stores one after the other, each of them once. -/
theorem Regular.saves_of_runs (h : m.Regular) (hNodup : names.Nodup)
    (hOpen : ∀ name ∈ names, ∃ s, m.stores.get? name = some s)
    (hRuns : Runs (m.saveAmong names) d trace (outcome, after) e) :
    Saves m (· ∈ names) d trace outcome after e := by
  induction names generalizing m d trace outcome with
  | nil =>
      obtain ⟨rfl, hResult, rfl⟩ := hRuns.pure_inv
      obtain ⟨rfl, rfl⟩ := Prod.mk.inj hResult
      exact saves_nil after e
  | cons name rest ih =>
      obtain ⟨hNew, hRest⟩ := List.nodup_cons.mp hNodup
      obtain ⟨s, hStore⟩ := hOpen name List.mem_cons_self
      rw [saveAmong, hStore] at hRuns
      obtain ⟨own, _, ⟨first, s'⟩, c, rfl, hSave, hThen⟩ := hRuns.bind_inv
      obtain ⟨others, _, ⟨second, last⟩, f, rfl, hOthers, hReturn⟩ := hThen.bind_inv
      obtain ⟨rfl, hResult, rfl⟩ := hReturn.pure_inv
      obtain ⟨rfl, rfl⟩ := Prod.mk.inj hResult
      have hPut : (m.put s').Regular := h.put hStore (Store.config_of_runs_save hSave)
        (Store.savedGeneration_le_of_runs_save (h name s hStore).2.2 hSave)
      have hLeft : ∀ other ∈ rest, ∃ t, (m.put s').stores.get? other = some t :=
        fun other hOther => exists_store_put s' (hOpen other (List.mem_cons_of_mem _ hOther))
      rw [List.append_nil]
      refine ((h.saves_single hStore hSave).append (ih hPut hRest hLeft hOthers)
        fun other hOther => ne_of_mem_of_not_mem hOther hNew).congr fun other t hFound => ?_
      exact List.mem_cons.symm

/-- In every order of all stores, every store is saved. -/
theorem Regular.saves_all (h : m.Regular) (hNames : names.Perm m.names)
    (hRuns : Runs (m.saveAmong names) d trace (outcome, after) e) :
    Saves m (fun _ => True) d trace outcome after e := by
  refine (h.saves_of_runs (hNames.nodup_iff.mpr m.stores.nodup_keys) (fun name hName => ?_)
    hRuns).congr fun name s hStore => ?_
  · exact KeyMap.mem_keys_iff_exists.mp (hNames.mem_iff.mp hName)
  · exact iff_true_intro (hNames.mem_iff.mpr (KeyMap.mem_keys_iff_exists.mpr ⟨s, hStore⟩))

theorem mem_dirtyNames_iff :
    name ∈ m.dirtyNames ↔ name ∈ m.names ∧ m.isDirtyAt name = true := by
  rw [dirtyNames_eq, List.mem_filter]

/-- In every order of those that have something to save, these are saved. -/
theorem Regular.saves_dirty (h : m.Regular) (hNames : names.Perm m.dirtyNames)
    (hRuns : Runs (m.saveAmong names) d trace (outcome, after) e) :
    Saves m (fun name => m.isDirtyAt name = true) d trace outcome after e := by
  have hNodup : m.dirtyNames.Nodup := by
    rw [dirtyNames_eq]
    exact m.stores.nodup_keys.filter _
  refine (h.saves_of_runs (hNames.nodup_iff.mpr hNodup) (fun name hName => ?_)
    hRuns).congr fun name s hStore => ?_
  · exact KeyMap.mem_keys_iff_exists.mp (mem_dirtyNames_iff.mp (hNames.mem_iff.mp hName)).1
  · rw [hNames.mem_iff, mem_dirtyNames_iff]
    exact and_iff_right (KeyMap.mem_keys_iff_exists.mpr ⟨s, hStore⟩)

/-- Once the stores with something to save have been saved, none has. -/
theorem Saves.isDirty_eq_false
    (h : Saves m (fun name => m.isDirtyAt name = true) d trace outcome after e)
    (hOk : outcome = .ok ()) : after.isDirty = false := by
  rw [isDirty_eq, List.any_eq_false]
  intro name hName hDirty
  cases hStore : m.stores.get? name with
  | none =>
      obtain ⟨s, hFound⟩ := KeyMap.mem_keys_iff_exists.mp hName
      rw [h.closed name hStore] at hFound
      cases hFound
  | some s =>
      by_cases hBefore : m.isDirtyAt name = true
      · obtain ⟨s', hAfter, hSaved⟩ := h.saved name s hStore hBefore
        rw [isDirtyAt_eq hAfter, (hSaved.written (h.ok.mp hOk name s hStore hBefore)).2.1] at hDirty
        cases hDirty
      · rw [isDirtyAt_eq hStore] at hBefore
        rw [isDirtyAt_eq (h.left name s hStore (isDirtyAt_eq hStore ▸ hBefore)).1] at hDirty
        exact hBefore hDirty

/-- Two runs in which the same stores are refused come to the same stores and files. -/
theorem Saves.unique (h : Saves m wanted d trace outcome after e)
    (h' : Saves m wanted d trace' outcome' after' e')
    (hPattern : ∀ name s, m.stores.get? name = some s →
      (WritesSucceed s.path trace ↔ WritesSucceed s.path trace')) :
    after' = after ∧ (outcome' = .ok () ↔ outcome = .ok ()) ∧
      ∀ name s, m.stores.get? name = some s → e'.read s.path = e.read s.path := by
  have hEach : ∀ name s, m.stores.get? name = some s →
      after'.stores.get? name = after.stores.get? name ∧ e'.read s.path = e.read s.path := by
    intro name s hStore
    by_cases hWanted : wanted name
    · obtain ⟨t, hAfter, hSaved⟩ := h.saved name s hStore hWanted
      obtain ⟨t', hAfter', hSaved'⟩ := h'.saved name s hStore hWanted
      obtain ⟨rfl, hRead⟩ := hSaved.unique hSaved' (hPattern name s hStore)
      exact ⟨hAfter'.trans hAfter.symm, hRead⟩
    · obtain ⟨hAfter, hRead, -⟩ := h.left name s hStore hWanted
      obtain ⟨hAfter', hRead', -⟩ := h'.left name s hStore hWanted
      exact ⟨hAfter'.trans hAfter.symm, hRead'.trans hRead.symm⟩
  have hStores : after'.stores = after.stores := KeyMap.ext_get? fun name => by
    cases hStore : m.stores.get? name with
    | none => rw [h.closed name hStore, h'.closed name hStore]
    | some s => exact (hEach name s hStore).1
  have hSame : after' = after := by
    calc after' = ⟨after'.config, after'.stores⟩ := rfl
      _ = ⟨after.config, after.stores⟩ := by rw [h.config, h'.config, hStores]
  refine ⟨hSame, ?_, fun name s hStore => (hEach name s hStore).2⟩
  rw [h.ok, h'.ok]
  exact forall_congr' fun name => forall_congr' fun s => forall_congr' fun hStore =>
    imp_congr_right fun _ => (hPattern name s hStore).symm

/-- Saving all stores, or those with something to save, in whatever order they come and
whichever of the saves fail: every one of them is saved, the others are left alone, and
success is reported only for all of them. In every other order in which the same saves
fail the stores and their files come out the same. -/
theorem saves_in_any_order (h : m.Regular) :
    (m.saveAll = m.saveAmong m.names ∧ ∀ d names trace outcome after e, names.Perm m.names →
      Runs (m.saveAmong names) d trace (outcome, after) e →
      Saves m (fun _ => True) d trace outcome after e) ∧
    (m.saveDirty = m.saveAmong m.dirtyNames ∧
      ∀ d names trace outcome after e, names.Perm m.dirtyNames →
        Runs (m.saveAmong names) d trace (outcome, after) e →
        Saves m (fun name => m.isDirtyAt name = true) d trace outcome after e ∧
          (outcome = .ok () → after.isDirty = false)) ∧
    ∀ listed, listed = m.names ∨ listed = m.dirtyNames →
      ∀ d names names' trace trace' outcome outcome' after after' e e',
        names.Perm listed → Runs (m.saveAmong names) d trace (outcome, after) e →
        names'.Perm listed → Runs (m.saveAmong names') d trace' (outcome', after') e' →
        (∀ name s, m.stores.get? name = some s →
          (WritesSucceed s.path trace ↔ WritesSucceed s.path trace')) →
        after' = after ∧ (outcome' = .ok () ↔ outcome = .ok ()) ∧
          ∀ name s, m.stores.get? name = some s → e'.read s.path = e.read s.path := by
  refine ⟨⟨rfl, fun d names trace outcome after e hNames hRuns => h.saves_all hNames hRuns⟩,
    ⟨rfl, fun d names trace outcome after e hNames hRuns => ?_⟩, ?_⟩
  · have hSaves := h.saves_dirty hNames hRuns
    exact ⟨hSaves, hSaves.isDirty_eq_false⟩
  · rintro listed (rfl | rfl) d names names' trace trace' outcome outcome' after after' e e'
      hNames hRuns hNames' hRuns' hPattern
    · exact (h.saves_all hNames hRuns).unique (h.saves_all hNames' hRuns') hPattern
    · exact (h.saves_dirty hNames hRuns).unique (h.saves_dirty hNames' hRuns') hPattern

/-- A store of this name in which a key has been set and not been saved. -/
def unsaved (name : String) : Store :=
  (Store.opened (Store.localConfig.forStore name) .empty).changeTo Store.flagged

/-- Two stores with something to save. -/
def twoUnsaved : Manager :=
  ⟨Store.localConfig, (KeyMap.empty.insert "a" (unsaved "a")).insert "b" (unsaved "b")⟩

/-- A directory where the first of them prepares its file. -/
def blockedFirst : Disk :=
  ⟨KeyMap.empty.insert ".a.json.tmp" .directory⟩

/-- The second of them once it has been saved. -/
def secondSaved : Store :=
  (unsaved "b").publish (unsaved "b").copy

/-- Its file is there as well. -/
def halfSaved : Disk :=
  blockedFirst.put "b.json" (.file (Snapshot.content .pretty Store.flagged))

theorem get?_twoUnsaved (name : String) : twoUnsaved.stores.get? name =
    if name = "b" then some (unsaved "b") else if name = "a" then some (unsaved "a") else none := by
  rw [twoUnsaved, KeyMap.get?_insert, KeyMap.get?_insert, KeyMap.get?_empty]

theorem eq_unsaved_of_get? (h : twoUnsaved.stores.get? name = some s) :
    name = "b" ∧ s = unsaved "b" ∨ name = "a" ∧ s = unsaved "a" := by
  rw [get?_twoUnsaved] at h
  split_ifs at h with hSecond hFirst
  · exact Or.inl ⟨hSecond, (Option.some.inj h).symm⟩
  · exact Or.inr ⟨hFirst, (Option.some.inj h).symm⟩

theorem regular_twoUnsaved : twoUnsaved.Regular := by
  intro name s hStore
  rcases eq_unsaved_of_get? hStore with ⟨rfl, rfl⟩ | ⟨rfl, rfl⟩
  · exact ⟨rfl, rfl, by decide⟩
  · exact ⟨rfl, rfl, by decide⟩

/-- In either order the first store stays as it is, and the second one is saved. -/
theorem saves_in_any_order_blocked : ∃ after trace trace',
    Runs (twoUnsaved.saveAmong ["a", "b"]) blockedFirst trace
      (.error (.disk .isDirectory), after) halfSaved ∧
    Runs (twoUnsaved.saveAmong ["b", "a"]) blockedFirst trace'
      (.error (.disk .isDirectory), after) halfSaved ∧
    after.stores.get? "a" = some (unsaved "a") ∧ after.stores.get? "b" = some secondSaved ∧
    (unsaved "a").isDirty = true ∧ secondSaved.isDirty = false ∧
    halfSaved.read ⟨"b.json"⟩ = .ok (Snapshot.content .pretty Store.flagged) := by
  obtain ⟨⟨-, hAll⟩, -, hOrders⟩ := saves_in_any_order regular_twoUnsaved
  have hForth : (twoUnsaved.saveAmong ["a", "b"]).run 0 blockedFirst =
      ((.error (.disk .isDirectory), twoUnsaved.put secondSaved), halfSaved) := rfl
  have hBack : (twoUnsaved.saveAmong ["b", "a"]).run 0 blockedFirst =
      ((.error (.disk .isDirectory), (twoUnsaved.put secondSaved).put (unsaved "a")),
        halfSaved) := rfl
  obtain ⟨trace, hRuns⟩ := runs_of_run hForth
  obtain ⟨trace', hRuns'⟩ := runs_of_run hBack
  have hSwapped : ["b", "a"].Perm twoUnsaved.names := .swap "a" "b" []
  have hNone : halfSaved.read (unsaved "a").path = .error .notFound := rfl
  have hFile : halfSaved.read (unsaved "b").path =
      .ok (Snapshot.content .pretty Store.flagged) := rfl
  have hBefore : blockedFirst.read (unsaved "b").path = .error .notFound := rfl
  -- the disk in the end tells which of the saves were refused
  have hPattern : ∀ {names trace outcome after}, names.Perm twoUnsaved.names →
      Runs (twoUnsaved.saveAmong names) blockedFirst trace (outcome, after) halfSaved →
      ∀ name s, twoUnsaved.stores.get? name = some s →
        (WritesSucceed s.path trace ↔ name = "b") := by
    intro names trace outcome after hNames hSaves name s hStore
    obtain ⟨t, -, hSaved⟩ := (hAll _ _ _ _ _ _ hNames hSaves).saved name s hStore trivial
    rcases eq_unsaved_of_get? hStore with ⟨rfl, rfl⟩ | ⟨rfl, rfl⟩
    · refine iff_of_true (by_contra fun hRefused => ?_) rfl
      have hRead := (hSaved.refused hRefused).2
      rw [hFile, hBefore] at hRead
      cases hRead
    · refine iff_of_false (fun hWrites => ?_) (by decide)
      have hRead := (hSaved.written hWrites).2.2
      rw [hNone] at hRead
      cases hRead
  obtain ⟨hSame, -⟩ := hOrders _ (Or.inl rfl) _ _ _ _ _ _ _ _ _ _ _ (.refl _) hRuns
    hSwapped hRuns' fun name s hStore =>
      (hPattern (.refl _) hRuns name s hStore).trans (hPattern hSwapped hRuns' name s hStore).symm
  rw [hSame] at hRuns'
  exact ⟨_, trace, trace', hRuns, hRuns', rfl, rfl, rfl, rfl, hFile⟩

/-! ### Letting go of several stores -/

theorem Regular.writesSucceed_of_runs_release (h : m.Regular) {t : Store} {u : Unit}
    (hStore : m.stores.get? name = some s) (hOther : m.stores.get? other = some t)
    (hNames : other ≠ name) (hRelease : Runs s.release d trace u e) :
    WritesSucceed t.path trace := by
  cases hDirty : s.isDirty with
  | false =>
      rw [(Store.runs_release_of_not_isDirty hDirty hRelease).1]
      exact Snapshot.writesSucceed_nil t.path
  | true =>
      obtain ⟨outcome, s', hSave⟩ := Store.runs_release_of_isDirty hDirty hRelease
      exact h.writesSucceed_of_runs_save hStore hOther hNames hSave

/-- What letting stores go one after the other makes of one that is among them. -/
theorem Regular.released_of_mem (h : m.Regular) {entries : List (String × Store)} {u : Unit}
    (hNodup : (entries.map Prod.fst).Nodup)
    (hOpen : ∀ entry ∈ entries, m.stores.get? entry.1 = some entry.2)
    (hRuns : Runs (entries.forM fun entry => entry.2.release) d trace u e)
    (hStore : m.stores.get? name = some s) :
    (name ∈ entries.map Prod.fst → s.Released d trace e) ∧
      (name ∉ entries.map Prod.fst →
        e.read s.path = d.read s.path ∧ WritesSucceed s.path trace) := by
  induction entries generalizing d trace with
  | nil =>
      obtain ⟨rfl, -, rfl⟩ := hRuns.pure_inv
      exact ⟨nofun, fun _ => ⟨rfl, Snapshot.writesSucceed_nil s.path⟩⟩
  | cons entry rest ih =>
      obtain ⟨own, t⟩ := entry
      obtain ⟨hNew, hRest⟩ := List.nodup_cons.mp hNodup
      rw [List.forM] at hRuns
      obtain ⟨first, second, _, c, rfl, hFirst, hSecond⟩ := hRuns.bind_inv
      have hOwn : m.stores.get? own = some t := hOpen (own, t) List.mem_cons_self
      obtain ⟨hLetGo, hLeft⟩ := ih hRest
        (fun other hOther => hOpen other (List.mem_cons_of_mem _ hOther)) hSecond
      by_cases hName : name = own
      · subst hName
        obtain rfl := Option.some.inj (hStore.symm.trans hOwn)
        obtain ⟨hAfter, hWrites⟩ := hLeft hNew
        refine ⟨fun _ => (Store.released_of_runs hFirst).congr ?_ rfl hAfter,
          fun hNot => absurd List.mem_cons_self hNot⟩
        rw [Snapshot.writesSucceed_append, and_iff_left hWrites]
      · have hBefore := h.read_eq_of_reaches_release hOwn hStore hName hFirst.reaches
        have hOthers := h.writesSucceed_of_runs_release hOwn hStore hName hFirst
        refine ⟨fun hMember => ?_, fun hNot => ?_⟩
        · refine (hLetGo ((List.mem_cons.mp hMember).resolve_left hName)).congr ?_ hBefore rfl
          rw [Snapshot.writesSucceed_append, and_iff_right hOthers]
        · obtain ⟨hAfter, hWrites⟩ := hLeft (List.not_mem_of_not_mem_cons hNot)
          exact ⟨hAfter.trans hBefore, Snapshot.writesSucceed_append.mpr ⟨hOthers, hWrites⟩⟩

/-- Letting a manager go saves what is unsaved of the stores that nobody keeps, and leaves
the files of the others alone. -/
theorem Regular.released_of_runs (h : m.Regular) {kept : String → Bool} {u : Unit}
    (hRuns : Runs (m.release kept) d trace u e) (hStore : m.stores.get? name = some s) :
    (kept name = false → s.Released d trace e) ∧
      (kept name = true → e.read s.path = d.read s.path) := by
  have hSublist := List.filter_sublist (p := fun entry : String × Store => !kept entry.1)
    (l := m.stores.entries)
  obtain ⟨hLetGo, hLeft⟩ := h.released_of_mem ((hSublist.map Prod.fst).nodup m.stores.nodup_keys)
    (fun entry hEntry => KeyMap.get?_eq_some_iff.mpr (hSublist.subset hEntry)) hRuns hStore
  refine ⟨fun hNot => hLetGo (List.mem_map.mpr ⟨(name, s), List.mem_filter.mpr
    ⟨KeyMap.get?_eq_some_iff.mp hStore, by rw [hNot]; rfl⟩, rfl⟩), fun hKept => (hLeft ?_).1⟩
  rintro hMember
  obtain ⟨entry, hEntry, rfl⟩ := List.mem_map.mp hMember
  have hNot := (List.mem_filter.mp hEntry).2
  rw [hKept] at hNot
  cases hNot

end Manager

end SnapshotStore
