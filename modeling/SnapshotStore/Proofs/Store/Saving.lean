import SnapshotStore.Proofs.Snapshot.Storable
import SnapshotStore.Proofs.Store.Opening

/-! Saving a store: what it does to the file and to the store, and that what it
writes is read again. -/
namespace SnapshotStore.Store

open Disk Program

variable {s s' : Store} {d e : Disk} {trace : List Event} {outcome : Except StoreError Unit}
  {error : StoreError}

theorem save_eq (s : Store) : s.save = s.writeCopy s.copy >>= fun written => match written with
    | .error fault => pure (.error (.disk fault), s)
    | .ok _ => pure (.ok (), s.publish s.copy) :=
  rfl

/-- A save writes a copy of this moment, and counts it as saved if it has been written. -/
theorem runs_save (h : Runs s.save d trace (outcome, s') e) :
    ∃ written, Runs (s.writeCopy s.copy) d trace written e ∧
      match written with
      | .error fault => outcome = .error (.disk fault) ∧ s' = s
      | .ok _ => outcome = .ok () ∧ s' = s.publish s.copy := by
  rw [save_eq] at h
  obtain ⟨before, _, written, c, rfl, hWrite, hReturn⟩ := h.bind_inv
  refine ⟨written, ?_⟩
  cases written with
  | error fault =>
      obtain ⟨rfl, hResult, rfl⟩ := hReturn.pure_inv
      rw [List.append_nil]
      exact ⟨hWrite, Prod.mk.inj hResult⟩
  | ok _ =>
      obtain ⟨rfl, hResult, rfl⟩ := hReturn.pure_inv
      rw [List.append_nil]
      exact ⟨hWrite, Prod.mk.inj hResult⟩

/-- A save that succeeds has put the content in the file. -/
theorem runs_save_ok (h : Runs s.save d trace (.ok (), s') e) :
    s' = s.publish s.copy ∧
      Replaced s.path (Snapshot.content s.config.layout s.data) d e := by
  obtain ⟨written, hWrite, hOutcome⟩ := runs_save h
  cases written with
  | error fault => cases hOutcome.1
  | ok _ => exact ⟨hOutcome.2, Snapshot.replaced_of_runs hWrite⟩

/-- A save that fails leaves the store as it was, and the file too. -/
theorem runs_save_error (h : Runs s.save d trace (.error error, s') e) :
    s' = s ∧ OnlyFile s.path.temp d e := by
  obtain ⟨written, hWrite, hOutcome⟩ := runs_save h
  cases written with
  | error fault => exact ⟨hOutcome.2, (Snapshot.onlyFile_of_runs_error hWrite).1⟩
  | ok _ => cases hOutcome.1

/-- A save succeeds if and only if nothing that it writes is refused. -/
theorem runs_save_iff (h : Runs s.save d trace (outcome, s') e) :
    Snapshot.WritesSucceed s.path trace ↔ outcome = .ok () := by
  obtain ⟨written, hWrite, hOutcome⟩ := runs_save h
  rw [Snapshot.runs_replaceFile_iff hWrite]
  cases written with
  | error fault => simp [hOutcome.1]
  | ok _ => simp [hOutcome.1]

theorem config_of_runs_save (h : Runs s.save d trace (outcome, s') e) : s'.config = s.config := by
  obtain ⟨written, -, hOutcome⟩ := runs_save h
  cases written with
  | error fault => rw [hOutcome.2]
  | ok _ =>
      rw [hOutcome.2]
      rfl

theorem savedGeneration_le_of_runs_save (hSaved : s.savedGeneration ≤ s.generation)
    (h : Runs s.save d trace (outcome, s') e) : s'.savedGeneration ≤ s'.generation := by
  obtain ⟨written, -, hOutcome⟩ := runs_save h
  cases written with
  | error fault => rwa [hOutcome.2]
  | ok _ =>
      rw [hOutcome.2]
      exact Nat.le_refl s.generation

/-! ### Letting go -/

theorem release_eq_pure (hClean : s.isDirty = false) : s.release = pure () := by
  unfold release saveDirty
  rw [hClean]
  rfl

/-- Nothing is saved when a store without unsaved changes is let go. -/
theorem runs_release_of_not_isDirty {u : Unit} (hClean : s.isDirty = false)
    (h : Runs s.release d trace u e) : trace = [] ∧ e = d := by
  rw [release_eq_pure hClean] at h
  exact ⟨h.pure_inv.1, h.pure_inv.2.2⟩

/-- A store with unsaved changes is saved, and nobody learns what that has come to. -/
theorem runs_release_of_isDirty {u : Unit} (hDirty : s.isDirty = true)
    (h : Runs s.release d trace u e) : ∃ outcome s', Runs s.save d trace (outcome, s') e := by
  obtain ⟨_, _, ⟨outcome, left⟩, c, rfl, hSave, hReturn⟩ := h.bind_inv
  obtain ⟨rfl, -, rfl⟩ := hReturn.pure_inv
  rw [saveDirty, if_pos hDirty] at hSave
  rw [List.append_nil]
  exact ⟨outcome, left, hSave⟩

/-- What letting a store go makes of its file, in a run with these events: the file has the
content if that was unsaved and nothing that the save writes is refused, and otherwise it
is as before. -/
structure Released (s : Store) (d : Disk) (trace : List Event) (e : Disk) : Prop where
  written : s.isDirty = true → Snapshot.WritesSucceed s.path trace →
    e.read s.path = .ok (Snapshot.content s.config.layout s.data)
  kept : s.isDirty = false ∨ ¬ Snapshot.WritesSucceed s.path trace →
    e.read s.path = d.read s.path

theorem released_of_runs {u : Unit} (h : Runs s.release d trace u e) : Released s d trace e := by
  cases hDirty : s.isDirty with
  | false =>
      obtain ⟨-, rfl⟩ := runs_release_of_not_isDirty hDirty h
      exact ⟨fun hTrue => absurd (hDirty.symm.trans hTrue) nofun, fun _ => rfl⟩
  | true =>
      obtain ⟨outcome, s', hSave⟩ := runs_release_of_isDirty hDirty h
      refine ⟨fun _ hWrites => ?_, fun hKept => ?_⟩
      · obtain rfl := (runs_save_iff hSave).mp hWrites
        exact (runs_save_ok hSave).2.read
      · have hRefused := hKept.resolve_left (by rw [hDirty]; nofun)
        cases outcome with
        | error error => exact (runs_save_error hSave).2.read_eq
        | ok _ => exact absurd ((runs_save_iff hSave).mpr rfl) hRefused

/-- What happens before and after to other files does not matter. -/
theorem Released.congr {d' e' : Disk} {trace' : List Event} (h : Released s d trace e)
    (hTrace : Snapshot.WritesSucceed s.path trace' ↔ Snapshot.WritesSucceed s.path trace)
    (hBefore : d.read s.path = d'.read s.path) (hAfter : e'.read s.path = e.read s.path) :
    Released s d' trace' e' := by
  refine ⟨fun hDirty hWrites => ?_, fun hKept => ?_⟩
  · exact hAfter.trans (h.written hDirty (hTrace.mp hWrites))
  · exact hAfter.trans ((h.kept (hKept.imp_right (mt hTrace.mpr))).trans hBefore)

/-! ### Loading what was saved -/

theorem run_load {path : Path} {content : ByteArray} {data : Snapshot} (second : Nat)
    (hRead : d.read path = .ok content) (hContent : Snapshot.ofContent content = .ok data) :
    (Snapshot.load path).run second d = (.ok (some data), d) := by
  unfold Snapshot.load
  rw [run_request_bind]
  simp [answer, hRead, hContent]

/-- A file whose content is a snapshot is not called corrupt, even where reading it
fails. -/
theorem ne_corrupt_of_runs_load {path other : Path} {content : ByteArray} {data : Snapshot}
    {reason : CorruptReason} {result : Except StoreError (Option Snapshot)}
    (hRead : d.read path = .ok content) (hContent : Snapshot.ofContent content = .ok data)
    (h : Runs (Snapshot.load path) d trace result e) : result ≠ .error (.corrupt other reason) := by
  rintro rfl
  obtain ⟨-, found, hFound, hRefused⟩ := Snapshot.eq_of_runs_load h
  obtain rfl : found = content := Except.ok.inj (hFound.symm.trans hRead)
  rw [hRefused] at hContent
  cases hContent

theorem reloaded_of_not_float {value : Value} (h : ∀ f, value ≠ .number (.float f)) :
    value.reloaded = value := by
  cases value with
  | number n =>
      cases n with
      | int i => rfl
      | float f => exact absurd rfl (h f)
  | _ => rfl

/-- Both texts of a snapshot that may be stored describe one and the same snapshot:
the same keys in the same order, each with the same value, or with a finite
floating number where there was one. A store that was saved is loaded as this
snapshot, and its file is never called corrupt. -/
theorem decode_encode_kinds {data : Snapshot} (hData : data.Storable) :
    ∃ loaded : Snapshot,
      (∀ layout, Snapshot.decode (Snapshot.encode layout data) = .ok loaded) ∧
      loaded.keys = data.keys ∧
      (∀ key value, data.get? key = some value → (∀ f, value ≠ .number (.float f)) →
        loaded.get? key = some value) ∧
      (∀ key f, data.get? key = some (.number (.float f)) →
        ∃ g, g.isFinite = true ∧ loaded.get? key = some (.number (.float g))) ∧
      (∀ (s : Store) d trace s' e, s.data = data → Runs s.save d trace (.ok (), s') e →
        (∀ second, (Snapshot.load s.path).run second e = (.ok (some loaded), e)) ∧
        (∀ trace result c, Runs (Snapshot.load s.path) e trace result c →
          ∀ path reason, result ≠ .error (.corrupt path reason))) := by
  refine ⟨data.reloaded, fun layout => Snapshot.decode_encode_reloaded layout hData, ?_,
    fun key value hValue hFloat => ?_, fun key f hFloat => ?_,
    fun s d trace s' e hSame hSave => ?_⟩
  · simp [KeyMap.keys, Snapshot.reloaded, KeyMap.mapValues]
  · rw [Snapshot.get?_reloaded, hValue, Option.map_some, reloaded_of_not_float hFloat]
  · have hFinite := (Snapshot.storable_iff.mp hData key _ hFloat).2
    cases f with
    | nan => cases hFinite
    | infinite negative => cases hFinite
    | finite negative m =>
        refine ⟨.finite negative (Json.reread m), rfl, ?_⟩
        rw [Snapshot.get?_reloaded, hFloat]
        rfl
  · subst hSame
    have hRead := (runs_save_ok hSave).2.read
    have hContent := Snapshot.ofContent_content s.config.layout hData
    exact ⟨fun second => run_load second hRead hContent,
      fun trace result c hLoad path reason => ne_corrupt_of_runs_load hRead hContent hLoad⟩

/-- A text that looks like a truth value, the least whole number, an empty list, and
a floating number that comes back as another one. -/
def varied : Snapshot :=
  (((KeyMap.empty.insert "flag" (.text "true")).insert "least" (.number (.int Int64.minValue))).insert
    "none" (.list [])).insert "tiny" (.number (.float (.finite true Snapshot.tinyMagnitude)))

theorem decode_encode_kinds_varied : varied.Storable ∧ ∃ loaded : Snapshot,
    (∀ layout, Snapshot.decode (Snapshot.encode layout varied) = .ok loaded) ∧
    loaded.keys = ["flag", "least", "none", "tiny"] ∧
    loaded.get? "flag" = some (.text "true") ∧
    loaded.get? "least" = some (.number (.int Int64.minValue)) ∧
    loaded.get? "none" = some (.list []) ∧
    ∃ g, g.isFinite = true ∧ loaded.get? "tiny" = some (.number (.float g)) := by
  have hStorable : varied.Storable :=
    (((Snapshot.storable_empty.insert (by decide) rfl).insert (by decide) rfl).insert
      (by decide) rfl).insert (by decide) rfl
  obtain ⟨loaded, hDecode, hKeys, hSame, hFloat, -⟩ := decode_encode_kinds hStorable
  exact ⟨hStorable, loaded, hDecode, hKeys, hSame _ _ rfl nofun, hSame _ _ rfl nofun,
    hSame _ _ rfl nofun, hFloat _ _ rfl⟩

end SnapshotStore.Store
