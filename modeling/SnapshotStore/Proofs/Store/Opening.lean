import SnapshotStore.Proofs.Disk.Directories
import SnapshotStore.Proofs.Snapshot.Replace
import SnapshotStore.Proofs.Snapshot.RoundTrip
import SnapshotStore.Store.Saving

/-! Opening a store. What was left in the hidden sibling of its file is removed
and not read, so after a save that was stopped anywhere a store opens with what
the file held before, or with all that was to be saved. -/
namespace SnapshotStore

open Disk Program

variable {d e c : Disk} {trace : List Event} {config : Config}

/-! ### The file of a store -/

/-- The name of the file of a store. -/
def Config.fileName (config : Config) : String :=
  config.name ++ ".json"

theorem Config.isName_of_checkName {name : String} (h : checkName name = .ok ()) :
    isName name = true := by
  unfold checkName at h
  split_ifs at h with hName
  exact hName

theorem Config.checkName_of_check (h : config.check = .ok ()) : checkName config.name = .ok () := by
  unfold check at h
  cases hName : checkName config.name with
  | error fault =>
      rw [hName] at h
      cases h
  | ok _ => rfl

theorem Config.toList_fileName (config : Config) :
    config.fileName.toList = config.name.toList ++ ['.', 'j', 's', 'o', 'n'] := by
  rw [fileName, String.toList_append]
  rfl

theorem Config.not_mem_fileName_of_isName (h : isName config.name = true) :
    '/' ∉ config.fileName.toList := by
  unfold isName at h
  rw [toList_fileName]
  cases hChars : config.name.toList with
  | nil => simp
  | cons first rest =>
      rw [hChars] at h
      simp only [Bool.and_eq_true, List.all_eq_true] at h
      intro hSlash
      rcases List.mem_append.mp hSlash with hSlash | hSlash
      · exact absurd (h.2 '/' hSlash) (by decide)
      · exact absurd hSlash (by decide)

theorem Config.not_mem_fileName (h : config.check = .ok ()) : '/' ∉ config.fileName.toList :=
  not_mem_fileName_of_isName (isName_of_checkName (checkName_of_check h))

theorem Config.isIdle_fileName (config : Config) : Path.isIdle config.fileName.toList = false := by
  rw [toList_fileName]
  cases config.name.toList <;> simp [Path.isIdle]

theorem Config.fileName_ne_up (config : Config) : config.fileName.toList ≠ Path.up := by
  intro hUp
  have hLength := congrArg List.length hUp
  simp [toList_fileName, Path.up] at hLength

/-! ### Reading the file -/

namespace Snapshot

/-- The content that a file has which reads like this. No file is the empty
content. -/
def loaded? : Except Disk.Fault ByteArray → Option Snapshot
  | .ok content => (ofContent content).toOption
  | .error .notFound => some .empty
  | .error _ => none

/-- What loading makes of what was read. -/
def loading (path : Path) : Except Disk.Fault ByteArray → Except StoreError (Option Snapshot)
  | .error .notFound => .ok none
  | .error fault => .error (.disk fault)
  | .ok content =>
    match ofContent content with
    | .ok s => .ok (some s)
    | .error reason => .error (.corrupt path reason)

theorem loading_error {fault : Disk.Fault} (path : Path) (h : fault ≠ .notFound) :
    loading path (.error fault) = .error (.disk fault) := by
  cases fault <;> first | rfl | exact absurd rfl h

theorem load_eq (path : Path) :
    load path = request (.read path) >>= fun found => pure (loading path found) := by
  unfold load
  congr 1
  funext found
  cases found with
  | error fault => cases fault <;> rfl
  | ok content => cases hContent : ofContent content <;> simp [loading, hContent]

/-- Loading does not change the disk. It may fail, but it finds no file only where
there is none. -/
theorem runs_load {path : Path} {result : Except StoreError (Option Snapshot)}
    (h : Runs (load path) d trace result e) : e = d ∧ ∃ found, result = loading path found ∧
      (d.read path = found ∨ ∃ fault, found = .error fault ∧ fault ≠ .notFound) := by
  rw [load_eq] at h
  obtain ⟨_, _, found, c, -, hRead, hReturn⟩ := h.bind_inv
  obtain ⟨rfl, hFound⟩ := hRead.request_inv.1.read
  obtain ⟨-, rfl, rfl⟩ := hReturn.pure_inv
  exact ⟨rfl, found, rfl, hFound⟩

/-- Loading does not change the disk, and gives what the file holds. -/
theorem eq_of_runs_load {path : Path} {result : Except StoreError (Option Snapshot)}
    (h : Runs (load path) d trace result e) : e = d ∧ match result with
      | .ok (some data) => ∃ content, d.read path = .ok content ∧ ofContent content = .ok data
      | .ok none => d.read path = .error .notFound
      | .error (.corrupt _ reason) =>
        ∃ content, d.read path = .ok content ∧ ofContent content = .error reason
      | .error _ => True := by
  obtain ⟨rfl, found, hResult, hFound⟩ := runs_load h
  refine ⟨rfl, ?_⟩
  cases found with
  | error fault =>
      have hMissing : fault = .notFound → e.read path = .error .notFound := by
        rintro rfl
        rcases hFound with hRead | ⟨fault, hFault, hOther⟩
        · exact hRead
        · exact absurd (Except.error.inj hFault).symm hOther
      by_cases hFault : fault = .notFound
      · subst hFault hResult
        exact hMissing rfl
      · rw [loading_error path hFault] at hResult
        subst hResult
        trivial
  | ok content =>
      have hRead : e.read path = .ok content := by
        rcases hFound with hRead | ⟨fault, hFault, -⟩
        · exact hRead
        · cases hFault
      cases hContent : ofContent content with
      | error reason =>
          simp only [loading, hContent] at hResult
          subst hResult
          exact ⟨content, hRead, hContent⟩
      | ok data =>
          simp only [loading, hContent] at hResult
          subst hResult
          exact ⟨content, hRead, hContent⟩

/-- What removing the sibling comes to. It may not be there. -/
def removing : Except Disk.Fault Unit → Except Disk.Fault Bool
  | .ok _ => .ok true
  | .error .notFound => .ok false
  | .error fault => .error fault

theorem removing_error {fault : Disk.Fault} (h : fault ≠ .notFound) :
    removing (.error fault) = .error fault := by
  cases fault <;> first | rfl | exact absurd rfl h

theorem removeStale_eq (path : Path) :
    removeStale path = request (.remove path.temp) >>= fun removed => pure (removing removed) := by
  unfold removeStale
  congr 1
  funext removed
  cases removed with
  | error fault => cases fault <;> rfl
  | ok _ => rfl

theorem runs_removeStale {path : Path} {result : Except Disk.Fault Bool}
    (h : Runs (removeStale path) d trace result e) :
    ∃ removed, result = removing removed ∧ d.Responds (.remove path.temp) removed e := by
  rw [removeStale_eq] at h
  obtain ⟨_, _, removed, c, -, hRemove, hReturn⟩ := h.bind_inv
  obtain ⟨-, rfl, rfl⟩ := hReturn.pure_inv
  exact ⟨removed, rfl, hRemove.request_inv.1⟩

/-- After what was left has been removed, there is none. -/
theorem onlyFile_of_runs_removeStale {path : Path} {found : Bool}
    (h : Runs (removeStale path) d trace (.ok found) e) :
    OnlyFile path.temp d e ∧ e.contains path.temp = false := by
  obtain ⟨removed, hFound, hRemoved⟩ := runs_removeStale h
  cases removed with
  | ok _ => exact ⟨hRemoved.onlyFile_remove, contains_of_remove hRemoved.remove_ok⟩
  | error fault =>
      by_cases hFault : fault = .notFound
      · subst hFault
        have hMissing := contains_of_remove_notFound hRemoved.remove_notFound
        rw [hRemoved.remove_error]
        exact ⟨OnlyFile.refl _ _, hMissing⟩
      · rw [removing_error hFault] at hFound
        cases hFound

theorem exists_run_removeStale {path : Path} (second : Nat)
    (h : ∀ fault, d.remove path.temp = .error fault → fault = .notFound) :
    ∃ found e, (removeStale path).run second d = (.ok found, e) := by
  rw [removeStale_eq, run_request_bind]
  cases hRemoved : d.remove path.temp with
  | ok e => exact ⟨true, e, by simp [answer, change, hRemoved, removing]⟩
  | error fault =>
      obtain rfl := h fault hRemoved
      exact ⟨false, d, by simp [answer, change, hRemoved, removing]⟩

/-- Moving a file aside tries to rename it, and does nothing else. -/
theorem runs_quarantine {path : Path} {moved : Except Disk.Fault Path}
    (h : Runs (quarantine path) d trace moved e) : ∃ second known,
      trace = [⟨.clock, known⟩, ⟨.rename path (path.quarantine second), moved.isOk⟩] ∧
        d.Responds (.rename path (path.quarantine second)) (moved.map fun _ => ()) e := by
  obtain ⟨_, _, clock, c, rfl, hClock, hRest⟩ := h.bind_inv
  obtain ⟨hTold, rfl⟩ := hClock.request_inv
  obtain rfl := hTold.clock
  obtain ⟨_, _, renamed, c', rfl, hRename, hReturn⟩ := hRest.bind_inv
  obtain ⟨hRenamed, rfl⟩ := hRename.request_inv
  cases renamed with
  | error fault =>
      obtain ⟨rfl, rfl, rfl⟩ := hReturn.pure_inv
      exact ⟨_, _, rfl, hRenamed⟩
  | ok _ =>
      obtain ⟨rfl, rfl, rfl⟩ := hReturn.pure_inv
      exact ⟨_, _, rfl, hRenamed⟩

end Snapshot

namespace Store

/-! ### Opening -/

/-- The content with which a store opens whose file reads like this: what the
file describes, and nothing where there is no file, or in place of what is no
snapshot if the store may start afresh. -/
def contentOf? (config : Config) : Except Disk.Fault ByteArray → Option Snapshot
  | .ok content =>
    match Snapshot.ofContent content, config.onCorrupt with
    | .ok data, _ => some data
    | .error _, .startFresh => some .empty
    | .error _, .fail => none
  | .error .notFound => some .empty
  | .error _ => none

theorem runs_recover_ok {error : StoreError} {data : Snapshot}
    (h : Runs (recover config error) d trace (.ok data) e) : config.onCorrupt = .startFresh ∧
      data = .empty ∧ ∃ second, d.rename config.path (config.path.quarantine second) = .ok e := by
  unfold recover at h
  cases hPolicy : config.onCorrupt with
  | fail =>
      rw [hPolicy] at h
      cases h.pure_inv.2.1
  | startFresh =>
      rw [hPolicy] at h
      obtain ⟨_, _, moved, c, -, hMove, hRest⟩ := h.bind_inv
      obtain ⟨second, -, -, hRenamed⟩ := Snapshot.runs_quarantine hMove
      cases moved with
      | error fault => cases hRest.pure_inv.2.1
      | ok path =>
          obtain ⟨-, hData, rfl⟩ := hRest.pure_inv
          exact ⟨rfl, Except.ok.inj hData, second, hRenamed.rename_ok⟩

/-- A store opens with what its file holds, and the hidden sibling of the file
does not come back. -/
theorem runs_initial_ok {data : Snapshot} (h : Runs (initial config) d trace (.ok data) e) :
    contentOf? config (d.read config.path) = some data ∧
      (d.contains config.path.temp = false → e.contains config.path.temp = false) := by
  obtain ⟨_, _, loaded, c, -, hLoad, hRest⟩ := h.bind_inv
  obtain ⟨rfl, hHolds⟩ := Snapshot.eq_of_runs_load hLoad
  cases loaded with
  | ok found =>
      cases found with
      | none =>
          obtain ⟨-, hData, rfl⟩ := hRest.pure_inv
          rw [hHolds, Except.ok.inj hData]
          exact ⟨rfl, id⟩
      | some stored =>
          obtain ⟨-, hData, rfl⟩ := hRest.pure_inv
          obtain ⟨content, hRead, hContent⟩ := hHolds
          rw [hRead, contentOf?, hContent, Except.ok.inj hData]
          exact ⟨rfl, id⟩
  | error error =>
      cases error with
      | corrupt path reason =>
          obtain ⟨content, hRead, hContent⟩ := hHolds
          obtain ⟨hPolicy, rfl, second, hMoved⟩ := runs_recover_ok hRest
          rw [hRead, contentOf?, hContent, hPolicy]
          exact ⟨rfl, contains_temp_of_quarantine hMoved hRead⟩
      | _ => cases hRest.pure_inv.2.1

/-- A store that has opened holds what its file held once its directory was
there, and what an interrupted save has left is gone. -/
theorem runs_open_ok {store : Store} (h : Runs («open» config) d trace (.ok store) e) :
    config.check = .ok () ∧
      contentOf? config ((d.createDirectories config.directory).2.read config.path) =
        some store.data ∧
      store = opened config store.data ∧ e.contains config.path.temp = false := by
  unfold «open» at h
  cases hCheck : config.check with
  | error fault =>
      rw [hCheck] at h
      cases h.pure_inv.2.1
  | ok _ =>
      rw [hCheck] at h
      obtain ⟨_, _, created, c, -, hCreate, hRest⟩ := h.bind_inv
      cases created with
      | error fault => cases hRest.pure_inv.2.1
      | ok _ =>
          obtain ⟨_, _, removed, c', -, hRemove, hRest⟩ := hRest.bind_inv
          cases removed with
          | error fault => cases hRest.pure_inv.2.1
          | ok _ =>
              obtain ⟨_, _, data, c'', -, hInitial, hRest⟩ := hRest.bind_inv
              cases data with
              | error error => cases hRest.pure_inv.2.1
              | ok data =>
                  obtain ⟨-, hStore, rfl⟩ := hRest.pure_inv
                  obtain rfl := Except.ok.inj hStore
                  obtain ⟨hOnly, hGone⟩ := Snapshot.onlyFile_of_runs_removeStale hRemove
                  obtain ⟨hContent, hStays⟩ := runs_initial_ok hInitial
                  rw [hCreate.request_inv.1.createDirectories_ok, ← hOnly.read_eq]
                  exact ⟨rfl, hContent, rfl, hStays hGone⟩

end Store

/-! ### What opening asks for -/

namespace Snapshot

theorem asksOnly_load (path : Path) : AsksOnly (· = .read path) (load path) := by
  have hRead : AsksOnly (· = .read path) (request (.read path)) := asksOnly_request rfl
  rw [load_eq]
  exact hRead.bind fun _ => asksOnly_pure _

theorem asksOnly_removeStale (path : Path) :
    AsksOnly (· = .remove path.temp) (removeStale path) := by
  have hRemove : AsksOnly (· = .remove path.temp) (request (.remove path.temp)) :=
    asksOnly_request rfl
  rw [removeStale_eq]
  exact hRemove.bind fun _ => asksOnly_pure _

/-- What moving a file aside asks for. -/
inductive Quarantines (path : Path) : Request → Prop where
  | clock : Quarantines path .clock
  | rename (second : Nat) : Quarantines path (.rename path (path.quarantine second))

theorem asksOnly_quarantine (path : Path) : AsksOnly (Quarantines path) (quarantine path) := by
  refine (asksOnly_request .clock).bind fun clock => ?_
  refine (asksOnly_request (.rename _)).bind fun renamed => ?_
  cases renamed <;> exact asksOnly_pure _

end Snapshot

namespace Store

/-- What opening a store asks for. -/
inductive Consults (config : Config) : Request → Prop where
  | createDirectories : Consults config (.createDirectories config.directory)
  | removeStale : Consults config (.remove config.path.temp)
  | load : Consults config (.read config.path)
  | quarantine {request : Request} (h : Snapshot.Quarantines config.path request) :
      Consults config request

theorem asksOnly_recover (config : Config) (error : StoreError) :
    AsksOnly (Consults config) (recover config error) := by
  unfold recover
  cases config.onCorrupt with
  | fail => exact asksOnly_pure _
  | startFresh =>
      refine ((Snapshot.asksOnly_quarantine config.path).mono fun _ => .quarantine).bind
        fun moved => ?_
      cases moved <;> exact asksOnly_pure _

theorem asksOnly_initial (config : Config) : AsksOnly (Consults config) (initial config) := by
  have hLoad := (Snapshot.asksOnly_load config.path).mono fun _ hRead => hRead ▸ Consults.load
  refine hLoad.bind fun loaded => ?_
  cases loaded with
  | error error => cases error <;> first | exact asksOnly_recover _ _ | exact asksOnly_pure _
  | ok found => cases found <;> exact asksOnly_pure _

theorem asksOnly_open (config : Config) : AsksOnly (Consults config) («open» config) := by
  have hRemove := (Snapshot.asksOnly_removeStale config.path).mono fun _ hRequest =>
    hRequest ▸ Consults.removeStale
  unfold «open»
  cases config.check with
  | error fault => exact asksOnly_pure _
  | ok _ =>
      refine (asksOnly_request .createDirectories).bind fun created => ?_
      cases created with
      | error fault => exact asksOnly_pure _
      | ok _ =>
          refine hRemove.bind fun removed => ?_
          cases removed with
          | error fault => exact asksOnly_pure _
          | ok _ =>
              refine (asksOnly_initial config).bind fun data => ?_
              cases data <;> exact asksOnly_pure _

/-- The request reads no file but this one. -/
def ReadsOnly (path : Path) (request : Request) : Prop :=
  ∀ other, request = .read other → other = path

theorem Consults.readsOnly {request : Request} (h : Consults config request) :
    ReadsOnly config.path request := by
  cases h with
  | load => rintro _ ⟨⟩; rfl
  | quarantine h => cases h <;> exact fun _ => nofun
  | _ => exact fun _ => nofun

/-- Opening reads no file but that of the store. -/
theorem readsOnly_open (config : Config) :
    AsksOnly (ReadsOnly config.path) («open» config) :=
  (asksOnly_open config).mono fun _ => Consults.readsOnly

/-! ### After a save that was interrupted -/

theorem createDirectories_directory (hCheck : config.check = .ok ()) {place : String}
    (hPlace : d.place config.path = .ok place) :
    d.createDirectories config.directory = (.ok (), d) :=
  createDirectories_of_place_join (Config.not_mem_fileName hCheck) hPlace

/-- Where the sibling of the file may lie, the directory of the store is there. -/
theorem createDirectories_of_place_temp (hCheck : config.check = .ok ()) {place : String}
    (hPlace : d.place config.path.temp = .ok place) :
    (d.createDirectories config.directory).2 = d := by
  obtain ⟨home, hHome, hDirectory, -⟩ := exists_home_of_place_temp hPlace
  exact createDirectories_of_walk (walk_directory_of_walk_home
    (Config.not_mem_fileName hCheck) config.isIdle_fileName config.fileName_ne_up hHome hDirectory)
    hDirectory

theorem read_createDirectories_of_onlyFile (hCheck : config.check = .ok ())
    (h : OnlyFile config.path.temp d e) :
    (e.createDirectories config.directory).2.read config.path =
      (d.createDirectories config.directory).2.read config.path := by
  have hRead := h.read_eq
  rcases h with rfl | ⟨place, hPlace, hBefore, hAfter, hAgrees⟩
  · rfl
  · have hStays := place_of_keepsDirectories (hAgrees.keepsDirectories hBefore) hPlace
    rw [createDirectories_of_place_temp hCheck hPlace,
      createDirectories_of_place_temp hCheck hStays, hRead]

theorem read_createDirectories_of_replaced (hCheck : config.check = .ok ())
    {content : ByteArray} (h : Replaced config.path content d e) :
    (e.createDirectories config.directory).2.read config.path = .ok content := by
  obtain ⟨place, hPlace, -⟩ := read_eq_ok_iff.mp h.read
  rw [createDirectories_directory hCheck hPlace, h.read]

/-- A store opens on a disk without failures if its directory is there, what was
left in the sibling can be removed, and its file is missing or a snapshot. -/
theorem run_open (second : Nat) {place : String} {data : Snapshot}
    (hCheck : config.check = .ok ()) (hPlace : d.place config.path = .ok place)
    (hRemove : ∀ fault, d.remove config.path.temp = .error fault → fault = .notFound)
    (hData : Snapshot.loaded? (d.read config.path) = some data) :
    ∃ e, («open» config).run second d = (.ok (opened config data), e) := by
  obtain ⟨found, e, hStale⟩ := Snapshot.exists_run_removeStale second hRemove
  obtain ⟨trace, hRuns⟩ := runs_of_run hStale
  have hRead := (Snapshot.onlyFile_of_runs_removeStale hRuns).1.read_eq
  have hInitial : (initial config).run second e = (.ok data, e) := by
    rw [← hRead] at hData
    unfold initial Snapshot.load
    rw [run_bind, run_request_bind]
    cases hHeld : e.read config.path with
    | error fault =>
        rw [hHeld] at hData
        cases fault with
        | notFound =>
            obtain rfl := Option.some.inj hData
            simp [answer, hHeld]
        | _ => cases hData
    | ok content =>
        rw [hHeld, Snapshot.loaded?] at hData
        cases hContent : Snapshot.ofContent content with
        | error reason => simp [hContent, Except.toOption] at hData
        | ok stored =>
            obtain rfl : stored = data := by simpa [hContent, Except.toOption] using hData
            simp [answer, hHeld, hContent]
  refine ⟨e, ?_⟩
  simp only [«open», hCheck]
  rw [run_request_bind]
  simp [answer, createDirectories_directory hCheck hPlace, hStale, hInitial]

/-- Saving is atomic. Whether the disk fails or the program is stopped, the file
holds at every moment what it held before or all of the new content. A fault
leaves the former and, if the prepared sibling could be removed, no sibling;
success leaves the latter and no sibling. A store that is opened afterwards,
wherever the saving was stopped, never reads the sibling, and once it is open the
sibling is gone and the store has what the file held before (once the directory
is there, which it is if the path leads anywhere), or the new content. It does
open if the sibling can be removed and both contents are snapshots. -/
theorem replaceFile_atomic (path : Path) (content : ByteArray) (durable : Bool) (d : Disk) :
    (∀ e, Reaches (Snapshot.replaceFile path content durable) d e →
      e.read path = d.read path ∨ e.read path = .ok content) ∧
    (∀ trace fault e, Runs (Snapshot.replaceFile path content durable) d trace (.error fault) e →
      e.read path = d.read path ∧
      (⟨.remove path.temp, true⟩ ∈ trace → e.contains path.temp = false)) ∧
    (∀ trace e, Runs (Snapshot.replaceFile path content durable) d trace (.ok ()) e →
      e.read path = .ok content ∧ e.contains path.temp = false) ∧
    (∀ config e, config.path = path → Reaches (Snapshot.replaceFile path content durable) d e →
      (∀ trace result c, Runs («open» config) e trace result c →
        ∀ event ∈ trace, event.request ≠ .read path.temp) ∧
      (∀ trace store c, Runs («open» config) e trace (.ok store) c →
        c.contains path.temp = false ∧
        (contentOf? config ((d.createDirectories config.directory).2.read path) =
            some store.data ∨
          contentOf? config (.ok content) = some store.data)) ∧
      (config.check = .ok () → ∀ place, d.place path = .ok place →
        (d.createDirectories config.directory).2 = d ∧
        ((∀ fault, e.remove path.temp = .error fault → fault = .notFound) →
          ∀ old, Snapshot.loaded? (d.read path) = some old →
          ∀ new, Snapshot.ofContent content = .ok new →
          ∀ second, ∃ store c, («open» config).run second e = (.ok store, c) ∧
            (store.data = old ∨ store.data = new)))) := by
  refine ⟨fun e hReaches => ?_, fun trace fault e hRuns => ?_, fun trace e hRuns => ?_,
    fun config e hPath hReaches => ?_⟩
  · rcases Snapshot.reaches_replaceFile hReaches with hOnly | hReplaced
    · exact Or.inl hOnly.read_eq
    · exact Or.inr hReplaced.read
  · obtain ⟨hOnly, hGone⟩ := Snapshot.onlyFile_of_runs_error hRuns
    exact ⟨hOnly.read_eq, hGone⟩
  · have hReplaced := Snapshot.replaced_of_runs hRuns
    exact ⟨hReplaced.read, hReplaced.temp⟩
  · subst hPath
    refine ⟨fun trace result c hRuns event hEvent hRead => ?_, fun trace store c hRuns => ?_,
      fun hCheck place hPlace => ⟨?_, fun hRemove old hOld new hNew second => ?_⟩⟩
    · exact temp_ne _ (hRuns.request_of_mem (readsOnly_open config) event hEvent _ hRead)
    · obtain ⟨hCheck, hContent, -, hGone⟩ := runs_open_ok hRuns
      refine ⟨hGone, ?_⟩
      rcases Snapshot.reaches_replaceFile hReaches with hOnly | hReplaced
      · rw [read_createDirectories_of_onlyFile hCheck hOnly] at hContent
        exact Or.inl hContent
      · rw [read_createDirectories_of_replaced hCheck hReplaced] at hContent
        exact Or.inr hContent
    · rw [createDirectories_directory hCheck hPlace]
    · rcases Snapshot.reaches_replaceFile hReaches with hOnly | hReplaced
      · rw [← hOnly.read_eq] at hOld
        obtain ⟨c, hRun⟩ := run_open second hCheck (hOnly.place_eq hPlace) hRemove hOld
        exact ⟨_, c, hRun, Or.inl rfl⟩
      · have hHeld : Snapshot.loaded? (e.read config.path) = some new := by
          rw [hReplaced.read, Snapshot.loaded?, hNew]
          rfl
        obtain ⟨c, hRun⟩ := run_open second hCheck (hReplaced.place place hPlace) hRemove hHeld
        exact ⟨_, c, hRun, Or.inr rfl⟩

/-- The setup of a store `s` whose directory is the one that is open anyway. -/
def localConfig : Config :=
  { directory := ⟨""⟩, name := "s" }

/-- One key with a truth value. -/
def flagged : Snapshot :=
  KeyMap.empty.insert "k" (.bool true)

theorem storable_flagged : flagged.Storable := by
  intro entry hEntry
  rw [List.mem_singleton.mp hEntry]
  exact ⟨by decide, rfl⟩

/-- The disk on which a first save of `s.json` broke off after four bytes. -/
def brokenOff : Disk :=
  ⟨KeyMap.empty.insert ".s.json.tmp"
    (.file ((Snapshot.content .compact flagged).extract 0 4))⟩

theorem replaceFile_atomic_brokenOff :
    Reaches (Snapshot.replaceFile ⟨"s.json"⟩ (Snapshot.content .compact flagged) true) .empty
      brokenOff ∧
    brokenOff.contains (Path.temp ⟨"s.json"⟩) = true ∧
    brokenOff.read ⟨"s.json"⟩ = Disk.empty.read ⟨"s.json"⟩ ∧
    ∃ store c, («open» localConfig).run 0 brokenOff = (.ok store, c) ∧
      (store.data = .empty ∨ store.data = flagged) ∧
      c.contains (Path.temp ⟨"s.json"⟩) = false := by
  have hReaches : Reaches (Snapshot.replaceFile ⟨"s.json"⟩ (Snapshot.content .compact flagged) true)
      .empty brokenOff :=
    .ask (.answered 0 rfl) (.ask (.failed (.other "full") rfl nofun (Or.inr ⟨4, rfl⟩)) (.here _ _))
  obtain ⟨hBetween, -, -, hAfter⟩ := replaceFile_atomic ⟨"s.json"⟩
    (Snapshot.content .compact flagged) true .empty
  have hUnchanged := (hBetween brokenOff hReaches).resolve_right nofun
  obtain ⟨-, hOpened, hOpens⟩ := hAfter localConfig brokenOff rfl hReaches
  obtain ⟨-, hRuns⟩ := hOpens rfl "s.json" rfl
  have hRemovable : ∀ fault, brokenOff.remove (Path.temp ⟨"s.json"⟩) = .error fault →
      fault = .notFound := fun fault hFault => absurd hFault nofun
  obtain ⟨store, c, hRun, hData⟩ := hRuns hRemovable .empty rfl flagged.reloaded
    (Snapshot.ofContent_content .compact storable_flagged) 0
  obtain ⟨trace, hTrace⟩ := runs_of_run hRun
  exact ⟨hReaches, rfl, hUnchanged, store, c, hRun, hData, (hOpened trace store c hTrace).1⟩

end Store

end SnapshotStore
