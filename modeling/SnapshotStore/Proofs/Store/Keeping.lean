import SnapshotStore.Proofs.Store.Saving

/-! Opening a store keeps what its file holds. Either the store has all of it, or
the file stays as it is, or it was moved aside whole. Which of them depends on
what is read and on the setup; and a store that has just been opened has nothing
to save, so letting it go writes nothing. -/
namespace SnapshotStore

open Disk Program

variable {d e c : Disk} {trace : List Event} {config : Config} {content : ByteArray}

/-! ### What counts as a snapshot -/

/-- The content of a file is accepted if and only if it is the UTF-8 form of a text
that describes a snapshot. -/
theorem Snapshot.ofContent_eq_ok_iff {data : Snapshot} :
    ofContent content = .ok data ↔ ∃ text : String, content = text.toUTF8 ∧
      decode text = .ok data := by
  constructor
  · intro h
    unfold ofContent at h
    cases hText : String.fromUTF8? content with
    | none => simp [hText] at h
    | some text =>
        rw [hText] at h
        refine ⟨text, ?_, ?_⟩
        · unfold String.fromUTF8? at hText
          split_ifs at hText with hValid
          rw [← Option.some.inj hText]
          rfl
        · cases hDecode : decode text with
          | error fault => simp [hDecode] at h
          | ok s => simpa [hDecode] using h
  · rintro ⟨text, rfl, hDecode⟩
    have hText : String.fromUTF8? text.toUTF8 = some text := dif_pos text.isValidUTF8
    unfold ofContent
    rw [hText]
    simp only [hDecode]

/-! ### The name of the file -/

theorem Config.fileName?_path (h : config.check = .ok ()) :
    config.path.fileName? = some config.fileName :=
  config.directory.fileName?_join (not_mem_fileName h) config.isIdle_fileName config.fileName_ne_up

/-- The name under which the file of a store is moved aside. -/
def Config.asideName (config : Config) (second : Nat) : List Char :=
  config.fileName.toList ++ ['.', 'c', 'o', 'r', 'r', 'u', 'p', 't', '-'] ++ Decimal.digits second

theorem Config.quarantineName_path (h : config.check = .ok ()) (second : Nat) :
    config.path.quarantineName second = config.asideName second := by
  simp [Path.quarantineName, fileName?_path h, asideName]

/-- The file of a store was moved intact to a sibling, whose name begins with its own. -/
structure MovedAside (config : Config) (content : ByteArray) (second : Nat) (d e : Disk) :
    Prop where
  sibling : ∃ home, d.place config.path = .ok (below home config.fileName.toList) ∧
    e.place (config.path.quarantine second) = .ok (below home (config.asideName second))
  read : e.read (config.path.quarantine second) = .ok content
  gone : e.contains config.path = false

theorem movedAside_of_rename (hCheck : config.check = .ok ()) {second : Nat}
    (h : d.rename config.path (config.path.quarantine second) = .ok e)
    (hRead : d.read config.path = .ok content) : MovedAside config content second d e := by
  obtain ⟨place, hPlace, -⟩ := read_eq_ok_iff.mp hRead
  obtain ⟨home, hHome, rfl⟩ := exists_home_of_place
    (by rw [Config.fileName?_path hCheck, String.ofList_toList]) hPlace
  obtain ⟨-, aside, -, -, hAside, -⟩ := rename_eq_ok h hRead
  have hSibling : aside = below home (config.asideName second) := by
    have hTarget := hAside
    rw [Path.quarantine_eq] at hTarget
    obtain ⟨home', hHome', -, hBelow⟩ := exists_home_of_place_join
      (not_mem_quarantineName _ second) (Path.isIdle_quarantineName _ second)
      (Path.quarantineName_ne_up _ second) hTarget
    obtain rfl : home' = home := Except.ok.inj (hHome'.symm.trans hHome)
    rw [hBelow, Config.quarantineName_path hCheck]
  have hLonger : config.fileName.toList ≠ config.asideName second := by
    intro hSame
    have hLength := congrArg List.length hSame
    simp [Config.asideName] at hLength
  have hApart : ∀ place, d.place config.path = .ok place →
      d.place (config.path.quarantine second) ≠ .ok place := by
    intro place hSource hTarget
    have hSame : below home config.fileName.toList = aside :=
      (Except.ok.inj (hPlace.symm.trans hSource)).trans
        (Except.ok.inj (hTarget.symm.trans hAside))
    rw [hSibling] at hSame
    exact hLonger (below_injective home hSame)
  obtain ⟨hMoved, hGone, hKeeps⟩ := moved_of_rename h hRead hApart
  exact ⟨⟨home, hPlace, hSibling ▸ hKeeps _ _ hAside⟩, hMoved, hGone⟩

namespace Store

/-! ### Outcomes -/

/-- What opening a store comes to once its directory is there and nothing is left of
an interrupted save, by what is read at its path. -/
inductive Opens (config : Config) (d : Disk) :
    Except Disk.Fault ByteArray → Except StoreError Store → Disk → Prop where
  | missing : Opens config d (.error .notFound) (.ok (opened config .empty)) d
  | loaded {content : ByteArray} {data : Snapshot} (h : Snapshot.ofContent content = .ok data) :
      Opens config d (.ok content) (.ok (opened config data)) d
  | refused {content : ByteArray} {reason : CorruptReason}
      (h : Snapshot.ofContent content = .error reason) (hPolicy : config.onCorrupt = .fail) :
      Opens config d (.ok content) (.error (.corrupt config.path reason)) d
  | movedAside {content : ByteArray} {reason : CorruptReason} {second : Nat} {e : Disk}
      (h : Snapshot.ofContent content = .error reason) (hPolicy : config.onCorrupt = .startFresh)
      (hMoved : MovedAside config content second d e) :
      Opens config d (.ok content) (.ok (opened config .empty)) e
  | notMoved {content : ByteArray} {reason : CorruptReason} {second : Nat} {fault : Disk.Fault}
      (h : Snapshot.ofContent content = .error reason) (hPolicy : config.onCorrupt = .startFresh)
      (hFails : d.Responds (.rename config.path (config.path.quarantine second)) (.error fault) d) :
      Opens config d (.ok content) (.error (.disk fault)) d
  | unreadable {fault : Disk.Fault} (h : fault ≠ .notFound) :
      Opens config d (.error fault) (.error (.disk fault)) d

/-- How opening goes on from what was loaded. -/
def settle (config : Config) :
    Except StoreError (Option Snapshot) → Program (Except StoreError Snapshot)
  | .ok (some data) => return .ok data
  | .ok none => return .ok .empty
  | .error (.corrupt path reason) => recover config (.corrupt path reason)
  | .error error => return .error error

theorem initial_eq (config : Config) :
    initial config = Snapshot.load config.path >>= settle config := by
  unfold initial
  congr 1

/-- A file that is no snapshot is kept in its place, or moved aside. -/
theorem opens_of_runs_recover (hCheck : config.check = .ok ()) {reason : CorruptReason}
    {result : Except StoreError Snapshot} (hRead : d.read config.path = .ok content)
    (hReason : Snapshot.ofContent content = .error reason)
    (h : Runs (recover config (.corrupt config.path reason)) d trace result e) :
    Opens config d (.ok content) (result.map (opened config)) e := by
  unfold recover at h
  cases hPolicy : config.onCorrupt with
  | fail =>
      rw [hPolicy] at h
      obtain ⟨-, rfl, rfl⟩ := h.pure_inv
      exact .refused hReason hPolicy
  | startFresh =>
      rw [hPolicy] at h
      obtain ⟨_, _, moved, c, -, hMove, hReturn⟩ := h.bind_inv
      obtain ⟨second, -, -, hRenamed⟩ := Snapshot.runs_quarantine hMove
      cases moved with
      | error fault =>
          obtain ⟨-, rfl, rfl⟩ := hReturn.pure_inv
          obtain rfl := hRenamed.rename_error
          exact .notMoved hReason hPolicy hRenamed
      | ok path =>
          obtain ⟨-, rfl, rfl⟩ := hReturn.pure_inv
          exact .movedAside hReason hPolicy
            (movedAside_of_rename hCheck hRenamed.rename_ok hRead)

theorem opens_of_runs_settle (hCheck : config.check = .ok ())
    {found : Except Disk.Fault ByteArray} {result : Except StoreError Snapshot}
    (hFound : ∀ content, found = .ok content → d.read config.path = .ok content)
    (h : Runs (settle config (Snapshot.loading config.path found)) d trace result e) :
    Opens config d found (result.map (opened config)) e := by
  cases found with
  | error fault =>
      by_cases hFault : fault = .notFound
      · subst hFault
        obtain ⟨-, rfl, rfl⟩ := Runs.pure_inv h
        exact .missing
      · rw [Snapshot.loading_error config.path hFault] at h
        obtain ⟨-, rfl, rfl⟩ := Runs.pure_inv h
        exact .unreadable hFault
  | ok content =>
      cases hContent : Snapshot.ofContent content with
      | ok data =>
          simp only [Snapshot.loading, hContent] at h
          obtain ⟨-, rfl, rfl⟩ := Runs.pure_inv h
          exact .loaded hContent
      | error reason =>
          simp only [Snapshot.loading, hContent] at h
          exact opens_of_runs_recover hCheck (hFound content rfl) hContent h

theorem opens_of_runs_initial (hCheck : config.check = .ok ())
    {result : Except StoreError Snapshot} (h : Runs (initial config) d trace result e) :
    ∃ found, (found = d.read config.path ∨ ∃ fault, found = .error fault ∧ fault ≠ .notFound) ∧
      Opens config d found (result.map (opened config)) e := by
  rw [initial_eq] at h
  obtain ⟨_, _, loaded, c, -, hLoad, hRest⟩ := h.bind_inv
  obtain ⟨rfl, found, rfl, hFound⟩ := Snapshot.runs_load hLoad
  refine ⟨found, hFound.imp_left Eq.symm, opens_of_runs_settle hCheck ?_ hRest⟩
  rintro content rfl
  rcases hFound with hRead | ⟨fault, hFault, -⟩
  · exact hRead
  · cases hFault

/-- On a disk without failures it is the file that decides. -/
theorem opens_initial_run (hCheck : config.check = .ok ()) (second : Nat) (d : Disk) :
    Opens config d (d.read config.path)
      (((initial config).run second d).1.map (opened config))
      ((initial config).run second d).2 := by
  rw [initial_eq, Snapshot.load_eq]
  obtain ⟨trace, hRuns⟩ :=
    exists_runs second (settle config (Snapshot.loading config.path (d.read config.path))) d
  exact opens_of_runs_settle hCheck (fun _ => id) hRuns

/-! ### Before the file is read -/

/-- Creating the directory does nothing where there is a file to open. -/
theorem createDirectories_of_read (hCheck : config.check = .ok ())
    (hRead : d.read config.path = .ok content) :
    d.createDirectories config.directory = (.ok (), d) := by
  obtain ⟨place, hPlace, -⟩ := read_eq_ok_iff.mp hRead
  exact createDirectories_directory hCheck hPlace

/-- A file that is there stays, also where its directory cannot be created. -/
theorem read_of_createDirectories_error (hCheck : config.check = .ok ()) {fault : Disk.Fault}
    (h : d.Responds (.createDirectories config.directory) (.error fault) e)
    (hRead : d.read config.path = .ok content) : e.read config.path = .ok content := by
  cases h with
  | answered second h =>
      have hCreated : d.createDirectories config.directory = (.error fault, e) := h
      rw [createDirectories_of_read hCheck hRead] at hCreated
      cases hCreated
  | failed fault h hFault left =>
      rw [show e = d from left]
      exact hRead

/-- What was left of an interrupted save is removed, or there was nothing, or the
disk says why not and stays as it is. -/
theorem runs_removeStale {path : Path} {removed : Except Disk.Fault Bool}
    (h : Runs (Snapshot.removeStale path) d trace removed e) :
    (∃ found, removed = .ok found) ∧ OnlyFile path.temp d e ∧ e.contains path.temp = false ∨
    ∃ fault, removed = .error fault ∧ fault ≠ .notFound ∧ e = d ∧
      d.Responds (.remove path.temp) (.error fault) d := by
  cases removed with
  | ok found => exact Or.inl ⟨⟨found, rfl⟩, Snapshot.onlyFile_of_runs_removeStale h⟩
  | error fault =>
      obtain ⟨answer, hResult, hRemoved⟩ := Snapshot.runs_removeStale h
      cases answer with
      | ok _ => cases hResult
      | error fault' =>
          by_cases hFault : fault' = .notFound
          · subst hFault
            cases hResult
          · rw [Snapshot.removing_error hFault] at hResult
            obtain rfl := Except.error.inj hResult
            obtain rfl := hRemoved.remove_error
            exact Or.inr ⟨fault, rfl, hFault, rfl, hRemoved⟩

/-! ### After opening -/

/-- The directory of a store is there, nothing is left of an interrupted save, and
nothing else has changed. -/
structure Ready (config : Config) (d created c : Disk) : Prop where
  directory : d.createDirectories config.directory = (.ok (), created)
  only : OnlyFile config.path.temp created c
  gone : c.contains config.path.temp = false
  read : c.read config.path = created.read config.path

/-- A run either stops before the file is read, with the file as it was, or comes to
one of the outcomes. -/
theorem opens_of_runs_open (hCheck : config.check = .ok ()) {result : Except StoreError Store}
    (h : Runs («open» config) d trace result e) :
    (∃ fault, result = .error (.disk fault) ∧
      (d.Responds (.createDirectories config.directory) (.error fault) e ∨
        d.createDirectories config.directory = (.ok (), e) ∧ fault ≠ .notFound ∧
          e.Responds (.remove config.path.temp) (.error fault) e) ∧
      ∀ content, d.read config.path = .ok content → e.read config.path = .ok content) ∨
    ∃ created c found, Ready config d created c ∧
      (found = created.read config.path ∨ ∃ fault, found = .error fault ∧ fault ≠ .notFound) ∧
      Opens config c found result e := by
  unfold «open» at h
  rw [hCheck] at h
  obtain ⟨_, _, answered, created, -, hCreate, hRest⟩ := h.bind_inv
  cases answered with
  | error fault =>
      obtain ⟨-, rfl, rfl⟩ := hRest.pure_inv
      have hFails := hCreate.request_inv.1
      exact Or.inl ⟨fault, rfl, Or.inl hFails,
        fun content => read_of_createDirectories_error hCheck hFails⟩
  | ok _ =>
      have hCreated := hCreate.request_inv.1.createDirectories_ok
      obtain ⟨_, _, removed, c, -, hRemove, hAfter⟩ := hRest.bind_inv
      rcases runs_removeStale hRemove with ⟨⟨found, rfl⟩, hOnly, hGone⟩ |
        ⟨fault, rfl, hFault, rfl, hFails⟩
      · obtain ⟨_, _, data, c', -, hInitial, hReturn⟩ := hAfter.bind_inv
        obtain ⟨read, hRead, hOpens⟩ := opens_of_runs_initial hCheck hInitial
        have hReturned : result = data.map (opened config) ∧ e = c' := by
          cases data with
          | error error => exact hReturn.pure_inv.2
          | ok data => exact hReturn.pure_inv.2
        obtain ⟨rfl, rfl⟩ := hReturned
        exact Or.inr ⟨created, c, read, ⟨hCreated, hOnly, hGone, hOnly.read_eq⟩,
          hOnly.read_eq ▸ hRead, hOpens⟩
      · obtain ⟨-, rfl, rfl⟩ := hAfter.pure_inv
        refine Or.inl ⟨fault, rfl, Or.inr ⟨hCreated, hFault, hFails⟩, fun content hRead => ?_⟩
        rw [createDirectories_of_read hCheck hRead] at hCreated
        rwa [← (Prod.mk.inj hCreated).2]

/-- A store that opens has found what its file held once its directory was there. -/
theorem opens_of_runs_open_ok {store : Store} (h : Runs («open» config) d trace (.ok store) e) :
    ∃ created c, Ready config d created c ∧
      Opens config c (created.read config.path) (.ok store) e := by
  rcases opens_of_runs_open (runs_open_ok h).1 h with ⟨fault, hResult, -⟩ |
    ⟨created, c, found, hReady, rfl | ⟨fault, rfl, hFault⟩, hOpens⟩
  · cases hResult
  · exact ⟨created, c, hReady, hOpens⟩
  · cases hOpens with
    | missing => exact absurd rfl hFault

/-- Opening does not touch a file that is a snapshot, and creates none. -/
theorem Opens.eq_of_loaded {found : Except Disk.Fault ByteArray} {store : Store}
    (h : Opens config d found (.ok store) e) (hFound : (Snapshot.loaded? found).isSome) :
    e = d := by
  cases h with
  | missing => rfl
  | loaded hContent => rfl
  | movedAside hContent hPolicy hMoved =>
      simp [Snapshot.loaded?, hContent, Except.toOption] at hFound

/-- On a disk without failures a store comes to one of the outcomes if its directory
can be created and what was left of an interrupted save can be removed. -/
theorem opens_open_run (hCheck : config.check = .ok ()) (second : Nat) {created : Disk}
    (hCreated : d.createDirectories config.directory = (.ok (), created))
    (hRemove : ∀ fault, created.remove config.path.temp = .error fault → fault = .notFound) :
    ∃ c, Ready config d created c ∧ Opens config c (created.read config.path)
      ((«open» config).run second d).1 ((«open» config).run second d).2 := by
  obtain ⟨found, c, hStale⟩ := Snapshot.exists_run_removeStale second hRemove
  obtain ⟨trace, hRuns⟩ := runs_of_run hStale
  obtain ⟨hOnly, hGone⟩ := Snapshot.onlyFile_of_runs_removeStale hRuns
  have hRun : («open» config).run second d =
      (((initial config).run second c).1.map (opened config),
        ((initial config).run second c).2) := by
    simp only [«open», hCheck]
    rw [run_request_bind]
    simp only [answer, hCreated, run_bind, hStale]
    cases ((initial config).run second c).1 <;> rfl
  refine ⟨c, ⟨hCreated, hOnly, hGone, hOnly.read_eq⟩, ?_⟩
  rw [hRun, ← hOnly.read_eq]
  exact opens_initial_run hCheck second c

/-- Opening a store never discards what its file holds. First the directory is created
and what an interrupted save has left is removed; should that fail, the error is
reported and the file is as it was. Then every run comes to one of the outcomes, and on
a disk without failures it is the file that decides to which. What is read of the file
has not changed until then; in particular, where there is a file, its directory was
there. A store that has opened has nothing to save, and letting it go asks nothing of
the disk. -/
theorem open_keeps_content (hCheck : config.check = .ok ()) (d : Disk) :
    (∀ content data, Snapshot.ofContent content = .ok data ↔
      ∃ text : String, content = text.toUTF8 ∧ Snapshot.decode text = .ok data) ∧
    (∀ content, d.read config.path = .ok content →
      d.createDirectories config.directory = (.ok (), d)) ∧
    (∀ trace result e, Runs («open» config) d trace result e →
      (∃ fault, result = .error (.disk fault) ∧
        (d.Responds (.createDirectories config.directory) (.error fault) e ∨
          d.createDirectories config.directory = (.ok (), e) ∧ fault ≠ .notFound ∧
            e.Responds (.remove config.path.temp) (.error fault) e) ∧
        ∀ content, d.read config.path = .ok content → e.read config.path = .ok content) ∨
      ∃ created c found, Ready config d created c ∧
        (found = created.read config.path ∨ ∃ fault, found = .error fault ∧ fault ≠ .notFound) ∧
        Opens config c found result e) ∧
    (∀ second created, d.createDirectories config.directory = (.ok (), created) →
      (∀ fault, created.remove config.path.temp = .error fault → fault = .notFound) →
      ∃ c, Ready config d created c ∧ Opens config c (created.read config.path)
        ((«open» config).run second d).1 ((«open» config).run second d).2) ∧
    (∀ trace store e, Runs («open» config) d trace (.ok store) e → store.isDirty = false ∧
      ∀ f trace' u f', Runs store.release f trace' u f' → trace' = [] ∧ f' = f) := by
  refine ⟨fun content data => Snapshot.ofContent_eq_ok_iff,
    fun content hRead => createDirectories_of_read hCheck hRead,
    fun trace result e h => opens_of_runs_open hCheck h,
    fun second created hCreated hRemove => opens_open_run hCheck second hCreated hRemove,
    fun trace store e h => ?_⟩
  obtain ⟨-, -, hStore, -⟩ := runs_open_ok h
  have hClean : store.isDirty = false := by
    rw [hStore]
    rfl
  exact ⟨hClean, fun f trace' u f' hRelease => runs_release_of_not_isDirty hClean hRelease⟩

/-- The setup of a store `s` that may start afresh. -/
def freshConfig : Config :=
  { localConfig with onCorrupt := .startFresh }

/-- A file that is blank. -/
def blankFile : Disk :=
  ⟨KeyMap.empty.insert "s.json" (.file " ".toUTF8)⟩

/-- A blank file is moved aside at second 7 if the store may start afresh, and the
store that has opened then writes nothing. -/
theorem open_keeps_content_blank : ∃ (e : Disk) (store : Store),
    («open» freshConfig).run 7 blankFile = (.ok store, e) ∧
    e.read ⟨"s.json.corrupt-7"⟩ = .ok " ".toUTF8 ∧ e.contains ⟨"s.json"⟩ = false ∧
    store.data = .empty ∧ store.isDirty = false := by
  have hCheck : freshConfig.check = .ok () := rfl
  obtain ⟨-, -, -, -, hClean⟩ := open_keeps_content hCheck blankFile
  have hRun : («open» freshConfig).run 7 blankFile = (.ok (opened freshConfig .empty), _) := rfl
  obtain ⟨trace, hRuns⟩ := runs_of_run hRun
  exact ⟨_, _, hRun, rfl, rfl, rfl, (hClean trace _ _ hRuns).1⟩

/-- Nothing but a directory in the place of the hidden sibling. -/
def blockedSibling : Disk :=
  ⟨KeyMap.empty.insert ".s.json.tmp" .directory⟩

/-- A store whose file is missing need not open: here the hidden sibling is a directory
and cannot be removed. -/
theorem not_open_of_missing : ¬ ∀ (config : Config) (d : Disk), config.check = .ok () →
    d.read config.path = .error .notFound →
    ∃ e, («open» config).run 0 d = (.ok (opened config .empty), e) := by
  intro h
  obtain ⟨e, hRun⟩ := h localConfig blockedSibling rfl rfl
  have hFails : («open» localConfig).run 0 blockedSibling =
      (.error (.disk .isDirectory), blockedSibling) := rfl
  rw [hFails] at hRun
  cases hRun

end Store

end SnapshotStore
