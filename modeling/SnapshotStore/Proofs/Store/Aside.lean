import SnapshotStore.Proofs.Store.Footprint

/-! Files that were moved aside, over many openings of one store. Each is moved to a
name with the second on the clock, and nothing but another move at the same second
comes back to that name. So of every second the file is kept that was moved last, and
one that was moved before it in that second is replaced. -/
namespace SnapshotStore

open Disk Program

/-- The request moves a file. -/
def Request.Moves (request : Request) : Prop :=
  ∃ source target, request = .rename source target

variable {c config : Config} {first d e : Disk} {trace before after : List Event}
  {log : List (Nat × ByteArray)} {second : Nat} {content : ByteArray}

/-- The disk has moved the file of the store aside, under the name of this second. -/
def Config.MovedAt (c : Config) (trace : List Event) (second : Nat) : Prop :=
  ⟨.rename c.path (c.path.quarantine second), true⟩ ∈ trace

theorem Config.not_movedAt_of_asksOnly {α : Type} {p : Program α} {value : α}
    (h : Runs p d trace value e) (hAsks : AsksOnly (fun request => ¬ request.Moves) p)
    (second : Nat) : ¬ c.MovedAt trace second :=
  fun hMoved => h.request_of_mem hAsks _ hMoved ⟨_, _, rfl⟩

namespace Store

/-! ### One opening -/

/-- What a program that may move the file of a store aside does of that: nothing, or it
moves what can be read there. -/
inductive Moving (c : Config) (d : Disk) (trace : List Event) : Disk → Prop where
  | nothing (h : ∀ second, ¬ c.MovedAt trace second) : Moving c d trace d
  | file {second : Nat} {content : ByteArray} {e : Disk} (hMoved : c.MovedAt trace second)
      (hOnce : ∀ other, c.MovedAt trace other →
        c.path.quarantine other = c.path.quarantine second)
      (hRead : d.read c.path = .ok content)
      (hRenamed : d.rename c.path (c.path.quarantine second) = .ok e) : Moving c d trace e

/-- What was asked for before, and moves nothing, does not count. -/
theorem Moving.append_left (h : Moving c d trace e)
    (hBefore : ∀ second, ¬ c.MovedAt before second) : Moving c d (before ++ trace) e := by
  have hSame : ∀ second, c.MovedAt (before ++ trace) second ↔ c.MovedAt trace second :=
    fun second => List.mem_append.trans (or_iff_right (hBefore second))
  cases h with
  | nothing h => exact .nothing fun second => (hSame second).not.mpr (h second)
  | file hMoved hOnce hRead hRenamed =>
      exact .file ((hSame _).mpr hMoved) (fun other hOther => hOnce other ((hSame other).mp hOther))
        hRead hRenamed

theorem moving_of_runs_quarantine {moved : Except Disk.Fault Path}
    (h : Runs (Snapshot.quarantine c.path) d trace moved e)
    (hRead : d.read c.path = .ok content) : Moving c d trace e := by
  obtain ⟨second, known, rfl, hRenamed⟩ := Snapshot.runs_quarantine h
  cases moved with
  | error fault =>
      rw [hRenamed.rename_error]
      exact .nothing fun other hMoved => by
        simp [Config.MovedAt, Except.isOk, Except.toBool] at hMoved
  | ok path =>
      have hMoved : ∀ other, c.MovedAt [⟨.clock, known⟩, ⟨.rename c.path
          (c.path.quarantine second), (Except.ok path : Except Disk.Fault Path).isOk⟩] other ↔
          c.path.quarantine other = c.path.quarantine second := fun other => by
        simp [Config.MovedAt, Except.isOk, Except.toBool]
      exact .file ((hMoved second).mpr rfl) (fun other => (hMoved other).mp) hRead
        hRenamed.rename_ok

theorem moving_of_runs_recover {error : StoreError} {result : Except StoreError Snapshot}
    (h : Runs (recover c error) d trace result e) (hRead : d.read c.path = .ok content) :
    Moving c d trace e := by
  unfold recover at h
  cases hPolicy : c.onCorrupt with
  | fail =>
      rw [hPolicy] at h
      obtain ⟨rfl, -, rfl⟩ := h.pure_inv
      exact .nothing fun second => List.not_mem_nil
  | startFresh =>
      rw [hPolicy] at h
      obtain ⟨before, after, moved, middle, rfl, hMove, hReturn⟩ := h.bind_inv
      have hEnd : after = [] ∧ e = middle := by
        cases moved with
        | error fault => exact ⟨hReturn.pure_inv.1, hReturn.pure_inv.2.2⟩
        | ok path => exact ⟨hReturn.pure_inv.1, hReturn.pure_inv.2.2⟩
      obtain ⟨rfl, rfl⟩ := hEnd
      rw [List.append_nil]
      exact moving_of_runs_quarantine hMove hRead

theorem moving_of_runs_initial {result : Except StoreError Snapshot}
    (h : Runs (initial c) d trace result e) : Moving c d trace e := by
  obtain ⟨before, after, loaded, middle, rfl, hLoad, hRest⟩ := h.bind_inv
  obtain ⟨rfl, hHolds⟩ := Snapshot.eq_of_runs_load hLoad
  have hNone := Config.not_movedAt_of_asksOnly (c := c) hLoad ((Snapshot.asksOnly_load c.path).mono
    (by rintro _ rfl ⟨_, _, ⟨⟩⟩))
  refine Moving.append_left ?_ hNone
  have hReturned : ∀ {data : Except StoreError Snapshot},
      Runs (pure data) middle after result e → Moving c middle after e := fun hReturn => by
    obtain ⟨rfl, -, rfl⟩ := hReturn.pure_inv
    exact .nothing fun second => List.not_mem_nil
  cases loaded with
  | ok found => cases found <;> exact hReturned hRest
  | error error =>
      cases error with
      | corrupt path reason =>
          obtain ⟨content, hRead, -⟩ := hHolds
          exact moving_of_runs_recover hRest hRead
      | _ => exact hReturned hRest

/-- Opening may create the directory and remove what an interrupted save has left. Then
it moves nothing, or the file that is read. -/
theorem moving_of_runs_open {result : Except StoreError Store}
    (h : Runs («open» c) d trace result e) :
    ∃ created middle, (created = d ∨ created = (d.createDirectories c.directory).2) ∧
      OnlyFile c.path.temp created middle ∧ Moving c middle trace e ∧
      (∀ second, c.MovedAt trace second →
        c.check = .ok () ∧ created = (d.createDirectories c.directory).2) := by
  unfold «open» at h
  cases hCheck : c.check with
  | error fault =>
      rw [hCheck] at h
      obtain ⟨rfl, -, rfl⟩ := h.pure_inv
      exact ⟨e, e, Or.inl rfl, .refl _ _, .nothing fun _ => List.not_mem_nil, fun _ => nofun⟩
  | ok _ =>
      rw [hCheck] at h
      obtain ⟨_, _, answer, created, rfl, hCreate, hRest⟩ := h.bind_inv
      obtain ⟨hCreated, rfl⟩ := hCreate.request_inv
      have hFirst : ∀ second, ¬ c.MovedAt
          [⟨.createDirectories c.directory, answer.isOk⟩] second := by
        simp [Config.MovedAt]
      cases answer with
      | error fault =>
          obtain ⟨rfl, -, rfl⟩ := hRest.pure_inv
          have hDisk : e = d ∨ e = (d.createDirectories c.directory).2 := by
            rcases hCreated with ⟨second, hAnswer⟩ | ⟨fault, -, -, hLeft⟩
            · exact Or.inr (congrArg Prod.snd hAnswer).symm
            · exact Or.inl hLeft
          exact ⟨e, e, hDisk, .refl _ _, .nothing hFirst,
            fun second hMoved => absurd hMoved (hFirst second)⟩
      | ok _ =>
          have hMade : created = (d.createDirectories c.directory).2 := by
            rw [hCreated.createDirectories_ok]
          obtain ⟨_, _, removed, middle, rfl, hRemove, hRest⟩ := hRest.bind_inv
          refine ⟨created, middle, Or.inr hMade, Snapshot.onlyFile_of_reaches_removeStale
            hRemove.reaches, ?_, fun second _ => ⟨rfl, hMade⟩⟩
          have hNone := Config.not_movedAt_of_asksOnly (c := c) hRemove
            ((Snapshot.asksOnly_removeStale c.path).mono (by rintro _ rfl ⟨_, _, ⟨⟩⟩))
          refine Moving.append_left (Moving.append_left ?_ hNone) hFirst
          cases removed with
          | error fault =>
              obtain ⟨rfl, -, rfl⟩ := hRest.pure_inv
              exact .nothing fun _ => List.not_mem_nil
          | ok _ =>
              obtain ⟨_, after, data, last, rfl, hInitial, hReturn⟩ := hRest.bind_inv
              have hEnd : after = [] ∧ e = last := by
                cases data with
                | error error => exact ⟨hReturn.pure_inv.1, hReturn.pure_inv.2.2⟩
                | ok data => exact ⟨hReturn.pure_inv.1, hReturn.pure_inv.2.2⟩
              obtain ⟨rfl, rfl⟩ := hEnd
              rw [List.append_nil]
              exact moving_of_runs_initial hInitial

/-! ### What was moved aside -/

/-- What happens to files of the store that were not moved aside at this second is not
seen in the one that was. -/
theorem read_aside_of_onlyFiles (hName : Config.isName c.name = true) {files : Path → Prop}
    (h : OnlyFiles files d e)
    (hFiles : ∀ p, files p → ∃ kind, p = c.file kind ∧ kind ≠ .aside second) :
    e.read (c.path.quarantine second) = d.read (c.path.quarantine second) := by
  refine h.read_eq_of_childOf (Config.childOf_file hName (.aside second)) fun p hp => ?_
  obtain ⟨kind, rfl, hKind⟩ := hFiles p hp
  exact ⟨_, Config.childOf_file hName kind, fun hSame =>
    hKind (Config.nameOf_inj hName hName hSame).2.symm⟩

/-- An opening that does not move a file to this name leaves what is there. -/
theorem read_aside_of_runs_open (hName : Config.isName c.name = true)
    {result : Except StoreError Store} (h : Runs («open» c) d trace result e)
    (hMoved : ¬ c.MovedAt trace second) (hRead : d.read (c.path.quarantine second) = .ok content) :
    e.read (c.path.quarantine second) = .ok content := by
  obtain ⟨created, middle, hCreated, hOnly, hMoving, -⟩ := moving_of_runs_open h
  have hThere := createDirectories_of_childOf (Config.childOf_file hName (.aside second)) hRead
  obtain rfl : created = d := by
    rcases hCreated with hSame | hSame
    · exact hSame
    · rw [hSame, hThere]
  have hPrepares : OnlyFiles (· = c.path.temp) created middle := hOnly.onlyFiles rfl
  have hPrepared : middle.read (c.path.quarantine second) = .ok content := by
    rw [← hRead]
    exact read_aside_of_onlyFiles hName hPrepares fun p hp => ⟨.prepared, hp, nofun⟩
  cases hMoving with
  | nothing hNothing => exact hPrepared
  | @file other content' _ hOther hOnce hFile hRenamed =>
      rw [← hPrepared]
      have hRenaming : OnlyFiles (fun p => p = c.path ∨ p = c.path.quarantine other) middle e :=
        onlyFiles_of_rename (Or.inl rfl) (Or.inr rfl) hRenamed hFile
      refine read_aside_of_onlyFiles hName hRenaming fun p hp => ?_
      rcases hp with rfl | rfl
      · exact ⟨.snapshot, rfl, nofun⟩
      · refine ⟨.aside other, rfl, ?_⟩
        rintro ⟨rfl⟩
        exact hMoved hOther

/-- An opening moves the file at most once. -/
theorem movedAt_unique (hName : Config.isName c.name = true) {other : Nat}
    {result : Except StoreError Store} (h : Runs («open» c) d trace result e)
    (hMoved : c.MovedAt trace second) (hOther : c.MovedAt trace other) : second = other := by
  obtain ⟨created, middle, -, -, hMoving, -⟩ := moving_of_runs_open h
  cases hMoving with
  | nothing hNothing => exact absurd hMoved (hNothing second)
  | file _ hOnce =>
      have hSame : c.file (.aside second) = c.file (.aside other) :=
        (hOnce second hMoved).trans (hOnce other hOther).symm
      by_contra hApart
      exact Config.file_ne rfl hName hName (fun h => hApart (FileKind.aside.inj h.2)) hSame

/-- An opening that does leaves there what was read. -/
theorem read_aside_of_movedAt {result : Except StoreError Store}
    (h : Runs («open» c) d trace result e) (hMoved : c.MovedAt trace second)
    (hRead : (d.createDirectories c.directory).2.read c.path = .ok content) :
    e.read (c.path.quarantine second) = .ok content := by
  obtain ⟨created, middle, -, hOnly, hMoving, hChecked⟩ := moving_of_runs_open h
  obtain ⟨hCheck, rfl⟩ := hChecked second hMoved
  cases hMoving with
  | nothing hNothing => exact absurd hMoved (hNothing second)
  | file hOther hOnce hFile hRenamed =>
      rw [hOnly.read_eq, hRead] at hFile
      rw [hOnce second hMoved, Except.ok.inj hFile]
      exact (movedAside_of_rename hCheck hRenamed (hOnly.read_eq.trans (hRead.trans hFile))).read

/-! ### Any number of openings -/

/-- Openings of the store of one name, under any setup and at any times, with changes of
its file in between by whomever, and what they have moved aside: the second and the
content, the last first. -/
inductive History (c : Config) (first : Disk) : List (Nat × ByteArray) → Disk → Prop where
  | start : History c first [] first
  | rewritten {log : List (Nat × ByteArray)} {d e : Disk} (before : History c first log d)
      (hRewritten : OnlyFiles (fun p => p = c.path ∨ p = c.path.temp) d e) : History c first log e
  | opened {log : List (Nat × ByteArray)} {d e : Disk} {config : Config} {trace : List Event}
      {result : Except StoreError Store} (before : History c first log d)
      (hStore : config.directory = c.directory ∧ config.name = c.name)
      (hRuns : Runs («open» config) d trace result e)
      (hMoved : ∀ second, ¬ config.MovedAt trace second) : History c first log e
  | recovered {log : List (Nat × ByteArray)} {d e : Disk} {config : Config} {trace : List Event}
      {result : Except StoreError Store} {second : Nat} {content : ByteArray}
      (before : History c first log d)
      (hStore : config.directory = c.directory ∧ config.name = c.name)
      (hRuns : Runs («open» config) d trace result e) (hMoved : config.MovedAt trace second)
      (hRead : (d.createDirectories config.directory).2.read config.path = .ok content) :
      History c first ((second, content) :: log) e

theorem path_eq (hStore : config.directory = c.directory ∧ config.name = c.name) :
    config.path = c.path := by
  rw [Config.path, Config.path, hStore.1, hStore.2]

/-- Every opening of the store goes on with the history. -/
theorem History.exists_of_runs_open (h : History c first log d)
    (hStore : config.directory = c.directory ∧ config.name = c.name)
    {result : Except StoreError Store} (hRuns : Runs («open» config) d trace result e) :
    History c first log e ∧ (∀ second, ¬ config.MovedAt trace second) ∨
    ∃ second content, History c first ((second, content) :: log) e ∧
      config.MovedAt trace second := by
  obtain ⟨created, middle, -, hOnly, hMoving, hChecked⟩ := moving_of_runs_open hRuns
  cases hMoving with
  | nothing hNothing => exact Or.inl ⟨.opened h hStore hRuns hNothing, hNothing⟩
  | file hMoved hOnce hFile hRenamed =>
      obtain ⟨-, rfl⟩ := hChecked _ hMoved
      rw [hOnly.read_eq] at hFile
      exact Or.inr ⟨_, _, .recovered h hStore hRuns hMoved hFile, hMoved⟩

/-- Of every second the file holds what was moved last. -/
theorem History.read_aside (hName : Config.isName c.name = true) (h : History c first log d)
    (hLast : log.lookup second = some content) :
    d.read (c.path.quarantine second) = .ok content := by
  induction h with
  | start => cases hLast
  | rewritten before hRewritten ih =>
      rw [← ih hLast]
      refine read_aside_of_onlyFiles hName hRewritten fun p hp => ?_
      rcases hp with rfl | rfl
      · exact ⟨.snapshot, rfl, nofun⟩
      · exact ⟨.prepared, rfl, nofun⟩
  | opened before hStore hRuns hMoved ih =>
      rw [← path_eq hStore] at ih ⊢
      exact read_aside_of_runs_open (hStore.2 ▸ hName) hRuns (hMoved second) (ih hLast)
  | @recovered log d e config trace result last content' before hStore hRuns hMoved hRead ih =>
      rw [← path_eq hStore] at ih ⊢
      by_cases hSame : second = last
      · subst hSame
        rw [List.lookup_cons_self] at hLast
        exact read_aside_of_movedAt hRuns hMoved (Option.some.inj hLast ▸ hRead)
      · rw [List.lookup_cons, beq_eq_false_iff_ne.mpr hSame] at hLast
        have hValid : Config.isName config.name = true := hStore.2 ▸ hName
        exact read_aside_of_runs_open hValid hRuns
          (fun hOther => hSame (movedAt_unique hValid hRuns hOther hMoved)) (ih hLast)

/-- What was moved aside stays, byte for byte, until another file is moved at the same
second. The clock may show any second at each opening, stand still or go back, the disk
may fail, and the file may change in between. -/
theorem aside_kept (c : Config) (hName : Config.isName c.name = true) (first d : Disk)
    (log later earlier : List (Nat × ByteArray)) (second : Nat) (content : ByteArray)
    (h : History c first log d) (hLog : log = later ++ (second, content) :: earlier)
    (hLater : ∀ entry ∈ later, entry.1 ≠ second) :
    d.read (c.path.quarantine second) = .ok content := by
  refine h.read_aside hName (List.lookup_eq_some_iff.mpr ⟨later, earlier, hLog, ?_⟩)
  exact fun entry hEntry => bne_iff_ne.mpr (hLater entry hEntry).symm

/-- A disk with one file, which was moved aside at second 7. -/
def asideOf (text : String) : Disk :=
  ⟨KeyMap.empty.insert "s.json.corrupt-7" (.file text.toUTF8)⟩

/-- A blank file was moved aside, and then a brace was written to the file. -/
def bracedAgain : Disk :=
  ⟨(asideOf " ").nodes.insert "s.json" (.file "\x7b".toUTF8)⟩

theorem runs_blankFile : ∃ trace, Runs («open» freshConfig) blankFile trace
    (.ok (opened freshConfig .empty)) (asideOf " ") ∧ freshConfig.MovedAt trace 7 :=
  ⟨_, .ask (.answered 7 rfl) (.ask (.answered 7 rfl) (.ask (.answered 7 rfl)
    (.ask (.answered 7 rfl) (.ask (.answered 7 rfl) (.done _ _))))),
    .tail _ (.tail _ (.tail _ (.tail _ (.head _))))⟩

theorem runs_bracedAgain : ∃ trace, Runs («open» freshConfig) bracedAgain trace
    (.ok (opened freshConfig .empty)) (asideOf "\x7b") ∧ freshConfig.MovedAt trace 7 :=
  ⟨_, .ask (.answered 7 rfl) (.ask (.answered 7 rfl) (.ask (.answered 7 rfl)
    (.ask (.answered 7 rfl) (.ask (.answered 7 rfl) (.done _ _))))),
    .tail _ (.tail _ (.tail _ (.tail _ (.head _))))⟩

/-- Two files are moved aside within one second. -/
theorem history_twice : History freshConfig blankFile [(7, "\x7b".toUTF8), (7, " ".toUTF8)]
    (asideOf "\x7b") := by
  obtain ⟨_, hBlank, hMovedBlank⟩ := runs_blankFile
  obtain ⟨_, hBraced, hMovedBraced⟩ := runs_bracedAgain
  have hWritten : (asideOf " ").write freshConfig.path "\x7b".toUTF8 = .ok bracedAgain := rfl
  have hFirst := History.recovered .start ⟨rfl, rfl⟩ hBlank hMovedBlank rfl
  have hSecond := hFirst.rewritten ((onlyFile_of_write hWritten).onlyFiles (Or.inl rfl))
  exact hSecond.recovered ⟨rfl, rfl⟩ hBraced hMovedBraced rfl

/-- The one that was moved last is there. -/
theorem aside_kept_twice : Config.isName freshConfig.name = true ∧
    History freshConfig blankFile [(7, "\x7b".toUTF8), (7, " ".toUTF8)] (asideOf "\x7b") ∧
    (asideOf "\x7b").read ⟨"s.json.corrupt-7"⟩ = .ok "\x7b".toUTF8 :=
  ⟨rfl, history_twice, aside_kept freshConfig rfl blankFile (asideOf "\x7b") _ [] _ 7 "\x7b".toUTF8
    history_twice rfl nofun⟩

/-- The one that was moved before it is nowhere. -/
theorem replaced_within_second : ¬ ∀ (c : Config) (first d : Disk) (log : List (Nat × ByteArray)),
    Config.isName c.name = true → History c first log d →
    ∀ second content, (second, content) ∈ log →
      ∃ other, d.read (c.path.quarantine other) = .ok content := by
  intro hKept
  obtain ⟨other, hRead⟩ := hKept freshConfig blankFile (asideOf "\x7b") _ rfl history_twice 7
    " ".toUTF8 (.tail _ (.head _))
  obtain ⟨place, -, hFile⟩ := read_eq_ok_iff.mp hRead
  rw [node?, asideOf, KeyMap.get?_insert] at hFile
  split_ifs at hFile with hRoot hPlace
  · cases hFile
  · have hSame : "\x7b".toUTF8 = " ".toUTF8 := Node.file.inj (Option.some.inj hFile)
    exact absurd hSame (by decide)
  · cases hFile

end Store

end SnapshotStore
