import SnapshotStore.Proofs.Store.Footprint

/-! Stores of one directory. Since no two of them have a file in common, what is done with
one store is not seen by another, wherever it fails or is stopped. -/
namespace SnapshotStore

open Disk Program

variable {a b c : Config} {d e : Disk}

/-! ### Visits -/

/-- Something is done with a store of this setup, and comes past the disk `e`, where it
may also be stopped for good. A file is moved aside only after it was read. -/
inductive Config.Visit (c : Config) (d e : Disk) : Prop where
  | opening (h : Reaches (Store.open c) d e)
  | performing {α : Type} {operation : Operation α} {s : Store} (hConfig : s.config = c)
      (h : Reaches (operation.perform s) d e)
  | saving {s : Store} (hConfig : s.config = c) (h : Reaches s.save d e)
  | releasing {s : Store} (hConfig : s.config = c) (h : Reaches s.release d e)
  | loading (h : Reaches (Snapshot.load c.path) d e)
  | removingStale (h : Reaches (Snapshot.removeStale c.path) d e)
  | movingAside {content : ByteArray} (hRead : d.read c.path = .ok content)
      (h : Reaches (Snapshot.quarantine c.path) d e)

/-- Any number of visits, one after the other. -/
def Config.Visits (c : Config) : Disk → Disk → Prop :=
  Relation.ReflTransGen c.Visit

namespace Config

theorem Visit.onlyFiles (h : c.Visit d e) :
    ∃ created, (created = d ∨ created = (d.createDirectories c.directory).2) ∧
      OnlyFiles c.Owns created e := by
  cases h with
  | opening h => exact Store.onlyFiles_of_reaches_open h
  | performing hConfig h =>
      exact ⟨d, Or.inl rfl, hConfig ▸ Operation.onlyFiles_of_reaches_perform h⟩
  | saving hConfig h => exact ⟨d, Or.inl rfl, hConfig ▸ Store.onlyFiles_of_reaches_save h⟩
  | releasing hConfig h => exact ⟨d, Or.inl rfl, hConfig ▸ Store.onlyFiles_of_reaches_release h⟩
  | loading h => exact ⟨d, Or.inl rfl, Snapshot.eq_of_reaches_load h ▸ .refl⟩
  | removingStale h =>
      exact ⟨d, Or.inl rfl,
        (Snapshot.onlyFile_of_reaches_removeStale h).onlyFiles c.owns_temp⟩
  | movingAside hRead h =>
      exact ⟨d, Or.inl rfl, Snapshot.onlyFiles_of_reaches_quarantine h hRead⟩

/-- Once the directory is there, nothing changes but files of the store. -/
theorem Visits.onlyFiles (hName : isName c.name = true) (h : c.Visits d e) :
    ∃ created, (created = d ∨ created = (d.createDirectories c.directory).2) ∧
      OnlyFiles c.Owns created e := by
  have hFiles : ∀ p, c.Owns p → ∃ name, p.ChildOf c.directory name := by
    rintro p ⟨kind, rfl⟩
    exact ⟨_, childOf_file hName kind⟩
  induction h with
  | refl => exact ⟨d, Or.inl rfl, .refl⟩
  | @tail middle e visits last ih =>
      obtain ⟨created, hCreated, hBefore⟩ := ih
      obtain ⟨again, rfl | rfl, hAfter⟩ := last.onlyFiles
      · exact ⟨created, hCreated, hBefore.trans hAfter⟩
      rcases hBefore.createDirectories hFiles with hSame | rfl
      · rw [hSame] at hAfter
        exact ⟨created, hCreated, hBefore.trans hAfter⟩
      -- nothing has changed since the directory was missing, or was created
      rcases hCreated with rfl | rfl
      · exact ⟨_, Or.inr rfl, hAfter⟩
      · rw [createDirectories_again] at hAfter
        exact ⟨_, Or.inr rfl, hAfter⟩

/-- Stores of one directory do not touch each other's files. All files of a store lie in
the directory, each of its own name, which no file of another store has; and nothing is
asked of other files than these. So whatever is done with one store, and wherever it is
stopped, loading another one gives what it gave before, or what it gave right after the
directory was created. Where the directory is there creating it changes nothing, and it
is there where the file of the other store can be read. -/
theorem stores_apart (hDirectory : a.directory = b.directory) (hA : checkName a.name = .ok ())
    (hB : checkName b.name = .ok ()) (hNames : a.name ≠ b.name) :
    (∀ kind, (a.file kind).ChildOf a.directory (a.nameOf kind)) ∧
    (∀ kind kind', a.file kind = a.file kind' → kind = kind') ∧
    (∀ p, a.Owns p → ¬ b.Owns p) ∧
    (∀ p q (d : Disk) place, a.Owns p → b.Owns q → d.place p = .ok place → d.place q ≠ .ok place) ∧
    AsksOnly a.Asks (Store.open a) ∧
    (∀ s : Store, s.config = a → AsksOnly a.Asks s.save ∧ AsksOnly a.Asks s.release ∧
      ∀ {α : Type} (operation : Operation α), AsksOnly a.Asks (operation.perform s)) ∧
    (∀ d e, a.Visits d e → ∃ before,
      (before = d ∨ before = (d.createDirectories a.directory).2) ∧
      e.read b.path = before.read b.path ∧
      ∀ second, ((Snapshot.load b.path).run second e).1 =
        ((Snapshot.load b.path).run second before).1) ∧
    (∀ (d : Disk) home, d.walk "" a.directory.segments = .ok home →
      d.node? home = some .directory → (d.createDirectories a.directory).2 = d) ∧
    (∀ (d : Disk) content, d.read b.path = .ok content →
      (d.createDirectories a.directory).2 = d) := by
  have hNameA := isName_of_checkName hA
  have hNameB := isName_of_checkName hB
  refine ⟨childOf_file hNameA, fun kind kind' hSame => ?_, ?_, ?_, Store.asks_open a, ?_,
    fun d e hVisits => ?_, fun d home => createDirectories_of_walk, fun d content hRead => ?_⟩
  · by_contra hKinds
    exact file_ne rfl hNameA hNameA (fun hBoth => hKinds hBoth.2) hSame
  · rintro p ⟨kind, rfl⟩ ⟨kind', hSame⟩
    exact file_ne hDirectory hNameA hNameB (fun hBoth => hNames hBoth.1) hSame
  · rintro p q d place ⟨kind, rfl⟩ ⟨kind', rfl⟩ hPlace
    exact place_ne_of_childOf (hDirectory ▸ childOf_file hNameA kind) (childOf_file hNameB kind')
      (fun hSame => hNames (nameOf_inj hNameB hNameA hSame).1.symm) hPlace
  · rintro s rfl
    exact ⟨Store.asks_save s, Store.asks_release s, fun operation => operation.asks_perform s⟩
  · obtain ⟨before, hBefore, hOnly⟩ := hVisits.onlyFiles hNameA
    have hRead := read_eq_of_onlyFiles hDirectory hNameA hNameB hNames hOnly
    refine ⟨before, hBefore, hRead, fun second => ?_⟩
    rw [Snapshot.load_eq, run_request_bind, run_request_bind]
    simp [answer, hRead]
  · obtain ⟨place, hPlace, -⟩ := read_eq_ok_iff.mp hRead
    rw [hDirectory, createDirectories_of_place_join (not_mem_fileName_of_isName hNameB) hPlace]

/-- The file of a store that is named like a file of store `x` that was moved aside. -/
def crowded : Disk :=
  ⟨(KeyMap.empty.insert "x.json" (.file " ".toUTF8)).insert "x.json.corrupt-5.json"
    (.file (Snapshot.content .compact Store.flagged))⟩

/-- At second 5 the file of store `x` is moved aside, next to a store with the name that
it is given. -/
theorem stores_apart_crowded : ∃ e : Disk,
    (Store.freshConfig.forStore "x").Visits crowded e ∧
    e.read ⟨"x.json.corrupt-5"⟩ = .ok " ".toUTF8 ∧
    e.read ⟨"x.json.corrupt-5.json"⟩ = .ok (Snapshot.content .compact Store.flagged) := by
  obtain ⟨-, -, -, -, -, -, hLoads, -, hCreated⟩ :=
    stores_apart (a := Store.freshConfig.forStore "x")
      (b := Store.localConfig.forStore "x.json.corrupt-5") rfl (by decide) (by decide) (by decide)
  have hHeld : crowded.read ⟨"x.json.corrupt-5.json"⟩ =
      .ok (Snapshot.content .compact Store.flagged) := rfl
  have hRun : (Store.open (Store.freshConfig.forStore "x")).run 5 crowded =
      (.ok (Store.opened (Store.freshConfig.forStore "x") .empty), _) := rfl
  obtain ⟨trace, hRuns⟩ := runs_of_run hRun
  have hVisits : (Store.freshConfig.forStore "x").Visits crowded _ :=
    .single (.opening hRuns.reaches)
  obtain ⟨before, hBefore, hRead, -⟩ := hLoads _ _ hVisits
  have hSame : before = crowded := by
    rcases hBefore with rfl | rfl
    · rfl
    · exact hCreated crowded _ hHeld
  subst hSame
  exact ⟨_, hVisits, rfl, hRead.trans hHeld⟩

/-- The setup of a store whose path leads through a directory and back. -/
def roundabout (name : String) : Config :=
  { directory := ⟨"gone/../d"⟩, name }

/-- A directory with the file of a store `b`. -/
def detour : Disk :=
  ⟨(KeyMap.empty.insert "d" .directory).insert "d/b.json"
    (.file (Snapshot.content .compact Store.flagged))⟩

/-- What loading a store gives may change as the directory is created. Here a directory
is missing on the way to it, which opening store `a` creates; only then the file of store
`b` is found. -/
theorem not_unchanged_of_missing : ¬ ∀ (a b : Config) (d e : Disk), a.directory = b.directory →
    checkName a.name = .ok () → checkName b.name = .ok () → a.name ≠ b.name → a.Visits d e →
    ∀ second, ((Snapshot.load b.path).run second e).1 =
      ((Snapshot.load b.path).run second d).1 := by
  intro h
  have hRun : (Store.open (roundabout "a")).run 0 detour =
      (.ok (Store.opened (roundabout "a") .empty), _) := rfl
  obtain ⟨trace, hRuns⟩ := runs_of_run hRun
  have hSame := h (roundabout "a") (roundabout "b") detour _ rfl (by decide) (by decide) (by decide)
    (.single (.opening hRuns.reaches)) 0
  rw [Store.run_load 0 rfl (Snapshot.ofContent_content .compact Store.storable_flagged)] at hSame
  have hMissing : (Snapshot.load (roundabout "b").path).run 0 detour = (.ok none, detour) := rfl
  rw [hMissing] at hSame
  cases hSame

end Config

end SnapshotStore
