import SnapshotStore.Manager
import SnapshotStore.Proofs.Store.Footprint

/-! The stores of a manager. Each is open under its own name, with the setup of the manager,
so no two of them have a file in common. What is done with one of them leaves the files
of the others alone, and so does opening another one. -/
namespace SnapshotStore.Manager

open Disk Program Store

variable {m after : Manager} {name other : String} {s s' : Store} {c : Copy} {d e : Disk}
  {trace : List Event}

/-- Every store is open under its own name and has the setup of the manager, and what
counts as saved is not ahead of it. -/
def Regular (m : Manager) : Prop :=
  ∀ name s, m.stores.get? name = some s → Config.checkName name = .ok () ∧
    s.config = m.config.forStore name ∧ s.savedGeneration ≤ s.generation

theorem regular_empty (config : Config) : Regular ⟨config, .empty⟩ :=
  fun _ _ => nofun

/-- A store that was opened by itself is the only one of a manager. -/
theorem regular_single (hName : Config.checkName s.name = .ok ())
    (hSaved : s.savedGeneration ≤ s.generation) :
    Regular ⟨s.config, KeyMap.empty.insert s.name s⟩ := by
  intro name found hFound
  rw [KeyMap.get?_insert] at hFound
  split_ifs at hFound with hSame
  · obtain rfl := Option.some.inj hFound
    subst hSame
    exact ⟨hName, rfl, hSaved⟩
  · cases hFound

theorem Regular.name_eq (h : m.Regular) (hStore : m.stores.get? name = some s) :
    s.name = name := by
  rw [Store.name, (h name s hStore).2.1]
  rfl

theorem get?_put (m : Manager) (s : Store) (other : String) :
    (m.put s).stores.get? other = if other = s.name then some s else m.stores.get? other := by
  rw [put, KeyMap.get?_insert]

theorem Regular.get?_put_self (h : m.Regular) (hStore : m.stores.get? name = some s)
    (hConfig : s'.config = s.config) : (m.put s').stores.get? name = some s' := by
  have hName : s'.name = name := (congrArg Config.name hConfig).trans (h.name_eq hStore)
  rw [get?_put, if_pos hName.symm]

theorem Regular.get?_put_of_ne (h : m.Regular) (hStore : m.stores.get? name = some s)
    (hConfig : s'.config = s.config) (hOther : other ≠ name) :
    (m.put s').stores.get? other = m.stores.get? other := by
  have hName : s'.name = name := (congrArg Config.name hConfig).trans (h.name_eq hStore)
  rw [get?_put, if_neg (hName ▸ hOther)]

theorem Regular.get?_publish_self (h : m.Regular) (hStore : m.stores.get? name = some s)
    (c : Copy) : (m.put (s.publish c)).stores.get? name = some (s.publish c) :=
  h.get?_put_self hStore rfl

theorem Regular.get?_publish_of_ne (h : m.Regular) (hStore : m.stores.get? name = some s)
    (c : Copy) (hOther : other ≠ name) :
    (m.put (s.publish c)).stores.get? other = m.stores.get? other :=
  h.get?_put_of_ne hStore rfl hOther

/-- A store may take the place of an earlier state of it. -/
theorem Regular.put (h : m.Regular) (hStore : m.stores.get? name = some s)
    (hConfig : s'.config = s.config) (hSaved : s'.savedGeneration ≤ s'.generation) :
    (m.put s').Regular := by
  intro other found hFound
  by_cases hSame : other = name
  · subst hSame
    rw [h.get?_put_self hStore hConfig] at hFound
    obtain rfl := Option.some.inj hFound
    obtain ⟨hName, hSetup, -⟩ := h other s hStore
    exact ⟨hName, hConfig.trans hSetup, hSaved⟩
  · rw [h.get?_put_of_ne hStore hConfig hSame] at hFound
    exact h other found hFound

/-- The manager without one of its stores. -/
def without (m : Manager) (name : String) : Manager :=
  { m with stores := m.stores.erase name }

theorem get?_without (m : Manager) (name other : String) :
    (m.without name).stores.get? other = if other = name then none else m.stores.get? other :=
  KeyMap.get?_erase m.stores name other

theorem get?_without_self (m : Manager) (name : String) :
    (m.without name).stores.get? name = none := by
  rw [get?_without, if_pos rfl]

theorem get?_without_of_ne (m : Manager) (hOther : other ≠ name) :
    (m.without name).stores.get? other = m.stores.get? other := by
  rw [get?_without, if_neg hOther]

theorem Regular.without (h : m.Regular) (name : String) : (m.without name).Regular := by
  intro other found hFound
  rw [get?_without] at hFound
  split_ifs at hFound
  exact h other found hFound

/-! ### Writing one store -/

/-- What changes only the files of one store leaves the file of another one as it is, also
where that is not open. -/
theorem Regular.read_eq_of_onlyFiles (h : m.Regular) (hStore : m.stores.get? name = some s)
    (hName' : Config.checkName other = .ok ()) (hSetup' : s'.config = m.config.forStore other)
    (hNames : other ≠ name) (hFiles : OnlyFiles s.config.Owns d e) :
    e.read s'.path = d.read s'.path := by
  obtain ⟨hName, hSetup, -⟩ := h name s hStore
  refine Config.read_eq_of_onlyFiles (a := s.config) (b := s'.config) ?_ ?_ ?_ ?_ hFiles
  · rw [hSetup, hSetup']
    rfl
  · rw [hSetup]
    exact Config.isName_of_checkName hName
  · rw [hSetup']
    exact Config.isName_of_checkName hName'
  · rw [hSetup, hSetup']
    exact hNames.symm

/-- While one store is written, the files of the others do not change. -/
theorem Regular.read_eq_of_reaches (h : m.Regular) (hStore : m.stores.get? name = some s)
    (hOther : m.stores.get? other = some s') (hNames : other ≠ name)
    (hWrite : Reaches (s.writeCopy c) d e) : e.read s'.path = d.read s'.path := by
  obtain ⟨hName', hSetup', -⟩ := h other s' hOther
  exact h.read_eq_of_onlyFiles hStore hName' hSetup' hNames
    (Snapshot.onlyFiles_of_reaches_replaceFile hWrite)

/-- Nor do they while it is let go. -/
theorem Regular.read_eq_of_reaches_release (h : m.Regular) (hStore : m.stores.get? name = some s)
    (hOther : m.stores.get? other = some s') (hNames : other ≠ name)
    (hRelease : Reaches s.release d e) : e.read s'.path = d.read s'.path := by
  obtain ⟨hName', hSetup', -⟩ := h other s' hOther
  exact h.read_eq_of_onlyFiles hStore hName' hSetup' hNames
    (onlyFiles_of_reaches_release hRelease)

/-! ### Opening another store -/

/-- Having a store open changes nothing where it is open already, where the name is none,
and where opening fails; else the store is added. -/
theorem runs_use {outcome : Except StoreError Unit}
    (h : Runs (m.use name) d trace (outcome, after) e) :
    after = m ∧ e = d ∨
    m.stores.get? name = none ∧ Config.checkName name = .ok () ∧ ∃ result,
      Runs (Store.open (m.config.forStore name)) d trace result e ∧
      match result with
      | .error _ => after = m
      | .ok s => after = m.put s := by
  unfold use at h
  by_cases hContains : m.stores.contains name = true
  · rw [if_pos hContains] at h
    obtain ⟨-, hResult, rfl⟩ := h.pure_inv
    exact Or.inl ⟨(Prod.mk.inj hResult).2, rfl⟩
  rw [if_neg hContains] at h
  have hMissing : m.stores.get? name = none := by simpa [KeyMap.contains] using hContains
  cases hName : Config.checkName name with
  | error fault =>
      rw [hName] at h
      obtain ⟨-, hResult, rfl⟩ := h.pure_inv
      exact Or.inl ⟨(Prod.mk.inj hResult).2, rfl⟩
  | ok _ =>
      rw [hName] at h
      unfold register at h
      simp only [if_neg hContains] at h
      obtain ⟨before, more, result, middle, rfl, hOpen, hReturn⟩ := h.bind_inv
      refine Or.inr ⟨hMissing, rfl, result, ?_⟩
      cases result with
      | error error =>
          obtain ⟨rfl, hResult, rfl⟩ := hReturn.pure_inv
          exact ⟨by simpa using hOpen, (Prod.mk.inj hResult).2⟩
      | ok s =>
          obtain ⟨rfl, hResult, rfl⟩ := hReturn.pure_inv
          exact ⟨by simpa using hOpen, (Prod.mk.inj hResult).2⟩

/-- What opening a store of a manager does to the manager: stores that are open stay as
they are, and at most one comes in addition, which has nothing to save. -/
structure Extends (m after : Manager) (d e : Disk) : Prop where
  config : after.config = m.config
  kept : ∀ name s, m.stores.get? name = some s → after.stores.get? name = some s
  added : ∀ name s, after.stores.get? name = some s → m.stores.get? name = some s ∨
    m.stores.get? name = none ∧ Config.checkName name = .ok () ∧ s.isDirty = false ∧
      s.config = m.config.forStore name
  files : ∀ name s content, m.stores.get? name = some s → d.read s.path = .ok content →
    e.read s.path = .ok content

theorem Extends.refl (m : Manager) (d : Disk) : Extends m m d d :=
  ⟨rfl, fun _ _ => id, fun _ _ => Or.inl, fun _ _ _ _ => id⟩

/-- Opening a store does not touch the files of the stores that are open. -/
theorem Regular.read_of_runs_open (h : m.Regular) {result : Except StoreError Store}
    {content : ByteArray} (hOther : m.stores.get? other = some s)
    (hMissing : m.stores.get? name = none) (hName : Config.checkName name = .ok ())
    (hOpen : Runs (Store.open (m.config.forStore name)) d trace result e)
    (hRead : d.read s.path = .ok content) : e.read s.path = .ok content := by
  obtain ⟨hName', hSetup, -⟩ := h other s hOther
  have hNames : name ≠ other := by
    rintro rfl
    rw [hMissing] at hOther
    cases hOther
  have hIsName : Config.isName s.config.name = true := by
    rw [hSetup]
    exact Config.isName_of_checkName hName'
  obtain ⟨created, hCreated, hOnly⟩ := Store.onlyFiles_of_reaches_open hOpen.reaches
  have hSame : created = d := by
    rcases hCreated with rfl | rfl
    · rfl
    · obtain ⟨place, hPlace, -⟩ := read_eq_ok_iff.mp hRead
      have hDirectory : (m.config.forStore name).directory = s.config.directory := by
        rw [hSetup]
        rfl
      rw [hDirectory, createDirectories_of_place_join
        (Config.not_mem_fileName_of_isName hIsName) hPlace]
  rw [hSame] at hOnly
  refine (Config.read_eq_of_onlyFiles (b := s.config) ?_ (Config.isName_of_checkName hName) hIsName
    ?_ hOnly).trans hRead
  · rw [hSetup]
    rfl
  · rw [hSetup]
    exact hNames

theorem Regular.extends_of_runs_use (h : m.Regular) {outcome : Except StoreError Unit}
    (hUse : Runs (m.use name) d trace (outcome, after) e) :
    Extends m after d e ∧ after.Regular := by
  rcases runs_use hUse with ⟨rfl, rfl⟩ | ⟨hMissing, hName, result, hOpen, hAfter⟩
  · exact ⟨.refl _ _, h⟩
  have hFiles : ∀ other s content, m.stores.get? other = some s →
      d.read s.path = .ok content → e.read s.path = .ok content :=
    fun other s content hOther => h.read_of_runs_open hOther hMissing hName hOpen
  cases result with
  | error error =>
      obtain rfl : after = m := hAfter
      exact ⟨⟨rfl, fun _ _ => id, fun _ _ => Or.inl, hFiles⟩, h⟩
  | ok s =>
      obtain rfl : after = m.put s := hAfter
      obtain ⟨-, -, hStore, -⟩ := runs_open_ok hOpen
      have hSetup : s.config = m.config.forStore name := by
        rw [hStore]
        rfl
      have hSelf : s.name = name := congrArg Config.name hSetup
      have hClean : s.isDirty = false := by
        rw [hStore]
        rfl
      have hAdded : ∀ other found, (m.put s).stores.get? other = some found →
          m.stores.get? other = some found ∨ other = name ∧ found = s := by
        intro other found hFound
        rw [get?_put, hSelf] at hFound
        split_ifs at hFound with hSame
        · exact Or.inr ⟨hSame, (Option.some.inj hFound).symm⟩
        · exact Or.inl hFound
      refine ⟨⟨rfl, fun other found hFound => ?_, fun other found hFound => ?_, hFiles⟩,
        fun other found hFound => ?_⟩
      · rw [get?_put, if_neg]
        · exact hFound
        · rintro rfl
          rw [hSelf, hMissing] at hFound
          cases hFound
      · rcases hAdded other found hFound with hBefore | ⟨rfl, rfl⟩
        · exact Or.inl hBefore
        · exact Or.inr ⟨hMissing, hName, hClean, hSetup⟩
      · rcases hAdded other found hFound with hBefore | ⟨rfl, rfl⟩
        · exact h other found hBefore
        · refine ⟨hName, hSetup, ?_⟩
          rw [hStore]
          exact Nat.le_refl 0

end SnapshotStore.Manager
