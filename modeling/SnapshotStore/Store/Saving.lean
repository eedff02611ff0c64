import SnapshotStore.Snapshot.File
import SnapshotStore.Store.Basic

/-! Stores and their files: opening, saving, and letting go. -/
namespace SnapshotStore.Store

/-- What a save writes: the content and the generation at one moment. -/
structure Copy where
  data : Snapshot
  generation : Nat

/-- The content of the store at this moment. -/
def copy (s : Store) : Copy :=
  ⟨s.data, s.generation⟩

/-- Remember that a copy has reached the file. -/
def publish (s : Store) (c : Copy) : Store :=
  { s with savedGeneration := c.generation }

/-- Write a copy to the file of the store. -/
def writeCopy (s : Store) (c : Copy) : Program (Except Disk.Fault Unit) :=
  Snapshot.replaceFile s.path (Snapshot.content s.config.layout c.data) s.config.durable

/-- Write the content to the file. If that fails, the file is as before, and
the store still counts as unsaved. -/
def save (s : Store) : Program (Except StoreError Unit × Store) := do
  match ← s.writeCopy s.copy with
  | .error fault => return (.error (.disk fault), s)
  | .ok _ => return (.ok (), s.publish s.copy)

/-- Save if there is something to save. -/
def saveDirty (s : Store) : Program (Except StoreError Unit × Store) :=
  if s.isDirty then s.save else return (.ok (), s)

/-- Let the store go. What is unsaved is saved first; should that fail, it is
lost without a word. -/
def release (s : Store) : Program Unit := do
  let _ ← s.saveDirty

/-- A last save, after which the store is gone. Should it fail, letting go
tries once more. -/
def close (s : Store) : Program (Except StoreError Unit) := do
  let (outcome, s) ← s.save
  s.release
  return outcome

/-- Content for a store whose file is not a snapshot. -/
def recover (config : Config) (error : StoreError) : Program (Except StoreError Snapshot) :=
  match config.onCorrupt with
  | .fail => return .error error
  | .startFresh => do
    match ← Snapshot.quarantine config.path with
    | .error fault => return .error (.disk fault)
    | .ok _ => return .ok .empty

/-- The content with which a store opens. -/
def initial (config : Config) : Program (Except StoreError Snapshot) := do
  match ← Snapshot.load config.path with
  | .ok (some data) => return .ok data
  | .ok none => return .ok .empty
  | .error (.corrupt path reason) => recover config (.corrupt path reason)
  | .error error => return .error error

/-- Open a store: check its setup, create its directory, remove what an
interrupted save has left, and read its file. No file is an empty store. -/
def «open» (config : Config) : Program (Except StoreError Store) := do
  match config.check with
  | .error fault => return .error (.config fault)
  | .ok _ =>
    match ← Program.request (.createDirectories config.directory) with
    | .error fault => return .error (.disk fault)
    | .ok _ =>
      match ← Snapshot.removeStale config.path with
      | .error fault => return .error (.disk fault)
      | .ok _ =>
        match ← initial config with
        | .error error => return .error error
        | .ok data => return .ok (opened config data)

end SnapshotStore.Store
