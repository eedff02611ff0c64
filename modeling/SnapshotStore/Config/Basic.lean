import SnapshotStore.Disk.Path
import SnapshotStore.Snapshot.Format
import SnapshotStore.Time.Duration

/-! How a store is set up: where its file is, how it is written, and how often
it is saved. -/
namespace SnapshotStore

/-- What happens to a file that is there but is not a snapshot. -/
inductive CorruptPolicy where
  /-- The store does not open. -/
  | fail
  /-- The file is moved aside, and the store starts empty. -/
  | startFresh
deriving DecidableEq

/-- The setup of a store. -/
structure Config where
  directory : Path := ⟨"./nanostore_data"⟩
  name : String := "store"
  onCorrupt : CorruptPolicy := .fail
  layout : Layout := .pretty
  /-- Wait until what is written has settled on the disk. -/
  durable : Bool := true
  /-- How often everything is saved. -/
  autosaveInterval : Duration := .ofTicks 6000
  /-- How often unsaved changes are looked for, if at all. -/
  flushDelay : Option Duration := some (.ofTicks 20)

/-- What is wrong with a setup. -/
inductive Config.Fault where
  | badName (name : String)
  | noAutosaveInterval
  | noFlushDelay
  | noAutosaveCadence
  | noFlushCadence
deriving DecidableEq

/-- The words for a fault. -/
def Config.Fault.message : Config.Fault → String
  | .badName name => "invalid store name '" ++ name ++ "'"
  | .noAutosaveInterval => "autosave_interval must be non-zero"
  | .noFlushDelay => "flush_delay must be non-zero"
  | .noAutosaveCadence => "autosave interval must be non-zero"
  | .noFlushCadence => "flush delay must be non-zero"

namespace Config

instance : Inhabited Config :=
  ⟨{}⟩

/-- A character of a store name: an ASCII letter or digit, or one of `_-.`. -/
def isNameChar (c : Char) : Bool :=
  c.isAlphanum || c = '_' || c = '-' || c = '.'

/-- A store name is a file name without a leading dot. -/
def isName (name : String) : Bool :=
  match name.toList with
  | [] => false
  | c :: rest => c ≠ '.' && (c :: rest).all isNameChar

/-- Accept a store name or say that it is none. -/
def checkName (name : String) : Except Fault Unit :=
  if isName name then .ok () else .error (.badName name)

/-- The file of the store. -/
def path (c : Config) : Path :=
  c.directory.join (c.name ++ ".json")

/-- The same setup for another store of the directory. -/
def forStore (c : Config) (name : String) : Config :=
  { c with name }

/-- Both cadences have a length. The faults are those of the caller. -/
def checkCadences (interval : Duration) (flush : Option Duration) (noInterval noFlush : Fault) :
    Except Fault Unit :=
  if interval.isZero then .error noInterval
  else if flush.any Duration.isZero then .error noFlush
  else .ok ()

/-- Accept a setup, or name the first thing that is wrong with it. -/
def check (c : Config) : Except Fault Unit :=
  match checkName c.name with
  | .error fault => .error fault
  | .ok _ => checkCadences c.autosaveInterval c.flushDelay .noAutosaveInterval .noFlushDelay

end Config

end SnapshotStore
