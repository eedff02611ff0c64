import SnapshotStore.Disk.Program
import SnapshotStore.Error

/-! Snapshot files. A new version is prepared in a hidden sibling, and takes
the place of the old one in a single step, so the file is never half written.
A file that is not a snapshot can be moved aside under a name of its own. -/
namespace SnapshotStore.Snapshot

open Program

/-- Fill the sibling in which a new version is prepared. -/
def prepare (temp : Path) (content : ByteArray) (durable : Bool) :
    Program (Except Disk.Fault Unit) := do
  match ← request (.startFile temp) with
  | .error fault => return .error fault
  | .ok _ =>
    match ← request (.append temp content) with
    | .error fault => return .error fault
    | .ok _ => if durable then request (.settle temp) else return .ok ()

/-- Replace a file in one step. If anything fails, the file is as before, and
what was prepared is removed. That the directory settles is only hoped for. -/
def replaceFile (path : Path) (content : ByteArray) (durable : Bool) :
    Program (Except Disk.Fault Unit) := do
  match ← prepare path.temp content durable with
  | .error fault =>
    let _ ← request (.remove path.temp)
    return .error fault
  | .ok _ =>
    match ← request (.rename path.temp path) with
    | .error fault =>
      let _ ← request (.remove path.temp)
      return .error fault
    | .ok _ =>
      if durable then
        let _ ← request (.settle path.parent)
      return .ok ()

/-- Remove what an interrupted save has left, and say whether there was
anything. -/
def removeStale (path : Path) : Program (Except Disk.Fault Bool) := do
  match ← request (.remove path.temp) with
  | .ok _ => return .ok true
  | .error .notFound => return .ok false
  | .error fault => return .error fault

/-- Move a file aside, under a name with the second on the clock. A clock that
cannot be read counts as zero. -/
def quarantine (path : Path) : Program (Except Disk.Fault Path) := do
  let second := match ← request .clock with
    | .ok second => second
    | .error _ => 0
  match ← request (.rename path (path.quarantine second)) with
  | .error fault => return .error fault
  | .ok _ => return .ok (path.quarantine second)

/-- The snapshot that the content of a file describes. -/
def ofContent (content : ByteArray) : Except CorruptReason Snapshot :=
  match String.fromUTF8? content with
  | none => .error .notText
  | some text =>
    match decode text with
    | .ok s => .ok s
    | .error fault => .error (.notSnapshot fault)

/-- The snapshot in a file, or nothing where there is no file. -/
def load (path : Path) : Program (Except StoreError (Option Snapshot)) := do
  match ← request (.read path) with
  | .error .notFound => return .ok none
  | .error fault => return .error (.disk fault)
  | .ok content =>
    match ofContent content with
    | .ok s => return .ok (some s)
    | .error reason => return .error (.corrupt path reason)

/-- The content of the file of a snapshot. -/
def content (layout : Layout) (s : Snapshot) : ByteArray :=
  (encode layout s).toUTF8

end SnapshotStore.Snapshot
