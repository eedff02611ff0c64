import SnapshotStore.Autosave
import SnapshotStore.CommandLine.Run
import SnapshotStore.Ledger

/-! A workbench is a disk and a clock together with what one user has open on
them: a store, or a manager with its stores and perhaps one of them in use, a
ledger, and an autosaver. Time passes only when the user waits; whatever comes
due in that time is seen to then. The last use of a store with unsaved changes
saves it, and should that fail, the changes are lost without a word. -/
namespace SnapshotStore

/-- What is open. -/
inductive Holding where
  | nothing
  | single (store : Store)
  | shared (manager : Manager) (current : Option String)

/-- A disk, a clock in nanoseconds, and what is open. -/
structure Workbench where
  disk : Disk
  clock : Nat
  holding : Holding
  ledger : Option Ledger
  autosaver : Option Autosaver

namespace Workbench

variable {α : Type}

/-- A workbench on a disk with nothing open. -/
def start (disk : Disk) (clock : Nat) : Workbench :=
  ⟨disk, clock, .nothing, none, none⟩

/-- Run a program on the disk, at the second that the clock shows. -/
def perform (b : Workbench) (p : Program α) : α × Workbench :=
  let (result, disk) := p.run (b.clock / 1000000000) b.disk
  (result, { b with disk })

/-- The store in use. -/
def current? (b : Workbench) : Option Store :=
  match b.holding with
  | .nothing => none
  | .single store => some store
  | .shared manager current => current.bind manager.stores.get?

/-- The manager, if one is open. -/
def manager? (b : Workbench) : Option Manager :=
  match b.holding with
  | .shared manager _ => some manager
  | _ => none

/-- Put the store in use back in place. -/
def putCurrent (b : Workbench) (store : Store) : Workbench :=
  match b.holding with
  | .nothing => b
  | .single _ => { b with holding := .single store }
  | .shared manager current => { b with holding := .shared (manager.put store) current }

/-- Do something with the store in use, if there is one. -/
def withStore (b : Workbench) (f : Store → Program (α × Store)) : Option (α × Workbench) :=
  b.current?.map fun store =>
    let ((result, store), b) := b.perform (f store)
    (result, b.putCurrent store)

/-- Do something with the manager, if there is one. -/
def withManager (b : Workbench) (f : Manager → Program (α × Manager)) :
    Option (α × Workbench) :=
  match b.holding with
  | .shared manager current =>
    let ((result, manager), b) := b.perform (f manager)
    some (result, { b with holding := .shared manager current })
  | _ => none

/-! ### Opening and letting go -/

/-- Let everything go. -/
def release (b : Workbench) : Workbench :=
  let b := match b.holding with
    | .nothing => b
    | .single store => (b.perform store.release).2
    | .shared manager _ => (b.perform (manager.release fun _ => false)).2
  { b with holding := .nothing, ledger := none, autosaver := none }

/-- Let everything go, and open a store. -/
def openStore (b : Workbench) (config : Config) : Except StoreError Unit × Workbench :=
  match b.release.perform (Store.open config) with
  | (.error error, b) => (.error error, b)
  | (.ok store, b) => (.ok (), { b with holding := .single store })

/-- Let everything go, and open a manager. -/
def openManager (b : Workbench) (config : Config) : Except StoreError Unit × Workbench :=
  match b.release.perform (Manager.open config) with
  | (.error error, b) => (.error error, b)
  | (.ok manager, b) => (.ok (), { b with holding := .shared manager none })

/-- Let everything else go, and close the store in use with a last save. -/
def close (b : Workbench) : Option (Except StoreError Unit) × Workbench :=
  let store := b.current?
  let b := match b.holding with
    | .shared manager current => (b.perform (manager.release fun name => some name = current)).2
    | _ => b
  let b := { b with holding := .nothing, ledger := none, autosaver := none }
  match store with
  | none => (none, b)
  | some store =>
    let (outcome, b) := b.perform store.close
    (some outcome, b)

/-- Use another store of the manager. If it does not open, none is in use. -/
def use (b : Workbench) (name : String) : Option (Except StoreError Unit × Workbench) :=
  (b.withManager (·.use name)).map fun (outcome, b) =>
    match b.holding, outcome with
    | .shared manager _, .ok _ =>
      (outcome, { b with holding := .shared manager (some name), ledger := none })
    | .shared manager _, .error _ =>
      (outcome, { b with holding := .shared manager none, ledger := none })
    | _, _ => (outcome, b)

/-- Run the program of the command line beside what is open. -/
def runInvocation (b : Workbench) (invocation : CommandLine.Invocation) (input : ByteArray) :
    CommandLine.Report × Workbench :=
  b.perform (invocation.run input)

/-- Add to a number again and again, going on past failures, and give the
value that is there in the end. -/
def incrementTimes (s : Store) (key : String) (delta : Number) : Nat → Option Value × Store
  | 0 => (s.get? key, s)
  | n + 1 => incrementTimes (s.increment key delta).2 key delta n

/-! ### Autosaving and time -/

/-- Do something with whatever the autosaver saves. -/
def withTarget (b : Workbench) (target : Autosaver.Target)
    (onStore : Store → Program (α × Store)) (onManager : Manager → Program (α × Manager)) :
    Option (α × Workbench) :=
  match target, b.holding with
  | .all, _ => b.withManager onManager
  | .store _, .single _ => b.withStore onStore
  | .store name, .shared manager current =>
    (manager.stores.get? name).map fun store =>
      let ((result, store), b) := b.perform (onStore store)
      (result, { b with holding := .shared (manager.put store) current })
  | .store _, .nothing => none

/-- Stop saving at regular times. Nothing is saved for a last time, and nothing is let go
with the autosaver: what it saves is open on the workbench as well. -/
def stop (b : Workbench) : Workbench :=
  { b with autosaver := none }

/-- Stop the autosaver that runs, if one does, and start another one. -/
def autosave (b : Workbench) (target : Autosaver.Target) (interval : Duration)
    (flush : Option Duration) : Except StoreError Unit × Workbench :=
  match Autosaver.start target b.clock interval flush with
  | .error error => (.error error, b.stop)
  | .ok autosaver => (.ok (), { b with autosaver := some autosaver })

/-- Stop saving at regular times, and save for a last time. -/
def shutdown (b : Workbench) : Option (Except StoreError Unit × Workbench) :=
  b.autosaver.bind fun autosaver =>
    b.stop.withTarget autosaver.target Store.save Manager.saveAll

/-- See to a tick of the autosaver. -/
def onTick (b : Workbench) (target : Autosaver.Target) (tick : Tick) : Workbench :=
  match b.withTarget target (fun s => return ((), ← s.onTick tick))
      (fun m => return ((), ← m.onTick tick)) with
  | some (_, b) => b
  | none => b

/-- Let time pass, and see to what has come due. -/
def wait (b : Workbench) (time : Duration) : Workbench :=
  let b := { b with clock := b.clock + time.nanos }
  match b.autosaver with
  | none => b
  | some autosaver =>
    let b := (autosaver.due b.clock).foldl (·.onTick autosaver.target) b
    { b with autosaver := some (autosaver.reset b.clock) }

/-- Look again and again, a millisecond apart, until a test holds or the given
number of looks has been in vain. -/
def waitUntil (b : Workbench) (test : Workbench → Bool) : Nat → Bool × Workbench
  | 0 => (test b, b)
  | looks + 1 => if test b then (true, b) else (b.wait (.ofMillis 1)).waitUntil test looks

/-- The store in use has nothing to save. -/
def isClean (b : Workbench) : Bool :=
  b.current?.any (!·.isDirty)

/-- No store of the manager has anything to save. -/
def isAllClean (b : Workbench) : Bool :=
  b.manager?.any (!·.isDirty)

/-- The store in use has a file. -/
def hasFile (b : Workbench) : Bool :=
  b.current?.any fun store => b.disk.contains store.path

end Workbench

end SnapshotStore
