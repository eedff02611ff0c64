import SnapshotStore.Disk.Basic

/-! Programs that use a disk and a clock. A program is a tree of requests:
each request waits for its answer, or for the reason why it failed, and
chooses how to go on. The same program runs on a disk that is a value and on
the machine's own. -/
namespace SnapshotStore

/-- One thing that a program asks for. -/
inductive Request where
  | createDirectories (path : Path)
  | read (path : Path)
  | startFile (path : Path)
  | append (path : Path) (content : ByteArray)
  | settle (path : Path)
  | rename (source target : Path)
  | remove (path : Path)
  | clock

/-- What a request brings back. -/
abbrev Request.Answer : Request → Type
  | .read _ => ByteArray
  | .clock => Nat
  | _ => Unit

/-- A program that ends in a value. -/
inductive Program (α : Type) where
  | done (value : α)
  | ask (request : Request) (next : Except Disk.Fault request.Answer → Program α)

namespace Program

variable {α β : Type}

/-- Go on with the value of a program. -/
def bind (p : Program α) (f : α → Program β) : Program β :=
  match p with
  | .done value => f value
  | .ask request next => .ask request fun answer => (next answer).bind f

instance : Monad Program where
  pure := .done
  bind := bind

/-- A single request. -/
def request (r : Request) : Program (Except Disk.Fault r.Answer) :=
  .ask r .done

end Program

namespace Disk

/-- A change that either happens or leaves the disk as it was. -/
def change (d : Disk) : Except Fault Disk → Except Fault Unit × Disk
  | .ok changed => (.ok (), changed)
  | .error fault => (.error fault, d)

/-- How a disk answers one request, and the disk afterwards. The clock shows
the given second. A file of this disk is settled as soon as it is written. -/
def answer (second : Nat) (d : Disk) : (r : Request) → Except Fault r.Answer × Disk
  | .createDirectories path => d.createDirectories path
  | .read path => (d.read path, d)
  | .startFile path => d.change (d.write path ByteArray.empty)
  | .append path content => d.change (d.append path content)
  | .settle _ => (.ok (), d)
  | .rename source target => d.change (d.rename source target)
  | .remove path => d.change (d.remove path)
  | .clock => (.ok second, d)

end Disk

/-- Run a program on a disk, at one second of the clock. -/
def Program.run {α : Type} (second : Nat) : Program α → Disk → α × Disk
  | .done value, d => (value, d)
  | .ask request next, d =>
    let (answer, d) := d.answer second request
    (next answer).run second d

end SnapshotStore
