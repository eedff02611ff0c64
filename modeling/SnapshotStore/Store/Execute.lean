import SnapshotStore.Command.Basic
import SnapshotStore.Store.Saving

/-! A store carries out commands. -/
namespace SnapshotStore.Store

/-- Turn the result of an operation into a reply. -/
def replying {α : Type} (reply : α → Reply) (outcome : Except StoreError α × Store) :
    Except StoreError Reply × Store :=
  (outcome.1.map reply, outcome.2)

/-- Carry out a command that needs no disk. Saving does, and is left out. -/
def answer (s : Store) : Command → Except StoreError Reply × Store
  | .get key default => (.ok (.value ((s.get? key).or default)), s)
  | .has key => (.ok (.bool (s.has key)), s)
  | .set key value => replying (fun _ => .ok) (s.set key value)
  | .delete key => (.ok (.bool (s.delete key).1), (s.delete key).2)
  | .increment key delta => replying .number (s.increment key delta)
  | .decrement key delta => replying .number (s.decrement key delta)
  | .push key item => replying .count (s.push key item)
  | .keys stem => (.ok (.keys (s.keys stem)), s)
  | .array key => (.ok (.keys (s.getArray key)), s)
  | .top stem limit => (.ok (.ranking (Ranking.top s.data stem limit)), s)
  | .dump => (.ok (.text s.dump), s)
  | .save => (.ok .ok, s)

/-- Carry out a command. -/
def execute (s : Store) (command : Command) : Program (Except StoreError Reply × Store) :=
  match command with
  | .save => return replying (fun _ => .ok) (← s.save)
  | command => return s.answer command

end SnapshotStore.Store
