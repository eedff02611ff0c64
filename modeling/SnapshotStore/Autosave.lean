import SnapshotStore.Manager

/-! Saving at regular times. There are two cadences. On the one everything is
saved, whether or not it has changed; on the other only what has changed since
its last save. A save that fails is tried again when its cadence next comes
due. Times that were missed come due as one. -/
namespace SnapshotStore

/-- A cadence that comes due. -/
inductive Tick where
  | save
  | flush
deriving DecidableEq

namespace Store

/-- What a tick does to a store. -/
def onTick (s : Store) : Tick → Program Store
  | .save => do return (← s.save).2
  | .flush => do return (← s.saveDirty).2

end Store

namespace Manager

/-- What a tick does to the stores of a manager. -/
def onTick (m : Manager) : Tick → Program Manager
  | .save => do return (← m.saveAll).2
  | .flush => if m.isDirty then do return (← m.saveDirty).2 else return m

end Manager

/-- A time at which something comes due, and comes due again after each
further period. -/
structure Alarm where
  period : Nat
  due : Nat

namespace Alarm

/-- An alarm that first comes due one period from now. -/
def start (now : Nat) (period : Duration) : Alarm :=
  ⟨period.nanos, now + period.nanos⟩

def isDue (a : Alarm) (now : Nat) : Bool :=
  a.due ≤ now

/-- The alarm once what is due has been seen to: due at the first of its times
that is still to come. -/
def reset (a : Alarm) (now : Nat) : Alarm :=
  if a.due ≤ now then { a with due := a.due + a.period * ((now - a.due) / a.period + 1) } else a

end Alarm

/-- What is saved at regular times: one store, or all stores of the manager. -/
inductive Autosaver.Target where
  | store (name : String)
  | all
deriving DecidableEq

/-- A running autosaver. -/
structure Autosaver where
  target : Autosaver.Target
  save : Alarm
  flush : Option Alarm

namespace Autosaver

/-- Start saving. Neither cadence may be zero. -/
def start (target : Target) (now : Nat) (interval : Duration) (flush : Option Duration) :
    Except StoreError Autosaver :=
  match Config.checkCadences interval flush .noAutosaveCadence .noFlushCadence with
  | .error fault => .error (.config fault)
  | .ok _ => .ok ⟨target, .start now interval, flush.map (.start now)⟩

/-- What is due, the earlier one first. -/
def due (a : Autosaver) (now : Nat) : List Tick :=
  match a.save.isDue now, a.flush.filter (·.isDue now) with
  | false, none => []
  | true, none => [.save]
  | false, some _ => [.flush]
  | true, some flush => if flush.due < a.save.due then [.flush, .save] else [.save, .flush]

/-- The autosaver once what is due has been seen to. -/
def reset (a : Autosaver) (now : Nat) : Autosaver :=
  { a with save := a.save.reset now, flush := a.flush.map (·.reset now) }

end Autosaver

end SnapshotStore
