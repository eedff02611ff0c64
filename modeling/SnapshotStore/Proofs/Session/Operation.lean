import Mathlib.Tactic.SplitIfs
import SnapshotStore.KeyMap.Lemmas
import SnapshotStore.Session

/-! Everything that can be done with the registry of sessions, as data, and runs of
it. Nothing is assumed of the instants in a run: each operation has its own, and they
may go back. -/
namespace SnapshotStore

namespace SessionRegistry

/-- An operation on the registry, by the type of its result. -/
inductive Operation : Type → Type where
  | touch (identity : String) (now : Instant) : Operation Bool
  | setAway (identity : String) (away : Bool) (now : Instant) : Operation Unit
  | isAway (identity : String) : Operation Bool
  | sweep (threshold : Duration) (now : Instant) : Operation (List String)
  | tryCooldown (identity action : String) (cooldown : Duration) (now : Instant) :
      Operation (Except Duration Unit)
  | setFlag (identity flag : String) (on : Bool) (now : Instant) : Operation Unit
  | toggleFlag (identity flag : String) (now : Instant) : Operation Bool
  | hasFlag (identity flag : String) : Operation Bool
  | setLocation (identity place : String) (now : Instant) : Operation Unit
  | location (identity : String) : Operation (Option String)
  | get (identity : String) : Operation (Option Session)
  | remove (identity : String) : Operation Bool
  | size : Operation Nat

/-- Carry out an operation. Those that only read leave the registry as it is. -/
def Operation.perform {α : Type} (r : SessionRegistry) : Operation α → α × SessionRegistry
  | .touch identity now => r.touch identity now
  | .setAway identity away now => ((), r.setAway identity away now)
  | .isAway identity => (r.isAway identity, r)
  | .sweep threshold now => r.sweep threshold now
  | .tryCooldown identity action cooldown now => r.tryCooldown identity action cooldown now
  | .setFlag identity flag on now => ((), r.setFlag identity flag on now)
  | .toggleFlag identity flag now => r.toggleFlag identity flag now
  | .hasFlag identity flag => (r.hasFlag identity flag, r)
  | .setLocation identity place now => ((), r.setLocation identity place now)
  | .location identity => (r.location? identity, r)
  | .get identity => (r.get? identity, r)
  | .remove identity => r.remove identity
  | .size => (r.size, r)

/-- The operation ends the session of an identity. -/
def Operation.Removes {α : Type} : Operation α → String → Prop
  | .remove other, identity => other = identity
  | _, _ => False

/-! ### Sessions -/

variable {α : Type} {r r' : SessionRegistry}

theorem get?_modify (r : SessionRegistry) (identity other : String) (now : Instant)
    (change : Session → α × Session) :
    (r.modify identity now change).2.get? other =
      if other = identity then some (change ((r.get? identity).getD (.start now))).2
      else r.get? other :=
  KeyMap.get?_insert r.sessions identity other _

theorem get?_remove (r : SessionRegistry) (identity other : String) :
    (r.remove identity).2.get? other = if other = identity then none else r.get? other :=
  KeyMap.get?_erase r.sessions identity other

theorem get?_sweep (r : SessionRegistry) (threshold : Duration) (now : Instant)
    (identity : String) :
    (r.sweep threshold now).2.get? identity = (r.get? identity).map fun s =>
      if isNewlyIdle threshold now s then { s with away := true } else s :=
  KeyMap.get?_mapValues r.sessions _ identity

/-- A session that comes out of a change as it was leaves the registry as it was. -/
theorem modify_snd_of_same {identity : String} {s : Session} (now : Instant)
    {change : Session → α × Session} (h : r.get? identity = some s) (hSame : (change s).2 = s) :
    (r.modify identity now change).2 = r := by
  suffices hSessions : (r.modify identity now change).2.sessions = r.sessions from
    congrArg SessionRegistry.mk hSessions
  refine KeyMap.ext_get? fun other => ?_
  have hView := get?_modify r identity other now change
  rw [h, Option.getD_some, hSame] at hView
  refine hView.trans ?_
  split_ifs with hOther
  · rw [hOther]
    exact h.symm
  · rfl

/-! ### Runs -/

/-- An operation that was carried out, with its result. -/
structure Entry where
  {α : Type}
  operation : Operation α
  result : α

/-- The operations of the log, one after another, take the one registry to the other. -/
inductive Ran : SessionRegistry → List Entry → SessionRegistry → Prop where
  | nil (r : SessionRegistry) : Ran r [] r
  | cons {α : Type} {operation : Operation α} {result : α} {log : List Entry}
      {r middle r' : SessionRegistry} (first : operation.perform r = (result, middle))
      (rest : Ran middle log r') : Ran r (⟨operation, result⟩ :: log) r'

theorem Ran.append_inv {before after : List Entry} (h : Ran r (before ++ after) r') :
    ∃ middle, Ran r before middle ∧ Ran middle after r' := by
  induction before generalizing r with
  | nil => exact ⟨r, .nil r, h⟩
  | cons entry before ih =>
      cases h with
      | cons first rest =>
          obtain ⟨middle, hBefore, hAfter⟩ := ih rest
          exact ⟨middle, .cons first hBefore, hAfter⟩

end SessionRegistry

end SnapshotStore
