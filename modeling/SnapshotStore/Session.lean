import SnapshotStore.KeyMap.Basic
import SnapshotStore.Time.Instant

/-! What is known of those who are present, and is never saved: when they were
last active, whether they are away, where they were last seen, which actions
they have to wait for, and what is switched on for them. A session begins with
the first operation that needs one. -/
namespace SnapshotStore

/-- When an action may be started again. -/
inductive Cooldown where
  | until (ready : Instant)
  | never
deriving DecidableEq

/-- What is known of one identity. -/
structure Session where
  lastActivity : Instant
  away : Bool
  location : Option String
  cooldowns : KeyMap Cooldown
  flags : KeyMap Unit

namespace Session

/-- A session that begins now. -/
def start (now : Instant) : Session :=
  ⟨now, false, none, .empty, .empty⟩

/-- How long an action has still to wait. Waiting that never ends is reported
as the longest duration. -/
def remaining? (s : Session) (action : String) (now : Instant) : Option Duration :=
  match s.cooldowns.get? action with
  | some .never => some .max
  | some (.until ready) => if now.nanos < ready.nanos then some (ready.since now) else none
  | none => none

/-- Make an action wait. -/
def wait (s : Session) (action : String) (cooldown : Duration) (now : Instant) : Session :=
  let ending := match now.add? cooldown with
    | some ready => .until ready
    | none => .never
  { s with cooldowns := s.cooldowns.insert action ending }

def hasFlag (s : Session) (flag : String) : Bool :=
  s.flags.contains flag

def setFlag (s : Session) (flag : String) (on : Bool) : Session :=
  { s with flags := if on then s.flags.insert flag () else s.flags.erase flag }

/-- Long enough without activity. Activity still to come counts as none. -/
def isIdle (s : Session) (threshold : Duration) (now : Instant) : Bool :=
  threshold.nanos ≤ (now.since s.lastActivity).nanos

end Session

/-- The sessions of all identities. -/
structure SessionRegistry where
  sessions : KeyMap Session

namespace SessionRegistry

variable {α : Type}

def empty : SessionRegistry :=
  ⟨.empty⟩

instance : Inhabited SessionRegistry :=
  ⟨empty⟩

def size (r : SessionRegistry) : Nat :=
  r.sessions.size

/-- The session of an identity, if it has one. -/
def get? (r : SessionRegistry) (identity : String) : Option Session :=
  r.sessions.get? identity

/-- Change the session of an identity, which begins now if there is none. -/
def modify (r : SessionRegistry) (identity : String) (now : Instant)
    (change : Session → α × Session) : α × SessionRegistry :=
  let (result, session) := change ((r.get? identity).getD (.start now))
  (result, ⟨r.sessions.insert identity session⟩)

/-- Note activity, which ends being away; says whether the identity was away. -/
def touch (r : SessionRegistry) (identity : String) (now : Instant) : Bool × SessionRegistry :=
  r.modify identity now fun s => (s.away, { s with lastActivity := now, away := false })

def setAway (r : SessionRegistry) (identity : String) (away : Bool) (now : Instant) :
    SessionRegistry :=
  (r.modify identity now fun s => ((), { s with away })).2

def isAway (r : SessionRegistry) (identity : String) : Bool :=
  (r.get? identity).any Session.away

/-- A session that a sweep finds newly idle. -/
def isNewlyIdle (threshold : Duration) (now : Instant) (s : Session) : Bool :=
  !s.away && s.isIdle threshold now

/-- Mark everyone idle as away, and name those who were not before, in order. -/
def sweep (r : SessionRegistry) (threshold : Duration) (now : Instant) :
    List String × SessionRegistry :=
  ((r.sessions.filter fun entry => isNewlyIdle threshold now entry.2).keys,
    ⟨r.sessions.mapValues fun _ s =>
      if isNewlyIdle threshold now s then { s with away := true } else s⟩)

/-- Start the wait of an action, unless it is still waiting: then say for how
much longer, and change nothing about it. -/
def tryCooldown (r : SessionRegistry) (identity action : String) (cooldown : Duration)
    (now : Instant) : Except Duration Unit × SessionRegistry :=
  r.modify identity now fun s =>
    match s.remaining? action now with
    | some remaining => (.error remaining, s)
    | none => (.ok (), s.wait action cooldown now)

def setFlag (r : SessionRegistry) (identity flag : String) (on : Bool) (now : Instant) :
    SessionRegistry :=
  (r.modify identity now fun s => ((), s.setFlag flag on)).2

/-- Switch a flag over, and say how it stands now. -/
def toggleFlag (r : SessionRegistry) (identity flag : String) (now : Instant) :
    Bool × SessionRegistry :=
  r.modify identity now fun s => (!s.hasFlag flag, s.setFlag flag (!s.hasFlag flag))

def hasFlag (r : SessionRegistry) (identity flag : String) : Bool :=
  (r.get? identity).any (·.hasFlag flag)

def setLocation (r : SessionRegistry) (identity location : String) (now : Instant) :
    SessionRegistry :=
  (r.modify identity now fun s => ((), { s with location := some location })).2

def location? (r : SessionRegistry) (identity : String) : Option String :=
  (r.get? identity).bind Session.location

/-- End a session, and say whether there was one. -/
def remove (r : SessionRegistry) (identity : String) : Bool × SessionRegistry :=
  (r.sessions.contains identity, ⟨r.sessions.erase identity⟩)

end SessionRegistry

end SnapshotStore
