import SnapshotStore.Proofs.Session.Operation

/-! Sessions of different identities. What an operation on one identity gives, and what it
makes of the session, depends on that session alone, and no other session is touched. So
operations on different identities can change places, and all that counts in a run is
which operations there were on each identity, and their order. -/
namespace SnapshotStore

namespace SessionRegistry

variable {α β : Type} {r r' middle : SessionRegistry} {identity other a b : String}

/-- The identity that an operation is on. A sweep is on none, nor is counting. -/
def Operation.identity? : Operation α → Option String
  | .touch identity _ => some identity
  | .setAway identity _ _ => some identity
  | .isAway identity => some identity
  | .tryCooldown identity _ _ _ => some identity
  | .setFlag identity _ _ _ => some identity
  | .toggleFlag identity _ _ => some identity
  | .hasFlag identity _ => some identity
  | .setLocation identity _ _ => some identity
  | .location identity => some identity
  | .get identity => some identity
  | .remove identity => some identity
  | .sweep _ _ | .size => none

/-- The instant at which an operation begins a session, if it needs one and there is none. -/
def Operation.begins? : Operation α → Option Instant
  | .touch _ now => some now
  | .setAway _ _ now => some now
  | .tryCooldown _ _ _ now => some now
  | .setFlag _ _ _ now => some now
  | .toggleFlag _ _ now => some now
  | .setLocation _ _ now => some now
  | _ => none

/-! ### One operation -/

/-- What an operation at an instant may make of a session that is there. Only a touch sets
the time of the last activity. -/
inductive Continues (now : Instant) (s : Session) : Session → Prop where
  | touched : Continues now s { s with lastActivity := now, away := false }
  | away (away : Bool) : Continues now s { s with away }
  | waits (cooldowns : KeyMap Cooldown) : Continues now s { s with cooldowns }
  | flags (flags : KeyMap Unit) : Continues now s { s with flags }
  | located (location : Option String) : Continues now s { s with location }

theorem Continues.lastActivity {now : Instant} {s : Session} (h : Continues now (.start now) s) :
    s.lastActivity = now := by
  cases h <;> rfl

/-- Everything that an operation on an identity can do: it reads, ends the session, or
changes the session, which it begins before if there is none. -/
theorem Operation.kinds {operation : Operation α} (h : operation.identity? = some identity) :
    (∃ result : Option Session → α, ∀ r,
      operation.perform r = (result (r.get? identity), r)) ∨
    (∃ result : Option Session → α, ∀ r,
      operation.perform r = (result (r.get? identity), (r.remove identity).2)) ∨
    ∃ now change, operation.begins? = some now ∧ (∀ s, Continues now s (change s).2) ∧
      ∀ r, operation.perform r = r.modify identity now change := by
  cases operation with
  | touch _ now =>
      cases h
      exact Or.inr (Or.inr ⟨now, fun s => (s.away, { s with lastActivity := now, away := false }),
        rfl, fun _ => .touched, fun _ => rfl⟩)
  | setAway _ away now =>
      cases h
      exact Or.inr (Or.inr ⟨now, fun s => ((), { s with away }), rfl, fun _ => .away away,
        fun _ => rfl⟩)
  | isAway _ =>
      cases h
      exact Or.inl ⟨fun s => s.any Session.away, fun _ => rfl⟩
  | tryCooldown _ action cooldown now =>
      cases h
      refine Or.inr (Or.inr ⟨now, _, rfl, fun s => ?_,
        fun r => show r.tryCooldown identity action cooldown now = _ from rfl⟩)
      cases s.remaining? action now with
      | some remaining => exact .away s.away
      | none => exact .waits _
  | setFlag _ flag on now =>
      cases h
      exact Or.inr (Or.inr ⟨now, fun s => ((), s.setFlag flag on), rfl, fun _ => .flags _,
        fun _ => rfl⟩)
  | toggleFlag _ flag now =>
      cases h
      exact Or.inr (Or.inr ⟨now, fun s => (!s.hasFlag flag, s.setFlag flag (!s.hasFlag flag)), rfl,
        fun _ => .flags _, fun _ => rfl⟩)
  | hasFlag _ flag =>
      cases h
      exact Or.inl ⟨fun s => s.any (·.hasFlag flag), fun _ => rfl⟩
  | setLocation _ place now =>
      cases h
      exact Or.inr (Or.inr ⟨now, fun s => ((), { s with location := some place }), rfl,
        fun _ => .located _, fun _ => rfl⟩)
  | location _ =>
      cases h
      exact Or.inl ⟨fun s => s.bind Session.location, fun _ => rfl⟩
  | get _ =>
      cases h
      exact Or.inl ⟨id, fun _ => rfl⟩
  | remove _ =>
      cases h
      exact Or.inr (Or.inl ⟨Option.isSome, fun _ => rfl⟩)
  | sweep _ _ => cases h
  | size => cases h

/-- Other sessions stay as they are. -/
theorem get?_perform_of_ne {operation : Operation α} (h : operation.identity? = some identity)
    (hOther : other ≠ identity) (r : SessionRegistry) :
    (operation.perform r).2.get? other = r.get? other := by
  rcases operation.kinds h with ⟨result, hPerform⟩ | ⟨result, hPerform⟩ |
    ⟨now, change, -, -, hPerform⟩
  · rw [hPerform]
  · rw [hPerform, get?_remove, if_neg hOther]
  · rw [hPerform, get?_modify, if_neg hOther]

/-- Only the session of the identity counts. -/
theorem perform_congr {operation : Operation α} (h : operation.identity? = some identity)
    (hSame : r'.get? identity = r.get? identity) :
    (operation.perform r').1 = (operation.perform r).1 ∧
      (operation.perform r').2.get? identity = (operation.perform r).2.get? identity := by
  rcases operation.kinds h with ⟨result, hPerform⟩ | ⟨result, hPerform⟩ |
    ⟨now, change, -, -, hPerform⟩
  · simp only [hPerform, hSame, and_self]
  · simp only [hPerform, get?_remove, hSame, if_true, and_self]
  · refine ⟨?_, ?_⟩
    · simp only [hPerform, modify, hSame]
    · simp only [hPerform, get?_modify, hSame]

/-- A session that an operation has begun was last active at the instant of the
operation. -/
theorem begins_of_missing {operation : Operation α} {s : Session}
    (h : operation.identity? = some identity) (hMissing : r.get? identity = none)
    (hFound : (operation.perform r).2.get? identity = some s) :
    operation.begins? = some s.lastActivity := by
  rcases operation.kinds h with ⟨result, hPerform⟩ | ⟨result, hPerform⟩ |
    ⟨now, change, hBegins, hChange, hPerform⟩
  · rw [hPerform, hMissing] at hFound
    cases hFound
  · rw [hPerform, get?_remove, if_pos rfl] at hFound
    cases hFound
  · rw [hPerform, get?_modify, if_pos rfl, hMissing, Option.getD_none] at hFound
    rw [hBegins, ← Option.some.inj hFound, (hChange _).lastActivity]

/-- A session that is there goes on. -/
theorem continues_of_found {operation : Operation α} {s s' : Session}
    (h : operation.identity? = some identity) (hFound : r.get? identity = some s)
    (hAfter : (operation.perform r).2.get? identity = some s') :
    s' = s ∨ ∃ now, operation.begins? = some now ∧ Continues now s s' := by
  rcases operation.kinds h with ⟨result, hPerform⟩ | ⟨result, hPerform⟩ |
    ⟨now, change, hBegins, hChange, hPerform⟩
  · rw [hPerform, hFound] at hAfter
    exact Or.inl (Option.some.inj hAfter).symm
  · rw [hPerform, get?_remove, if_pos rfl] at hAfter
    cases hAfter
  · rw [hPerform, get?_modify, if_pos rfl, hFound, Option.getD_some] at hAfter
    exact Or.inr ⟨now, hBegins, Option.some.inj hAfter ▸ hChange s⟩

/-! ### Two operations -/

theorem ext_get? (h : ∀ identity, r.get? identity = r'.get? identity) : r = r' :=
  congrArg SessionRegistry.mk (KeyMap.ext_get? (m := r.sessions) (n := r'.sessions) h)

/-- Operations on different identities can change places. -/
theorem perform_comm {x : Operation α} {y : Operation β} (hx : x.identity? = some a)
    (hy : y.identity? = some b) (hNames : a ≠ b) (r : SessionRegistry) :
    (y.perform (x.perform r).2).2 = (x.perform (y.perform r).2).2 := by
  refine ext_get? fun identity => ?_
  by_cases hA : identity = a
  · subst hA
    rw [get?_perform_of_ne hy hNames]
    exact (perform_congr hx (get?_perform_of_ne hy hNames r)).2.symm
  · rw [get?_perform_of_ne hx hA]
    by_cases hB : identity = b
    · subst hB
      exact (perform_congr hy (get?_perform_of_ne hx hA r)).2
    · rw [get?_perform_of_ne hy hB, get?_perform_of_ne hx hA, get?_perform_of_ne hy hB]

/-! ### Runs -/

/-- An operation that is called, whatever comes of it. -/
abbrev Call : Type 1 :=
  Sigma Operation

/-- The call is on this identity. -/
def Call.isOn (identity : String) (c : Call) : Bool :=
  c.2.identity? = some identity

def Entry.call (e : Entry) : Call :=
  ⟨e.α, e.operation⟩

/-- The call of the entry is on this identity. -/
def Entry.isOn (identity : String) (e : Entry) : Bool :=
  e.call.isOn identity

/-- The third list has the members of the first two, each in their own order. -/
inductive Interleaves {ι : Type*} : List ι → List ι → List ι → Prop where
  | nil : Interleaves [] [] []
  | left {x : ι} {xs ys zs : List ι} (rest : Interleaves xs ys zs) :
      Interleaves (x :: xs) ys (x :: zs)
  | right {y : ι} {xs ys zs : List ι} (rest : Interleaves xs ys zs) :
      Interleaves xs (y :: ys) (y :: zs)

section Interleaves

variable {ι : Type*} {xs ys zs : List ι} {p : ι → Bool}

theorem interleaves_append (xs ys : List ι) : Interleaves xs ys (xs ++ ys) := by
  induction xs with
  | nil =>
      induction ys with
      | nil => exact .nil
      | cons y ys ih => exact .right ih
  | cons x xs ih => exact .left ih

theorem Interleaves.filter_eq_left (h : Interleaves xs ys zs) (hRight : ∀ y ∈ ys, p y = false) :
    zs.filter p = xs.filter p := by
  induction h with
  | nil => rfl
  | left rest ih => rw [List.filter_cons, List.filter_cons, ih hRight]
  | right rest ih =>
      obtain ⟨hFirst, hOthers⟩ := List.forall_mem_cons.mp hRight
      rw [List.filter_cons_of_neg (by rw [hFirst]; decide), ih hOthers]

theorem Interleaves.filter_eq_right (h : Interleaves xs ys zs) (hLeft : ∀ x ∈ xs, p x = false) :
    zs.filter p = ys.filter p := by
  induction h with
  | nil => rfl
  | left rest ih =>
      obtain ⟨hFirst, hOthers⟩ := List.forall_mem_cons.mp hLeft
      rw [List.filter_cons_of_neg (by rw [hFirst]; decide), ih hOthers]
  | right rest ih => rw [List.filter_cons, List.filter_cons, ih hLeft]

theorem Interleaves.mem (h : Interleaves xs ys zs) {z : ι} (hz : z ∈ zs) : z ∈ xs ∨ z ∈ ys := by
  induction h with
  | nil => cases hz
  | left rest ih =>
      rcases List.mem_cons.mp hz with rfl | hz
      · exact Or.inl List.mem_cons_self
      · exact (ih hz).imp_left (List.mem_cons_of_mem _)
  | right rest ih =>
      rcases List.mem_cons.mp hz with rfl | hz
      · exact Or.inr List.mem_cons_self
      · exact (ih hz).imp_right (List.mem_cons_of_mem _)

end Interleaves

variable {log log' : List Entry} {q q' : SessionRegistry} {xs ys zs zs' : List Call}

/-- Whatever is called can be carried out. -/
theorem exists_ran (r : SessionRegistry) (calls : List Call) :
    ∃ log q, Ran r log q ∧ log.map Entry.call = calls := by
  induction calls generalizing r with
  | nil => exact ⟨[], r, .nil r, rfl⟩
  | cons c calls ih =>
      obtain ⟨log, q, hRan, hCalls⟩ := ih (c.2.perform r).2
      exact ⟨⟨c.2, _⟩ :: log, q, .cons rfl hRan, congrArg (c :: ·) hCalls⟩

/-- The calls decide what comes of them. -/
theorem Ran.eq_of_calls (h : Ran r log q) (h' : Ran r log' q')
    (hCalls : log.map Entry.call = log'.map Entry.call) : log = log' ∧ q = q' := by
  induction h generalizing log' with
  | nil r =>
      obtain rfl : log' = [] := List.map_eq_nil_iff.mp hCalls.symm
      cases h'
      exact ⟨rfl, rfl⟩
  | cons first rest ih =>
      cases h' with
      | nil => cases hCalls
      | cons first' rest' =>
          obtain ⟨hCall, hOthers⟩ := List.cons.inj hCalls
          cases hCall
          obtain ⟨rfl, rfl⟩ := Prod.mk.inj (first.symm.trans first')
          obtain ⟨rfl, rfl⟩ := ih rest' hOthers
          exact ⟨rfl, rfl⟩

/-- What a run makes of one session, the calls on its identity make of it alone. -/
theorem Ran.alone (h : Ran r log q) (hOn : ∀ e ∈ log, ∃ identity, e.isOn identity = true)
    (hSame : r'.get? identity = r.get? identity) :
    ∃ p, Ran r' (log.filter (Entry.isOn identity)) p ∧ p.get? identity = q.get? identity := by
  induction h generalizing r' with
  | nil r => exact ⟨r', .nil r', hSame⟩
  | @cons α operation result log r middle q first rest ih =>
      obtain ⟨⟨other, hOther⟩, hRest⟩ := List.forall_mem_cons.mp hOn
      have hOther' : operation.identity? = some other := of_decide_eq_true hOther
      obtain rfl : (operation.perform r).2 = middle := congrArg Prod.snd first
      by_cases hOwn : identity = other
      · subst hOwn
        obtain ⟨hResult, hSession⟩ := perform_congr hOther' hSame
        obtain ⟨p, hRan, hLast⟩ := ih hRest hSession
        rw [List.filter_cons_of_pos hOther]
        refine ⟨p, .cons (Prod.ext ?_ rfl) hRan, hLast⟩
        rw [hResult, first]
      · rw [List.filter_cons_of_neg fun hIs =>
          hOwn (Option.some.inj ((of_decide_eq_true hIs).symm.trans hOther'))]
        exact ih hRest (hSame.trans (get?_perform_of_ne hOther' hOwn r).symm)

/-- All that counts in a run is which calls there were on each identity, and their order. -/
theorem Ran.eq_of_calls_on (h : Ran r log q) (h' : Ran r log' q')
    (hOn : ∀ e ∈ log, ∃ identity, e.isOn identity = true)
    (hOn' : ∀ e ∈ log', ∃ identity, e.isOn identity = true)
    (hCalls : ∀ identity, (log.map Entry.call).filter (Call.isOn identity) =
      (log'.map Entry.call).filter (Call.isOn identity)) :
    (∀ identity, log.filter (Entry.isOn identity) = log'.filter (Entry.isOn identity)) ∧
      q = q' := by
  have hBoth : ∀ identity, log.filter (Entry.isOn identity) = log'.filter (Entry.isOn identity) ∧
      q.get? identity = q'.get? identity := fun identity => by
    have hSelf : r.get? identity = r.get? identity := rfl
    obtain ⟨p, hAlone, hLast⟩ := h.alone hOn hSelf
    obtain ⟨p', hAlone', hLast'⟩ := h'.alone hOn' hSelf
    have hSame := hCalls identity
    rw [List.filter_map, List.filter_map] at hSame
    obtain ⟨hLog, rfl⟩ := hAlone.eq_of_calls hAlone' hSame
    exact ⟨hLog, hLast.symm.trans hLast'⟩
  exact ⟨fun identity => (hBoth identity).1, ext_get? fun identity => (hBoth identity).2⟩

/-! ### Two identities -/

theorem isOn_eq_false {c : Call} (h : c.isOn a = true) (hOther : identity ≠ a) :
    c.isOn identity = false :=
  decide_eq_false fun hIs => hOther (Option.some.inj (hIs.symm.trans (of_decide_eq_true h)))

/-- Interleavings have the same calls on each identity, in the same order. -/
theorem Interleaves.filter_isOn_eq (h : Interleaves xs ys zs) (h' : Interleaves xs ys zs')
    (hNames : a ≠ b) (hXs : ∀ c ∈ xs, c.isOn a = true) (hYs : ∀ c ∈ ys, c.isOn b = true)
    (identity : String) :
    zs.filter (Call.isOn identity) = zs'.filter (Call.isOn identity) := by
  by_cases hB : identity = b
  · have hNone : ∀ c ∈ xs, c.isOn identity = false :=
      fun c hc => isOn_eq_false (hXs c hc) (hB ▸ hNames.symm)
    rw [h.filter_eq_right hNone, h'.filter_eq_right hNone]
  · have hNone : ∀ c ∈ ys, c.isOn identity = false := fun c hc => isOn_eq_false (hYs c hc) hB
    rw [h.filter_eq_left hNone, h'.filter_eq_left hNone]

/-- Interleavings of calls on two identities come to the same. -/
theorem Ran.eq_of_interleaves (h : Ran r log q) (h' : Ran r log' q') (hNames : a ≠ b)
    (hXs : ∀ c ∈ xs, c.isOn a = true) (hYs : ∀ c ∈ ys, c.isOn b = true)
    (hCalls : Interleaves xs ys (log.map Entry.call))
    (hCalls' : Interleaves xs ys (log'.map Entry.call)) :
    (∀ identity, log.filter (Entry.isOn identity) = log'.filter (Entry.isOn identity)) ∧
      q = q' := by
  have hOn : ∀ {log : List Entry}, Interleaves xs ys (log.map Entry.call) →
      ∀ e ∈ log, ∃ identity, e.isOn identity = true := fun hCalls e he =>
    (hCalls.mem (List.mem_map_of_mem he)).elim (fun hMem => ⟨a, hXs _ hMem⟩)
      fun hMem => ⟨b, hYs _ hMem⟩
  exact h.eq_of_calls_on h' (hOn hCalls) (hOn hCalls')
    (hCalls.filter_isOn_eq hCalls' hNames hXs hYs)

/-- Sessions of different identities do not interfere. An operation on the one and an
operation on the other give the same in either order, leave the same registry, and leave
each other's session as it is, so nothing that can be read of it changes. And so it is with
operations on the one, interleaved with operations on the other: however they are, each of
them gives the same, and the registry is the same in the end. An operation begins no session
but that of its identity, and none where there is one; a session that it begins was last
active at its instant, and one that is there goes on. -/
theorem sessions_apart (r : SessionRegistry) (hNames : a ≠ b) :
    (∀ {α β : Type} (x : Operation α) (y : Operation β), x.identity? = some a →
      y.identity? = some b →
      (y.perform (x.perform r).2).1 = (y.perform r).1 ∧
      (x.perform (y.perform r).2).1 = (x.perform r).1 ∧
      (y.perform (x.perform r).2).2 = (x.perform (y.perform r).2).2 ∧
      (x.perform r).2.get? b = r.get? b ∧ (y.perform r).2.get? a = r.get? a) ∧
    (∀ xs ys : List Call, (∀ c ∈ xs, c.isOn a = true) → (∀ c ∈ ys, c.isOn b = true) →
      ∃ onA onB q,
        (∀ zs, Interleaves xs ys zs → ∃ log, Ran r log q ∧ log.map Entry.call = zs) ∧
        ∀ log q', Ran r log q' → Interleaves xs ys (log.map Entry.call) →
          log.filter (Entry.isOn a) = onA ∧ log.filter (Entry.isOn b) = onB ∧ q' = q) ∧
    (∀ {α : Type} (x : Operation α), x.identity? = some a →
      (∀ other, other ≠ a → (x.perform r).2.get? other = r.get? other) ∧
      ∀ s', (x.perform r).2.get? a = some s' →
        (r.get? a = none → x.begins? = some s'.lastActivity) ∧
        ∀ s, r.get? a = some s →
          s' = s ∨ ∃ now, x.begins? = some now ∧ Continues now s s') := by
  refine ⟨fun x y hx hy => ?_, fun xs ys hXs hYs => ?_, fun x hx => ?_⟩
  · exact ⟨(perform_congr hy (get?_perform_of_ne hx hNames.symm r)).1,
      (perform_congr hx (get?_perform_of_ne hy hNames r)).1, perform_comm hx hy hNames r,
      get?_perform_of_ne hx hNames.symm r, get?_perform_of_ne hy hNames r⟩
  · obtain ⟨log₀, q₀, hRan₀, hCalls₀⟩ := exists_ran r (xs ++ ys)
    have hInterleaves₀ : Interleaves xs ys (log₀.map Entry.call) :=
      hCalls₀ ▸ interleaves_append xs ys
    refine ⟨log₀.filter (Entry.isOn a), log₀.filter (Entry.isOn b), q₀, fun zs hZs => ?_,
      fun log q hRan hCalls => ?_⟩
    · obtain ⟨log, q, hRan, rfl⟩ := exists_ran r zs
      obtain ⟨-, rfl⟩ := hRan.eq_of_interleaves hRan₀ hNames hXs hYs hZs hInterleaves₀
      exact ⟨log, hRan, rfl⟩
    · obtain ⟨hLogs, hSame⟩ := hRan.eq_of_interleaves hRan₀ hNames hXs hYs hCalls hInterleaves₀
      exact ⟨hLogs a, hLogs b, hSame⟩
  · exact ⟨fun other hOther => get?_perform_of_ne hx hOther r, fun s' hAfter =>
      ⟨fun hMissing => begins_of_missing hx hMissing hAfter,
        fun s hFound => continues_of_found hx hFound hAfter⟩⟩

/-- A location of `b` is noted before, between or after a touch of `a` and the switching of
a flag: the touch finds that `a` was not away, and the flag is on. -/
theorem sessions_apart_touched : ∃ onA onB q,
    (∀ zs, Interleaves [⟨_, .touch "a" ⟨5, by decide⟩⟩, ⟨_, .toggleFlag "a" "god" ⟨9, by decide⟩⟩]
        [⟨_, .setLocation "b" "hall" ⟨3, by decide⟩⟩] zs →
      ∃ log, Ran .empty log q ∧ log.map Entry.call = zs ∧ log.filter (Entry.isOn "a") = onA ∧
        log.filter (Entry.isOn "b") = onB) ∧
    onA = [⟨.touch "a" ⟨5, by decide⟩, false⟩, ⟨.toggleFlag "a" "god" ⟨9, by decide⟩, true⟩] := by
  obtain ⟨-, hRuns, -⟩ := sessions_apart (a := "a") (b := "b") .empty (by decide)
  obtain ⟨onA, onB, q, hExists, hSame⟩ := hRuns
    [⟨_, .touch "a" ⟨5, by decide⟩⟩, ⟨_, .toggleFlag "a" "god" ⟨9, by decide⟩⟩]
    [⟨_, .setLocation "b" "hall" ⟨3, by decide⟩⟩] (by simp [Call.isOn, Operation.identity?])
    (by simp [Call.isOn, Operation.identity?])
  refine ⟨onA, onB, q, fun zs hZs => ?_, ?_⟩
  · obtain ⟨log, hRan, rfl⟩ := hExists zs hZs
    obtain ⟨hOnA, hOnB, -⟩ := hSame log q hRan hZs
    exact ⟨log, hRan, rfl, hOnA, hOnB⟩
  · have hRan : Ran .empty [⟨.touch "a" ⟨5, by decide⟩, false⟩,
        ⟨.setLocation "b" "hall" ⟨3, by decide⟩, ()⟩,
        ⟨.toggleFlag "a" "god" ⟨9, by decide⟩, true⟩] _ :=
      .cons rfl (.cons rfl (.cons rfl (.nil _)))
    exact (hSame _ _ hRan (.left (.right (.left .nil)))).1.symm

end SessionRegistry

end SnapshotStore
