import Mathlib.Tactic.ByContra
import SnapshotStore.Proofs.Session.Operation

/-! Cooldowns. What stands for an action is what the last admitted call has set, and
nothing but another admitted call or the end of the session changes it. So no call is
admitted before that has passed, whatever the clocks of the calls show. -/
namespace SnapshotStore

/-- The wait that begins at an instant. One that the clock cannot show never ends. -/
def Cooldown.starting (start : Instant) (cooldown : Duration) : Cooldown :=
  match start.add? cooldown with
  | some ready => .until ready
  | none => .never

/-- The wait is over by this instant. -/
def Cooldown.IsOverBy : Cooldown → Instant → Prop
  | .until ready, now => ready.nanos ≤ now.nanos
  | .never, _ => False

/-- What the wait still takes at an instant at which it is not over. -/
def Cooldown.rest : Cooldown → Instant → Duration
  | .until ready, now => ready.since now
  | .never, _ => .max

/-- The wait is over no earlier than another one. -/
def Cooldown.Outlasts (c other : Cooldown) : Prop :=
  ∀ now, c.IsOverBy now → other.IsOverBy now

theorem Instant.add?_eq_some {start ready : Instant} {d : Duration}
    (h : start.add? d = some ready) : ready.nanos = start.nanos + d.nanos := by
  unfold add? ofNanos? at h
  split_ifs at h
  rw [← Option.some.inj h]

namespace Cooldown

variable {start now : Instant} {cooldown : Duration}

theorem starting_cases (start : Instant) (cooldown : Duration) :
    (∃ ready, start.add? cooldown = some ready ∧ ready.nanos = start.nanos + cooldown.nanos ∧
      starting start cooldown = .until ready) ∨
    start.add? cooldown = none ∧ starting start cooldown = .never := by
  unfold starting
  cases hReady : start.add? cooldown with
  | none => exact Or.inr ⟨rfl, rfl⟩
  | some ready => exact Or.inl ⟨ready, rfl, Instant.add?_eq_some hReady, rfl⟩

/-- A wait is over no earlier than it takes from its start. -/
theorem le_of_isOverBy_starting (h : (starting start cooldown).IsOverBy now) :
    start.nanos + cooldown.nanos ≤ now.nanos := by
  rcases starting_cases start cooldown with ⟨ready, -, hEnd, hStarting⟩ | ⟨-, hStarting⟩
  · rw [hStarting] at h
    exact hEnd ▸ h
  · rw [hStarting] at h
    cases h

theorem starting_of_add?_eq_none (h : start.add? cooldown = none) :
    starting start cooldown = .never := by
  rw [starting, h]

/-- A wait that begins when another one is over lasts longer. -/
theorem starting_outlasts {c : Cooldown} (h : c.IsOverBy start) (cooldown : Duration) :
    (starting start cooldown).Outlasts c := by
  intro now hOver
  have hLater := le_of_isOverBy_starting hOver
  cases c with
  | never => cases h
  | «until» ready =>
      have hStart : ready.nanos ≤ start.nanos := h
      change ready.nanos ≤ now.nanos
      omega

theorem eq_never_of_outlasts {c : Cooldown} (h : c.Outlasts .never) : c = .never := by
  cases c with
  | never => rfl
  | «until» ready => exact (h ready (Nat.le_refl _)).elim

/-- Unless the wait never ends, its end is the instant that is the rest of it later. -/
theorem isOverBy_iff_of_rest {c : Cooldown} (hWaits : ¬ c.IsOverBy now)
    (hRest : c.rest now ≠ .max) (time : Instant) :
    c.IsOverBy time ↔ now.nanos + (c.rest now).nanos ≤ time.nanos := by
  cases c with
  | never => exact absurd rfl hRest
  | «until» ready =>
      have hBefore : ¬ ready.nanos ≤ now.nanos := hWaits
      change ready.nanos ≤ time.nanos ↔ now.nanos + (ready.nanos - now.nanos) ≤ time.nanos
      omega

theorem add_rest_starting (hWaits : ¬ (starting start cooldown).IsOverBy now)
    (hRest : (starting start cooldown).rest now ≠ .max) :
    now.nanos + ((starting start cooldown).rest now).nanos = start.nanos + cooldown.nanos := by
  rcases starting_cases start cooldown with ⟨ready, -, hEnd, hStarting⟩ | ⟨-, hStarting⟩
  · rw [hStarting] at hWaits ⊢
    have hBefore : ¬ ready.nanos ≤ now.nanos := hWaits
    change now.nanos + (ready.nanos - now.nanos) = _
    omega
  · rw [hStarting] at hRest
    exact absurd rfl hRest

end Cooldown

namespace SessionRegistry

variable {α : Type} {r r' : SessionRegistry} {identity action : String} {now : Instant}
  {cooldown : Duration}

/-- What stands for an action of an identity. -/
def cooldown? (r : SessionRegistry) (identity action : String) : Option Cooldown :=
  (r.get? identity).bind fun s => s.cooldowns.get? action

/-! ### One operation -/

theorem cooldown?_eq_none_of_get?_eq_none (h : r.get? identity = none) :
    r.cooldown? identity action = none := by
  rw [cooldown?, h]
  rfl

/-- A change that leaves the cooldowns of a session alone also leaves those of all
others alone, and it does not matter whether the session was there. -/
theorem cooldown?_modify {change : Session → α × Session}
    (h : ∀ s, (change s).2.cooldowns = s.cooldowns) (r : SessionRegistry)
    (other : String) (now : Instant) (identity action : String) :
    (r.modify other now change).2.cooldown? identity action = r.cooldown? identity action := by
  unfold cooldown?
  rw [get?_modify]
  split_ifs with hOther
  · subst hOther
    cases hSession : r.get? identity with
    | none => simp [h, Session.start]
    | some s => simp [h]
  · rfl

theorem remaining?_eq (s : Session) (action : String) (now : Instant) :
    s.remaining? action now = none ∧ (∀ c, s.cooldowns.get? action = some c → c.IsOverBy now) ∨
    ∃ c, s.cooldowns.get? action = some c ∧ ¬ c.IsOverBy now ∧
      s.remaining? action now = some (c.rest now) := by
  unfold Session.remaining?
  cases hFound : s.cooldowns.get? action with
  | none => exact Or.inl ⟨rfl, nofun⟩
  | some c =>
      cases c with
      | never => exact Or.inr ⟨.never, rfl, nofun, rfl⟩
      | «until» ready =>
          dsimp only
          split_ifs with hBefore
          · exact Or.inr ⟨.until ready, rfl, Nat.not_le.mpr hBefore, rfl⟩
          · refine Or.inl ⟨rfl, fun c hSame => ?_⟩
            rw [← Option.some.inj hSame]
            exact Nat.not_lt.mp hBefore

theorem cooldowns_wait (s : Session) (action : String) (cooldown : Duration) (now : Instant) :
    (s.wait action cooldown now).cooldowns =
      s.cooldowns.insert action (.starting now cooldown) := by
  unfold Session.wait Cooldown.starting
  cases now.add? cooldown <;> rfl

/-- A call is admitted if nothing stands for its action, or what stands is over; then
its own cooldown stands. Otherwise the registry stays as it is. -/
theorem tryCooldown_cases (r : SessionRegistry) (identity action : String) (cooldown : Duration)
    (now : Instant) :
    (∃ c, r.cooldown? identity action = some c ∧ ¬ c.IsOverBy now ∧
      r.tryCooldown identity action cooldown now = (.error (c.rest now), r)) ∨
    (∀ c, r.cooldown? identity action = some c → c.IsOverBy now) ∧
      (r.tryCooldown identity action cooldown now).1 = .ok () ∧
      ∀ other name, (r.tryCooldown identity action cooldown now).2.cooldown? other name =
        if other = identity ∧ name = action then some (.starting now cooldown)
        else r.cooldown? other name := by
  rcases remaining?_eq ((r.get? identity).getD (.start now)) action now with
    ⟨hNone, hOver⟩ | ⟨c, hFound, hWaits, hRest⟩
  · refine Or.inr ⟨fun c hStands => ?_, ?_, fun other name => ?_⟩
    · cases hSession : r.get? identity with
      | none => simp [cooldown?, hSession] at hStands
      | some s =>
          rw [hSession] at hOver
          rw [cooldown?, hSession] at hStands
          exact hOver c hStands
    · simp only [tryCooldown, modify, hNone]
    · unfold cooldown? tryCooldown
      rw [get?_modify]
      simp only [hNone]
      by_cases hOther : other = identity
      · subst hOther
        simp only [if_true, Option.bind_some, cooldowns_wait, KeyMap.get?_insert, true_and]
        cases r.get? other <;> rfl
      · simp [hOther]
  · refine Or.inl ⟨c, ?_, hWaits, ?_⟩
    · cases hSession : r.get? identity with
      | none => simp [hSession, Session.start] at hFound
      | some s =>
          rw [hSession] at hFound
          rw [cooldown?, hSession]
          exact hFound
    · cases hSession : r.get? identity with
      | none => simp [hSession, Session.start] at hFound
      | some s =>
          rw [hSession, Option.getD_some] at hRest
          refine Prod.ext ?_ (modify_snd_of_same now hSession (by simp only [hRest]))
          simp only [tryCooldown, modify, hSession, Option.getD_some, hRest]

theorem tryCooldown_of_waits {c : Cooldown} (h : r.cooldown? identity action = some c)
    (hWaits : ¬ c.IsOverBy now) (cooldown : Duration) :
    r.tryCooldown identity action cooldown now = (.error (c.rest now), r) := by
  rcases tryCooldown_cases r identity action cooldown now with
    ⟨found, hFound, -, hRefused⟩ | ⟨hOver, -, -⟩
  · rw [hRefused, Option.some.inj (hFound.symm.trans h)]
  · exact absurd (hOver c h) hWaits

theorem tryCooldown_of_isOverBy (h : ∀ c, r.cooldown? identity action = some c → c.IsOverBy now)
    (cooldown : Duration) : (r.tryCooldown identity action cooldown now).1 = .ok () := by
  rcases tryCooldown_cases r identity action cooldown now with
    ⟨c, hFound, hWaits, -⟩ | ⟨-, hAdmitted, -⟩
  · exact absurd (h c hFound) hWaits
  · exact hAdmitted

/-- Whether a call is admitted depends on what stands, and not on its own cooldown. -/
theorem tryCooldown_ok_iff {c : Cooldown} (h : r.cooldown? identity action = some c)
    (cooldown : Duration) (now : Instant) :
    (r.tryCooldown identity action cooldown now).1 = .ok () ↔ c.IsOverBy now := by
  constructor
  · intro hAdmitted
    by_contra hWaits
    rw [tryCooldown_of_waits h hWaits] at hAdmitted
    cases hAdmitted
  · exact fun hOver => tryCooldown_of_isOverBy
      (fun found hFound => Option.some.inj (h.symm.trans hFound) ▸ hOver) cooldown

theorem tryCooldown_fst_congr
    (h : r'.cooldown? identity action = r.cooldown? identity action) (cooldown : Duration)
    (now : Instant) : (r'.tryCooldown identity action cooldown now).1 =
      (r.tryCooldown identity action cooldown now).1 := by
  rcases tryCooldown_cases r identity action cooldown now with
    ⟨c, hFound, hWaits, hRefused⟩ | ⟨hOver, hAdmitted, -⟩
  · rw [tryCooldown_of_waits (h.trans hFound) hWaits, hRefused]
  · rw [tryCooldown_of_isOverBy (fun c hFound => hOver c (h.symm.trans hFound)), hAdmitted]

/-- The operation calls for an action of an identity. -/
def Operation.Tries (identity action : String) : Operation α → Prop
  | .tryCooldown other name _ _ => other = identity ∧ name = action
  | _ => False

/-- The entry is a call for the action that was admitted. -/
def Entry.Admits (e : Entry) (identity action : String) : Prop :=
  ∃ cooldown now, e = ⟨.tryCooldown identity action cooldown now, .ok ()⟩

/-- The entry ends the session. -/
def Entry.Removes (e : Entry) (identity : String) : Prop :=
  e.operation.Removes identity

/-- Only calls for the action and the end of the session reach what stands for it. -/
theorem cooldown?_perform {operation : Operation α} (hRemoves : ¬ operation.Removes identity)
    (hTries : ¬ operation.Tries identity action) (r : SessionRegistry) :
    (operation.perform r).2.cooldown? identity action = r.cooldown? identity action := by
  cases operation with
  | touch other now =>
      refine cooldown?_modify (fun s => ?_) r other now identity action
      rfl
  | setAway other away now =>
      change (r.setAway other away now).cooldown? identity action = _
      refine cooldown?_modify (fun s => ?_) r other now identity action
      rfl
  | sweep threshold now =>
      change ((r.sweep threshold now).2.get? identity).bind _ = _
      rw [get?_sweep, cooldown?]
      cases r.get? identity with
      | none => rfl
      | some s =>
          rw [Option.map_some, Option.bind_some, Option.bind_some]
          split_ifs <;> rfl
  | tryCooldown other name cooldown now =>
      change (r.tryCooldown other name cooldown now).2.cooldown? identity action = _
      rcases tryCooldown_cases r other name cooldown now with ⟨c, -, -, hSame⟩ | ⟨-, -, hStands⟩
      · rw [hSame]
      · rw [hStands, if_neg]
        rintro ⟨rfl, rfl⟩
        exact hTries ⟨rfl, rfl⟩
  | setFlag other flag on now =>
      change (r.setFlag other flag on now).cooldown? identity action = _
      refine cooldown?_modify (fun s => ?_) r other now identity action
      rfl
  | toggleFlag other flag now =>
      refine cooldown?_modify (fun s => ?_) r other now identity action
      rfl
  | setLocation other place now =>
      change (r.setLocation other place now).cooldown? identity action = _
      refine cooldown?_modify (fun s => ?_) r other now identity action
      rfl
  | remove other =>
      change ((r.remove other).2.get? identity).bind _ = _
      rw [get?_remove, if_neg (fun hSame => hRemoves hSame.symm)]
      rfl
  | _ => rfl

/-- Everything that an operation can do to what stands for an action. -/
theorem cooldown?_cases {operation : Operation α} {result : α}
    (h : operation.perform r = (result, r')) (identity action : String) :
    operation.Removes identity ∧ r'.cooldown? identity action = none ∨
    (∃ cooldown now,
      (⟨operation, result⟩ : Entry) = ⟨.tryCooldown identity action cooldown now, .ok ()⟩ ∧
      (∀ c, r.cooldown? identity action = some c → c.IsOverBy now) ∧
      r'.cooldown? identity action = some (.starting now cooldown)) ∨
    ¬ operation.Removes identity ∧ ¬ (⟨operation, result⟩ : Entry).Admits identity action ∧
      r'.cooldown? identity action = r.cooldown? identity action := by
  by_cases hRemoves : operation.Removes identity
  · left
    cases operation with
    | remove other =>
        obtain rfl : other = identity := hRemoves
        obtain rfl : r' = (r.remove other).2 := (congrArg Prod.snd h).symm
        refine ⟨rfl, cooldown?_eq_none_of_get?_eq_none ?_⟩
        rw [get?_remove, if_pos rfl]
    | _ => cases hRemoves
  by_cases hTries : operation.Tries identity action
  · cases operation with
    | tryCooldown other name cooldown now =>
        obtain ⟨rfl, rfl⟩ := hTries
        have hTried : r.tryCooldown other name cooldown now = (result, r') := h
        rcases tryCooldown_cases r other name cooldown now with
          ⟨c, -, -, hRefused⟩ | ⟨hOver, hAdmitted, hStands⟩
        · obtain ⟨rfl, rfl⟩ := Prod.mk.inj (hTried.symm.trans hRefused)
          refine Or.inr (Or.inr ⟨hRemoves, ?_, rfl⟩)
          rintro ⟨cooldown', now', hSame⟩
          cases hSame
        · rw [hTried] at hAdmitted hStands
          obtain rfl : result = .ok () := hAdmitted
          refine Or.inr (Or.inl ⟨cooldown, now, rfl, hOver, ?_⟩)
          rw [hStands, if_pos ⟨rfl, rfl⟩]
    | _ => cases hTries
  · refine Or.inr (Or.inr ⟨hRemoves, ?_, ?_⟩)
    · rintro ⟨cooldown, now, hSame⟩
      cases hSame
      exact hTries ⟨rfl, rfl⟩
    · obtain rfl : r' = (operation.perform r).2 := (congrArg Prod.snd h).symm
      exact cooldown?_perform hRemoves hTries r

/-! ### Runs -/

variable {log : List Entry}

/-- Without the end of the session, what stands is only replaced by what outlasts it. -/
theorem Ran.outlasts (h : Ran r log r') (hStays : ∀ e ∈ log, ¬ e.Removes identity) {c : Cooldown}
    (hStands : r.cooldown? identity action = some c) :
    ∃ c', r'.cooldown? identity action = some c' ∧ c'.Outlasts c := by
  induction h generalizing c with
  | nil r => exact ⟨c, hStands, fun _ => id⟩
  | cons first rest ih =>
      have hLater := fun e he => hStays e (List.mem_cons_of_mem _ he)
      rcases cooldown?_cases first identity action with
        ⟨hRemoves, -⟩ | ⟨cooldown, start, -, hOver, hNext⟩ | ⟨-, -, hSame⟩
      · exact absurd hRemoves (hStays _ List.mem_cons_self)
      · obtain ⟨c', hLast, hOutlasts⟩ := ih hLater hNext
        exact ⟨c', hLast, fun now hNow =>
          Cooldown.starting_outlasts (hOver c hStands) cooldown now (hOutlasts now hNow)⟩
      · exact ih hLater (hSame.trans hStands)

/-- What stands after an admitted call, and before the session is removed, outlasts its
cooldown. -/
theorem Ran.stands {before since : List Entry} {start : Instant}
    (h : Ran r (before ++ ⟨.tryCooldown identity action cooldown start, .ok ()⟩ :: since) r')
    (hStays : ∀ e ∈ since, ¬ e.Removes identity) :
    ∃ c, r'.cooldown? identity action = some c ∧ c.Outlasts (.starting start cooldown) := by
  obtain ⟨middle, -, hAfter⟩ := h.append_inv
  cases hAfter with
  | cons first rest =>
      rcases cooldown?_cases first identity action with
        ⟨hRemoves, -⟩ | ⟨cooldown', start', hCall, -, hNext⟩ | ⟨-, hAdmits, -⟩
      · cases hRemoves
      · cases hCall
        exact rest.outlasts hStays hNext
      · exact absurd ⟨cooldown, start, rfl⟩ hAdmits

/-- Without an admitted call and the end of the session, the same stands. -/
theorem Ran.cooldown?_eq (h : Ran r log r')
    (hStays : ∀ e ∈ log, ¬ e.Removes identity ∧ ¬ e.Admits identity action) :
    r'.cooldown? identity action = r.cooldown? identity action := by
  induction h with
  | nil r => rfl
  | cons first rest ih =>
      rw [ih fun e he => hStays e (List.mem_cons_of_mem _ he)]
      obtain ⟨hRemoves, hAdmits⟩ := hStays _ List.mem_cons_self
      rcases cooldown?_cases first identity action with
        ⟨hRemoved, -⟩ | ⟨cooldown, start, hSame, -⟩ | ⟨-, -, hSame⟩
      · exact absurd hRemoved hRemoves
      · exact absurd ⟨cooldown, start, hSame⟩ hAdmits
      · exact hSame

/-- What stands after a run stood before all of it, or the last admitted call has set
it. -/
theorem Ran.exists_last (h : Ran r log r') {c : Cooldown}
    (hStands : r'.cooldown? identity action = some c) :
    r.cooldown? identity action = some c ∧
      (∀ e ∈ log, ¬ e.Removes identity ∧ ¬ e.Admits identity action) ∨
    ∃ before cooldown start since,
      log = before ++ ⟨.tryCooldown identity action cooldown start, .ok ()⟩ :: since ∧
      (∀ e ∈ since, ¬ e.Removes identity ∧ ¬ e.Admits identity action) ∧
      c = .starting start cooldown := by
  induction h with
  | nil r => exact Or.inl ⟨hStands, nofun⟩
  | cons first rest ih =>
      rcases ih hStands with ⟨hMiddle, hStays⟩ | ⟨before, cooldown, start, since, rfl, hLast⟩
      · rcases cooldown?_cases first identity action with
          ⟨-, hNone⟩ | ⟨cooldown, start, hCall, -, hNext⟩ | ⟨hRemoves, hAdmits, hSame⟩
        · rw [hNone] at hMiddle
          cases hMiddle
        · refine Or.inr ⟨[], cooldown, start, _, ?_, hStays, ?_⟩
          · rw [hCall, List.nil_append]
          · exact Option.some.inj (hMiddle.symm.trans hNext)
        · refine Or.inl ⟨hSame.symm.trans hMiddle, fun e he => ?_⟩
          rcases List.mem_cons.mp he with rfl | hLater
          · exact ⟨hRemoves, hAdmits⟩
          · exact hStays e hLater
      · exact Or.inr ⟨_ :: before, cooldown, start, since, rfl, hLast⟩

/-- Any operations on the registry, at any instants. Once a call is admitted, no later one
for the same action of the same identity is admitted before the cooldown has passed, as
long as the session is not removed; none at all, if the clock cannot show its end, and
each of them then reports the longest duration. A call that is refused changes nothing.
If it reports less than the longest duration, it names the end that the last admitted
call has set: whatever comes in between, except an admitted call or a removal, a call at
this instant or later is admitted, and none before. Nothing else than calls for this
action and the removal of this identity has an influence. -/
theorem cooldowns_kept (hRan : Ran .empty log r) (identity action : String) :
    (∀ before cooldown start since,
      log = before ++ ⟨.tryCooldown identity action cooldown start, .ok ()⟩ :: since →
      (∀ e ∈ since, ¬ e.Removes identity) → ∀ cooldown' later,
        ((r.tryCooldown identity action cooldown' later).1 = .ok () →
          start.nanos + cooldown.nanos ≤ later.nanos) ∧
        (start.add? cooldown = none →
          (r.tryCooldown identity action cooldown' later).1 = .error .max)) ∧
    (∀ cooldown now remaining,
      (r.tryCooldown identity action cooldown now).1 = .error remaining →
      (r.tryCooldown identity action cooldown now).2 = r ∧
      (remaining.nanos < Duration.max.nanos →
        (∃ before admitted start since,
          log = before ++ ⟨.tryCooldown identity action admitted start, .ok ()⟩ :: since ∧
          (∀ e ∈ since, ¬ e.Removes identity ∧ ¬ e.Admits identity action) ∧
          now.nanos + remaining.nanos = start.nanos + admitted.nanos) ∧
        ∀ later r', Ran r later r' →
          (∀ e ∈ later, ¬ e.Removes identity ∧ ¬ e.Admits identity action) →
          ∀ cooldown' time, (r'.tryCooldown identity action cooldown' time).1 = .ok () ↔
            now.nanos + remaining.nanos ≤ time.nanos)) ∧
    (∀ {α : Type} (operation : Operation α), ¬ operation.Removes identity →
      ¬ operation.Tries identity action → ∀ cooldown now,
        ((operation.perform r).2.tryCooldown identity action cooldown now).1 =
          (r.tryCooldown identity action cooldown now).1) := by
  refine ⟨?_, fun cooldown now remaining hRefused => ?_,
    fun operation hRemoves hTries cooldown now =>
      tryCooldown_fst_congr (cooldown?_perform hRemoves hTries r) cooldown now⟩
  · rintro before cooldown start since rfl hStays cooldown' later
    obtain ⟨c, hStands, hOutlasts⟩ := hRan.stands hStays
    refine ⟨fun hAdmitted => ?_, fun hEndless => ?_⟩
    · have hOver := (tryCooldown_ok_iff hStands cooldown' later).mp hAdmitted
      exact Cooldown.le_of_isOverBy_starting (hOutlasts later hOver)
    · rw [Cooldown.starting_of_add?_eq_none hEndless] at hOutlasts
      obtain rfl := Cooldown.eq_never_of_outlasts hOutlasts
      rw [tryCooldown_of_waits hStands id]
      rfl
  · rcases tryCooldown_cases r identity action cooldown now with
      ⟨c, hStands, hWaits, hResult⟩ | ⟨-, hAdmitted, -⟩
    · rw [hResult] at hRefused ⊢
      obtain rfl : c.rest now = remaining := Except.error.inj hRefused
      refine ⟨rfl, fun hShort => ?_⟩
      have hRest : c.rest now ≠ .max := fun hMax => absurd hShort (hMax ▸ Nat.lt_irrefl _)
      refine ⟨?_, fun later r' hLater hStays cooldown' time => ?_⟩
      · rcases hRan.exists_last hStands with ⟨hBefore, -⟩ |
          ⟨before, admitted, start, since, hLog, hStays, rfl⟩
        · cases hBefore
        · exact ⟨before, admitted, start, since, hLog, hStays,
            Cooldown.add_rest_starting hWaits hRest⟩
      · rw [tryCooldown_ok_iff ((hLater.cooldown?_eq hStays).trans hStands)]
        exact Cooldown.isOverBy_iff_of_rest hWaits hRest time
    · rw [hAdmitted] at hRefused
      cases hRefused

/-- The session of `a` waits for `jump` from the tenth nanosecond on, five in all. -/
def jumped : List Entry :=
  [⟨.tryCooldown "a" "jump" ⟨5, by decide⟩ ⟨10, by decide⟩, .ok ()⟩,
    ⟨.touch "a" ⟨12, by decide⟩, false⟩]

/-- At the eleventh nanosecond, and so before the touch, four are left; a call at the
fifteenth is admitted, and none before. -/
theorem cooldowns_kept_jumped : ∃ r : SessionRegistry, Ran .empty jumped r ∧
    (r.tryCooldown "a" "jump" .max ⟨11, by decide⟩).1 = .error ⟨4, by decide⟩ ∧
    ∀ cooldown time, (r.tryCooldown "a" "jump" cooldown time).1 = .ok () ↔ 15 ≤ time.nanos := by
  have hRan : Ran .empty jumped _ := .cons rfl (.cons rfl (.nil _))
  obtain ⟨-, hRefuses, -⟩ := cooldowns_kept hRan "a" "jump"
  obtain ⟨-, hRetry⟩ := hRefuses .max ⟨11, by decide⟩ ⟨4, by decide⟩ rfl
  exact ⟨_, hRan, rfl, (hRetry (by decide)).2 [] _ (.nil _) nofun⟩

end SessionRegistry

end SnapshotStore
