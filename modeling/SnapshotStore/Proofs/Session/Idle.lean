import SnapshotStore.Proofs.Session.Operation

/-! Sweeps. A sweep names those who have become idle and marks them as away. The mark stays
until they are active, are said to be back, or leave; while it stays, no other sweep names
them again. Nothing is assumed of the instants, which may lie before the last activity. -/
namespace SnapshotStore.SessionRegistry

variable {α : Type} {r r' : SessionRegistry} {identity other : String} {threshold : Duration}
  {now : Instant} {log before between last : List Entry} {reported : List String}

/-! ### One sweep -/

/-- Idle time is counted from the last activity on. It is zero as long as the last activity
is still to come. -/
theorem isNewlyIdle_iff {s : Session} : isNewlyIdle threshold now s = true ↔
    s.away = false ∧ threshold.nanos ≤ now.nanos - s.lastActivity.nanos := by
  rw [isNewlyIdle, Bool.and_eq_true, Bool.not_eq_true', Session.isIdle, decide_eq_true_eq]
  rfl

theorem mem_sweep_iff : identity ∈ (r.sweep threshold now).1 ↔
    ∃ s, r.get? identity = some s ∧ isNewlyIdle threshold now s = true := by
  rw [sweep, KeyMap.keys, List.mem_map]
  constructor
  · rintro ⟨⟨name, s⟩, hEntry, rfl⟩
    obtain ⟨hMem, hIdle⟩ := KeyMap.mem_entries_filter.mp hEntry
    exact ⟨s, KeyMap.get?_eq_some_iff.mpr hMem, hIdle⟩
  · rintro ⟨s, hFound, hIdle⟩
    exact ⟨(identity, s),
      KeyMap.mem_entries_filter.mpr ⟨KeyMap.get?_eq_some_iff.mp hFound, hIdle⟩, rfl⟩

/-- Those whom it names become away, and nothing else changes. -/
theorem get?_sweep_eq (r : SessionRegistry) (threshold : Duration) (now : Instant)
    (identity : String) : (r.sweep threshold now).2.get? identity = (r.get? identity).map fun s =>
      if identity ∈ (r.sweep threshold now).1 then { s with away := true } else s := by
  rw [get?_sweep]
  cases hFound : r.get? identity with
  | none => rfl
  | some s =>
      have hNamed : identity ∈ (r.sweep threshold now).1 ↔ isNewlyIdle threshold now s = true := by
        rw [mem_sweep_iff, hFound]
        simp
      simp only [Option.map_some, hNamed]

/-! ### Being away -/

theorem isAway_eq_true_iff : r.isAway identity = true ↔
    ∃ s, r.get? identity = some s ∧ s.away = true := by
  rw [isAway, Option.any_eq_true_iff_get]
  constructor
  · rintro ⟨hSome, hAway⟩
    exact ⟨_, (Option.some_get hSome).symm, hAway⟩
  · rintro ⟨s, hFound, hAway⟩
    simp [hFound, hAway]

theorem isAway_of_mem_sweep (h : identity ∈ (r.sweep threshold now).1) :
    (r.sweep threshold now).2.isAway identity = true := by
  obtain ⟨s, hFound, -⟩ := mem_sweep_iff.mp h
  refine isAway_eq_true_iff.mpr ⟨{ s with away := true }, ?_, rfl⟩
  rw [get?_sweep_eq, hFound, Option.map_some, if_pos h]

theorem not_mem_sweep_of_isAway (h : r.isAway identity = true) :
    identity ∉ (r.sweep threshold now).1 := by
  intro hNamed
  obtain ⟨s, hFound, hIdle⟩ := mem_sweep_iff.mp hNamed
  obtain ⟨s', hFound', hAway⟩ := isAway_eq_true_iff.mp h
  obtain rfl : s = s' := Option.some.inj (hFound.symm.trans hFound')
  rw [(isNewlyIdle_iff.mp hIdle).1] at hAway
  cases hAway

/-- A touch finds out whether the identity was away, and it is not away afterwards. -/
theorem touch_eq_true_iff (now : Instant) :
    (r.touch identity now).1 = true ↔ r.isAway identity = true := by
  rw [isAway_eq_true_iff, touch, modify]
  cases r.get? identity with
  | none => simp [Session.start]
  | some s => simp

theorem isAway_touch (r : SessionRegistry) (identity : String) (now : Instant) :
    (r.touch identity now).2.isAway identity = false := by
  rw [isAway, touch, get?_modify, if_pos rfl]
  rfl

theorem isAway_modify {change : Session → α × Session}
    (hChange : other = identity → ∀ s, s.away = true → (change s).2.away = true)
    (h : r.isAway identity = true) : (r.modify other now change).2.isAway identity = true := by
  obtain ⟨s, hFound, hAway⟩ := isAway_eq_true_iff.mp h
  rw [isAway_eq_true_iff]
  by_cases hSame : identity = other
  · subst hSame
    refine ⟨(change s).2, ?_, hChange rfl s hAway⟩
    rw [get?_modify, if_pos rfl, hFound, Option.getD_some]
  · refine ⟨s, ?_, hAway⟩
    rw [get?_modify, if_neg hSame, hFound]

/-- The operation ends that an identity is away: it is active, is said to be back, or
leaves. -/
def Operation.Rouses : Operation α → String → Prop
  | .touch other _, identity => other = identity
  | .setAway other away _, identity => other = identity ∧ away = false
  | .remove other, identity => other = identity
  | _, _ => False

/-- Nothing else ends it. -/
theorem isAway_perform {operation : Operation α} (hQuiet : ¬ operation.Rouses identity)
    (h : r.isAway identity = true) : (operation.perform r).2.isAway identity = true := by
  cases operation with
  | touch other now => exact isAway_modify (fun hSame => absurd hSame hQuiet) h
  | setAway other away now =>
      change (r.setAway other away now).isAway identity = true
      refine isAway_modify (fun hSame s _ => ?_) h
      cases away with
      | true => rfl
      | false => exact absurd ⟨hSame, rfl⟩ hQuiet
  | sweep threshold now =>
      obtain ⟨s, hFound, hAway⟩ := isAway_eq_true_iff.mp h
      refine isAway_eq_true_iff.mpr ⟨s, (get?_sweep_eq r threshold now identity).trans ?_, hAway⟩
      rw [hFound, Option.map_some, if_neg (not_mem_sweep_of_isAway h)]
  | tryCooldown other action cooldown now =>
      refine isAway_modify (fun _ s hAway => ?_) h
      cases s.remaining? action now <;> exact hAway
  | setFlag other flag on now =>
      change (r.setFlag other flag on now).isAway identity = true
      refine isAway_modify (fun _ s hAway => ?_) h
      exact hAway
  | toggleFlag other flag now =>
      refine isAway_modify (fun _ s hAway => ?_) h
      exact hAway
  | setLocation other place now =>
      change (r.setLocation other place now).isAway identity = true
      refine isAway_modify (fun _ s hAway => ?_) h
      exact hAway
  | remove other =>
      obtain ⟨s, hFound, hAway⟩ := isAway_eq_true_iff.mp h
      refine isAway_eq_true_iff.mpr ⟨s, ?_, hAway⟩
      exact (get?_remove r other identity).trans
        ((if_neg fun hSame => hQuiet hSame.symm).trans hFound)
  | _ => exact h

/-! ### Runs -/

/-- The entry ends that an identity is away. -/
def Entry.Rouses (e : Entry) (identity : String) : Prop :=
  e.operation.Rouses identity

theorem Ran.isAway (h : Ran r log r') (hQuiet : ∀ e ∈ log, ¬ e.Rouses identity)
    (hAway : r.isAway identity = true) : r'.isAway identity = true := by
  induction h with
  | nil r => exact hAway
  | cons first rest ih =>
      obtain ⟨hFirst, hRest⟩ := List.forall_mem_cons.mp hQuiet
      refine ih hRest ?_
      have hAfter := isAway_perform hFirst hAway
      rwa [first] at hAfter

/-- Whom a sweep has named is away as long as nothing ends it. -/
theorem Ran.isAway_of_reported
    (h : Ran r (before ++ ⟨.sweep threshold now, reported⟩ :: (between ++ last)) r')
    (hNamed : identity ∈ reported) (hQuiet : ∀ e ∈ between, ¬ e.Rouses identity) :
    ∃ middle, middle.isAway identity = true ∧ Ran middle last r' := by
  obtain ⟨start, -, hFrom⟩ := h.append_inv
  cases hFrom with
  | cons first rest =>
      obtain ⟨middle, hBetween, hLast⟩ := rest.append_inv
      obtain ⟨rfl, rfl⟩ := Prod.mk.inj (show start.sweep threshold now = (reported, _) from first)
      exact ⟨middle, hBetween.isAway hQuiet (isAway_of_mem_sweep hNamed), hLast⟩

/-- A sweep names, in strict order, exactly those who have a session, are not away, and were
last active at least the threshold ago, where an activity that is still to come was no time
ago. They are away afterwards, and nothing else has changed in any session. In any run of
operations at any instants, nobody is named by a sweep and then by a later one, unless they
have been touched, said to be back, or removed in between; and the first touch of someone who
was named, without any of this before, tells that they were away, and ends it. -/
theorem newly_idle_named :
    (∀ (r : SessionRegistry) (threshold : Duration) (now : Instant),
      (r.sweep threshold now).1.Pairwise (· < ·) ∧
      (∀ identity, identity ∈ (r.sweep threshold now).1 ↔ ∃ s, r.get? identity = some s ∧
        s.away = false ∧ threshold.nanos ≤ now.nanos - s.lastActivity.nanos) ∧
      ∀ identity, (r.sweep threshold now).2.get? identity = (r.get? identity).map fun s =>
        if identity ∈ (r.sweep threshold now).1 then { s with away := true } else s) ∧
    (∀ r before threshold now reported between threshold' now' again since r',
      Ran r (before ++ ⟨.sweep threshold now, reported⟩ ::
        (between ++ ⟨.sweep threshold' now', again⟩ :: since)) r' →
      ∀ identity ∈ reported, (∀ e ∈ between, ¬ e.Rouses identity) → identity ∉ again) ∧
    (∀ r before threshold now reported between identity later wasAway r',
      Ran r (before ++ ⟨.sweep threshold now, reported⟩ ::
        (between ++ [⟨.touch identity later, wasAway⟩])) r' →
      identity ∈ reported → (∀ e ∈ between, ¬ e.Rouses identity) →
      wasAway = true ∧ r'.isAway identity = false) := by
  refine ⟨fun r threshold now => ⟨KeyMap.increasing_keys _, fun identity => ?_,
    get?_sweep_eq r threshold now⟩, ?_, ?_⟩
  · simp only [mem_sweep_iff, isNewlyIdle_iff]
  · intro r before threshold now reported between threshold' now' again since r' hRan identity
      hNamed hQuiet
    obtain ⟨middle, hAway, hLast⟩ := hRan.isAway_of_reported hNamed hQuiet
    cases hLast with
    | cons first rest =>
        obtain rfl : (middle.sweep threshold' now').1 = again := congrArg Prod.fst first
        exact not_mem_sweep_of_isAway hAway
  · intro r before threshold now reported between identity later wasAway r' hRan hNamed hQuiet
    obtain ⟨middle, hAway, hLast⟩ := hRan.isAway_of_reported hNamed hQuiet
    cases hLast with
    | cons first rest =>
        cases rest
        have hTouch : middle.touch identity later = (wasAway, r') := first
        have hTold := (touch_eq_true_iff later).mpr hAway
        have hBack := isAway_touch middle identity later
        rw [hTouch] at hTold hBack
        exact ⟨hTold, hBack⟩

/-- Two who came at different instants, of whom `b` is named first. A call of `b` at an
earlier instant makes no difference, and `a` is named once enough time has passed. -/
def watched : List Entry :=
  [⟨.touch "b" ⟨2, by decide⟩, false⟩, ⟨.touch "a" ⟨9, by decide⟩, false⟩,
    ⟨.sweep ⟨4, by decide⟩ ⟨7, by decide⟩, ["b"]⟩, ⟨.setFlag "b" "god" true ⟨1, by decide⟩, ()⟩,
    ⟨.sweep ⟨4, by decide⟩ ⟨14, by decide⟩, ["a"]⟩, ⟨.touch "b" ⟨3, by decide⟩, true⟩]

theorem newly_idle_named_watched : ∃ r : SessionRegistry, Ran .empty watched r ∧
    "b" ∉ ["a"] ∧ r.isAway "b" = false ∧ r.isAway "a" = true := by
  have hRan : Ran .empty watched _ :=
    .cons rfl (.cons rfl (.cons rfl (.cons rfl (.cons rfl (.cons rfl (.nil _))))))
  obtain ⟨-, hOnce, hTouched⟩ := newly_idle_named
  have hNotAgain := hOnce .empty
    [⟨.touch "b" ⟨2, by decide⟩, false⟩, ⟨.touch "a" ⟨9, by decide⟩, false⟩] _ _ _
    [⟨.setFlag "b" "god" true ⟨1, by decide⟩, ()⟩] _ _ _ _ _ hRan "b" (by decide)
    (by simp [Entry.Rouses, Operation.Rouses])
  have hBack := hTouched .empty
    [⟨.touch "b" ⟨2, by decide⟩, false⟩, ⟨.touch "a" ⟨9, by decide⟩, false⟩] _ _ _
    [⟨.setFlag "b" "god" true ⟨1, by decide⟩, ()⟩, ⟨.sweep ⟨4, by decide⟩ ⟨14, by decide⟩, ["a"]⟩]
    _ _ _ _ hRan (by decide) (by simp [Entry.Rouses, Operation.Rouses])
  exact ⟨_, hRan, hNotAgain, hBack.2, rfl⟩

end SnapshotStore.SessionRegistry
