import SnapshotStore.Proofs.Ledger.Direction
import SnapshotStore.Proofs.Number.Zero

/-! What an update leaves at its key. It is what its change has left there, with one
exception: a slot is put back only if its value is another one, and the two floating
zeros are the same value. So where one of them is to replace the other, nothing is
put in place. -/
namespace SnapshotStore

namespace Store

variable {α : Type} {s s' : Store} {key : String} {held slot : Option Value} {result : α}
  {change : Option Value → Except StoreError (α × Option Value)}

/-- One slot holds a floating zero, and the other one the zero of the other sign. -/
inductive OtherZero : Option Value → Option Value → Prop where
  | intro (negative : Bool) : OtherZero (some (.number (.float (.finite negative .zero))))
      (some (.number (.float (.finite (!negative) .zero))))

/-- Slots that hold the same value are the same, apart from the two zeros. -/
theorem eq_or_otherZero_of_sameSlot (h : sameSlot slot held = true) :
    slot = held ∨ OtherZero held slot := by
  cases slot with
  | none =>
      cases held with
      | none => exact Or.inl rfl
      | some value => cases h
  | some left =>
      cases held with
      | none => cases h
      | some value =>
          cases left with
          | number n =>
              cases n with
              | int i => exact Or.inl (sameSlot_int h).symm
              | float f =>
                  cases value with
                  | number m =>
                      cases m with
                      | int i => cases h
                      | float g =>
                          rcases Binary64.eq_or_zeros_of_sameValue h with rfl | ⟨negative, rfl, rfl⟩
                          · exact Or.inl rfl
                          · exact Or.inr (.intro negative)
                  | _ => cases h
          | bool b =>
              cases value with
              | bool c => exact Or.inl (by rw [eq_of_beq h])
              | _ => cases h
          | text t =>
              cases value with
              | text u => exact Or.inl (by rw [eq_of_beq h])
              | _ => cases h
          | list items =>
              cases value with
              | list others => exact Or.inl (by rw [eq_of_beq h])
              | _ => cases h

theorem OtherZero.sameSlot (h : OtherZero held slot) : sameSlot slot held = true := by
  cases h with
  | intro negative => cases negative <;> rfl

/-- The slot is in place afterwards, unless it is a zero that was to replace the other
one: then the store is as it was. -/
structure Publishes (s s' : Store) (key : String) (slot : Option Value) : Prop where
  put : ¬ OtherZero (s.get? key) slot → s'.get? key = slot
  missed : OtherZero (s.get? key) slot → s' = s

/-- An update that succeeds publishes what its change has left. -/
theorem publishes_of_update (h : s.update key change = (.ok result, s')) :
    ∃ slot, change (s.get? key) = .ok (result, slot) ∧ Publishes s s' key slot := by
  obtain ⟨-, slot, hChange, hStore⟩ := update_ok h
  refine ⟨slot, hChange, ?_⟩
  rcases hStore with ⟨hSame, rfl⟩ | ⟨hOther, -, rfl⟩
  · refine ⟨fun hApart => ?_, fun _ => rfl⟩
    exact ((eq_or_otherZero_of_sameSlot hSame).resolve_right hApart).symm
  · refine ⟨fun _ => ?_, fun hZeros => ?_⟩
    · rw [get?_withSlot, if_pos rfl]
    · rw [hZeros.sameSlot] at hOther
      cases hOther

/-! ### Numbers -/

variable {compute : Number → Option Number} {n absent current amount : Number}

theorem publishes_of_computing (h : s.update key (computing key compute) = (.ok n, s')) :
    ∃ current, s.getNumber key (.int 0) = .ok current ∧ compute current = some n ∧
      Publishes s s' key (some (.number n)) := by
  obtain ⟨slot, hChange, hPublishes⟩ := publishes_of_update h
  obtain ⟨current, hCurrent, hNext, rfl⟩ := computing_eq_ok hChange
  exact ⟨current, hCurrent, hNext, hPublishes⟩

theorem otherZero_iff (hRead : s.getNumber key absent = .ok current) :
    OtherZero (s.get? key) (some (.number n)) ↔ s.get? key = some (.number current) ∧
      ∃ negative, current = .float (.finite negative .zero) ∧
        n = .float (.finite (!negative) .zero) := by
  constructor
  · intro h
    generalize hHeld : s.get? key = held at h
    generalize hSlot : some (Value.number n) = slot at h
    cases h with
    | intro negative =>
        rw [getNumber, hHeld] at hRead
        rw [← Except.ok.inj hRead]
        exact ⟨rfl, negative, rfl, Value.number.inj (Option.some.inj hSlot)⟩
  · rintro ⟨hHeld, negative, rfl, rfl⟩
    rw [hHeld]
    exact .intro negative

/-- What is read from a key that holds a number is this number. -/
theorem eq_of_get? (hRead : s.getNumber key absent = .ok current)
    (hHeld : s.get? key = some (.number n)) : n = current := by
  rw [getNumber, hHeld] at hRead
  exact Except.ok.inj hRead

/-- If nothing but the negative zero is turned into the other zero, a result replaces a
zero by the other one where the negative zero is there. -/
theorem otherZero_computed_iff (step : Number → Option Number) {condition : Prop}
    (hRead : s.getNumber key absent = .ok current) (hNext : step current = some n)
    (hZeros : ∀ negative, step (.float (.finite negative .zero)) =
      some (.float (.finite (!negative) .zero)) ↔ negative = true ∧ condition) :
    OtherZero (s.get? key) (some (.number n)) ↔
      s.get? key = some (.number (.float (.finite true .zero))) ∧ condition := by
  rw [otherZero_iff hRead]
  constructor
  · rintro ⟨hHeld, negative, rfl, rfl⟩
    obtain ⟨rfl, hCondition⟩ := (hZeros negative).mp hNext
    exact ⟨hHeld, hCondition⟩
  · rintro ⟨hHeld, hCondition⟩
    obtain rfl := eq_of_get? hRead hHeld
    have hOther := (hZeros true).mpr ⟨rfl, hCondition⟩
    exact ⟨hHeld, true, rfl, Option.some.inj (hNext.symm.trans hOther)⟩

/-- A sum does so if a zero that is not negative is added to the negative one. -/
theorem otherZero_add?_iff (hRead : s.getNumber key absent = .ok current)
    (hNext : current.add? amount = some n) : OtherZero (s.get? key) (some (.number n)) ↔
      s.get? key = some (.number (.float (.finite true .zero))) ∧
        (amount = .int 0 ∨ amount = .float .zero) :=
  otherZero_computed_iff (·.add? amount) hRead hNext fun _ =>
    Number.add?_eq_other_zero_iff

/-- A difference does so if the negative zero is taken from itself. -/
theorem otherZero_sub?_iff (hRead : s.getNumber key absent = .ok current)
    (hNext : current.sub? amount = some n) : OtherZero (s.get? key) (some (.number n)) ↔
      s.get? key = some (.number (.float (.finite true .zero))) ∧
        amount = .float (.finite true .zero) :=
  otherZero_computed_iff (·.sub? amount) hRead hNext fun _ =>
    Number.sub?_eq_other_zero_iff

/-! ### Operations -/

/-- A positive amount does not turn one zero into the other, so a credit is always put in
place. -/
theorem get?_of_give {l : Ledger} {identity : String}
    (h : l.give s identity amount = (.ok true, s')) : ∃ held next,
      l.balance s identity = .ok held ∧ held.add? amount = some next ∧
        s'.get? (l.key identity) = some (.number next) := by
  unfold Ledger.give at h
  split_ifs at h with hPositive
  · obtain ⟨slot, hChange, hPublishes⟩ := publishes_of_update h
    obtain ⟨-, held, next, hBalance, hNext, rfl⟩ := Ledger.crediting_eq_ok hChange
    refine ⟨held, next, hBalance, hNext, hPublishes.put ?_⟩
    rw [otherZero_add?_iff hBalance hNext]
    rintro ⟨-, rfl | rfl⟩
    · exact absurd hPositive (by decide)
    · exact absurd hPositive (by decide +kernel)
  · cases h

/-- An update that succeeds leaves at its key exactly what its change has left there,
unless a floating zero was to replace the one of the other sign: then nothing changes,
and the old zero stays. An increment and a decrement leave the number that they have
computed and give, unless the negative zero is there and a zero that is not negative is
added to it, or it is taken from itself. Credits and debits have no such exception. -/
theorem update_published (s s' : Store) :
    (∀ {α : Type} key (change : Option Value → Except StoreError (α × Option Value)) (result : α),
      s.update key change = (.ok result, s') →
      ∃ slot, change (s.get? key) = .ok (result, slot) ∧ Publishes s s' key slot) ∧
    (∀ key delta n, s.increment key delta = (.ok n, s') → ∃ held,
      s.getNumber key (.int 0) = .ok held ∧ held.add? delta = some n ∧
      Publishes s s' key (some (.number n)) ∧
      (OtherZero (s.get? key) (some (.number n)) ↔
        s.get? key = some (.number (.float (.finite true .zero))) ∧
          (delta = .int 0 ∨ delta = .float .zero))) ∧
    (∀ key delta n, s.decrement key delta = (.ok n, s') → ∃ held,
      s.getNumber key (.int 0) = .ok held ∧ held.sub? delta = some n ∧
      Publishes s s' key (some (.number n)) ∧
      (OtherZero (s.get? key) (some (.number n)) ↔
        s.get? key = some (.number (.float (.finite true .zero))) ∧
          delta = .float (.finite true .zero))) ∧
    (∀ (l : Ledger) identity amount, l.give s identity amount = (.ok true, s') → ∃ held next,
      l.balance s identity = .ok held ∧ held.add? amount = some next ∧
      s'.get? (l.key identity) = some (.number next)) ∧
    (∀ (l : Ledger) identity amount, l.take s identity amount = (.ok true, s') → ∃ held next,
      l.balance s identity = .ok held ∧ held.sub? amount = some next ∧
      s'.get? (l.key identity) = some (.number next)) := by
  refine ⟨fun key change result => publishes_of_update, ?_, ?_,
    fun l identity amount => get?_of_give, ?_⟩
  · intro key delta n hIncrement
    obtain ⟨held, hRead, hNext, hPublishes⟩ := publishes_of_computing hIncrement
    exact ⟨held, hRead, hNext, hPublishes, otherZero_add?_iff hRead hNext⟩
  · intro key delta n hDecrement
    obtain ⟨held, hRead, hNext, hPublishes⟩ := publishes_of_computing hDecrement
    exact ⟨held, hRead, hNext, hPublishes, otherZero_sub?_iff hRead hNext⟩
  · intro l identity amount hTake
    obtain ⟨-, ⟨held, left, hBalance, -, hLeft, -, hSlot⟩, -⟩ := Ledger.debited_of_take hTake
    exact ⟨held, left, hBalance, hLeft, by rw [hSlot, if_pos rfl]⟩

/-- A store in which the negative zero was set. -/
def withNegativeZero : Store :=
  ((opened {} .empty).set "k" (.number (.float (.finite true .zero)))).2

theorem increment_withNegativeZero : withNegativeZero.increment "k" (.float .zero) =
    (.ok (.float .zero), withNegativeZero) := by
  have hSum : (Number.float (.finite true .zero)).add? (.float .zero) = some (.float .zero) := by
    decide +kernel
  have hHeld : withNegativeZero.get? "k" = some (.number (.float (.finite true .zero))) := rfl
  have hChange : computing "k" (·.add? (.float .zero)) (withNegativeZero.get? "k") =
      .ok (.float .zero, some (.number (.float .zero))) := by
    simp [hHeld, computing, currentNumber, expectNumber, Value.number?, hSum, fitting, bind,
      Except.bind, pure, Except.pure]
  have hSame : sameSlot (some (.number (.float .zero))) (withNegativeZero.get? "k") = true := rfl
  simp [increment, update, checkKey, hChange, hSame]

/-- The increment gives zero, and the negative zero stays. One that adds three to a key
that is not there leaves three. -/
theorem update_published_zeros :
    withNegativeZero.increment "k" (.float .zero) = (.ok (.float .zero), withNegativeZero) ∧
    OtherZero (withNegativeZero.get? "k") (some (.number (.float .zero))) ∧
    ∃ s', withNegativeZero.increment "n" (.int 3) = (.ok (.int 3), s') ∧
      s'.get? "n" = some (.number (.int 3)) := by
  obtain ⟨-, hMissed, -⟩ := update_published withNegativeZero withNegativeZero
  obtain ⟨held, -, -, -, hZeros⟩ := hMissed "k" (.float .zero) (.float .zero)
    increment_withNegativeZero
  have hThree : withNegativeZero.increment "n" (.int 3) =
      (.ok (.int 3), withNegativeZero.withSlot "n" (some (.number (.int 3)))) := rfl
  obtain ⟨-, hIncrement, -⟩ := update_published withNegativeZero _
  obtain ⟨other, -, -, hPublishes, -⟩ := hIncrement "n" (.int 3) (.int 3) hThree
  exact ⟨increment_withNegativeZero, hZeros.mpr ⟨rfl, Or.inr rfl⟩, _, hThree,
    hPublishes.put nofun⟩

/-- So what an increment gives need not be what is stored. -/
theorem increment_keeps_negative_zero : ¬ ∀ (s s' : Store) (key : String) (delta n : Number),
    s.data.Storable → s.increment key delta = (.ok n, s') →
    s'.get? key = some (.number n) := by
  intro hPublished
  have hStorable : withNegativeZero.data.Storable :=
    Snapshot.storable_empty.insert (by decide) rfl
  have hSame := hPublished _ _ _ _ _ hStorable increment_withNegativeZero
  have hHeld : withNegativeZero.get? "k" = some (.number (.float (.finite true .zero))) := rfl
  rw [hHeld] at hSame
  cases hSame

end Store

end SnapshotStore
