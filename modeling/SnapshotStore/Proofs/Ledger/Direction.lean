import SnapshotStore.Proofs.Ledger.Debits

/-! Which way a balance goes. A debit does not raise it and a credit does not lower
it, in the exact order, with one exception: a balance that is a whole number beyond
2^53 becomes floating with a floating amount, and an amount that is lost next to it
leaves it rounded, to whichever side that is. -/
namespace SnapshotStore

namespace Number

open Binary64

variable {a b n : Number}

/-- A floating amount is lost next to a whole number, which only becomes the floating
number nearest to it. That moves numbers beyond 2^53 only. -/
structure Absorbed (held amount left : Number) : Prop where
  large : ∃ i, held = .int i ∧ 2 ^ 53 < i.toInt.natAbs
  floating : amount.isInteger = false
  rounded : left.sameValue (.float held.toFloat) = true

theorem order_ne_gt_of_exactUnits (ha : a.isFinite = true) (hb : b.isFinite = true)
    (h : a.exactUnits ≤ b.exactUnits) : a.order b ≠ .gt := by
  rw [order_eq_compare ha hb]
  exact compare_le_iff_le.mpr h

theorem order_ne_lt_of_exactUnits (ha : a.isFinite = true) (hb : b.isFinite = true)
    (h : b.exactUnits ≤ a.exactUnits) : a.order b ≠ .lt := by
  rw [order_eq_compare ha hb]
  exact compare_ge_iff_ge.mpr h

/-- Taking a positive amount away does not raise a number, unless the amount is lost. -/
theorem order_ne_gt_or_absorbed_of_sub? (hAmount : b.isPositive = true) (h : a.sub? b = some n) :
    n.order a ≠ .gt ∨ Absorbed a b n := by
  have hZero := exactUnits_nonneg_of_isPositive hAmount
  rcases sub?_cases h with ⟨i, j, k, rfl, rfl, rfl, hk⟩ | ⟨hKinds, rfl, hResult⟩
  · have hLess : 0 < j.toInt := by simpa [isPositive] using hAmount
    exact Or.inl (order_ne_gt_of_exactUnits rfl rfl
      (Int.mul_le_mul_of_nonneg_right (by omega) (Int.natCast_nonneg _)))
  · obtain ⟨ha, -⟩ := isFinite_of_sub hResult
    have hBelow : (a.toFloat.sub b.toFloat).exactUnits ≤ a.toFloat.exactUnits := by
      refine exactUnits_add_le hResult ha ?_
      rw [exactUnits_neg]
      omega
    cases a with
    | float f => exact Or.inl (order_ne_gt_of_exactUnits hResult ha hBelow)
    | int i =>
        refine (le_or_eq_ofInt hResult ha hBelow).imp (order_ne_gt_of_exactUnits hResult rfl) ?_
        rintro ⟨hLarge, hSame⟩
        exact ⟨⟨i, rfl, hLarge⟩, hKinds.resolve_left Bool.true_eq_false.mp,
          sameValue_of_exactUnits hResult ha hSame⟩

/-- Nor does adding one lower it. -/
theorem order_ne_lt_or_absorbed_of_add? (hAmount : b.isPositive = true) (h : a.add? b = some n) :
    n.order a ≠ .lt ∨ Absorbed a b n := by
  have hZero := exactUnits_nonneg_of_isPositive hAmount
  rcases add?_cases h with ⟨i, j, k, rfl, rfl, rfl, hk⟩ | ⟨hKinds, rfl, hResult⟩
  · have hLess : 0 < j.toInt := by simpa [isPositive] using hAmount
    exact Or.inl (order_ne_lt_of_exactUnits rfl rfl
      (Int.mul_le_mul_of_nonneg_right (by omega) (Int.natCast_nonneg _)))
  · obtain ⟨ha, -⟩ := isFinite_of_add hResult
    have hAbove : a.toFloat.exactUnits ≤ (a.toFloat.add b.toFloat).exactUnits :=
      le_exactUnits_add hResult ha (by omega)
    cases a with
    | float f => exact Or.inl (order_ne_lt_of_exactUnits hResult ha hAbove)
    | int i =>
        refine (ge_or_eq_ofInt hResult ha hAbove).imp (order_ne_lt_of_exactUnits hResult rfl) ?_
        rintro ⟨hLarge, hSame⟩
        exact ⟨⟨i, rfl, hLarge⟩, hKinds.resolve_left Bool.true_eq_false.mp,
          sameValue_of_exactUnits hResult ha hSame⟩

end Number

namespace Ledger

open Store

variable {l : Ledger} {s s' : Store} {identity : String} {amount left : Number}

/-- A positive amount is added to the balance, or the balance is that value already and
stays. -/
theorem credited_of_give (h : l.give s identity amount = (.ok true, s')) :
    amount.isPositive = true ∧ ∃ held next left, l.balance s identity = .ok held ∧
      held.add? amount = some next ∧ l.balance s' identity = .ok left ∧
      (left = next ∨ left = held) := by
  unfold give at h
  split_ifs at h with hPositive
  · obtain ⟨-, slot, hSlot, hStore⟩ := update_ok h
    obtain ⟨-, held, next, hBalance, hNext, rfl⟩ := crediting_eq_ok hSlot
    refine ⟨hPositive, held, next, ?_⟩
    rcases hStore with ⟨-, rfl⟩ | ⟨-, -, rfl⟩
    · exact ⟨held, hBalance, hNext, hBalance, Or.inr rfl⟩
    · refine ⟨next, hBalance, hNext, ?_, Or.inl rfl⟩
      rw [Ledger.balance, getNumber, get?_withSlot, if_pos rfl]
      rfl
  · cases h

/-- A debit leaves a balance that is not above the one before it, and a credit one that
is not below. Only where a floating amount is lost next to a whole number beyond 2^53
is the balance the nearest floating number, above or below. -/
theorem balance_direction (l : Ledger) (s s' : Store) (identity : String) (amount : Number) :
    (l.take s identity amount = (.ok true, s') →
      ∃ held left, l.balance s identity = .ok held ∧ l.balance s' identity = .ok left ∧
        (left.order held ≠ .gt ∨ Number.Absorbed held amount left)) ∧
    (l.give s identity amount = (.ok true, s') →
      ∃ held left, l.balance s identity = .ok held ∧ l.balance s' identity = .ok left ∧
        (left.order held ≠ .lt ∨ Number.Absorbed held amount left)) := by
  constructor
  · intro hTake
    obtain ⟨hPositive, ⟨held, left, hHeld, -, hLeft, hAfter, -⟩, -⟩ := debited_of_take hTake
    exact ⟨held, left, hHeld, hAfter, Number.order_ne_gt_or_absorbed_of_sub? hPositive hLeft⟩
  · intro hGive
    obtain ⟨hPositive, held, next, left, hHeld, hNext, hAfter, hLeft⟩ := credited_of_give hGive
    refine ⟨held, left, hHeld, hAfter, ?_⟩
    rcases hLeft with rfl | rfl
    · exact Number.order_ne_lt_or_absorbed_of_add? hPositive hNext
    · exact Or.inl (by simp [Number.order_self])

/-! ### Lost amounts -/

/-- The first change of a balance writes it. -/
theorem update_of_absent {change : Option Value → Except StoreError (Bool × Option Value)}
    (hAbsent : s.get? (l.key identity) = none)
    (hChange : change (s.get? (l.key identity)) = .ok (true, some (.number left)))
    (hFinite : left.isFinite = true) : s.update (l.key identity) change =
      (.ok true, s.withSlot (l.key identity) (some (.number left))) := by
  rcases update_eq_number (l.key_ne_empty identity) hChange hFinite with ⟨-, hSame⟩ | hUpdate
  · rw [hAbsent] at hSame
    cases hSame
  · exact hUpdate

theorem take_of_absent (hAbsent : s.get? (l.key identity) = none)
    (hPositive : amount.isPositive = true) (hCovered : l.startingBalance.order amount ≠ .lt)
    (hLeft : l.startingBalance.sub? amount = some left) : l.take s identity amount =
      (.ok true, s.withSlot (l.key identity) (some (.number left))) := by
  have hRead : s.getNumber (l.key identity) l.startingBalance = .ok l.startingBalance := by
    rw [getNumber, hAbsent]
    rfl
  rw [take, if_pos hPositive]
  exact update_of_absent hAbsent (debiting_eq_made hRead hCovered hLeft)
    (Number.isFinite_of_sub? hLeft)

theorem give_of_absent (hAbsent : s.get? (l.key identity) = none)
    (hPositive : amount.isPositive = true) (hLeft : l.startingBalance.add? amount = some left) :
    l.give s identity amount =
      (.ok true, s.withSlot (l.key identity) (some (.number left))) := by
  have hChange : crediting (l.key identity) l.startingBalance amount (s.get? (l.key identity)) =
      .ok (true, some (.number left)) := by
    simp [hAbsent, crediting, currentNumber, hLeft, fitting, bind, Except.bind, pure, Except.pure]
  rw [give, if_pos hPositive]
  exact update_of_absent hAbsent hChange (Number.isFinite_of_add? hLeft)

/-- Giving 1 as a floating number to 2^53 + 1 leaves 2^53. -/
theorem give_lost : give ⟨"bal", .int 9007199254740993⟩ (.opened {} .empty) "a"
      (.float (.ofInt 1)) =
    (.ok true, (Store.opened {} .empty).withSlot "bal.a"
      (some (.number (.float (.ofInt 9007199254740992))))) :=
  give_of_absent rfl (by decide +kernel) (by decide +kernel)

/-- Taking 1 as a floating number from 2^53 + 3 leaves 2^53 + 4. -/
theorem take_lost : take ⟨"bal", .int 9007199254740995⟩ (.opened {} .empty) "a"
      (.float (.ofInt 1)) =
    (.ok true, (Store.opened {} .empty).withSlot "bal.a"
      (some (.number (.float (.ofInt 9007199254740996))))) :=
  take_of_absent rfl (by decide +kernel) (by decide +kernel) (by decide +kernel)

/-- Both times the amount is lost, and the balance goes the wrong way. -/
theorem balance_direction_lost :
    (∃ held left s', take ⟨"bal", .int 9007199254740995⟩ (.opened {} .empty) "a"
        (.float (.ofInt 1)) = (.ok true, s') ∧
      balance ⟨"bal", .int 9007199254740995⟩ s' "a" = .ok left ∧ left.order held = .gt ∧
      Number.Absorbed held (.float (.ofInt 1)) left) ∧
    (∃ held left s', give ⟨"bal", .int 9007199254740993⟩ (.opened {} .empty) "a"
        (.float (.ofInt 1)) = (.ok true, s') ∧
      balance ⟨"bal", .int 9007199254740993⟩ s' "a" = .ok left ∧ left.order held = .lt ∧
      Number.Absorbed held (.float (.ofInt 1)) left) := by
  constructor
  · obtain ⟨held, left, hHeld, hLeft, hDirection⟩ := (balance_direction _ _ _ _ _).1 take_lost
    obtain rfl : .int 9007199254740995 = held := Except.ok.inj hHeld
    obtain rfl : .float (.ofInt 9007199254740996) = left := Except.ok.inj hLeft
    have hOrder : (Number.float (.ofInt 9007199254740996)).order (.int 9007199254740995) = .gt := by
      decide +kernel
    exact ⟨_, _, _, take_lost, hLeft, hOrder, hDirection.resolve_left (not_not.mpr hOrder)⟩
  · obtain ⟨held, left, hHeld, hLeft, hDirection⟩ := (balance_direction _ _ _ _ _).2 give_lost
    obtain rfl : .int 9007199254740993 = held := Except.ok.inj hHeld
    obtain rfl : .float (.ofInt 9007199254740992) = left := Except.ok.inj hLeft
    have hOrder : (Number.float (.ofInt 9007199254740992)).order (.int 9007199254740993) = .lt := by
      decide +kernel
    exact ⟨_, _, _, give_lost, hLeft, hOrder, hDirection.resolve_left (not_not.mpr hOrder)⟩

/-- So a balance may be lower after a credit. -/
theorem give_lowers_rounded : ¬ ∀ (l : Ledger) (s s' : Store) (identity : String)
    (amount held left : Number), s.data.Storable → l.startingBalance.isFinite = true →
    amount.isFinite = true → amount.isPositive = true →
    l.balance s identity = .ok held → l.balance s' identity = .ok left →
    (l.take s identity amount = (.ok true, s') → left.order held ≠ .gt) ∧
      (l.give s identity amount = (.ok true, s') → left.order held ≠ .lt) := by
  intro hDirected
  have hOrder : (Number.float (.ofInt 9007199254740992)).order (.int 9007199254740993) = .lt := by
    decide +kernel
  exact (hDirected _ _ _ _ _ _ _ Snapshot.storable_empty rfl (by decide +kernel)
    (by decide +kernel) rfl rfl).2 give_lost hOrder

end Ledger

end SnapshotStore
