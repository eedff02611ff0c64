import Mathlib.Logic.Relation
import SnapshotStore.Proofs.Number.Arithmetic
import SnapshotStore.Proofs.Store.Operation

/-! Balances of any numbers. What the operations of a ledger leave in its keys is
finite and not negative, whatever the amounts are, and what others leave in other
keys does not count. -/
namespace SnapshotStore

open Program (Runs)

/-- A number that may be a balance. -/
def Value.IsBalance (value : Value) : Prop :=
  ∃ n, value = .number n ∧ n.IsBalance

namespace Ledger

open Store

variable {l : Ledger} {s s' first : Store} {identity : String} {amount : Number}

/-- Every balance that was written is finite and not negative. -/
def Balanced (l : Ledger) (s : Store) : Prop :=
  ∀ identity, ∀ value ∈ s.get? (l.key identity), value.IsBalance

/-- The balance of every member, written or not. -/
theorem Balanced.balance (h : Balanced l s) (hStart : l.startingBalance.IsBalance)
    (identity : String) : ∃ n, l.balance s identity = .ok n ∧ n.IsBalance := by
  unfold Ledger.balance getNumber
  cases hSlot : s.get? (l.key identity) with
  | none => exact ⟨l.startingBalance, rfl, hStart⟩
  | some value =>
      obtain ⟨n, rfl, hn⟩ := h identity value hSlot
      exact ⟨n, rfl, hn⟩

theorem Balanced.of_currentNumber (h : Balanced l s) (hStart : l.startingBalance.IsBalance)
    {current : Number} (hCurrent : currentNumber (l.key identity) (s.get? (l.key identity))
      l.startingBalance = .ok current) : current.IsBalance := by
  obtain ⟨n, hBalance, hn⟩ := h.balance hStart identity
  rwa [← Except.ok.inj (hBalance.symm.trans hCurrent)]

/-! ### One operation -/

theorem Balanced.withSlot (h : Balanced l s) {key : String} {slot : Option Value}
    (hSlot : ∀ value ∈ slot, value.IsBalance) : Balanced l (s.withSlot key slot) := by
  intro identity value hValue
  rw [get?_withSlot] at hValue
  split_ifs at hValue with hKey
  · exact hSlot value hValue
  · exact h identity value hValue

theorem Balanced.update (h : Balanced l s) {α : Type} {key : String}
    {change : Option Value → Except StoreError (α × Option Value)}
    (hChange : ∀ result slot, change (s.get? key) = .ok (result, slot) →
      ∀ value ∈ slot, value.IsBalance) : Balanced l (s.update key change).2 := by
  rcases update_cases s key change with ⟨error, hUpdate⟩ |
    ⟨-, result, slot, hSlot, ⟨-, hUpdate⟩ | ⟨-, -, hUpdate⟩⟩
  · rwa [hUpdate]
  · rwa [hUpdate]
  · rw [hUpdate]
    exact h.withSlot (hChange result slot hSlot)

theorem Balanced.openAccount (h : Balanced l s) (hStart : l.startingBalance.IsBalance)
    (identity : String) : Balanced l (l.openAccount s identity).2 := by
  refine h.update fun opened slot hChange value hValue => ?_
  cases hSlot : s.get? (l.key identity) with
  | none =>
      rw [hSlot] at hChange
      obtain ⟨-, rfl⟩ := Prod.mk.inj (Except.ok.inj hChange)
      exact ⟨l.startingBalance, (Option.some.inj hValue).symm, hStart⟩
  | some held =>
      rw [hSlot] at hChange
      obtain ⟨-, rfl⟩ := Prod.mk.inj (Except.ok.inj hChange)
      exact h identity value (hSlot.trans hValue)

/-- A negative amount is written as zero, and one that is not finite is not
written. -/
theorem Balanced.setBalance (h : Balanced l s) (identity : String) (amount : Number) :
    Balanced l (l.setBalance s identity amount).2 := by
  unfold Ledger.setBalance
  have hAmount : ∀ n, n = (if amount.isNegative then amount.zeroLike else amount) →
      n.isFinite = true → n.IsBalance := by
    rintro n rfl hFinite
    split_ifs at hFinite ⊢ with hNegative
    · exact amount.isBalance_zeroLike
    · exact Number.isBalance_of_isNegative hFinite (Bool.eq_false_iff.mpr hNegative)
  generalize (if amount.isNegative then amount.zeroLike else amount) = n at hAmount ⊢
  rcases set_cases s (l.key identity) (.number n) with ⟨error, hSet⟩ | ⟨-, hFinite, hSet⟩
  · simpa only [hSet] using h
  · simp only [hSet]
    refine h.withSlot fun value hValue => ?_
    exact ⟨n, (Option.some.inj hValue).symm, hAmount n rfl hFinite⟩

theorem Balanced.give (h : Balanced l s) (hStart : l.startingBalance.IsBalance)
    (identity : String) (amount : Number) : Balanced l (l.give s identity amount).2 := by
  unfold Ledger.give
  split_ifs with hPositive
  · refine h.update fun done slot hChange value hValue => ?_
    obtain ⟨-, current, next, hCurrent, hNext, rfl⟩ := crediting_eq_ok hChange
    exact ⟨next, (Option.some.inj hValue).symm,
      Number.isBalance_add? (h.of_currentNumber hStart hCurrent) hPositive hNext⟩
  · exact h

theorem Balanced.take (h : Balanced l s) (hStart : l.startingBalance.IsBalance)
    (identity : String) (amount : Number) : Balanced l (l.take s identity amount).2 := by
  unfold Ledger.take
  split_ifs with hPositive
  · refine h.update fun done slot hChange value hValue => ?_
    obtain ⟨current, hCurrent, ⟨-, rfl, -⟩ | ⟨-, hCovered, next, hNext, rfl⟩⟩ :=
      debiting_eq_ok hChange
    · exact h identity value hValue
    · exact ⟨next, (Option.some.inj hValue).symm,
        Number.isBalance_sub? (h.of_currentNumber hStart hCurrent) hCovered hNext⟩
  · exact h

/-! ### Any operations -/

/-- One operation of the ledger, or one on the same store that touches none of its
keys. A transfer that others come between is its debit and later its credit. -/
inductive Move (l : Ledger) (s : Store) : Store → Prop where
  | openAccount (identity : String) : Move l s (l.openAccount s identity).2
  | setBalance (identity : String) (amount : Number) : Move l s (l.setBalance s identity amount).2
  | give (identity : String) (amount : Number) : Move l s (l.give s identity amount).2
  | take (identity : String) (amount : Number) : Move l s (l.take s identity amount).2
  | transfer (source target : String) (amount : Number) :
      Move l s (l.transfer s source target amount).2
  | elsewhere {α : Type} {operation : Operation α} {d e : Disk} {trace : List Event}
      {outcome : Except StoreError α} {s' : Store}
      (hElsewhere : ∀ identity, ¬ operation.Touches (l.key identity))
      (hRuns : Runs (operation.perform s) d trace (outcome, s') e) : Move l s s'

theorem Move.balanced (h : Move l s s') (hStart : l.startingBalance.IsBalance)
    (hs : Balanced l s) : Balanced l s' := by
  cases h with
  | openAccount identity => exact hs.openAccount hStart identity
  | setBalance identity amount => exact hs.setBalance identity amount
  | give identity amount => exact hs.give hStart identity amount
  | take identity amount => exact hs.take hStart identity amount
  | transfer source target amount =>
      have hTake := hs.take hStart source amount
      rcases transfer_snd l s source target amount with hTransfer | hTransfer
      · rwa [hTransfer]
      · rw [hTransfer]
        exact hTake.give hStart target amount
  | elsewhere hElsewhere hRuns =>
      intro identity value hValue
      rw [Operation.get?_eq_of_runs hRuns (hElsewhere identity)] at hValue
      exact hs identity value hValue

/-- Any number of such operations, in any order. -/
def Moves (l : Ledger) : Store → Store → Prop :=
  Relation.ReflTransGen (Move l)

theorem Moves.balanced (h : Moves l first s) (hStart : l.startingBalance.IsBalance)
    (hFirst : Balanced l first) : Balanced l s := by
  induction h with
  | refl => exact hFirst
  | tail moves last ih => exact last.balanced hStart ih

/-- No balance becomes negative, whole or floating, nor infinite or not a number.
The starting balance is finite and not negative, and so are the numbers that are
stored under the keys of the ledger, a store that was opened holding none that is
not finite; the amounts of the operations may be anything, and the two steps of a
transfer may be apart. -/
theorem balances_nonneg (l : Ledger) (first s : Store)
    (hStart : l.startingBalance.isFinite = true ∧ l.startingBalance.order (.int 0) ≠ .lt)
    (hStorable : first.data.Storable)
    (hStored : ∀ identity value, first.get? (l.key identity) = some value →
      ∃ n, value = .number n ∧ n.order (.int 0) ≠ .lt)
    (hMoves : Moves l first s) (identity : String) :
    ∃ n, l.balance s identity = .ok n ∧ n.isFinite = true ∧ n.order (.int 0) ≠ .lt := by
  have hFirst : Balanced l first := fun other value hValue => by
    obtain ⟨n, rfl, hOrder⟩ := hStored other value hValue
    exact ⟨n, rfl, (Snapshot.storable_iff.mp hStorable _ _ hValue).2, hOrder⟩
  exact (hMoves.balanced hStart hFirst).balance hStart identity

/-- Taking 2^53 as a floating number from 2^53 + 1 as a whole one is covered, and
leaves zero, the whole number being rounded. -/
theorem balances_nonneg_rounded : ∃ s : Store,
    take ⟨"l", .int 9007199254740993⟩ (.opened {} .empty) "a"
      (.float (.ofInt 9007199254740992)) = (.ok true, s) ∧
    balance ⟨"l", .int 9007199254740993⟩ s "a" = .ok (.float .zero) ∧
    ∀ identity, ∃ n, balance ⟨"l", .int 9007199254740993⟩ s identity = .ok n ∧
      n.isFinite = true ∧ n.order (.int 0) ≠ .lt := by
  let l : Ledger := ⟨"l", .int 9007199254740993⟩
  let first : Store := .opened {} .empty
  have hPositive : (Number.float (.ofInt 9007199254740992)).isPositive = true := by
    decide +kernel
  have hCovered : (Number.int 9007199254740993).order (.float (.ofInt 9007199254740992)) ≠ .lt := by
    decide +kernel
  have hLeft : (Number.int 9007199254740993).sub? (.float (.ofInt 9007199254740992)) =
      some (.float .zero) := by
    decide +kernel
  have hTake : l.take first "a" (.float (.ofInt 9007199254740992)) =
      (.ok true, first.withSlot "l.a" (some (.number (.float .zero)))) := by
    generalize Binary64.ofInt 9007199254740992 = f at hPositive hCovered hLeft ⊢
    have hDebit : debiting (l.key "a") l.startingBalance (.float f) none =
        .ok (true, some (.number (.float .zero))) := by
      simp [debiting, currentNumber, hCovered, hLeft, fitting, bind, Except.bind, pure,
        Except.pure, l]
    have hSlot : first.get? (l.key "a") = none := rfl
    unfold Ledger.take
    rw [if_pos hPositive]
    simp only [Store.update, hSlot, hDebit]
    rfl
  have hMoves : Moves l first (first.withSlot "l.a" (some (.number (.float .zero)))) := by
    have hMove : Move l first _ := .take "a" (.float (.ofInt 9007199254740992))
    rw [hTake] at hMove
    exact .single hMove
  exact ⟨_, hTake, rfl, balances_nonneg l first _ (by decide +kernel) Snapshot.storable_empty nofun
    hMoves⟩

end Ledger

end SnapshotStore
