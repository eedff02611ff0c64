import SnapshotStore.Proofs.Number.Value
import SnapshotStore.Proofs.Store.Writing

/-! Operations of a ledger that fail. A debit and a credit fail at a value that is
not a number, or at a result that does not fit, and then leave the store as it was.
A transfer fails as one of its two steps does. If that is the debit, nothing has
moved; if it is the credit, the debit stays, since nothing takes it back. -/
namespace SnapshotStore

namespace Number

variable {a b n : Number}

theorem sameValue_self (h : n.isNaN = false) : n.sameValue n = true := by
  cases n with
  | int i => exact beq_self_eq_true i
  | float f => exact Binary64.sameValue_self h

/-- Nothing is above not-a-number. -/
theorem isNaN_of_order_lt (h : a.order b = .lt) : a.isNaN = false := by
  rw [← Bool.not_eq_true]
  intro hNaN
  rw [order_of_isNaN hNaN] at h
  split_ifs at h

/-! A sum and a difference are finite, whatever they are of. -/

theorem isFinite_of_add? (h : a.add? b = some n) : n.isFinite = true := by
  rcases add?_cases h with ⟨-, -, k, -, -, rfl, -⟩ | ⟨-, rfl, hFinite⟩
  · rfl
  · exact hFinite

theorem isFinite_of_sub? (h : a.sub? b = some n) : n.isFinite = true := by
  rcases sub?_cases h with ⟨-, -, k, -, -, rfl, -⟩ | ⟨-, rfl, hFinite⟩
  · rfl
  · exact hFinite

end Number

/-- Only a value of another kind is not read as a number. -/
theorem Store.currentNumber_eq_error {key : String} {slot : Option Value} {absent : Number}
    {error : StoreError} (h : currentNumber key slot absent = .error error) :
    ∃ value, slot = some value ∧ value.number? = none ∧
      error = .typeMismatch key .number value.kind := by
  cases slot with
  | none => cases h
  | some value =>
      unfold currentNumber expectNumber at h
      dsimp only at h
      cases hNumber : value.number? with
      | some n =>
          rw [hNumber] at h
          cases h
      | none =>
          rw [hNumber] at h
          exact ⟨value, rfl, hNumber, (Except.error.inj h).symm⟩

namespace Ledger

open Store

variable {l : Ledger} {s s' : Store} {identity source target : String} {amount : Number}
  {error : StoreError}

/-- Why no new balance is computed from the one that there is: the value that is
stored is not a number, or the result does not fit. -/
inductive Refused (l : Ledger) (s : Store) (identity : String)
    (compute : Number → Option Number) : StoreError → Prop where
  | kind (value : Value) (hHeld : s.get? (l.key identity) = some value)
      (hKind : value.number? = none) :
      Refused l s identity compute (.typeMismatch (l.key identity) .number value.kind)
  | overflow (held : Number) (hBalance : l.balance s identity = .ok held)
      (hResult : compute held = none) :
      Refused l s identity compute (.overflow (l.key identity))

variable {compute : Number → Option Number}

theorem Refused.of_balance (h : l.balance s identity = .error error) :
    Refused l s identity compute error := by
  obtain ⟨value, hHeld, hKind, rfl⟩ := currentNumber_eq_error h
  exact .kind value hHeld hKind

/-- What begins by reading the balance is refused there, or later on. -/
theorem Refused.of_reading {α : Type} {next : Number → Except StoreError α}
    (h : (currentNumber (l.key identity) (s.get? (l.key identity)) l.startingBalance >>= next) =
      .error error)
    (hNext : ∀ held, l.balance s identity = .ok held → next held = .error error →
      Refused l s identity compute error) : Refused l s identity compute error := by
  cases hBalance : currentNumber (l.key identity) (s.get? (l.key identity)) l.startingBalance with
  | error found =>
      rw [hBalance] at h
      rw [← Except.error.inj h]
      exact .of_balance hBalance
  | ok held =>
      rw [hBalance] at h
      exact hNext held hBalance h

theorem Refused.of_fitting {α : Type} {after : Number → α} {held : Number}
    (hBalance : l.balance s identity = .ok held)
    (h : (fitting (l.key identity) (compute held) >>= fun n => pure (after n)) = .error error) :
    Refused l s identity compute error := by
  cases hResult : compute held with
  | some n =>
      rw [hResult] at h
      cases h
  | none =>
      rw [hResult] at h
      rw [← Except.error.inj h]
      exact .overflow held hBalance hResult

/-! ### One step -/

/-- An update of a balance that only fails as a computation does. What it leaves
otherwise may be stored, or is there already. -/
theorem refused_of_update {α : Type}
    {change : Option Value → Except StoreError (α × Option Value)}
    (h : s.update (l.key identity) change = (.error error, s'))
    (hChange : change (s.get? (l.key identity)) = .error error → Refused l s identity compute error)
    (hLeft : ∀ result value, change (s.get? (l.key identity)) = .ok (result, some value) →
      value.isStorable = true ∨ sameSlot (some value) (s.get? (l.key identity)) = true) :
    s' = s ∧ Refused l s identity compute error := by
  refine ⟨update_error h, ?_⟩
  rcases update_error_cases h with ⟨hKey, -⟩ | ⟨-, hError⟩ |
    ⟨-, -, result, value, hOk, hStorable, hSame⟩
  · exact absurd hKey (l.key_ne_empty identity)
  · exact hChange hError
  · rcases hLeft result value hOk with hFits | hThere
    · rw [hFits] at hStorable
      cases hStorable
    · rw [hThere] at hSame
      cases hSame

theorem refused_of_debiting (h : debiting (l.key identity) l.startingBalance amount
    (s.get? (l.key identity)) = .error error) : Refused l s identity (·.sub? amount) error := by
  apply Refused.of_reading h
  intro held hBalance hRest
  split_ifs at hRest with hLess
  · cases hRest
  · exact .of_fitting hBalance hRest

theorem refused_of_crediting (h : crediting (l.key identity) l.startingBalance amount
    (s.get? (l.key identity)) = .error error) : Refused l s identity (·.add? amount) error := by
  apply Refused.of_reading h
  intro held hBalance hRest
  exact .of_fitting hBalance hRest

/-- A debit that fails takes nothing. -/
theorem take_error (h : l.take s source amount = (.error error, s')) :
    s' = s ∧ Refused l s source (·.sub? amount) error := by
  unfold take at h
  split_ifs at h with hPositive
  · apply refused_of_update h refused_of_debiting
    intro result value hOk
    obtain ⟨current, hCurrent, ⟨-, hKept, hLess⟩ | ⟨-, -, next, hNext, hAfter⟩⟩ :=
      debiting_eq_ok hOk
    · -- A declined slot is a number below the amount, hence equal to itself.
      rw [← hKept] at hCurrent ⊢
      refine Or.inr ?_
      cases value with
      | number n =>
          obtain rfl : n = current := Except.ok.inj hCurrent
          exact Number.sameValue_self (Number.isNaN_of_order_lt hLess)
      | _ => cases hCurrent
    · rw [Option.some.inj hAfter]
      exact Or.inl (Number.isFinite_of_sub? hNext)
  · cases h

/-- A credit that fails gives nothing. -/
theorem give_error (h : l.give s target amount = (.error error, s')) :
    s' = s ∧ Refused l s target (·.add? amount) error := by
  unfold give at h
  split_ifs at h with hPositive
  · apply refused_of_update h refused_of_crediting
    intro result value hOk
    obtain ⟨-, current, next, -, hNext, hAfter⟩ := crediting_eq_ok hOk
    rw [Option.some.inj hAfter]
    exact Or.inl (Number.isFinite_of_add? hNext)
  · cases h

/-- A positive amount is taken from a balance that covers it, and nothing else is
changed. -/
structure Debited (l : Ledger) (s s' : Store) (source : String) (amount : Number) : Prop where
  positive : amount.isPositive = true
  taken : ∃ held left, l.balance s source = .ok held ∧ held.order amount ≠ .lt ∧
    held.sub? amount = some left ∧ l.balance s' source = .ok left ∧
    ∀ key, s'.get? key = if key = l.key source then some (.number left) else s.get? key
  others : ∀ other, other ≠ source → l.balance s' other = l.balance s other

theorem debited_of_get? {held left : Number} (hPositive : amount.isPositive = true)
    (hBalance : l.balance s source = .ok held) (hCovered : held.order amount ≠ .lt)
    (hLeft : held.sub? amount = some left)
    (hSlot : ∀ key, s'.get? key =
      if key = l.key source then some (.number left) else s.get? key) :
    Debited l s s' source amount := by
  refine ⟨hPositive, ⟨held, left, hBalance, hCovered, hLeft, ?_, hSlot⟩, ?_⟩
  · rw [Ledger.balance, getNumber, hSlot, if_pos rfl]
    rfl
  · intro other hOther
    have hKey : l.key other ≠ l.key source := fun hSame => hOther (l.key_injective hSame)
    rw [Ledger.balance, getNumber, hSlot, if_neg hKey, Ledger.balance, getNumber]

theorem debited_of_take (h : l.take s source amount = (.ok true, s')) :
    Debited l s s' source amount := by
  unfold take at h
  split_ifs at h with hPositive
  · obtain ⟨-, slot, hSlot, hStore⟩ := update_ok h
    obtain ⟨held, hBalance, ⟨hDone, -⟩ | ⟨-, hCovered, left, hLeft, rfl⟩⟩ := debiting_eq_ok hSlot
    · cases hDone
    apply debited_of_get? hPositive hBalance hCovered hLeft
    intro key
    rcases hStore with ⟨hSame, rfl⟩ | ⟨-, -, rfl⟩
    · -- Rounding may give the balance back, and then it is there already.
      split_ifs with hKey
      · subst hKey
        cases hHeld : s'.get? (l.key source) with
        | none =>
            rw [hHeld] at hSame
            cases hSame
        | some value =>
            rw [hHeld] at hSame hBalance
            cases value with
            | number n =>
                obtain rfl : n = held := Except.ok.inj hBalance
                rw [Number.eq_of_sameValue_of_covers hPositive hCovered hSame]
            | _ => cases hBalance
      · rfl
    · exact get?_withSlot s _ key _
  · cases h

/-! ### Both steps -/

/-- A transfer that fails has failed in one of its steps. If the debit fails, the
store is as it was. If the credit fails, the receiver holds something that is not a
number or a balance that the amount does not fit on, and the store is as the debit
left it, with the amount taken from the sender and nothing else changed. -/
theorem transfer_error_cases (h : l.transfer s source target amount = (.error error, s')) :
    s' = s ∧ l.take s source amount = (.error error, s) ∧
      Refused l s source (·.sub? amount) error ∨
    l.take s source amount = (.ok true, s') ∧ Debited l s s' source amount ∧
      l.give s' target amount = (.error error, s') ∧
        Refused l s' target (·.add? amount) error := by
  unfold transfer at h
  cases hTake : l.take s source amount with
  | mk taken middle =>
      rw [hTake] at h
      cases taken with
      | error found =>
          obtain ⟨rfl, rfl⟩ : found = error ∧ middle = s' := by simpa using h
          obtain ⟨rfl, hRefused⟩ := take_error hTake
          exact Or.inl ⟨rfl, rfl, hRefused⟩
      | ok covered =>
          cases covered with
          | false => simp at h
          | true =>
              cases hGive : l.give middle target amount with
              | mk given last =>
                  simp only [hGive] at h
                  cases given with
                  | ok done => simp at h
                  | error found =>
                      obtain ⟨rfl, rfl⟩ : found = error ∧ last = s' := by simpa using h
                      obtain ⟨rfl, hRefused⟩ := give_error hGive
                      exact Or.inr ⟨rfl, debited_of_take hTake, hGive, hRefused⟩

/-- A store in which the receiver holds a text. -/
def unfit : Store :=
  .opened {} (KeyMap.empty.insert "bal.bob" (.text "x"))

theorem transfer_unfit : transfer ⟨"bal", .int 1000⟩ unfit "alice" "bob" (.int 5) =
    (.error (.typeMismatch "bal.bob" .number .text),
      unfit.withSlot "bal.alice" (some (.number (.int 995)))) :=
  rfl

/-- The sender has paid, and the receiver has got nothing. -/
theorem transfer_error_cases_unfit : ∃ error s',
    transfer ⟨"bal", .int 1000⟩ unfit "alice" "bob" (.int 5) = (.error error, s') ∧
    take ⟨"bal", .int 1000⟩ unfit "alice" (.int 5) = (.ok true, s') ∧
    Debited ⟨"bal", .int 1000⟩ unfit s' "alice" (.int 5) ∧
    Refused ⟨"bal", .int 1000⟩ s' "bob" (·.add? (.int 5)) error := by
  refine ⟨_, _, transfer_unfit, ?_⟩
  rcases transfer_error_cases transfer_unfit with ⟨hStore, -⟩ | ⟨hTake, hDebited, -, hRefused⟩
  · cases congrArg Store.generation hStore
  · exact ⟨hTake, hDebited, hRefused⟩

/-- So a transfer that fails may have moved something. -/
theorem transfer_error_moves : ¬ ∀ (l : Ledger) (s s' : Store) (source target : String)
    (amount : Number) (error : StoreError),
    l.transfer s source target amount = (.error error, s') →
    l.balance s' source = l.balance s source ∧ l.balance s' target = l.balance s target ∧
      s'.data = s.data := by
  intro hUnmoved
  obtain ⟨hBalance, -⟩ := hUnmoved _ _ _ _ _ _ _ transfer_unfit
  have hSame : Number.int 995 = .int 1000 := Except.ok.inj hBalance
  exact absurd hSame (by decide)

end Ledger

end SnapshotStore
