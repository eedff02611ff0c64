import Mathlib.Algebra.BigOperators.Group.Finset.Basic
import Mathlib.Algebra.BigOperators.Fin
import Mathlib.Logic.Relation
import SnapshotStore.Proofs.Number.Arithmetic
import SnapshotStore.Proofs.Store.Writing

/-! Transfers between whole balances. Several clients make transfers on one
ledger, each of them a debit and then a credit; between the two anything may
happen. What was debited and is not yet credited is on its way, and with it no
sum is lost. -/
namespace SnapshotStore.Ledger

open Store

variable {l : Ledger} {s s' : Store} {identity other : String} {amount : Int64} {done : Bool}

/-! ### Whole balances -/

/-- The starting balance and all balances that were written are whole numbers. -/
structure Whole (l : Ledger) (s : Store) : Prop where
  start : ∃ i, l.startingBalance = .int i
  stored : ∀ identity value, s.get? (l.key identity) = some value → ∃ i, value = .number (.int i)

/-- A balance as a whole number. -/
def wholeBalance (l : Ledger) (s : Store) (identity : String) : Int :=
  match l.balance s identity with
  | .ok (.int i) => i.toInt
  | _ => 0

theorem Whole.balance (h : Whole l s) (identity : String) :
    ∃ i : Int64, l.balance s identity = .ok (.int i) ∧ l.wholeBalance s identity = i.toInt := by
  have hBalance : ∃ i, l.balance s identity = .ok (.int i) := by
    unfold Ledger.balance getNumber currentNumber
    cases hSlot : s.get? (l.key identity) with
    | none =>
        obtain ⟨i, hStart⟩ := h.start
        exact ⟨i, by rw [hStart]⟩
    | some value =>
        obtain ⟨i, rfl⟩ := h.stored identity value hSlot
        exact ⟨i, rfl⟩
  obtain ⟨i, hBalance⟩ := hBalance
  exact ⟨i, hBalance, by rw [wholeBalance, hBalance]⟩

/-- The balance of one member is put in place as a whole number, and all others
stay. -/
structure Placed (l : Ledger) (s s' : Store) (identity : String) (n : Int) : Prop where
  whole : Whole l s'
  placed : l.wholeBalance s' identity = n
  others : ∀ other, other ≠ identity → l.wholeBalance s' other = l.wholeBalance s other

theorem placed_of_get? (h : Whole l s) {i : Int64}
    (hSlot : ∀ key, s'.get? key =
      if key = l.key identity then some (.number (.int i)) else s.get? key) :
    Placed l s s' identity i.toInt := by
  constructor
  · refine ⟨h.start, fun other value hValue => ?_⟩
    rw [hSlot] at hValue
    split_ifs at hValue with hSame
    · exact ⟨i, (Option.some.inj hValue).symm⟩
    · exact h.stored other value hValue
  · simp [wholeBalance, Ledger.balance, getNumber, hSlot, currentNumber, expectNumber,
      Value.number?]
  · intro other hOther
    have hKey : l.key other ≠ l.key identity := fun hSame => hOther (l.key_injective hSame)
    simp [wholeBalance, Ledger.balance, getNumber, hSlot, hKey]

/-- An update that leaves a whole number has it in place. -/
theorem placed_of_update {α : Type} {result : α} {i : Int64}
    {change : Option Value → Except StoreError (α × Option Value)} (hWhole : Whole l s)
    (h : s.update (l.key identity) change = (.ok result, s'))
    (hChange : ∀ slot, change (s.get? (l.key identity)) = .ok (result, slot) →
      slot = some (.number (.int i))) : Placed l s s' identity i.toInt := by
  obtain ⟨-, slot, hSlot, ⟨hSame, rfl⟩ | ⟨-, -, rfl⟩⟩ := update_ok h
  · rw [hChange slot hSlot] at hSame
    refine placed_of_get? hWhole fun key => ?_
    split_ifs with hKey
    · rw [hKey, sameSlot_int hSame]
    · rfl
  · rw [hChange slot hSlot]
    exact placed_of_get? hWhole fun key => get?_withSlot s _ key _

/-- A debit that is made takes a positive amount that was covered. -/
theorem placed_of_take (hWhole : Whole l s)
    (h : l.take s identity (.int amount) = (.ok true, s')) :
    0 < amount.toInt ∧ amount.toInt ≤ l.wholeBalance s identity ∧
      Placed l s s' identity (l.wholeBalance s identity - amount.toInt) := by
  unfold take at h
  split_ifs at h with hPositive
  · obtain ⟨i, hBalance, hWholeBalance⟩ := hWhole.balance identity
    have hDebit : ∀ slot, debiting (l.key identity) l.startingBalance (.int amount)
        (s.get? (l.key identity)) = .ok (true, slot) →
        amount.toInt ≤ i.toInt ∧ ∃ k : Int64, k.toInt = i.toInt - amount.toInt ∧
          slot = some (.number (.int k)) := by
      intro slot hSlot
      obtain ⟨current, hCurrent, ⟨hDone, -⟩ | ⟨-, hCovered, next, hNext, rfl⟩⟩ :=
        debiting_eq_ok hSlot
      · cases hDone
      · obtain rfl : current = .int i := Except.ok.inj (hCurrent.symm.trans hBalance)
        obtain ⟨k, rfl, hDifference⟩ := Number.toInt_of_ofInt? hNext
        refine ⟨?_, k, hDifference, rfl⟩
        simpa [Number.order, compare_lt_iff_lt] using hCovered
    obtain ⟨-, slot, hSlot, -⟩ := update_ok h
    obtain ⟨hCovered, k, hDifference, -⟩ := hDebit slot hSlot
    refine ⟨by simpa [Number.isPositive] using hPositive, by rwa [hWholeBalance], ?_⟩
    rw [hWholeBalance, ← hDifference]
    refine placed_of_update hWhole h fun slot hSlot => ?_
    obtain ⟨-, k', hDifference', rfl⟩ := hDebit slot hSlot
    rw [Int64.toInt_inj.mp (hDifference'.trans hDifference.symm)]
  · cases h

/-- A credit of a positive amount is made. -/
theorem placed_of_give (hWhole : Whole l s) (hPositive : 0 < amount.toInt)
    (h : l.give s identity (.int amount) = (.ok done, s')) :
    Placed l s s' identity (l.wholeBalance s identity + amount.toInt) := by
  unfold give at h
  rw [if_pos (by simpa [Number.isPositive] using hPositive)] at h
  obtain ⟨i, hBalance, hWholeBalance⟩ := hWhole.balance identity
  have hCredit : ∀ slot, crediting (l.key identity) l.startingBalance (.int amount)
      (s.get? (l.key identity)) = .ok (done, slot) →
      ∃ k : Int64, k.toInt = i.toInt + amount.toInt ∧ slot = some (.number (.int k)) := by
    intro slot hSlot
    obtain ⟨-, current, next, hCurrent, hNext, rfl⟩ := crediting_eq_ok hSlot
    obtain rfl : current = .int i := Except.ok.inj (hCurrent.symm.trans hBalance)
    obtain ⟨k, rfl, hSum⟩ := Number.toInt_of_ofInt? hNext
    exact ⟨k, hSum, rfl⟩
  obtain ⟨-, slot, hSlot, -⟩ := update_ok h
  obtain ⟨k, hSum, -⟩ := hCredit slot hSlot
  rw [hWholeBalance, ← hSum]
  refine placed_of_update hWhole h fun slot hSlot => ?_
  obtain ⟨k', hSum', rfl⟩ := hCredit slot hSlot
  rw [Int64.toInt_inj.mp (hSum'.trans hSum.symm)]

/-! ### Clients -/

/-- A call of a transfer between two members. -/
structure Call where
  source : String
  target : String
  amount : Int64

/-- Where a client is: between two calls, or between the debit and the credit of
one. -/
inductive Phase where
  | idle
  | owing (target : String) (amount : Int64)

/-- What is debited and not yet credited. -/
def Phase.onTheWay : Phase → Int
  | .idle => 0
  | .owing _ amount => amount.toInt

/-- A client with the calls that it has yet to make, and the answers to those that
have returned. -/
structure Client where
  phase : Phase
  calls : List Call
  answers : List Bool

/-- A store with the clients of a ledger on it. -/
structure Market (ι : Type) where
  store : Store
  clients : ι → Client

variable {ι : Type} [DecidableEq ι] {m m' first : Market ι} {i : ι}

/-- The market with another store, and one client in another state. -/
def Market.move (m : Market ι) (store : Store) (i : ι) (client : Client) : Market ι :=
  ⟨store, Function.update m.clients i client⟩

theorem Market.clients_move_self (m : Market ι) (store : Store) (i : ι) (client : Client) :
    (m.move store i client).clients i = client := by
  simp [Market.move]

theorem Market.clients_move_of_ne {j : ι} (h : j ≠ i) (m : Market ι) (store : Store)
    (client : Client) : (m.move store i client).clients j = m.clients j := by
  simp [Market.move, h]

/-- One step of one client: a debit, which may be declined and then ends the call,
or the credit that belongs to a debit. A step that reports an error is none. -/
inductive Step (l : Ledger) (i : ι) (m : Market ι) : Market ι → Prop where
  | debit {call : Call} {calls : List Call} {answers : List Bool} {store : Store}
      (hClient : m.clients i = ⟨.idle, call :: calls, answers⟩)
      (hTake : l.take m.store call.source (.int call.amount) = (.ok true, store)) :
      Step l i m (m.move store i ⟨.owing call.target call.amount, calls, answers⟩)
  | decline {call : Call} {calls : List Call} {answers : List Bool} {store : Store}
      (hClient : m.clients i = ⟨.idle, call :: calls, answers⟩)
      (hTake : l.take m.store call.source (.int call.amount) = (.ok false, store)) :
      Step l i m (m.move store i ⟨.idle, calls, answers ++ [false]⟩)
  | credit {target : String} {amount : Int64} {calls : List Call} {answers : List Bool}
      {done : Bool} {store : Store}
      (hClient : m.clients i = ⟨.owing target amount, calls, answers⟩)
      (hGive : l.give m.store target (.int amount) = (.ok done, store)) :
      Step l i m (m.move store i ⟨.idle, calls, answers ++ [true]⟩)

/-- Any number of steps, by any clients in any order. -/
def Steps (l : Ledger) : Market ι → Market ι → Prop :=
  Relation.ReflTransGen fun m m' => ∃ i, Step l i m m'

/-- A transfer is a debit that is declined, or a debit and then a credit. -/
theorem transfer_ok_cases {source target : String} {amount : Number}
    (h : l.transfer s source target amount = (.ok done, s')) :
    done = false ∧ l.take s source amount = (.ok false, s') ∨
    done = true ∧ ∃ middle given, l.take s source amount = (.ok true, middle) ∧
      l.give middle target amount = (.ok given, s') := by
  unfold transfer at h
  cases hTake : l.take s source amount with
  | mk taken middle =>
      rw [hTake] at h
      cases taken with
      | error error => cases h
      | ok covered =>
          cases covered with
          | false =>
              obtain ⟨hDone, rfl⟩ := Prod.mk.inj h
              exact Or.inl ⟨(Except.ok.inj hDone).symm, rfl⟩
          | true =>
              dsimp only at h
              cases hGive : l.give middle target amount with
              | mk given last =>
                  rw [hGive] at h
                  cases given with
                  | error error => cases h
                  | ok given =>
                      obtain ⟨hDone, rfl⟩ := Prod.mk.inj h
                      exact Or.inr ⟨(Except.ok.inj hDone).symm, middle, given, rfl, hGive⟩

/-- A transfer that nothing comes between goes through the steps of a client. -/
theorem steps_of_transfer {call : Call} {calls : List Call} {answers : List Bool}
    (hClient : m.clients i = ⟨.idle, call :: calls, answers⟩)
    (h : l.transfer m.store call.source call.target (.int call.amount) = (.ok done, s')) :
    Steps l m (m.move s' i ⟨.idle, calls, answers ++ [done]⟩) := by
  rcases transfer_ok_cases h with ⟨rfl, hTake⟩ | ⟨rfl, middle, given, hTake, hGive⟩
  · exact .single ⟨i, .decline hClient hTake⟩
  · have hDebit : Step l i m _ := .debit hClient hTake
    have hCredit : Step l i (m.move middle i ⟨.owing call.target call.amount, calls, answers⟩) _ :=
      .credit (m.clients_move_self middle i _) hGive
    refine .tail (.single ⟨i, hDebit⟩) ⟨i, ?_⟩
    simpa [Market.move] using hCredit

/-! ### Conservation -/

/-- The sum of the balances of some members. -/
def held (l : Ledger) (members : Finset String) (s : Store) : Int :=
  ∑ identity ∈ members, l.wholeBalance s identity

variable {members : Finset String}

theorem Placed.held {n : Int} (h : Placed l s s' identity n) (hMember : identity ∈ members) :
    l.held members s' = l.held members s + (n - l.wholeBalance s identity) := by
  have hRest : ∑ other ∈ members.erase identity, l.wholeBalance s' other =
      ∑ other ∈ members.erase identity, l.wholeBalance s other :=
    Finset.sum_congr rfl fun other hOther => h.others other (Finset.ne_of_mem_erase hOther)
  unfold Ledger.held
  rw [← Finset.add_sum_erase members _ hMember, ← Finset.add_sum_erase members _ hMember, hRest,
    h.placed]
  omega

/-- What is on the way between all members. -/
def Market.onTheWay [Fintype ι] (m : Market ι) : Int :=
  ∑ i, (m.clients i).phase.onTheWay

theorem onTheWay_move [Fintype ι] (m : Market ι) (store : Store) (i : ι) (client : Client) :
    (m.move store i client).onTheWay =
      m.onTheWay + (client.phase.onTheWay - (m.clients i).phase.onTheWay) := by
  unfold Market.onTheWay
  have hRest : ∑ j ∈ Finset.univ.erase i, ((m.move store i client).clients j).phase.onTheWay =
      ∑ j ∈ Finset.univ.erase i, (m.clients j).phase.onTheWay := by
    refine Finset.sum_congr rfl fun j hj => ?_
    rw [Market.clients_move_of_ne (Finset.ne_of_mem_erase hj)]
  rw [← Finset.add_sum_erase _ _ (Finset.mem_univ i),
    ← Finset.add_sum_erase _ _ (Finset.mem_univ i), hRest, Market.clients_move_self]
  omega

/-- What holds at every moment: all balances are whole, all calls are between the
members, and what is on the way is positive and goes to one of them. -/
structure Sound (l : Ledger) (members : Finset String) (m : Market ι) : Prop where
  whole : Whole l m.store
  calls : ∀ i, ∀ call ∈ (m.clients i).calls, call.source ∈ members ∧ call.target ∈ members
  owing : ∀ i target amount, (m.clients i).phase = .owing target amount →
    target ∈ members ∧ 0 < amount.toInt

theorem Sound.move (h : Sound l members m) {store : Store} {client : Client}
    (hWhole : Whole l store) (hCalls : client.calls ⊆ (m.clients i).calls)
    (hOwing : ∀ target amount, client.phase = .owing target amount →
      target ∈ members ∧ 0 < amount.toInt) :
    Sound l members (m.move store i client) := by
  refine ⟨hWhole, ?_, ?_⟩
  · exact (Function.forall_update_iff m.clients fun _ client =>
      ∀ call ∈ client.calls, call.source ∈ members ∧ call.target ∈ members).mpr
      ⟨fun call hCall => h.calls i call (hCalls hCall), fun j _ => h.calls j⟩
  · exact (Function.forall_update_iff m.clients fun _ client =>
      ∀ target amount, client.phase = .owing target amount →
        target ∈ members ∧ 0 < amount.toInt).mpr ⟨hOwing, fun j _ => h.owing j⟩

/-- A step that puts one balance in place, what it takes from it being on the way
afterwards, or what was on the way being added to it. -/
theorem Sound.placed [Fintype ι] (h : Sound l members m) {store : Store} {client : Client} {n : Int}
    (hPlaced : Placed l m.store store identity n) (hMember : identity ∈ members)
    (hCalls : client.calls ⊆ (m.clients i).calls)
    (hOwing : ∀ target amount, client.phase = .owing target amount →
      target ∈ members ∧ 0 < amount.toInt)
    (hSum : n + client.phase.onTheWay =
      l.wholeBalance m.store identity + (m.clients i).phase.onTheWay)
    (hNonneg : 0 ≤ l.wholeBalance m.store identity → 0 ≤ n) :
    Sound l members (m.move store i client) ∧
      l.held members store + (m.move store i client).onTheWay =
        l.held members m.store + m.onTheWay ∧
      ∀ other, 0 ≤ l.wholeBalance m.store other → 0 ≤ l.wholeBalance store other := by
  refine ⟨h.move hPlaced.whole hCalls hOwing, ?_, fun other hBefore => ?_⟩
  · rw [onTheWay_move, hPlaced.held hMember]
    omega
  · by_cases hSame : other = identity
    · subst hSame
      rw [hPlaced.placed]
      exact hNonneg hBefore
    · rw [hPlaced.others other hSame]
      exact hBefore

/-- What one step does to the balances, and to what is on the way. -/
theorem Step.spec [Fintype ι] (h : Step l i m m') (hSound : Sound l members m) :
    Sound l members m' ∧
      l.held members m'.store + m'.onTheWay = l.held members m.store + m.onTheWay ∧
      ∀ identity, 0 ≤ l.wholeBalance m.store identity → 0 ≤ l.wholeBalance m'.store identity := by
  cases h with
  | @debit call calls answers store hClient hTake =>
      obtain ⟨hPositive, hCovered, hPlaced⟩ := placed_of_take hSound.whole hTake
      obtain ⟨hSource, hTarget⟩ := hSound.calls i call (by simp [hClient])
      refine hSound.placed hPlaced hSource (by simp [hClient]) ?_ ?_ fun _ => by omega
      · rintro target amount hPhase
        obtain ⟨rfl, rfl⟩ := Phase.owing.inj hPhase
        exact ⟨hTarget, hPositive⟩
      · simp only [hClient, Phase.onTheWay]
        omega
  | @decline call calls answers store hClient hTake =>
      obtain rfl := eq_of_take_false hTake
      refine ⟨hSound.move hSound.whole (by simp [hClient]) nofun, ?_, fun _ hBefore => hBefore⟩
      rw [onTheWay_move]
      simp [hClient, Phase.onTheWay, Market.move]
  | @credit target amount calls answers done store hClient hGive =>
      obtain ⟨hTarget, hPositive⟩ := hSound.owing i target amount (by simp [hClient])
      have hPlaced := placed_of_give hSound.whole hPositive hGive
      refine hSound.placed hPlaced hTarget (by simp [hClient]) nofun ?_ fun _ => by omega
      simp only [hClient, Phase.onTheWay]
      omega

/-- The same over any number of steps. -/
theorem Steps.spec [Fintype ι] (h : Steps l first m) (hSound : Sound l members first) :
    Sound l members m ∧
      l.held members m.store + m.onTheWay = l.held members first.store + first.onTheWay ∧
      ∀ identity, 0 ≤ l.wholeBalance first.store identity →
        0 ≤ l.wholeBalance m.store identity := by
  induction h with
  | refl => exact ⟨hSound, rfl, fun _ => id⟩
  | tail steps last ih =>
      obtain ⟨i, hLast⟩ := last
      obtain ⟨hMiddle, hSum, hNonneg⟩ := ih
      obtain ⟨hSoundLast, hSumLast, hNonnegLast⟩ := hLast.spec hMiddle
      exact ⟨hSoundLast, hSumLast.trans hSum, fun identity hFirst =>
        hNonnegLast identity (hNonneg identity hFirst)⟩

/-- What a whole transfer leaves that nothing comes between, at any moment of a market: the
members hold together what they held before, no balance becomes negative, and the store
is as it was if the transfer was declined. -/
theorem Sound.transfer [Fintype ι] {call : Call} {calls : List Call} {answers : List Bool}
    (h : Sound l members m) (hClient : m.clients i = ⟨.idle, call :: calls, answers⟩)
    (hTransfer : l.transfer m.store call.source call.target (.int call.amount) = (.ok done, s')) :
    Whole l s' ∧ l.held members s' = l.held members m.store ∧
      (∀ identity, 0 ≤ l.wholeBalance m.store identity → 0 ≤ l.wholeBalance s' identity) ∧
      (done = false → s' = m.store) := by
  obtain ⟨hSound, hSum, hNonneg⟩ := (steps_of_transfer hClient hTransfer).spec h
  rw [onTheWay_move, hClient] at hSum
  have hHeld : l.held members s' = l.held members m.store := by
    change l.held members s' + (m.onTheWay + (0 - 0)) = _ at hSum
    omega
  refine ⟨hSound.whole, hHeld, hNonneg, fun hDeclined => ?_⟩
  rcases transfer_ok_cases hTransfer with ⟨-, hTake⟩ | ⟨rfl, -⟩
  · exact eq_of_take_false hTake
  · cases hDeclined

/-- Transfers between whole balances conserve the money. Take any finitely many
clients, each with its own calls, none of them begun, and any members that all
calls are between; a member that was never written counts with the starting
balance, and any steps of the clients may come in any order. At every moment all
balances are whole, and what the members hold and what is on the way make the
initial sum; once all calls have returned, the members hold it all. A call that
is answered with false leaves the store as it was when it returns, and no balance
becomes negative. -/
theorem transfers_conserve [Fintype ι] (l : Ledger) (first : Market ι) (members : Finset String)
    (hWhole : Whole l first.store) (hIdle : ∀ i, (first.clients i).phase = .idle)
    (hCalls : ∀ i, ∀ call ∈ (first.clients i).calls, call.source ∈ members ∧ call.target ∈ members)
    (m : Market ι) (hSteps : Steps l first m) :
    (∀ identity, ∃ i : Int64, l.balance m.store identity = .ok (.int i) ∧
      l.wholeBalance m.store identity = i.toInt) ∧
    l.held members m.store + m.onTheWay = l.held members first.store ∧
    ((∀ i, (m.clients i).phase = .idle ∧ (m.clients i).calls = []) →
      l.held members m.store = l.held members first.store) ∧
    (∀ i m', Step l i m m' → (m'.clients i).answers = (m.clients i).answers ++ [false] →
      m'.store = m.store) ∧
    (∀ identity, 0 ≤ l.wholeBalance first.store identity →
      0 ≤ l.wholeBalance m.store identity) := by
  have hNothing : ∀ m : Market ι, (∀ i, (m.clients i).phase = .idle) → m.onTheWay = 0 :=
    fun m hAll => Finset.sum_eq_zero fun i _ => by rw [hAll i]; rfl
  have hSound : Sound l members first :=
    ⟨hWhole, hCalls, fun i target amount hPhase => by rw [hIdle i] at hPhase; cases hPhase⟩
  obtain ⟨hLast, hSum, hNonneg⟩ := hSteps.spec hSound
  rw [hNothing first hIdle, Int.add_zero] at hSum
  refine ⟨hLast.whole.balance, hSum, fun hDone => ?_, fun i m' hStep hAnswer => ?_, hNonneg⟩
  · rw [hNothing m fun i => (hDone i).1] at hSum
    omega
  · cases hStep with
    | debit hClient hTake => simp [Market.clients_move_self, hClient] at hAnswer
    | decline hClient hTake => exact eq_of_take_false hTake
    | credit hClient hGive => simp [Market.clients_move_self, hClient] at hAnswer

/-- Two clients of a ledger with the starting balance ten: one owes `b` the five
that it has taken from `a`, the other one is still to take twenty from `b`. -/
theorem transfers_conserve_owing : ∃ m : Market Bool,
    Steps ⟨"l", .int 10⟩ ⟨.opened {} .empty, fun i => ⟨.idle,
      if i then [⟨"a", "b", 5⟩] else [⟨"b", "a", 20⟩], []⟩⟩ m ∧
    (m.clients true).phase = .owing "b" 5 ∧
    held ⟨"l", .int 10⟩ {"a", "b"} m.store + m.onTheWay = 20 := by
  let l : Ledger := ⟨"l", .int 10⟩
  let first : Market Bool := ⟨.opened {} .empty, fun i => ⟨.idle,
    if i then [⟨"a", "b", 5⟩] else [⟨"b", "a", 20⟩], []⟩⟩
  have hTake : l.take first.store "a" (.int 5) =
      (.ok true, first.store.withSlot "l.a" (some (.number (.int 5)))) := by
    rfl
  have hStep : Step l true first _ := .debit rfl hTake
  have hWhole : Whole l first.store := ⟨⟨10, rfl⟩, nofun⟩
  obtain ⟨-, hSum, -⟩ := transfers_conserve l first {"a", "b"} hWhole (fun _ => rfl)
    (by intro i call hCall; cases i <;> simp_all [first]) _ (.single ⟨true, hStep⟩)
  refine ⟨_, .single ⟨true, hStep⟩, ?_, hSum.trans ?_⟩
  · exact congrArg Client.phase (first.clients_move_self _ true _)
  · decide

end SnapshotStore.Ledger
