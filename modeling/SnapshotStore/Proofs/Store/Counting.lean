import Mathlib.Algebra.BigOperators.Group.List.Basic
import Mathlib.Data.List.Perm.Basic
import SnapshotStore.Proofs.Number.Arithmetic
import SnapshotStore.Proofs.Store.Shared

/-! Whole numbers that several clients count on. A call adds a whole number to the
one at a key or takes it away, as one step; between two calls anything may happen
that leaves the key alone. The number at the key is always the sum of what the
successful calls have added, and no call is lost or made twice. -/
namespace SnapshotStore

open Disk Store
open Program (Runs)

/-- The whole numbers of 64 bits. -/
def Number.Fits (n : Int) : Prop :=
  -2 ^ 63 ≤ n ∧ n < 2 ^ 63

theorem Number.ofInt?_of_fits {n : Int} (h : Fits n) :
    ∃ i : Int64, ofInt? n = some (.int i) ∧ i.toInt = n := by
  obtain ⟨i, hi⟩ : ∃ i, ofInt? n = some i := ⟨_, if_pos h⟩
  obtain ⟨k, rfl, hValue⟩ := toInt_of_ofInt? hi
  exact ⟨k, hi, hValue⟩

theorem Number.ofInt?_of_not_fits {n : Int} (h : ¬ Fits n) : ofInt? n = none :=
  if_neg h

namespace Store

/-- A slot as a whole number to count on. An empty slot counts as zero. -/
def count? : Option Value → Option Int
  | none => some 0
  | some (.number (.int i)) => some i.toInt
  | _ => none

theorem currentNumber_of_count? {slot : Option Value} {n : Int} (h : count? slot = some n)
    (key : String) :
    ∃ i : Int64, currentNumber key slot (.int 0) = .ok (.int i) ∧ i.toInt = n := by
  cases slot with
  | none => exact ⟨0, rfl, by simpa [count?] using h⟩
  | some value =>
      cases value with
      | number k =>
          cases k with
          | int i => exact ⟨i, rfl, by simpa [count?] using h⟩
          | float f => cases h
      | _ => cases h

/-- An update that is refused by its change reports why. -/
theorem update_of_error {α : Type} {s : Store} {key : String} {error : StoreError}
    {change : Option Value → Except StoreError (α × Option Value)} (hKey : key ≠ "")
    (h : change (s.get? key) = .error error) : s.update key change = (.error error, s) := by
  simp [update, checkKey, hKey, h]

/-- An update that leaves a whole number has it in place afterwards. -/
theorem update_of_int {α : Type} {s : Store} {key : String} {result : α} {i : Int64}
    {change : Option Value → Except StoreError (α × Option Value)} (hKey : key ≠ "")
    (h : change (s.get? key) = .ok (result, some (.number (.int i)))) :
    ∃ s', s.update key change = (.ok result, s') ∧ s'.get? key = some (.number (.int i)) := by
  by_cases hSame : sameSlot (some (.number (.int i))) (s.get? key) = true
  · exact ⟨s, by simp [update, checkKey, hKey, h, hSame], sameSlot_int hSame⟩
  · refine ⟨s.withSlot key (some (.number (.int i))), ?_, ?_⟩
    · simp [update, checkKey, hKey, h, hSame, putBack, checkValue, withSlot, Value.isStorable,
        Number.isFinite]
    · rw [get?_withSlot, if_pos rfl]

end Store

/-! ### Calls -/

/-- A call that counts up or down by a whole number, which may be negative. -/
inductive CountCall where
  | increment (delta : Int64)
  | decrement (delta : Int64)
deriving DecidableEq

namespace CountCall

variable {s : Store} {key : String} {n : Int}

/-- What a call adds. This need not be a number of 64 bits: the least of them has no
negative among them. -/
def amount : CountCall → Int
  | .increment delta => delta.toInt
  | .decrement delta => -delta.toInt

/-- Carry out a call. -/
def perform (s : Store) (key : String) : CountCall → Except StoreError Number × Store
  | .increment delta => s.increment key (.int delta)
  | .decrement delta => s.decrement key (.int delta)

/-- What a call computes from the current number. -/
def compute : CountCall → Number → Option Number
  | .increment delta, current => current.add? (.int delta)
  | .decrement delta, current => current.sub? (.int delta)

theorem perform_eq (s : Store) (key : String) (call : CountCall) :
    call.perform s key = s.update key (computing key call.compute) := by
  cases call <;> rfl

theorem compute_int (call : CountCall) (i : Int64) :
    call.compute (.int i) = Number.ofInt? (i.toInt + call.amount) := by
  cases call with
  | increment delta => rfl
  | decrement delta => exact congrArg Number.ofInt? (Int.sub_eq_add_neg ..)

/-- Everything that a call on a whole number can come to. -/
theorem perform_cases (call : CountCall) (h : count? (s.get? key) = some n) :
    key = "" ∧ call.perform s key = (.error .emptyKey, s) ∨
    key ≠ "" ∧ ¬ Number.Fits (n + call.amount) ∧
      call.perform s key = (.error (.overflow key), s) ∨
    key ≠ "" ∧ Number.Fits (n + call.amount) ∧ ∃ (i : Int64) (s' : Store),
      i.toInt = n + call.amount ∧ call.perform s key = (.ok (.int i), s') ∧
      s'.get? key = some (.number (.int i)) := by
  rw [perform_eq]
  by_cases hKey : key = ""
  · exact Or.inl ⟨hKey, by simp [update, checkKey, hKey]⟩
  obtain ⟨current, hCurrent, rfl⟩ := currentNumber_of_count? h key
  by_cases hFits : Number.Fits (current.toInt + call.amount)
  · obtain ⟨i, hSum, hValue⟩ := Number.ofInt?_of_fits hFits
    have hChange : computing key call.compute (s.get? key) =
        .ok (.int i, some (.number (.int i))) := by
      simp [computing, hCurrent, compute_int, hSum, fitting, bind, Except.bind, pure, Except.pure]
    obtain ⟨s', hUpdate, hPlaced⟩ := update_of_int hKey hChange
    exact Or.inr (Or.inr ⟨hKey, hFits, i, s', hValue, hUpdate, hPlaced⟩)
  · have hChange : computing key call.compute (s.get? key) = .error (.overflow key) := by
      simp [computing, hCurrent, compute_int, Number.ofInt?_of_not_fits hFits, fitting, bind,
        Except.bind]
    exact Or.inr (Or.inl ⟨hKey, hFits, update_of_error hKey hChange⟩)

end CountCall

/-! ### Clients -/

/-- A call that has returned, with what it returned. -/
structure Answered (ι : Type) where
  client : ι
  call : CountCall
  outcome : Except StoreError Number

namespace Answered

variable {ι : Type}

def Succeeded (a : Answered ι) : Prop :=
  ∃ value, a.outcome = .ok value

/-- What an answered call has contributed. -/
def contribution (a : Answered ι) : Int :=
  match a.outcome with
  | .ok _ => a.call.amount
  | .error _ => 0

/-- What a sequence of calls has contributed. -/
def total (log : List (Answered ι)) : Int :=
  (log.map contribution).sum

theorem total_concat (log : List (Answered ι)) (a : Answered ι) :
    total (log ++ [a]) = total log + a.contribution := by
  simp [total]

theorem contribution_of_succeeded {a : Answered ι} (h : a.Succeeded) :
    a.contribution = a.call.amount := by
  obtain ⟨value, hValue⟩ := h
  rw [contribution, hValue]

/-- An answer is right for a call that finds this number at the key. -/
structure Right (key : String) (found : Int) (a : Answered ι) : Prop where
  sum : ∀ value, a.outcome = .ok value → key ≠ "" ∧ Number.Fits (found + a.call.amount) ∧
    ∃ i : Int64, value = .int i ∧ i.toInt = found + a.call.amount
  refused : ∀ error, a.outcome = .error error →
    key = "" ∧ error = .emptyKey ∨
    key ≠ "" ∧ ¬ Number.Fits (found + a.call.amount) ∧ error = .overflow key

theorem Right.overflow_iff {key : String} {found : Int} {a : Answered ι} (h : a.Right key found) :
    a.outcome = .error (.overflow key) ↔ key ≠ "" ∧ ¬ Number.Fits (found + a.call.amount) := by
  constructor
  · intro hOutcome
    rcases h.refused _ hOutcome with ⟨-, hError⟩ | ⟨hKey, hFits, -⟩
    · cases hError
    · exact ⟨hKey, hFits⟩
  · rintro ⟨hKey, hFits⟩
    cases hOutcome : a.outcome with
    | ok value => exact absurd (h.sum value hOutcome).2.1 hFits
    | error error =>
        rcases h.refused error hOutcome with ⟨hEmpty, -⟩ | ⟨-, -, rfl⟩
        · exact absurd hEmpty hKey
        · rfl

theorem Right.emptyKey_iff {key : String} {found : Int} {a : Answered ι} (h : a.Right key found) :
    a.outcome = .error .emptyKey ↔ key = "" := by
  constructor
  · intro hOutcome
    rcases h.refused _ hOutcome with ⟨hEmpty, -⟩ | ⟨-, -, hError⟩
    · exact hEmpty
    · cases hError
  · intro hEmpty
    cases hOutcome : a.outcome with
    | ok value => exact absurd hEmpty (h.sum value hOutcome).1
    | error error =>
        rcases h.refused error hOutcome with ⟨-, rfl⟩ | ⟨hKey, -, -⟩
        · rfl
        · exact absurd hEmpty hKey

end Answered

/-- A store that clients count on, with the answers so far in the order in which the
calls took effect. -/
structure Tally (ι : Type) where
  shared : Shared ι
  log : List (Answered ι)

namespace Tally

variable {ι : Type} {key : String} {n : Int} {m m' : Tally ι} {s : Store} {d d' : Disk}

/-- A store on which no call was made. -/
def start (s : Store) (d : Disk) : Tally ι :=
  ⟨.start s d, []⟩

def slot (m : Tally ι) (key : String) : Option Value :=
  m.shared.store.get? key

/-- The calls of one client, in order. -/
def callsOf [DecidableEq ι] (m : Tally ι) (client : ι) : List CountCall :=
  (m.log.filter (·.client = client)).map Answered.call

/-- One call of one client, which may choose it after all answers so far; or one step
of a save, one mutation that leaves the key alone, or anything on the disk. Commands
that only read are mutations that leave every key alone. -/
inductive Step [DecidableEq ι] (key : String) (m : Tally ι) : Tally ι → Prop where
  | call (client : ι) (call : CountCall) {outcome : Except StoreError Number} {s : Store}
      (hCall : call.perform m.shared.store key = (outcome, s)) :
      Step key m ⟨{ m.shared with store := s }, m.log ++ [⟨client, call, outcome⟩]⟩
  | save {shared : Shared ι} (client : ι) (hSave : Shared.SaveStep client m.shared shared) :
      Step key m { m with shared }
  | other {α : Type} {operation : Operation α} {outcome : Except StoreError α} {s : Store}
      (hMutation : operation.IsMutation) (hOther : ¬ operation.Touches key)
      (hRuns : Runs (operation.perform m.shared.store) m.shared.disk [] (outcome, s)
        m.shared.disk) :
      Step key m { m with shared := { m.shared with store := s } }
  | elsewhere (e : Disk) : Step key m { m with shared := { m.shared with disk := e } }

/-- Any number of steps in any order. -/
def Steps [DecidableEq ι] (key : String) : Tally ι → Tally ι → Prop :=
  Relation.ReflTransGen (Step key)

/-- What holds at every moment: the key holds what it held, as long as no call has
succeeded, and else the sum; and every answer fits the calls before it. -/
structure Sound (key : String) (first : Option Value) (n : Int) (m : Tally ι) : Prop where
  count : count? (m.slot key) = some (n + Answered.total m.log)
  unused : (∀ a ∈ m.log, ¬ a.Succeeded) → m.slot key = first
  used : (∃ a ∈ m.log, a.Succeeded) → ∃ i : Int64, m.slot key = some (.number (.int i))
  right : ∀ before a after, m.log = before ++ a :: after →
    a.Right key (n + Answered.total before)

theorem sound_start (h : count? (s.get? key) = some n) :
    Sound key (s.get? key) n (start s d : Tally ι) :=
  ⟨h.trans (congrArg some (Int.add_zero n).symm), fun _ => rfl, by simp [start],
    fun before a after hLog => absurd hLog (by simp [start])⟩

/-- What leaves the key and the log as they are keeps everything. -/
theorem Sound.of_slot_eq {first : Option Value} {shared : Shared ι} (h : Sound key first n m)
    (hSlot : shared.store.get? key = m.slot key) : Sound key first n { m with shared } :=
  ⟨(congrArg count? hSlot).trans h.count, fun hNone => hSlot.trans (h.unused hNone),
    fun hSome => (h.used hSome).imp fun _ hi => hSlot.trans hi, h.right⟩

/-- The answers stay right when another one that is right comes after them. -/
theorem Sound.right_concat {first : Option Value} {a : Answered ι} (h : Sound key first n m)
    (ha : a.Right key (n + Answered.total m.log)) (before : List (Answered ι)) (b : Answered ι)
    (after : List (Answered ι)) (hLog : m.log ++ [a] = before ++ b :: after) :
    b.Right key (n + Answered.total before) := by
  rcases List.eq_nil_or_concat after with rfl | ⟨rest, last, rfl⟩
  · obtain ⟨rfl, hLast⟩ := List.append_inj' hLog rfl
    rw [← (List.cons.inj hLast).1]
    exact ha
  · rw [List.concat_eq_append, ← List.cons_append, ← List.append_assoc] at hLog
    exact h.right before b rest (List.append_inj' hLog rfl).1

/-- A call that fails contributes nothing, and any other becomes part of the sum. -/
theorem Sound.call {first : Option Value} {outcome : Except StoreError Number}
    (h : Sound key first n m) (client : ι) (call : CountCall)
    (hCall : call.perform m.shared.store key = (outcome, s)) :
    Sound key first n ⟨{ m.shared with store := s }, m.log ++ [⟨client, call, outcome⟩]⟩ := by
  have hFailed : ∀ error : StoreError, outcome = .error error → s = m.shared.store →
      Answered.Right key (n + Answered.total m.log) (⟨client, call, outcome⟩ : Answered ι) →
      Sound key first n ⟨{ m.shared with store := s }, m.log ++ [⟨client, call, outcome⟩]⟩ := by
    rintro error rfl rfl hRight
    have hNot : ¬ (⟨client, call, .error error⟩ : Answered ι).Succeeded := nofun
    refine ⟨?_, fun hNone => h.unused fun a ha => hNone a (List.mem_append_left _ ha),
      fun ⟨a, ha, hSucceeded⟩ => ?_, h.right_concat hRight⟩
    · rw [Answered.total_concat, Answered.contribution, Int.add_zero]
      exact h.count
    · rcases List.mem_append.mp ha with hBefore | hLast
      · exact h.used ⟨a, hBefore, hSucceeded⟩
      · rw [List.mem_singleton.mp hLast] at hSucceeded
        exact absurd hSucceeded hNot
  rcases call.perform_cases h.count with ⟨hKey, hResult⟩ | ⟨hKey, hFits, hResult⟩ |
    ⟨hKey, hFits, i, s', hValue, hResult, hPlaced⟩
  · obtain ⟨rfl, rfl⟩ := Prod.mk.inj (hCall.symm.trans hResult)
    exact hFailed .emptyKey rfl rfl ⟨nofun, fun error hError =>
      Or.inl ⟨hKey, (Except.error.inj hError).symm⟩⟩
  · obtain ⟨rfl, rfl⟩ := Prod.mk.inj (hCall.symm.trans hResult)
    exact hFailed (.overflow key) rfl rfl ⟨nofun, fun error hError =>
      Or.inr ⟨hKey, hFits, (Except.error.inj hError).symm⟩⟩
  · obtain ⟨rfl, rfl⟩ := Prod.mk.inj (hCall.symm.trans hResult)
    have hSucceeded : (⟨client, call, .ok (.int i)⟩ : Answered ι).Succeeded := ⟨_, rfl⟩
    refine ⟨?_, fun hNone => absurd hSucceeded (hNone _ (by simp)), fun _ => ⟨i, hPlaced⟩,
      h.right_concat ⟨fun value hOk => ⟨hKey, hFits, i, (Except.ok.inj hOk).symm, hValue⟩, nofun⟩⟩
    rw [Answered.total_concat, Answered.contribution_of_succeeded hSucceeded, ← Int.add_assoc,
      ← hValue]
    exact congrArg count? hPlaced

/-- Where all calls have succeeded, the sum depends on nothing but the calls. -/
theorem total_of_succeeded (h : ∀ a ∈ m.log, a.Succeeded) :
    Answered.total m.log = ((m.log.map fun a => (a.client, a.call)).map (·.2.amount)).sum := by
  rw [Answered.total, List.map_map]
  exact congrArg List.sum
    (List.map_congr_left fun a ha => Answered.contribution_of_succeeded (h a ha))

variable [DecidableEq ι]

/-- A step of a save leaves every value as it is. -/
theorem get?_of_saveStep {shared shared' : Shared ι} {client : ι}
    (h : Shared.SaveStep client shared shared') (key : String) :
    shared'.store.get? key = shared.store.get? key := by
  cases h <;> rfl

theorem Step.sound {first : Option Value} (h : Step key m m') (hSound : Sound key first n m) :
    Sound key first n m' := by
  cases h with
  | call client call hCall => exact hSound.call client call hCall
  | save client hSave => exact hSound.of_slot_eq (get?_of_saveStep hSave key)
  | other hMutation hOther hRuns => exact hSound.of_slot_eq (Operation.get?_eq_of_runs hRuns hOther)
  | elsewhere e => exact hSound.of_slot_eq rfl

theorem Steps.sound {first : Option Value} (h : Steps key m m') (hSound : Sound key first n m) :
    Sound key first n m' := by
  induction h with
  | refl => exact hSound
  | tail steps last ih => exact last.sound ih

/-! ### Two interleavings -/

/-- Where every client has made the same calls, the same calls were made altogether,
in some order. -/
theorem perm_of_callsOf (h : ∀ client, m.callsOf client = m'.callsOf client) :
    (m.log.map fun a => (a.client, a.call)).Perm (m'.log.map fun a => (a.client, a.call)) := by
  have hCount : ∀ (log : List (Answered ι)) (client : ι) (call : CountCall),
      (log.map fun a => (a.client, a.call)).count (client, call) =
        ((log.filter (·.client = client)).map Answered.call).count call := by
    intro log client call
    induction log with
    | nil => rfl
    | cons a log ih =>
        by_cases hClient : a.client = client
        · simp [List.count_cons, hClient, ih]
        · simp [hClient, ih]
  refine List.perm_iff_count.mpr fun ⟨client, call⟩ => ?_
  rw [hCount, hCount]
  exact congrArg (List.count call) (h client)

/-- Two interleavings of the same calls that all succeed leave the same value. -/
theorem Sound.slot_eq {first : Option Value} (h : Sound key first n m)
    (h' : Sound key first n m') (hAll : ∀ a ∈ m.log, a.Succeeded) (hAll' : ∀ a ∈ m'.log, a.Succeeded)
    (hCalls : ∀ client, m.callsOf client = m'.callsOf client) : m.slot key = m'.slot key := by
  have hPerm := perm_of_callsOf hCalls
  have hTotal : Answered.total m.log = Answered.total m'.log := by
    rw [total_of_succeeded hAll, total_of_succeeded hAll']
    exact (hPerm.map _).sum_eq
  by_cases hNone : m.log = []
  · have hNone' : m'.log = [] := by
      rw [hNone] at hPerm
      simpa using hPerm.symm.eq_nil
    rw [h.unused (by simp [hNone]), h'.unused (by simp [hNone'])]
  · have hNone' : m'.log ≠ [] := by
      intro hNone'
      rw [hNone'] at hPerm
      exact hNone (by simpa using hPerm.eq_nil)
    obtain ⟨a, ha⟩ := List.exists_mem_of_ne_nil _ hNone
    obtain ⟨a', ha'⟩ := List.exists_mem_of_ne_nil _ hNone'
    obtain ⟨i, hi⟩ := h.used ⟨a, ha, hAll a ha⟩
    obtain ⟨i', hi'⟩ := h'.used ⟨a', ha', hAll' a' ha'⟩
    have hCount := h.count
    have hCount' := h'.count
    rw [hi] at hCount
    rw [hi', ← hTotal, ← hCount] at hCount'
    rw [hi, hi', Int64.toInt_inj.mp (Option.some.inj hCount').symm]

/-- Any number of clients that count at one key, with their calls in any order, mixed
with saves and with operations on other keys. At every moment the number at the key is
the first one plus what the successful calls have added, and it is there as soon as one
call has succeeded. The answer of a successful call is that sum at its own place in the
order. A call is refused with an overflow if and only if its sum would leave 64 bits, or
with the empty key; it then leaves the store as it is. Where all calls succeed, the
order does not matter. -/
theorem no_update_lost (hStart : count? (s.get? key) = some n)
    (hSteps : Steps key (start s d) m) :
    count? (m.slot key) = some (n + Answered.total m.log) ∧
    ((∃ a ∈ m.log, a.Succeeded) → ∃ i : Int64, m.slot key = some (.number (.int i))) ∧
    (∀ before a after, m.log = before ++ a :: after →
      (∀ value, a.outcome = .ok value → ∃ i : Int64, value = .int i ∧
        i.toInt = n + Answered.total (before ++ [a])) ∧
      (a.outcome = .error (.overflow key) ↔
        key ≠ "" ∧ ¬ Number.Fits (n + Answered.total before + a.call.amount)) ∧
      (a.outcome = .error .emptyKey ↔ key = "") ∧
      (∀ error, a.outcome = .error error → error = .overflow key ∨ error = .emptyKey)) ∧
    (∀ (call : CountCall) error s', call.perform m.shared.store key = (.error error, s') →
      s' = m.shared.store) ∧
    (∀ (m' : Tally ι) d', Steps key (start s d') m' →
      (∀ a ∈ m.log, a.Succeeded) → (∀ a ∈ m'.log, a.Succeeded) →
      (∀ client, m.callsOf client = m'.callsOf client) → m.slot key = m'.slot key) := by
  have hSound := hSteps.sound (sound_start hStart)
  refine ⟨hSound.count, hSound.used, fun before a after hLog => ?_,
    fun call error s' hCall => update_error ((call.perform_eq _ _).symm.trans hCall),
    fun m' d' hSteps' hAll hAll' hCalls =>
      hSound.slot_eq (hSteps'.sound (sound_start hStart)) hAll hAll' hCalls⟩
  have hRight := hSound.right before a after hLog
  refine ⟨fun value hOk => ?_, hRight.overflow_iff, hRight.emptyKey_iff, fun error hError => ?_⟩
  · obtain ⟨-, -, i, hValue, hSum⟩ := hRight.sum value hOk
    refine ⟨i, hValue, ?_⟩
    rw [hSum, Answered.total_concat, Answered.contribution_of_succeeded ⟨value, hOk⟩,
      Int.add_assoc]
  · rcases hRight.refused error hError with ⟨-, hEmpty⟩ | ⟨-, -, hOverflow⟩
    · exact Or.inr hEmpty
    · exact Or.inl hOverflow

/-- Two clients at the upper limit: one call overflows while a save is waiting, and the
number is zero again in the end. -/
theorem no_update_lost_at_limit : ∃ m : Tally Bool,
    Steps "n" (start (opened localConfig .empty) .empty) m ∧
    m.log.map Answered.outcome =
      [.ok (.int Int64.maxValue), .error (.overflow "n"), .ok (.int 0)] ∧
    count? (m.slot "n") = some 0 := by
  let first : Store := opened localConfig .empty
  have hFirst : Steps "n" (start first .empty : Tally Bool) _ :=
    .single (.call true (.increment Int64.maxValue) rfl)
  have hFull := hFirst.tail (.call false (.increment 1) rfl)
  have hWaiting := hFull.tail (.save false (.call rfl))
  have hLast := hWaiting.tail (.call false (.decrement Int64.maxValue) rfl)
  have hStart : count? (first.get? "n") = some 0 := rfl
  obtain ⟨hCount, -⟩ := no_update_lost hStart hLast
  exact ⟨_, hLast, rfl, hCount⟩

/-- The least number, taken away from nothing at the empty key, leaves 64 bits, but it
is the key that is refused. -/
theorem not_overflow_at_emptyKey : ¬ ∀ (key : String) (n : Int) (s : Store) (d : Disk)
    (m : Tally Unit), count? (s.get? key) = some n → Steps key (start s d) m →
    ∀ before a after, m.log = before ++ a :: after →
      (a.outcome = .error (.overflow key) ↔
        ¬ Number.Fits (n + Answered.total before + a.call.amount)) := by
  intro h
  have hStep : Steps "" (start (opened localConfig .empty) .empty : Tally Unit) _ :=
    .single (.call () (.decrement Int64.minValue) rfl)
  have hOverflow := (h "" 0 _ _ _ rfl hStep [] _ [] rfl).mpr fun hFits => by
    exact absurd hFits.2 (by decide)
  cases hOverflow

end Tally

end SnapshotStore
