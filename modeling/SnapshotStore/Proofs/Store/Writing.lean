import Mathlib.Tactic.SplitIfs
import SnapshotStore.KeyMap.Lemmas
import SnapshotStore.Ledger
import SnapshotStore.Proofs.Snapshot.Storable
import SnapshotStore.Store.Saving

/-! What the operations that write do to a store. Each of them either leaves the
store as it was, or counts one change of its content; a transfer is two of them
in a row. -/
namespace SnapshotStore

/-- Only not-a-number differs from itself. -/
theorem Binary64.sameValue_self {f : Binary64} (h : f.isNaN = false) : f.sameValue f = true := by
  cases f with
  | nan => cases h
  | infinite negative => cases negative <;> rfl
  | finite negative m => simp [sameValue, compare?, place?]

namespace Store

variable {α : Type} {s s' : Store} {key other : String} {slot : Option Value}
  {change : Option Value → Except StoreError (α × Option Value)} {result : α}

/-! ### One slot -/

/-- The store with a slot put in place, as one change. -/
def withSlot (s : Store) (key : String) : Option Value → Store
  | none => s.changeTo (s.data.erase key)
  | some value => s.changeTo (s.data.insert key value)

theorem get?_withSlot (s : Store) (key other : String) (slot : Option Value) :
    (s.withSlot key slot).get? other = if other = key then slot else s.get? other := by
  cases slot with
  | none => exact KeyMap.get?_erase s.data key other
  | some value => exact KeyMap.get?_insert s.data key other value

theorem generation_withSlot (s : Store) (key : String) (slot : Option Value) :
    (s.withSlot key slot).generation = s.generation + 1 := by
  cases slot <;> rfl

theorem savedGeneration_withSlot (s : Store) (key : String) (slot : Option Value) :
    (s.withSlot key slot).savedGeneration = s.savedGeneration := by
  cases slot <;> rfl

theorem config_withSlot (s : Store) (key : String) (slot : Option Value) :
    (s.withSlot key slot).config = s.config := by
  cases slot <;> rfl

/-! ### Operations on one key -/

theorem set_cases (s : Store) (key : String) (value : Value) :
    (∃ error, s.set key value = (.error error, s)) ∨
    key ≠ "" ∧ value.isStorable = true ∧
      s.set key value = (.ok (), s.withSlot key (some value)) := by
  unfold set checkKey checkValue
  by_cases hKey : key = ""
  · exact Or.inl ⟨.emptyKey, by simp [hKey]⟩
  · cases hValue : value.isStorable with
    | false => exact Or.inl ⟨.invalidValue key .notFinite, by simp [hKey]⟩
    | true => exact Or.inr ⟨hKey, rfl, by simp [hKey, withSlot]⟩

theorem delete_cases (s : Store) (key : String) :
    s.delete key = (false, s) ∨ s.delete key = (true, s.withSlot key none) := by
  unfold delete
  split_ifs with hHas
  · exact Or.inr rfl
  · exact Or.inl rfl

theorem putBack_cases (s : Store) (key : String) (slot : Option Value) :
    (∃ error, s.putBack key slot = (.error error, s)) ∨
    (∀ value ∈ slot, value.isStorable = true) ∧
      s.putBack key slot = (.ok (), s.withSlot key slot) := by
  unfold putBack
  cases slot with
  | none => exact Or.inr ⟨nofun, rfl⟩
  | some value =>
      unfold checkValue
      cases hValue : value.isStorable with
      | false => exact Or.inl ⟨.invalidValue key .notFinite, by simp [hValue]⟩
      | true => exact Or.inr ⟨by simp [hValue], by simp [hValue, withSlot]⟩

/-- Everything that an update can come to. -/
theorem update_cases (s : Store) (key : String)
    (change : Option Value → Except StoreError (α × Option Value)) :
    (∃ error, s.update key change = (.error error, s)) ∨
    key ≠ "" ∧ ∃ result slot, change (s.get? key) = .ok (result, slot) ∧
      (sameSlot slot (s.get? key) = true ∧ s.update key change = (.ok result, s) ∨
        sameSlot slot (s.get? key) = false ∧ (∀ value ∈ slot, value.isStorable = true) ∧
          s.update key change = (.ok result, s.withSlot key slot)) := by
  unfold update checkKey
  by_cases hKey : key = ""
  · exact Or.inl ⟨.emptyKey, by simp [hKey]⟩
  simp only [if_neg hKey]
  cases hChange : change (s.get? key) with
  | error error => exact Or.inl ⟨error, rfl⟩
  | ok changed =>
      obtain ⟨result, slot⟩ := changed
      dsimp only
      by_cases hSame : sameSlot slot (s.get? key) = true
      · exact Or.inr ⟨hKey, result, slot, rfl, Or.inl ⟨hSame, by rw [if_pos hSame]⟩⟩
      · rw [if_neg hSame]
        rcases putBack_cases s key slot with ⟨error, hBack⟩ | ⟨hStorable, hBack⟩
        · exact Or.inl ⟨error, by rw [hBack]⟩
        · exact Or.inr ⟨hKey, result, slot, rfl,
            Or.inr ⟨Bool.eq_false_iff.mpr hSame, hStorable, by rw [hBack]⟩⟩

/-- A slot that may be stored holds the same value as itself. -/
theorem sameSlot_self {slot : Option Value} (h : ∀ value ∈ slot, value.isStorable = true) :
    sameSlot slot slot = true := by
  cases slot with
  | none => rfl
  | some value =>
      have hValue := h value rfl
      cases value with
      | bool b => exact beq_self_eq_true b
      | text t => exact beq_self_eq_true t
      | list items => exact beq_self_eq_true items
      | number n =>
          cases n with
          | int i => exact beq_self_eq_true i
          | float f =>
              cases f with
              | nan => cases hValue
              | infinite negative => cases hValue
              | finite negative m => exact Binary64.sameValue_self rfl

/-- Only the same whole number holds the same value as a whole number. -/
theorem sameSlot_int {slot : Option Value} {i : Int64}
    (h : sameSlot (some (.number (.int i))) slot = true) : slot = some (.number (.int i)) := by
  cases slot with
  | none => cases h
  | some value =>
      cases value with
      | number n =>
          cases n with
          | int j => rw [eq_of_beq h]
          | float f => cases h
      | _ => cases h

theorem update_error {error : StoreError} (h : s.update key change = (.error error, s')) :
    s' = s := by
  rcases update_cases s key change with ⟨error, hError⟩ |
    ⟨-, result, slot, -, ⟨-, hResult⟩ | ⟨-, -, hResult⟩⟩
  · rw [hError] at h
    exact (Prod.mk.inj h).2.symm
  · simp [hResult] at h
  · simp [hResult] at h

/-- An update fails at the empty key, by its own change, or because the change leaves
something new that may not be stored. -/
theorem update_error_cases {error : StoreError} (h : s.update key change = (.error error, s')) :
    key = "" ∧ error = .emptyKey ∨ key ≠ "" ∧ change (s.get? key) = .error error ∨
    key ≠ "" ∧ error = .invalidValue key .notFinite ∧
      ∃ result value, change (s.get? key) = .ok (result, some value) ∧
        value.isStorable = false ∧ sameSlot (some value) (s.get? key) = false := by
  unfold update checkKey at h
  by_cases hKey : key = ""
  · simp only [if_pos hKey] at h
    exact Or.inl ⟨hKey, (Except.error.inj (Prod.mk.inj h).1).symm⟩
  simp only [if_neg hKey] at h
  refine Or.inr ?_
  cases hChange : change (s.get? key) with
  | error found =>
      rw [hChange] at h
      exact Or.inl ⟨hKey, congrArg Except.error (Except.error.inj (Prod.mk.inj h).1)⟩
  | ok changed =>
      obtain ⟨result, slot⟩ := changed
      rw [hChange] at h
      dsimp only at h
      by_cases hSame : sameSlot slot (s.get? key) = true
      · rw [if_pos hSame] at h
        cases h
      · rw [if_neg hSame] at h
        cases slot with
        | none => cases h
        | some value =>
            cases hValue : value.isStorable with
            | true => simp [putBack, checkValue, hValue] at h
            | false =>
                simp only [putBack, checkValue, hValue, Bool.false_eq_true, if_false] at h
                exact Or.inr ⟨hKey, (Except.error.inj (Prod.mk.inj h).1).symm, result, value, rfl,
                  hValue, Bool.eq_false_iff.mpr hSame⟩

/-- An update that succeeds has put its slot in place, unless it held the same
value already. -/
theorem update_ok (h : s.update key change = (.ok result, s')) :
    key ≠ "" ∧ ∃ slot, change (s.get? key) = .ok (result, slot) ∧
      (sameSlot slot (s.get? key) = true ∧ s' = s ∨
        sameSlot slot (s.get? key) = false ∧ (∀ value ∈ slot, value.isStorable = true) ∧
          s' = s.withSlot key slot) := by
  rcases update_cases s key change with ⟨error, hError⟩ |
    ⟨hKey, result', slot, hChange, ⟨hSame, hResult⟩ | ⟨hSame, hStorable, hResult⟩⟩
  · simp [hError] at h
  · rw [hResult] at h
    obtain ⟨hOk, rfl⟩ := Prod.mk.inj h
    obtain rfl := Except.ok.inj hOk
    exact ⟨hKey, slot, hChange, Or.inl ⟨hSame, rfl⟩⟩
  · rw [hResult] at h
    obtain ⟨hOk, rfl⟩ := Prod.mk.inj h
    obtain rfl := Except.ok.inj hOk
    exact ⟨hKey, slot, hChange, Or.inr ⟨hSame, hStorable, rfl⟩⟩

/-- An update that gives its slot back leaves the store as it was. -/
theorem eq_of_update_ok (h : s.update key change = (.ok result, s'))
    (hSlot : ∀ slot, change (s.get? key) = .ok (result, slot) → slot = s.get? key) : s' = s := by
  obtain ⟨-, slot, hChange, ⟨-, hStore⟩ | ⟨hSame, hStorable, -⟩⟩ := update_ok h
  · exact hStore
  · have hGiven := hSlot slot hChange
    rw [← hGiven, sameSlot_self hStorable] at hSame
    cases hSame

/-! ### Arithmetic on one slot -/

section Arithmetic

variable {absent amount current next : Number} {done : Bool} {after : Option Value}

theorem fitting_eq_ok {computed : Option Number} (h : fitting key computed = .ok next) :
    computed = some next := by
  cases computed with
  | none => cases h
  | some n => rw [Except.ok.inj h]

/-- A debit either gives the slot back, the number being less than the amount,
or leaves the difference. -/
theorem debiting_eq_ok (h : debiting key absent amount slot = .ok (done, after)) :
    ∃ current, currentNumber key slot absent = .ok current ∧
      (done = false ∧ after = slot ∧ current.order amount = .lt ∨
        done = true ∧ current.order amount ≠ .lt ∧
          ∃ next, current.sub? amount = some next ∧ after = some (.number next)) := by
  unfold debiting at h
  cases hCurrent : currentNumber key slot absent with
  | error error => simp [hCurrent, bind, Except.bind] at h
  | ok current =>
      refine ⟨current, rfl, ?_⟩
      rw [hCurrent] at h
      by_cases hLess : current.order amount = .lt
      · simp only [bind, Except.bind, hLess, if_true, pure, Except.pure, Except.ok.injEq,
          Prod.mk.injEq] at h
        exact Or.inl ⟨h.1.symm, h.2.symm, hLess⟩
      · cases hNext : fitting key (current.sub? amount) with
        | error error => simp [bind, Except.bind, hLess, hNext] at h
        | ok next =>
            simp only [bind, Except.bind, hLess, if_false, hNext, pure, Except.pure,
              Except.ok.injEq, Prod.mk.injEq] at h
            exact Or.inr ⟨h.1.symm, hLess, next, fitting_eq_ok hNext, h.2.symm⟩

/-- A computation leaves the number that it gives. -/
theorem computing_eq_ok {compute : Number → Option Number}
    (h : computing key compute slot = .ok (next, after)) :
    ∃ current, currentNumber key slot (.int 0) = .ok current ∧ compute current = some next ∧
      after = some (.number next) := by
  unfold computing at h
  cases hCurrent : currentNumber key slot (.int 0) with
  | error error => simp [hCurrent, bind, Except.bind] at h
  | ok current =>
      rw [hCurrent] at h
      cases hNext : fitting key (compute current) with
      | error error => simp [bind, Except.bind, hNext] at h
      | ok computed =>
          simp only [bind, Except.bind, hNext, pure, Except.pure, Except.ok.injEq,
            Prod.mk.injEq] at h
          obtain ⟨rfl, rfl⟩ := h
          exact ⟨current, rfl, fitting_eq_ok hNext, rfl⟩

end Arithmetic

/-! ### Failing and declining -/

/-- An operation that reports an error leaves the store as it was. -/
def FailsInPlace (s : Store) (result : Except StoreError α × Store) : Prop :=
  ∀ error, result.1 = .error error → result.2 = s

theorem failsInPlace_set (s : Store) (key : String) (value : Value) :
    FailsInPlace s (s.set key value) := by
  intro error hError
  rcases set_cases s key value with ⟨_, hSet⟩ | ⟨-, -, hSet⟩
  · rw [hSet]
  · simp [hSet] at hError

theorem failsInPlace_update (s : Store) (key : String)
    (change : Option Value → Except StoreError (α × Option Value)) :
    FailsInPlace s (s.update key change) :=
  fun _ hError => update_error (Prod.ext hError rfl)

theorem failsInPlace_decrementIfAtLeast (s : Store) (key : String) (amount : Number) :
    FailsInPlace s (s.decrementIfAtLeast key amount) := by
  unfold decrementIfAtLeast
  split_ifs with hNegative
  · exact fun _ _ => rfl
  · exact failsInPlace_update s key _

theorem eq_of_decrementIfAtLeast_false {amount : Number}
    (h : s.decrementIfAtLeast key amount = (.ok false, s')) : s' = s := by
  unfold decrementIfAtLeast at h
  split_ifs at h with hNegative
  · cases h
  · refine eq_of_update_ok h fun slot hSlot => ?_
    obtain ⟨current, -, ⟨-, hAfter, -⟩ | ⟨hDone, -⟩⟩ := debiting_eq_ok hSlot
    · exact hAfter
    · cases hDone

theorem eq_of_delete_false (h : s.delete key = (false, s')) : s' = s := by
  rcases delete_cases s key with hDelete | hDelete
  · rw [hDelete] at h
    exact (Prod.mk.inj h).2.symm
  · simp [hDelete] at h

/-! ### Changes -/

/-- At most one change of the content of a store, to keys of this sort. What is
put in place may be stored. -/
inductive Change (s : Store) (touched : String → Prop) : Store → Prop where
  | kept : Change s touched s
  | slot (key : String) (slot : Option Value) (hTouched : touched key)
      (hSlot : ∀ value ∈ slot, key ≠ "" ∧ value.isStorable = true) :
      Change s touched (s.withSlot key slot)
  | cleared (hTouched : ∀ key, touched key) : Change s touched (s.changeTo .empty)

variable {touched : String → Prop}

theorem Change.mono {more : String → Prop} (h : Change s touched s')
    (hMore : ∀ key, touched key → more key) : Change s more s' := by
  cases h with
  | kept => exact .kept
  | slot key slot hTouched hSlot => exact .slot key slot (hMore key hTouched) hSlot
  | cleared hTouched => exact .cleared fun key => hMore key (hTouched key)

/-- Other keys keep their values. -/
theorem Change.get?_eq (h : Change s touched s') (hOther : ¬ touched other) :
    s'.get? other = s.get? other := by
  cases h with
  | kept => rfl
  | slot key slot hTouched hSlot =>
      rw [get?_withSlot, if_neg]
      rintro rfl
      exact hOther hTouched
  | cleared hTouched => exact absurd (hTouched other) hOther

/-- No change goes uncounted. -/
theorem Change.generation (h : Change s touched s') :
    s' = s ∨ s'.generation = s.generation + 1 := by
  cases h with
  | kept => exact Or.inl rfl
  | slot key slot hTouched hSlot => exact Or.inr (generation_withSlot s key slot)
  | cleared hTouched => exact Or.inr rfl

theorem Change.savedGeneration (h : Change s touched s') :
    s'.savedGeneration = s.savedGeneration := by
  cases h with
  | kept => rfl
  | slot key slot hTouched hSlot => exact savedGeneration_withSlot s key slot
  | cleared hTouched => rfl

theorem Change.config (h : Change s touched s') : s'.config = s.config := by
  cases h with
  | kept => rfl
  | slot key slot hTouched hSlot => exact config_withSlot s key slot
  | cleared hTouched => rfl

theorem Change.storable (h : Change s touched s') (hs : s.data.Storable) : s'.data.Storable := by
  cases h with
  | kept => exact hs
  | slot key slot hTouched hSlot =>
      cases slot with
      | none => exact hs.erase
      | some value =>
          obtain ⟨hKey, hValue⟩ := hSlot value rfl
          exact hs.insert hKey hValue
  | cleared hTouched => exact Snapshot.storable_empty

theorem change_set (s : Store) (key : String) (value : Value) :
    Change s (· = key) (s.set key value).2 := by
  rcases set_cases s key value with ⟨error, hSet⟩ | ⟨hKey, hValue, hSet⟩
  · rw [hSet]
    exact .kept
  · rw [hSet]
    refine .slot key (some value) rfl fun held hHeld => ?_
    obtain rfl := Option.some.inj hHeld
    exact ⟨hKey, hValue⟩

theorem change_delete (s : Store) (key : String) : Change s (· = key) (s.delete key).2 := by
  rcases delete_cases s key with hDelete | hDelete
  · rw [hDelete]
    exact .kept
  · rw [hDelete]
    exact .slot key none rfl nofun

theorem change_clear (s : Store) : Change s (fun _ => True) s.clear.2 := by
  unfold clear
  split_ifs with hEmpty
  · exact .kept
  · exact .cleared fun _ => trivial

theorem change_update (s : Store) (key : String)
    (change : Option Value → Except StoreError (α × Option Value)) :
    Change s (· = key) (s.update key change).2 := by
  rcases update_cases s key change with ⟨error, hUpdate⟩ |
    ⟨hKey, result, slot, -, ⟨-, hUpdate⟩ | ⟨-, hSlot, hUpdate⟩⟩
  · rw [hUpdate]
    exact .kept
  · rw [hUpdate]
    exact .kept
  · rw [hUpdate]
    exact .slot key slot rfl fun value hValue => ⟨hKey, hSlot value hValue⟩

theorem change_decrementIfAtLeast (s : Store) (key : String) (amount : Number) :
    Change s (· = key) (s.decrementIfAtLeast key amount).2 := by
  unfold decrementIfAtLeast
  split_ifs with hNegative
  · exact .kept
  · exact change_update s key _

end Store

namespace Ledger

open Store

variable {l : Ledger} {s s' : Store} {identity : String} {amount : Number}

theorem key_injective (l : Ledger) {a b : String} (h : l.key a = l.key b) : a = b := by
  have hLists := congrArg String.toList h
  simp only [key, String.toList_append, List.append_cancel_left_eq] at hLists
  exact String.toList_inj.mp hLists

/-- The name of a ledger is followed by a dot, so no key of it is empty. -/
theorem key_ne_empty (l : Ledger) (identity : String) : l.key identity ≠ "" := by
  intro hEmpty
  have hLists := congrArg String.toList hEmpty
  simp [key, stem] at hLists

theorem change_setBalance (l : Ledger) (s : Store) (identity : String) (amount : Number) :
    Change s (· = l.key identity) (l.setBalance s identity amount).2 :=
  change_set s (l.key identity) _

theorem change_give (l : Ledger) (s : Store) (identity : String) (amount : Number) :
    Change s (· = l.key identity) (l.give s identity amount).2 := by
  unfold give
  split_ifs with hPositive
  · exact change_update s _ _
  · exact .kept

theorem change_take (l : Ledger) (s : Store) (identity : String) (amount : Number) :
    Change s (· = l.key identity) (l.take s identity amount).2 := by
  unfold take
  split_ifs with hPositive
  · exact change_update s _ _
  · exact .kept

theorem failsInPlace_setBalance (l : Ledger) (s : Store) (identity : String) (amount : Number) :
    FailsInPlace s (l.setBalance s identity amount) := by
  intro error hError
  unfold setBalance at hError ⊢
  refine failsInPlace_set s _ _ error ?_
  cases hSet : (s.set (l.key identity) _).1 with
  | error found => simpa [hSet, Except.map] using hError
  | ok _ => simp [hSet, Except.map] at hError

theorem failsInPlace_give (l : Ledger) (s : Store) (identity : String) (amount : Number) :
    FailsInPlace s (l.give s identity amount) := by
  unfold give
  split_ifs with hPositive
  · exact failsInPlace_update s _ _
  · exact fun _ _ => rfl

theorem failsInPlace_take (l : Ledger) (s : Store) (identity : String) (amount : Number) :
    FailsInPlace s (l.take s identity amount) := by
  unfold take
  split_ifs with hPositive
  · exact failsInPlace_update s _ _
  · exact fun _ _ => rfl

/-- A credit always leaves the sum. -/
theorem crediting_eq_ok {key : String} {absent : Number} {slot after : Option Value} {done : Bool}
    (h : crediting key absent amount slot = .ok (done, after)) : done = true ∧
      ∃ current next, currentNumber key slot absent = .ok current ∧
        current.add? amount = some next ∧ after = some (.number next) := by
  unfold crediting at h
  cases hCurrent : currentNumber key slot absent with
  | error error => simp [hCurrent, bind, Except.bind] at h
  | ok current =>
      rw [hCurrent] at h
      cases hNext : fitting key (current.add? amount) with
      | error error => simp [bind, Except.bind, hNext] at h
      | ok next =>
          simp only [bind, Except.bind, hNext, pure, Except.pure, Except.ok.injEq,
            Prod.mk.injEq] at h
          exact ⟨h.1.symm, current, next, rfl, fitting_eq_ok hNext, h.2.symm⟩

theorem eq_of_give_false (h : l.give s identity amount = (.ok false, s')) : s' = s := by
  unfold give at h
  split_ifs at h with hPositive
  · obtain ⟨-, slot, hChange, -⟩ := update_ok h
    cases (crediting_eq_ok hChange).1
  · exact (Prod.mk.inj h).2.symm

theorem eq_of_take_false (h : l.take s identity amount = (.ok false, s')) : s' = s := by
  unfold take at h
  split_ifs at h with hPositive
  · refine eq_of_update_ok h fun slot hSlot => ?_
    obtain ⟨current, -, ⟨-, hAfter, -⟩ | ⟨hDone, -⟩⟩ := debiting_eq_ok hSlot
    · exact hAfter
    · cases hDone
  · exact (Prod.mk.inj h).2.symm

/-- A transfer takes, and gives if it has taken. -/
theorem transfer_snd (l : Ledger) (s : Store) (source target : String) (amount : Number) :
    (l.transfer s source target amount).2 = (l.take s source amount).2 ∨
    (l.transfer s source target amount).2 =
      (l.give (l.take s source amount).2 target amount).2 := by
  unfold transfer
  obtain ⟨taken, middle⟩ := l.take s source amount
  cases taken with
  | error error => exact Or.inl rfl
  | ok covered =>
      cases covered with
      | false => exact Or.inl rfl
      | true =>
          refine Or.inr ?_
          dsimp only
          cases hGiven : l.give middle target amount with
          | mk given last => cases given <;> rfl

theorem change_transfer (l : Ledger) (s : Store) (source target : String) (amount : Number) :
    ∃ middle, Change s (· = l.key source) middle ∧
      Change middle (· = l.key target) (l.transfer s source target amount).2 := by
  refine ⟨_, change_take l s source amount, ?_⟩
  rcases transfer_snd l s source target amount with hTransfer | hTransfer
  · rw [hTransfer]
    exact .kept
  · rw [hTransfer]
    exact change_give l _ target amount

end Ledger

end SnapshotStore
