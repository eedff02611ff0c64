import SnapshotStore.Proofs.Ledger.Refusal

/-! Debits that are made only if the number that is there covers them. Whether it
does is decided between exact values, and a debit that is decided for is always made:
what is left is finite and not negative, so the operation does not fail there. -/
namespace SnapshotStore

namespace Number

variable {a b : Number}

/-- The sign of a finite number is that of its units. -/
theorem value_nonneg_iff (h : a.isFinite = true) : 0 ≤ a.value ↔ 0 ≤ a.exactUnits := by
  rw [value_of_isFinite h, ← ofUnits_zero, ← not_lt, ofUnits_lt_iff, not_lt]

/-- To be covered is to have a value, and none that is greater. -/
theorem order_ne_lt_iff_value (ha : a.isNaN = false) :
    a.order b ≠ .lt ↔ b.isNaN = false ∧ b.value ≤ a.value := by
  cases hb : b.isNaN with
  | true =>
      rw [order_eq_swap, order_of_isNaN hb, ha]
      exact iff_of_false (fun h => h rfl) fun h => Bool.false_ne_true h.1.symm
  | false => rw [order_eq_compare_value ha hb, compare_ge_iff_ge, eq_self, true_and]

theorem isNaN_of_isFinite (h : a.isFinite = true) : a.isNaN = false := by
  cases a with
  | int i => rfl
  | float f => cases f <;> first | rfl | cases h

/-- Neither not-a-number nor any zero counts as negative. -/
theorem isNegative_eq_false (h : a.isNaN = true ∨ 0 ≤ a.value) : a.isNegative = false := by
  cases a with
  | int i =>
      have hNonneg := (value_nonneg_iff rfl).mp (h.resolve_left Bool.false_ne_true)
      have hBalance := isBalance_int.mp (isBalance_iff.mpr ⟨rfl, hNonneg⟩)
      exact decide_eq_false (not_lt.mpr hBalance)
  | float f =>
      cases f with
      | nan => rfl
      | infinite negative =>
          cases negative with
          | true => exact absurd (h.resolve_left Bool.false_ne_true) (not_le.mpr EReal.bot_lt_zero)
          | false => rfl
      | finite negative m =>
          have hNonneg : 0 ≤ Binary64.signed negative m.units :=
            (value_nonneg_iff rfl).mp (h.resolve_left Bool.false_ne_true)
          rw [isNegative, Binary64.isNegative, compare?_zero, beq_eq_false_iff_ne, Ne,
            Option.some_inj, compare_lt_iff_lt]
          exact not_lt.mpr hNonneg

/-- What is covered by a finite number, and is not below zero, is finite. -/
theorem isFinite_of_covered (ha : a.isFinite = true) (hb : b.isNaN = false) (hNonneg : 0 ≤ b.value)
    (hCovered : b.value ≤ a.value) : b.isFinite = true := by
  rcases finite_or_infinite hb with hFinite | ⟨negative, rfl⟩
  · exact hFinite
  · rw [value_of_isFinite ha] at hCovered
    cases negative with
    | true => exact absurd hNonneg (not_le.mpr EReal.bot_lt_zero)
    | false => exact absurd hCovered (not_le.mpr (EReal.coe_lt_top _))

end Number

namespace Store

variable {α : Type} {s : Store} {key : String} {absent amount held : Number} {result : α}
  {error : StoreError} {change : Option Value → Except StoreError (α × Option Value)}

/-! ### What an update comes to -/

theorem update_eq_error (hKey : key ≠ "") (h : change (s.get? key) = .error error) :
    s.update key change = (.error error, s) := by
  simp [update, checkKey, hKey, h]

theorem update_eq_self (hKey : key ≠ "") (h : change (s.get? key) = .ok (result, s.get? key))
    (hSlot : ∀ value ∈ s.get? key, value.isStorable = true) :
    s.update key change = (.ok result, s) := by
  simp [update, checkKey, hKey, h, sameSlot_self hSlot]

/-- A finite number can be put in place, unless the same value is there already. -/
theorem update_eq_number {n : Number} (hKey : key ≠ "")
    (h : change (s.get? key) = .ok (result, some (.number n))) (hn : n.isFinite = true) :
    s.update key change = (.ok result, s) ∧ sameSlot (some (.number n)) (s.get? key) = true ∨
      s.update key change = (.ok result, s.withSlot key (some (.number n))) := by
  have hStorable : (Value.number n).isStorable = true := hn
  by_cases hSame : sameSlot (some (.number n)) (s.get? key) = true
  · exact Or.inl ⟨by simp [update, checkKey, hKey, h, hSame], hSame⟩
  · exact Or.inr (by simp [update, checkKey, hKey, h, hSame, putBack, checkValue, hStorable,
      withSlot])

/-! ### A debit -/

/-- A number that is read is the given one where there is no value, and otherwise the
value. -/
theorem get?_of_getNumber (h : s.getNumber key absent = .ok held) :
    s.get? key = none ∧ held = absent ∨ s.get? key = some (.number held) := by
  unfold getNumber at h
  cases hSlot : s.get? key with
  | none =>
      rw [hSlot] at h
      exact Or.inl ⟨rfl, (Except.ok.inj h).symm⟩
  | some value =>
      rw [hSlot] at h
      cases value with
      | number n => exact Or.inr (by rw [Except.ok.inj h])
      | _ => cases h

theorem isFinite_of_getNumber (hs : s.data.Storable) (hAbsent : absent.isFinite = true)
    (h : s.getNumber key absent = .ok held) : held.isFinite = true := by
  rcases get?_of_getNumber h with ⟨-, rfl⟩ | hSlot
  · exact hAbsent
  · exact (Snapshot.storable_iff.mp hs _ _ hSlot).2

/-- What a debit leaves at its key, and nowhere else. Whole numbers have a whole
difference; any other is rounded, and of the two zeros the one that is there stays. -/
structure Leaves (s s' : Store) (key : String) (held amount left : Number) : Prop where
  stored : s'.get? key = some (.number left)
  others : ∀ other, other ≠ key → s'.get? other = s.get? other
  finite : left.isFinite = true
  nonneg : 0 ≤ left.value
  whole : ∀ i j, held = .int i → amount = .int j →
    ∃ k, left = .int k ∧ k.toInt = i.toInt - j.toInt
  difference : ∃ next, held.sub? amount = some next ∧ next.sameValue left = true

/-- What a debit comes to that is made if the number at its key covers the amount, no
value counting as the given number. It is made if the exact value of the amount is not
greater, and declined otherwise, also for an amount that is not a number. It only
fails at a value of another kind. -/
structure Decides (s : Store) (key : String) (absent amount : Number)
    (result : Except StoreError Bool × Store) : Prop where
  made : ∀ held, s.getNumber key absent = .ok held →
    amount.isNaN = false ∧ amount.value ≤ held.value →
    ∃ s' left, result = (.ok true, s') ∧ Leaves s s' key held amount left
  declined : ∀ held, s.getNumber key absent = .ok held →
    ¬ (amount.isNaN = false ∧ amount.value ≤ held.value) → result = (.ok false, s)
  failed : ∀ error, s.getNumber key absent = .error error → result = (.error error, s) ∧
    ∃ value, s.get? key = some value ∧ value.number? = none ∧
      error = .typeMismatch key .number value.kind

theorem debiting_eq_error (h : s.getNumber key absent = .error error) :
    debiting key absent amount (s.get? key) = .error error := by
  unfold debiting
  rw [show currentNumber key (s.get? key) absent = .error error from h]
  rfl

theorem debiting_eq_declined (h : s.getNumber key absent = .ok held)
    (hLess : held.order amount = .lt) :
    debiting key absent amount (s.get? key) = .ok (false, s.get? key) := by
  unfold debiting
  rw [show currentNumber key (s.get? key) absent = .ok held from h]
  simp [bind, Except.bind, hLess, pure, Except.pure]

theorem debiting_eq_made {next : Number} (h : s.getNumber key absent = .ok held)
    (hCovered : held.order amount ≠ .lt) (hNext : held.sub? amount = some next) :
    debiting key absent amount (s.get? key) = .ok (true, some (.number next)) := by
  unfold debiting
  rw [show currentNumber key (s.get? key) absent = .ok held from h]
  simp [bind, Except.bind, hCovered, hNext, fitting, pure, Except.pure]

/-- The slot that a debit puts in place, or finds to be there. -/
theorem leaves_of_sub? {next : Number} (hKey : key ≠ "")
    (hRead : s.getNumber key absent = .ok held) (hCovered : held.order amount ≠ .lt)
    (hHeld : held.IsBalance) (hNext : held.sub? amount = some next) :
    ∃ s' left, s.update key (debiting key absent amount) = (.ok true, s') ∧
      Leaves s s' key held amount left := by
  have hBalance := Number.isBalance_sub? hHeld hCovered hNext
  have hSelf := Number.sameValue_self (Number.isNaN_of_isFinite hBalance.1)
  have hWhole : ∀ i j, held = .int i → amount = .int j →
      ∃ k, next = .int k ∧ k.toInt = i.toInt - j.toInt := by
    rintro i j rfl rfl
    exact Number.toInt_of_ofInt? hNext
  have hNonneg : ∀ {n : Number}, n.IsBalance → 0 ≤ n.value := fun hn =>
    (Number.value_nonneg_iff hn.1).mpr (Number.isBalance_iff.mp hn).2
  rcases update_eq_number hKey (debiting_eq_made hRead hCovered hNext) hBalance.1 with
    ⟨hUpdate, hSame⟩ | hUpdate
  · -- What is there has the same value, so it is a number, and the one that was read.
    have hSlot : s.get? key = some (.number held) := by
      refine (get?_of_getNumber hRead).resolve_left ?_
      rintro ⟨hNothing, -⟩
      rw [hNothing] at hSame
      cases hSame
    rw [hSlot] at hSame
    refine ⟨s, held, hUpdate, hSlot, fun _ _ => rfl, hHeld.1, hNonneg hHeld, ?_, next, hNext, hSame⟩
    intro i j hi hj
    obtain ⟨k, rfl, hk⟩ := hWhole i j hi hj
    subst hi
    exact ⟨i, rfl, by rw [← hk, eq_of_beq hSame]⟩
  · refine ⟨_, next, hUpdate, ?_, ?_, hBalance.1, hNonneg hBalance, hWhole, next, hNext, hSelf⟩
    · rw [get?_withSlot, if_pos rfl]
    · intro other hOther
      rw [get?_withSlot, if_neg hOther]

/-- A debit from a slot of a store that may be saved. -/
theorem decides_update (hs : s.data.Storable) (hKey : key ≠ "") (hAbsent : absent.isFinite = true)
    (hAmount : amount.isNaN = true ∨ 0 ≤ amount.value) :
    Decides s key absent amount (s.update key (debiting key absent amount)) where
  made held hRead := by
    rintro ⟨hNumber, hLess⟩
    have hNonneg := hAmount.resolve_left (by simp [hNumber])
    have hFinite := isFinite_of_getNumber hs hAbsent hRead
    have hAlso := Number.isFinite_of_covered hFinite hNumber hNonneg hLess
    have hCovered := (Number.order_ne_lt_iff_value (Number.isNaN_of_isFinite hFinite)).mpr
      ⟨hNumber, hLess⟩
    have hUnits : amount.exactUnits ≤ held.exactUnits := by
      rwa [Number.order_eq_compare hFinite hAlso, Ne, compare_lt_iff_lt, not_lt] at hCovered
    have hZero := (Number.value_nonneg_iff hAlso).mp hNonneg
    obtain ⟨next, hNext⟩ := Number.exists_sub? hFinite hAlso hZero hUnits
    have hHeld := Number.isBalance_iff.mpr ⟨hFinite, hZero.trans hUnits⟩
    exact leaves_of_sub? hKey hRead hCovered hHeld hNext
  declined held hRead hLess := by
    have hFinite := isFinite_of_getNumber hs hAbsent hRead
    rw [← Number.order_ne_lt_iff_value (Number.isNaN_of_isFinite hFinite), not_not] at hLess
    exact update_eq_self hKey (debiting_eq_declined hRead hLess)
      fun value hValue => (Snapshot.storable_iff.mp hs _ _ hValue).2
  failed error hRead :=
    ⟨update_eq_error hKey (debiting_eq_error hRead), currentNumber_eq_error hRead⟩

/-- Conditional debits decide exactly and do not fail by a number. Of a store that may
be saved, whatever numbers it holds: subtracting an amount of at least zero only where
it is covered, an absent number counting as zero, and taking a positive amount from a
balance, a balance that was not written being any finite one. Not-a-number is never
covered, and an infinity by nothing that is stored. -/
theorem debits_decided_exactly (s : Store) (hs : s.data.Storable) :
    (∀ key amount, amount.isNaN = true ∨ 0 ≤ amount.value →
      (key = "" → s.decrementIfAtLeast key amount = (.error .emptyKey, s)) ∧
      (key ≠ "" → Decides s key (.int 0) amount (s.decrementIfAtLeast key amount))) ∧
    (∀ (l : Ledger) identity amount, l.startingBalance.isFinite = true →
      (amount.isNaN = true → l.take s identity amount = (.ok false, s)) ∧
      (amount.isNaN = false → 0 < amount.value →
        Decides s (l.key identity) l.startingBalance amount (l.take s identity amount))) := by
  constructor
  · intro key amount hAmount
    have hAdmitted : ¬ amount.isNegative = true := by
      rw [Number.isNegative_eq_false hAmount]
      exact Bool.false_ne_true
    rw [decrementIfAtLeast, if_neg hAdmitted]
    constructor
    · rintro rfl
      rfl
    · exact fun hKey => decides_update hs hKey rfl hAmount
  · intro l identity amount hStart
    unfold Ledger.take
    constructor
    · intro hNaN
      rw [if_neg fun hPositive => by simp [(Number.isPositive_iff.mp hPositive).1] at hNaN]
    · intro hNumber hPositive
      rw [if_pos (Number.isPositive_iff.mpr ⟨hNumber, hPositive⟩)]
      exact decides_update hs (l.key_ne_empty identity) hStart (Or.inr hPositive.le)

/-- The largest whole number does not cover 2^63, to which it is rounded. -/
theorem debits_decided_exactly_at_limit : ∃ s : Store, s.data.Storable ∧
    s.getNumber "k" (.int 0) = .ok (.int Int64.maxValue) ∧
    s.decrementIfAtLeast "k" (.float (.ofInt (2 ^ 63))) = (.ok false, s) ∧
    ∃ s' left, Ledger.take ⟨"l", .int 10⟩ s "a" (.int 3) = (.ok true, s') ∧
      Leaves s s' "l.a" (.int 10) (.int 3) left := by
  let s : Store := .opened {} (KeyMap.empty.insert "k" (.number (.int Int64.maxValue)))
  have hs : s.data.Storable := Snapshot.storable_empty.insert (by decide) rfl
  have hDecided := debits_decided_exactly s hs
  refine ⟨s, hs, rfl, ?_, ?_⟩
  · have hNumber : (Number.float (.ofInt (2 ^ 63))).isNaN = false := by decide +kernel
    have hPositive : (Number.float (.ofInt (2 ^ 63))).isPositive = true := by decide +kernel
    have hLess : (Number.int Int64.maxValue).order (.float (.ofInt (2 ^ 63))) = .lt := by
      decide +kernel
    have hNonneg := (Number.isPositive_iff.mp hPositive).2.le
    refine ((hDecided.1 "k" _ (Or.inr hNonneg)).2 (by decide)).declined (.int Int64.maxValue) rfl ?_
    rw [← Number.order_ne_lt_iff_value rfl, not_not]
    exact hLess
  · have hCovered : (Number.int 3).value ≤ (Number.int 10).value :=
      ((Number.order_ne_lt_iff_value rfl).mp (by decide)).2
    have hPositive : 0 < (Number.int 3).value := (Number.isPositive_iff.mp (by decide)).2
    exact ((hDecided.2 ⟨"l", .int 10⟩ "a" (.int 3) rfl).2 rfl hPositive).made (.int 10) rfl
      ⟨rfl, hCovered⟩

end Store

end SnapshotStore
