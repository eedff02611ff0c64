import Mathlib.Data.EReal.Basic
import SnapshotStore.Proofs.Number.Arithmetic

/-! The exact values of stored numbers, in the extended reals. The numeric order
is the order of these values, so nothing is rounded where whole and floating
numbers meet, and not-a-number stands above all of them. -/
namespace SnapshotStore

/-! ### Values -/

/-- The value of a magnitude, read off its bits: an exponent, and a fraction of 52
bits. Where the exponent is zero the fraction stands alone, in steps of 2^-1074;
otherwise there is a leading one in front of it. -/
def Magnitude.value (m : Magnitude) : ℚ :=
  let exponent : ℕ := m.index / 2 ^ 52
  let fraction : ℕ := m.index % 2 ^ 52
  if exponent = 0 then fraction * 2 ^ (-1074 : ℤ)
  else (2 ^ 52 + fraction) * 2 ^ ((exponent : ℤ) - 1075)

namespace Binary64

/-- The value of a floating number. Not-a-number has none, and the zero here is
never used. -/
noncomputable def value : Binary64 → EReal
  | .nan => 0
  | .infinite negative => if negative then ⊥ else ⊤
  | .finite negative m => (((if negative then -m.value else m.value : ℚ) : ℝ) : EReal)

end Binary64

open Binary64

theorem natCast_unitsPerOne : ((unitsPerOne : ℕ) : ℚ) = 2 ^ 1074 := by
  rw [unitsPerOne, Nat.cast_pow, Nat.cast_ofNat]

theorem Magnitude.value_eq (m : Magnitude) : m.value = m.units / unitsPerOne := by
  rw [natCast_unitsPerOne]
  unfold Magnitude.value Magnitude.units gridUnits
  by_cases hSmall : m.index < 2 ^ 52
  · have hExponent : m.index / 2 ^ 52 = 0 := Nat.div_eq_of_lt hSmall
    have hFraction : m.index % 2 ^ 52 = m.index := Nat.mod_eq_of_lt hSmall
    simp only [hExponent, hFraction, hSmall, if_true]
    rw [zpow_neg, div_eq_mul_inv]
    rfl
  · have hExponent : 0 < m.index / 2 ^ 52 := Nat.div_pos (Nat.le_of_not_lt hSmall) (by decide)
    obtain ⟨k, hk⟩ := Nat.exists_eq_succ_of_ne_zero hExponent.ne'
    have hStep : ((k + 1 : ℕ) : ℤ) - 1075 = (k : ℤ) - (1074 : ℕ) := by omega
    simp only [hSmall, if_false, hk, Nat.succ_eq_add_one, Nat.add_sub_cancel, hStep]
    rw [if_neg k.succ_ne_zero, zpow_sub₀ two_ne_zero, zpow_natCast, zpow_natCast]
    rw [Nat.cast_mul, Nat.cast_add, Nat.cast_pow, Nat.cast_pow, Nat.cast_ofNat, mul_div_assoc]

namespace Binary64

variable {f g : Binary64}

/-! ### Places -/

/-- Apart from zero, a place determines the sign and the magnitude. -/
theorem signed_inj {s t : Bool} {m n : ℕ} (h : signed s m = signed t n)
    (hNonzero : signed t n ≠ 0) : s = t ∧ m = n := by
  have hSame : m = n := by rw [← natAbs_signed s m, h, natAbs_signed]
  subst hSame
  refine ⟨?_, rfl⟩
  cases s <;> cases t <;> simp only [signed, if_true, Bool.false_eq_true, if_false] at h hNonzero <;>
    first | rfl | omega

theorem eq_of_place?_eq {place : ℤ} (hf : f.place? = some place) (hg : g.place? = some place)
    (hNonzero : place ≠ 0) : f = g := by
  cases g with
  | nan => cases hg
  | infinite t =>
      obtain rfl := Option.some.inj hg
      cases f with
      | nan => cases hf
      | infinite s => rw [(signed_inj (Option.some.inj hf) hNonzero).1]
      | finite s m => exact absurd (signed_inj (Option.some.inj hf) hNonzero).2 m.index_lt.ne
  | finite t n =>
      obtain rfl := Option.some.inj hg
      cases f with
      | nan => cases hf
      | infinite s => exact absurd (signed_inj (Option.some.inj hf) hNonzero).2 n.index_lt.ne'
      | finite s m =>
          obtain ⟨rfl, hIndex⟩ := signed_inj (Option.some.inj hf) hNonzero
          cases m
          cases n
          cases hIndex
          rfl

/-- Apart from the two zeros, the same value is the same number. -/
theorem eq_of_sameValue (h : f.sameValue g = true) (hZero : g.place? ≠ some 0) : f = g := by
  rw [sameValue, beq_iff_eq, compare?] at h
  cases hf : f.place? with
  | none =>
      rw [hf] at h
      cases h
  | some p =>
      cases hg : g.place? with
      | none =>
          rw [hf, hg] at h
          cases h
      | some q =>
          rw [hf, hg] at h
          obtain rfl : p = q := compare_eq_iff_eq.mp (Option.some.inj h)
          apply eq_of_place?_eq hf hg
          rintro rfl
          exact hZero hg

/-- At the place zero there are the two zeros only. -/
theorem exists_zero_of_place? (h : f.place? = some 0) : ∃ negative, f = .finite negative .zero := by
  cases f with
  | nan => cases h
  | infinite negative => cases negative <;> cases h
  | finite negative m =>
      have hIndex : m.index = 0 := by
        rw [← natAbs_signed negative m.index]
        exact Int.natAbs_eq_zero.mpr (Option.some.inj h)
      cases m
      cases hIndex
      exact ⟨negative, rfl⟩

theorem value_of_place? (h : f.place? = some 0) : f.isNaN = false ∧ f.value = 0 := by
  obtain ⟨negative, rfl⟩ := exists_zero_of_place? h
  have hValue : Magnitude.zero.value = 0 := by simp [Magnitude.value, Magnitude.zero]
  refine ⟨rfl, ?_⟩
  cases negative <;> simp [value, hValue]

end Binary64

namespace Number

variable {a b : Number}

/-- Not-a-number, which only a floating number can be. -/
def isNaN : Number → Bool
  | .int _ => false
  | .float f => f.isNaN

/-- The exact value: a whole number is itself. -/
noncomputable def value : Number → EReal
  | .int i => ((i.toInt : ℝ) : EReal)
  | .float f => f.value

/-- A number of units, as a value. -/
noncomputable def ofUnits (units : ℤ) : EReal :=
  ((units / unitsPerOne : ℝ) : EReal)

theorem ofUnits_lt_iff {u v : ℤ} : ofUnits u < ofUnits v ↔ u < v := by
  have hOne : (0 : ℝ) < unitsPerOne := Nat.cast_pos.mpr unitsPerOne_pos
  rw [ofUnits, ofUnits, EReal.coe_lt_coe_iff, div_lt_div_iff_of_pos_right hOne, Int.cast_lt]

theorem ofUnits_zero : ofUnits 0 = 0 := by
  rw [ofUnits, Int.cast_zero, zero_div, EReal.coe_zero]

theorem compare_ofUnits (u v : ℤ) : compare (ofUnits u) (ofUnits v) = compare u v := by
  rcases Int.lt_trichotomy u v with hLess | rfl | hGreater
  · rw [compare_lt_iff_lt.mpr hLess, compare_lt_iff_lt.mpr (ofUnits_lt_iff.mpr hLess)]
  · rw [compare_eq_iff_eq.mpr rfl, compare_eq_iff_eq.mpr rfl]
  · rw [compare_gt_iff_gt.mpr hGreater, compare_gt_iff_gt.mpr (ofUnits_lt_iff.mpr hGreater)]

theorem value_of_isFinite (h : a.isFinite = true) : a.value = ofUnits a.exactUnits := by
  cases a with
  | int i =>
      have hOne : (unitsPerOne : ℝ) ≠ 0 := Nat.cast_ne_zero.mpr unitsPerOne_pos.ne'
      rw [value, ofUnits, exactUnits, Int.cast_mul, Int.cast_natCast, mul_div_cancel_right₀ _ hOne]
  | float f =>
      cases f with
      | nan => cases h
      | infinite negative => cases h
      | finite negative m =>
          simp only [value, Binary64.value, ofUnits, exactUnits, Binary64.exactUnits, signed,
            Magnitude.value_eq]
          cases negative with
          | false =>
              rw [if_neg Bool.false_ne_true, if_neg Bool.false_ne_true, Rat.cast_div,
                Rat.cast_natCast, Rat.cast_natCast, Int.cast_natCast]
          | true =>
              rw [if_pos rfl, if_pos rfl, Rat.cast_neg, Rat.cast_div, Rat.cast_natCast,
                Rat.cast_natCast, Int.cast_neg, Int.cast_natCast, neg_div]

/-! ### The order of values -/

theorem order_eq_swap (a b : Number) : b.order a = (a.order b).swap := by
  cases a with
  | int i =>
      cases b with
      | int j => exact Std.OrientedOrd.eq_swap
      | float g => rfl
  | float f =>
      cases b with
      | int j => exact Ordering.swap_swap.symm
      | float g =>
          simp only [order, compare?]
          cases hf : f.place? with
          | none => cases hg : g.place? <;> exact Std.OrientedOrd.eq_swap
          | some p => cases hg : g.place? <;> exact Std.OrientedOrd.eq_swap

/-- An infinity stands beyond all finite numbers of both kinds. -/
theorem order_infinite (negative : Bool) (hb : b.isFinite = true) :
    (Number.float (.infinite negative)).order b = if negative then .lt else .gt := by
  cases b with
  | int j => cases negative <;> rfl
  | float g =>
      cases g with
      | nan => cases hb
      | infinite sign => cases hb
      | finite sign m =>
          have hBound : (signed sign m.index).natAbs < indexOfInfinity := by
            rw [natAbs_signed]
            exact m.index_lt
          change compare (signed negative indexOfInfinity) (signed sign m.index) = _
          cases negative with
          | true =>
              rw [if_pos rfl, compare_lt_iff_lt]
              show -(indexOfInfinity : ℤ) < signed sign m.index
              omega
          | false =>
              rw [if_neg Bool.false_ne_true, compare_gt_iff_gt]
              show signed sign m.index < (indexOfInfinity : ℤ)
              omega

theorem compare_value_infinite (negative : Bool) (hb : b.isFinite = true) :
    compare (Number.float (.infinite negative)).value b.value = if negative then .lt else .gt := by
  rw [value_of_isFinite hb]
  cases negative with
  | true => exact compare_lt_iff_lt.mpr (EReal.bot_lt_coe _)
  | false => exact compare_gt_iff_gt.mpr (EReal.coe_lt_top _)

/-- What has a value is finite or an infinity. -/
theorem finite_or_infinite (h : a.isNaN = false) :
    a.isFinite = true ∨ ∃ negative, a = .float (.infinite negative) := by
  cases a with
  | int i => exact Or.inl rfl
  | float f =>
      cases f with
      | nan => cases h
      | infinite negative => exact Or.inr ⟨negative, rfl⟩
      | finite negative m => exact Or.inl rfl

/-- Numbers are ordered as their exact values are. -/
theorem order_eq_compare_value (ha : a.isNaN = false) (hb : b.isNaN = false) :
    a.order b = compare a.value b.value := by
  rcases finite_or_infinite ha with hFinite | ⟨negative, rfl⟩
  · rcases finite_or_infinite hb with hOther | ⟨sign, rfl⟩
    · rw [order_eq_compare hFinite hOther, value_of_isFinite hFinite, value_of_isFinite hOther,
        compare_ofUnits]
    · rw [order_eq_swap, order_infinite sign hFinite, ← compare_value_infinite sign hFinite]
      exact Std.OrientedOrd.eq_swap.symm
  · rcases finite_or_infinite hb with hOther | ⟨sign, rfl⟩
    · rw [order_infinite negative hOther, compare_value_infinite negative hOther]
    · cases negative <;> cases sign
      · exact (compare_eq_iff_eq.mpr rfl).symm
      · exact (compare_gt_iff_gt.mpr bot_lt_top).symm
      · exact (compare_lt_iff_lt.mpr bot_lt_top).symm
      · exact (compare_eq_iff_eq.mpr rfl).symm

/-! ### Not-a-number -/

/-- Where a number stands: at its value, and not-a-number above all values. -/
noncomputable def standing (n : Number) : WithTop EReal :=
  if n.isNaN then ⊤ else n.value

theorem order_of_isNaN (ha : a.isNaN = true) : a.order b = if b.isNaN then .eq else .gt := by
  cases a with
  | int i => cases ha
  | float f =>
      cases f with
      | infinite negative => cases ha
      | finite negative m => cases ha
      | nan =>
          cases b with
          | int j => rfl
          | float g => cases g <;> rfl

/-- Numbers of any kind are ordered as they stand. -/
theorem order_eq_compare_standing (a b : Number) :
    a.order b = compare a.standing b.standing := by
  unfold standing
  by_cases ha : a.isNaN = true
  · rw [order_of_isNaN ha, if_pos ha]
    split_ifs with hb
    · exact (compare_eq_iff_eq.mpr rfl).symm
    · exact (compare_gt_iff_gt.mpr (WithTop.coe_lt_top b.value)).symm
  · rw [if_neg ha]
    rw [Bool.not_eq_true] at ha
    split_ifs with hb
    · rw [order_eq_swap, order_of_isNaN hb, if_neg (by simp [ha])]
      exact (compare_lt_iff_lt.mpr (WithTop.coe_lt_top a.value)).symm
    · rw [Bool.not_eq_true] at hb
      rw [order_eq_compare_value ha hb, ← cmp_eq_compare, ← cmp_eq_compare]
      exact (WithTop.coe_strictMono.cmp_map_eq a.value b.value).symm

theorem order_ne_gt_iff : a.order b ≠ .gt ↔ a.standing ≤ b.standing := by
  rw [order_eq_compare_standing, compare_le_iff_le]

theorem order_ne_lt_iff : a.order b ≠ .lt ↔ b.standing ≤ a.standing := by
  rw [order_eq_compare_standing, compare_ge_iff_ge]

theorem order_eq_iff : a.order b = .eq ↔ a.standing = b.standing := by
  rw [order_eq_compare_standing, compare_eq_iff_eq]

theorem order_self (n : Number) : n.order n = .eq :=
  order_eq_iff.mpr rfl

/-! ### Above zero -/

theorem isPositive_iff : a.isPositive = true ↔ a.isNaN = false ∧ 0 < a.value := by
  cases a with
  | int i =>
      have hValue : 0 < (Number.int i).value ↔ 0 < i.toInt := by
        rw [value, EReal.coe_pos, Int.cast_pos]
      rw [hValue, isPositive, decide_eq_true_iff]
      exact ⟨fun h => ⟨rfl, h⟩, And.right⟩
  | float f =>
      cases f with
      | nan => exact iff_of_false Bool.false_ne_true fun h => Bool.false_ne_true h.1.symm
      | infinite negative =>
          cases negative with
          | true => exact iff_of_false Bool.false_ne_true fun h => not_lt_bot h.2
          | false => exact ⟨fun _ => ⟨rfl, EReal.zero_lt_top⟩, fun _ => rfl⟩
      | finite negative m =>
          have hValue : 0 < (Number.float (.finite negative m)).value ↔
              0 < signed negative m.units := by
            rw [value_of_isFinite rfl, ← ofUnits_zero, ofUnits_lt_iff]
            rfl
          rw [hValue, isPositive, Binary64.isPositive, compare?_zero, beq_iff_eq,
            Option.some_inj, compare_gt_iff_gt]
          exact ⟨fun h => ⟨rfl, h⟩, And.right⟩

/-- What covers a positive amount is not zero, so only the number itself is the same
value as it. -/
theorem eq_of_sameValue_of_covers {held amount : Number} (hPositive : amount.isPositive = true)
    (hCovered : held.order amount ≠ .lt) (hSame : a.sameValue held = true) : a = held := by
  cases a with
  | int i =>
      cases held with
      | int j => rw [eq_of_beq hSame]
      | float g => cases hSame
  | float f =>
      cases held with
      | int j => cases hSame
      | float g =>
          refine congrArg Number.float (Binary64.eq_of_sameValue hSame fun hZero => ?_)
          obtain ⟨hNumber, hAbove⟩ := isPositive_iff.mp hPositive
          obtain ⟨hKind, hValue⟩ := Binary64.value_of_place? hZero
          rw [order_ne_lt_iff, standing, standing, if_neg (by simp [hNumber]),
            if_neg (by simp [isNaN, hKind]), WithTop.coe_le_coe, value, hValue] at hCovered
          exact hCovered.not_gt hAbove

/-- The numeric order is exact. Of two numbers that have a value it compares these
values in the extended reals, whatever kinds the numbers are of; not-a-number is
equal to itself and above everything else, from either side. So it is a total
preorder: the other way round it gives the opposite, it is transitive, and any two
numbers are ordered. -/
theorem order_exact :
    (∀ a b : Number, a.isNaN = false → b.isNaN = false →
      a.order b = compare a.value b.value) ∧
    (∀ a b : Number, a.isNaN = true → (b.isNaN = true → a.order b = .eq) ∧
      (b.isNaN = false → a.order b = .gt ∧ b.order a = .lt)) ∧
    (∀ a b : Number, b.order a = (a.order b).swap) ∧
    (∀ a b c : Number, a.order b ≠ .gt → b.order c ≠ .gt → a.order c ≠ .gt) ∧
    (∀ a b : Number, a.order b ≠ .gt ∨ b.order a ≠ .gt) := by
  refine ⟨fun a b ha hb => order_eq_compare_value ha hb, ?_, order_eq_swap, ?_, ?_⟩
  · intro a b ha
    have hOrder := order_of_isNaN (b := b) ha
    constructor
    · intro hb
      rw [hOrder, if_pos hb]
    · intro hb
      rw [if_neg (by simp [hb])] at hOrder
      exact ⟨hOrder, by rw [order_eq_swap, hOrder]; rfl⟩
  · intro a b c hFirst hSecond
    rw [order_ne_gt_iff] at hFirst hSecond ⊢
    exact hFirst.trans hSecond
  · intro a b
    rw [order_ne_gt_iff, order_ne_gt_iff]
    exact le_total a.standing b.standing

/-- The largest whole number is below 2^63 as a floating number, although it is
rounded to it. -/
theorem order_exact_at_limit :
    (Number.int Int64.maxValue).toFloat = .ofInt (2 ^ 63) ∧
    (Number.int Int64.maxValue).order (.float (.ofInt (2 ^ 63))) = .lt ∧
    (Number.int Int64.maxValue).value < (Number.float (.ofInt (2 ^ 63))).value := by
  have hOrder : (Number.int Int64.maxValue).order (.float (.ofInt (2 ^ 63))) = .lt := by
    decide +kernel
  have hValues := order_exact.1 (.int Int64.maxValue) (.float (.ofInt (2 ^ 63))) rfl
    (by decide +kernel)
  exact ⟨by decide +kernel, hOrder, compare_lt_iff_lt.mp (hValues.symm.trans hOrder)⟩

end Number

end SnapshotStore
