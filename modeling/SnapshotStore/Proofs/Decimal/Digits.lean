import SnapshotStore.Decimal.Digits
import Mathlib.Algebra.Order.Ring.Nat
import Mathlib.Data.List.TakeWhile

/-! Runs of digits, and where they end: what the reading of numbers needs to
know about the writing of them. -/
namespace SnapshotStore.Decimal

/-- Nonempty, and digits only. -/
def IsRun (run : List Char) : Prop :=
  run ≠ [] ∧ ∀ c ∈ run, c.isDigit = true

/-- No digit comes first, so a run of digits in front of it ends there. -/
def EndsRun (rest : List Char) : Prop :=
  ∀ c ∈ rest.head?, c.isDigit = false

theorem isRun_digits (n : Nat) : IsRun (digits n) :=
  ⟨Nat.toDigits_ne_nil, fun _ hc => Nat.isDigit_of_mem_toDigits (by decide) (by decide) hc⟩

theorem digits_length_pos (n : Nat) : 0 < (digits n).length :=
  Nat.length_toDigits_pos

theorem digits_length_le_iff {n k : Nat} (hk : 0 < k) : (digits n).length ≤ k ↔ n < 10 ^ k :=
  Nat.length_toDigits_le_iff (by decide) hk

theorem lt_ten_pow_length (n : Nat) : n < 10 ^ (digits n).length :=
  (digits_length_le_iff (digits_length_pos n)).mp (Nat.le_refl _)

/-- Only zero is written with a zero in front. -/
theorem eq_zero_of_head?_digits {n : Nat} (h : (digits n).head? = some '0') : n = 0 := by
  induction n using Nat.strongRecOn with
  | ind n ih =>
      rw [digits, Nat.toDigits_eq_if (by decide)] at h
      split at h
      · simpa using h
      · have hFirst : (digits (n / 10)).head? = some '0' := by
          rwa [List.head?_append, Option.or_of_isSome (by simp)] at h
        have hPrefix := ih (n / 10) (by omega) hFirst
        omega

theorem splitDigits_append {run rest : List Char} (hRun : ∀ c ∈ run, c.isDigit = true)
    (hRest : EndsRun rest) : splitDigits (run ++ rest) = (run, rest) := by
  have hTake : rest.takeWhile Char.isDigit = [] := by
    cases rest with
    | nil => rfl
    | cons c rest => rw [List.takeWhile_cons, hRest c rfl]; rfl
  have hDrop : rest.dropWhile Char.isDigit = rest := by
    cases rest with
    | nil => rfl
    | cons c rest => rw [List.dropWhile_cons, hRest c rfl]; rfl
  rw [splitDigits, List.takeWhile_append_of_pos hRun, List.dropWhile_append_of_pos hRun, hTake,
    hDrop, List.append_nil]

theorem ofDigits_append (a b : List Char) :
    ofDigits (a ++ b) = Nat.ofDigitChars 10 b (ofDigits a) := by
  rw [ofDigits, Nat.ofDigitChars_append, ofDigits]

/-- Every digit makes the number larger, or leaves a zero. -/
theorem le_ofDigitChars (run : List Char) (n : Nat) : n ≤ Nat.ofDigitChars 10 run n := by
  rw [Nat.ofDigitChars_eq_ofDigitChars_zero]
  have hPositive : 0 < 10 ^ run.length := Nat.pow_pos (by decide)
  exact Nat.le_add_right_of_le (Nat.le_mul_of_pos_left n hPositive)

end SnapshotStore.Decimal
