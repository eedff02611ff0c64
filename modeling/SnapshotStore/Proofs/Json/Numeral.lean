import SnapshotStore.Json.Numeral
import SnapshotStore.Proofs.Decimal.Digits
import SnapshotStore.Proofs.Json.Quoted

/-! The parts of a number: a run of digits is read to its end, and as long as they
fit, its digits are gathered into one number. -/
namespace SnapshotStore.Json

open Decimal

/-- Nothing that would continue a number comes first. -/
def EndsNumber (rest : List Char) : Prop :=
  ∀ c ∈ rest.head?, c.isDigit = false ∧ c ≠ '.' ∧ isExponentLetter c = false

theorem EndsNumber.endsRun {rest : List Char} (h : EndsNumber rest) : EndsRun rest :=
  fun c hc => (h c hc).1

/-! ### Runs of digits -/

theorem reads_readDigits {run rest : List Char} (hRun : IsRun run) (hRest : EndsRun rest) :
    Reads readDigits (run ++ rest) run rest := by
  obtain ⟨hNonempty, hDigits⟩ := hRun
  cases run with
  | nil => exact absurd rfl hNonempty
  | cons c run =>
      have hSplit := splitDigits_append (fun d hd => hDigits d (List.mem_cons_of_mem c hd)) hRest
      refine ⟨by simp only [List.length_append, List.length_cons]; omega, ?_⟩
      simp [readDigits, hDigits c List.mem_cons_self, hSplit]

theorem reads_readWhole {run rest : List Char} (hRun : IsRun run)
    (hLeading : run.head? = some '0' → run = ['0']) (hRest : EndsRun rest) :
    Reads readWhole (run ++ rest) run rest := by
  obtain ⟨shorter, hRead⟩ := reads_readDigits hRun hRest
  have hNotLeading : ¬(run.head? = some '0' ∧ run ≠ ['0']) := fun h => h.2 (hLeading h.1)
  refine ⟨shorter, ?_⟩
  rw [readWhole, hRead]
  exact if_neg hNotLeading

theorem ofDigitChars_digit (c : Char) (run : List Char) (n : Nat) :
    Nat.ofDigitChars 10 (c :: run) n =
      Nat.ofDigitChars 10 run (n * 10 + Gathered.digitValue c) := by
  rw [Nat.ofDigitChars_cons, Nat.mul_comm 10 n]
  rfl

theorem foldl_takeWhole {run : List Char} {n : Nat} (h : Nat.ofDigitChars 10 run n < 2 ^ 64) :
    run.foldl Gathered.takeWhole ⟨n, 0⟩ = ⟨Nat.ofDigitChars 10 run n, 0⟩ := by
  induction run generalizing n with
  | nil => simp
  | cons c run ih =>
      rw [ofDigitChars_digit] at h
      have hNext := Nat.lt_of_le_of_lt (le_ofDigitChars run _) h
      have hTake : Gathered.takeWhole ⟨n, 0⟩ c = ⟨n * 10 + Gathered.digitValue c, 0⟩ :=
        if_pos ⟨rfl, hNext⟩
      rw [List.foldl_cons, hTake, ofDigitChars_digit]
      exact ih h

theorem ofWhole_eq {run : List Char} (h : ofDigits run < 2 ^ 64) :
    Gathered.ofWhole run = ⟨ofDigits run, 0⟩ :=
  foldl_takeWhole h

theorem takeFraction_eq {run : List Char} {n : Nat} (h : Nat.ofDigitChars 10 run n < 2 ^ 64) :
    Gathered.takeFraction n run = (Nat.ofDigitChars 10 run n, run.length) := by
  induction run generalizing n with
  | nil => simp [Gathered.takeFraction]
  | cons c run ih =>
      rw [ofDigitChars_digit] at h
      have hNext := Nat.lt_of_le_of_lt (le_ofDigitChars run _) h
      rw [Gathered.takeFraction, if_pos hNext, ih h, ofDigitChars_digit, List.length_cons]

/-! ### What follows the digits -/

theorem readScaled_of_endsNumber {negative : Bool} {significand : Nat} {exponent : Int}
    {absent : Except Fault Numeral} {rest : List Char} (hRest : EndsNumber rest) :
    readScaled negative significand exponent absent rest =
      absent.map fun value => (value, ⟨rest, Nat.le_refl _⟩) := by
  cases rest with
  | nil => rfl
  | cons c rest =>
      have hLetter := (hRest c rfl).2.2
      simp [readScaled, hLetter]

end SnapshotStore.Json
