import SnapshotStore.Decimal.Shortest
import SnapshotStore.Proofs.Binary64.Rounding

/-! The shortest decimal of a magnitude is closer to it than to its neighbours,
so that the nearest magnitude to it is that one, and its digits fit 64 bits
with room to spare. -/
namespace SnapshotStore.Decimal

open Binary64

/-! ### Windows -/

namespace Window

variable {w : Window} {tie : Tie} {grid digits : Nat}

theorem holds_iff {point : Nat} : w.holds point = true ↔
    (w.below < point ∧ point < w.above) ∨
      (w.closed = true ∧ (point = w.below ∨ point = w.above)) := by
  simp [holds]

/-- A grid either gives a point of the window, at or next to the grid point
below the magnitude, or neither of these two points is in the window. -/
theorem onGrid?_cases (w : Window) (tie : Tie) (grid : Nat) :
    (∃ digits, w.onGrid? tie grid = some digits ∧
      w.holds (digits * (2 * 10 ^ grid)) = true ∧ digits ≤ w.exact / (2 * 10 ^ grid) + 1) ∨
    (w.onGrid? tie grid = none ∧
      w.holds (w.exact / (2 * 10 ^ grid) * (2 * 10 ^ grid)) = false ∧
      w.holds ((w.exact / (2 * 10 ^ grid) + 1) * (2 * 10 ^ grid)) = false) := by
  unfold onGrid?
  simp only
  cases hLow : w.holds (w.exact / (2 * 10 ^ grid) * (2 * 10 ^ grid)) <;>
    cases hHigh : w.holds ((w.exact / (2 * 10 ^ grid) + 1) * (2 * 10 ^ grid))
  · exact Or.inr ⟨rfl, rfl, rfl⟩
  · exact Or.inl ⟨_, rfl, hHigh, Nat.le_refl _⟩
  · exact Or.inl ⟨_, rfl, hLow, Nat.le_succ _⟩
  · left
    have hBoth : ∀ found, found = w.exact / (2 * 10 ^ grid) ∨
        found = w.exact / (2 * 10 ^ grid) + 1 →
        w.holds (found * (2 * 10 ^ grid)) = true ∧ found ≤ w.exact / (2 * 10 ^ grid) + 1 := by
      rintro found (rfl | rfl)
      · exact ⟨hLow, Nat.le_succ _⟩
      · exact ⟨hHigh, Nat.le_refl _⟩
    cases tie with
    | up =>
        dsimp only
        split_ifs
        · exact ⟨_, rfl, hBoth _ (Or.inl rfl)⟩
        · exact ⟨_, rfl, hBoth _ (Or.inr rfl)⟩
        · exact ⟨_, rfl, hBoth _ (Or.inr rfl)⟩
    | even =>
        dsimp only
        split_ifs
        · exact ⟨_, rfl, hBoth _ (Or.inl rfl)⟩
        · exact ⟨_, rfl, hBoth _ (Or.inr rfl)⟩
        · exact ⟨_, rfl, hBoth _ (Or.inl rfl)⟩
        · exact ⟨_, rfl, hBoth _ (Or.inr rfl)⟩

theorem mul_le_of_onGrid? (h : w.onGrid? tie grid = some digits) :
    w.holds (digits * (2 * 10 ^ grid)) = true ∧
      digits * (2 * 10 ^ grid) ≤ w.exact + 2 * 10 ^ grid := by
  rcases w.onGrid?_cases tie grid with ⟨found, hFound, hHolds, hNear⟩ | ⟨hNone, -⟩
  · rw [h, Option.some_inj] at hFound
    subst hFound
    refine ⟨hHolds, ?_⟩
    calc digits * (2 * 10 ^ grid) ≤ (w.exact / (2 * 10 ^ grid) + 1) * (2 * 10 ^ grid) := by gcongr
      _ = w.exact / (2 * 10 ^ grid) * (2 * 10 ^ grid) + 2 * 10 ^ grid := by ring
      _ ≤ w.exact + 2 * 10 ^ grid := by gcongr; exact Nat.div_mul_le_self _ _
  · rw [h] at hNone
    cases hNone

/-- A grid without a point in the window is spaced at least as widely as the
window is wide. -/
theorem above_le_of_onGrid?_eq_none (hBelow : w.below < w.exact) (hAbove : w.exact < w.above)
    (h : w.onGrid? tie grid = none) : w.above ≤ w.below + 2 * 10 ^ grid := by
  rcases w.onGrid?_cases tie grid with ⟨found, hFound, -⟩ | ⟨-, hLow, hHigh⟩
  · rw [h] at hFound
    cases hFound
  · have hSpacing : 0 < 2 * 10 ^ grid := by positivity
    have hDivision := Nat.div_add_mod w.exact (2 * 10 ^ grid)
    have hLeft := Nat.mod_lt w.exact hSpacing
    rw [← Bool.not_eq_true, holds_iff] at hLow hHigh
    rw [Nat.mul_comm] at hDivision
    rw [Nat.add_mul, Nat.one_mul] at hHigh
    generalize w.exact / (2 * 10 ^ grid) * (2 * 10 ^ grid) = low at *
    generalize 2 * 10 ^ grid = spacing at *
    omega

/-- The first hit from a grid downwards is a point of the window. On the grid
where it is found, either the search began or the next coarser grid is spaced
at least as widely as the window is wide. -/
theorem fromGrid_spec (hBelow : w.below < w.exact) (hAbove : w.exact < w.above)
    (hEven : w.exact % 2 = 0) (tie : Tie) (start : Nat) :
    ∃ grid : Nat, (w.fromGrid tie start).exponent = finestExponent + grid ∧
      w.holds ((w.fromGrid tie start).digits * (2 * 10 ^ grid)) = true ∧
      (w.fromGrid tie start).digits * (2 * 10 ^ grid) ≤ w.exact + 2 * 10 ^ grid ∧
      (grid = start ∨ w.above ≤ w.below + 2 * 10 ^ (grid + 1)) := by
  induction start with
  | zero =>
      have hPoint : w.exact / 2 * (2 * 10 ^ 0) = w.exact := by omega
      refine ⟨0, rfl, ?_, ?_, Or.inl rfl⟩
      · rw [fromGrid, hPoint, holds_iff]
        exact Or.inl ⟨hBelow, hAbove⟩
      · rw [fromGrid, hPoint]
        exact Nat.le_add_right _ _
  | succ start ih =>
      rw [fromGrid]
      cases hTry : w.onGrid? tie (start + 1) with
      | some digits =>
          obtain ⟨hHolds, hNear⟩ := mul_le_of_onGrid? hTry
          exact ⟨start + 1, rfl, hHolds, hNear, Or.inl rfl⟩
      | none =>
          obtain ⟨grid, hExponent, hHolds, hNear, hFirst⟩ := ih
          refine ⟨grid, hExponent, hHolds, hNear, Or.inr ?_⟩
          rcases hFirst with rfl | hWide
          · exact above_le_of_onGrid?_eq_none hBelow hAbove hTry
          · exact hWide

end Window

/-! ### The window of a magnitude -/

section Magnitude

variable {index : Nat}

theorem halves_eq (n : Nat) : halves n = n * halves 1 := by
  simp only [halves, Nat.one_mul]

theorem halves_one_pos : 0 < halves 1 := by
  decide +kernel

theorem unitsPerOne_mul_halves_one : unitsPerOne * halves 1 = 10 ^ 1074 := by
  decide +kernel

theorem below_lt_exact (h : index ≠ 0) :
    (Window.ofIndex index).below < (Window.ofIndex index).exact := by
  have hPrior := gridUnits_strictMono (Nat.sub_lt (Nat.pos_of_ne_zero h) Nat.one_pos)
  simp only [Window.ofIndex, halves_eq (_ + _), halves_eq (2 * _)]
  exact Nat.mul_lt_mul_of_pos_right (by omega) halves_one_pos

theorem exact_lt_above (index : Nat) :
    (Window.ofIndex index).exact < (Window.ofIndex index).above := by
  have hNext := gridUnits_lt_succ index
  simp only [Window.ofIndex, halves_eq (_ + _), halves_eq (2 * _)]
  exact Nat.mul_lt_mul_of_pos_right (by omega) halves_one_pos

/-- A point of the window is a quotient that belongs to the magnitude. -/
theorem belongs_of_holds {digits grid : Nat}
    (h : (Window.ofIndex index).holds (digits * (2 * 10 ^ grid)) = true) :
    Belongs (digits * 10 ^ grid) (halves 1) index := by
  rw [Window.holds_iff] at h
  simp only [Window.ofIndex, decide_eq_true_eq, halves_eq (_ + _)] at h
  rw [Nat.mul_left_comm] at h
  have hPrior : gridUnits (index - 1) ≤ gridUnits index :=
    gridUnits_strictMono.monotone (Nat.sub_le _ _)
  have hNext := gridUnits_lt_succ index
  have hWide := Nat.mul_le_mul_right (halves 1) (Nat.add_le_add hPrior hNext.le)
  constructor <;> omega

/-- The quotient `30103 / 100000` is above the logarithm of two to base ten. -/
theorem two_pow_le_ten_pow (n : Nat) : 2 ^ n ≤ 10 ^ (n * 30103 / 100000 + 1) := by
  have hBase : 2 ^ 100000 ≤ 10 ^ 30103 := by decide +kernel
  have hGrid : 30103 * n ≤ (n * 30103 / 100000 + 1) * 100000 := by
    clear hBase
    omega
  refine le_of_pow_le_pow_left₀ (show 100000 ≠ 0 by decide) (Nat.zero_le _) ?_
  calc (2 ^ n) ^ 100000 = (2 ^ 100000) ^ n := pow_right_comm 2 n 100000
    _ ≤ (10 ^ 30103) ^ n := Nat.pow_le_pow_left hBase n
    _ = 10 ^ (30103 * n) := (pow_mul 10 30103 n).symm
    _ ≤ 10 ^ ((n * 30103 / 100000 + 1) * 100000) := Nat.pow_le_pow_right (by decide) hGrid
    _ = (10 ^ (n * 30103 / 100000 + 1)) ^ 100000 := pow_mul 10 _ 100000

/-- The first grid is spaced more widely than twice the magnitude. -/
theorem Window.exact_lt_coarseGrid (w : Window) : w.exact < 2 * 10 ^ w.coarseGrid := by
  have hBits : w.exact < 2 ^ (w.exact.log2 + 1) := Nat.lt_log2_self
  have hTen := two_pow_le_ten_pow w.exact.log2
  rw [pow_succ] at hBits
  rw [coarseGrid, pow_succ]
  omega

/-- The shortest decimal is a point of the window, and its digits are few. -/
theorem shortest_spec (tie : Tie) (m : Magnitude) (h : m.index ≠ 0) :
    ∃ grid : Nat, (shortest tie m).exponent = finestExponent + grid ∧
      Belongs ((shortest tie m).digits * 10 ^ grid) (halves 1) m.index ∧
      (shortest tie m).digits ≤ 2 ^ 58 := by
  have hEven : (Window.ofIndex m.index).exact % 2 = 0 := by
    simp only [Window.ofIndex, halves, Nat.mul_assoc, Nat.mul_mod_right]
  obtain ⟨grid, hExponent, hHolds, hNear, hFirst⟩ :=
    Window.fromGrid_spec (below_lt_exact h) (exact_lt_above m.index) hEven tie
      (Window.ofIndex m.index).coarseGrid
  refine ⟨grid, hExponent, belongs_of_holds hHolds, ?_⟩
  have hSize : (Window.ofIndex m.index).exact ≤ 2 ^ 54 * (2 * 10 ^ (grid + 1)) := by
    rcases hFirst with rfl | hWide
    · have hCoarse := (Window.ofIndex m.index).exact_lt_coarseGrid
      rw [pow_succ]
      omega
    · have hPrior : gridUnits (m.index - 1) ≤ gridUnits m.index :=
        gridUnits_strictMono.monotone (Nat.sub_le _ _)
      have hGap := Nat.mul_le_mul_right (halves 1) (gridUnits_le_mul_gap m.index)
      have hLess := Nat.mul_le_mul_right (halves 1) hPrior
      simp only [Window.ofIndex, halves_eq (_ + _), halves_eq (2 * _), Nat.add_mul,
        Nat.mul_assoc] at hGap hWide ⊢
      omega
  have hSpacing : 0 < 2 * 10 ^ grid := by positivity
  have hDigits : (shortest tie m).digits * (2 * 10 ^ grid) ≤ 2 ^ 58 * (2 * 10 ^ grid) := by
    refine hNear.trans ?_
    rw [pow_succ] at hSize
    omega
  exact Nat.le_of_mul_le_mul_right hDigits hSpacing

theorem shortest_digits_le (tie : Tie) (m : Magnitude) (h : m.index ≠ 0) :
    (shortest tie m).digits ≤ 2 ^ 58 := by
  obtain ⟨-, -, -, hDigits⟩ := shortest_spec tie m h
  exact hDigits

/-- No midpoint is at zero, so the shortest decimal is not zero. -/
theorem shortest_digits_pos (tie : Tie) (m : Magnitude) (h : m.index ≠ 0) :
    0 < (shortest tie m).digits := by
  obtain ⟨grid, -, hBelongs, -⟩ := shortest_spec tie m h
  by_contra hZero
  have hDigits : (shortest tie m).digits = 0 := by omega
  have hLower := hBelongs.lower
  have hPositive : 0 < (gridUnits (m.index - 1) + gridUnits m.index) * halves 1 :=
    Nat.mul_pos (Nat.add_pos_right _ (gridUnits_pos h)) halves_one_pos
  rw [hDigits, Nat.zero_mul] at hLower
  omega

/-- A decimal without a fraction belongs to the magnitude that it is shortest
for. -/
theorem belongs_shortest_of_nonneg (tie : Tie) (m : Magnitude) (h : m.index ≠ 0)
    (hWhole : 0 ≤ (shortest tie m).exponent) :
    Belongs ((shortest tie m).digits * 10 ^ (shortest tie m).exponent.toNat * unitsPerOne) 1
      m.index := by
  obtain ⟨grid, hExponent, hBelongs, -⟩ := shortest_spec tie m h
  have hGrid : grid = (shortest tie m).exponent.toNat + 1074 := by
    rw [finestExponent] at hExponent
    omega
  rw [← belongs_mul_right_iff halves_one_pos, Nat.one_mul, Nat.mul_assoc,
    unitsPerOne_mul_halves_one, Nat.mul_assoc, ← pow_add, ← hGrid]
  exact hBelongs

/-- A decimal with a fraction belongs to the magnitude that it is shortest for. -/
theorem belongs_shortest_of_neg (tie : Tie) (m : Magnitude) (h : m.index ≠ 0)
    (hFraction : (shortest tie m).exponent < 0) :
    Belongs ((shortest tie m).digits * unitsPerOne) (10 ^ (shortest tie m).exponent.natAbs)
      m.index := by
  obtain ⟨grid, hExponent, hBelongs, -⟩ := shortest_spec tie m h
  have hGrid : 1074 = grid + (shortest tie m).exponent.natAbs := by
    rw [finestExponent] at hExponent
    omega
  rw [← belongs_mul_right_iff halves_one_pos, Nat.mul_assoc, unitsPerOne_mul_halves_one, hGrid,
    pow_add, ← Nat.mul_assoc, Nat.mul_comm _ (halves 1),
    belongs_mul_right_iff (by positivity)]
  exact hBelongs

end Magnitude

end SnapshotStore.Decimal
