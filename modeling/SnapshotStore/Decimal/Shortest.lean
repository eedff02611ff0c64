import SnapshotStore.Binary64.Basic

/-! The decimal with the fewest digits that reads back as a given magnitude.

A decimal reads back as a magnitude where it lies between the midpoints to the
two neighbours on the grid; a midpoint itself reads back as the neighbour of
even index. Grids of powers of ten are tried from the coarse to the fine. Of
a grid only the two points around the magnitude matter, because if any point
of it reads back, one of these does. The first grid with such a point gives
the fewest digits. -/
namespace SnapshotStore.Decimal

attribute [local instance] builtinPow

open Binary64

/-- A positive decimal, `digits * 10^exponent`. -/
structure Scaled where
  digits : Nat
  exponent : Int
deriving DecidableEq

/-- Which of two decimals on one grid is taken when both read back and the
magnitude is halfway between them. -/
inductive Tie where
  | up
  | even

/-- Powers of ten count from 10^-1074 here: grid number `g` has the points
`d * 10^g / 10^1074`. Every magnitude lies on the grid of number zero. -/
def finestExponent : Int :=
  -1074

/-- A number of half units, counted in halves of 10^-1074. One unit is 5^1074
times 10^-1074, both being exact. -/
def halves (halfUnits : Nat) : Nat :=
  halfUnits * 5 ^ (1074 : Nat)

/-- The points that read back as one magnitude, in halves of 10^-1074: those
between the midpoints on both sides, and the midpoints too if they are closed. -/
structure Window where
  below : Nat
  exact : Nat
  above : Nat
  closed : Bool

namespace Window

/-- The window of the magnitude of an index other than zero. -/
def ofIndex (index : Nat) : Window :=
  { below := halves (gridUnits (index - 1) + gridUnits index)
    exact := halves (2 * gridUnits index)
    above := halves (gridUnits index + gridUnits (index + 1))
    closed := index % 2 = 0 }

/-- The point reads back as the magnitude. -/
def holds (w : Window) (point : Nat) : Bool :=
  (w.below < point && point < w.above) || (w.closed && (point = w.below || point = w.above))

/-- The point of a grid that stands for the magnitude, if one reads back: of
the two points around it the nearer one. -/
def onGrid? (w : Window) (tie : Tie) (grid : Nat) : Option Nat :=
  let spacing := 2 * 10 ^ grid
  let low := w.exact / spacing
  let left := w.exact % spacing
  match w.holds (low * spacing), w.holds ((low + 1) * spacing) with
  | true, true =>
    if 2 * left < spacing then some low
    else if spacing < 2 * left then some (low + 1)
    else match tie with
      | .up => some (low + 1)
      | .even => some (if low % 2 = 0 then low else low + 1)
  | true, false => some low
  | false, true => some (low + 1)
  | false, false => none

/-- The first hit from a grid downwards. The last grid holds the magnitude
itself. -/
def fromGrid (w : Window) (tie : Tie) : Nat → Scaled
  | 0 => ⟨w.exact / 2, finestExponent⟩
  | grid + 1 =>
    match w.onGrid? tie (grid + 1) with
    | some digits => ⟨digits, finestExponent + (grid + 1)⟩
    | none => w.fromGrid tie grid

/-- A grid whose spacing exceeds the magnitude, from its number of bits. -/
def coarseGrid (w : Window) : Nat :=
  w.exact.log2 * 30103 / 100000 + 2

end Window

/-- The shortest decimal that reads back as a magnitude other than zero. -/
def shortest (tie : Tie) (m : Magnitude) : Scaled :=
  let w := Window.ofIndex m.index
  w.fromGrid tie w.coarseGrid

end SnapshotStore.Decimal
