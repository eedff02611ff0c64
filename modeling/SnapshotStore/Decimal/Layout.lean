import SnapshotStore.Decimal.Digits
import SnapshotStore.Decimal.Shortest

/-! How a floating-point number is written. The plain layout is positional
throughout and writes no point where no fraction follows. The mixed layout
keeps at least one place after the point, and changes to an exponent where the
number is large or small. -/
namespace SnapshotStore.Decimal

/-- The exponent of the leading digit. -/
def Scaled.leading (d : Scaled) : Int :=
  d.exponent + ((Decimal.digits d.digits).length - 1 : Nat)

/-- Positional notation. `tail` is what stands for an absent fraction. -/
def Scaled.positional (d : Scaled) (tail : List Char) : List Char :=
  let run := Decimal.digits d.digits
  if 0 ≤ d.exponent then run ++ List.replicate d.exponent.toNat '0' ++ tail
  else
    let places := (-d.exponent).toNat
    if places < run.length then
      run.take (run.length - places) ++ '.' :: run.drop (run.length - places)
    else '0' :: '.' :: List.replicate (places - run.length) '0' ++ run

/-- One digit before the point, the others after it, and the exponent with
its sign. -/
def Scaled.scientific (d : Scaled) : List Char :=
  let run := Decimal.digits d.digits
  let fraction := if run.length ≤ 1 then [] else '.' :: run.drop 1
  let sign := if d.leading < 0 then '-' else '+'
  run.take 1 ++ fraction ++ 'e' :: sign :: Decimal.digits d.leading.natAbs

/-- The text of a magnitude without a sign. -/
def plainMagnitude (m : Magnitude) : List Char :=
  if m.index = 0 then ['0'] else (shortest .up m).positional []

/-- The plain text of a number: the shortest digits that read back, halfway
cases going up. -/
def plain : Binary64 → List Char
  | .nan => ['N', 'a', 'N']
  | .infinite negative => if negative then ['-', 'i', 'n', 'f'] else ['i', 'n', 'f']
  | .finite negative m => if negative then '-' :: plainMagnitude m else plainMagnitude m

/-- Leading exponents from -5 to 15 are written positionally. -/
def Scaled.mixed (d : Scaled) : List Char :=
  if -5 ≤ d.leading ∧ d.leading ≤ 15 then d.positional ['.', '0'] else d.scientific

/-- The mixed text of a magnitude: the shortest digits that read back, halfway
cases going to the even digit. -/
def mixedMagnitude (m : Magnitude) : List Char :=
  if m.index = 0 then ['0', '.', '0'] else (shortest .even m).mixed

/-- The mixed text of a finite number. -/
def mixed (negative : Bool) (m : Magnitude) : List Char :=
  if negative then '-' :: mixedMagnitude m else mixedMagnitude m

end SnapshotStore.Decimal
