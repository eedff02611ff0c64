import SnapshotStore.Number.Basic

/-! The numeric order of stored numbers. A whole number and a floating one are
compared without rounding either: the floating number is cut to its whole
part, which is a whole number of 64 bits unless the floating number lies
outside their range, and the fraction decides where the whole parts agree.
Not-a-number comes last and is equal to itself. -/
namespace SnapshotStore.Number

attribute [local instance] builtinPow

open Binary64

/-- The number 2^63 in units, the end of the whole numbers of 64 bits. -/
def rangeUnits : Int :=
  2 ^ (63 : Nat) * unitsPerOne

/-- Compare a whole number with a floating one. -/
def compareIntFloat (i : Int) : Binary64 → Ordering
  | .nan => .lt
  | .infinite negative => if negative then .gt else .lt
  | .finite negative magnitude =>
    let units := signed negative magnitude.units
    if rangeUnits ≤ units then .lt
    else if units < -rangeUnits then .gt
    else
      let whole := units.tdiv unitsPerOne
      match compare i whole with
      | .eq => compare (whole * unitsPerOne) units
      | other => other

/-- The numeric order; equality in it does not look at the kind. -/
def order : Number → Number → Ordering
  | .int i, .int j => compare i.toInt j.toInt
  | .int i, .float g => compareIntFloat i.toInt g
  | .float f, .int j => (compareIntFloat j.toInt f).swap
  | .float f, .float g =>
    match f.compare? g with
    | some ordering => ordering
    | none => compare f.isNaN.toNat g.isNaN.toNat

end SnapshotStore.Number
