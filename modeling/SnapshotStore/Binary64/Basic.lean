/-! Floating-point numbers of 64 bits, as exact mathematics. The smallest
positive one, 2^-1074, is the unit, and every finite one is a whole number of
units. The magnitudes are numbered in order: those below 2^52 are spaced by
one unit, and each further run of 2^52 indices is spaced twice as widely as
the one before it. An index is also the bit pattern of its magnitude, so equal
patterns are equal values here. All not-a-number patterns count as one. -/
namespace SnapshotStore

/-- The built-in powers, by name: so the powers below are these, whatever others
an importing module knows. -/
abbrev builtinPow (α : Type) [NatPow α] : Pow α Nat :=
  instPowNat

attribute [local instance] builtinPow

namespace Binary64

/-- How many units make the number one. -/
abbrev unitsPerOne : Nat :=
  2 ^ (1074 : Nat)

/-- The index after the last finite magnitude; infinity stands there. -/
abbrev indexOfInfinity : Nat :=
  2047 * 2 ^ (52 : Nat)

/-- Units at an index of the grid. The grid goes on past the finite
magnitudes by the same rule. -/
def gridUnits (index : Nat) : Nat :=
  if index < 2 ^ (52 : Nat) then index
  else (2 ^ (52 : Nat) + index % 2 ^ (52 : Nat)) * 2 ^ (index / 2 ^ (52 : Nat) - 1)

/-- A quotient of whole numbers rounded to the nearest whole number, and to
the even one of two that are equally near. -/
def roundQuotient (num den : Nat) : Nat :=
  let low := num / den
  let left := num % den
  if 2 * left < den then low
  else if den < 2 * left then low + 1
  else if low % 2 = 0 then low
  else low + 1

/-- The index of the grid nearest to a quotient of units; the even index of
two that are equally near. Where the grid is spaced by 2^k units, rounding to
it is rounding the quotient over 2^k to a whole number. -/
def nearestIndex (num den : Nat) : Nat :=
  let spacing := (num / den).log2 - 52
  spacing * 2 ^ (52 : Nat) + roundQuotient num (den * 2 ^ spacing)

end Binary64

/-- A finite magnitude, by its index on the grid. -/
structure Magnitude where
  index : Nat
  index_lt : index < Binary64.indexOfInfinity
deriving DecidableEq

namespace Magnitude

open Binary64

def zero : Magnitude :=
  ⟨0, by decide⟩

instance : Inhabited Magnitude :=
  ⟨zero⟩

/-- The exact value, in units. -/
def units (m : Magnitude) : Nat :=
  gridUnits m.index

/-- The magnitude nearest to a quotient of units, or nothing where that
rounds past the largest magnitude. -/
def ofQuotient? (num den : Nat) : Option Magnitude :=
  let index := nearestIndex num den
  if h : index < indexOfInfinity then some ⟨index, h⟩ else none

/-- The magnitude nearest to a whole number. -/
def ofNat? (n : Nat) : Option Magnitude :=
  ofQuotient? (n * unitsPerOne) 1

/-- The product, rounded once. -/
def mul? (a b : Magnitude) : Option Magnitude :=
  ofQuotient? (a.units * b.units) unitsPerOne

/-- The quotient, rounded once; nothing is a quotient by zero. -/
def div? (a b : Magnitude) : Option Magnitude :=
  if b.units = 0 then none else ofQuotient? (a.units * unitsPerOne) b.units

/-- The magnitude nearest to `significand * 10^exponent`. An exponent far out
of range is settled without computing the power: from 10^309 on everything
rounds past the largest magnitude, and below 10^-324 everything rounds to
zero, the significand being less than ten to its number of bits. -/
def ofDecimal? (significand : Nat) (exponent : Int) : Option Magnitude :=
  if significand = 0 then some zero
  else if 309 ≤ exponent then none
  else if exponent + significand.log2 ≤ -325 then some zero
  else if 0 ≤ exponent then ofNat? (significand * 10 ^ exponent.toNat)
  else ofQuotient? (significand * unitsPerOne) (10 ^ (-exponent).toNat)

end Magnitude

/-- A floating-point number of 64 bits. Zero has two signs. -/
inductive Binary64 where
  | nan
  | infinite (negative : Bool)
  | finite (negative : Bool) (magnitude : Magnitude)
deriving DecidableEq

namespace Binary64

instance : Inhabited Binary64 :=
  ⟨.nan⟩

/-- The positive zero. -/
def zero : Binary64 :=
  .finite false .zero

def isFinite : Binary64 → Bool
  | .finite _ _ => true
  | _ => false

def isNaN : Binary64 → Bool
  | .nan => true
  | _ => false

/-- A whole number with the given sign. -/
def signed (negative : Bool) (n : Nat) : Int :=
  if negative then -n else n

/-- A rounded magnitude with the given sign; past the largest one, infinity. -/
def ofMagnitude? (negative : Bool) : Option Magnitude → Binary64
  | some magnitude => .finite negative magnitude
  | none => .infinite negative

/-- The nearest number to a whole number of units. -/
def ofUnits (units : Int) : Binary64 :=
  ofMagnitude? (units < 0) (Magnitude.ofQuotient? units.natAbs 1)

/-- The nearest number to a whole number. -/
def ofInt (n : Int) : Binary64 :=
  ofMagnitude? (n < 0) (Magnitude.ofNat? n.natAbs)

def neg : Binary64 → Binary64
  | .nan => .nan
  | .infinite negative => .infinite !negative
  | .finite negative magnitude => .finite (!negative) magnitude

/-- The exact sum, rounded once. Opposite infinities have none. A sum of zero
is positive unless both terms are negative zeros. -/
def add : Binary64 → Binary64 → Binary64
  | .nan, _ => .nan
  | _, .nan => .nan
  | .infinite s, .infinite t => if s = t then .infinite s else .nan
  | .infinite s, .finite _ _ => .infinite s
  | .finite _ _, .infinite t => .infinite t
  | .finite s a, .finite t b =>
    let sum := signed s a.units + signed t b.units
    if sum = 0 then .finite (s && t) .zero else ofUnits sum

/-- The exact difference, rounded once. -/
def sub (a b : Binary64) : Binary64 :=
  a.add b.neg

/-- The place on the number line: a finite number by its signed index, so
that both zeros share one place, and the infinities beyond all of them. -/
def place? : Binary64 → Option Int
  | .nan => none
  | .infinite negative => some (signed negative indexOfInfinity)
  | .finite negative magnitude => some (signed negative magnitude.index)

/-- How two numbers compare; not-a-number compares with nothing. -/
def compare? (a b : Binary64) : Option Ordering :=
  match a.place?, b.place? with
  | some p, some q => some (compare p q)
  | _, _ => none

/-- Equality of values: the zeros are equal, and not-a-number differs from
itself. -/
def sameValue (a b : Binary64) : Bool :=
  a.compare? b == some .eq

/-- Below zero; neither zero is. -/
def isNegative (a : Binary64) : Bool :=
  a.compare? zero == some .lt

/-- Above zero; neither zero is. -/
def isPositive (a : Binary64) : Bool :=
  a.compare? zero == some .gt

end Binary64

end SnapshotStore
