import SnapshotStore.Binary64.Basic
import SnapshotStore.Decimal.Layout

/-! Stored numbers: whole numbers of 64 bits and floating-point numbers. The
two stay apart, so a whole number never turns into a floating one by being
stored. A sum with a floating operand is floating. -/
namespace SnapshotStore

attribute [local instance] builtinPow

/-- A number, whole or floating. Equality here tells the two zeros apart. -/
inductive Number where
  | int (value : Int64)
  | float (value : Binary64)
deriving DecidableEq

namespace Number

instance : Inhabited Number :=
  ⟨.int 0⟩

/-- The nearest floating-point number. -/
def toFloat : Number → Binary64
  | .int i => .ofInt i.toInt
  | .float f => f

def isInteger : Number → Bool
  | .int _ => true
  | .float _ => false

def isFinite : Number → Bool
  | .int _ => true
  | .float f => f.isFinite

/-- Below zero; a negative zero is not. -/
def isNegative : Number → Bool
  | .int i => i.toInt < 0
  | .float f => f.isNegative

/-- Above zero. -/
def isPositive : Number → Bool
  | .int i => 0 < i.toInt
  | .float f => f.isPositive

/-- The zero of the same kind. -/
def zeroLike : Number → Number
  | .int _ => .int 0
  | .float _ => .float .zero

/-- A whole number, if it fits 64 bits. -/
def ofInt? (n : Int) : Option Number :=
  if -2 ^ (63 : Nat) ≤ n ∧ n < 2 ^ (63 : Nat) then some (.int (Int64.ofInt n)) else none

/-- A floating-point number, if it is finite. -/
def ofFinite? (f : Binary64) : Option Number :=
  if f.isFinite then some (.float f) else none

/-- The sum. Whole numbers are added exactly and have no sum outside 64 bits;
otherwise both are taken as floating, and only a finite sum counts. -/
def add? : Number → Number → Option Number
  | .int i, .int j => ofInt? (i.toInt + j.toInt)
  | a, b => ofFinite? (a.toFloat.add b.toFloat)

/-- The difference, by the same rules as the sum. -/
def sub? : Number → Number → Option Number
  | .int i, .int j => ofInt? (i.toInt - j.toInt)
  | a, b => ofFinite? (a.toFloat.sub b.toFloat)

/-- Same kind and same value: the zeros are equal, and not-a-number differs
from itself. -/
def sameValue : Number → Number → Bool
  | .int i, .int j => i == j
  | .float f, .float g => f.sameValue g
  | _, _ => false

/-- The text of a number. -/
def text : Number → List Char
  | .int i => Decimal.ofInt i.toInt
  | .float f => Decimal.plain f

end Number

end SnapshotStore
