import SnapshotStore.Binary64.Basic
import SnapshotStore.Decimal.Digits

/-! Numerals as people type them. A whole numeral is an optional sign and
digits. A floating numeral may have a point with digits on at least one side,
and an exponent; it may also be one of the words for infinity and
not-a-number, in any case of letters. It reads as the nearest number. No
blanks and no digit separators are admitted. -/
namespace SnapshotStore.Decimal

attribute [local instance] builtinPow

/-- An optional sign in front: whether it is a minus, and what follows. -/
def splitSign : List Char → Bool × List Char
  | '-' :: rest => (true, rest)
  | '+' :: rest => (false, rest)
  | cs => (false, cs)

/-- A nonempty text of digits and nothing else. -/
def readNat? (cs : List Char) : Option Nat :=
  if cs.isEmpty || !cs.all Char.isDigit then none else some (ofDigits cs)

/-- A whole numeral, of any size. -/
def readInt? (cs : List Char) : Option Int :=
  (readNat? (splitSign cs).2).map fun n => if (splitSign cs).1 then -n else n

/-- A whole numeral inside the range of 64 bits with sign. -/
def readInt64? (cs : List Char) : Option Int64 :=
  match readInt? cs with
  | some n => if -2 ^ (63 : Nat) ≤ n ∧ n < 2 ^ (63 : Nat) then some (Int64.ofInt n) else none
  | none => none

/-- How many rows or items are asked for: below 2^64, with an optional plus. -/
def readCount? (cs : List Char) : Option Nat :=
  let digits := match cs with
    | '+' :: rest => rest
    | _ => cs
  match readNat? digits with
  | some n => if n < 2 ^ (64 : Nat) then some n else none
  | none => none

/-- The exponent part of a numeral, if the rest of the text is one or is empty. -/
def readExponent? : List Char → Option Int
  | [] => some 0
  | c :: rest => if c = 'e' ∨ c = 'E' then readInt? rest else none

/-- An unsigned floating numeral, as significand and exponent of ten. -/
def readScaled? (cs : List Char) : Option (Nat × Int) :=
  let (whole, rest) := splitDigits cs
  let (fraction, rest) := match rest with
    | '.' :: rest => splitDigits rest
    | _ => ([], rest)
  if whole.isEmpty && fraction.isEmpty then none
  else (readExponent? rest).map fun exponent =>
    (ofDigits (whole ++ fraction), exponent - fraction.length)

/-- The words for numbers without digits, in small letters. -/
def wordValue? (negative : Bool) (word : List Char) : Option Binary64 :=
  if word = ['i', 'n', 'f'] ∨ word = ['i', 'n', 'f', 'i', 'n', 'i', 't', 'y'] then
    some (.infinite negative)
  else if word = ['n', 'a', 'n'] then some .nan
  else none

/-- A floating numeral, rounded to the nearest number. -/
def readFloat? (cs : List Char) : Option Binary64 :=
  let (negative, body) := splitSign cs
  match readScaled? body with
  | some (significand, exponent) =>
    some (.ofMagnitude? negative (Magnitude.ofDecimal? significand exponent))
  | none => wordValue? negative (body.map Char.toLower)

end SnapshotStore.Decimal
