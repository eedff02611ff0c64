/-! Runs of decimal digits: the number that a run stands for, and the run that
stands for a number. -/
namespace SnapshotStore.Decimal

/-- The longest run of digits at the beginning, and what follows it. -/
def splitDigits (cs : List Char) : List Char × List Char :=
  (cs.takeWhile Char.isDigit, cs.dropWhile Char.isDigit)

/-- The number that a run of digits stands for, the empty run being zero. -/
def ofDigits (digits : List Char) : Nat :=
  Nat.ofDigitChars 10 digits 0

/-- The digits of a number, without leading zeros; zero is one digit. -/
def digits (n : Nat) : List Char :=
  Nat.toDigits 10 n

theorem ofDigits_digits (n : Nat) : ofDigits (digits n) = n :=
  Nat.ofDigitChars_toDigits (by decide) (by decide)

/-- The text of a whole number: a minus sign where it is negative, and its
digits. -/
def ofInt (n : Int) : List Char :=
  if n < 0 then '-' :: digits n.natAbs else digits n.natAbs

/-- The digits with zeros before them, up to a width. -/
def padded (width n : Nat) : List Char :=
  List.replicate (width - (digits n).length) '0' ++ digits n

end SnapshotStore.Decimal
