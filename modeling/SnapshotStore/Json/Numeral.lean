import SnapshotStore.Json.Step
import SnapshotStore.Decimal.Digits

/-! Numbers in JSON texts. A number without point and exponent is a whole
number where it fits 64 bits, with or without a sign; minus zero does not count
as whole. Everything else is floating, and is not rounded once but step by step: the
digits are gathered in a significand of 64 bits as long as they fit, that
significand is rounded, and the result is then scaled by rounded powers of
ten, at most 308 of them at a time. The last place may therefore differ from
that of the nearest number. -/
namespace SnapshotStore.Json

attribute [local instance] builtinPow

/-- Digits gathered so far, and how many whole digits no longer fitted. -/
structure Gathered where
  significand : Nat
  dropped : Nat

namespace Gathered

/-- The value of one digit. -/
def digitValue (c : Char) : Nat :=
  c.toNat - '0'.toNat

/-- Take a digit in front of the point. Once one no longer fits, no later one
is taken, and each counts as a power of ten. -/
def takeWhole (g : Gathered) (c : Char) : Gathered :=
  let next := g.significand * 10 + digitValue c
  if g.dropped = 0 ∧ next < 2 ^ (64 : Nat) then { g with significand := next }
  else { g with dropped := g.dropped + 1 }

/-- The digits in front of the point. -/
def ofWhole (digits : List Char) : Gathered :=
  digits.foldl takeWhole ⟨0, 0⟩

/-- Take the digits after the point, as long as they fit: the significand with
them, and how many they are. The others have no effect. -/
def takeFraction (significand : Nat) : List Char → Nat × Nat
  | [] => (significand, 0)
  | c :: rest =>
    let next := significand * 10 + digitValue c
    if next < 2 ^ (64 : Nat) then
      let (total, taken) := takeFraction next rest
      (total, taken + 1)
    else (significand, 0)

end Gathered

/-- A power of ten as a rounded magnitude, for exponents to 308. -/
def powerOfTen (n : Nat) : Magnitude :=
  (Magnitude.ofNat? (10 ^ n)).getD .zero

/-- Divide by a power of ten, at most 10^308 at a time. -/
def scaleDown (m : Magnitude) (n : Nat) : Magnitude :=
  if n ≤ 308 then (m.div? (powerOfTen n)).getD .zero
  else if m.index = 0 then m
  else scaleDown ((m.div? (powerOfTen 308)).getD .zero) (n - 308)
termination_by n

/-- Multiply by a power of ten, or divide where the exponent is negative. There
is no result where it is too large. -/
def scaleBy? (exponent : Int) (m : Magnitude) : Option Magnitude :=
  if exponent < 0 then some (scaleDown m exponent.natAbs)
  else if exponent ≤ 308 then m.mul? (powerOfTen exponent.toNat)
  else if m.index = 0 then some m
  else none

/-- The magnitude of `significand * 10^exponent` by stepwise rounding, or
nothing where it is too large. -/
def scale? (significand : Nat) (exponent : Int) : Option Magnitude :=
  (Magnitude.ofNat? significand).bind (scaleBy? exponent)

/-- A floating number with the given sign, or the fault of being too large. -/
def floating (negative : Bool) (significand : Nat) (exponent : Int) : Except Fault Numeral :=
  (scale? significand exponent).elim (.error .numberTooLarge)
    fun m => .ok (.floating (.finite negative m))

/-- The number of digits alone, given as a significand of 64 bits. Minus zero,
and what is too far below zero for a sign in 64 bits, is floating. -/
def whole (negative : Bool) (significand : Nat) : Except Fault Numeral :=
  if negative && (significand = 0 || 2 ^ (63 : Nat) < significand) then floating negative significand 0
  else .ok (.whole (Binary64.signed negative significand))

/-- A nonempty run of digits. -/
def readDigits : Reader (List Char) := fun input =>
  match input with
  | [] => .error .endInValue
  | c :: rest =>
    if c.isDigit then
      .ok ⟨c :: (Decimal.splitDigits rest).1, (Decimal.splitDigits rest).2, by
        have := (List.dropWhile_sublist (l := rest) Char.isDigit).length_le
        simp only [Decimal.splitDigits, List.length_cons]
        omega⟩
    else .error .badNumber

/-- The digits in front of the point: a zero is followed by no other digit. -/
def readWhole : Reader (List Char) := fun input =>
  match readDigits input with
  | .error fault => .error fault
  | .ok step =>
    if step.value.head? = some '0' ∧ step.value ≠ ['0'] then .error .badNumber else .ok step

/-- The exponent, after its letter. -/
def readExponent : Reader Int
  | '+' :: rest =>
    match readDigits rest with
    | .error fault => .error fault
    | .ok step => .ok ((step.map fun run => (Decimal.ofDigits run : Int)).widen (by simp))
  | '-' :: rest =>
    match readDigits rest with
    | .error fault => .error fault
    | .ok step => .ok ((step.map fun run => -(Decimal.ofDigits run : Int)).widen (by simp))
  | input =>
    match readDigits input with
    | .error fault => .error fault
    | .ok step => .ok (step.map fun run => (Decimal.ofDigits run : Int))

/-- The letter that opens an exponent. -/
def isExponentLetter (c : Char) : Bool :=
  c = 'e' || c = 'E'

/-- A number from its significand on, where an exponent may still follow. -/
def readScaled (negative : Bool) (significand : Nat) (exponent : Int)
    (absent : Except Fault Numeral) (input : List Char) :
    Except Fault (Numeral × { rest : List Char // rest.length ≤ input.length }) :=
  match input with
  | [] => absent.map fun value => (value, ⟨[], Nat.le_refl _⟩)
  | c :: rest =>
    if isExponentLetter c then
      match readExponent rest with
      | .error fault => .error fault
      | .ok step =>
        (floating negative significand (exponent + step.value)).map fun value =>
          (value, ⟨step.rest, Nat.le_succ_of_le (Nat.le_of_lt step.shorter)⟩)
    else absent.map fun value => (value, ⟨c :: rest, Nat.le_refl _⟩)

/-- A number after its sign. -/
def readMagnitude (negative : Bool) : Reader Numeral := fun input =>
  match readWhole input with
  | .error fault => .error fault
  | .ok step =>
    let gathered := Gathered.ofWhole step.value
    let plain :=
      if gathered.dropped = 0 then whole negative gathered.significand
      else floating negative gathered.significand gathered.dropped
    match h : step.rest with
    | '.' :: afterPoint =>
      match readDigits afterPoint with
      | .error fault => .error fault
      | .ok fraction =>
        let (significand, taken) := Gathered.takeFraction gathered.significand fraction.value
        let exponent : Int := gathered.dropped - taken
        match readScaled negative significand exponent (floating negative significand exponent)
            fraction.rest with
        | .error fault => .error fault
        | .ok (value, rest) =>
          .ok ⟨value, rest.1, by
            have := step.shorter
            have := fraction.shorter
            have := rest.2
            rw [h, List.length_cons] at *
            omega⟩
    | other =>
      match readScaled negative gathered.significand gathered.dropped plain other with
      | .error fault => .error fault
      | .ok (value, rest) =>
        .ok ⟨value, rest.1, by
          have := step.shorter
          have := rest.2
          rw [h] at *
          omega⟩

/-- A number. -/
def readNumber : Reader Numeral
  | '-' :: rest =>
    match readMagnitude true rest with
    | .error fault => .error fault
    | .ok step => .ok (step.widen (by simp))
  | input => readMagnitude false input

end SnapshotStore.Json
