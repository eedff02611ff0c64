import SnapshotStore.Json.Quoted

/-! Stored values. The kind of a value is part of it: storing a value of
another kind replaces the old one, and arithmetic touches numbers only. -/
namespace SnapshotStore

/-- The kind of a value, as errors name it. -/
inductive Kind where
  | bool
  | number
  | text
  | list
deriving DecidableEq

def Kind.name : Kind → String
  | .bool => "bool"
  | .number => "number"
  | .text => "string"
  | .list => "list"

/-- A stored value. Equality here tells the two floating zeros apart. -/
inductive Value where
  | bool (value : Bool)
  | number (value : Number)
  | text (value : String)
  | list (items : List String)
deriving DecidableEq

namespace Value

instance : Inhabited Value :=
  ⟨.bool false⟩

def kind : Value → Kind
  | .bool _ => .bool
  | .number _ => .number
  | .text _ => .text
  | .list _ => .list

def number? : Value → Option Number
  | .number n => some n
  | _ => none

def int? : Value → Option Int64
  | .number (.int i) => some i
  | _ => none

def bool? : Value → Option Bool
  | .bool b => some b
  | _ => none

def text? : Value → Option String
  | .text s => some s
  | _ => none

def list? : Value → Option (List String)
  | .list items => some items
  | _ => none

/-- A number that is infinite or not a number may not be stored. -/
def isStorable : Value → Bool
  | .number n => n.isFinite
  | _ => true

/-- Same kind and same value: the floating zeros are equal, and not-a-number
differs from itself. -/
def sameValue : Value → Value → Bool
  | .bool a, .bool b => a == b
  | .number a, .number b => a.sameValue b
  | .text a, .text b => a == b
  | .list a, .list b => a == b
  | _, _ => false

/-- The JSON of a number. A floating number always has a point or an exponent,
so it is never mistaken for a whole one; what is not finite has no JSON
number. -/
def numberJson : Number → List Char
  | .int i => Decimal.ofInt i.toInt
  | .float (.finite negative m) => Decimal.mixed negative m
  | .float _ => ['n', 'u', 'l', 'l']

/-- The JSON of a list on one line. -/
def listJson (items : List String) : List Char :=
  '[' :: [','].intercalate (items.map Json.quote) ++ [']']

/-- The JSON of a truth value. -/
def boolJson (b : Bool) : List Char :=
  if b then ['t', 'r', 'u', 'e'] else ['f', 'a', 'l', 's', 'e']

/-- The JSON of a value on one line. -/
def json : Value → List Char
  | .bool b => boolJson b
  | .number n => numberJson n
  | .text s => Json.quote s
  | .list items => listJson items

/-- The text of a value for people: a text without quotes, a list as JSON. -/
def display : Value → String
  | .bool b => String.ofList (boolJson b)
  | .number n => String.ofList n.text
  | .text s => s
  | .list items => String.ofList (listJson items)

end Value

end SnapshotStore
