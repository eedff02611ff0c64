import SnapshotStore.Number.Basic

/-! JSON texts as trees, and what can be wrong with a text. -/
namespace SnapshotStore

/-- A number in a JSON text. A whole one fits 64 bits, with or without a sign. -/
inductive Json.Numeral where
  | whole (value : Int)
  | floating (value : Binary64)

/-- The stored number. A whole number that does not fit 64 bits with a sign
becomes the nearest floating one. -/
def Json.Numeral.number : Json.Numeral → Number
  | .whole n => (Number.ofInt? n).getD (.float (.ofInt n))
  | .floating f => .float f

/-- A JSON value. The members of a record stand in the order of the text,
repeated names included. -/
inductive Json where
  | null
  | bool (value : Bool)
  | number (value : Json.Numeral)
  | text (value : String)
  | list (items : List Json)
  | record (members : List (String × Json))

namespace Json

instance : Inhabited Json :=
  ⟨.null⟩

/-- What a reader of JSON can find wrong. -/
inductive Fault where
  | endInValue
  | endInText
  | endInList
  | endInRecord
  | noValue
  | misspeltWord
  | noColon
  | noListSeparator
  | noRecordSeparator
  | nameNotText
  | trailingComma
  | trailingText
  | badNumber
  | numberTooLarge
  | badEscape
  | loneSurrogate
  | missingSurrogate
  | controlCharacter
  | tooDeep
  | unsupportedValue
deriving DecidableEq

/-- The words for a fault. -/
def Fault.message : Fault → String
  | .endInValue => "EOF while parsing a value"
  | .endInText => "EOF while parsing a string"
  | .endInList => "EOF while parsing a list"
  | .endInRecord => "EOF while parsing an object"
  | .noValue => "expected value"
  | .misspeltWord => "expected ident"
  | .noColon => "expected `:`"
  | .noListSeparator => "expected `,` or `]`"
  | .noRecordSeparator => "expected `,` or `\x7d`"
  | .nameNotText => "key must be a string"
  | .trailingComma => "trailing comma"
  | .trailingText => "trailing characters"
  | .badNumber => "invalid number"
  | .numberTooLarge => "number out of range"
  | .badEscape => "invalid escape"
  | .loneSurrogate => "lone leading surrogate in hex escape"
  | .missingSurrogate => "unexpected end of hex escape"
  | .controlCharacter => "control character (\\u0000-\\u001F) found while parsing a string"
  | .tooDeep => "recursion limit exceeded"
  | .unsupportedValue => "data did not match any variant of untagged enum Value"

end Json

end SnapshotStore
