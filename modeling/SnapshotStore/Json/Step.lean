import SnapshotStore.Json.Basic

/-! Readers that take something from the beginning of a text. What a reader
leaves is shorter than what it was given, and carries the proof of that, so
repeating a reader ends. -/
namespace SnapshotStore.Json

/-- A value read from the beginning of a text, and the text that is left. -/
structure Step (α : Type) (input : List Char) where
  value : α
  rest : List Char
  shorter : rest.length < input.length

/-- A reader gives a value and the rest of its text, or says what is wrong. -/
abbrev Reader (α : Type) :=
  (input : List Char) → Except Fault (Step α input)

namespace Step

variable {α β : Type} {input : List Char}

/-- Change the value and leave the same rest. -/
def map (f : α → β) (step : Step α input) : Step β input :=
  ⟨f step.value, step.rest, step.shorter⟩

/-- The same step, seen from a text that is at least as long. -/
def widen {longer : List Char} (step : Step α input) (h : input.length ≤ longer.length) :
    Step α longer :=
  ⟨step.value, step.rest, Nat.lt_of_lt_of_le step.shorter h⟩

end Step

/-- The blanks that JSON admits between its parts: these four and no others. -/
def isBlank (c : Char) : Bool :=
  c = ' ' || c = '\n' || c = '\t' || c = '\r'

/-- The text from its first character that is not a JSON blank. -/
def skip (input : List Char) : List Char :=
  input.dropWhile isBlank

theorem length_skip_le (input : List Char) : (skip input).length ≤ input.length :=
  (List.dropWhile_sublist _).length_le

theorem length_le_of_skip {input rest : List Char} (h : skip input = rest) :
    rest.length ≤ input.length :=
  h ▸ length_skip_le input

theorem length_lt_of_skip {input rest : List Char} {c : Char} (h : skip input = c :: rest) :
    rest.length < input.length := by
  have := length_le_of_skip h
  rw [List.length_cons] at this
  omega

end SnapshotStore.Json
