import SnapshotStore.Command.Basic
import SnapshotStore.Error
import SnapshotStore.Value.Literal

/-! Commands as lines of text. A line is a verb in any case of letters, a key
without blanks, and an argument that may hold blanks inside. -/
namespace SnapshotStore.Command

/-- The first word of a text and the rest, both without blanks around them. -/
def splitToken (cs : List Char) : List Char × List Char :=
  let (word, rest) := Text.splitWord (Text.trim cs)
  (word, Text.trimStart rest)

/-- Complain that a command does not have the form it should have. -/
def misuse {α : Type} (form : String) : Except CommandFault α :=
  .error (.usage form)

/-- A key and an argument, which may be empty. -/
def key (rest : List Char) (form : String) : Except CommandFault (String × List Char) :=
  let (word, argument) := splitToken rest
  if word.isEmpty then misuse form else .ok (String.ofList word, argument)

/-- A key and nothing else. -/
def onlyKey (rest : List Char) (form : String) : Except CommandFault String :=
  match key rest form with
  | .error fault => .error fault
  | .ok (key, argument) => if argument.isEmpty then .ok key else misuse form

/-- A key and an argument that is not empty. -/
def keyAndArgument (rest : List Char) (form : String) :
    Except CommandFault (String × List Char) :=
  match key rest form with
  | .error fault => .error fault
  | .ok (key, argument) => if argument.isEmpty then misuse form else .ok (key, argument)

/-- A number literal. -/
def readNumber (text : String) : Except CommandFault Number :=
  match (Value.ofLiteral text).number? with
  | some n => .ok n
  | none => .error (.badNumber text)

/-- By how much to change a number: by one, unless it is said. -/
def delta (argument : List Char) : Except CommandFault Number :=
  if argument.isEmpty then .ok (.int 1) else readNumber (String.ofList argument)

/-- A key and by how much to change its number. -/
def keyAndDelta (rest : List Char) (form : String) : Except CommandFault (String × Number) :=
  match key rest form with
  | .error fault => .error fault
  | .ok (key, argument) => (delta argument).map (key, ·)

/-- How many rows to show. -/
def limit (argument : List Char) : Except CommandFault Nat :=
  if argument.isEmpty then .ok defaultLimit
  else
    match Decimal.readCount? argument with
    | some n => .ok n
    | none => .error (.badLimit (String.ofList argument))

/-- A stem and how many rows to show. -/
def stemAndLimit (rest : List Char) (form : String) : Except CommandFault (String × Nat) :=
  match key rest form with
  | .error fault => .error fault
  | .ok (stem, argument) => (limit argument).map (stem, ·)

/-- The command of a verb in capital letters, with what follows the verb. -/
def ofVerb (verb : String) (rest : List Char) : Except CommandFault Command :=
  match verb with
  | "GET" =>
    (key rest "GET <key> [default]").map fun (key, argument) =>
      .get key (if argument.isEmpty then none else some (.ofLiteral (String.ofList argument)))
  | "HAS" => (onlyKey rest "HAS <key>").map .has
  | "SET" =>
    (keyAndArgument rest "SET <key> <value>").map fun (key, argument) =>
      .set key (.ofLiteral (String.ofList argument))
  | "DEL" | "DELETE" => (onlyKey rest "DEL <key>").map .delete
  | "INCR" => (keyAndDelta rest "INCR <key> [delta]").map fun (key, n) => .increment key n
  | "DECR" => (keyAndDelta rest "DECR <key> [delta]").map fun (key, n) => .decrement key n
  | "PUSH" =>
    (keyAndArgument rest "PUSH <key> <item>").map fun (key, argument) =>
      .push key (String.ofList argument)
  | "KEYS" => .ok (.keys (String.ofList rest))
  | "ARRAY" => (onlyKey rest "ARRAY <key>").map .array
  | "TOP" => (stemAndLimit rest "TOP <prefix> [limit]").map fun (stem, n) => .top stem n
  | "DUMP" => .ok .dump
  | "SAVE" => .ok .save
  | _ => .error (.unknown verb)

/-- The command of a line. -/
def parse (line : String) : Except CommandFault Command :=
  let (verb, rest) := splitToken line.toList
  if verb.isEmpty then .error .empty
  else ofVerb (String.ofList (verb.map Char.toUpper)) rest

end SnapshotStore.Command
