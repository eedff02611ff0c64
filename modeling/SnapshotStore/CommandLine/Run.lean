import SnapshotStore.CommandLine.Arguments
import SnapshotStore.Store.Execute

/-! Running the program: a store is opened, one command or a batch of lines is
carried out on it, and it is saved if it has changed. What it prints is gathered
in its report; that a line cannot be printed is not a way for a run to end. -/
namespace SnapshotStore.CommandLine

/-- How a run ends: what it has printed, and the error that ended it. -/
structure Report where
  output : String
  error : Option StoreError

/-- The exit code of a run. -/
def Report.exitCode (r : Report) : Nat :=
  if r.error.isSome then 1 else 0

/-- The version of the program. -/
def version : String :=
  "0.1.0"

/-- What the question for the version prints. -/
def versionText : String :=
  "nanostore " ++ version ++ "\n"

/-! ### Batches -/

/-- The bytes up to each line break, and those after the last one. -/
def splitLines (bytes : List UInt8) : List (List UInt8) :=
  let parts := bytes.splitOn 10
  if parts.getLast? = some [] then parts.dropLast else parts

/-- A line without the carriage return at its end. -/
def chomp (line : List UInt8) : List UInt8 :=
  if line.getLast? = some 13 then line.dropLast else line

/-- The text of a line, if it is text. -/
def lineText? (line : List UInt8) : Option String :=
  String.fromUTF8? ⟨(chomp line).toArray⟩

/-- The lines up to the first one that is not text, and whether there is one. -/
def readLines : List (List UInt8) → List String × Bool
  | [] => ([], false)
  | line :: rest =>
    match lineText? line with
    | none => ([], true)
    | some text =>
      let (texts, stopped) := readLines rest
      (text :: texts, stopped)

/-- The lines of an input. -/
def inputLines (input : ByteArray) : List String × Bool :=
  readLines (splitLines input.toList)

/-- The command text of a line; blank lines and comments have none. -/
def commandText? (line : String) : Option String :=
  match Text.trim line.toList with
  | [] => none
  | c :: rest => if c = '#' then none else some (String.ofList (c :: rest))

/-- Carry out the command of a text. -/
def executeText (s : Store) (text : String) : Program (Except StoreError Reply × Store) :=
  match Command.parse text with
  | .error fault => return (.error (.command fault), s)
  | .ok command => s.execute command

/-- What a line prints. -/
def lineOutput (number : Nat) : Except StoreError Reply → String
  | .ok reply => reply.display ++ "\n"
  | .error error =>
    "ERR line " ++ String.ofList (Decimal.digits number) ++ ": " ++ error.message ++ "\n"

/-- What a batch has done so far. -/
structure Progress where
  store : Store
  output : String
  failed : Nat

/-- Carry out one line. A line that fails is counted, and the batch goes on. -/
def runLine (p : Progress) (number : Nat) (line : String) : Program Progress :=
  match commandText? line with
  | none => return p
  | some text => do
    let (outcome, store) ← executeText p.store text
    return ⟨store, p.output ++ lineOutput number outcome,
      if outcome matches .error _ then p.failed + 1 else p.failed⟩

/-- Carry out lines in order, numbered from the given number on. -/
def runLines (p : Progress) (number : Nat) : List String → Program Progress
  | [] => return p
  | line :: rest => do
    let p ← runLine p number line
    runLines p (number + 1) rest

/-! ### Runs -/

/-- End a run on an open store: report the given error or that of a last save
of what has changed, and let the store go. -/
def finish (s : Store) (output : String) (error : Option StoreError) : Program Report := do
  let (outcome, s) ← s.saveDirty
  s.release
  match outcome with
  | .error failure => return ⟨output, some failure⟩
  | .ok _ => return ⟨output, error⟩

/-- Run a batch of lines on an open store. -/
def runBatch (s : Store) (input : ByteArray) : Program Report := do
  let (lines, stopped) := inputLines input
  let p ← runLines ⟨s, "", 0⟩ 1 lines
  if stopped then
    p.store.release
    return ⟨p.output, some (.disk .notText)⟩
  else if 0 < p.failed then finish p.store p.output (some (.command (.failedLines p.failed)))
  else finish p.store p.output none

/-- Run one command on an open store. -/
def runCommand (s : Store) (command : Command) : Program Report := do
  match ← s.execute command with
  | (.error error, s) =>
    s.release
    return ⟨"", some error⟩
  | (.ok reply, s) => finish s (reply.display ++ "\n") none

/-- The setup of the store that an invocation works on. -/
def Invocation.config (i : Invocation) : Config :=
  { directory := ⟨i.directory⟩, name := i.store,
    onCorrupt := if i.fresh then .startFresh else .fail }

/-- Run an invocation. The input is used by a batch only. -/
def Invocation.run (i : Invocation) (input : ByteArray) : Program Report := do
  match ← Store.open i.config with
  | .error error => return ⟨"", some error⟩
  | .ok store =>
    match i.action.command? with
    | .error fault =>
      store.release
      return ⟨"", some (.command fault)⟩
    | .ok none => runBatch store input
    | .ok (some command) => runCommand store command

end SnapshotStore.CommandLine
