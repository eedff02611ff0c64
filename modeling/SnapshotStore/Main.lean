import Std.Time.DateTime.Timestamp
import SnapshotStore.CommandLine.Run

/-! The program of the command line, on the disk of the machine. -/
namespace SnapshotStore

/-- The reason why the machine's disk refuses. -/
def Disk.Fault.ofSystem : IO.Error → Disk.Fault
  | .noFileOrDirectory .. => .notFound
  | error => .other (toString error)

/-- Do something on the machine's disk. -/
def attempt {α : Type} (action : IO α) : IO (Except Disk.Fault α) := do
  try
    return .ok (← action)
  catch error =>
    return .error (.ofSystem error)

/-- Create a directory inside one that is there, unless it is there already. -/
def makeDirectory (path : Path) : IO Unit := do
  try IO.FS.createDir path.text
  catch
    | .alreadyExists .. => IO.FS.createDirAll path.text
    | error => throw error

/-- Create a directory after all that are missing on the way to it. -/
partial def makeDirectories (path : Path) : IO Unit := do
  if path.text = "" then return
  try makeDirectory path
  catch
    | .noFileOrDirectory name code details =>
      if path.parent = path then throw (.noFileOrDirectory name code details)
      makeDirectories path.parent
      makeDirectory path
    | error => throw error

/-- How the machine answers one request. What is written is handed over to the
system at once; there is nothing further to ask for when it is to settle. -/
def Request.answer : (r : Request) → IO (Except Disk.Fault r.Answer)
  | .createDirectories path => attempt (makeDirectories path)
  | .read path => attempt (IO.FS.readBinFile path.text)
  | .startFile path => attempt (IO.FS.writeBinFile path.text ByteArray.empty)
  | .append path content => attempt do
    let file ← IO.FS.Handle.mk path.text .append
    file.write content
    file.flush
  | .settle _ => return .ok ()
  | .rename source target => attempt (IO.FS.rename source.text target.text)
  | .remove path => attempt (IO.FS.removeFile path.text)
  | .clock => attempt do
    let now ← Std.Time.Timestamp.now
    return now.toSecondsSinceUnixEpoch.val.toNat

/-- Run a program on the machine's disk. -/
def Program.perform {α : Type} : Program α → IO α
  | .done value => return value
  | .ask request next => do (next (← request.answer)).perform

/-- Everything on standard input. -/
def readInput : IO ByteArray := do
  (← IO.getStdin).readBinToEnd

/-- Run an invocation and print what it prints. -/
def CommandLine.Invocation.perform (i : CommandLine.Invocation) : IO UInt32 := do
  let input ← if i.action = .batch then readInput else pure ByteArray.empty
  let report ← (i.run input).perform
  IO.print report.output
  match report.error with
  | some error => IO.eprintln error.message
  | none => pure ()
  return report.exitCode.toUInt32

end SnapshotStore

/-- The program: zero when all went well, one after an error, two when the
arguments are not understood. -/
def main (arguments : List String) : IO UInt32 := do
  match SnapshotStore.CommandLine.parse arguments with
  | .run invocation => invocation.perform
  | .version =>
    IO.print SnapshotStore.CommandLine.versionText
    return 0
  | .misuse =>
    IO.eprintln "the arguments are not understood"
    return 2
