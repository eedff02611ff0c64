import SnapshotStore.Config.Basic
import SnapshotStore.Disk.Basic

/-! What can go wrong with a store, by cause. The words are in one place. -/
namespace SnapshotStore

/-- Why the content of a file is not a snapshot. -/
inductive CorruptReason where
  | notText
  | notSnapshot (fault : Snapshot.Fault)

def CorruptReason.message : CorruptReason → String
  | .notText => "not valid UTF-8: stream did not contain valid UTF-8"
  | .notSnapshot fault => fault.message

/-- Why a value is refused. -/
inductive ValueFault where
  | notFinite
  | negativeDecrement (delta : Number)

def ValueFault.message : ValueFault → String
  | .notFinite => "numbers must be finite"
  | .negativeDecrement delta =>
    "conditional decrement by negative amount " ++ String.ofList delta.text

/-- Why a command is refused. -/
inductive CommandFault where
  | empty
  | usage (form : String)
  | unknown (verb : String)
  | badNumber (text : String)
  | badLimit (text : String)
  | failedLines (count : Nat)
  | refused (reason : String)

def CommandFault.message : CommandFault → String
  | .empty => "empty command"
  | .usage form => "usage: " ++ form
  | .unknown verb => "unknown command '" ++ verb ++ "'"
  | .badNumber text => "invalid number '" ++ text ++ "'"
  | .badLimit text => "invalid limit '" ++ text ++ "'"
  | .failedLines count => String.ofList (Decimal.digits count) ++ " command(s) failed"
  | .refused reason => reason

/-- Everything that an operation on a store can report. -/
inductive StoreError where
  | disk (fault : Disk.Fault)
  | corrupt (path : Path) (reason : CorruptReason)
  | typeMismatch (key : String) (expected found : Kind)
  | emptyKey
  | invalidValue (key : String) (fault : ValueFault)
  | overflow (key : String)
  | command (fault : CommandFault)
  | config (fault : Config.Fault)

/-- The words for an error. -/
def StoreError.message : StoreError → String
  | .disk fault => "IO error: " ++ fault.message
  | .corrupt path reason => "Corrupt store file " ++ path.text ++ ": " ++ reason.message
  | .typeMismatch key expected found =>
    "Type mismatch on '" ++ key ++ "': expected " ++ expected.name ++ ", found " ++ found.name
  | .emptyKey => "Invalid key: key must not be empty"
  | .invalidValue key fault => "Invalid value for '" ++ key ++ "': " ++ fault.message
  | .overflow key => "Integer overflow on '" ++ key ++ "'"
  | .command fault => "Command error: " ++ fault.message
  | .config fault => "Configuration error: " ++ fault.message

end SnapshotStore
