import SnapshotStore.Decimal.Digits

/-! Paths as texts. A path keeps the text it was given; its segments are what
stands between the slashes. Empty segments and single dots lead nowhere, and
do not count at the end of a path. -/
namespace SnapshotStore

/-- The text of a path. -/
structure Path where
  text : String
deriving DecidableEq

namespace Path

instance : Inhabited Path :=
  ⟨⟨""⟩⟩

/-- What stands between the slashes, from left to right. -/
def segments (p : Path) : List (List Char) :=
  p.text.toList.splitOn '/'

/-- A segment that leads nowhere. -/
def isIdle (segment : List Char) : Bool :=
  segment = [] || segment = ['.']

/-- The segment for the directory above. -/
def up : List Char :=
  ['.', '.']

/-- The name takes more than 255 bytes. -/
def isNameTooLong (name : List Char) : Bool :=
  255 < (String.ofList name).utf8ByteSize

/-- The whole path takes more than 4095 bytes. -/
def isTooLong (p : Path) : Bool :=
  4095 < p.text.utf8ByteSize

/-- There is a character in the path that would end its text early. -/
def isCutShort (p : Path) : Bool :=
  p.text.toList.contains '\x00'

/-- The path without the slashes at its end. The root stays as it is. -/
def withoutEndSlashes (p : Path) : Path :=
  match p.text.toList.reverse.dropWhile (· = '/') with
  | [] => p
  | cs => ⟨String.ofList cs.reverse⟩

/-- The path ends in dots, or is the root: it says where a directory lies, but
not what its name is there. -/
def isNameless (p : Path) : Bool :=
  let last := p.withoutEndSlashes.segments.getLastD []
  isIdle last || last = up

/-- The segments from right to left, without the idle ones at the end. -/
def backwards (p : Path) : List (List Char) :=
  p.segments.reverse.dropWhile isIdle

/-- The name of the file, if the path ends in a name. -/
def fileName? (p : Path) : Option String :=
  match p.backwards with
  | [] => none
  | last :: _ => if last = up then none else some (String.ofList last)

/-- A path that begins at the root. -/
def isAbsolute (p : Path) : Bool :=
  p.text.toList.head? = some '/'

/-- The path in front of the last name. A leading root or single dot stays. -/
def parent (p : Path) : Path :=
  match (p.backwards.drop 1).dropWhile isIdle with
  | [] =>
    if p.isAbsolute then ⟨"/"⟩
    else if 1 < p.segments.length ∧ p.segments.head? = some ['.'] then ⟨"."⟩
    else ⟨""⟩
  | segments => ⟨String.ofList (['/'].intercalate segments.reverse)⟩

/-- A path below a directory. One that begins at the root stands alone. -/
def join (directory : Path) (name : String) : Path :=
  if isAbsolute ⟨name⟩ then ⟨name⟩
  else if directory.text = "" then ⟨name⟩
  else if directory.text.toList.getLast? = some '/' then ⟨directory.text ++ name⟩
  else ⟨directory.text ++ "/" ++ name⟩

/-- The path with another name in place of its file name. Where it has none,
the name is added to it. -/
def withFileName (p : Path) (name : String) : Path :=
  match p.fileName? with
  | some _ => p.parent.join name
  | none => p.join name

/-- The file in which a new version of this one is prepared: a hidden sibling. -/
def temp (p : Path) : Path :=
  p.withFileName ("." ++ p.fileName?.getD "store.json" ++ ".tmp")

/-- The sibling to which a file is moved that cannot be read, by the second. -/
def quarantine (p : Path) (second : Nat) : Path :=
  p.withFileName (p.fileName?.getD "" ++ ".corrupt-" ++ String.ofList (Decimal.digits second))

end Path

end SnapshotStore
