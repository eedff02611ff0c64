import SnapshotStore.Disk.Path
import SnapshotStore.KeyMap.Basic

/-! A disk as a value. Its files and directories are listed by place: the
names from the root down, with slashes between them. The root has the empty
place and is always there. There are no links, so a place is reached through its
own names only, and names that differ in the case of a letter are different. -/
namespace SnapshotStore

/-- What a place holds. -/
inductive Node where
  | file (content : ByteArray)
  | directory

/-- Why the disk refuses. -/
inductive Disk.Fault where
  | notFound
  | alreadyExists
  | notDirectory
  | isDirectory
  | notEmpty
  | busy
  | badArgument
  | nameTooLong
  | cutShort
  | notText
  | other (text : String)
deriving DecidableEq

/-- The words for a fault, with the number that systems give it. -/
def Disk.Fault.message : Disk.Fault → String
  | .notFound => "No such file or directory (os error 2)"
  | .alreadyExists => "File exists (os error 17)"
  | .notDirectory => "Not a directory (os error 20)"
  | .isDirectory => "Is a directory (os error 21)"
  | .notEmpty => "Directory not empty (os error 39)"
  | .busy => "Device or resource busy (os error 16)"
  | .badArgument => "Invalid argument (os error 22)"
  | .nameTooLong => "File name too long (os error 36)"
  | .cutShort => "file name contained an unexpected NUL byte"
  | .notText => "stream did not contain valid UTF-8"
  | .other text => text

/-- The files and directories, apart from the root. -/
structure Disk where
  nodes : KeyMap Node

namespace Disk

/-- Nothing but the root. -/
def empty : Disk :=
  ⟨.empty⟩

instance : Inhabited Disk :=
  ⟨empty⟩

/-- What is at a place. -/
def node? (d : Disk) (place : String) : Option Node :=
  if place = "" then some .directory else d.nodes.get? place

/-- The place of a name inside a directory. -/
def below (place : String) (name : List Char) : String :=
  if place = "" then String.ofList name else place ++ "/" ++ String.ofList name

/-- The place of the directory that holds a place. The root holds itself. -/
def above (place : String) : String :=
  String.ofList ((place.toList.reverse.dropWhile (· ≠ '/')).drop 1).reverse

/-- Walk along segments. Every place that is walked from has to be a
directory; the last one reached may be missing. -/
def walk (d : Disk) (place : String) : List (List Char) → Except Fault String
  | [] => .ok place
  | segment :: rest =>
    match d.node? place with
    | none => .error .notFound
    | some (.file _) => .error .notDirectory
    | some .directory =>
      if Path.isIdle segment then d.walk place rest
      else if segment = Path.up then d.walk (above place) rest
      else if Path.isNameTooLong segment then .error .nameTooLong
      else d.walk (below place segment) rest

/-- The place that a path leads to. The empty path leads nowhere. -/
def place (d : Disk) (p : Path) : Except Fault String :=
  if p.text = "" then .error .notFound
  else if p.isCutShort then .error .cutShort
  else if p.isTooLong then .error .nameTooLong
  else d.walk "" p.segments

/-- The content of a file. -/
def read (d : Disk) (p : Path) : Except Fault ByteArray :=
  match d.place p with
  | .error fault => .error fault
  | .ok place =>
    match d.node? place with
    | none => .error .notFound
    | some .directory => .error .isDirectory
    | some (.file content) => .ok content

/-- Whether a path leads to something. -/
def contains (d : Disk) (p : Path) : Bool :=
  match d.place p with
  | .error _ => false
  | .ok place => (d.node? place).isSome

/-- Put a node at a place. -/
def put (d : Disk) (place : String) (node : Node) : Disk :=
  ⟨d.nodes.insert place node⟩

/-- Write a file, whether or not it was there. The directory has to be. -/
def write (d : Disk) (p : Path) (content : ByteArray) : Except Fault Disk :=
  match d.place p with
  | .error fault => .error fault
  | .ok place =>
    match d.node? place with
    | some .directory => .error .isDirectory
    | _ => .ok (d.put place (.file content))

/-- Add to the end of a file that is there. -/
def append (d : Disk) (p : Path) (content : ByteArray) : Except Fault Disk :=
  match d.read p with
  | .error fault => .error fault
  | .ok old => d.write p (old ++ content)

/-- Remove a file. -/
def remove (d : Disk) (p : Path) : Except Fault Disk :=
  match d.place p with
  | .error fault => .error fault
  | .ok place =>
    match d.node? place with
    | none => .error .notFound
    | some .directory => .error .isDirectory
    | some (.file _) => .ok ⟨d.nodes.erase place⟩

/-- What lies inside the directory at a place, at any depth. -/
def inside (d : Disk) (place : String) : List (String × Node) :=
  if place = "" then d.nodes.entries else d.nodes.under (place ++ "/")

/-- The names in the directory at a place, in order, each with its node. -/
def children (d : Disk) (place : String) : List (String × Node) :=
  let stem := if place = "" then "" else place ++ "/"
  (d.inside place).filterMap fun (key, node) =>
    let name := Text.withoutStem key stem
    if name.toList.contains '/' then none else some (name, node)

/-- The names in a directory. -/
def list (d : Disk) (p : Path) : Except Fault (List (String × Node)) :=
  match d.place p with
  | .error fault => .error fault
  | .ok place =>
    match d.node? place with
    | none => .error .notFound
    | some (.file _) => .error .notDirectory
    | some .directory => .ok (d.children place)

/-- Create a directory inside one that is there. Slashes at the end of the path
do not count, but a dot there has to be the dot of a directory. -/
def createDirectory (d : Disk) (p : Path) : Except Fault Disk :=
  match d.place p.withoutEndSlashes with
  | .error fault => .error fault
  | .ok place =>
    match d.node? place with
    | some _ => .error .alreadyExists
    | none => .ok (d.put place .directory)

/-- The path leads to a directory. -/
def isDirectory (d : Disk) (p : Path) : Bool :=
  match d.list p with
  | .error _ => false
  | .ok _ => true

/-- Create the directories along segments, those that are missing. -/
def createAlong (d : Disk) (place : String) : List (List Char) → Except Fault Unit × Disk
  | [] =>
    match d.node? place with
    | none => (.ok (), d.put place .directory)
    | some .directory => (.ok (), d)
    | some (.file _) => (.error .alreadyExists, d)
  | segment :: rest =>
    match d.node? place with
    | some (.file _) => (.error .notDirectory, d)
    | found =>
      let d := if found.isSome then d else d.put place .directory
      if Path.isIdle segment then d.createAlong place rest
      else if segment = Path.up then d.createAlong (above place) rest
      else if Path.isNameTooLong segment then (.error .nameTooLong, d)
      else d.createAlong (below place segment) rest

/-- Create a directory after all that are missing on the way to it. One that
is there already is left as it is, and so is the one that the empty path stands
for. If the last one cannot be created, those on the way to it stay. -/
def createDirectories (d : Disk) (p : Path) : Except Fault Unit × Disk :=
  if p.text = "" then (.ok (), d)
  else if p.isCutShort then (.error .cutShort, d)
  else if p.isTooLong then (.error .nameTooLong, d)
  else
    match d.createAlong "" p.parent.segments with
    | (.error fault, d) => (.error fault, d)
    | (.ok _, d) =>
      match d.createDirectory p with
      | .ok d => (.ok (), d)
      | .error fault => (if d.isDirectory p then .ok () else .error fault, d)

/-- Remove a directory that holds nothing. The path has to end in its name. -/
def removeDirectory (d : Disk) (p : Path) : Except Fault Disk :=
  if p.isNameless then .error .badArgument
  else
    match d.place p with
    | .error fault => .error fault
    | .ok place =>
      match d.node? place with
      | none => .error .notFound
      | some (.file _) => .error .notDirectory
      | some .directory =>
        if (d.inside place).isEmpty then .ok ⟨d.nodes.erase place⟩ else .error .notEmpty

/-- Move a directory with all that is inside. -/
def moveDirectory (d : Disk) (source target : String) : Disk :=
  let left := d.nodes.filter fun entry =>
    entry.1 ≠ source && !Text.startsWith entry.1 (source ++ "/")
  (d.inside source).foldl
    (fun d (key, node) => d.put (target ++ Text.withoutStem key source) node)
    (Disk.put ⟨left⟩ target .directory)

/-- Give a directory another place, at which nothing or an empty directory may
be. It cannot be moved into itself. -/
def renameDirectory (d : Disk) (old new : String) : Except Fault Disk :=
  if old = new then .ok d
  else if Text.startsWith new (old ++ "/") then .error .badArgument
  else
    match d.node? new with
    | some (.file _) => .error .notDirectory
    | some .directory =>
      if (d.inside new).isEmpty then .ok (d.moveDirectory old new) else .error .notEmpty
    | none => .ok (d.moveDirectory old new)

/-- Give a file another place. A file that is there gives way to it. -/
def renameFile (d : Disk) (old new : String) (content : ByteArray) : Except Fault Disk :=
  match d.node? new with
  | some .directory => .error .isDirectory
  | _ => .ok (Disk.put ⟨d.nodes.erase old⟩ new (.file content))

/-- Give a file or directory another path, in one step. Both paths have to end
in a name. -/
def rename (d : Disk) (source target : Path) : Except Fault Disk :=
  if source.isNameless || target.isNameless then .error .busy
  else
    match d.place source with
    | .error fault => .error fault
    | .ok old =>
      match d.node? old, d.place target with
      | none, _ => .error .notFound
      | _, .error fault => .error fault
      | some (.file content), .ok new => d.renameFile old new content
      | some .directory, .ok new => d.renameDirectory old new

end Disk

end SnapshotStore
