import Mathlib.Logic.Relation
import SnapshotStore.Proofs.Disk.Directories

/-! Files of one directory. Two names of a directory lead to two places, and what
happens to the file of the one name is not seen through the other. -/
namespace SnapshotStore

/-- The path ends in this name, and leads to it in this directory on every disk. -/
structure Path.ChildOf (p directory : Path) (name : List Char) : Prop where
  fileName : p.fileName? = some (String.ofList name)
  walk : ∀ d : Disk, d.walk "" p.segments =
    (d.walk "" directory.segments).bind fun home => d.walk home [name]
  slash : '/' ∉ name
  idle : isIdle name = false
  up : name ≠ up

namespace Path

variable {p q directory : Path} {name other : List Char}

theorem childOf_join (directory : Path) {name : String} (hSlash : '/' ∉ name.toList)
    (hIdle : isIdle name.toList = false) (hUp : name.toList ≠ up) :
    (directory.join name).ChildOf directory name.toList := by
  refine ⟨?_, fun d => d.walk_join directory hSlash, hSlash, hIdle, hUp⟩
  rw [directory.fileName?_join hSlash hIdle hUp, String.ofList_toList]

/-- A sibling of a file lies in the same directory. -/
theorem childOf_join_home (directory : Path) {name : String} (hSlash : '/' ∉ name.toList)
    (hIdle : isIdle name.toList = false) (hUp : name.toList ≠ up) (hOther : '/' ∉ other)
    (hOtherIdle : isIdle other = false) (hOtherUp : other ≠ Path.up) :
    ((directory.join name).home.join (String.ofList other)).ChildOf directory other := by
  have hChars : (String.ofList other).toList = other := String.toList_ofList
  rw [← hChars] at hOther hOtherIdle hOtherUp
  refine ⟨fileName?_join _ hOther hOtherIdle hOtherUp, fun d => ?_, hChars ▸ hOther,
    hChars ▸ hOtherIdle, hChars ▸ hOtherUp⟩
  rw [Disk.walk_join_home hSlash hIdle hUp d hOther, hChars]

theorem ChildOf.ne (hp : p.ChildOf directory name) (hq : q.ChildOf directory other)
    (hNames : other ≠ name) : q ≠ p := by
  rintro rfl
  exact hNames (String.ofList_injective (Option.some.inj (hq.fileName.symm.trans hp.fileName)))

end Path

namespace Disk

variable {d e : Disk} {p q directory : Path} {name other : List Char} {place : String}

theorem exists_home_of_childOf (hp : p.ChildOf directory name) (h : d.place p = .ok place) :
    ∃ home, d.walk "" directory.segments = .ok home ∧ d.node? home = some .directory ∧
      Path.isNameTooLong name = false ∧ place = below home name := by
  have hWalk := walk_of_place h
  rw [hp.walk] at hWalk
  cases hHome : d.walk "" directory.segments with
  | error fault => simp [hHome, Except.bind] at hWalk
  | ok home =>
      rw [hHome] at hWalk
      change d.walk home [name] = .ok place at hWalk
      have hDirectory := directory_of_walk hWalk
      simp only [walk, hDirectory, hp.idle, if_neg hp.up, Bool.false_eq_true, if_false] at hWalk
      split_ifs at hWalk with hLong
      exact ⟨home, rfl, hDirectory, Bool.eq_false_iff.mpr hLong, (Except.ok.inj hWalk).symm⟩

/-- Creating the directory of a file that is there does nothing. -/
theorem createDirectories_of_childOf {content : ByteArray} (hp : p.ChildOf directory name)
    (hRead : d.read p = .ok content) : (d.createDirectories directory).2 = d := by
  obtain ⟨place, hPlace, -⟩ := read_eq_ok_iff.mp hRead
  obtain ⟨home, hHome, hDirectory, -⟩ := exists_home_of_childOf hp hPlace
  exact createDirectories_of_walk hHome hDirectory

/-- Two names lead to two places. -/
theorem place_ne_of_childOf (hp : p.ChildOf directory name) (hq : q.ChildOf directory other)
    (hNames : other ≠ name) (h : d.place p = .ok place) : d.place q ≠ .ok place := by
  intro hOther
  obtain ⟨home, hHome, -, -, rfl⟩ := exists_home_of_childOf hp h
  obtain ⟨home', hHome', -, -, hSame⟩ := exists_home_of_childOf hq hOther
  obtain rfl : home' = home := Except.ok.inj (hHome'.symm.trans hHome)
  exact hNames (below_injective _ hSame).symm

theorem OnlyFile.place_eq_of_childOf (hp : p.ChildOf directory name)
    (hq : q.ChildOf directory other) (h : OnlyFile p d e) : e.place q = d.place q := by
  rcases h with rfl | ⟨place, hPlace, hBefore, -, hAgrees⟩
  · rfl
  obtain ⟨home, hHome, hDirectory, -, rfl⟩ := exists_home_of_childOf hp hPlace
  have hKeeps := hAgrees.keepsDirectories hBefore
  have hHome' := walk_of_keepsDirectories hKeeps hHome
  unfold Disk.place
  rw [hq.walk, hq.walk, hHome, hHome']
  simp only [Except.bind, walk, hDirectory, hKeeps home hDirectory]

/-- What happens to the file of one name is not seen through another one. -/
theorem OnlyFile.read_eq_of_childOf (hp : p.ChildOf directory name)
    (hq : q.ChildOf directory other) (hNames : other ≠ name) (h : OnlyFile p d e) :
    e.read q = d.read q := by
  refine read_congr (h.place_eq_of_childOf hp hq) fun place hPlace => ?_
  rcases h with rfl | ⟨changed, hChanged, -, -, hAgrees⟩
  · rfl
  · refine hAgrees place ?_
    rintro rfl
    exact place_ne_of_childOf hp hq hNames hChanged hPlace

/-- Without its directory no file comes or goes. -/
theorem OnlyFile.eq_of_childOf (hp : p.ChildOf directory name)
    (hMissing : ∀ home, d.walk "" directory.segments = .ok home →
      d.node? home ≠ some .directory) (h : OnlyFile p d e) : e = d := by
  rcases h with rfl | ⟨place, hPlace, -⟩
  · rfl
  · obtain ⟨home, hHome, hDirectory, -⟩ := exists_home_of_childOf hp hPlace
    exact absurd hDirectory (hMissing home hHome)

theorem OnlyFile.keepsDirectories (h : OnlyFile p d e) : KeepsDirectories d e := by
  rcases h with rfl | ⟨place, -, hBefore, -, hAgrees⟩
  · exact fun _ => id
  · exact hAgrees.keepsDirectories hBefore

/-! ### Several files -/

/-- Nothing has changed but what the files at these paths hold, and which of them are
there. -/
def OnlyFiles (files : Path → Prop) : Disk → Disk → Prop :=
  Relation.ReflTransGen fun d e => ∃ p, files p ∧ OnlyFile p d e

variable {files : Path → Prop}

theorem OnlyFile.onlyFiles (hp : files p) (h : OnlyFile p d e) : OnlyFiles files d e :=
  .single ⟨p, hp, h⟩

/-- A file that takes the place of another one. -/
theorem onlyFiles_of_rename {content : ByteArray} (hp : files p) (hq : files q)
    (h : d.rename p q = .ok e) (hRead : d.read p = .ok content) : OnlyFiles files d e := by
  obtain ⟨old, new, hOld, hFile, hNew, hNode, rfl⟩ := rename_eq_ok h hRead
  have hOldFile : d.node? old ≠ some .directory := by simp [hFile]
  have hOldRoot := ne_root_of_not_directory hOldFile
  have hNewRoot := ne_root_of_not_directory hNode
  have hLeft : OnlyFile p d ⟨d.nodes.erase old⟩ := by
    refine Or.inr ⟨old, hOld, hOldFile, ?_, agreesExcept_erase old d⟩
    rw [node?_erase_self hOldRoot]
    nofun
  have hArrived : OnlyFile q ⟨d.nodes.erase old⟩
      (Disk.put ⟨d.nodes.erase old⟩ new (.file content)) := by
    refine Or.inr ⟨new, place_of_keepsDirectories hLeft.keepsDirectories hNew, ?_, ?_,
      agreesExcept_put new _ _⟩
    · by_cases hSame : new = old
      · rw [hSame, node?_erase_self hOldRoot]
        nofun
      · rwa [node?_erase_of_ne hSame]
    · rw [node?_put_self hNewRoot]
      nofun
  exact (hLeft.onlyFiles hp).trans (hArrived.onlyFiles hq)

theorem OnlyFiles.keepsDirectories (h : OnlyFiles files d e) : KeepsDirectories d e := by
  induction h with
  | refl => exact fun _ => id
  | tail steps last ih =>
      obtain ⟨p, -, hOnly⟩ := last
      exact fun place hPlace => hOnly.keepsDirectories place (ih place hPlace)

/-- What happens to other files of the directory is not seen through a name. -/
theorem OnlyFiles.read_eq_of_childOf (h : OnlyFiles files d e) (hq : q.ChildOf directory other)
    (hFiles : ∀ p, files p → ∃ name, p.ChildOf directory name ∧ other ≠ name) :
    e.read q = d.read q := by
  induction h with
  | refl => rfl
  | tail steps last ih =>
      obtain ⟨p, hp, hOnly⟩ := last
      obtain ⟨name, hChild, hNames⟩ := hFiles p hp
      rw [hOnly.read_eq_of_childOf hChild hq hNames, ih]

theorem OnlyFiles.eq_of_childOf (h : OnlyFiles files d e)
    (hFiles : ∀ p, files p → ∃ name, p.ChildOf directory name)
    (hMissing : ∀ home, d.walk "" directory.segments = .ok home →
      d.node? home ≠ some .directory) : e = d := by
  induction h with
  | refl => rfl
  | tail steps last ih =>
      obtain ⟨p, hp, hOnly⟩ := last
      obtain ⟨name, hChild⟩ := hFiles p hp
      rw [ih] at hOnly
      exact hOnly.eq_of_childOf hChild hMissing

/-- Creating the directory of files that have come or gone changes nothing. -/
theorem OnlyFiles.createDirectories (h : OnlyFiles files d e)
    (hFiles : ∀ p, files p → ∃ name, p.ChildOf directory name) :
    (e.createDirectories directory).2 = e ∨ e = d := by
  by_cases hThere : ∃ home, d.walk "" directory.segments = .ok home ∧
      d.node? home = some .directory
  · obtain ⟨home, hHome, hDirectory⟩ := hThere
    exact Or.inl (createDirectories_of_walk (walk_of_keepsDirectories h.keepsDirectories hHome)
      (h.keepsDirectories home hDirectory))
  · exact Or.inr (h.eq_of_childOf hFiles fun home hHome hDirectory =>
      hThere ⟨home, hHome, hDirectory⟩)

end Disk

end SnapshotStore
