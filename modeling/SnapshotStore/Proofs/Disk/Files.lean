import SnapshotStore.Proofs.Disk.Runs
import SnapshotStore.Proofs.Disk.Walk

/-! What the operations on one file do to a disk: what a successful operation
has found, which places it leaves alone, and what is read afterwards. -/
namespace SnapshotStore.Disk

variable {c d e : Disk} {p : Path} {place : String} {content old : ByteArray}

/-! ### Places -/

/-- A path that leads somewhere keeps leading there as long as the directories
stay. -/
theorem place_of_keepsDirectories (h : KeepsDirectories d e) (hPlace : d.place p = .ok place) :
    e.place p = .ok place := by
  unfold Disk.place at hPlace ⊢
  split_ifs at hPlace ⊢ with hEmpty hCut hLong
  exact walk_of_keepsDirectories h hPlace

theorem walk_of_place (h : d.place p = .ok place) : d.walk "" p.segments = .ok place := by
  unfold Disk.place at h
  split_ifs at h with hEmpty hCut hLong
  exact h

/-! ### Single operations -/

theorem read_eq_ok_iff : d.read p = .ok content ↔
    ∃ place, d.place p = .ok place ∧ d.node? place = some (.file content) := by
  unfold read
  cases hPlace : d.place p with
  | error fault => simp
  | ok place =>
      cases hNode : d.node? place with
      | none => simp [hNode]
      | some node => cases node <;> simp [hNode]

/-- A path that leads to one place on two disks is read alike if the place holds
the same on both. -/
theorem read_congr (hPlace : e.place p = d.place p)
    (hNode : ∀ place, d.place p = .ok place → e.node? place = d.node? place) :
    e.read p = d.read p := by
  unfold read
  rw [hPlace]
  cases hFound : d.place p with
  | error fault => rfl
  | ok place => simp only [hNode place hFound]

theorem contains_of_place (h : d.place p = .ok place) : d.contains p = (d.node? place).isSome := by
  rw [contains, h]

theorem write_eq_ok (h : d.write p content = .ok e) : ∃ place, d.place p = .ok place ∧
    d.node? place ≠ some .directory ∧ e = d.put place (.file content) := by
  unfold write at h
  cases hPlace : d.place p with
  | error fault => simp [hPlace] at h
  | ok place =>
      refine ⟨place, rfl, ?_⟩
      rw [hPlace] at h
      dsimp only at h
      split at h
      · cases h
      · next hNode => exact ⟨hNode, (Except.ok.inj h).symm⟩

theorem append_eq_ok (h : d.append p content = .ok e) :
    ∃ old, d.read p = .ok old ∧ d.write p (old ++ content) = .ok e := by
  unfold append at h
  cases hRead : d.read p with
  | error fault => simp [hRead] at h
  | ok old => exact ⟨old, rfl, by simpa [hRead] using h⟩

theorem remove_eq_ok (h : d.remove p = .ok e) : ∃ place content, d.place p = .ok place ∧
    d.node? place = some (.file content) ∧ e = ⟨d.nodes.erase place⟩ := by
  unfold remove at h
  cases hPlace : d.place p with
  | error fault => simp [hPlace] at h
  | ok place =>
      rw [hPlace] at h
      dsimp only at h
      cases hNode : d.node? place with
      | none => simp [hNode] at h
      | some node =>
          cases node with
          | directory => simp [hNode] at h
          | file content =>
              rw [hNode] at h
              exact ⟨place, content, rfl, hNode, (Except.ok.inj h).symm⟩

/-- A file takes its place from another one, which it leaves. -/
theorem rename_eq_ok {source target : Path} (h : d.rename source target = .ok e)
    (hSource : d.read source = .ok content) : ∃ old new, d.place source = .ok old ∧
      d.node? old = some (.file content) ∧ d.place target = .ok new ∧
      d.node? new ≠ some .directory ∧ e = Disk.put ⟨d.nodes.erase old⟩ new (.file content) := by
  obtain ⟨old, hOld, hFile⟩ := read_eq_ok_iff.mp hSource
  unfold rename at h
  split_ifs at h with hNameless
  simp only [hOld, hFile] at h
  cases hNew : d.place target with
  | error fault => simp [hNew] at h
  | ok new =>
      simp only [hNew, renameFile] at h
      split at h
      · cases h
      · next hNode => exact ⟨old, new, hOld, hFile, rfl, hNode, (Except.ok.inj h).symm⟩

/-! ### One file only -/

/-- Nothing has changed but what the file at a path holds, or whether it is
there. -/
def OnlyFile (p : Path) (d e : Disk) : Prop :=
  e = d ∨ ∃ place, d.place p = .ok place ∧ d.node? place ≠ some .directory ∧
    e.node? place ≠ some .directory ∧ AgreesExcept place d e

theorem OnlyFile.refl (p : Path) (d : Disk) : OnlyFile p d d :=
  Or.inl rfl

theorem OnlyFile.trans (h : OnlyFile p d e) (h' : OnlyFile p e c) : OnlyFile p d c := by
  rcases h with rfl | ⟨place, hPlace, hBefore, hMiddle, hAgrees⟩
  · exact h'
  · rcases h' with rfl | ⟨other, hOther, -, hAfter, hAgrees'⟩
    · exact Or.inr ⟨place, hPlace, hBefore, hMiddle, hAgrees⟩
    · have hStays := place_of_keepsDirectories (hAgrees.keepsDirectories hBefore) hPlace
      have hSame : other = place := Except.ok.inj (hOther.symm.trans hStays)
      subst hSame
      exact Or.inr ⟨other, hPlace, hBefore, hAfter, hAgrees.trans hAgrees'⟩

theorem OnlyFile.place_eq {q : Path} (h : OnlyFile p d e) (hPlace : d.place q = .ok place) :
    e.place q = .ok place := by
  rcases h with rfl | ⟨other, -, hBefore, -, hAgrees⟩
  · exact hPlace
  · exact place_of_keepsDirectories (hAgrees.keepsDirectories hBefore) hPlace

theorem onlyFile_of_write (h : d.write p content = .ok e) : OnlyFile p d e := by
  obtain ⟨place, hPlace, hNode, rfl⟩ := write_eq_ok h
  have hRoot := ne_root_of_not_directory hNode
  refine Or.inr ⟨place, hPlace, hNode, ?_, agreesExcept_put place d _⟩
  rw [node?_put_self hRoot]
  simp

theorem onlyFile_of_append (h : d.append p content = .ok e) : OnlyFile p d e := by
  obtain ⟨old, -, hWrite⟩ := append_eq_ok h
  exact onlyFile_of_write hWrite

theorem onlyFile_of_remove (h : d.remove p = .ok e) : OnlyFile p d e := by
  obtain ⟨place, content, hPlace, hNode, rfl⟩ := remove_eq_ok h
  have hNotDirectory : d.node? place ≠ some .directory := by simp [hNode]
  have hRoot := ne_root_of_not_directory hNotDirectory
  refine Or.inr ⟨place, hPlace, hNotDirectory, ?_, agreesExcept_erase place d⟩
  rw [node?_erase_self hRoot]
  simp

/-! A disk that fails to carry out a request on a file changes no other file
either. -/

theorem Responds.onlyFile_startFile {answer : Except Fault Unit}
    (h : d.Responds (.startFile p) answer e) : OnlyFile p d e := by
  cases answer with
  | error fault => rw [h.startFile_error]; exact OnlyFile.refl p d
  | ok _ => exact onlyFile_of_write h.startFile_ok

theorem Responds.onlyFile_append {answer : Except Fault Unit}
    (h : d.Responds (.append p content) answer e) : OnlyFile p d e := by
  cases answer with
  | error fault =>
      rcases h.append_error with rfl | ⟨written, hWritten⟩
      · exact OnlyFile.refl p _
      · exact onlyFile_of_append hWritten
  | ok _ => exact onlyFile_of_append h.append_ok

theorem Responds.onlyFile_remove {answer : Except Fault Unit}
    (h : d.Responds (.remove p) answer e) : OnlyFile p d e := by
  cases answer with
  | error fault => rw [h.remove_error]; exact OnlyFile.refl p d
  | ok _ => exact onlyFile_of_remove h.remove_ok

/-! ### What is read afterwards -/

theorem read_of_write (h : d.write p content = .ok e) : e.read p = .ok content := by
  have hOnly := onlyFile_of_write h
  obtain ⟨place, hPlace, hNode, rfl⟩ := write_eq_ok h
  rw [read_eq_ok_iff]
  exact ⟨place, hOnly.place_eq hPlace, node?_put_self (ne_root_of_not_directory hNode) d _⟩

theorem read_of_append (h : d.append p content = .ok e) (hOld : d.read p = .ok old) :
    e.read p = .ok (old ++ content) := by
  obtain ⟨found, hFound, hWrite⟩ := append_eq_ok h
  have hSame : found = old := Except.ok.inj (hFound.symm.trans hOld)
  subst hSame
  exact read_of_write hWrite

/-- A file that was moved is read where it has gone, and no longer where it was. All
paths lead where they led. -/
theorem moved_of_rename {source target : Path} (h : d.rename source target = .ok e)
    (hSource : d.read source = .ok content)
    (hApart : ∀ place, d.place source = .ok place → d.place target ≠ .ok place) :
    e.read target = .ok content ∧ e.contains source = false ∧
      ∀ q place, d.place q = .ok place → e.place q = .ok place := by
  obtain ⟨old, new, hOld, hFile, hNew, hNode, rfl⟩ := rename_eq_ok h hSource
  have hDifferent : new ≠ old := by
    rintro rfl
    exact hApart new hOld hNew
  have hOldFile : d.node? old ≠ some .directory := by simp [hFile]
  have hKeeps : KeepsDirectories d (Disk.put ⟨d.nodes.erase old⟩ new (.file content)) := by
    intro place hPlace
    have hNotOld : place ≠ old := by rintro rfl; exact hOldFile hPlace
    have hNotNew : place ≠ new := by rintro rfl; exact hNode hPlace
    rw [node?_put_of_ne hNotNew, node?_erase_of_ne hNotOld, hPlace]
  refine ⟨?_, ?_, fun q place hPlace => place_of_keepsDirectories hKeeps hPlace⟩
  · rw [read_eq_ok_iff]
    exact ⟨new, place_of_keepsDirectories hKeeps hNew,
      node?_put_self (ne_root_of_not_directory hNode) _ _⟩
  · rw [contains_of_place (place_of_keepsDirectories hKeeps hOld), node?_put_of_ne hDifferent.symm,
      node?_erase_self (ne_root_of_not_directory hOldFile)]
    rfl

theorem contains_of_remove (h : d.remove p = .ok e) : e.contains p = false := by
  have hOnly := onlyFile_of_remove h
  obtain ⟨place, content, hPlace, hNode, rfl⟩ := remove_eq_ok h
  have hNotDirectory : d.node? place ≠ some .directory := by simp [hNode]
  have hRoot := ne_root_of_not_directory hNotDirectory
  rw [contains_of_place (hOnly.place_eq hPlace), node?_erase_self hRoot]
  rfl

/-- What is missing when it is to be removed is not there. -/
theorem contains_of_remove_notFound (h : d.remove p = .error .notFound) :
    d.contains p = false := by
  unfold remove at h
  unfold contains
  cases hPlace : d.place p with
  | error fault => rfl
  | ok place =>
      rw [hPlace] at h
      dsimp only at h ⊢
      cases hNode : d.node? place with
      | none => rfl
      | some node => cases node <;> simp [hNode] at h

end SnapshotStore.Disk
