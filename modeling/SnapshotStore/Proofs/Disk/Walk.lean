import SnapshotStore.Disk.Basic
import SnapshotStore.KeyMap.Lemmas
import SnapshotStore.Proofs.Disk.Path

/-! Walks look at directories only. Whatever happens to files, a walk that
arrives keeps arriving at the same place. -/
namespace SnapshotStore.Disk

variable {d e : Disk} {place target : String} {node : Node}

@[simp]
theorem node?_root (d : Disk) : d.node? "" = some .directory :=
  rfl

theorem node?_of_ne (h : place ≠ "") (d : Disk) : d.node? place = d.nodes.get? place :=
  if_neg h

theorem node?_put_of_ne (h : place ≠ target) (d : Disk) (node : Node) :
    (d.put target node).node? place = d.node? place := by
  unfold node? put
  split_ifs with hRoot
  · rfl
  · rw [KeyMap.get?_insert, if_neg h]

theorem node?_put_self (h : target ≠ "") (d : Disk) (node : Node) :
    (d.put target node).node? target = some node := by
  rw [node?_of_ne h, put, KeyMap.get?_insert, if_pos rfl]

theorem node?_erase_of_ne (h : place ≠ target) (d : Disk) :
    node? ⟨d.nodes.erase target⟩ place = d.node? place := by
  unfold node?
  split_ifs with hRoot
  · rfl
  · rw [KeyMap.get?_erase, if_neg h]

theorem node?_erase_self (h : target ≠ "") (d : Disk) :
    node? ⟨d.nodes.erase target⟩ target = none := by
  rw [node?_of_ne h, KeyMap.get?_erase, if_pos rfl]

theorem ne_root_of_not_directory (h : d.node? place ≠ some .directory) : place ≠ "" := by
  rintro rfl
  exact h (node?_root d)

/-! ### Places -/

theorem below_ne_self (place : String) {name : List Char} (h : name ≠ []) :
    below place name ≠ place := by
  intro hSame
  have hLength := congrArg (fun t => t.toList.length) hSame
  unfold below at hLength
  split_ifs at hLength with hRoot
  · subst hRoot
    exact h (List.length_eq_zero_iff.mp (by simpa using hLength))
  · simp at hLength

theorem below_injective (place : String) {a b : List Char} (h : below place a = below place b) :
    a = b := by
  have hList := congrArg String.toList h
  unfold below at hList
  split_ifs at hList with hRoot
  · simpa using hList
  · simpa using hList

/-! ### Walks -/

theorem walk_append (d : Disk) (place : String) (a b : List (List Char)) :
    d.walk place (a ++ b) = (d.walk place a).bind fun reached => d.walk reached b := by
  induction a generalizing place with
  | nil => rfl
  | cons segment a ih =>
      rw [List.cons_append, walk, walk]
      cases d.node? place with
      | none => rfl
      | some node =>
          cases node with
          | file content => rfl
          | directory =>
              dsimp only
              split_ifs
              · exact ih place
              · exact ih (above place)
              · rfl
              · exact ih (below place segment)

/-- What is walked from is a directory. -/
theorem directory_of_walk {segment : List Char} {rest : List (List Char)} {reached : String}
    (h : d.walk place (segment :: rest) = .ok reached) : d.node? place = some .directory := by
  rw [walk] at h
  cases hNode : d.node? place with
  | none => simp [hNode] at h
  | some node =>
      cases node with
      | file content => simp [hNode] at h
      | directory => rfl

/-- Idle segments lead nowhere: in front of others they make no difference. -/
theorem walk_idle_append {idle : List (List Char)} (hIdle : ∀ s ∈ idle, Path.isIdle s = true)
    (d : Disk) (place : String) (segment : List Char) (rest : List (List Char)) :
    d.walk place (idle ++ segment :: rest) = d.walk place (segment :: rest) := by
  induction idle with
  | nil => rfl
  | cons first idle ih =>
      have hFirst := hIdle first List.mem_cons_self
      have hRest := ih fun s hs => hIdle s (List.mem_cons_of_mem first hs)
      rw [List.cons_append, walk, hRest]
      cases hNode : d.node? place with
      | none => simp [walk, hNode]
      | some node =>
          cases node with
          | file content => simp [walk, hNode]
          | directory => exact if_pos hFirst

/-- At a directory idle segments stay. -/
theorem walk_idle {idle : List (List Char)} (hIdle : ∀ s ∈ idle, Path.isIdle s = true)
    (hHere : d.node? place = some .directory) : d.walk place idle = .ok place := by
  induction idle with
  | nil => rfl
  | cons first idle ih =>
      have hFirst := hIdle first List.mem_cons_self
      have hRest := ih fun s hs => hIdle s (List.mem_cons_of_mem first hs)
      rw [walk, hHere]
      exact (if_pos hFirst).trans hRest

/-- Idle segments do not lead to another place. -/
theorem eq_of_walk_idle {idle : List (List Char)} {reached : String}
    (hIdle : ∀ s ∈ idle, Path.isIdle s = true) (h : d.walk place idle = .ok reached) :
    reached = place := by
  cases idle with
  | nil => exact (Except.ok.inj h).symm
  | cons first idle =>
      rw [walk_idle hIdle (directory_of_walk h)] at h
      exact (Except.ok.inj h).symm

/-- Idle segments look at the place alone. -/
theorem walk_idle_congr {idle : List (List Char)} (hIdle : ∀ s ∈ idle, Path.isIdle s = true)
    (hSame : e.node? place = d.node? place) : e.walk place idle = d.walk place idle := by
  induction idle with
  | nil => rfl
  | cons first idle ih =>
      have hFirst := hIdle first List.mem_cons_self
      have hRest := ih fun s hs => hIdle s (List.mem_cons_of_mem first hs)
      rw [walk, walk, hSame, hRest]
      cases d.node? place with
      | none => rfl
      | some node =>
          cases node with
          | file content => rfl
          | directory => rw [if_pos hFirst, if_pos hFirst]

/-- Every directory of the one disk is one of the other. -/
def KeepsDirectories (d e : Disk) : Prop :=
  ∀ place, d.node? place = some .directory → e.node? place = some .directory

theorem walk_of_keepsDirectories (h : KeepsDirectories d e) {segments : List (List Char)}
    {reached : String} (hWalk : d.walk place segments = .ok reached) :
    e.walk place segments = .ok reached := by
  induction segments generalizing place with
  | nil => exact hWalk
  | cons segment segments ih =>
      have hHere := directory_of_walk hWalk
      rw [walk, hHere] at hWalk
      rw [walk, h place hHere]
      dsimp only at hWalk ⊢
      split_ifs at hWalk ⊢ with hIdle hUp hLong
      · exact ih hWalk
      · exact ih hWalk
      · exact ih hWalk

/-- The two disks differ at this place at most. -/
def AgreesExcept (place : String) (d e : Disk) : Prop :=
  ∀ other, other ≠ place → e.node? other = d.node? other

theorem AgreesExcept.trans {c : Disk} (h : AgreesExcept place d e) (h' : AgreesExcept place e c) :
    AgreesExcept place d c :=
  fun other hOther => (h' other hOther).trans (h other hOther)

theorem AgreesExcept.keepsDirectories (h : AgreesExcept place d e)
    (hHere : d.node? place ≠ some .directory) : KeepsDirectories d e := by
  intro other hOther
  by_cases hSame : other = place
  · rw [hSame] at hOther
    exact absurd hOther hHere
  · rw [h other hSame, hOther]

theorem agreesExcept_put (place : String) (d : Disk) (node : Node) :
    AgreesExcept place d (d.put place node) :=
  fun _ hOther => node?_put_of_ne hOther d node

theorem agreesExcept_erase (place : String) (d : Disk) :
    AgreesExcept place d ⟨d.nodes.erase place⟩ :=
  fun _ hOther => node?_erase_of_ne hOther d

end SnapshotStore.Disk
