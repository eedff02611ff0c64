import SnapshotStore.Disk.Path
import Mathlib.Data.List.TakeWhile
import Mathlib.Tactic.SplitIfs

/-! Segments of paths that are taken apart and put together: the parent of a
path is the path without its last name, and a name below a path is one more
segment, up to segments that lead nowhere. -/
namespace SnapshotStore.Path

theorem not_mem_of_mem_splitOn {cs segment : List Char} (h : segment ∈ cs.splitOn '/') :
    '/' ∉ segment := by
  induction cs generalizing segment with
  | nil => simp_all
  | cons c cs ih =>
      rw [List.splitOn_cons_eq_if_modifyHead] at h
      split_ifs at h with hSlash
      · rcases List.mem_cons.mp h with rfl | h
        · exact List.not_mem_nil
        · exact ih h
      · cases hSplit : cs.splitOn '/' with
        | nil => exact absurd hSplit (List.splitOn_ne_nil _ _)
        | cons first rest =>
            rw [hSplit, List.modifyHead_cons, List.mem_cons] at h
            rcases h with rfl | h
            · have hFirst := ih (hSplit ▸ List.mem_cons_self)
              rw [List.mem_cons, not_or]
              exact ⟨fun hc => hSlash (beq_iff_eq.mpr hc.symm), hFirst⟩
            · exact ih (hSplit ▸ List.mem_cons_of_mem first h)

theorem not_mem_of_mem_segments {p : Path} {segment : List Char} (h : segment ∈ p.segments) :
    '/' ∉ segment :=
  not_mem_of_mem_splitOn h

theorem segments_of_not_mem {name : String} (h : '/' ∉ name.toList) :
    segments ⟨name⟩ = [name.toList] :=
  List.splitOn_eq_singleton h

theorem isAbsolute_of_not_mem {name : String} (h : '/' ∉ name.toList) :
    isAbsolute ⟨name⟩ = false :=
  decide_eq_false fun hFirst => h (List.mem_of_head? hFirst)

/-- A name below a path is one more segment; an empty segment in front of it
is left out. -/
theorem segments_join (p : Path) {name : String} (h : '/' ∉ name.toList) :
    ∃ front, (p.join name).segments = front ++ [name.toList] ∧
      (p.segments = front ∨ p.segments = front ++ [[]]) := by
  unfold join
  rw [isAbsolute_of_not_mem h, if_neg (by decide)]
  split_ifs with hEmpty hSlash
  · refine ⟨[], segments_of_not_mem h, Or.inr ?_⟩
    rw [segments, hEmpty]
    rfl
  · obtain ⟨front, hFront⟩ := List.getLast?_eq_some_iff.mp hSlash
    refine ⟨front.splitOn '/', ?_, Or.inr ?_⟩
    · rw [segments, String.toList_append, hFront, List.append_assoc, List.singleton_append,
        List.splitOn_append_cons_self, List.splitOn_eq_singleton h]
    · rw [segments, hFront, List.splitOn_append_cons_self, List.splitOn_nil]
  · refine ⟨p.segments, ?_, Or.inl rfl⟩
    have hText : (p.text ++ "/" ++ name).toList = p.text.toList ++ '/' :: name.toList := by simp
    rw [segments, hText, List.splitOn_append_cons_self, List.splitOn_eq_singleton h, segments]

/-- A path that ends in a name has it in front of all others from right to left. -/
theorem backwards_of_segments {p : Path} {front : List (List Char)} {name : List Char}
    (h : p.segments = front ++ [name]) (hIdle : isIdle name = false) :
    p.backwards = name :: front.reverse := by
  rw [backwards, h, List.reverse_append, List.reverse_singleton, List.singleton_append,
    List.dropWhile_cons, hIdle]
  rfl

theorem fileName?_join (p : Path) {name : String} (hSlash : '/' ∉ name.toList)
    (hIdle : isIdle name.toList = false) (hUp : name.toList ≠ up) :
    (p.join name).fileName? = some name := by
  obtain ⟨front, hSegments, -⟩ := p.segments_join hSlash
  simp [fileName?, backwards_of_segments hSegments hIdle, hUp]

/-- What stands in front of a name below a path is the same for every name. -/
theorem exists_front_join (p : Path) : ∃ front root, ∀ name : String, '/' ∉ name.toList →
    (p.join name).segments = front ++ [name.toList] ∧ (p.join name).isAbsolute = root := by
  have hBelow : ∀ (before : List Char) (q : Path) (name : String), '/' ∉ name.toList →
      q.text.toList = before ++ '/' :: name.toList →
      q.segments = before.splitOn '/' ++ [name.toList] ∧
        q.isAbsolute = decide ((before ++ ['/']).head? = some '/') := by
    intro before q name hName hText
    rw [segments, isAbsolute, hText, List.splitOn_append_cons_self,
      List.splitOn_eq_singleton hName]
    cases before <;> exact ⟨rfl, rfl⟩
  by_cases hEmpty : p.text = ""
  · refine ⟨[], false, fun name hName => ?_⟩
    rw [join, isAbsolute_of_not_mem hName, if_neg (by decide), if_pos hEmpty]
    exact ⟨segments_of_not_mem hName, isAbsolute_of_not_mem hName⟩
  by_cases hSlash : p.text.toList.getLast? = some '/'
  · obtain ⟨before, hBefore⟩ := List.getLast?_eq_some_iff.mp hSlash
    refine ⟨_, _, fun name hName => hBelow before _ name hName ?_⟩
    rw [join, isAbsolute_of_not_mem hName, if_neg (by decide), if_neg hEmpty, if_pos hSlash,
      String.toList_append, hBefore, List.append_assoc, List.singleton_append]
  · refine ⟨_, _, fun name hName => hBelow p.text.toList _ name hName ?_⟩
    rw [join, isAbsolute_of_not_mem hName, if_neg (by decide), if_neg hEmpty, if_neg hSlash]
    simp

/-- Two names below a path have the same parent. -/
theorem parent_join_eq (p : Path) {name other : String} (hSlash : '/' ∉ name.toList)
    (hIdle : isIdle name.toList = false) (hOtherSlash : '/' ∉ other.toList)
    (hOtherIdle : isIdle other.toList = false) : (p.join name).parent = (p.join other).parent := by
  obtain ⟨front, root, hFront⟩ := p.exists_front_join
  obtain ⟨hName, hRoot⟩ := hFront name hSlash
  obtain ⟨hOther, hOtherRoot⟩ := hFront other hOtherSlash
  rw [parent, parent, backwards_of_segments hName hIdle, backwards_of_segments hOther hOtherIdle,
    hRoot, hOtherRoot, hName, hOther]
  cases front with
  | nil => rfl
  | cons first rest => simp

/-- The segments of a path up to its last one that leads somewhere. -/
theorem segments_eq_backwards (p : Path) : ∃ after, (∀ s ∈ after, isIdle s = true) ∧
    p.segments = p.backwards.reverse ++ after := by
  refine ⟨(p.segments.reverse.takeWhile isIdle).reverse, fun s hs => ?_, ?_⟩
  · exact List.mem_takeWhile_imp (List.mem_reverse.mp hs)
  · rw [backwards, ← List.reverse_append, List.takeWhile_append_dropWhile, List.reverse_reverse]

/-- In front of the last segment that leads anywhere stand idle ones, and in front
of those what is left of the path. -/
theorem reverse_backwards (p : Path) : p.backwards.reverse =
    ((p.backwards.drop 1).dropWhile isIdle).reverse ++
      (((p.backwards.drop 1).takeWhile isIdle).reverse ++ p.backwards.take 1) := by
  have hFirst : (p.backwards.take 1).reverse = p.backwards.take 1 := by
    cases p.backwards with
    | nil => rfl
    | cons last rest => rfl
  rw [← List.append_assoc, ← List.reverse_append, List.takeWhile_append_dropWhile, ← hFirst,
    ← List.reverse_append, List.take_append_drop]

theorem segments_parent_eq (p : Path) :
    p.parent.segments = ((p.backwards.drop 1).dropWhile isIdle).reverse ∨
      ((p.backwards.drop 1).dropWhile isIdle).reverse = [] ∧
        ∀ s ∈ p.parent.segments, isIdle s = true := by
  unfold parent
  cases hParent : (p.backwards.drop 1).dropWhile isIdle with
  | nil =>
      refine Or.inr ⟨rfl, ?_⟩
      dsimp only
      split_ifs
      · decide
      · decide
      · decide
  | cons last rest =>
      left
      have hNames : ∀ s ∈ (last :: rest).reverse, '/' ∉ s := by
        intro s hs
        rw [← hParent, List.mem_reverse] at hs
        have hBackwards : s ∈ p.backwards :=
          List.mem_of_mem_drop ((List.dropWhile_sublist _).mem hs)
        obtain ⟨after, -, hSegments⟩ := p.segments_eq_backwards
        have hMember : s ∈ p.segments := by
          rw [hSegments]
          exact List.mem_append_left _ (List.mem_reverse.mpr hBackwards)
        exact not_mem_of_mem_segments hMember
      dsimp only
      rw [segments, String.toList_ofList]
      exact List.splitOn_intercalate '/' hNames (by simp)

/-- The segments of the parent come first, or it has none that lead anywhere.
Behind them stands one more segment that does, if there is any. -/
theorem segments_parent (p : Path) : ∃ front idle after, (∀ s ∈ idle, isIdle s = true) ∧
    (∀ s ∈ after, isIdle s = true) ∧
    idle ++ (p.backwards.take 1 ++ after) ≠ [] ∧
    p.segments = front ++ (idle ++ (p.backwards.take 1 ++ after)) ∧
    (p.parent.segments = front ∨ front = [] ∧ ∀ s ∈ p.parent.segments, isIdle s = true) := by
  obtain ⟨after, hAfter, hSegments⟩ := p.segments_eq_backwards
  refine ⟨_, ((p.backwards.drop 1).takeWhile isIdle).reverse, after, fun s hs => ?_, hAfter, ?_, ?_,
    p.segments_parent_eq⟩
  · exact List.mem_takeWhile_imp (List.mem_reverse.mp hs)
  · intro hNone
    have hBackwards : p.backwards = [] := by
      cases hEq : p.backwards with
      | nil => rfl
      | cons last rest => simp [hEq] at hNone
    rw [hBackwards] at hNone hSegments
    exact List.splitOn_ne_nil _ _ (hSegments.trans (by simpa using hNone))
  · rw [hSegments, reverse_backwards, List.append_assoc, List.append_assoc]

end SnapshotStore.Path
