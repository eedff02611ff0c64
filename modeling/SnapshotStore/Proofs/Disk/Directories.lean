import SnapshotStore.Proofs.Disk.Sibling

/-! Directories that are there already: creating them again changes nothing. -/
namespace SnapshotStore

namespace Path

theorem splitOn_slashes {slashes : List Char} (h : ∀ c ∈ slashes, c = '/') :
    ∀ segment ∈ slashes.splitOn '/', segment = [] := by
  induction slashes with
  | nil => simp
  | cons c slashes ih =>
      intro segment hSegment
      obtain rfl := h c List.mem_cons_self
      have hSplit : ('/' :: slashes).splitOn '/' = [] :: slashes.splitOn '/' := by
        simp [List.splitOn_cons_eq_if_modifyHead]
      rw [hSplit, List.mem_cons] at hSegment
      rcases hSegment with rfl | hSegment
      · rfl
      · exact ih (fun c hc => h c (List.mem_cons_of_mem _ hc)) segment hSegment

/-- Slashes at the end of a path are idle segments. -/
theorem segments_withoutEndSlashes (p : Path) : ∃ idle, (∀ s ∈ idle, isIdle s = true) ∧
    p.segments = p.withoutEndSlashes.segments ++ idle := by
  unfold withoutEndSlashes
  cases hFront : p.text.toList.reverse.dropWhile (· = '/') with
  | nil => exact ⟨[], by simp, by simp⟩
  | cons last front =>
      have hText : p.text.toList =
          (last :: front).reverse ++ (p.text.toList.reverse.takeWhile (· = '/')).reverse := by
        rw [← hFront, ← List.reverse_append, List.takeWhile_append_dropWhile, List.reverse_reverse]
      have hSlashes : ∀ c ∈ (p.text.toList.reverse.takeWhile (· = '/')).reverse, c = '/' := by
        intro c hc
        simpa using List.mem_takeWhile_imp (List.mem_reverse.mp hc)
      generalize (p.text.toList.reverse.takeWhile (· = '/')).reverse = slashes at hText hSlashes
      cases slashes with
      | nil => exact ⟨[], by simp, by simp [segments, hText]⟩
      | cons slash slashes =>
          obtain rfl := hSlashes slash List.mem_cons_self
          refine ⟨slashes.splitOn '/', fun s hs => ?_, ?_⟩
          · rw [splitOn_slashes (fun c hc => hSlashes c (List.mem_cons_of_mem _ hc)) s hs]
            rfl
          · rw [segments, hText, List.splitOn_append_cons_self, segments, String.toList_ofList]

/-- A name is added to the text of a path. -/
theorem exists_text_join (p : Path) {name : String} (h : '/' ∉ name.toList) :
    ∃ rest, (p.join name).text = p.text ++ rest := by
  unfold join
  split_ifs with hAbsolute hEmpty hSlash
  · rw [isAbsolute, decide_eq_true_eq] at hAbsolute
    exact absurd (List.mem_of_mem_head? (by simpa using hAbsolute)) h
  · exact ⟨name, by simp [hEmpty]⟩
  · exact ⟨name, rfl⟩
  · exact ⟨"/" ++ name, by simp [String.append_assoc]⟩

end Path

namespace Disk

variable {d : Disk} {p : Path} {place reached : String}

theorem createAlong_of_walk {segments : List (List Char)}
    (h : d.walk place segments = .ok reached) (hDirectory : d.node? reached = some .directory) :
    d.createAlong place segments = (.ok (), d) := by
  induction segments generalizing place with
  | nil =>
      obtain rfl : place = reached := Except.ok.inj h
      simp [createAlong, hDirectory]
  | cons segment segments ih =>
      have hHere := directory_of_walk h
      simp only [walk, hHere] at h
      simp only [createAlong, hHere, Option.isSome_some, if_true]
      split_ifs at h ⊢ with hIdle hUp hLong
      · exact ih h
      · exact ih h
      · exact ih h

/-- A path to a directory passes by its parent. -/
theorem createAlong_parent (h : d.walk "" p.segments = .ok reached) :
    d.createAlong "" p.parent.segments = (.ok (), d) := by
  obtain ⟨front, idle, after, -, -, hRest, hSegments, hFront⟩ := p.segments_parent
  rw [hSegments, walk_append] at h
  cases hWalk : d.walk "" front with
  | error fault => simp [hWalk, Except.bind] at h
  | ok middle =>
      rw [hWalk] at h
      change d.walk middle _ = .ok reached at h
      cases hCons : idle ++ (p.backwards.take 1 ++ after) with
      | nil => exact absurd hCons hRest
      | cons segment rest =>
          rw [hCons] at h
          exact createAlong_of_walk ((walk_front d hFront).symm.trans hWalk) (directory_of_walk h)

theorem createDirectory_ne_ok {e : Disk} (h : d.walk "" p.segments = .ok reached)
    (hDirectory : d.node? reached = some .directory) : d.createDirectory p ≠ .ok e := by
  obtain ⟨idle, hIdle, hSegments⟩ := p.segments_withoutEndSlashes
  unfold createDirectory
  cases hPlace : d.place p.withoutEndSlashes with
  | error fault => simp
  | ok place =>
      rw [hSegments, walk_append, walk_of_place hPlace] at h
      change d.walk place idle = .ok reached at h
      obtain rfl := eq_of_walk_idle hIdle h
      simp [hDirectory]

/-- A directory that is there is not created again. -/
theorem createDirectories_of_walk (h : d.walk "" p.segments = .ok reached)
    (hDirectory : d.node? reached = some .directory) : (d.createDirectories p).2 = d := by
  unfold createDirectories
  split_ifs with hEmpty hCut hLong
  · rfl
  · rfl
  · rfl
  · simp only [createAlong_parent h]
    cases hCreate : d.createDirectory p with
    | error fault => rfl
    | ok e => exact absurd hCreate (createDirectory_ne_ok h hDirectory)

theorem createDirectories_of_place (hPlace : d.place p = .ok reached)
    (hDirectory : d.node? reached = some .directory) :
    d.createDirectories p = (.ok (), d) := by
  have hWalk := walk_of_place hPlace
  have hList : d.isDirectory p = true := by
    simp [isDirectory, list, hPlace, hDirectory]
  unfold Disk.place at hPlace
  split_ifs at hPlace with hEmpty hCut hLong
  unfold createDirectories
  simp only [if_neg hEmpty, if_neg hCut, if_neg hLong, createAlong_parent hWalk]
  cases hCreate : d.createDirectory p with
  | error fault => simp [hList]
  | ok e => exact absurd hCreate (createDirectory_ne_ok hWalk hDirectory)

/-! ### Creating once more

What was created, even in part, is created the same way again. -/

/-- The disk with a directory at a place, unless there is something already. -/
def withDirectory (d : Disk) (place : String) : Disk :=
  if (d.node? place).isSome then d else d.put place .directory

theorem withDirectory_of_directory (h : d.node? place = some .directory) :
    d.withDirectory place = d := by
  rw [withDirectory, h]
  rfl

theorem keepsDirectories_withDirectory (d : Disk) (place : String) :
    KeepsDirectories d (d.withDirectory place) := by
  unfold withDirectory
  split_ifs with hHere
  · exact fun _ => id
  · refine (agreesExcept_put place d _).keepsDirectories fun hDirectory => hHere ?_
    rw [hDirectory]
    rfl

theorem createAlong_nil_of_directory (h : d.node? place = some .directory) :
    d.createAlong place [] = (.ok (), d) := by
  rw [createAlong, h]

theorem createAlong_cons_of_file {content : ByteArray} (h : d.node? place = some (.file content))
    (segment : List Char) (rest : List (List Char)) :
    d.createAlong place (segment :: rest) = (.error .notDirectory, d) := by
  rw [createAlong, h]

/-- Where there is no file in the way, creating goes on from a directory. -/
theorem createAlong_cons (h : ∀ content, d.node? place ≠ some (.file content))
    (segment : List Char) (rest : List (List Char)) :
    (d.withDirectory place).node? place = some .directory ∧
    d.createAlong place (segment :: rest) =
      if Path.isIdle segment then (d.withDirectory place).createAlong place rest
      else if segment = Path.up then (d.withDirectory place).createAlong (above place) rest
      else if Path.isNameTooLong segment then (.error .nameTooLong, d.withDirectory place)
      else (d.withDirectory place).createAlong (below place segment) rest := by
  unfold withDirectory
  rw [createAlong]
  cases hHere : d.node? place with
  | none =>
      have hNone : d.node? place ≠ some .directory := by simp [hHere]
      have hRoot := ne_root_of_not_directory hNone
      exact ⟨node?_put_self hRoot d _, rfl⟩
  | some node =>
      cases node with
      | file content => exact absurd hHere (h content)
      | directory => exact ⟨hHere, rfl⟩

/-- Creating along a path keeps the directories, and does nothing when it is done
again. -/
theorem createAlong_again (d : Disk) (place : String) (segments : List (List Char)) :
    KeepsDirectories d (d.createAlong place segments).2 ∧
    (d.createAlong place segments).2.createAlong place segments =
      d.createAlong place segments := by
  induction segments generalizing d place with
  | nil =>
      cases hHere : d.node? place with
      | none =>
          have hCreate : d.createAlong place [] = (.ok (), d.put place .directory) := by
            rw [createAlong, hHere]
          have hNone : d.node? place ≠ some .directory := by simp [hHere]
          rw [hCreate]
          exact ⟨(agreesExcept_put place d _).keepsDirectories hNone,
            createAlong_nil_of_directory (node?_put_self (ne_root_of_not_directory hNone) d _)⟩
      | some node =>
          cases node with
          | directory =>
              rw [createAlong_nil_of_directory hHere]
              exact ⟨fun _ => id, createAlong_nil_of_directory hHere⟩
          | file content =>
              have hCreate : d.createAlong place [] = (.error .alreadyExists, d) := by
                rw [createAlong, hHere]
              rw [hCreate]
              exact ⟨fun _ => id, hCreate⟩
  | cons segment rest ih =>
      by_cases hFile : ∃ content, d.node? place = some (.file content)
      · obtain ⟨content, hHere⟩ := hFile
        rw [createAlong_cons_of_file hHere]
        exact ⟨fun _ => id, createAlong_cons_of_file hHere segment rest⟩
      obtain ⟨hHere, hCreate⟩ := createAlong_cons (not_exists.mp hFile) segment rest
      have hFirst := keepsDirectories_withDirectory d place
      generalize d.withDirectory place = c at hHere hCreate hFirst
      -- whatever keeps the directories of `c` goes on from there the same way
      have hAgain : ∀ e, KeepsDirectories c e → e.createAlong place (segment :: rest) =
          if Path.isIdle segment then e.createAlong place rest
          else if segment = Path.up then e.createAlong (above place) rest
          else if Path.isNameTooLong segment then (.error .nameTooLong, e)
          else e.createAlong (below place segment) rest := by
        intro e hKeeps
        have hThere := hKeeps place hHere
        have hNoFile : ∀ content, e.node? place ≠ some (.file content) := by simp [hThere]
        have hStep := (createAlong_cons hNoFile segment rest).2
        rwa [withDirectory_of_directory hThere] at hStep
      rw [hCreate]
      split_ifs at hAgain ⊢ with hIdle hUp hLong
      · obtain ⟨hKeeps, hSame⟩ := ih c place
        exact ⟨fun other hOther => hKeeps other (hFirst other hOther),
          (hAgain _ hKeeps).trans hSame⟩
      · obtain ⟨hKeeps, hSame⟩ := ih c (above place)
        exact ⟨fun other hOther => hKeeps other (hFirst other hOther),
          (hAgain _ hKeeps).trans hSame⟩
      · exact ⟨hFirst, hAgain c fun _ => id⟩
      · obtain ⟨hKeeps, hSame⟩ := ih c (below place segment)
        exact ⟨fun other hOther => hKeeps other (hFirst other hOther),
          (hAgain _ hKeeps).trans hSame⟩

/-- What was created without a fault leads to a directory. -/
theorem exists_walk_of_createAlong {e : Disk} {segments : List (List Char)}
    (h : d.createAlong place segments = (.ok (), e)) :
    ∃ reached, e.walk place segments = .ok reached ∧ e.node? reached = some .directory := by
  induction segments generalizing d place with
  | nil =>
      refine ⟨place, rfl, ?_⟩
      have hAgain := (createAlong_again d place []).2
      rw [h, createAlong] at hAgain
      cases hHere : e.node? place with
      | none =>
          simp only [hHere, Prod.mk.injEq, true_and] at hAgain
          have hRoot : place ≠ "" := ne_root_of_not_directory (d := e) (by simp [hHere])
          rw [← hAgain, node?_put_self hRoot] at hHere
          cases hHere
      | some node =>
          cases node with
          | directory => rfl
          | file content => simp [hHere] at hAgain
  | cons segment rest ih =>
      by_cases hFile : ∃ content, d.node? place = some (.file content)
      · obtain ⟨content, hHere⟩ := hFile
        rw [createAlong_cons_of_file hHere] at h
        cases h
      obtain ⟨hHere, hCreate⟩ := createAlong_cons (not_exists.mp hFile) segment rest
      generalize d.withDirectory place = c at hHere hCreate
      have hThere : ∀ next, c.createAlong next rest = (.ok (), e) →
          e.node? place = some .directory := fun next hNext => by
        have hKeeps := (createAlong_again c next rest).1
        rw [hNext] at hKeeps
        exact hKeeps place hHere
      rw [hCreate] at h
      split_ifs at h with hIdle hUp hLong
      · obtain ⟨reached, hWalk, hDirectory⟩ := ih h
        refine ⟨reached, ?_, hDirectory⟩
        rw [walk, hThere _ h]
        simp only [if_pos hIdle, hWalk]
      · obtain ⟨reached, hWalk, hDirectory⟩ := ih h
        refine ⟨reached, ?_, hDirectory⟩
        rw [walk, hThere _ h]
        simp only [if_neg hIdle, if_pos hUp, hWalk]
      · cases h
      · obtain ⟨reached, hWalk, hDirectory⟩ := ih h
        refine ⟨reached, ?_, hDirectory⟩
        rw [walk, hThere _ h]
        simp only [if_neg hIdle, if_neg hUp, if_neg hLong, hWalk]

theorem createDirectory_eq_ok {e : Disk} (h : d.createDirectory p = .ok e) :
    ∃ place, d.place p.withoutEndSlashes = .ok place ∧ d.node? place = none ∧
      e = d.put place .directory := by
  unfold createDirectory at h
  cases hPlace : d.place p.withoutEndSlashes with
  | error fault => simp [hPlace] at h
  | ok place =>
      cases hNode : d.node? place with
      | some node => simp [hPlace, hNode] at h
      | none =>
          refine ⟨place, rfl, hNode, ?_⟩
          simpa [hPlace, hNode] using h.symm

/-- Creating a directory once more changes nothing, whatever came of it before. -/
theorem createDirectories_again (d : Disk) (p : Path) :
    ((d.createDirectories p).2.createDirectories p).2 = (d.createDirectories p).2 := by
  unfold createDirectories
  split_ifs with hEmpty hCut hLong
  · rfl
  · rfl
  · rfl
  have hAgain := (createAlong_again d "" p.parent.segments).2
  cases hCreate : d.createAlong "" p.parent.segments with
  | mk result middle =>
      rw [hCreate] at hAgain
      cases result with
      | error fault => simp only [hAgain]
      | ok _ =>
          cases hLast : middle.createDirectory p with
          | error fault => simp only [hAgain, hLast]
          | ok e =>
              obtain ⟨place, hPlace, hNone, rfl⟩ := createDirectory_eq_ok hLast
              have hNot : middle.node? place ≠ some .directory := by simp [hNone]
              have hKeeps := (agreesExcept_put place middle .directory).keepsDirectories hNot
              obtain ⟨reached, hWalk, hDirectory⟩ := exists_walk_of_createAlong hCreate
              have hOnce : (middle.put place .directory).createDirectory p =
                  .error .alreadyExists := by
                rw [createDirectory, place_of_keepsDirectories hKeeps hPlace]
                simp only [node?_put_self (ne_root_of_not_directory hNot)]
              simp only [hLast, createAlong_of_walk (walk_of_keepsDirectories hKeeps hWalk)
                (hKeeps reached hDirectory), hOnce]

/-! ### The directory of a file -/

variable {name : String}

/-- A path that leads somewhere leads through its directory. -/
theorem exists_directory_of_place_join (hSlash : '/' ∉ name.toList)
    (h : d.place (p.join name) = .ok place) : ∃ reached, d.walk "" p.segments = .ok reached ∧
      d.node? reached = some .directory := by
  have hWalk := walk_of_place h
  rw [walk_join d p hSlash] at hWalk
  cases hReached : d.walk "" p.segments with
  | error fault => simp [hReached, Except.bind] at hWalk
  | ok reached =>
      rw [hReached] at hWalk
      change d.walk reached [name.toList] = .ok place at hWalk
      exact ⟨reached, rfl, directory_of_walk hWalk⟩

/-- Up to segments that lead nowhere, the siblings of a file lie in its directory. -/
theorem exists_idle_home (p : Path) (hSlash : '/' ∉ name.toList)
    (hIdle : Path.isIdle name.toList = false) (hUp : name.toList ≠ Path.up) :
    ∃ idle, (∀ s ∈ idle, Path.isIdle s = true) ∧ ∀ d : Disk, d.walk "" p.segments =
      (d.walk "" (p.join name).home.segments).bind fun home => d.walk home idle := by
  obtain ⟨front, hSegments, hBefore⟩ := p.segments_join hSlash
  obtain ⟨parentFront, idle, after, hIdles, hAfter, -, hParent, hFront⟩ :=
    (p.join name).segments_parent
  have hBackwards := Path.backwards_of_segments hSegments hIdle
  have hName : (p.join name).fileName?.isSome = true := by
    rw [p.fileName?_join hSlash hIdle hUp]
    rfl
  have hFrontEq : front = parentFront ++ idle := by
    rw [hBackwards, hSegments] at hParent
    rcases List.eq_nil_or_concat after with rfl | ⟨others, last, rfl⟩
    · simpa [← List.append_assoc] using hParent
    · have hLast := congrArg List.getLast? hParent
      simp only [List.concat_eq_append, List.take_succ_cons, List.take_zero,
        ← List.append_assoc, List.getLast?_append, List.getLast?_singleton, Option.some_or,
        Option.some.injEq] at hLast
      rw [hLast, hAfter last (by simp)] at hIdle
      cases hIdle
  rcases hBefore with hSame | hSame
  · refine ⟨idle, hIdles, fun d => ?_⟩
    rw [Path.home, if_pos hName, ← walk_front d hFront, hSame, hFrontEq, walk_append]
  · refine ⟨idle ++ [[]], fun s hs => ?_, fun d => ?_⟩
    · rcases List.mem_append.mp hs with hs | hs
      · exact hIdles s hs
      · rw [List.mem_singleton.mp hs]
        rfl
    · rw [Path.home, if_pos hName, ← walk_front d hFront, hSame, hFrontEq, List.append_assoc,
        walk_append]

/-- The siblings of a file lie in its directory. -/
theorem walk_directory_of_walk_home (hSlash : '/' ∉ name.toList)
    (hIdle : Path.isIdle name.toList = false) (hUp : name.toList ≠ Path.up)
    (h : d.walk "" (p.join name).home.segments = .ok reached)
    (hDirectory : d.node? reached = some .directory) :
    d.walk "" p.segments = .ok reached := by
  obtain ⟨idle, hIdles, hWalk⟩ := exists_idle_home p hSlash hIdle hUp
  rw [hWalk, h]
  exact walk_idle hIdles hDirectory

/-- A sibling is a name in the directory of the file. -/
theorem walk_join_home (hSlash : '/' ∉ name.toList) (hIdle : Path.isIdle name.toList = false)
    (hUp : name.toList ≠ Path.up) (d : Disk) {other : String} (hOther : '/' ∉ other.toList) :
    d.walk "" ((p.join name).home.join other).segments =
      (d.walk "" p.segments).bind fun home => d.walk home [other.toList] := by
  obtain ⟨idle, hIdles, hWalk⟩ := exists_idle_home p hSlash hIdle hUp
  rw [walk_join d _ hOther, hWalk]
  cases d.walk "" (p.join name).home.segments with
  | error fault => rfl
  | ok home =>
      change d.walk home [other.toList] =
        (d.walk home idle).bind fun reached => d.walk reached [other.toList]
      rw [← walk_append]
      exact (walk_idle_append hIdles d home other.toList []).symm

/-- Where the path of a file leads somewhere, nothing is missing on the way to
it. -/
theorem createDirectories_of_place_join (hSlash : '/' ∉ name.toList)
    (h : d.place (p.join name) = .ok place) : d.createDirectories p = (.ok (), d) := by
  obtain ⟨reached, hWalk, hDirectory⟩ := exists_directory_of_place_join hSlash h
  by_cases hEmpty : p.text = ""
  · rw [createDirectories, if_pos hEmpty]
  · obtain ⟨rest, hText⟩ := p.exists_text_join hSlash
    suffices hPlace : d.place p = .ok reached from createDirectories_of_place hPlace hDirectory
    unfold Disk.place at h ⊢
    split_ifs at h with hJoinEmpty hCut hLong
    have hNotCut : ¬ p.isCutShort = true := by
      intro hZero
      refine hCut ?_
      simp only [Path.isCutShort, hText, String.toList_append, List.contains_eq_mem,
        List.mem_append, decide_eq_true_eq] at hZero ⊢
      exact Or.inl hZero
    have hNotLong : ¬ p.isTooLong = true := by
      intro hTooLong
      refine hLong ?_
      simp only [Path.isTooLong, hText, String.utf8ByteSize_append, decide_eq_true_eq]
        at hTooLong ⊢
      omega
    rw [if_neg hEmpty, if_neg hNotCut, if_neg hNotLong, hWalk]

end Disk

end SnapshotStore
