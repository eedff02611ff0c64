import SnapshotStore.Proofs.Decimal.Digits
import SnapshotStore.Proofs.Disk.Files

/-! A path and a sibling of it, such as the file in which its next version is
prepared: both lie in one directory, and what is done to the sibling is not
seen through the path. -/
namespace SnapshotStore.Path

/-- The directory in which the siblings of a path lie. -/
def home (p : Path) : Path :=
  if p.fileName?.isSome then p.parent else p

/-- The segments that lead from there to the path itself. -/
def OwnSegments (p : Path) (own : List (List Char)) : Prop :=
  p.fileName? = none ∧ own = [] ∨
  ∃ name after, p.fileName? = some (String.ofList name) ∧ own = name :: after ∧
    isIdle name = false ∧ name ≠ up ∧ '/' ∉ name ∧ ∀ s ∈ after, isIdle s = true

theorem withFileName_eq (p : Path) (name : String) : p.withFileName name = p.home.join name := by
  unfold withFileName home
  cases p.fileName? with
  | none => rfl
  | some own => rfl

/-- The name of the sibling in which a new version is prepared. -/
def tempName (p : Path) : List Char :=
  '.' :: (p.fileName?.getD "store.json").toList ++ ['.', 't', 'm', 'p']

theorem temp_eq (p : Path) : p.temp = p.home.join (String.ofList p.tempName) := by
  rw [temp, withFileName_eq]
  refine congrArg p.home.join (String.toList_inj.mp ?_)
  simp [tempName, String.toList_append]

theorem tempName_length (p : Path) : 5 ≤ p.tempName.length := by
  simp [tempName]

theorem isIdle_tempName (p : Path) : isIdle p.tempName = false := by
  have hLength := p.tempName_length
  by_contra hIdle
  simp only [isIdle, Bool.not_eq_false, Bool.or_eq_true, decide_eq_true_eq] at hIdle
  rcases hIdle with h | h <;> simp [h] at hLength

theorem tempName_ne_up (p : Path) : p.tempName ≠ up := by
  intro hUp
  have hLength := p.tempName_length
  simp [hUp, up] at hLength

theorem tempName_ne_fileName {p : Path} {name : List Char}
    (h : p.fileName? = some (String.ofList name)) : p.tempName ≠ name := by
  intro hSame
  have hLength := congrArg List.length hSame
  simp only [tempName, h, Option.getD_some, String.toList_ofList, List.length_append,
    List.length_cons, List.length_nil] at hLength
  omega

/-- The name under which a file is moved aside. -/
def quarantineName (p : Path) (second : Nat) : List Char :=
  (p.fileName?.getD "").toList ++ ['.', 'c', 'o', 'r', 'r', 'u', 'p', 't', '-'] ++
    Decimal.digits second

theorem quarantine_eq (p : Path) (second : Nat) :
    p.quarantine second = p.home.join (String.ofList (p.quarantineName second)) := by
  rw [quarantine, withFileName_eq]
  refine congrArg p.home.join (String.toList_inj.mp ?_)
  simp [quarantineName, String.toList_append]

theorem quarantineName_length (p : Path) (second : Nat) :
    9 ≤ (p.quarantineName second).length := by
  simp [quarantineName]
  omega

theorem isIdle_quarantineName (p : Path) (second : Nat) :
    isIdle (p.quarantineName second) = false := by
  have hLength := p.quarantineName_length second
  by_contra hIdle
  simp only [isIdle, Bool.not_eq_false, Bool.or_eq_true, decide_eq_true_eq] at hIdle
  rcases hIdle with h | h <;> simp [h] at hLength

theorem quarantineName_ne_up (p : Path) (second : Nat) : p.quarantineName second ≠ up := by
  intro hUp
  have hLength := p.quarantineName_length second
  simp [hUp, up] at hLength

/-- The one name ends in a letter, the other one in a digit. -/
theorem quarantineName_ne_tempName (p : Path) (second : Nat) :
    p.quarantineName second ≠ p.tempName := by
  intro hSame
  obtain ⟨hNonempty, hDigits⟩ := Decimal.isRun_digits second
  have hDigitLast : (p.quarantineName second).getLast? =
      some ((Decimal.digits second).getLast hNonempty) := by
    rw [quarantineName, List.getLast?_append, List.getLast?_eq_some_getLast hNonempty]
    rfl
  have hLetterLast : p.tempName.getLast? = some 'p' := by
    rw [tempName, List.getLast?_append]
    rfl
  have hLetter : (Decimal.digits second).getLast hNonempty = 'p' := by
    rw [hSame, hLetterLast] at hDigitLast
    exact (Option.some.inj hDigitLast).symm
  have hDigit := hDigits _ (List.getLast_mem hNonempty)
  rw [hLetter] at hDigit
  exact absurd hDigit (by decide)

end SnapshotStore.Path

namespace SnapshotStore.Disk

variable {d e : Disk} {p : Path}

theorem walk_join (d : Disk) (p : Path) {name : String} (h : '/' ∉ name.toList) :
    d.walk "" (p.join name).segments =
      (d.walk "" p.segments).bind fun reached => d.walk reached [name.toList] := by
  obtain ⟨front, hJoin, hSame | hSame⟩ := p.segments_join h
  · rw [hJoin, hSame, walk_append]
  · have hIdle : ∀ reached, d.walk reached ([[]] ++ [name.toList]) = d.walk reached [name.toList] :=
      fun reached => walk_idle_append (by decide) d reached name.toList []
    rw [hJoin, hSame, walk_append, walk_append]
    cases d.walk "" front with
    | error fault => rfl
    | ok reached =>
        have hAgain := hIdle reached
        rw [walk_append] at hAgain
        exact hAgain.symm

theorem walk_front (d : Disk) {front : List (List Char)} (h : p.parent.segments = front ∨
    front = [] ∧ ∀ s ∈ p.parent.segments, Path.isIdle s = true) :
    d.walk "" front = d.walk "" p.parent.segments := by
  rcases h with h | ⟨hFront, hIdle⟩
  · rw [h]
  · rw [hFront, walk_idle hIdle (node?_root d)]
    rfl

/-- From the directory of its siblings a path is walked along its own segments. -/
theorem exists_ownSegments (p : Path) : ∃ own, p.OwnSegments own ∧
    ∀ d : Disk, d.walk "" p.segments =
      (d.walk "" p.home.segments).bind fun reached => d.walk reached own := by
  unfold Path.home
  cases hName : p.fileName? with
  | none =>
      refine ⟨[], Or.inl ⟨hName, rfl⟩, fun d => ?_⟩
      cases hWalk : d.walk "" p.segments with
      | error fault => simp [hWalk, Except.bind]
      | ok reached => simp [hWalk, Except.bind, walk]
  | some own =>
      obtain ⟨front, idle, after, hIdle, hAfter, -, hSegments, hFront⟩ := p.segments_parent
      unfold Path.fileName? at hName
      cases hBackwards : p.backwards with
      | nil => simp [hBackwards] at hName
      | cons last rest =>
          rw [hBackwards] at hName
          dsimp only at hName
          split_ifs at hName with hUp
          have hLast : Path.isIdle last = false := by
            have hHead := List.head?_dropWhile_not Path.isIdle p.segments.reverse
            rw [← Path.backwards, hBackwards] at hHead
            simpa using hHead
          have hSlash : '/' ∉ last := by
            apply Path.not_mem_of_mem_segments (p := p)
            simp [hSegments, hBackwards]
          refine ⟨last :: after, Or.inr ⟨last, after, ?_, rfl, hLast, hUp, hSlash, hAfter⟩,
            fun d => ?_⟩
          · simp [Path.fileName?, hBackwards, hUp]
          · rw [hSegments, hBackwards, walk_append, walk_front d hFront]
            congr 1
            funext reached
            exact walk_idle_append hIdle d reached last after

theorem not_mem_tempName (p : Path) : '/' ∉ p.tempName := by
  obtain ⟨own, ⟨hName, -⟩ | ⟨name, after, hName, -, -, -, hSlash, -⟩, -⟩ := exists_ownSegments p
  · simp [Path.tempName, hName]
  · simp [Path.tempName, hName, hSlash]

theorem not_mem_quarantineName (p : Path) (second : Nat) : '/' ∉ p.quarantineName second := by
  obtain ⟨-, hDigits⟩ := Decimal.isRun_digits second
  have hSecond : '/' ∉ Decimal.digits second := fun hSlash =>
    absurd (hDigits '/' hSlash) (by decide)
  obtain ⟨own, ⟨hName, -⟩ | ⟨name, after, hName, -, -, -, hSlash, -⟩, -⟩ := exists_ownSegments p
  · simp [Path.quarantineName, hName, hSecond]
  · simp [Path.quarantineName, hName, hSlash, hSecond]

/-- No path is its own sibling. -/
theorem temp_ne (p : Path) : p.temp ≠ p := by
  intro hSame
  have hSlash : '/' ∉ (String.ofList p.tempName).toList := by
    rw [String.toList_ofList]
    exact not_mem_tempName p
  obtain ⟨front, hSegments, -⟩ := p.home.segments_join hSlash
  rw [← Path.temp_eq, hSame, String.toList_ofList] at hSegments
  have hBackwards := Path.backwards_of_segments hSegments p.isIdle_tempName
  have hName : p.fileName? = some (String.ofList p.tempName) := by
    simp only [Path.fileName?, hBackwards, if_neg p.tempName_ne_up]
  exact Path.tempName_ne_fileName hName rfl

/-- A sibling is not the directory in which it lies. -/
theorem parent_ne_temp (p : Path) : p.parent ≠ p.temp := by
  intro hSame
  have hSlash : '/' ∉ (String.ofList p.tempName).toList := by
    rw [String.toList_ofList]
    exact not_mem_tempName p
  obtain ⟨front, hTemp, hHome⟩ := p.home.segments_join hSlash
  rw [← Path.temp_eq, ← hSame, String.toList_ofList] at hTemp
  obtain ⟨parents, idle, after, -, -, hMore, hSegments, hParents⟩ := p.segments_parent
  have hFront : parents = front ++ [p.tempName] := by
    rcases hParents with hParents | ⟨-, hIdle⟩
    · exact hParents.symm.trans hTemp
    · have hName := hIdle p.tempName (by simp [hTemp])
      rw [p.isIdle_tempName] at hName
      cases hName
  unfold Path.home at hHome
  split_ifs at hHome
  · rw [hTemp] at hHome
    simp [Path.tempName] at hHome
  · have hLength : front.length + 1 < p.segments.length := by
      have hPositive := List.length_pos_iff.mpr hMore
      rw [hSegments, hFront, List.length_append, List.length_append, List.length_singleton]
      omega
    rcases hHome with hHome | hHome <;> simp [hHome] at hLength

/-- Where a path to a sibling leads, it leads into a directory from which the
path itself is walked too. -/
theorem exists_home_of_place_join {name : List Char} {place : String} (hSlash : '/' ∉ name)
    (hIdle : Path.isIdle name = false) (hUp : name ≠ Path.up)
    (h : d.place (p.home.join (String.ofList name)) = .ok place) :
    ∃ home, d.walk "" p.home.segments = .ok home ∧ d.node? home = some .directory ∧
      place = below home name := by
  have hWalk := walk_of_place h
  rw [walk_join d p.home (by rwa [String.toList_ofList])] at hWalk
  cases hHome : d.walk "" p.home.segments with
  | error fault => simp [hHome, Except.bind] at hWalk
  | ok home =>
      rw [hHome, String.toList_ofList] at hWalk
      change d.walk home [name] = .ok place at hWalk
      have hDirectory := directory_of_walk hWalk
      refine ⟨home, rfl, hDirectory, ?_⟩
      simp only [walk, hDirectory, hIdle, if_neg hUp, Bool.false_eq_true, if_false] at hWalk
      split_ifs at hWalk with hLong
      exact (Except.ok.inj hWalk).symm

theorem exists_home_of_place_temp {place : String} (h : d.place p.temp = .ok place) :
    ∃ home, d.walk "" p.home.segments = .ok home ∧ d.node? home = some .directory ∧
      place = below home p.tempName :=
  exists_home_of_place_join (not_mem_tempName p) p.isIdle_tempName p.tempName_ne_up
    (Path.temp_eq p ▸ h)

/-- From the directory of its siblings a path with a name leads to that name. -/
theorem exists_home_of_place {name : List Char} {place : String}
    (hName : p.fileName? = some (String.ofList name)) (h : d.place p = .ok place) :
    ∃ home, d.walk "" p.home.segments = .ok home ∧ place = below home name := by
  obtain ⟨own, hOwn, hWalk⟩ := exists_ownSegments p
  have hReached := walk_of_place h
  rw [hWalk d] at hReached
  cases hHome : d.walk "" p.home.segments with
  | error fault => simp [hHome, Except.bind] at hReached
  | ok home =>
      refine ⟨home, rfl, ?_⟩
      rw [hHome] at hReached
      change d.walk home own = .ok place at hReached
      rcases hOwn with ⟨hNone, -⟩ | ⟨name', after, hName', rfl, hIdle, hUp, -, hAfter⟩
      · rw [hNone] at hName
        cases hName
      · obtain rfl : name' = name :=
          String.ofList_injective (Option.some.inj (hName'.symm.trans hName))
        have hDirectory := directory_of_walk hReached
        simp only [walk, hDirectory, hIdle, if_neg hUp, Bool.false_eq_true, if_false] at hReached
        split_ifs at hReached with hLong
        exact eq_of_walk_idle hAfter hReached

/-- From the directory of its siblings a path leads to that directory or to a
name in it, which is not the name of the sibling. -/
theorem ne_below_of_walk_own {own : List (List Char)} {home reached : String}
    (hOwn : p.OwnSegments own) (h : d.walk home own = .ok reached) :
    reached ≠ below home p.tempName := by
  have hNonempty : p.tempName ≠ [] := by simp [Path.tempName]
  rcases hOwn with ⟨-, rfl⟩ | ⟨name, after, hName, rfl, hIdle, hUp, -, hAfter⟩
  · obtain rfl : home = reached := Except.ok.inj h
    exact (below_ne_self home hNonempty).symm
  · have hDirectory := directory_of_walk h
    simp only [walk, hDirectory, hIdle, if_neg hUp, Bool.false_eq_true, if_false] at h
    split_ifs at h with hLong
    rw [eq_of_walk_idle hAfter h]
    intro hSame
    exact Path.tempName_ne_fileName hName (below_injective home hSame).symm

/-- The sibling lies at another place than the path. -/
theorem place_ne_place_temp {place other : String} (hTemp : d.place p.temp = .ok place)
    (hPlace : d.place p = .ok other) : other ≠ place := by
  obtain ⟨home, hHome, -, hBelow⟩ := exists_home_of_place_temp hTemp
  obtain ⟨own, hOwn, hWalk⟩ := exists_ownSegments p
  have hOwnWalk := walk_of_place hPlace
  rw [hWalk d, hHome] at hOwnWalk
  rw [hBelow]
  exact ne_below_of_walk_own hOwn hOwnWalk

/-- A file that comes or goes at the sibling's place does not change the walk to
the path. -/
theorem walk_own_congr {own : List (List Char)} {home place : String}
    (hOwn : p.OwnSegments own) (hPlace : place = below home p.tempName)
    (hDirectory : d.node? home = some .directory) (h : AgreesExcept place d e) :
    e.walk home own = d.walk home own := by
  have hNonempty : p.tempName ≠ [] := by simp [Path.tempName]
  rcases hOwn with ⟨-, rfl⟩ | ⟨name, after, hName, rfl, hIdle, hUp, -, hAfter⟩
  · rfl
  · have hHome : e.node? home = some .directory := by
      rw [h home (hPlace ▸ (below_ne_self home hNonempty).symm), hDirectory]
    have hNext : e.node? (below home name) = d.node? (below home name) := by
      apply h
      rw [hPlace]
      intro hSame
      exact Path.tempName_ne_fileName hName (below_injective home hSame).symm
    simp only [walk, hHome, hDirectory, hIdle, if_neg hUp, Bool.false_eq_true, if_false]
    split_ifs with hLong
    · rfl
    · exact walk_idle_congr hAfter hNext

/-- What happens to the sibling is not seen through the path. -/
theorem OnlyFile.read_eq (h : OnlyFile p.temp d e) : e.read p = d.read p := by
  rcases h with rfl | ⟨place, hPlace, hBefore, -, hAgrees⟩
  · rfl
  · obtain ⟨home, hHome, hDirectory, hBelow⟩ := exists_home_of_place_temp hPlace
    obtain ⟨own, hOwn, hWalk⟩ := exists_ownSegments p
    have hHome' := walk_of_keepsDirectories (hAgrees.keepsDirectories hBefore) hHome
    have hSame : e.place p = d.place p := by
      unfold Disk.place
      rw [hWalk d, hWalk e, hHome, hHome']
      change (if _ then _ else if _ then _ else if _ then _ else e.walk home own) = 
        (if _ then _ else if _ then _ else if _ then _ else d.walk home own)
      rw [walk_own_congr hOwn hBelow hDirectory hAgrees]
    exact read_congr hSame fun reached hReached =>
      hAgrees reached (place_ne_place_temp hPlace hReached)

/-- The path has the content that was prepared in the sibling, the sibling is
gone, and the path leads where it led before. -/
structure Replaced (p : Path) (content : ByteArray) (d e : Disk) : Prop where
  read : e.read p = .ok content
  temp : e.contains p.temp = false
  place : ∀ place, d.place p = .ok place → e.place p = .ok place

theorem Replaced.of_onlyFile {c : Disk} {content : ByteArray} (h : Replaced p content c e)
    (hBefore : OnlyFile p.temp d c) : Replaced p content d e :=
  ⟨h.read, h.temp, fun place hPlace => h.place place (hBefore.place_eq hPlace)⟩

theorem replaced_of_rename {content : ByteArray} (h : d.rename p.temp p = .ok e)
    (hRead : d.read p.temp = .ok content) : Replaced p content d e := by
  have hApart : ∀ place, d.place p.temp = .ok place → d.place p ≠ .ok place :=
    fun place hTemp hPlace => place_ne_place_temp hTemp hPlace rfl
  obtain ⟨hMoved, hGone, hKeeps⟩ := moved_of_rename h hRead hApart
  exact ⟨hMoved, hGone, hKeeps p⟩

/-- Moving a file aside does not bring back its other sibling. -/
theorem contains_temp_of_quarantine {content : ByteArray} {second : Nat}
    (h : d.rename p (p.quarantine second) = .ok e) (hRead : d.read p = .ok content)
    (hTemp : d.contains p.temp = false) : e.contains p.temp = false := by
  obtain ⟨old, new, hOld, hFile, hNew, hNode, rfl⟩ := rename_eq_ok h hRead
  have hNewRoot := ne_root_of_not_directory hNode
  have hOldFile : d.node? old ≠ some .directory := by simp [hFile]
  have hOldRoot := ne_root_of_not_directory hOldFile
  have hKeeps : KeepsDirectories (Disk.put ⟨d.nodes.erase old⟩ new (.file content)) d := by
    intro place hPlace
    have hNotNew : place ≠ new := by
      rintro rfl
      simp [node?_put_self hNewRoot] at hPlace
    rw [node?_put_of_ne hNotNew] at hPlace
    have hNotOld : place ≠ old := by
      rintro rfl
      simp [node?_erase_self hOldRoot] at hPlace
    rwa [node?_erase_of_ne hNotOld] at hPlace
  unfold contains
  cases hReached : (Disk.put ⟨d.nodes.erase old⟩ new (.file content)).place p.temp with
  | error fault => rfl
  | ok place =>
      have hBefore := place_of_keepsDirectories hKeeps hReached
      rw [contains_of_place hBefore] at hTemp
      obtain ⟨home, hHome, -, hPlaceEq⟩ := exists_home_of_place_temp hBefore
      rw [Path.quarantine_eq] at hNew
      obtain ⟨home', hHome', -, hNewEq⟩ := exists_home_of_place_join
        (not_mem_quarantineName p second) (p.isIdle_quarantineName second)
        (p.quarantineName_ne_up second) hNew
      obtain rfl : home' = home := Except.ok.inj (hHome'.symm.trans hHome)
      have hApart : place ≠ new := by
        rw [hPlaceEq, hNewEq]
        exact fun hSame => p.quarantineName_ne_tempName second (below_injective _ hSame).symm
      have hNotOld : place ≠ old := by
        rintro rfl
        simp [hFile] at hTemp
      change (node? _ place).isSome = false
      rw [node?_put_of_ne hApart, node?_erase_of_ne hNotOld, hTemp]

end SnapshotStore.Disk
