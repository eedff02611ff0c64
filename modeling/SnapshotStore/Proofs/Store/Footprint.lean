import SnapshotStore.Proofs.Disk.Neighbours
import SnapshotStore.Proofs.Store.Keeping
import SnapshotStore.Proofs.Store.Operation

/-! The files of a store: its snapshot, the sibling in which the next snapshot is
prepared, and the siblings to which it is moved aside. Each has a name of its own in the
directory, and no two stores have one of them in common. Nothing that is done with a
store asks for other files, or changes them. -/
namespace SnapshotStore

open Disk Program

/-- What a file is to its store. -/
inductive FileKind where
  | snapshot
  | prepared
  | aside (second : Nat)
deriving DecidableEq

namespace Config

variable {a b c : Config} {kind kind' : FileKind}

def file (c : Config) : FileKind → Path
  | .snapshot => c.path
  | .prepared => c.path.temp
  | .aside second => c.path.quarantine second

/-- The name of a file in the directory of the store. -/
def nameOf (c : Config) : FileKind → List Char
  | .snapshot => c.fileName.toList
  | .prepared => '.' :: c.fileName.toList ++ ['.', 't', 'm', 'p']
  | .aside second => c.asideName second

/-- The path is that of a file of the store. -/
def Owns (c : Config) (p : Path) : Prop :=
  ∃ kind, p = c.file kind

theorem owns_file (c : Config) (kind : FileKind) : c.Owns (c.file kind) :=
  ⟨kind, rfl⟩

theorem isName_iff {name : String} : isName name = true ↔
    ∃ first rest, name.toList = first :: rest ∧ first ≠ '.' ∧
      ∀ c ∈ name.toList, isNameChar c = true := by
  unfold isName
  cases hChars : name.toList with
  | nil => simp
  | cons first rest => simp

/-! ### Names -/

/-- Every file of a store lies in its directory. -/
theorem childOf_file (h : isName c.name = true) (kind : FileKind) :
    (c.file kind).ChildOf c.directory (c.nameOf kind) := by
  have hSlash := not_mem_fileName_of_isName h
  have hOwn : c.path.ChildOf c.directory c.fileName.toList :=
    Path.childOf_join c.directory hSlash c.isIdle_fileName c.fileName_ne_up
  have hName : c.path.fileName? = some c.fileName := by
    rw [hOwn.fileName, String.ofList_toList]
  cases kind with
  | snapshot => exact hOwn
  | prepared =>
      have hTemp : c.path.tempName = c.nameOf .prepared := by
        rw [Path.tempName, hName]
        rfl
      rw [← hTemp, file, Path.temp_eq]
      exact Path.childOf_join_home c.directory hSlash c.isIdle_fileName c.fileName_ne_up
        (not_mem_tempName _) (Path.isIdle_tempName _) (Path.tempName_ne_up _)
  | aside second =>
      have hAside : c.path.quarantineName second = c.nameOf (.aside second) := by
        simp [Path.quarantineName, hName, nameOf, asideName]
      rw [← hAside, file, Path.quarantine_eq]
      exact Path.childOf_join_home c.directory hSlash c.isIdle_fileName c.fileName_ne_up
        (not_mem_quarantineName _ _) (Path.isIdle_quarantineName _ _)
        (Path.quarantineName_ne_up _ _)

/-- What stands behind the last dash is known from the whole. -/
theorem eq_of_append_dash {front front' back back' : List Char} (hBack : '-' ∉ back)
    (hBack' : '-' ∉ back') (h : front ++ '-' :: back = front' ++ '-' :: back') :
    front = front' ∧ back = back' := by
  rcases List.append_eq_append_iff.mp h with ⟨more, rfl, hMore⟩ | ⟨more, rfl, hMore⟩
  · cases more with
    | nil => exact ⟨by simp, (List.cons.inj hMore).2⟩
    | cons first more =>
        obtain ⟨-, hRest⟩ := List.cons.inj hMore
        exact absurd (hRest ▸ by simp) hBack
  · cases more with
    | nil => exact ⟨by simp, (List.cons.inj hMore).2.symm⟩
    | cons first more =>
        obtain ⟨-, hRest⟩ := List.cons.inj hMore
        exact absurd (hRest ▸ by simp) hBack'

theorem dash_not_mem_digits (second : Nat) : '-' ∉ Decimal.digits second := fun hDash =>
  absurd ((Decimal.isRun_digits second).2 '-' hDash) (by decide)

theorem name_eq_of_fileName_eq (h : a.fileName.toList = b.fileName.toList) : a.name = b.name := by
  rw [toList_fileName, toList_fileName] at h
  exact String.toList_inj.mp (List.append_cancel_right h)

/-- The name of a snapshot ends in a letter, and that of a file that was moved aside in a
digit. -/
theorem fileName_ne_asideName (second : Nat) : a.fileName.toList ≠ b.asideName second := by
  intro hSame
  obtain ⟨hNonempty, hDigits⟩ := Decimal.isRun_digits second
  have hLast := congrArg List.getLast? hSame
  rw [toList_fileName, asideName, List.getLast?_append, List.getLast?_append,
    List.getLast?_eq_some_getLast hNonempty] at hLast
  have hLetter : 'n' = (Decimal.digits second).getLast hNonempty := Option.some.inj hLast
  exact absurd (hLetter ▸ hDigits _ (List.getLast_mem hNonempty)) (by decide)

theorem asideName_inj {second second' : Nat}
    (h : a.asideName second = b.asideName second') : a.name = b.name ∧ second = second' := by
  have hDash : ∀ (c : Config) (second : Nat), c.asideName second =
      (c.fileName.toList ++ ['.', 'c', 'o', 'r', 'r', 'u', 'p', 't']) ++
        '-' :: Decimal.digits second := fun c second => by
    simp [asideName]
  rw [hDash, hDash] at h
  obtain ⟨hFront, hBack⟩ :=
    eq_of_append_dash (dash_not_mem_digits _) (dash_not_mem_digits _) h
  refine ⟨name_eq_of_fileName_eq (List.append_cancel_right hFront), ?_⟩
  rw [← Decimal.ofDigits_digits second, hBack, Decimal.ofDigits_digits]

/-- Only what is being prepared begins with a dot. -/
theorem head?_nameOf (h : isName c.name = true) (kind : FileKind) :
    (c.nameOf kind).head? = some '.' ↔ kind = .prepared := by
  obtain ⟨first, rest, hChars, hFirst, -⟩ := isName_iff.mp h
  cases kind with
  | snapshot => simp [nameOf, toList_fileName, hChars, hFirst]
  | prepared => simp [nameOf]
  | aside second => simp [nameOf, asideName, toList_fileName, hChars, hFirst]

/-- A name of a file tells the store and what the file is to it. -/
theorem nameOf_inj (ha : isName a.name = true) (hb : isName b.name = true)
    (h : a.nameOf kind = b.nameOf kind') : a.name = b.name ∧ kind = kind' := by
  have hDot : kind = .prepared ↔ kind' = .prepared := by
    rw [← head?_nameOf ha, ← head?_nameOf hb, h]
  cases kind with
  | prepared =>
      obtain rfl := hDot.mp rfl
      have hSame : a.fileName.toList ++ ['.', 't', 'm', 'p'] =
          b.fileName.toList ++ ['.', 't', 'm', 'p'] := (List.cons.inj h).2
      exact ⟨name_eq_of_fileName_eq (List.append_cancel_right hSame), rfl⟩
  | snapshot =>
      cases kind' with
      | snapshot => exact ⟨name_eq_of_fileName_eq h, rfl⟩
      | prepared => cases hDot.mpr rfl
      | aside second => exact absurd h (fileName_ne_asideName second)
  | aside second =>
      cases kind' with
      | snapshot => exact absurd h.symm (fileName_ne_asideName second)
      | prepared => cases hDot.mpr rfl
      | aside second' =>
          obtain ⟨hName, rfl⟩ := asideName_inj h
          exact ⟨hName, rfl⟩

theorem file_ne (hDirectory : a.directory = b.directory) (ha : isName a.name = true)
    (hb : isName b.name = true) (h : ¬ (a.name = b.name ∧ kind = kind')) :
    a.file kind ≠ b.file kind' :=
  (childOf_file hb kind').ne (hDirectory ▸ childOf_file ha kind) fun hName =>
    h (nameOf_inj ha hb hName)

/-! ### Requests -/

end Config

/-- The paths of the files that a request reads, writes, moves or removes. -/
def Request.files : Request → List Path
  | .read path | .startFile path | .append path _ | .remove path => [path]
  | .rename source target => [source, target]
  | _ => []

namespace Config

@[simp]
theorem owns_path (c : Config) : c.Owns c.path :=
  c.owns_file .snapshot

@[simp]
theorem owns_temp (c : Config) : c.Owns c.path.temp :=
  c.owns_file .prepared

@[simp]
theorem owns_quarantine (c : Config) (second : Nat) : c.Owns (c.path.quarantine second) :=
  c.owns_file (.aside second)

/-- The request is about the files of one store. The only directory that it may create
is that of the store. -/
def Asks (c : Config) (request : Request) : Prop :=
  (∀ p ∈ request.files, c.Owns p) ∧ ∀ p, request = .createDirectories p → p = c.directory

end Config

variable {c : Config} {d e : Disk}

theorem Snapshot.Replaces.asks {request : Request} (h : Replaces c.path request) :
    c.Asks request := by
  cases h with
  | prepare h => cases h <;> simp [Config.Asks, Request.files]
  | _ => simp [Config.Asks, Request.files]

theorem Store.Consults.asks {request : Request} (h : Consults c request) : c.Asks request := by
  cases h with
  | quarantine h => cases h <;> simp [Config.Asks, Request.files]
  | _ => simp [Config.Asks, Request.files]

namespace Store

theorem asks_open (c : Config) : AsksOnly c.Asks («open» c) :=
  (asksOnly_open c).mono fun _ => Consults.asks

theorem asks_save (s : Store) : AsksOnly s.config.Asks s.save := by
  rw [save_eq]
  refine ((Snapshot.asksOnly_replaceFile s.config.path _ _).mono
    fun _ => Snapshot.Replaces.asks).bind fun written => ?_
  cases written <;> exact asksOnly_pure _

theorem asks_saveDirty (s : Store) : AsksOnly s.config.Asks s.saveDirty := by
  unfold saveDirty
  split_ifs
  · exact asks_save s
  · exact asksOnly_pure _

theorem asks_release (s : Store) : AsksOnly s.config.Asks s.release :=
  (asks_saveDirty s).bind fun _ => asksOnly_pure _

end Store

theorem Operation.asks_perform {α : Type} (operation : Operation α) (s : Store) :
    AsksOnly s.config.Asks (operation.perform s) := by
  cases operation with
  | execute command =>
      by_cases hSave : command = .save
      · subst hSave
        exact (Store.asks_save s).bind fun _ => asksOnly_pure _
      · rw [perform, execute_eq hSave]
        exact asksOnly_pure _
  | _ => exact asksOnly_pure _

/-! ### What changes -/

/-- What happens to the files of one store is not seen at the path of another one. -/
theorem Config.read_eq_of_onlyFiles {a b : Config} (hDirectory : a.directory = b.directory)
    (ha : isName a.name = true) (hb : isName b.name = true) (hNames : a.name ≠ b.name)
    (h : OnlyFiles a.Owns d e) : e.read b.path = d.read b.path := by
  refine h.read_eq_of_childOf (childOf_file hb .snapshot) ?_
  rintro p ⟨kind, rfl⟩
  exact ⟨_, hDirectory ▸ childOf_file ha kind,
    fun hSame => hNames (nameOf_inj hb ha hSame).1.symm⟩

namespace Snapshot

theorem onlyFiles_of_reaches_replaceFile {content : ByteArray} {durable : Bool}
    (h : Reaches (replaceFile c.path content durable) d e) : OnlyFiles c.Owns d e := by
  rcases reaches_replaceFile_cases h with hOnly | ⟨middle, hBefore, hRead, hRenamed⟩
  · exact hOnly.onlyFiles c.owns_temp
  · exact (hBefore.onlyFiles c.owns_temp).trans
      (onlyFiles_of_rename c.owns_temp c.owns_path hRenamed hRead)

theorem eq_of_reaches_load {path : Path} (h : Reaches (load path) d e) : e = d := by
  rw [load_eq] at h
  rcases (h.of_bind_pure fun _ => ⟨_, rfl⟩).request_inv with rfl | ⟨found, hFound⟩
  · rfl
  · exact hFound.read.1

theorem onlyFile_of_reaches_removeStale {path : Path} (h : Reaches (removeStale path) d e) :
    OnlyFile path.temp d e := by
  rw [removeStale_eq] at h
  rcases (h.of_bind_pure fun _ => ⟨_, rfl⟩).request_inv with rfl | ⟨removed, hRemoved⟩
  · exact OnlyFile.refl _ _
  · exact hRemoved.onlyFile_remove

/-- What is moved aside is a file of the store, and so is what it becomes. -/
theorem onlyFiles_of_reaches_quarantine {content : ByteArray}
    (h : Reaches (quarantine c.path) d e) (hRead : d.read c.path = .ok content) :
    OnlyFiles c.Owns d e := by
  rcases h.bind_inv with hClock | ⟨_, clock, middle, hClock, hRest⟩
  · rcases hClock.request_inv with rfl | ⟨clock, hClock⟩
    · exact .refl
    · rw [hClock.clock]
      exact .refl
  obtain rfl := hClock.request_inv.1.clock
  have hRename := hRest.of_bind_pure fun renamed => by cases renamed <;> exact ⟨_, rfl⟩
  rcases hRename.request_inv with rfl | ⟨renamed, hRenamed⟩
  · exact .refl
  cases renamed with
  | error fault =>
      rw [hRenamed.rename_error]
      exact .refl
  | ok _ => exact onlyFiles_of_rename c.owns_path (c.owns_quarantine _) hRenamed.rename_ok hRead

end Snapshot

namespace Store

theorem onlyFiles_of_reaches_recover {error : StoreError} {content : ByteArray}
    (h : Reaches (recover c error) d e) (hRead : d.read c.path = .ok content) :
    OnlyFiles c.Owns d e := by
  unfold recover at h
  cases hPolicy : c.onCorrupt with
  | fail =>
      rw [hPolicy] at h
      rw [h.pure_inv]
      exact .refl
  | startFresh =>
      rw [hPolicy] at h
      have hMove := h.of_bind_pure fun moved => by cases moved <;> exact ⟨_, rfl⟩
      exact Snapshot.onlyFiles_of_reaches_quarantine hMove hRead

theorem onlyFiles_of_reaches_initial (h : Reaches (initial c) d e) : OnlyFiles c.Owns d e := by
  rcases h.bind_inv with hLoad | ⟨_, loaded, middle, hLoad, hRest⟩
  · rw [Snapshot.eq_of_reaches_load hLoad]
    exact .refl
  obtain ⟨rfl, hHolds⟩ := Snapshot.eq_of_runs_load hLoad
  cases loaded with
  | ok found =>
      have hSame : e = middle := by cases found <;> exact hRest.pure_inv
      rw [hSame]
      exact .refl
  | error error =>
      cases error with
      | corrupt path reason =>
          obtain ⟨content, hRead, -⟩ := hHolds
          exact onlyFiles_of_reaches_recover hRest hRead
      | _ =>
          rw [hRest.pure_inv]
          exact .refl

/-- Opening creates the directory first. After that only files of the store change. -/
theorem onlyFiles_of_reaches_open (h : Reaches («open» c) d e) :
    ∃ created, (created = d ∨ created = (d.createDirectories c.directory).2) ∧
      OnlyFiles c.Owns created e := by
  have hCreated : ∀ answer f, d.Responds (.createDirectories c.directory) answer f →
      f = d ∨ f = (d.createDirectories c.directory).2 := by
    rintro answer f (⟨second, hAnswer⟩ | ⟨fault, -, -, hLeft⟩)
    · exact Or.inr (congrArg Prod.snd hAnswer).symm
    · exact Or.inl hLeft
  unfold «open» at h
  cases hCheck : c.check with
  | error fault =>
      rw [hCheck] at h
      exact ⟨e, Or.inl h.pure_inv, .refl⟩
  | ok _ =>
      rw [hCheck] at h
      rcases h.bind_inv with hCreate | ⟨_, answer, created, hCreate, hRest⟩
      · rcases hCreate.request_inv with hSame | ⟨answer, hAnswer⟩
        · exact ⟨e, Or.inl hSame, .refl⟩
        · exact ⟨e, hCreated answer e hAnswer, .refl⟩
      refine ⟨created, hCreated answer created hCreate.request_inv.1, ?_⟩
      cases answer with
      | error fault =>
          rw [hRest.pure_inv]
          exact .refl
      | ok _ =>
          rcases hRest.bind_inv with hRemove | ⟨_, removed, middle, hRemove, hRest⟩
          · exact (Snapshot.onlyFile_of_reaches_removeStale hRemove).onlyFiles c.owns_temp
          have hRemoved := (Snapshot.onlyFile_of_reaches_removeStale hRemove.reaches).onlyFiles
            c.owns_temp
          suffices hLast : OnlyFiles c.Owns middle e from hRemoved.trans hLast
          cases removed with
          | error fault =>
              rw [hRest.pure_inv]
              exact .refl
          | ok _ =>
              have hInitial := hRest.of_bind_pure fun data => by cases data <;> exact ⟨_, rfl⟩
              exact onlyFiles_of_reaches_initial hInitial

theorem onlyFiles_of_reaches_save {s : Store} (h : Reaches s.save d e) :
    OnlyFiles s.config.Owns d e := by
  rw [save_eq] at h
  have hWrite := h.of_bind_pure fun written => by cases written <;> exact ⟨_, rfl⟩
  exact Snapshot.onlyFiles_of_reaches_replaceFile hWrite

theorem onlyFiles_of_reaches_release {s : Store} (h : Reaches s.release d e) :
    OnlyFiles s.config.Owns d e := by
  have hSave : Reaches s.saveDirty d e := h.of_bind_pure fun _ => ⟨_, rfl⟩
  unfold saveDirty at hSave
  split_ifs at hSave
  · exact onlyFiles_of_reaches_save hSave
  · rw [hSave.pure_inv]
    exact .refl

end Store

theorem Operation.onlyFiles_of_reaches_perform {α : Type} {operation : Operation α} {s : Store}
    (h : Reaches (operation.perform s) d e) : OnlyFiles s.config.Owns d e := by
  cases operation with
  | execute command =>
      by_cases hSave : command = .save
      · subst hSave
        exact Store.onlyFiles_of_reaches_save (h.of_bind_pure fun _ => ⟨_, rfl⟩)
      · rw [perform, execute_eq hSave] at h
        rw [h.pure_inv]
        exact .refl
  | _ =>
      rw [Reaches.pure_inv h]
      exact .refl

end SnapshotStore
