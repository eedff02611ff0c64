import SnapshotStore.Disk.Program

/-! Programs on a disk that may fail. Every request may be refused, an append
may break off in the middle, and a program may be stopped for good between any
two requests. A rename happens as a whole or not at all. Nothing is assumed
about which of these occur, so what holds of every run here holds of the run on
a disk without failures too. What a request has done is not undone later: a
program is stopped, but the machine does not lose what it was told to write. -/
namespace SnapshotStore

namespace Disk

/-- What a request that failed may leave of the disk. An append may have
written any number of its bytes; every other request leaves the disk alone. -/
def Leaves (d e : Disk) : Request → Prop
  | .append path content => e = d ∨ ∃ written, d.append path (content.extract 0 written) = .ok e
  | _ => e = d

/-- The responses of a disk that may fail: the one it should give, at whatever
second the clock shows, or a fault. A disk that fails does not call missing
what is there. -/
inductive Responds (d : Disk) (request : Request) (answer : Except Fault request.Answer)
    (e : Disk) : Prop where
  | answered (second : Nat) (h : d.answer second request = (answer, e))
  | failed (fault : Fault) (h : answer = .error fault) (hFault : fault ≠ .notFound)
      (left : d.Leaves e request)

variable {d e : Disk} {path source target : Path} {content : ByteArray} {fault : Fault}

theorem change_eq_ok {changed : Except Fault Disk} (h : d.change changed = (.ok (), e)) :
    changed = .ok e := by
  cases changed with
  | error fault => simp [change] at h
  | ok c =>
      simp only [change, Prod.mk.injEq, true_and] at h
      rw [h]

theorem change_eq_error {changed : Except Fault Disk}
    (h : d.change changed = (.error fault, e)) : e = d := by
  cases changed with
  | error fault =>
      simp only [change, Prod.mk.injEq] at h
      exact h.2.symm
  | ok c => simp [change] at h

/-! ### What a response tells -/

theorem Responds.startFile_ok (h : d.Responds (.startFile path) (.ok ()) e) :
    d.write path ByteArray.empty = .ok e := by
  cases h with
  | answered second h => exact change_eq_ok h
  | failed fault h => cases h

theorem Responds.startFile_error (h : d.Responds (.startFile path) (.error fault) e) : e = d := by
  cases h with
  | answered second h => exact change_eq_error h
  | failed fault h hFault left => exact left

theorem Responds.append_ok (h : d.Responds (.append path content) (.ok ()) e) :
    d.append path content = .ok e := by
  cases h with
  | answered second h => exact change_eq_ok h
  | failed fault h => cases h

/-- A failed append has written some of its bytes, if it has changed anything. -/
theorem Responds.append_error (h : d.Responds (.append path content) (.error fault) e) :
    e = d ∨ ∃ written, d.append path (content.extract 0 written) = .ok e := by
  cases h with
  | answered second h => exact Or.inl (change_eq_error h)
  | failed fault h hFault left => exact left

theorem Responds.settle {answer : Except Fault Unit} (h : d.Responds (.settle path) answer e) :
    e = d := by
  cases h with
  | answered second h => exact (congrArg Prod.snd h).symm
  | failed fault h hFault left => exact left

theorem Responds.rename_ok (h : d.Responds (.rename source target) (.ok ()) e) :
    d.rename source target = .ok e := by
  cases h with
  | answered second h => exact change_eq_ok h
  | failed fault h => cases h

theorem Responds.rename_error (h : d.Responds (.rename source target) (.error fault) e) :
    e = d := by
  cases h with
  | answered second h => exact change_eq_error h
  | failed fault h hFault left => exact left

theorem Responds.remove_ok (h : d.Responds (.remove path) (.ok ()) e) : d.remove path = .ok e := by
  cases h with
  | answered second h => exact change_eq_ok h
  | failed fault h => cases h

theorem Responds.remove_error (h : d.Responds (.remove path) (.error fault) e) : e = d := by
  cases h with
  | answered second h => exact change_eq_error h
  | failed fault h hFault left => exact left

theorem Responds.remove_notFound (h : d.Responds (.remove path) (.error .notFound) e) :
    d.remove path = .error .notFound := by
  cases h with
  | answered second h =>
      cases hRemove : d.remove path with
      | error fault =>
          simp only [answer, change, hRemove, Prod.mk.injEq, Except.error.injEq] at h
          rw [h.1]
      | ok c => simp [answer, change, hRemove] at h
  | failed fault h hFault => exact absurd (Except.error.inj h).symm hFault

/-- A file is read as it is, or not at all. -/
theorem Responds.read {read : Except Fault ByteArray} (h : d.Responds (.read path) read e) :
    e = d ∧ (d.read path = read ∨ ∃ fault, read = .error fault ∧ fault ≠ .notFound) := by
  cases h with
  | answered second h =>
      obtain ⟨hRead, hDisk⟩ := Prod.mk.inj h
      exact ⟨hDisk.symm, Or.inl hRead⟩
  | failed fault h hFault left => exact ⟨left, Or.inr ⟨fault, h, hFault⟩⟩

theorem Responds.clock {second : Except Fault Nat} (h : d.Responds .clock second e) : e = d := by
  cases h with
  | answered second h => exact (congrArg Prod.snd h).symm
  | failed fault h hFault left => exact left

theorem Responds.createDirectories_ok (h : d.Responds (.createDirectories path) (.ok ()) e) :
    d.createDirectories path = (.ok (), e) := by
  cases h with
  | answered second h => exact h
  | failed fault h => cases h

end Disk

/-! ### Runs -/

/-- A request that was made, and whether it succeeded. -/
structure Event where
  request : Request
  done : Bool

namespace Program

variable {α β : Type} {p : Program α} {f : α → Program β} {request : Request}
  {d e : Disk} {trace : List Event} {value : α} {result : β}

/-- The program ends in this value on a disk that may fail, after these events. -/
inductive Runs : Program α → Disk → List Event → α → Disk → Prop where
  | done (value : α) (d : Disk) : Runs (.done value) d [] value d
  | ask {request : Request} {next : Except Disk.Fault request.Answer → Program α}
      {d e c : Disk} {answer : Except Disk.Fault request.Answer} {trace : List Event} {value : α}
      (first : d.Responds request answer e) (rest : Runs (next answer) e trace value c) :
      Runs (.ask request next) d (⟨request, answer.isOk⟩ :: trace) value c

/-- The program comes past this disk: should it be stopped there, this is the
disk that it leaves. -/
inductive Reaches : Program α → Disk → Disk → Prop where
  | here (p : Program α) (d : Disk) : Reaches p d d
  | ask {request : Request} {next : Except Disk.Fault request.Answer → Program α}
      {d e c : Disk} {answer : Except Disk.Fault request.Answer}
      (first : d.Responds request answer e) (rest : Reaches (next answer) e c) :
      Reaches (.ask request next) d c

theorem Runs.pure_inv {ended : α} (h : Runs (pure value) d trace ended e) :
    trace = [] ∧ ended = value ∧ e = d := by
  cases h with
  | done => exact ⟨rfl, rfl, rfl⟩

theorem Runs.request_inv {answer : Except Disk.Fault request.Answer}
    (h : Runs (Program.request request) d trace answer e) :
    d.Responds request answer e ∧ trace = [⟨request, answer.isOk⟩] := by
  cases h with
  | ask first rest =>
      cases rest with
      | done => exact ⟨first, rfl⟩

/-- A run of two programs in a row is a run of the first and then one of the
second. -/
theorem Runs.bind_inv (h : Runs (p >>= f) d trace result e) :
    ∃ before after middle c, trace = before ++ after ∧ Runs p d before middle c ∧
      Runs (f middle) c after result e := by
  induction p generalizing d trace with
  | done middle => exact ⟨[], trace, middle, d, rfl, .done middle d, h⟩
  | ask request next ih =>
      cases h with
      | ask first rest =>
          obtain ⟨before, after, middle, c, rfl, hFirst, hSecond⟩ := ih _ rest
          exact ⟨_ :: before, after, middle, c, rfl, .ask first hFirst, hSecond⟩

theorem Runs.bind {before after : List Event} {middle : α} {c : Disk} (h : Runs p d before middle c)
    (hNext : Runs (f middle) c after result e) : Runs (p >>= f) d (before ++ after) result e := by
  induction h with
  | done middle d => exact hNext
  | ask first rest ih => exact .ask first (ih hNext)

theorem Reaches.pure_inv (h : Reaches (pure value) d e) : e = d := by
  cases h with
  | here => rfl

theorem Reaches.request_inv (h : Reaches (Program.request request) d e) :
    e = d ∨ ∃ answer, d.Responds request answer e := by
  cases h with
  | here => exact Or.inl rfl
  | ask first rest =>
      cases rest with
      | here => exact Or.inr ⟨_, first⟩

/-- Two programs in a row come past what the first comes past, and past what the
second does from where the first has ended. -/
theorem Reaches.bind_inv (h : Reaches (p >>= f) d e) :
    Reaches p d e ∨ ∃ trace middle c, Runs p d trace middle c ∧ Reaches (f middle) c e := by
  induction p generalizing d with
  | done middle => exact Or.inr ⟨[], middle, d, .done middle d, h⟩
  | ask request next ih =>
      cases h with
      | here => exact Or.inl (.here _ _)
      | ask first rest =>
          rcases ih _ rest with hFirst | ⟨trace, middle, c, hFirst, hSecond⟩
          · exact Or.inl (.ask first hFirst)
          · exact Or.inr ⟨_, middle, c, .ask first hFirst, hSecond⟩

/-- Where a run ends is a disk that it comes past. -/
theorem Runs.reaches (h : Runs p d trace value e) : Reaches p d e := by
  induction h with
  | done value d => exact .here _ d
  | ask first rest ih => exact .ask first ih

/-- Where a program only returns something after another one, it comes past nothing more. -/
theorem Reaches.of_bind_pure (h : Reaches (p >>= f) d e)
    (hPure : ∀ middle, ∃ result, f middle = pure result) : Reaches p d e := by
  rcases h.bind_inv with hFirst | ⟨trace, middle, c, hFirst, hReturn⟩
  · exact hFirst
  · obtain ⟨result, hResult⟩ := hPure middle
    rw [hResult] at hReturn
    rw [hReturn.pure_inv]
    exact hFirst.reaches

/-! ### What a program asks for -/

/-- Every request that the program can make, whatever it is answered, is of
this sort. -/
def AsksOnly (sort : Request → Prop) : Program α → Prop
  | .done _ => True
  | .ask request next => sort request ∧ ∀ answer, AsksOnly sort (next answer)

variable {sort : Request → Prop}

theorem asksOnly_pure (value : α) : AsksOnly sort (pure value) :=
  trivial

theorem asksOnly_request (h : sort request) : AsksOnly sort (Program.request request) :=
  ⟨h, fun _ => trivial⟩

theorem AsksOnly.bind (h : AsksOnly sort p) (hNext : ∀ value, AsksOnly sort (f value)) :
    AsksOnly sort (p >>= f) := by
  induction p with
  | done value => exact hNext value
  | ask request next ih => exact ⟨h.1, fun answer => ih answer (h.2 answer)⟩

/-- Requests of one sort are of every sort that takes them in. -/
theorem AsksOnly.mono {wider : Request → Prop} (h : AsksOnly sort p)
    (hSort : ∀ request, sort request → wider request) : AsksOnly wider p := by
  induction p with
  | done value => trivial
  | ask request next ih => exact ⟨hSort request h.1, fun answer => ih answer (h.2 answer)⟩

theorem Runs.request_of_mem (h : Runs p d trace value e) (hAsks : AsksOnly sort p) :
    ∀ event ∈ trace, sort event.request := by
  induction h with
  | done value d => simp
  | ask first rest ih =>
      intro event hEvent
      rcases List.mem_cons.mp hEvent with rfl | hEvent
      · exact hAsks.1
      · exact ih (hAsks.2 _) event hEvent

/-- A request that is only to make sure of what has been written. -/
def Request.Settles (request : Request) : Prop :=
  ∃ path, request = .settle path

/-- A program that only waits for the disk to settle does not change it. -/
theorem Reaches.eq_of_settles (h : Reaches p d e) (hAsks : AsksOnly Request.Settles p) :
    e = d := by
  induction h with
  | here p d => rfl
  | ask first rest ih =>
      obtain ⟨⟨path, rfl⟩, hNext⟩ := hAsks
      rw [ih (hNext _), first.settle]

/-! ### Runs without failures -/

@[simp]
theorem run_pure (second : Nat) (value : α) (d : Disk) :
    (pure value : Program α).run second d = (value, d) :=
  rfl

@[simp]
theorem run_bind (second : Nat) (p : Program α) (f : α → Program β) (d : Disk) :
    (p >>= f).run second d = (f (p.run second d).1).run second (p.run second d).2 := by
  induction p generalizing d with
  | done value => rfl
  | ask request next ih => exact ih _ _

theorem run_request_bind (second : Nat) (request : Request)
    (f : Except Disk.Fault request.Answer → Program β) (d : Disk) :
    (Program.request request >>= f).run second d =
      (f (d.answer second request).1).run second (d.answer second request).2 :=
  rfl

/-- The run on a disk that does not fail is one of them. -/
theorem exists_runs (second : Nat) (p : Program α) (d : Disk) :
    ∃ trace, Runs p d trace (p.run second d).1 (p.run second d).2 := by
  induction p generalizing d with
  | done value => exact ⟨[], .done value d⟩
  | ask request next ih =>
      obtain ⟨trace, hRest⟩ := ih (d.answer second request).1 (d.answer second request).2
      exact ⟨_, .ask (.answered second rfl) hRest⟩

theorem runs_of_run {second : Nat} (h : p.run second d = (value, e)) :
    ∃ trace, Runs p d trace value e := by
  obtain ⟨trace, hRuns⟩ := exists_runs second p d
  rw [h] at hRuns
  exact ⟨trace, hRuns⟩

end Program

end SnapshotStore
