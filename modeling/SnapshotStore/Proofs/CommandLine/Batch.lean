import Mathlib.Data.List.ReduceOption
import SnapshotStore.Proofs.CommandLine.Lines
import SnapshotStore.Proofs.Store.Keeping

/-! Batches: which lines of the input are carried out, what they print, and how the
store is let go, with what the successful ones have made of its content in its file. -/
namespace SnapshotStore.CommandLine

open Disk Program

/-! ### What a batch reads and prints -/

theorem toList_loop (bytes : ByteArray) (i : Nat) (front : List UInt8) :
    ByteArray.toList.loop bytes i front = front.reverse ++ bytes.data.toList.drop i := by
  fun_induction ByteArray.toList.loop bytes i front with
  | case1 i front hIndex ih =>
      have hLength : i < bytes.data.toList.length := hIndex
      have hByte : bytes.get! i = bytes.data.toList[i] := getElem!_pos bytes.data i hIndex
      rw [ih, List.drop_eq_getElem_cons hLength, hByte]
      simp
  | case2 i front hIndex =>
      have hLength : bytes.data.toList.length ≤ i := Nat.le_of_not_lt hIndex
      rw [List.drop_eq_nil_of_le hLength, List.append_nil]

theorem toList_eq (bytes : ByteArray) : bytes.toList = bytes.data.toList := by
  rw [ByteArray.toList, toList_loop, List.reverse_nil, List.nil_append, List.drop_zero]

/-- The lines with a command text, numbered among all lines. -/
def numbered (number : Nat) (lines : List String) : List (Nat × String) :=
  (lines.zipIdx number).filterMap fun (line, number) => (commandText? line).map (number, ·)

/-- The lines of an input up to the first one that is not text. -/
def textLines (input : ByteArray) : List String :=
  (((splitLines input.toList).map lineText?).takeWhile Option.isSome).reduceOption

/-- There is a line that is not text. -/
def HasUnreadable (input : ByteArray) : Prop :=
  none ∈ (splitLines input.toList).map lineText?

theorem readLines_fst (lines : List (List UInt8)) :
    (readLines lines).1 = ((lines.map lineText?).takeWhile Option.isSome).reduceOption := by
  induction lines with
  | nil => rfl
  | cons line rest ih =>
      cases hText : lineText? line with
      | none => simp [readLines, hText]
      | some text => simp [readLines, hText, ih]

theorem readLines_snd (lines : List (List UInt8)) :
    (readLines lines).2 = true ↔ none ∈ lines.map lineText? := by
  induction lines with
  | nil => simp [readLines]
  | cons line rest ih =>
      cases hText : lineText? line with
      | none => simp [readLines, hText]
      | some text => simpa [readLines, hText] using ih

def Entry.output (x : Entry) : String :=
  lineOutput x.number x.outcome

section Lines

variable {p q : Progress} {number : Nat} {d e : Disk} {trace : List Event}

theorem numbered_cons (number : Nat) (line : String) (rest : List String) :
    numbered number (line :: rest) =
      ((commandText? line).map (number, ·)).toList ++ numbered (number + 1) rest := by
  unfold numbered
  cases hText : commandText? line <;> simp [hText]

theorem runs_runLine {line : String} (h : Runs (runLine p number line) d trace q e) :
    (commandText? line = none ∧ trace = [] ∧ q = p ∧ e = d) ∨
    ∃ text outcome store, commandText? line = some text ∧
      Runs (executeText p.store text) d trace (outcome, store) e ∧
      q = ⟨store, p.output ++ lineOutput number outcome,
        if outcome matches .error _ then p.failed + 1 else p.failed⟩ := by
  unfold runLine at h
  cases hText : commandText? line with
  | none =>
      rw [hText] at h
      obtain ⟨rfl, rfl, rfl⟩ := h.pure_inv
      exact Or.inl ⟨rfl, rfl, rfl, rfl⟩
  | some text =>
      rw [hText] at h
      obtain ⟨_, _, ⟨outcome, store⟩, c, rfl, hExecute, hReturn⟩ := h.bind_inv
      obtain ⟨rfl, rfl, rfl⟩ := hReturn.pure_inv
      rw [List.append_nil]
      exact Or.inr ⟨text, outcome, store, rfl, hExecute, rfl⟩

/-- The lines with a command text are carried out in order. Each prints what it has
come to, and those that fail are counted. -/
theorem runs_runLines {lines : List String} (h : Runs (runLines p number lines) d trace q e) :
    ∃ log, CarriesOut p.store d trace log q.store e ∧
      log.map (fun x => (x.number, x.text)) = numbered number lines ∧
      q.output = p.output ++ String.join (log.map Entry.output) ∧
      (q.failed = 0 ↔ p.failed = 0 ∧ ∀ x ∈ log, ¬ x.Failed) := by
  induction lines generalizing p number d trace with
  | nil =>
      obtain ⟨rfl, rfl, rfl⟩ := h.pure_inv
      exact ⟨[], .done _ _, rfl, by simp [String.join], by simp⟩
  | cons line rest ih =>
      obtain ⟨before, after, middle, c, rfl, hLine, hRest⟩ := h.bind_inv
      obtain ⟨log, hCarries, hNumbers, hOutput, hFailed⟩ := ih hRest
      rcases runs_runLine hLine with ⟨hText, rfl, rfl, rfl⟩ |
        ⟨text, outcome, store, hText, hExecute, rfl⟩
      · exact ⟨log, hCarries, by simpa [numbered_cons, hText] using hNumbers, hOutput, hFailed⟩
      · refine ⟨⟨number, text, p.store, outcome, store⟩ :: log, .line hExecute hCarries, ?_, ?_, ?_⟩
        · simp [numbered_cons, hText, hNumbers]
        · rw [hOutput]
          simp [String.join_cons, Entry.output, String.append_assoc]
        · rw [hFailed]
          cases outcome with
          | error error => simp [Entry.Failed]
          | ok reply => simp [Entry.Failed]

end Lines

/-! ### Letting go -/

/-- A store has been let go: nothing was asked of the disk if nothing was unsaved, and
unless a write was refused, the content that was in the file or unsaved is in the file. -/
structure LetGo (s : Store) (d : Disk) (trace : List Event) (e : Disk) : Prop where
  kept : s.isDirty = false → trace = [] ∧ e = d
  read : Backed s d → Snapshot.WritesSucceed s.path trace →
    e.read s.path = .ok (Snapshot.content s.config.layout s.data)

section LetGo

variable {s : Store} {d e : Disk} {trace : List Event}

theorem letGo_of_runs_release {u : Unit} (h : Runs s.release d trace u e) : LetGo s d trace e where
  kept hClean := Store.runs_release_of_not_isDirty hClean h
  read hBacked hSucceed := by
    have hReleased := Store.released_of_runs h
    cases hDirty : s.isDirty with
    | false => exact (hReleased.kept (Or.inl hDirty)).trans (hBacked hDirty)
    | true => exact hReleased.written hDirty hSucceed

/-- A run that ends with a last save reports the given error, or that the save failed. -/
theorem runs_finish {output : String} {error : Option StoreError} {report : Report}
    (h : Runs (finish s output error) d trace report e) :
    LetGo s d trace e ∧ report.output = output ∧
      (report.error = none ↔ error = none ∧ Snapshot.WritesSucceed s.path trace) := by
  obtain ⟨before, _, ⟨outcome, left⟩, c, rfl, hSave, hRest⟩ := h.bind_inv
  obtain ⟨after, _, _, c', rfl, hRelease, hReturn⟩ := hRest.bind_inv
  cases hDirty : s.isDirty with
  | false =>
      rw [Store.saveDirty, hDirty] at hSave
      obtain ⟨rfl, hResult, rfl⟩ := hSave.pure_inv
      obtain ⟨rfl, rfl⟩ := Prod.mk.inj hResult
      obtain ⟨rfl, rfl, rfl⟩ := hReturn.pure_inv
      obtain ⟨rfl, rfl⟩ := Store.runs_release_of_not_isDirty hDirty hRelease
      exact ⟨⟨fun _ => ⟨rfl, rfl⟩, fun hBacked _ => hBacked hDirty⟩, rfl,
        by simp [Snapshot.writesSucceed_nil]⟩
  | true =>
      rw [Store.saveDirty, if_pos hDirty] at hSave
      have hWrites := Store.runs_save_iff hSave
      rw [Snapshot.writesSucceed_append, hWrites]
      cases outcome with
      | error failure =>
          obtain ⟨rfl, rfl, rfl⟩ := hReturn.pure_inv
          refine ⟨⟨by simp [hDirty], fun _ hSucceed => ?_⟩, rfl, by simp⟩
          cases hWrites.mp (Snapshot.writesSucceed_append.mp hSucceed).1
      | ok _ =>
          obtain ⟨rfl, rfl, rfl⟩ := hReturn.pure_inv
          obtain ⟨rfl, hReplaced⟩ := Store.runs_save_ok hSave
          -- what has just been saved is not saved again
          obtain ⟨rfl, rfl⟩ := Store.runs_release_of_not_isDirty (s := s.publish s.copy)
            (by simp [Store.isDirty, Store.publish, Store.copy]) hRelease
          refine ⟨⟨by simp [hDirty], fun _ _ => hReplaced.read⟩, rfl, ?_⟩
          simp [Snapshot.writesSucceed_nil]

end LetGo

/-! ### Batches -/

/-- What a batch on an open store comes to. `log` lists the lines that it has carried
out, and `last` is the store behind the last one of them. -/
structure Applies (s : Store) (input : ByteArray) (d : Disk) (trace : List Event)
    (log : List Entry) (last : Store) (report : Report) (e : Disk) : Prop where
  lines : log.map (fun x => (x.number, x.text)) = numbered 1 (textLines input)
  order : ∃ before after c, trace = before ++ after ∧ CarriesOut s d before log last c
  failed : ∀ x ∈ log, x.Failed → x.after = x.before
  content : last.data = (log.filterMap Entry.command?).foldl Command.apply s.data
  output : report.output = String.join (log.map Entry.output)
  saved : (∃ x ∈ log, x.Writes) → Snapshot.WritesSucceed s.path trace →
    e.read s.path = .ok (Snapshot.content s.config.layout last.data)
  untouched : (∀ x ∈ log, ¬ x.Writes) → trace = [] ∧ e = d
  exitCode : report.exitCode = 0 ↔
    (∀ x ∈ log, ¬ x.Failed) ∧ ¬ HasUnreadable input ∧ Snapshot.WritesSucceed s.path trace

section Applies

variable {s last : Store} {input : ByteArray} {d c e : Disk} {before after trace : List Event}
  {log : List Entry} {report : Report}

theorem Report.exitCode_eq_zero {r : Report} : r.exitCode = 0 ↔ r.error = none := by
  unfold exitCode
  cases r.error <;> simp

/-- The lines, and then letting go: what is left to know is what the report says. -/
theorem applies_of_letGo (hClean : s.isDirty = false)
    (hLines : log.map (fun x => (x.number, x.text)) = numbered 1 (textLines input))
    (hCarries : CarriesOut s d before log last c) (hLetGo : LetGo last c after e)
    (hOutput : report.output = String.join (log.map Entry.output))
    (hError : report.error = none ↔ (∀ x ∈ log, ¬ x.Failed) ∧ ¬ HasUnreadable input ∧
      Snapshot.WritesSucceed last.path after) :
    Applies s input d (before ++ after) log last report e := by
  have hConfig := hCarries.config
  have hPath : last.path = s.path := congrArg Config.path hConfig
  have hCounters : s.generation = s.savedGeneration := by simpa [Store.isDirty] using hClean
  refine ⟨hLines, ⟨before, after, c, rfl, hCarries⟩, hCarries.eq_of_failed, hCarries.data, hOutput,
    fun hWrites hSucceed => ?_, fun hWrites => ?_, ?_⟩
  · obtain ⟨hBefore, hAfter⟩ := Snapshot.writesSucceed_append.mp hSucceed
    have hBacked := hCarries.backed hCounters.ge (Or.inr hWrites) hBefore
    rw [← hPath] at hAfter ⊢
    rw [← hConfig]
    exact hLetGo.read hBacked hAfter
  · obtain ⟨rfl, rfl, rfl⟩ := hCarries.kept hWrites
    exact hLetGo.kept hClean
  · rw [Report.exitCode_eq_zero, hError, Snapshot.writesSucceed_append, hPath]
    refine and_congr_right fun hLog => and_congr_right fun _ => ?_
    exact ⟨fun hAfter => ⟨hCarries.writesSucceed hLog, hAfter⟩, And.right⟩

/-- A batch that stops at a line which is not text, one in which a command has failed,
and one that ends well let the store go in three ways, all with its last content. -/
theorem applies_of_runs_runBatch (hClean : s.isDirty = false)
    (h : Runs (runBatch s input) d trace report e) :
    ∃ log last, Applies s input d trace log last report e := by
  have hStopped : (readLines (splitLines input.toList)).2 = true ↔ HasUnreadable input :=
    readLines_snd _
  obtain ⟨before, _, p, c, rfl, hLines, hRest⟩ := h.bind_inv
  obtain ⟨log, hCarries, hNumbers, hOutput, hFailed⟩ := runs_runLines hLines
  rw [readLines_fst] at hNumbers
  simp only [String.empty_append, true_and] at hOutput hFailed
  refine ⟨log, p.store, ?_⟩
  split_ifs at hRest with hEnd hCount
  · obtain ⟨after, _, _, c', rfl, hRelease, hReturn⟩ := hRest.bind_inv
    obtain ⟨rfl, rfl, rfl⟩ := hReturn.pure_inv
    rw [List.append_nil]
    refine applies_of_letGo hClean hNumbers hCarries (letGo_of_runs_release hRelease) hOutput ?_
    simp [hStopped.mp hEnd]
  · obtain ⟨hLetGo, hPrinted, hError⟩ := runs_finish hRest
    refine applies_of_letGo hClean hNumbers hCarries hLetGo (hPrinted.trans hOutput) ?_
    rw [hError, ← hFailed]
    simp [hCount.ne']
  · obtain ⟨hLetGo, hPrinted, hError⟩ := runs_finish hRest
    refine applies_of_letGo hClean hNumbers hCarries hLetGo (hPrinted.trans hOutput) ?_
    rw [hError, ← hFailed, ← hStopped]
    simp [hEnd, Nat.eq_zero_of_not_pos hCount]

end Applies

/-- A batch applies exactly the lines that succeed. If the store does not open, that is
what is reported. Otherwise the lines with a command text, up to the first line that is
not text, are carried out in order and under their numbers among all lines. A line that
fails leaves the store as it was; the others make the content what it is in the end, and
each prints its reply or its error. Unless a write is refused, the file then holds this
content if a line has changed the store or was to save it, however the batch ended; and
if no line was and did, the disk is as it was when the store had opened, which has not
touched a file that is a snapshot and has created none. The exit code is zero if and only
if no line failed, all lines are text, and no write was refused. -/
theorem applies_of_runs {i : Invocation} {input : ByteArray} {d e : Disk} {trace : List Event}
    {report : Report} (hBatch : i.action = .batch) (h : Runs (i.run input) d trace report e) :
    (∃ error, Runs (Store.open i.config) d trace (.error error) e ∧ report = ⟨"", some error⟩) ∨
    ∃ data created ready c before after log last, trace = before ++ after ∧
      Runs (Store.open i.config) d before (.ok (.opened i.config data)) c ∧
      Store.Ready i.config d created ready ∧
      Store.Opens i.config ready (created.read i.config.path) (.ok (.opened i.config data)) c ∧
      ((Snapshot.loaded? (created.read i.config.path)).isSome →
        c.read i.config.path = created.read i.config.path) ∧
      Applies (.opened i.config data) input c after log last report e := by
  obtain ⟨before, after, opened, c, rfl, hOpen, hRest⟩ := h.bind_inv
  cases opened with
  | error error =>
      obtain ⟨rfl, rfl, rfl⟩ := hRest.pure_inv
      rw [List.append_nil]
      exact Or.inl ⟨error, hOpen, rfl⟩
  | ok store =>
      obtain ⟨-, -, hStore, -⟩ := Store.runs_open_ok hOpen
      generalize store.data = data at hStore
      subst hStore
      obtain ⟨created, ready, hReady, hOpens⟩ := Store.opens_of_runs_open_ok hOpen
      have hRuns : Runs (runBatch (.opened i.config data) input) c after report e := by
        simpa only [hBatch, Action.command?] using hRest
      obtain ⟨log, last, hApplies⟩ := applies_of_runs_runBatch rfl hRuns
      refine Or.inr ⟨data, created, ready, c, before, after, log, last, rfl, hOpen, hReady, hOpens,
        fun hFound => ?_, hApplies⟩
      rw [hOpens.eq_of_loaded hFound, hReady.read]

/-- A line that is carried out, a comment, a blank line, one that fails, one that is not
text, and another one. -/
def mixedInput : ByteArray :=
  "SET a 1\n# note\n\nPUSH a y\n".toUTF8 ++ ⟨#[255, 10]⟩ ++ "SET b 2\n".toUTF8

/-- A batch on a store `s` whose directory is the one that is open anyway. -/
def mixedBatch : Invocation :=
  ⟨"", "s", false, .batch⟩

/-- Its store once one is at `a`. -/
def mixedStore : Store :=
  (Store.opened mixedBatch.config .empty).changeTo (KeyMap.empty.insert "a" (.number (.int 1)))

/-- What it prints. -/
def mixedOutput : String :=
  "OK\n" ++ lineOutput 4 (.error (.typeMismatch "a" .list .number))

theorem inputLines_mixedInput :
    inputLines mixedInput = (["SET a 1", "# note", "", "PUSH a y"], true) := by
  rw [inputLines, toList_eq]
  rfl

theorem run_mixedBatch : (mixedBatch.run mixedInput).run 0 .empty =
    (⟨mixedOutput, some (.disk .notText)⟩, (mixedStore.release.run 0 .empty).2) := by
  let fresh : Store := .opened mixedBatch.config .empty
  have hOpen : (Store.open mixedBatch.config).run 0 .empty = (.ok fresh, .empty) := rfl
  have hAction : mixedBatch.action.command? = .ok none := rfl
  have hSet : (runLine ⟨fresh, "", 0⟩ 1 "SET a 1").run 0 .empty =
      (⟨mixedStore, "OK\n", 0⟩, .empty) := rfl
  have hComment : (runLine ⟨mixedStore, "OK\n", 0⟩ 2 "# note").run 0 .empty =
      (⟨mixedStore, "OK\n", 0⟩, .empty) := rfl
  have hBlank : (runLine ⟨mixedStore, "OK\n", 0⟩ 3 "").run 0 .empty =
      (⟨mixedStore, "OK\n", 0⟩, .empty) := rfl
  have hPush : (runLine ⟨mixedStore, "OK\n", 0⟩ 4 "PUSH a y").run 0 .empty =
      (⟨mixedStore, mixedOutput, 1⟩, .empty) := rfl
  simp only [Invocation.run, run_bind, hOpen, hAction, runBatch, inputLines_mixedInput, runLines,
    hSet, hComment, hBlank, hPush, Nat.reduceAdd, run_pure, if_true]

/-- The batch stops at its fifth line. The fourth has failed, and what the first one has
changed is saved all the same. -/
theorem applies_of_runs_mixedInput : ∃ before after c report e log last,
    Runs (mixedBatch.run mixedInput) .empty (before ++ after) report e ∧
    Applies (.opened mixedBatch.config .empty) mixedInput c after log last report e ∧
    log.map (fun x => (x.number, x.text)) = [(1, "SET a 1"), (4, "PUSH a y")] ∧
    report.output =
      "OK\n" ++ "ERR line 4: Type mismatch on 'a': expected list, found number\n" ∧
    report.exitCode = 1 ∧ e.read ⟨"s.json"⟩ =
      .ok (Snapshot.content .pretty (KeyMap.empty.insert "a" (.number (.int 1)))) := by
  obtain ⟨trace, hRuns⟩ := runs_of_run run_mixedBatch
  have hLines : numbered 1 (textLines mixedInput) = [(1, "SET a 1"), (4, "PUSH a y")] := by
    have hTexts : textLines mixedInput = (inputLines mixedInput).1 := (readLines_fst _).symm
    rw [hTexts, inputLines_mixedInput]
    rfl
  have hOutput : mixedOutput =
      "OK\n" ++ "ERR line 4: Type mismatch on 'a': expected list, found number\n" :=
    congrArg ("OK\n" ++ ·) rfl
  have hRead : (mixedStore.release.run 0 .empty).2.read ⟨"s.json"⟩ =
      .ok (Snapshot.content .pretty (KeyMap.empty.insert "a" (.number (.int 1)))) := rfl
  rcases applies_of_runs rfl hRuns with ⟨error, -, hReport⟩ |
    ⟨data, created, ready, c, before, after, log, last, rfl, -, hReady, hOpens, -, hApplies⟩
  · have hNothing : mixedOutput = "" := congrArg Report.output hReport
    simp [mixedOutput] at hNothing
  · obtain rfl : created = .empty := (Prod.mk.inj hReady.directory).2.symm
    cases hOpens with
    | missing =>
        exact ⟨before, after, _, _, _, log, last, hRuns, hApplies, hApplies.lines.trans hLines,
          hOutput, rfl, hRead⟩

end SnapshotStore.CommandLine
