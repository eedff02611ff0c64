import SnapshotStore.Proofs.Command.Line
import SnapshotStore.Proofs.CommandLine.Batch

/-! Actions of the program and lines of a batch. What an action is given as arguments can be
put in a line behind its name, as long as the line can hold it. The line then says what
the action stands for, and both are carried out alike. -/
namespace SnapshotStore.CommandLine

open Disk Program
open Text (IsWord IsPhrase)
open Command (SameLetters lineOf restOf)

/-! ### One line as an input -/

/-- In the encoding of a text a byte below 128 stands for itself. -/
theorem toNat_eq_of_mem_utf8EncodeChar {byte : UInt8} {c : Char}
    (h : byte ∈ String.utf8EncodeChar c) (hByte : byte.toNat < 128) : c.toNat = byte.toNat := by
  have hNumber : c.val.toNat = c.toNat := rfl
  unfold String.utf8EncodeChar at h
  simp only [hNumber] at h
  split_ifs at h with hOne hTwo hThree
  · obtain rfl := List.mem_singleton.mp h
    simp only [UInt8.toNat_ofNat']
    omega
  -- each byte of a longer encoding is marked by its highest bit
  all_goals
    simp only [List.mem_cons, List.not_mem_nil, or_false] at h
    rcases h with rfl | rfl | rfl | rfl <;>
      simp only [UInt8.toNat_ofNat'] at hByte <;> omega

theorem toList_toUTF8 (text : String) :
    text.toUTF8.toList = text.toList.flatMap String.utf8EncodeChar := by
  rw [toList_eq]
  calc text.toUTF8.data.toList = (String.ofList text.toList).toUTF8.data.toList := by
        rw [String.ofList_toList]
    _ = text.toList.flatMap String.utf8EncodeChar := List.toList_data_toByteArray

/-- A text with a line break behind it is one line. -/
theorem inputLines_line {line : String} (hBreak : '\n' ∉ line.toList)
    (hReturn : line.toList.getLast? ≠ some '\r') :
    inputLines (line ++ "\n").toUTF8 = ([line], false) := by
  have hInput : (line ++ "\n").toUTF8.toList = line.toUTF8.toList ++ [10] := by
    rw [toList_toUTF8, toList_toUTF8, String.toList_append, List.flatMap_append]
    rfl
  have hNoBreak : (10 : UInt8) ∉ line.toUTF8.toList := fun hByte => by
    rw [toList_toUTF8] at hByte
    obtain ⟨c, hc, hEncoded⟩ := List.mem_flatMap.mp hByte
    obtain rfl : c = '\n' := Char.toNat_inj.mp (toNat_eq_of_mem_utf8EncodeChar hEncoded (by decide))
    exact hBreak hc
  have hNoReturn : line.toUTF8.toList.getLast? ≠ some 13 := fun hLast => by
    rw [toList_toUTF8] at hLast
    rcases List.eq_nil_or_concat line.toList with hEmpty | ⟨front, c, hChars⟩
    · simp [hEmpty] at hLast
    rw [hChars, List.concat_eq_append, List.flatMap_append, List.flatMap_singleton,
      List.getLast?_append_of_ne_nil _ String.utf8EncodeChar_ne_nil] at hLast
    obtain rfl : c = '\r' := Char.toNat_inj.mp
      (toNat_eq_of_mem_utf8EncodeChar (List.mem_of_mem_getLast? hLast) (by decide))
    simp [hChars] at hReturn
  have hText : lineText? line.toUTF8.toList = some line := by
    rw [lineText?, chomp, if_neg hNoReturn, toList_eq, Array.toArray_toList]
    exact dif_pos line.isValidUTF8
  have hLines : splitLines (line.toUTF8.toList ++ [10]) = [line.toUTF8.toList] := by
    rw [splitLines, List.splitOn_append_cons_self, List.splitOn_eq_singleton hNoBreak,
      List.splitOn_nil]
    rfl
  rw [inputLines, hInput, hLines, readLines, hText]
  rfl

/-! ### Actions as they are typed -/

/-- What an action is given, where a line can hold it: a key or a stem is a word, and every
other argument a phrase. A delta or a limit may be left out. The stem of `keys` is the rest
of its line, so it may be empty or have blanks inside. -/
inductive Typed : String → Given → Action → Prop where
  | get {key : String} (hKey : IsWord key.toList) : Typed "get" ⟨[key], none⟩ (.get key none)
  | getDefault {key default : String} (hKey : IsWord key.toList)
      (hDefault : IsPhrase default.toList) :
      Typed "get" ⟨[key], some default⟩ (.get key (some default))
  | has {key : String} (hKey : IsWord key.toList) : Typed "has" ⟨[key], none⟩ (.has key)
  | set {key value : String} (hKey : IsWord key.toList) (hValue : IsPhrase value.toList) :
      Typed "set" ⟨[key, value], none⟩ (.set key value)
  | del {key : String} (hKey : IsWord key.toList) : Typed "del" ⟨[key], none⟩ (.del key)
  | incr {key : String} (hKey : IsWord key.toList) : Typed "incr" ⟨[key], none⟩ (.incr key "1")
  | incrBy {key delta : String} (hKey : IsWord key.toList) (hDelta : IsPhrase delta.toList) :
      Typed "incr" ⟨[key, delta], none⟩ (.incr key delta)
  | decr {key : String} (hKey : IsWord key.toList) : Typed "decr" ⟨[key], none⟩ (.decr key "1")
  | decrBy {key delta : String} (hKey : IsWord key.toList) (hDelta : IsPhrase delta.toList) :
      Typed "decr" ⟨[key, delta], none⟩ (.decr key delta)
  | push {key item : String} (hKey : IsWord key.toList) (hItem : IsPhrase item.toList) :
      Typed "push" ⟨[key, item], none⟩ (.push key item)
  | keys : Typed "keys" ⟨[], none⟩ (.keys "")
  | keysUnder {stem : String} (hStem : stem.toList = [] ∨ IsPhrase stem.toList) :
      Typed "keys" ⟨[stem], none⟩ (.keys stem)
  | array {key : String} (hKey : IsWord key.toList) : Typed "array" ⟨[key], none⟩ (.array key)
  | top {stem : String} (hStem : IsWord stem.toList) :
      Typed "top" ⟨[stem], none⟩ (.top stem Command.defaultLimit)
  | topLimit {stem text : String} {limit : Nat} (hStem : IsWord stem.toList)
      (hLimit : Command.Count text.toList limit) :
      Typed "top" ⟨[stem], some text⟩ (.top stem limit)
  | dump : Typed "dump" ⟨[], none⟩ .dump

/-- What an action is given, in the order of a line. -/
def Given.arguments (given : Given) : List String :=
  given.positions ++ given.option.toList

section Typed

variable {name verb : String} {given : Given} {action : Action}

theorem Typed.action?_eq (h : Typed name given action) : action? name given = some action := by
  cases h with
  | topLimit hStem hLimit => simp [action?, Command.readCount?_eq_some_iff.mpr hLimit]
  | _ => rfl

theorem Typed.isAlpha (h : Typed name given action) : name.toList.all Char.isAlpha = true := by
  cases h <;> decide

theorem Typed.isWord (h : Typed name given action) (hVerb : SameLetters verb name) :
    IsWord verb.toList := by
  refine hVerb.isWord h.isAlpha ?_
  cases h <;> nofun

/-- There is nothing behind the verb, or a phrase. -/
theorem Typed.rest (h : Typed name given action) :
    restOf given.arguments = [] ∨ IsPhrase (restOf given.arguments) := by
  have hOne : ∀ {key : String}, IsWord key.toList → IsPhrase (restOf [key]) := fun hKey => by
    rw [Command.restOf_singleton]
    exact hKey.isPhrase
  have hTwo : ∀ {key argument : String}, IsWord key.toList → IsPhrase argument.toList →
      IsPhrase (restOf [key, argument]) := fun hKey hArgument => by
    rw [Command.restOf_pair]
    exact Text.isPhrase_pair hKey hArgument
  cases h with
  | get hKey | has hKey | del hKey | incr hKey | decr hKey | array hKey | top hKey =>
      exact Or.inr (hOne hKey)
  | getDefault hKey hMore | set hKey hMore | incrBy hKey hMore | decrBy hKey hMore
  | push hKey hMore => exact Or.inr (hTwo hKey hMore)
  | topLimit hStem hLimit => exact Or.inr (hTwo hStem hLimit.isWord.isPhrase)
  | keys | dump => exact Or.inl rfl
  | @keysUnder stem hStem =>
      have hRest : restOf (Given.arguments ⟨[stem], none⟩) = stem.toList :=
        Command.restOf_singleton stem
      rwa [hRest]

/-- What an action stands for is what its verb makes of the same arguments. -/
theorem Typed.command?_eq (h : Typed name given action) : action.command? =
    (Command.ofVerb (String.ofList (name.toList.map Char.toUpper))
      (restOf given.arguments)).map some := by
  have hOk : ∀ capitals {command rest}, Command.Fits capitals rest command →
      Except.ok (some command) = (Command.ofVerb capitals rest).map some := by
    intro capitals command rest hFits
    rw [hFits.ofVerb_eq]
    rfl
  cases h with
  | get hKey =>
      refine hOk "GET" ?_
      simpa [Given.arguments] using Command.Fits.get (Text.cut_word hKey) hKey.1
  | getDefault hKey hDefault =>
      refine hOk "GET" ?_
      simpa [Given.arguments] using
        Command.Fits.getDefault (Text.cut_pair hKey hDefault) hDefault.1
  | has hKey =>
      refine hOk "HAS" ?_
      simpa [Given.arguments] using Command.Fits.has (Text.cut_word hKey) hKey.1
  | set hKey hValue =>
      refine hOk "SET" ?_
      simpa [Given.arguments] using Command.Fits.set (Text.cut_pair hKey hValue) hValue.1
  | del hKey =>
      refine hOk "DEL" ?_
      simpa [Given.arguments] using
        Command.Fits.delete (Or.inl rfl) (Text.cut_word hKey) hKey.1
  | @incr key hKey =>
      refine @hOk "INCR" (.increment key (.int 1)) _ ?_
      simpa [Given.arguments] using Command.Fits.increment (Text.cut_word hKey) hKey.1 .one
  | @incrBy key delta hKey hDelta =>
      change _ = (Command.ofVerb "INCR" (restOf [key, delta])).map some
      rw [Command.restOf_pair]
      exact (Command.map_ofVerb_pair (fun _ => rfl) hKey hDelta).symm
  | @decr key hKey =>
      refine @hOk "DECR" (.decrement key (.int 1)) _ ?_
      simpa [Given.arguments] using Command.Fits.decrement (Text.cut_word hKey) hKey.1 .one
  | @decrBy key delta hKey hDelta =>
      change _ = (Command.ofVerb "DECR" (restOf [key, delta])).map some
      rw [Command.restOf_pair]
      exact (Command.map_ofVerb_pair (fun _ => rfl) hKey hDelta).symm
  | push hKey hItem =>
      refine hOk "PUSH" ?_
      simpa [Given.arguments] using Command.Fits.push (Text.cut_pair hKey hItem) hItem.1
  | keys => exact hOk "KEYS" .keys
  | @keysUnder stem hStem =>
      refine hOk "KEYS" ?_
      simpa [Given.arguments] using @Command.Fits.keys stem.toList
  | array hKey =>
      refine hOk "ARRAY" ?_
      simpa [Given.arguments] using Command.Fits.array (Text.cut_word hKey) hKey.1
  | top hStem =>
      refine hOk "TOP" ?_
      simpa [Given.arguments, Command.defaultLimit] using
        Command.Fits.top (Text.cut_word hStem) hStem.1 .ten
  | topLimit hStem hLimit =>
      refine hOk "TOP" ?_
      simpa [Given.arguments] using Command.Fits.top
        (Text.cut_pair hStem hLimit.isWord.isPhrase) hStem.1 (.count hLimit)
  | dump => exact hOk "DUMP" .dump

/-- The line says what the action stands for. -/
theorem Typed.parse_eq (h : Typed name given action) (hVerb : SameLetters verb name) :
    action.command? = (Command.parse (lineOf verb given.arguments)).map some := by
  rw [Command.parse_lineOf (h.isWord hVerb) h.rest, hVerb]
  exact h.command?_eq

/-- The line is no comment. -/
theorem Typed.commandText?_eq (h : Typed name given action) (hVerb : SameLetters verb name) :
    commandText? (lineOf verb given.arguments) =
      some (String.ofList (Text.trim (lineOf verb given.arguments).toList)) := by
  have hWord := h.isWord hVerb
  have hHead := (Command.cut_lineOf hWord h.rest).head?_trim
  obtain ⟨first, more, hLetters⟩ := List.exists_cons_of_ne_nil hWord.1
  have hFirst : first ≠ '#' := by
    rintro rfl
    exact absurd (hVerb.isAlpha h.isAlpha '#' (hLetters ▸ List.mem_cons_self)) (by decide)
  rw [hLetters] at hHead
  unfold commandText?
  cases hTrim : Text.trim (lineOf verb given.arguments).toList with
  | nil =>
      rw [hTrim] at hHead
      cases hHead
  | cons c rest =>
      rw [hTrim] at hHead
      obtain rfl : c = first := Option.some.inj hHead
      exact if_neg hFirst

/-- The line is one line of an input if its arguments have no line breaks. -/
theorem Typed.inputLines_eq (h : Typed name given action) (hVerb : SameLetters verb name)
    (hBreaks : ∀ argument ∈ given.arguments, '\n' ∉ argument.toList) :
    inputLines (lineOf verb given.arguments ++ "\n").toUTF8 =
      ([lineOf verb given.arguments], false) := by
  refine inputLines_line (fun hBreak => ?_) fun hReturn => ?_
  · rcases Command.mem_lineOf hBreak with hSpace | hLetter | ⟨argument, hArgument, hInside⟩
    · exact absurd hSpace (by decide)
    · exact absurd (hVerb.isAlpha h.isAlpha '\n' hLetter) (by decide)
    · exact hBreaks argument hArgument hInside
  · rcases Command.getLast?_lineOf (h.isWord hVerb) h.rest '\r' hReturn with hSpace | hBlank
    · exact absurd hSpace (by decide)
    · exact absurd hBlank (by decide)

end Typed

/-! ### Runs -/

/-- What a run makes of an action once its store is open. -/
def Action.runOn (action : Action) (s : Store) (input : ByteArray) : Program Report :=
  match action.command? with
  | .error fault => do
    s.release
    return ⟨"", some (.command fault)⟩
  | .ok none => runBatch s input
  | .ok (some command) => runCommand s command

theorem run_eq (i : Invocation) (input : ByteArray) :
    i.run input = Store.open i.config >>= fun opened => match opened with
      | .error error => pure ⟨"", some error⟩
      | .ok s => i.action.runOn s input :=
  rfl

theorem Action.ne_save {action : Action} {command : Command}
    (h : action.command? = .ok (some command)) : command ≠ .save := by
  rintro rfl
  cases action with
  | incr key delta | decr key delta =>
      rw [command?] at h
      cases hRead : Command.readNumber delta <;> rw [hRead] at h <;> cases h
  | _ => cases h

section Runs

variable {s s' : Store} {input : ByteArray} {line text output : String} {reply : Reply}
  {refusal : StoreError} {error : Option StoreError}

theorem executeText_of_ok {command : Command} (h : Command.parse line = .ok command)
    (s : Store) : executeText s (String.ofList (Text.trim line.toList)) = s.execute command := by
  rw [executeText, Command.parse_trim, h]

theorem executeText_of_error {fault : CommandFault} (h : Command.parse line = .error fault)
    (s : Store) : executeText s (String.ofList (Text.trim line.toList)) =
      pure (.error (.command fault), s) := by
  rw [executeText, Command.parse_trim, h]

theorem finish_eq_pure (hClean : s.isDirty = false) :
    finish s output error = pure ⟨output, error⟩ := by
  unfold finish Store.saveDirty
  rw [hClean]
  change s.release >>= _ = _
  rw [Store.release_eq_pure hClean]
  rfl

/-- A batch of one line that is answered ends as an action does. -/
theorem runBatch_of_ok (hLines : inputLines input = ([line], false))
    (hText : commandText? line = some text) (hExecute : executeText s text = pure (.ok reply, s')) :
    runBatch s input = finish s' (reply.display ++ "\n") none := by
  have hLine : runLine ⟨s, "", 0⟩ 1 line = pure ⟨s', reply.display ++ "\n", 0⟩ := by
    simp only [runLine, hText, hExecute, String.empty_append]
    rfl
  simp only [runBatch, hLines, runLines, hLine]
  rfl

/-- Where its line is refused, this is printed and counted. -/
theorem runBatch_of_error (hLines : inputLines input = ([line], false))
    (hText : commandText? line = some text)
    (hExecute : executeText s text = pure (.error refusal, s')) : runBatch s input =
      finish s' (lineOutput 1 (.error refusal)) (some (.command (.failedLines 1))) := by
  have hLine : runLine ⟨s, "", 0⟩ 1 line = pure ⟨s', lineOutput 1 (.error refusal), 1⟩ := by
    simp only [runLine, hText, hExecute, String.empty_append]
    rfl
  simp only [runBatch, hLines, runLines, hLine]
  rfl

end Runs

/-- How an action and the batch of its line report: alike, but what refuses the action is
printed for the line, and the line is counted as failed. -/
inductive ReportsAs : Report → Report → Prop where
  | same (report : Report) : ReportsAs report report
  | counted (refusal : StoreError) : ReportsAs ⟨"", some refusal⟩
      ⟨lineOutput 1 (.error refusal), some (.command (.failedLines 1))⟩

/-- Where the action succeeds there is no difference. -/
theorem ReportsAs.eq_of_error {report report' : Report} (h : ReportsAs report report')
    (hError : report.error = none) : report' = report := by
  cases h with
  | same => rfl
  | counted refusal => cases hError

/-- Two invocations on one store report alike if they do so once it is open. -/
theorem exists_runs_of_runOn {i j : Invocation} {input other : ByteArray} {d e : Disk}
    {trace : List Event} {report : Report} (h : Runs (i.run input) d trace report e)
    (hConfig : i.config = j.config) (R : Report → Report → Prop)
    (hReports : ∀ report, R report report)
    (hWork : ∀ s : Store, s.isDirty = false → ∀ c trace report,
      Runs (i.action.runOn s input) c trace report e →
      ∃ report', R report report' ∧ Runs (j.action.runOn s other) c trace report' e) :
    ∃ report', R report report' ∧ Runs (j.run other) d trace report' e := by
  rw [run_eq] at h ⊢
  rw [hConfig] at h
  obtain ⟨before, after, opened, c, rfl, hOpened, hRest⟩ := h.bind_inv
  cases opened with
  | error error =>
      obtain ⟨rfl, rfl, rfl⟩ := hRest.pure_inv
      exact ⟨_, hReports _, hOpened.bind (.done _ _)⟩
  | ok s =>
      obtain ⟨-, -, hStore, -⟩ := Store.runs_open_ok hOpened
      have hClean : s.isDirty = false := by
        rw [hStore]
        rfl
      obtain ⟨report', hAlike, hRuns⟩ := hWork s hClean c after report hRest
      exact ⟨report', hAlike, hOpened.bind hRuns⟩

section Typed

variable {name verb : String} {given : Given} {action : Action} {input : ByteArray} {s : Store}

/-- On a store with nothing to save the two are one program, or both are refused. -/
theorem Typed.runOn_cases (h : Typed name given action) (hVerb : SameLetters verb name)
    (hLines : inputLines input = ([lineOf verb given.arguments], false))
    (hClean : s.isDirty = false) (other : ByteArray) :
    action.runOn s other = Action.batch.runOn s input ∨ ∃ refusal,
      action.runOn s other = pure ⟨"", some refusal⟩ ∧ Action.batch.runOn s input =
        pure ⟨lineOutput 1 (.error refusal), some (.command (.failedLines 1))⟩ := by
  have hText := h.commandText?_eq hVerb
  have hCommand := h.parse_eq hVerb
  have hBatch : Action.batch.runOn s input = runBatch s input := rfl
  rw [hBatch]
  cases hParse : Command.parse (lineOf verb given.arguments) with
  | error fault =>
      rw [hParse] at hCommand
      refine Or.inr ⟨.command fault, ?_, ?_⟩
      · simp only [Action.runOn, hCommand, Except.map, Store.release_eq_pure hClean]
        rfl
      · rw [runBatch_of_error hLines hText (executeText_of_error hParse s), finish_eq_pure hClean]
  | ok command =>
      rw [hParse] at hCommand
      have hExecute := executeText_of_ok hParse s
      have hAnswer : s.execute command = pure (s.answer command) :=
        Operation.execute_eq (Action.ne_save hCommand)
      have hRun : action.runOn s other = runCommand s command := by
        simp only [Action.runOn, hCommand, Except.map]
      have hFails := Operation.failsInPlace_answer s command
      rw [hAnswer] at hExecute
      rw [hRun, runCommand, hAnswer]
      rcases hOutcome : s.answer command with ⟨refusal | reply, s'⟩
      · rw [hOutcome] at hExecute hFails
        obtain rfl : s' = s := hFails refusal rfl
        refine Or.inr ⟨refusal, ?_, ?_⟩
        · change s'.release >>= _ = _
          rw [Store.release_eq_pure hClean]
          rfl
        · rw [runBatch_of_error hLines hText hExecute, finish_eq_pure hClean]
      · rw [hOutcome] at hExecute
        left
        rw [runBatch_of_ok hLines hText hExecute]
        rfl

theorem Typed.exists_runs (h : Typed name given action) (hVerb : SameLetters verb name)
    (hLines : inputLines input = ([lineOf verb given.arguments], false))
    (hClean : s.isDirty = false) (other : ByteArray) {c e : Disk} {trace : List Event} :
    (∀ report, Runs (action.runOn s other) c trace report e →
      ∃ report', ReportsAs report report' ∧
        Runs (Action.batch.runOn s input) c trace report' e) ∧
    (∀ report', Runs (Action.batch.runOn s input) c trace report' e →
      ∃ report, ReportsAs report report' ∧ Runs (action.runOn s other) c trace report e) := by
  rcases h.runOn_cases hVerb hLines hClean other with hSame | ⟨refusal, hOwn, hBatch⟩
  · rw [hSame]
    exact ⟨fun report hRuns => ⟨report, .same report, hRuns⟩,
      fun report hRuns => ⟨report, .same report, hRuns⟩⟩
  · rw [hOwn, hBatch]
    refine ⟨fun report hRuns => ?_, fun report' hRuns => ?_⟩
    · obtain ⟨rfl, rfl, rfl⟩ := hRuns.pure_inv
      exact ⟨_, .counted refusal, .done _ _⟩
    · obtain ⟨rfl, rfl, rfl⟩ := hRuns.pure_inv
      exact ⟨_, .counted refusal, .done _ _⟩

/-- An action that is given what a line can hold agrees with the line of its name, in any
case of letters, and its arguments. It stands for the command that the line says, or both
are refused with the same error. On every store, whatever has been done with it, the line
of a batch is executed as the action is. A run of the action and one of a batch of this line
alone make the same requests and leave the same disk, and they report alike. -/
theorem action_agrees_with_line (h : Typed name given action) (hVerb : SameLetters verb name) :
    action? name given = some action ∧
    action.command? = (Command.parse (lineOf verb given.arguments)).map some ∧
    (∃ text, commandText? (lineOf verb given.arguments) = some text ∧ ∀ s,
      (∀ command, action.command? = .ok (some command) →
        executeText s text = s.execute command) ∧
      (∀ fault, action.command? = .error fault →
        executeText s text = pure (.error (.command fault), s))) ∧
    ((∀ argument ∈ given.arguments, '\n' ∉ argument.toList) →
      ∀ (i : Invocation) input d trace e, i.action = action →
        (∀ report, Runs (i.run input) d trace report e → ∃ report', ReportsAs report report' ∧
          Runs ({ i with action := .batch }.run (lineOf verb given.arguments ++ "\n").toUTF8)
            d trace report' e) ∧
        (∀ report', Runs ({ i with action := .batch }.run
            (lineOf verb given.arguments ++ "\n").toUTF8) d trace report' e →
          ∃ report, ReportsAs report report' ∧ Runs (i.run input) d trace report e)) := by
  have hCommand := h.parse_eq hVerb
  refine ⟨h.action?_eq, hCommand, ⟨_, h.commandText?_eq hVerb, fun s => ⟨fun command hOk => ?_,
    fun fault hError => ?_⟩⟩, fun hBreaks i input d trace e hAction => ?_⟩
  · obtain ⟨found, hParse, hSame⟩ := Command.map_eq_ok_iff.mp (hCommand.symm.trans hOk)
    obtain rfl := Option.some.inj hSame
    exact executeText_of_ok hParse s
  · cases hParse : Command.parse (lineOf verb given.arguments) with
    | error found =>
        rw [hCommand, hParse] at hError
        obtain rfl : found = fault := Except.error.inj hError
        exact executeText_of_error hParse s
    | ok command =>
        rw [hCommand, hParse] at hError
        cases hError
  · subst hAction
    have hLines := h.inputLines_eq hVerb hBreaks
    refine ⟨fun report hRuns => ?_, fun report' hRuns => ?_⟩
    · exact exists_runs_of_runOn hRuns (by rfl) ReportsAs .same fun s hClean c trace =>
        (h.exists_runs hVerb hLines hClean input).1
    · exact exists_runs_of_runOn hRuns (by rfl) (fun report' report => ReportsAs report report')
        .same fun s hClean c trace => (h.exists_runs hVerb hLines hClean input).2

/-- An item that looks like an option is pushed by both, and a delta that is no number is
refused by both. -/
theorem action_agrees_with_line_push : ∃ trace e,
    Runs ((⟨"", "s", false, .push "k" "--x y"⟩ : Invocation).run .empty) .empty trace
      ⟨"1\n", none⟩ e ∧
    Runs ((⟨"", "s", false, .batch⟩ : Invocation).run ("Push k --x y" ++ "\n").toUTF8) .empty
      trace ⟨"1\n", none⟩ e ∧
    (Action.incr "k" "1 2").command? = .error (.badNumber "1 2") ∧
    Command.parse "Incr k 1 2" = .error (.badNumber "1 2") := by
  have hKey : IsWord ['k'] := ⟨nofun, List.forall_mem_singleton.mpr rfl⟩
  have hItem : IsPhrase ['-', '-', 'x', ' ', 'y'] :=
    ⟨nofun, fun c hc => Option.some.inj hc ▸ rfl, fun c hc => Option.some.inj hc ▸ rfl⟩
  have hDelta : IsPhrase ['1', ' ', '2'] :=
    ⟨nofun, fun c hc => Option.some.inj hc ▸ rfl, fun c hc => Option.some.inj hc ▸ rfl⟩
  have hPush : Typed "push" ⟨["k", "--x y"], none⟩ (.push "k" "--x y") := .push hKey hItem
  have hIncr : Typed "incr" ⟨["k", "1 2"], none⟩ (.incr "k" "1 2") := .incrBy hKey hDelta
  have hPushVerb : SameLetters "Push" "push" := rfl
  have hIncrVerb : SameLetters "Incr" "incr" := rfl
  have hPushLine : lineOf "Push" (Given.arguments ⟨["k", "--x y"], none⟩) = "Push k --x y" := rfl
  have hIncrLine : lineOf "Incr" (Given.arguments ⟨["k", "1 2"], none⟩) = "Incr k 1 2" := rfl
  have hBreaks : ∀ argument ∈ Given.arguments ⟨["k", "--x y"], none⟩,
      '\n' ∉ argument.toList := by
    simp [Given.arguments]
  have hRun : ((⟨"", "s", false, .push "k" "--x y"⟩ : Invocation).run .empty).run 0 .empty =
    (⟨"1\n", none⟩, _) := rfl
  have hRefused : (Action.incr "k" "1 2").command? = .error (.badNumber "1 2") := rfl
  obtain ⟨trace, hRuns⟩ := runs_of_run hRun
  obtain ⟨-, -, -, hBatch⟩ := action_agrees_with_line hPush hPushVerb
  rw [hPushLine] at hBatch
  obtain ⟨report, hReports, hRuns'⟩ := (hBatch hBreaks _ _ _ _ _ rfl).1 _ hRuns
  obtain rfl := hReports.eq_of_error rfl
  obtain ⟨-, hCommand, -⟩ := action_agrees_with_line hIncr hIncrVerb
  rw [hRefused, hIncrLine] at hCommand
  refine ⟨trace, _, hRuns, hRuns', hRefused, ?_⟩
  cases hParse : Command.parse "Incr k 1 2" with
  | error fault =>
      rw [hParse] at hCommand
      exact congrArg Except.error (Except.error.inj hCommand).symm
  | ok command =>
      rw [hParse] at hCommand
      cases hCommand

end Typed

end SnapshotStore.CommandLine
