import SnapshotStore.Proofs.Json.Members
import SnapshotStore.Proofs.Json.Value
import SnapshotStore.Proofs.Snapshot.Storable

/-! Which texts describe a snapshot, and which snapshot each of them describes. A
text is one record whose members are values: truth values, numbers, texts, and
lists of nothing but texts. -/
namespace SnapshotStore.Snapshot

open Json

/-- How a value may be written. -/
inductive ValueText : List Char → Value → Prop where
  | bool (b : Bool) : ValueText (Value.boolJson b) (.bool b)
  | number {l : Literal} {n : Number} (hValid : l.Valid) (hDenotes : l.Denotes n) :
      ValueText l.text (.number n)
  | text {quoted : List Char} {s : String} (h : QuotedText quoted s) : ValueText quoted (.text s)
  | list {inner : List Char} {items : List String} (h : Parts QuotedText ']' inner items) :
      ValueText ('[' :: inner) (.list items)

/-- One record and nothing but blanks around it. -/
inductive RecordText : List Char → List (String × Value) → Prop where
  | record {before inner after : List Char} {members : List (String × Value)}
      (hBefore : Blanks before) (hMembers : Parts (MemberText ValueText) '\x7d' inner members)
      (hAfter : Blanks after) : RecordText (before ++ '\x7b' :: (inner ++ after)) members

/-! ### Values -/

section Values

variable {input text rest : List Char} {value : Value} {tree : Json}

theorem accepts_readMemberValue (hText : Accepts (readValue (maxDepth - 1)) text tree)
    (hValue : Value.ofJson? tree = some value) : Accepts readMemberValue text value := by
  refine ⟨hText.first, fun input rest hRest hSkip => ?_⟩
  obtain ⟨shorter, hRead⟩ := hText.reads input rest hRest hSkip
  exact ⟨shorter, by simp [readMemberValue, hRead, hValue]⟩

theorem mapM_text? (items : List String) : (items.map Json.text).mapM Json.text? = some items := by
  induction items with
  | nil => rfl
  | cons item items ih => simp [List.mapM_cons, Json.text?, ih]

theorem eq_map_text_of_mapM {trees : List Json} {items : List String}
    (h : trees.mapM Json.text? = some items) : trees = items.map Json.text := by
  induction trees generalizing items with
  | nil =>
      obtain rfl := Option.some.inj h
      rfl
  | cons tree trees ih =>
      cases tree with
      | text s =>
          rw [List.mapM_cons] at h
          cases hMore : trees.mapM Json.text? with
          | none => simp [hMore, Json.text?] at h
          | some others =>
              obtain rfl : s :: others = items := by simpa [hMore, Json.text?] using h
              rw [ih hMore, List.map_cons]
      | _ => simp [List.mapM_cons, Json.text?] at h

theorem accepts_listText {items : List String} (h : Parts QuotedText ']' text items) :
    Accepts readMemberValue ('[' :: text) (.list items) := by
  apply accepts_readMemberValue (accepts_list h)
  rw [Value.ofJson?, mapM_text?]
  rfl

/-- A value is accepted however it is written. -/
theorem ValueText.accepts (h : ValueText text value) : Accepts readMemberValue text value := by
  cases h with
  | bool b => exact accepts_readMemberValue (accepts_bool b) rfl
  | number hValid hDenotes =>
      obtain ⟨numeral, hNumeral, hNumber⟩ := Literal.denotes_iff.mp hDenotes
      apply accepts_readMemberValue
      · exact accepts_number hValid.startsNumber fun rest hRest => hValid.reads hRest hNumeral
      · rw [Value.ofJson?, hNumber]
  | text h => exact accepts_readMemberValue (accepts_quotedText h) rfl
  | list h => exact accepts_listText h

theorem exists_parts_of_reads {room : Nat} {items : List String}
    (h : Reads (readItems (readValue room)) input (items.map .text) rest) :
    ∃ inner, Parts QuotedText ']' inner items ∧ input = inner ++ rest := by
  have hItem : ∀ tree ∈ items.map Json.text, TakesOnly (readValue room)
      (fun text tree => ∃ s, QuotedText text s ∧ tree = .text s) tree := fun tree hTree => by
    obtain ⟨s, -, rfl⟩ := List.mem_map.mp hTree
    exact takesOnly_quotedText
  obtain ⟨inner, hParts, hInput⟩ := exists_of_reads_readItems h hItem
  refine ⟨inner, ?_, hInput⟩
  have hTexts : Parts QuotedText ']' inner
      ((items.map Json.text).map fun tree => tree.text?.getD "") :=
    hParts.map fun part tree hPart => by
      obtain ⟨s, hQuoted, rfl⟩ := hPart
      exact hQuoted
  simpa [Json.text?, Function.comp_def] using hTexts

/-- Of what may be read, the trees that are values were written as values. -/
theorem exists_valueText {room : Nat} (h : ReadFrom room input tree rest)
    (hValue : Value.ofJson? tree = some value) :
    ∃ text, ValueText text value ∧ input = text ++ rest := by
  cases h with
  | word hWord hInput =>
      cases hWord with
      | null => cases hValue
      | true =>
          obtain rfl := Option.some.inj hValue
          exact ⟨_, .bool true, congrArg ('t' :: ·) hInput⟩
      | false =>
          obtain rfl := Option.some.inj hValue
          exact ⟨_, .bool false, congrArg ('f' :: ·) hInput⟩
  | number hRead =>
      obtain ⟨l, hValid, hInput, hNumeral⟩ := Literal.exists_of_reads hRead
      obtain rfl := Option.some.inj hValue
      exact ⟨l.text, .number hValid (Literal.denotes_iff.mpr ⟨_, hNumeral, rfl⟩), hInput⟩
  | text hRead =>
      obtain ⟨chars, hChars, hInput⟩ := exists_of_reads_readText hRead
      obtain rfl := Option.some.inj hValue
      refine ⟨_, .text (.quoted hChars), ?_⟩
      rw [hInput]
      simp
  | list hRead =>
      obtain ⟨items, hItems, rfl⟩ := Option.map_eq_some_iff.mp hValue
      obtain rfl := eq_map_text_of_mapM hItems
      obtain ⟨inner, hParts, hInput⟩ := exists_parts_of_reads hRead
      exact ⟨_, .list hParts, congrArg ('[' :: ·) hInput⟩
  | record hRead => cases hValue

/-- Nothing else is taken for a value. -/
theorem takesOnly_valueText : TakesOnly readMemberValue ValueText value := by
  intro input rest h
  obtain ⟨shorter, h⟩ := h
  unfold readMemberValue at h
  cases hTree : readValue (maxDepth - 1) input with
  | error fault => simp [hTree] at h
  | ok step =>
      cases hValue : Value.ofJson? step.value with
      | none => simp [hTree, hValue] at h
      | some found =>
          simp only [hTree, hValue] at h
          obtain ⟨rfl, rfl⟩ := Step.mk.inj (Except.ok.inj h)
          obtain ⟨gap, inner, hGap, hFrom, hInput⟩ :=
            readFrom_of_reads_readValue ⟨step.shorter, hTree⟩
          obtain ⟨text, hText, hInner⟩ := exists_valueText hFrom hValue
          refine ⟨gap, text, hGap, hText, ?_⟩
          exact hInput.trans ((congrArg (gap ++ ·) hInner).trans (List.append_assoc _ _ _).symm)

end Values

/-! ### Records -/

section Records

variable {text : String} {s : Snapshot} {members : List (String × Value)}

theorem readRecord_of_recordText (h : RecordText text.toList members) :
    readRecord text = .ok members := by
  generalize hText : text.toList = input at h
  cases h with
  | @record before inner after members hBefore hMembers hAfter =>
      have hAccepted : Parts (MemberText (Accepts readMemberValue)) '\x7d' inner members :=
        hMembers.mono fun _ _ hMember => hMember.mono fun _ _ => ValueText.accepts
      obtain ⟨shorter, hRead⟩ := hAccepted.reads_readMembers after
      have hSkip : skip text.toList = '\x7b' :: (inner ++ after) := by
        rw [hText, skip_blanks hBefore]
        exact skip_cons (by decide) _
      have hEnd : skip after = [] := by
        rw [← List.append_nil after, skip_blanks hAfter]
        rfl
      simp [readRecord, hSkip, hRead, finish, hEnd]

theorem blanks_of_finish {α : Type} {input : List Char} {step : Step α input} {value : α}
    (h : finish step = .ok value) : Blanks step.rest ∧ step.value = value := by
  unfold finish at h
  split at h
  · next hEnd =>
    obtain ⟨blanks, hBlanks, hRest⟩ := exists_blanks_of_skip hEnd
    rw [List.append_nil] at hRest
    exact ⟨hRest ▸ hBlanks, Except.ok.inj h⟩
  · cases h

theorem recordText_of_readRecord (h : readRecord text = .ok members) :
    RecordText text.toList members := by
  unfold readRecord at h
  split at h
  · next rest hSkip =>
    obtain ⟨before, hBefore, hText⟩ := exists_blanks_of_skip hSkip
    cases hRead : readMembers readMemberValue rest with
    | error fault => simp [hRead] at h
    | ok step =>
        cases hFinish : finish step with
        | error fault => simp [hRead, hFinish] at h
        | ok found =>
            simp only [hRead, hFinish] at h
            obtain rfl := Except.ok.inj h
            obtain ⟨hAfter, hFound⟩ := blanks_of_finish hFinish
            obtain ⟨inner, hMembers, hRest⟩ := exists_of_reads_readMembers
              ⟨step.shorter, hRead⟩ fun member _ => takesOnly_valueText
            have hInput : text.toList = before ++ '\x7b' :: (inner ++ step.rest) :=
              hText.trans (congrArg (before ++ '\x7b' :: ·) hRest)
            rw [hInput, ← hFound]
            exact .record hBefore hMembers hAfter
  · cases h

/-- The record of a text is read as it is written. -/
theorem readRecord_eq_ok_iff : readRecord text = .ok members ↔ RecordText text.toList members :=
  ⟨recordText_of_readRecord, readRecord_of_recordText⟩

theorem isBlankText_eq_false_of_recordText (h : RecordText text.toList members) :
    Text.isBlankText text.toList = false := by
  generalize text.toList = input at h
  cases h with
  | @record before inner after members hBefore hMembers hAfter =>
      have hBrace : Text.isBlank '\x7b' = false := by decide
      simp [Text.isBlankText, hBrace]

/-! ### Snapshots -/

/-- Numbers that are written are finite. -/
theorem isStorable_of_valueText {written : List Char} {value : Value}
    (h : ValueText written value) : value.isStorable = true := by
  cases h with
  | number hValid hDenotes => exact Literal.isFinite_of_denotes hDenotes
  | _ => rfl

theorem isStorable_of_recordText {input : List Char} (h : RecordText input members)
    {member : String × Value} (hMember : member ∈ members) : member.2.isStorable = true := by
  cases h with
  | record hBefore hMembers hAfter =>
      obtain ⟨written, hWritten⟩ := hMembers.exists_part hMember
      cases hWritten with
      | named hName hBeforeColon hAfterColon hValue => exact isStorable_of_valueText hValue

theorem storable_ofList {input : List Char} (h : RecordText input members)
    (hNames : ∀ member ∈ members, member.1 ≠ "") : Storable (KeyMap.ofList members) := by
  rw [storable_iff]
  intro key value hValue
  obtain ⟨front, back, hMembers, -⟩ := KeyMap.get?_ofList.mp hValue
  have hMember : (key, value) ∈ members := by
    rw [hMembers]
    simp
  exact ⟨hNames _ hMember, isStorable_of_recordText h hMember⟩

theorem decode_of_recordText (h : RecordText text.toList members)
    (hNames : ∀ member ∈ members, member.1 ≠ "") :
    decode text = .ok (KeyMap.ofList members) :=
  decode_of_readRecord (isBlankText_eq_false_of_recordText h) (readRecord_of_recordText h)
    (storable_ofList h hNames)

/-- Nothing hides an empty name from the check, not even a later member. -/
theorem ne_empty_of_decode (h : decode text = .ok s) (hRecord : readRecord text = .ok members) :
    ∀ member ∈ members, member.1 ≠ "" := by
  intro member hMember hEmpty
  obtain ⟨found, hFound, rfl, -⟩ := checked_of_decode h
  obtain rfl := Except.ok.inj (hFound.symm.trans hRecord)
  obtain ⟨value, hLast⟩ := KeyMap.exists_lastEntry ⟨member, hMember, hEmpty⟩
  exact (storable_iff.mp (storable_of_decode h) _ _ (KeyMap.get?_ofList.mpr hLast)).1 rfl

theorem exists_recordText_of_decode (h : decode text = .ok s) :
    ∃ members, RecordText text.toList members ∧ (∀ member ∈ members, member.1 ≠ "") ∧
      s = KeyMap.ofList members := by
  obtain ⟨members, hRecord, hMembers, -⟩ := checked_of_decode h
  exact ⟨members, readRecord_eq_ok_iff.mp hRecord, ne_empty_of_decode h hRecord, hMembers⟩

/-- A text describes a snapshot exactly when it is one record of values without an empty
name, and of members with one name the last stands. Every other text is refused. -/
theorem decode_language (text : String) :
    (∀ s, decode text = .ok s ↔ ∃ members, RecordText text.toList members ∧
      (∀ member ∈ members, member.1 ≠ "") ∧
      ∀ key value, s.get? key = some value ↔ KeyMap.LastEntry members key value) ∧
    ((∃ fault, decode text = .error fault) ↔ ¬ ∃ members, RecordText text.toList members ∧
      ∀ member ∈ members, member.1 ≠ "") ∧
    ∀ s, decode text = .ok s → s.Storable := by
  refine ⟨fun s => ⟨fun h => ?_, ?_⟩, ⟨?_, fun hNone => ?_⟩, fun s => storable_of_decode⟩
  · obtain ⟨members, hText, hNames, rfl⟩ := exists_recordText_of_decode h
    exact ⟨members, hText, hNames, fun key value => KeyMap.get?_ofList⟩
  · rintro ⟨members, hText, hNames, hLast⟩
    have hSame : s = KeyMap.ofList members := KeyMap.ext_get? fun key =>
      Option.ext fun value => (hLast key value).trans KeyMap.get?_ofList.symm
    rw [hSame]
    exact decode_of_recordText hText hNames
  · rintro ⟨fault, hFault⟩ ⟨members, hText, hNames⟩
    rw [decode_of_recordText hText hNames] at hFault
    cases hFault
  · cases hDecode : decode text with
    | error fault => exact ⟨fault, rfl⟩
    | ok s =>
        obtain ⟨members, hText, hNames, -⟩ := exists_recordText_of_decode hDecode
        exact absurd ⟨members, hText, hNames⟩ hNone

end Records

/-- A record that gives a name twice, a whole number, and one beyond 64 bits. -/
def twiceNamed : List (String × Value) :=
  [("a", .list ["x"]), ("b", .number (.int (-7))),
    ("a", .number (.float (.finite false ⟨0x43e0000000000000, by decide⟩)))]

theorem valueText_seven : ValueText ['-', '7'] (.number (.int (-7))) := by
  have hValid : Literal.Valid ⟨true, ['7'], none, none⟩ :=
    ⟨⟨by simp, by simp⟩, by decide, nofun, nofun⟩
  exact .number hValid (.int ⟨rfl, rfl, by decide, by decide⟩)

theorem valueText_beyond : ValueText
    ['9', '2', '2', '3', '3', '7', '2', '0', '3', '6', '8', '5', '4', '7', '7', '5', '8', '0', '8']
    (.number (.float (.finite false ⟨0x43e0000000000000, by decide⟩))) := by
  have hValid : Literal.Valid ⟨false, ['9', '2', '2', '3', '3', '7', '2', '0', '3', '6', '8', '5',
      '4', '7', '7', '5', '8', '0', '8'], none, none⟩ :=
    ⟨⟨by simp, by simp⟩, by decide, nofun, nofun⟩
  refine .number hValid (.float (fun i hInt => ?_) (by decide +kernel))
  have hHigh := i.toInt_lt
  rw [← hInt.2.2.1] at hHigh
  exact absurd hHigh (by decide)

theorem recordText_twiceNamed : RecordText
    "\x7b\"a\":[\"x\"],\"b\":-7,\"a\":9223372036854775808\x7d".toList twiceNamed := by
  have hList : ValueText ['[', '"', 'x', '"', ']'] (.list ["x"]) :=
    .list (.first blanks_nil (quotedText_quote "x") (.closed blanks_nil))
  have hFirst := MemberText.named (quotedText_quote "a") blanks_nil blanks_nil hList
  have hSecond := MemberText.named (quotedText_quote "b") blanks_nil blanks_nil valueText_seven
  have hThird := MemberText.named (quotedText_quote "a") blanks_nil blanks_nil valueText_beyond
  exact .record blanks_nil (.first blanks_nil hFirst (.next blanks_nil blanks_nil hSecond
    (.next blanks_nil blanks_nil hThird (.closed blanks_nil)))) blanks_nil

theorem decode_twiceNamed :
    ∃ s, decode "\x7b\"a\":[\"x\"],\"b\":-7,\"a\":9223372036854775808\x7d" = .ok s ∧
      s.get? "a" = some (.number (.float (.finite false ⟨0x43e0000000000000, by decide⟩))) ∧
      s.get? "b" = some (.number (.int (-7))) := by
  refine ⟨KeyMap.ofList twiceNamed, ((decode_language _).1 _).mpr
    ⟨twiceNamed, recordText_twiceNamed, by decide, fun key value => KeyMap.get?_ofList⟩, ?_, ?_⟩
  · exact KeyMap.get?_ofList.mpr ⟨[_, _], [], rfl, nofun⟩
  · exact KeyMap.get?_ofList.mpr ⟨[_], [_], rfl, by decide⟩

end SnapshotStore.Snapshot
