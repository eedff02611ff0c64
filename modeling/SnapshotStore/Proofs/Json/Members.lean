import SnapshotStore.Proofs.Json.Sequence

/-! Records are read member by member: a quoted name, a colon, and the value. Any
blanks may stand around them, and nothing is taken for a record that is not one. -/
namespace SnapshotStore.Json

variable {α β : Type}

/-- A member: its name, a colon, and its value. -/
inductive MemberText (language : List Char → α → Prop) : List Char → String × α → Prop where
  | named {quoted before after text : List Char} {name : String} {value : α}
      (hName : QuotedText quoted name) (hBefore : Blanks before) (hAfter : Blanks after)
      (hValue : language text value) :
      MemberText language (quoted ++ before ++ ':' :: (after ++ text)) (name, value)

theorem MemberText.mono {language wider : List Char → α → Prop} {text : List Char}
    {member : String × α} (h : MemberText language text member)
    (hValue : ∀ part value, language part value → wider part value) :
    MemberText wider text member := by
  cases h with
  | named hName hBefore hAfter hText => exact .named hName hBefore hAfter (hValue _ _ hText)

/-! ### Names and colons -/

section Member

variable {item : Reader α} {language : List Char → α → Prop}
  {input inner afterName gap text rest : List Char} {name : String} {value : α}
  {member : String × α}

theorem reads_readColon (hGap : Blanks gap) (rest : List Char) :
    Reads readColon (gap ++ ':' :: rest) () rest := by
  have hSkip : skip (gap ++ ':' :: rest) = ':' :: rest := by
    rw [skip_blanks hGap]
    exact skip_cons (by decide) rest
  refine ⟨length_lt_of_skip hSkip, ?_⟩
  unfold readColon
  split
  · next h => simp [hSkip] at h
  · next h =>
    rw [hSkip] at h
    cases h
    rfl
  · next h => exact absurd hSkip (h rest)

theorem Reads.named (hName : Reads readText input name afterName)
    (hColon : Reads readColon afterName () inner) (hItem : Reads item inner value rest) :
    Reads (readMember item) input (name, value) rest := by
  obtain ⟨shorterName, hName⟩ := hName
  obtain ⟨shorterColon, hColon⟩ := hColon
  obtain ⟨shorter, hItem⟩ := hItem
  refine ⟨by omega, ?_⟩
  simp [readMember, hName, hColon, hItem, Step.map, Step.widen]

/-- A member begins with the quote of its name, and the reader takes what follows. -/
theorem MemberText.exists_reads (h : MemberText (Accepts item) text member)
    (hRest : EndsNumber rest) :
    ∃ inner, text ++ rest = '"' :: inner ∧ Reads (readMember item) inner member rest := by
  cases h with
  | @named quoted before after text name value hName hBefore hAfter hValue =>
      cases hName with
      | @quoted chars _ hChars =>
          refine ⟨chars ++ '"' :: (before ++ ':' :: (after ++ text ++ rest)), by simp, ?_⟩
          exact (hChars.reads_readText _).named (reads_readColon hBefore _)
            (hValue.reads_append hAfter hRest)

theorem exists_of_reads_readColon (h : Reads readColon input () rest) :
    ∃ gap, Blanks gap ∧ input = gap ++ ':' :: rest := by
  obtain ⟨shorter, h⟩ := h
  unfold readColon at h
  split at h
  · cases h
  · next after hSkip =>
    obtain ⟨-, rfl⟩ := Step.mk.inj (Except.ok.inj h)
    exact exists_blanks_of_skip hSkip
  · cases h

theorem exists_of_reads_readMember (h : Reads (readMember item) input member rest)
    (hItem : TakesOnly item language member.2) :
    ∃ text, MemberText language ('"' :: text) member ∧ input = text ++ rest := by
  obtain ⟨shorter, h⟩ := h
  unfold readMember at h
  cases hName : readText input with
  | error fault => simp [hName] at h
  | ok name =>
      cases hColon : readColon name.rest with
      | error fault => simp [hName, hColon] at h
      | ok colon =>
          cases hValue : item colon.rest with
          | error fault => simp [hName, hColon, hValue] at h
          | ok value =>
              simp only [hName, hColon, hValue] at h
              obtain ⟨rfl, rfl⟩ := Step.mk.inj (Except.ok.inj h)
              obtain ⟨chars, hChars, hInput⟩ := exists_of_reads_readText ⟨name.shorter, hName⟩
              obtain ⟨before, hBefore, hBeforeColon⟩ :=
                exists_of_reads_readColon ⟨colon.shorter, hColon⟩
              obtain ⟨after, text, hAfter, hText, hAfterColon⟩ :=
                hItem _ _ ⟨value.shorter, hValue⟩
              refine ⟨chars ++ '"' :: (before ++ ':' :: (after ++ text)), ?_, ?_⟩
              · have hMember := MemberText.named (.quoted hChars) hBefore hAfter hText
                simpa [Step.map] using hMember
              · refine hInput.trans ((congrArg (chars ++ '"' :: ·) (hBeforeColon.trans
                  (congrArg (before ++ ':' :: ·) hAfterColon))).trans ?_)
                simp [Step.map]

end Member

/-! ### Records -/

section Members

variable {item : Reader α} {language : List Char → α → Prop}
  {input inner afterMember afterComma text rest : List Char}
  {member : String × α} {members : List (String × α)}

theorem reads_closingBrace (hSkip : skip input = '\x7d' :: rest) :
    Reads (readMoreMembers item) input [] rest := by
  refine ⟨length_lt_of_skip hSkip, ?_⟩
  rw [readMoreMembers]
  split
  · next h => simp [hSkip] at h
  · next c inner h =>
    rw [hSkip] at h
    cases h
    simp

theorem readMoreMembers_comma (hSkip : skip input = ',' :: afterComma)
    (hQuote : skip afterComma = '"' :: inner) : readMoreMembers item input =
      match readMember item inner with
      | .error fault => .error fault
      | .ok first =>
        match readMoreMembers item first.rest with
        | .error fault => .error fault
        | .ok others => .ok ⟨first.value :: others.value, others.rest,
            others.shorter.trans (first.shorter.trans
              ((length_lt_of_skip hQuote).trans (length_lt_of_skip hSkip)))⟩ := by
  rw [readMoreMembers]
  split
  · next h => simp [hSkip] at h
  · next c after h =>
    rw [hSkip] at h
    cases h
    rw [if_neg (by decide), if_pos rfl]
    split
    · next h => simp [hQuote] at h
    · next c after h =>
      rw [hQuote] at h
      cases h
      rfl

theorem Reads.nextMember (hSkip : skip input = ',' :: afterComma)
    (hQuote : skip afterComma = '"' :: inner)
    (hMember : Reads (readMember item) inner member afterMember)
    (hMore : Reads (readMoreMembers item) afterMember members rest) :
    Reads (readMoreMembers item) input (member :: members) rest := by
  obtain ⟨shorter, hMember⟩ := hMember
  obtain ⟨shorterMore, hMore⟩ := hMore
  have hLess := length_lt_of_skip hSkip
  have hLessInner := length_lt_of_skip hQuote
  exact ⟨by omega, by simp [readMoreMembers_comma hSkip hQuote, hMember, hMore]⟩

theorem reads_noMembers (hSkip : skip input = '\x7d' :: rest) :
    Reads (readMembers item) input [] rest := by
  refine ⟨length_lt_of_skip hSkip, ?_⟩
  unfold readMembers
  split
  · next h => simp [hSkip] at h
  · next c inner h =>
    rw [hSkip] at h
    cases h
    simp

theorem readMembers_quote (hSkip : skip input = '"' :: inner) : readMembers item input =
      match readMember item inner with
      | .error fault => .error fault
      | .ok first =>
        match readMoreMembers item first.rest with
        | .error fault => .error fault
        | .ok others => .ok ⟨first.value :: others.value, others.rest,
            others.shorter.trans (first.shorter.trans (length_lt_of_skip hSkip))⟩ := by
  unfold readMembers
  split
  · next h => simp [hSkip] at h
  · next c after h =>
    rw [hSkip] at h
    cases h
    rfl

theorem Reads.firstMember (hSkip : skip input = '"' :: inner)
    (hMember : Reads (readMember item) inner member afterMember)
    (hMore : Reads (readMoreMembers item) afterMember members rest) :
    Reads (readMembers item) input (member :: members) rest := by
  obtain ⟨shorter, hMember⟩ := hMember
  obtain ⟨shorterMore, hMore⟩ := hMore
  have hLess := length_lt_of_skip hSkip
  exact ⟨by omega, by simp [readMembers_quote hSkip, hMember, hMore]⟩

theorem MoreParts.reads_readMoreMembers
    (h : MoreParts (MemberText (Accepts item)) '\x7d' text members) (rest : List Char) :
    Reads (readMoreMembers item) (text ++ rest) members rest := by
  induction h with
  | closed hGap =>
      apply reads_closingBrace
      rw [List.append_assoc, skip_blanks hGap]
      exact skip_cons (by decide) rest
  | @next before after text more member members hBefore hAfter hPart hMore ih =>
      obtain ⟨inner, hText, hMember⟩ :=
        hPart.exists_reads (hMore.endsNumber (endsNumber_brace rest))
      have hSkip : skip (before ++ ',' :: (after ++ text ++ more) ++ rest) =
          ',' :: (after ++ '"' :: inner) := by
        rw [List.append_assoc, skip_blanks hBefore, List.cons_append, skip_cons (by decide),
          List.append_assoc, List.append_assoc, hText]
      have hQuote : skip (after ++ '"' :: inner) = '"' :: inner := by
        rw [skip_blanks hAfter]
        exact skip_cons (by decide) inner
      exact Reads.nextMember hSkip hQuote hMember ih

/-- What stands after the opening brace of a record gives the members. -/
theorem Parts.reads_readMembers (h : Parts (MemberText (Accepts item)) '\x7d' text members)
    (rest : List Char) : Reads (readMembers item) (text ++ rest) members rest := by
  cases h with
  | closed hGap =>
      apply reads_noMembers
      rw [List.append_assoc, skip_blanks hGap]
      exact skip_cons (by decide) rest
  | @first gap text more member members hGap hPart hMore =>
      obtain ⟨inner, hText, hMember⟩ :=
        hPart.exists_reads (hMore.endsNumber (endsNumber_brace rest))
      have hSkip : skip (gap ++ text ++ more ++ rest) = '"' :: inner := by
        rw [List.append_assoc, List.append_assoc, skip_blanks hGap, hText]
        exact skip_cons (by decide) inner
      exact Reads.firstMember hSkip hMember (hMore.reads_readMoreMembers rest)

theorem exists_of_reads_readMoreMembers (h : Reads (readMoreMembers item) input members rest)
    (hItem : ∀ member ∈ members, TakesOnly item language member.2) :
    ∃ text, MoreParts (MemberText language) '\x7d' text members ∧ input = text ++ rest := by
  obtain ⟨shorter, h⟩ := h
  induction hLength : input.length using Nat.strongRecOn generalizing input members with
  | _ length ih =>
  rw [readMoreMembers] at h
  split at h
  · cases h
  · next c after hSkip =>
    obtain ⟨before, hBefore, hInput⟩ := exists_blanks_of_skip hSkip
    split_ifs at h with hClosing hComma
    · obtain ⟨rfl, rfl⟩ := Step.mk.inj (Except.ok.inj h)
      rw [hClosing] at hInput
      exact ⟨before ++ ['\x7d'], .closed hBefore, by simp [hInput]⟩
    · split at h
      · cases h
      · next d inner hNext =>
        obtain ⟨gap, hGap, hAfter⟩ := exists_blanks_of_skip hNext
        split_ifs at h with hTrailing hQuote
        cases hFirst : readMember item inner with
        | error fault => simp [hFirst] at h
        | ok first =>
            cases hMore : readMoreMembers item first.rest with
            | error fault => simp [hFirst, hMore] at h
            | ok others =>
                simp only [hFirst, hMore] at h
                obtain ⟨rfl, rfl⟩ := Step.mk.inj (Except.ok.inj h)
                obtain ⟨text, hText, hInner⟩ := exists_of_reads_readMember
                  ⟨first.shorter, hFirst⟩ (hItem first.value List.mem_cons_self)
                have hLess : first.rest.length < length := by
                  have hFirstLess := first.shorter
                  have hAfterLess := length_lt_of_skip hSkip
                  have hInnerLess := length_lt_of_skip hNext
                  omega
                obtain ⟨more, hParts, hRest⟩ := ih _ hLess
                  (fun member hMember => hItem member (List.mem_cons_of_mem _ hMember))
                  others.shorter hMore rfl
                rw [hComma] at hInput
                rw [hQuote] at hAfter
                refine ⟨before ++ ',' :: (gap ++ '"' :: text ++ more),
                  .next hBefore hGap hText hParts, ?_⟩
                refine hInput.trans ((congrArg (before ++ ',' :: ·) (hAfter.trans
                  (congrArg (gap ++ '"' :: ·) (hInner.trans
                    (congrArg (text ++ ·) hRest))))).trans ?_)
                simp

theorem exists_of_reads_readMembers (h : Reads (readMembers item) input members rest)
    (hItem : ∀ member ∈ members, TakesOnly item language member.2) :
    ∃ text, Parts (MemberText language) '\x7d' text members ∧ input = text ++ rest := by
  obtain ⟨shorter, h⟩ := h
  unfold readMembers at h
  split at h
  · cases h
  · next c inner hSkip =>
    obtain ⟨gap, hGap, hInput⟩ := exists_blanks_of_skip hSkip
    split_ifs at h with hClosing hQuote
    · obtain ⟨rfl, rfl⟩ := Step.mk.inj (Except.ok.inj h)
      rw [hClosing] at hInput
      exact ⟨gap ++ ['\x7d'], .closed hGap, by simp [hInput]⟩
    · cases hFirst : readMember item inner with
      | error fault => simp [hFirst] at h
      | ok first =>
          cases hMore : readMoreMembers item first.rest with
          | error fault => simp [hFirst, hMore] at h
          | ok others =>
              simp only [hFirst, hMore] at h
              obtain ⟨rfl, rfl⟩ := Step.mk.inj (Except.ok.inj h)
              obtain ⟨text, hText, hInner⟩ := exists_of_reads_readMember
                ⟨first.shorter, hFirst⟩ (hItem first.value List.mem_cons_self)
              obtain ⟨more, hParts, hRest⟩ := exists_of_reads_readMoreMembers
                ⟨others.shorter, hMore⟩ fun member hMember =>
                  hItem member (List.mem_cons_of_mem _ hMember)
              rw [hQuote] at hInput
              refine ⟨gap ++ '"' :: text ++ more, .first hGap hText hParts, ?_⟩
              refine hInput.trans ((congrArg (gap ++ '"' :: ·) (hInner.trans
                (congrArg (text ++ ·) hRest))).trans ?_)
              simp [Step.map]

end Members

/-! ### Layouts -/

/-- The text of a member: its name, the colon, and the text of its value. -/
def memberText (gap : List Char) (name : String) (text : List Char) : List Char :=
  quote name ++ ':' :: (gap ++ text)

/-- The members of a record, each with the text of its value. -/
def memberTexts (colonGap : List Char) (text : β → List Char) (entries : List (String × β)) :
    List (List Char) :=
  entries.map fun entry => memberText colonGap entry.1 (text entry.2)

section Record

variable {item : Reader α} {gap colonGap margin : List Char} {text : β → List Char} {value : β → α}
  {entries : List (String × β)}

theorem memberText_accepted {name : String} {written : List Char} {result : α}
    (hColonGap : Blanks colonGap) (hItem : Accepts item written result) :
    MemberText (Accepts item) (memberText colonGap name written) (name, result) := by
  have hMember := MemberText.named (quotedText_quote name) blanks_nil hColonGap hItem
  rwa [List.append_nil] at hMember

/-- What stands after the opening brace of a record gives the members. -/
theorem reads_readMembers (hGap : Blanks gap) (hColonGap : Blanks colonGap)
    (hMargin : Blanks margin)
    (hEntries : ∀ entry ∈ entries, Accepts item (text entry.2) (value entry.2))
    (rest : List Char) :
    Reads (readMembers item)
      (inside gap margin '\x7d' (memberTexts colonGap text entries) ++ rest)
      (entries.map fun entry => (entry.1, value entry.2)) rest :=
  (parts_inside hGap hMargin fun entry hEntry =>
    memberText_accepted hColonGap (hEntries entry hEntry)).reads_readMembers rest

theorem reads_readMember {name : String} {written rest : List Char} {result : α}
    (hColonGap : Blanks colonGap) (hItem : Accepts item written result) (hRest : EndsNumber rest) :
    Reads (readMember item)
      (name.toList.flatMap escapeChar ++ '"' :: ':' :: (colonGap ++ written ++ rest))
      (name, result) rest :=
  (reads_readText name _).named (reads_readColon blanks_nil _)
    (hItem.reads_append hColonGap hRest)

theorem skip_memberText (hGap : Blanks gap) (name : String)
    (written rest : List Char) : skip (gap ++ memberText colonGap name written ++ rest) =
      '"' :: (name.toList.flatMap escapeChar ++ '"' :: ':' :: (colonGap ++ written ++ rest)) := by
  rw [List.append_assoc, skip_blanks hGap, memberText, quote, List.cons_append, List.cons_append,
    List.cons_append, skip_cons (by decide)]
  simp

end Record

end SnapshotStore.Json
