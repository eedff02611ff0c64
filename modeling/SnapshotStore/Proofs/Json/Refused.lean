import SnapshotStore.Proofs.Json.Members

/-! A record is refused as soon as one of its members is. What stands in front of
that member is read, what stands behind it is not. -/
namespace SnapshotStore.Json

variable {α β : Type} {item : Reader α} {input inner afterName rest : List Char} {name : String}

def Refuses (read : Reader α) (input : List Char) : Prop :=
  ∃ fault, read input = .error fault

/-- A reader rejects a text if it refuses it, whatever blanks stand in front, and
whatever follows. No blank comes first in the text. -/
structure Rejects (read : Reader α) (text : List Char) : Prop where
  first : ∃ c tail, text = c :: tail ∧ isBlank c = false
  refuses : ∀ input rest, EndsNumber rest → skip input = text ++ rest → Refuses read input

/-- A member is refused, or something after it. -/
def RefusesFrom (item : Reader α) (input : List Char) : Prop :=
  Refuses (readMember item) input ∨ ∃ member afterMember,
    Reads (readMember item) input member afterMember ∧ Refuses (readMoreMembers item) afterMember

theorem Refuses.named (hName : Reads readText input name afterName)
    (hColon : Reads readColon afterName () inner) (h : Refuses item inner) :
    Refuses (readMember item) input := by
  obtain ⟨shorterName, hName⟩ := hName
  obtain ⟨shorterColon, hColon⟩ := hColon
  obtain ⟨fault, h⟩ := h
  exact ⟨fault, by simp [readMember, hName, hColon, h]⟩

theorem RefusesFrom.nextMember {afterComma : List Char} (hSkip : skip input = ',' :: afterComma)
    (hQuote : skip afterComma = '"' :: inner) (h : RefusesFrom item inner) :
    Refuses (readMoreMembers item) input := by
  unfold Refuses
  rw [readMoreMembers_comma hSkip hQuote]
  rcases h with ⟨fault, hMember⟩ | ⟨member, afterMember, ⟨shorter, hMember⟩, fault, hMore⟩
  · exact ⟨fault, by simp [hMember]⟩
  · exact ⟨fault, by simp [hMember, hMore]⟩

theorem RefusesFrom.firstMember (hSkip : skip input = '"' :: inner) (h : RefusesFrom item inner) :
    Refuses (readMembers item) input := by
  unfold Refuses
  rw [readMembers_quote hSkip]
  rcases h with ⟨fault, hMember⟩ | ⟨member, afterMember, ⟨shorter, hMember⟩, fault, hMore⟩
  · exact ⟨fault, by simp [hMember]⟩
  · exact ⟨fault, by simp [hMember, hMore]⟩

section Record

variable {gap colonGap margin : List Char} {text : β → List Char} {value : β → α}
  {entry : String × β} {entries : List (String × β)}

theorem refusesFrom_cons (hColonGap : Blanks colonGap)
    (hEntry : Accepts item (text entry.2) (value entry.2)) (hRest : EndsNumber rest)
    (h : Refuses (readMoreMembers item) rest) :
    RefusesFrom item (entry.1.toList.flatMap escapeChar ++ '"' :: ':' ::
      (colonGap ++ text entry.2 ++ rest)) :=
  Or.inr ⟨_, _, reads_readMember hColonGap hEntry hRest, h⟩

theorem refusesFrom_rejected (hColonGap : Blanks colonGap)
    (hEntry : Rejects item (text entry.2)) (hRest : EndsNumber rest) :
    RefusesFrom item (entry.1.toList.flatMap escapeChar ++ '"' :: ':' ::
      (colonGap ++ text entry.2 ++ rest)) := by
  refine Or.inl (.named (reads_readText entry.1 _) (reads_readColon blanks_nil _)
    (hEntry.refuses _ _ hRest ?_))
  obtain ⟨c, tail, hText, hBlank⟩ := hEntry.first
  rw [List.append_assoc, skip_blanks hColonGap, hText, List.cons_append, skip_cons hBlank]

/-- Of members that are each accepted or rejected, one is rejected. -/
theorem refusesFrom_entries (hGap : Blanks gap)
    (hColonGap : Blanks colonGap) (hMargin : Blanks margin)
    (hEntries : ∀ other ∈ entry :: entries,
      Accepts item (text other.2) (value other.2) ∨ Rejects item (text other.2))
    (hRejected : ∃ other ∈ entry :: entries, Rejects item (text other.2)) (rest : List Char) :
    RefusesFrom item (entry.1.toList.flatMap escapeChar ++ '"' :: ':' ::
      (colonGap ++ text entry.2 ++
        (following gap margin '\x7d' (memberTexts colonGap text entries) ++ rest))) := by
  induction entries generalizing entry with
  | nil =>
      obtain ⟨other, hOther, hRejected⟩ := hRejected
      rw [List.mem_singleton.mp hOther] at hRejected
      exact refusesFrom_rejected hColonGap hRejected
        (endsNumber_following gap hMargin (endsNumber_brace rest) _)
  | cons next entries ih =>
      have hEnds := endsNumber_following gap hMargin (endsNumber_brace rest)
        (memberTexts colonGap text (next :: entries))
      by_cases hHead : Rejects item (text entry.2)
      · exact refusesFrom_rejected hColonGap hHead hEnds
      · have hAccepted := (hEntries entry List.mem_cons_self).resolve_right hHead
        have hTail : ∃ other ∈ next :: entries, Rejects item (text other.2) := by
          obtain ⟨other, hOther, hRejected⟩ := hRejected
          rcases List.mem_cons.mp hOther with rfl | hOther
          · exact absurd hRejected hHead
          · exact ⟨other, hOther, hRejected⟩
        have hMore := ih (fun other hOther => hEntries other (List.mem_cons_of_mem entry hOther))
          hTail
        refine refusesFrom_cons hColonGap hAccepted hEnds ?_
        rw [memberTexts, List.map_cons, following_cons, List.append_assoc]
        exact hMore.nextMember (skip_cons (by decide) _) (skip_memberText hGap next.1 _ _)

/-- A record with a member that is rejected is refused. -/
theorem refuses_readMembers (hGap : Blanks gap)
    (hColonGap : Blanks colonGap) (hMargin : Blanks margin)
    (hEntries : ∀ entry ∈ entries,
      Accepts item (text entry.2) (value entry.2) ∨ Rejects item (text entry.2))
    (hRejected : ∃ entry ∈ entries, Rejects item (text entry.2)) (rest : List Char) :
    Refuses (readMembers item)
      (inside gap margin '\x7d' (memberTexts colonGap text entries) ++ rest) := by
  cases entries with
  | nil =>
      obtain ⟨entry, hEntry, -⟩ := hRejected
      cases hEntry
  | cons entry entries =>
      have hMore := refusesFrom_entries hGap hColonGap hMargin hEntries hRejected rest
      rw [memberTexts, List.map_cons, inside, List.append_assoc]
      exact hMore.firstMember (skip_memberText hGap entry.1 _ _)

end Record

end SnapshotStore.Json
