import SnapshotStore.Proofs.Json.Refused
import SnapshotStore.Proofs.Snapshot.RoundTrip
import SnapshotStore.Proofs.Snapshot.Storable

/-! The text of a snapshot that may not be stored is not accepted: `null` is no
value, and no key may be empty. -/
namespace SnapshotStore.Snapshot

open Json

theorem rejects_valueText (layout : Layout) {value : Value} (hValue : value.isStorable = false) :
    Rejects readMemberValue (valueText layout value) := by
  have hText : valueText layout value = ['n', 'u', 'l', 'l'] := by
    cases value with
    | number n =>
        cases n with
        | int i => cases hValue
        | float f =>
            cases f with
            | finite negative m => cases hValue
            | _ => cases layout <;> rfl
    | _ => cases hValue
  rw [hText]
  refine ⟨⟨'n', _, rfl, by decide⟩, fun input rest hRest hSkip => ?_⟩
  obtain ⟨shorter, hRead⟩ := (@accepts_word (maxDepth - 1) _ _ _ .null).reads input rest hRest hSkip
  exact ⟨.unsupportedValue, by simp [readMemberValue, hRead, Value.ofJson?]⟩

theorem refuses_membersText (layout : Layout) {s : Snapshot}
    (hs : ∃ entry ∈ s.entries, entry.2.isStorable = false) (rest : List Char) :
    Refuses (readMembers readMemberValue) (membersText layout s ++ rest) := by
  have hEntries : ∀ entry ∈ s.entries,
      Accepts readMemberValue (valueText layout entry.2) entry.2.reloaded ∨
        Rejects readMemberValue (valueText layout entry.2) := fun entry _ => by
    cases hValue : entry.2.isStorable with
    | true => exact Or.inl (accepts_valueText layout hValue)
    | false => exact Or.inr (rejects_valueText layout hValue)
  have hRejected : ∃ entry ∈ s.entries, Rejects readMemberValue (valueText layout entry.2) := by
    obtain ⟨entry, hEntry, hValue⟩ := hs
    exact ⟨entry, hEntry, rejects_valueText layout hValue⟩
  cases layout with
  | pretty =>
      have hGap : Blanks ['\n', ' ', ' '] := by simp [Blanks, isBlank]
      have hColonGap : Blanks [' '] := by simp [Blanks, isBlank]
      have hMargin : Blanks ['\n'] := by simp [Blanks, isBlank]
      exact refuses_readMembers hGap hColonGap hMargin hEntries hRejected rest
  | compact =>
      exact refuses_readMembers blanks_nil blanks_nil blanks_nil hEntries hRejected rest

theorem readRecord_encode_error (layout : Layout) {s : Snapshot}
    (hs : ∃ entry ∈ s.entries, entry.2.isStorable = false) :
    ∃ fault, readRecord (encode layout s) = .error fault := by
  obtain ⟨fault, hRefused⟩ := refuses_membersText layout hs ['\n']
  exact ⟨.json fault, by simp [readRecord, skip_encode, hRefused]⟩

/-- The text of a snapshot is accepted only if the snapshot may be stored. -/
theorem storable_of_decode_encode {layout : Layout} {s loaded : Snapshot}
    (h : decode (encode layout s) = .ok loaded) : s.Storable := by
  have hLoaded := storable_of_decode h
  obtain ⟨members, hMembers, rfl, -⟩ := checked_of_decode h
  have hValues : ∀ entry ∈ s.entries, entry.2.isStorable = true := by
    by_contra hBad
    simp only [not_forall, Bool.not_eq_true] at hBad
    obtain ⟨entry, hEntry, hValue⟩ := hBad
    obtain ⟨fault, hRefused⟩ := readRecord_encode_error layout ⟨entry, hEntry, hValue⟩
    rw [hRefused] at hMembers
    cases hMembers
  obtain rfl := Except.ok.inj (hMembers.symm.trans (readRecord_encode layout hValues))
  rw [KeyMap.ofList_entries] at hLoaded
  exact fun entry hEntry =>
    ⟨(hLoaded (entry.1, entry.2.reloaded) (List.mem_map_of_mem hEntry)).1, hValues entry hEntry⟩

/-- A file with such a text is called corrupt. -/
theorem ofContent_content_error (layout : Layout) {s : Snapshot} (hs : ¬ s.Storable) :
    ∃ reason, ofContent (content layout s) = .error reason := by
  cases hDecode : decode (encode layout s) with
  | ok loaded => exact absurd (storable_of_decode_encode hDecode) hs
  | error fault => exact ⟨.notSnapshot fault, by simp [ofContent, fromUTF8?_content, hDecode]⟩

end SnapshotStore.Snapshot
