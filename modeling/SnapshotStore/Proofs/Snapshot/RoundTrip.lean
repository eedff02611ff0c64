import SnapshotStore.KeyMap.Lemmas
import SnapshotStore.Proofs.Json.Spelled
import SnapshotStore.Proofs.Snapshot.Language

/-! The text of a snapshot is read back in either layout: every key with a
value of the same kind, and the same value except where the digits of a
floating number lead to another one. -/
namespace SnapshotStore

open Json

/-- The value that is read from the text of a value. -/
def Value.reloaded : Value → Value
  | .number (.float (.finite negative m)) => .number (.float (.finite negative (reread m)))
  | v => v

namespace Snapshot

/-- The snapshot that is read from the text of a snapshot. -/
def reloaded (s : Snapshot) : Snapshot :=
  s.mapValues fun _ value => value.reloaded

/-- How a value is written in a record of this layout. -/
def valueText : Layout → Value → List Char
  | .pretty => prettyValue
  | .compact => Value.json

/-! ### Layouts -/

theorem intercalate_cons_eq (separator part : List Char) (parts : List (List Char)) :
    separator.intercalate (part :: parts) = part ++ parts.flatMap (separator ++ ·) := by
  induction parts generalizing part with
  | nil => simp
  | cons next parts ih => simp [ih]

theorem inside_compact (closing : Char) (parts : List (List Char)) :
    inside [] [] closing parts = [','].intercalate parts ++ [closing] := by
  cases parts with
  | nil => rfl
  | cons part parts => simp [inside, following, intercalate_cons_eq]

theorem block_eq (opening closing : Char) (indent : List Char) (parts : List (List Char)) :
    block opening closing indent parts =
      opening :: inside ('\n' :: indent ++ [' ', ' ']) ('\n' :: indent) closing parts := by
  cases parts with
  | nil => rfl
  | cons part parts =>
      simp [block, inside, following, intercalate_cons_eq, List.flatMap_map]

theorem isBlank_of_mem_gap {c : Char} (h : c ∈ ['\n', ' ', ' ', ' ', ' ']) : isBlank c = true := by
  simp only [List.mem_cons, List.not_mem_nil, or_false, or_self] at h
  rcases h with rfl | rfl <;> decide

/-! ### Values -/

theorem parts_quote {gap margin : List Char} (hGap : Blanks gap) (hMargin : Blanks margin)
    (items : List String) :
    Parts QuotedText ']' (inside gap margin ']' (items.map quote)) items := by
  have hParts : Parts QuotedText ']' (inside gap margin ']' (items.map quote))
      (items.map fun item => item) :=
    parts_inside hGap hMargin fun item _ => quotedText_quote item
  rwa [List.map_id'] at hParts

theorem valueText_compactList (items : List String) :
    ValueText (Value.listJson items) (.list items) := by
  have hList := ValueText.list (parts_quote blanks_nil blanks_nil items)
  rw [inside_compact] at hList
  exact hList

theorem valueText_prettyList (items : List String) :
    ValueText (prettyValue (.list items)) (.list items) := by
  rw [prettyValue, block_eq]
  refine .list (parts_quote (fun c hc => ?_) (fun c hc => ?_) items)
  · exact isBlank_of_mem_gap hc
  · exact isBlank_of_mem_gap (List.mem_append_left [' ', ' '] hc)

/-- Every value that may be stored is written as a value, in either layout. -/
theorem valueText_reloaded (layout : Layout) {value : Value} (hValue : value.isStorable = true) :
    ValueText (valueText layout value) value.reloaded := by
  cases value with
  | bool b =>
      have hText : valueText layout (.bool b) = Value.boolJson b := by cases layout <;> rfl
      rw [hText]
      exact .bool b
  | number n =>
      have hText : valueText layout (.number n) = Value.numberJson n := by cases layout <;> rfl
      rw [hText]
      cases n with
      | int i =>
          obtain ⟨l, hValid, hWritten, hDenotes⟩ := exists_literal_ofInt i
          rw [Value.numberJson, ← hWritten]
          exact .number hValid hDenotes
      | float f =>
          cases f with
          | nan => cases hValue
          | infinite negative => cases hValue
          | finite negative m =>
              obtain ⟨l, hValid, hWritten, hDenotes⟩ := exists_literal_mixed negative m
              rw [Value.numberJson, ← hWritten]
              exact .number hValid hDenotes
  | text t =>
      have hText : valueText layout (.text t) = quote t := by cases layout <;> rfl
      rw [hText]
      exact .text (quotedText_quote t)
  | list items =>
      cases layout with
      | pretty => exact valueText_prettyList items
      | compact => exact valueText_compactList items

theorem accepts_valueText (layout : Layout) {value : Value} (hValue : value.isStorable = true) :
    Accepts readMemberValue (valueText layout value) value.reloaded :=
  (valueText_reloaded layout hValue).accepts

/-! ### Records -/

/-- What stands after the opening brace of a record. -/
def membersText (layout : Layout) (s : Snapshot) : List Char :=
  match layout with
  | .pretty => inside ['\n', ' ', ' '] ['\n'] '\x7d' (memberTexts [' '] (valueText .pretty) s.entries)
  | .compact => inside [] [] '\x7d' (memberTexts [] (valueText .compact) s.entries)

theorem written_eq (layout : Layout) (s : Snapshot) :
    written layout s = '\x7b' :: membersText layout s := by
  cases layout with
  | pretty => rw [written, block_eq]; rfl
  | compact => rw [written, membersText, inside_compact]; rfl

theorem reads_membersText (layout : Layout) {s : Snapshot}
    (hs : ∀ entry ∈ s.entries, entry.2.isStorable = true) (rest : List Char) :
    Reads (readMembers readMemberValue) (membersText layout s ++ rest) s.reloaded.entries rest := by
  have hEntries : ∀ entry ∈ s.entries,
      Accepts readMemberValue (valueText layout entry.2) entry.2.reloaded :=
    fun entry hEntry => accepts_valueText layout (hs entry hEntry)
  cases layout with
  | pretty =>
      have hGap : Blanks ['\n', ' ', ' '] := by simp [Blanks, isBlank]
      have hColonGap : Blanks [' '] := by simp [Blanks, isBlank]
      have hMargin : Blanks ['\n'] := by simp [Blanks, isBlank]
      exact reads_readMembers hGap hColonGap hMargin hEntries rest
  | compact =>
      exact reads_readMembers blanks_nil blanks_nil blanks_nil hEntries rest

theorem skip_encode (layout : Layout) (s : Snapshot) :
    skip (encode layout s).toList = '\x7b' :: (membersText layout s ++ ['\n']) := by
  rw [encode, String.toList_ofList, written_eq, List.cons_append, skip_cons (by decide)]

theorem readRecord_encode (layout : Layout) {s : Snapshot}
    (hs : ∀ entry ∈ s.entries, entry.2.isStorable = true) :
    readRecord (encode layout s) = .ok s.reloaded.entries := by
  obtain ⟨shorter, hRead⟩ := reads_membersText layout hs ['\n']
  have hEnd : skip ['\n'] = [] := rfl
  simp [readRecord, skip_encode, hRead, finish, hEnd]

theorem not_isBlankText_encode (layout : Layout) (s : Snapshot) :
    Text.isBlankText (encode layout s).toList = false := by
  rw [encode, String.toList_ofList, written_eq]
  rfl

theorem isStorable_reloaded {value : Value} (h : value.isStorable = true) :
    value.reloaded.isStorable = true := by
  unfold Value.reloaded
  split
  · rfl
  · exact h

theorem Storable.reloaded {s : Snapshot} (hs : s.Storable) : s.reloaded.Storable := by
  intro entry hEntry
  obtain ⟨original, hOriginal, rfl⟩ := List.mem_map.mp hEntry
  exact ⟨(hs original hOriginal).1, isStorable_reloaded (hs original hOriginal).2⟩

/-- Decoding the text of a snapshot, in either layout, gives the same snapshot
with every floating number read again. -/
theorem decode_encode_reloaded (layout : Layout) {s : Snapshot} (hs : s.Storable) :
    decode (encode layout s) = .ok s.reloaded := by
  have hDecode := decode_of_readRecord (not_isBlankText_encode layout s)
    (readRecord_encode layout fun entry hEntry => (hs entry hEntry).2)
  rw [KeyMap.ofList_entries] at hDecode
  exact hDecode hs.reloaded

theorem fromUTF8?_content (layout : Layout) (s : Snapshot) :
    String.fromUTF8? (content layout s) = some (encode layout s) :=
  dif_pos (encode layout s).isValidUTF8

theorem ofContent_content (layout : Layout) {s : Snapshot} (hs : s.Storable) :
    ofContent (content layout s) = .ok s.reloaded := by
  simp [ofContent, fromUTF8?_content, decode_encode_reloaded layout hs]

/-! ### Floating numbers -/

theorem get?_reloaded (s : Snapshot) (key : String) :
    s.reloaded.get? key = (s.get? key).map Value.reloaded :=
  KeyMap.get?_mapValues s _ key

/-- A floating number comes back with its sign, and with the magnitude that
stepwise scaling makes of its shortest digits. It is the same number exactly
where that is the same magnitude, in particular where the digits and the power
of ten are both small enough to be exact. -/
theorem decode_encode_float (layout : Layout) {s : Snapshot} (hs : s.Storable) {key : String}
    {negative : Bool} {m : Magnitude}
    (h : s.get? key = some (.number (.float (.finite negative m)))) :
    ∃ s', decode (encode layout s) = .ok s' ∧
      s'.get? key = some (.number (.float (.finite negative (reread m)))) ∧
      (s'.get? key = s.get? key ↔ scale? (shown m).digits (shown m).exponent = some m) ∧
      ((shown m).digits ≤ 2 ^ 53 → (shown m).exponent.natAbs ≤ 22 → s'.get? key = s.get? key) := by
  have hReloaded : s.reloaded.get? key =
      some (.number (.float (.finite negative (reread m)))) := by
    rw [get?_reloaded, h]
    rfl
  have hSame : s.reloaded.get? key = s.get? key ↔ reread m = m := by
    rw [hReloaded, h]
    simp
  refine ⟨s.reloaded, decode_encode_reloaded layout hs, hReloaded, ?_, fun hDigits hExponent => ?_⟩
  · rw [hSame, scale?_shown, Option.some_inj]
  · exact hSame.mpr (reread_eq_self m hDigits hExponent)

/-- The number `1e-23`, whose text is read as the next larger one. -/
def tinyMagnitude : Magnitude :=
  ⟨0x3b282db34012b251, by decide⟩

def tinySnapshot : Snapshot :=
  KeyMap.empty.insert "k" (.number (.float (.finite false tinyMagnitude)))

theorem decode_encode_tiny :
    tinySnapshot.get? "k" = some (.number (.float (.finite false tinyMagnitude))) ∧
      ∃ s', decode (encode .pretty tinySnapshot) = .ok s' ∧ s'.get? "k" ≠ tinySnapshot.get? "k" := by
  have hStorable : tinySnapshot.Storable := by
    intro entry hEntry
    rw [List.mem_singleton.mp hEntry]
    exact ⟨by decide, rfl⟩
  have hHeld : tinySnapshot.get? "k" = some (.number (.float (.finite false tinyMagnitude))) := by
    rw [tinySnapshot, KeyMap.get?_insert, if_pos rfl]
  have hDrifts : scale? (shown tinyMagnitude).digits (shown tinyMagnitude).exponent ≠
      some tinyMagnitude := by
    decide +kernel
  obtain ⟨s', hDecode, -, hSame, -⟩ := decode_encode_float .pretty hStorable hHeld
  exact ⟨hHeld, s', hDecode, fun h => hDrifts (hSame.mp h)⟩

end Snapshot

end SnapshotStore
