import Mathlib.Tactic.SplitIfs
import SnapshotStore.KeyMap.Lemmas
import SnapshotStore.Snapshot.File

/-! Snapshots that may be written to a file: what keeps them so, and that a file
gives no others. -/
namespace SnapshotStore.Snapshot

variable {s : Snapshot} {key : String} {value : Value}

theorem storable_iff : s.Storable ↔
    ∀ key value, s.get? key = some value → key ≠ "" ∧ value.isStorable = true := by
  constructor
  · exact fun h key value hValue => h _ (KeyMap.get?_eq_some_iff.mp hValue)
  · exact fun h entry hEntry => h entry.1 entry.2 (KeyMap.get?_eq_some_iff.mpr hEntry)

theorem storable_empty : Storable .empty := by
  intro entry hEntry
  cases hEntry

theorem Storable.insert (h : s.Storable) (hKey : key ≠ "") (hValue : value.isStorable = true) :
    Storable (KeyMap.insert s key value) := by
  rw [storable_iff] at h ⊢
  intro other held hHeld
  rw [KeyMap.get?_insert] at hHeld
  split_ifs at hHeld with hSame
  · obtain rfl := Option.some.inj hHeld
    exact ⟨hSame ▸ hKey, hValue⟩
  · exact h other held hHeld

theorem Storable.erase (h : s.Storable) : Storable (KeyMap.erase s key) := by
  rw [storable_iff] at h ⊢
  intro other held hHeld
  rw [KeyMap.get?_erase] at hHeld
  split_ifs at hHeld
  exact h other held hHeld

/-- What is found to hold no empty key and no number that is not finite may be
stored. -/
theorem storable_of_checked (hKey : s.contains "" = false) (hFinite : notFinite? s = none) :
    s.Storable := by
  intro entry hEntry
  constructor
  · rintro hEmpty
    have hFound : s.contains "" = true :=
      KeyMap.contains_eq_true_iff.mpr ⟨entry.2, KeyMap.get?_eq_some_iff.mpr (hEmpty ▸ hEntry)⟩
    rw [hKey] at hFound
    cases hFound
  · rw [notFinite?, Option.map_eq_none_iff, List.find?_eq_none] at hFinite
    simpa using hFinite entry hEntry

theorem notFinite?_of_storable (hs : s.Storable) : notFinite? s = none := by
  have hFind : s.entries.find? (fun entry => !entry.2.isStorable) = none := by
    rw [List.find?_eq_none]
    intro entry hEntry
    simp [(hs entry hEntry).2]
  rw [notFinite?, hFind]
  rfl

theorem contains_empty_of_storable (hs : s.Storable) : s.contains "" = false := by
  rw [← Bool.not_eq_true, KeyMap.contains_eq_true_iff]
  rintro ⟨value, hValue⟩
  exact (hs _ (KeyMap.get?_eq_some_iff.mp hValue)).1 rfl

theorem decode_of_readRecord {text : String} {members : List (String × Value)}
    (hBlank : Text.isBlankText text.toList = false) (hRecord : readRecord text = .ok members)
    (hs : Storable (KeyMap.ofList members)) : decode text = .ok (KeyMap.ofList members) := by
  simp [decode, hBlank, hRecord, contains_empty_of_storable hs, notFinite?_of_storable hs]

/-- A text is accepted if the snapshot of its members passes both checks. -/
theorem checked_of_decode {text : String} (h : decode text = .ok s) :
    ∃ members, readRecord text = .ok members ∧ s = KeyMap.ofList members ∧
      s.contains "" = false ∧ notFinite? s = none := by
  unfold decode at h
  split_ifs at h with hBlank
  cases hRecord : readRecord text with
  | error fault => simp [hRecord] at h
  | ok members =>
      simp only [hRecord] at h
      split_ifs at h with hKey
      cases hFinite : notFinite? (KeyMap.ofList members) with
      | some key => simp [hFinite] at h
      | none =>
          rw [hFinite] at h
          obtain rfl := Except.ok.inj h
          exact ⟨members, rfl, rfl, Bool.eq_false_iff.mpr hKey, hFinite⟩

/-- Whatever a text describes may be stored. -/
theorem storable_of_decode {text : String} (h : decode text = .ok s) : s.Storable := by
  obtain ⟨members, -, -, hKey, hFinite⟩ := checked_of_decode h
  exact storable_of_checked hKey hFinite

theorem storable_of_ofContent {content : ByteArray} (h : ofContent content = .ok s) :
    s.Storable := by
  unfold ofContent at h
  cases hText : String.fromUTF8? content with
  | none => simp [hText] at h
  | some text =>
      rw [hText] at h
      dsimp only at h
      cases hDecode : decode text with
      | error fault => simp [hDecode] at h
      | ok stored =>
          rw [hDecode] at h
          obtain rfl := Except.ok.inj h
          exact storable_of_decode hDecode

end SnapshotStore.Snapshot
