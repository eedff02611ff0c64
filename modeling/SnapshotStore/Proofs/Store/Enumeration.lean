import SnapshotStore.KeyMap.Lemmas
import SnapshotStore.Ledger

/-! Enumerating what stands under a stem. The texts that begin with a stem are
neighbours in the order of texts, and the stem itself is the first of them. So a
scan that begins at the stem, and stops at the first key that does not begin with
it, has come past all of them. -/
namespace SnapshotStore

namespace Text

variable {stem middle high text : String}

/-! ### Stems in the order of texts -/

theorem append_lt_append_iff (front : List Char) {a b : List Char} :
    front ++ a < front ++ b ↔ a < b := by
  induction front with
  | nil => rfl
  | cons c front ih =>
      rw [List.cons_append, List.cons_append, List.cons_lt_cons_iff, ih]
      constructor
      · rintro (hFirst | ⟨-, hRest⟩)
        · exact absurd hFirst (Char.lt_irrefl c)
        · exact hRest
      · intro hRest
        exact Or.inr ⟨rfl, hRest⟩

/-- Texts with one stem are ordered as what follows it. -/
theorem lt_iff_of_stem (stem a b : String) : stem ++ a < stem ++ b ↔ a < b := by
  rw [String.lt_iff, String.lt_iff, String.toList_append, String.toList_append,
    append_lt_append_iff]

theorem not_lt_of_startsWith (h : startsWith text stem = true) : ¬ text < stem := by
  intro hBelow
  obtain ⟨rest, rfl⟩ := startsWith_iff.mp h
  have hEmpty : stem ++ rest < stem ++ "" := by rwa [String.append_empty]
  rw [lt_iff_of_stem, String.lt_iff] at hEmpty
  exact List.not_lt_nil rest.toList hEmpty

theorem isPrefix_of_between {stem middle high : List Char} (hHigh : stem <+: high)
    (hLow : ¬ middle < stem) (hMiddle : ¬ high < middle) : stem <+: middle := by
  induction stem generalizing middle high with
  | nil => exact List.nil_prefix
  | cons c stem ih =>
      obtain ⟨rest, rfl⟩ := hHigh
      cases middle with
      | nil => exact absurd (List.nil_lt_cons c stem) hLow
      | cons d middle =>
          simp only [List.cons_append, List.cons_lt_cons_iff, not_or, not_and] at hLow hMiddle
          -- neither first character is below the other one
          have hSame : c = d := Char.le_antisymm (Char.not_lt.mp hLow.1) (Char.not_lt.mp hMiddle.1)
          subst hSame
          have hRest := ih (List.prefix_append stem rest) (hLow.2 rfl) (hMiddle.2 rfl)
          exact (List.prefix_cons_inj c).mpr hRest

/-- What lies between a stem and a text that begins with it begins with it too. -/
theorem startsWith_of_between (hHigh : startsWith high stem = true) (hLow : ¬ middle < stem)
    (hMiddle : ¬ high < middle) : startsWith middle stem = true := by
  rw [startsWith, List.isPrefixOf_iff_prefix] at hHigh ⊢
  exact isPrefix_of_between hHigh hLow hMiddle

theorem withoutStem_append (stem rest : String) : withoutStem (stem ++ rest) stem = rest := by
  rw [withoutStem, String.toList_append, List.drop_left, String.ofList_toList]

end Text

namespace KeyMap

universe u

variable {α : Type u} {entries : List (String × α)} {stem : String}

/-! ### The scan -/

/-- From the stem on, the entries under it come first. -/
theorem takeWhile_startsWith (hIncreasing : entries.Pairwise fun a b => a.1 < b.1)
    (hFrom : ∀ entry ∈ entries, ¬ entry.1 < stem) :
    entries.takeWhile (fun entry => Text.startsWith entry.1 stem) =
      entries.filter fun entry => Text.startsWith entry.1 stem := by
  induction entries with
  | nil => rfl
  | cons head rest ih =>
      obtain ⟨hFirst, hOthers⟩ := List.pairwise_cons.mp hIncreasing
      have hHead := hFrom head List.mem_cons_self
      by_cases hUnder : Text.startsWith head.1 stem = true
      · have hRest := ih hOthers fun entry hEntry => hFrom entry (List.mem_cons_of_mem head hEntry)
        rw [List.takeWhile_cons, List.filter_cons, if_pos hUnder, if_pos hUnder, hRest]
      · -- an entry under the stem later on would have this one between
        have hNone : ∀ entry ∈ rest, ¬ Text.startsWith entry.1 stem = true := by
          intro entry hEntry hLater
          have hBehind := String.lt_asymm (hFirst entry hEntry)
          exact hUnder (Text.startsWith_of_between hLater hHead hBehind)
        rw [List.takeWhile_cons, List.filter_cons, if_neg hUnder, if_neg hUnder,
          List.filter_eq_nil_iff.mpr hNone]

theorem scan_eq_filter (hIncreasing : entries.Pairwise fun a b => a.1 < b.1) :
    (entries.dropWhile fun entry => entry.1 < stem).takeWhile
        (fun entry => Text.startsWith entry.1 stem) =
      entries.filter fun entry => Text.startsWith entry.1 stem := by
  induction entries with
  | nil => rfl
  | cons head rest ih =>
      obtain ⟨hFirst, hOthers⟩ := List.pairwise_cons.mp hIncreasing
      by_cases hBelow : head.1 < stem
      · have hNotUnder : ¬ Text.startsWith head.1 stem = true := fun hUnder =>
          Text.not_lt_of_startsWith hUnder hBelow
        rw [List.dropWhile_cons, List.filter_cons, if_pos (decide_eq_true hBelow),
          if_neg hNotUnder, ih hOthers]
      · rw [List.dropWhile_cons, if_neg (by rwa [decide_eq_true_iff])]
        refine takeWhile_startsWith hIncreasing fun entry hEntry hLow => ?_
        rcases List.mem_cons.mp hEntry with rfl | hLater
        · exact hBelow hLow
        · exact hBelow (String.lt_trans (hFirst entry hLater) hLow)

/-- The scan leaves out no entry under the stem, and nothing else is in it. -/
theorem under_eq_filter (m : KeyMap α) (stem : String) :
    m.under stem = m.entries.filter fun entry => Text.startsWith entry.1 stem :=
  scan_eq_filter m.increasing

theorem increasing_under (m : KeyMap α) (stem : String) :
    (m.under stem).Pairwise fun a b => a.1 < b.1 := by
  rw [under_eq_filter]
  exact m.increasing.filter _

theorem mem_under {m : KeyMap α} {key : String} {value : α} :
    (key, value) ∈ m.under stem ↔ m.get? key = some value ∧ ∃ rest, key = stem ++ rest := by
  rw [under_eq_filter, List.mem_filter, get?_eq_some_iff, Text.startsWith_iff]

end KeyMap

namespace Store

/-! ### Keys and members -/

theorem mem_keys {s : Store} {stem key : String} :
    key ∈ s.keys stem ↔ s.has key = true ∧ ∃ rest, key = stem ++ rest := by
  rw [keys, entries, has, KeyMap.contains_eq_true_iff, List.mem_map]
  constructor
  · rintro ⟨⟨key, value⟩, hEntry, rfl⟩
    obtain ⟨hValue, hUnder⟩ := KeyMap.mem_under.mp hEntry
    exact ⟨⟨value, hValue⟩, hUnder⟩
  · rintro ⟨⟨value, hValue⟩, hUnder⟩
    exact ⟨(key, value), KeyMap.mem_under.mpr ⟨hValue, hUnder⟩, rfl⟩

theorem increasing_keys (s : Store) (stem : String) : (s.keys stem).Pairwise (· < ·) :=
  List.pairwise_map.mpr (s.data.increasing_under stem)

end Store

namespace Ledger

/-- The members are enumerated as their keys are. -/
theorem map_key_accounts (l : Ledger) (s : Store) : (l.accounts s).map l.key = s.keys l.stem := by
  have hKeys : ∀ key ∈ s.keys l.stem, l.key (Text.withoutStem key l.stem) = key := by
    intro key hKey
    obtain ⟨-, rest, rfl⟩ := Store.mem_keys.mp hKey
    rw [Text.withoutStem_append, Ledger.key]
  rw [accounts, List.map_map]
  calc (s.keys l.stem).map (l.key ∘ (Text.withoutStem · l.stem))
      = (s.keys l.stem).map id := List.map_congr_left hKeys
    _ = s.keys l.stem := List.map_id _

theorem mem_accounts {l : Ledger} {s : Store} {identity : String} :
    identity ∈ l.accounts s ↔ s.has (l.key identity) = true := by
  rw [accounts, List.mem_map]
  constructor
  · rintro ⟨key, hKey, rfl⟩
    obtain ⟨hHas, rest, rfl⟩ := Store.mem_keys.mp hKey
    rwa [Text.withoutStem_append, Ledger.key]
  · intro hHas
    exact ⟨l.key identity, Store.mem_keys.mpr ⟨hHas, identity, rfl⟩,
      Text.withoutStem_append l.stem identity⟩

theorem increasing_accounts (l : Ledger) (s : Store) : (l.accounts s).Pairwise (· < ·) := by
  have hKeys := s.increasing_keys l.stem
  rw [← l.map_key_accounts s, List.pairwise_map] at hKeys
  exact hKeys.imp fun hLess => (Text.lt_iff_of_stem l.stem _ _).mp hLess

end Ledger

namespace Store

/-- Enumerating under a stem is exact, whatever the stem is. The entries are those
of the whole content whose keys begin with the stem, in strictly increasing order of
the keys, so that none is left out and none comes twice; the keys are theirs. The
members of a ledger are those whose key is there, in strictly increasing order too,
and each of them once. -/
theorem enumeration_exact (s : Store) (stem : String) :
    s.entries stem = s.data.entries.filter (fun entry => Text.startsWith entry.1 stem) ∧
    (∀ key value, (key, value) ∈ s.entries stem ↔
      s.get? key = some value ∧ ∃ rest, key = stem ++ rest) ∧
    (s.entries stem).Pairwise (fun a b => a.1 < b.1) ∧
    s.keys stem = (s.entries stem).map Prod.fst ∧
    (∀ key, key ∈ s.keys stem ↔ s.has key = true ∧ ∃ rest, key = stem ++ rest) ∧
    (s.keys stem).Pairwise (· < ·) ∧
    ∀ l : Ledger, (l.accounts s).map l.key = s.keys l.stem ∧
      (∀ identity, identity ∈ l.accounts s ↔ s.has (l.key identity) = true) ∧
      (l.accounts s).Pairwise (· < ·) := by
  refine ⟨s.data.under_eq_filter stem, ?_, s.data.increasing_under stem, rfl, ?_,
    s.increasing_keys stem, ?_⟩
  · intro key value
    exact KeyMap.mem_under
  · intro key
    exact mem_keys
  · intro l
    exact ⟨l.map_key_accounts s, fun identity => Ledger.mem_accounts, l.increasing_accounts s⟩

/-- Without a dot there is no member, and an empty name after the dot is one; a dot
in a name is nothing special. The next text after all of those that begin with
`bal.` is left out. -/
example : Ledger.accounts ⟨"bal", .int 0⟩ (.opened {} (.ofList [("bal", .bool true),
    ("bal.", .bool true), ("bal.a.b", .bool true), ("bal.é", .bool true), ("bal/", .bool true)])) =
    ["", "a.b", "é"] := by
  decide

end Store

end SnapshotStore
