import SnapshotStore.KeyMap.Basic

/-! What the operations of a map do to its view `get?`. A map is known by its
view: two maps that give the same value at every key are equal, because their
entries stand in the same order. -/
namespace SnapshotStore.KeyMap

universe u v

variable {α : Type u} {β : Type v}

/-! ### Lookups in ordered lists -/

theorem lookup_cons_self (key : String) (value : α) (entries : List (String × α)) :
    ((key, value) :: entries).lookup key = some value := by
  rw [List.lookup_cons, beq_self_eq_true]

theorem lookup_cons_of_ne {key k : String} (different : key ≠ k) (value : α)
    (entries : List (String × α)) :
    ((k, value) :: entries).lookup key = entries.lookup key := by
  rw [List.lookup_cons, beq_eq_false_iff_ne.2 different]

/-- In an ordered list a key is found with the one value that it stands with. -/
theorem lookup_eq_some_iff {key : String} {value : α} {entries : List (String × α)}
    (increasing : entries.Pairwise fun a b => a.1 < b.1) :
    entries.lookup key = some value ↔ (key, value) ∈ entries := by
  induction entries with
  | nil => simp
  | cons head rest ih =>
    obtain ⟨k, first⟩ := head
    obtain ⟨below, others⟩ := List.pairwise_cons.1 increasing
    by_cases same : key = k
    · subst same
      rw [lookup_cons_self]
      constructor
      · intro found
        cases found
        exact List.mem_cons_self ..
      · intro member
        rcases List.mem_cons.1 member with equal | member
        · cases equal
          rfl
        · exact absurd (below _ member) (String.lt_irrefl _)
    · rw [lookup_cons_of_ne same]
      constructor
      · intro found
        exact List.mem_cons_of_mem _ ((ih others).1 found)
      · intro member
        rcases List.mem_cons.1 member with equal | member
        · cases equal
          exact absurd rfl same
        · exact (ih others).2 member

/-- Placing an entry decides what is found at its key, and only there. -/
theorem lookup_place (key other : String) (value : α) (entries : List (String × α)) :
    (place key value entries).lookup other =
      if other = key then some value else entries.lookup other := by
  induction entries with
  | nil =>
    rw [place]
    split
    · next same => rw [same, lookup_cons_self]
    · next different => rw [lookup_cons_of_ne different]
  | cons head rest ih =>
    obtain ⟨k, first⟩ := head
    rw [place]
    split
    · split
      · next same => rw [same, lookup_cons_self]
      · next different => rw [lookup_cons_of_ne different]
    · next notBelow =>
      split
      · next above =>
        by_cases atHead : other = k
        · subst atHead
          have different : other ≠ key := fun same => String.lt_irrefl _ (same ▸ above)
          rw [lookup_cons_self, lookup_cons_self, if_neg different]
        · rw [lookup_cons_of_ne atHead, lookup_cons_of_ne atHead, ih]
      · next notAbove =>
        have same : k = key :=
          String.le_antisymm (String.not_lt.1 notBelow) (String.not_lt.1 notAbove)
        subst same
        split
        · next same => rw [same, lookup_cons_self]
        · next different => rw [lookup_cons_of_ne different, lookup_cons_of_ne different]

/-! ### The view -/

@[simp]
theorem get?_empty (key : String) : (empty : KeyMap α).get? key = none :=
  rfl

/-- The entries of a map are its keys with what the view gives there. -/
theorem get?_eq_some_iff {m : KeyMap α} {key : String} {value : α} :
    m.get? key = some value ↔ (key, value) ∈ m.entries :=
  lookup_eq_some_iff m.increasing

@[simp]
theorem get?_insert (m : KeyMap α) (key other : String) (value : α) :
    (m.insert key value).get? other = if other = key then some value else m.get? other :=
  lookup_place key other value m.entries

theorem mem_entries_filter {m : KeyMap α} {test : String × α → Bool} {entry : String × α} :
    entry ∈ (m.filter test).entries ↔ entry ∈ m.entries ∧ test entry = true := by
  rw [filter, List.mem_filter]

@[simp]
theorem get?_erase (m : KeyMap α) (key other : String) :
    (m.erase key).get? other = if other = key then none else m.get? other := by
  apply Option.ext
  intro value
  rw [get?_eq_some_iff, erase, mem_entries_filter]
  by_cases same : other = key
  · simp [same]
  · simp [same, get?_eq_some_iff]

@[simp]
theorem get?_mapValues (m : KeyMap α) (f : String → α → β) (key : String) :
    (m.mapValues f).get? key = (m.get? key).map (f key) := by
  apply Option.ext
  intro value
  rw [get?_eq_some_iff, mapValues, List.mem_map, Option.map_eq_some_iff]
  constructor
  · rintro ⟨⟨k, old⟩, member, equal⟩
    cases equal
    exact ⟨old, get?_eq_some_iff.2 member, rfl⟩
  · rintro ⟨old, found, rfl⟩
    exact ⟨(key, old), get?_eq_some_iff.1 found, rfl⟩

theorem contains_eq_true_iff {m : KeyMap α} {key : String} :
    m.contains key = true ↔ ∃ value, m.get? key = some value := by
  rw [contains, Option.isSome_iff_exists]

/-- The keys of a map are those at which its view gives something. -/
theorem mem_keys_iff {m : KeyMap α} {key : String} :
    key ∈ m.keys ↔ m.contains key = true := by
  rw [contains_eq_true_iff, keys, List.mem_map]
  constructor
  · rintro ⟨⟨k, value⟩, member, rfl⟩
    exact ⟨value, get?_eq_some_iff.2 member⟩
  · rintro ⟨value, found⟩
    exact ⟨(key, value), get?_eq_some_iff.1 found, rfl⟩

theorem mem_keys_iff_exists {m : KeyMap α} {key : String} :
    key ∈ m.keys ↔ ∃ value, m.get? key = some value :=
  mem_keys_iff.trans contains_eq_true_iff

theorem increasing_keys (m : KeyMap α) : m.keys.Pairwise (· < ·) :=
  List.pairwise_map.mpr m.increasing

theorem nodup_keys (m : KeyMap α) : m.keys.Nodup := by
  refine m.increasing_keys.imp fun less => ?_
  rintro rfl
  exact String.lt_irrefl _ less

/-! ### Equality -/

/-- Two ordered lists with the same members are one list. -/
theorem entries_unique {xs ys : List (String × α)}
    (hx : xs.Pairwise fun a b => a.1 < b.1) (hy : ys.Pairwise fun a b => a.1 < b.1)
    (h : ∀ entry, entry ∈ xs ↔ entry ∈ ys) : xs = ys := by
  induction xs generalizing ys with
  | nil =>
    cases ys with
    | nil => rfl
    | cons y ys => exact absurd ((h y).2 (List.mem_cons_self ..)) (List.not_mem_nil)
  | cons x xs ih =>
    cases ys with
    | nil => exact absurd ((h x).1 (List.mem_cons_self ..)) (List.not_mem_nil)
    | cons y ys =>
      obtain ⟨xFirst, xOthers⟩ := List.pairwise_cons.1 hx
      obtain ⟨yFirst, yOthers⟩ := List.pairwise_cons.1 hy
      have same : x = y := by
        rcases List.mem_cons.1 ((h x).1 (List.mem_cons_self ..)) with equal | inY
        · exact equal
        · rcases List.mem_cons.1 ((h y).2 (List.mem_cons_self ..)) with equal | inX
          · exact equal.symm
          · exact absurd (String.lt_trans (yFirst x inY) (xFirst y inX)) (String.lt_irrefl _)
      subst same
      refine congrArg (x :: ·) (ih xOthers yOthers fun entry => ?_)
      constructor
      · intro member
        rcases List.mem_cons.1 ((h entry).1 (List.mem_cons_of_mem _ member)) with rfl | inY
        · exact absurd (xFirst _ member) (String.lt_irrefl _)
        · exact inY
      · intro member
        rcases List.mem_cons.1 ((h entry).2 (List.mem_cons_of_mem _ member)) with rfl | inX
        · exact absurd (yFirst _ member) (String.lt_irrefl _)
        · exact inX

/-- Maps with the same view are equal. -/
theorem ext_get? {m n : KeyMap α} (h : ∀ key, m.get? key = n.get? key) : m = n := by
  cases m with
  | mk xs hx =>
    cases n with
    | mk ys hy =>
      have same : xs = ys := by
        apply entries_unique hx hy
        rintro ⟨key, value⟩
        rw [← lookup_eq_some_iff hx, ← lookup_eq_some_iff hy]
        exact iff_of_eq (congrArg (· = some value) (h key))
      subst same
      rfl

theorem place_of_forall_lt {key : String} {entries : List (String × α)}
    (h : ∀ entry ∈ entries, entry.1 < key) (value : α) :
    place key value entries = entries ++ [(key, value)] := by
  induction entries with
  | nil => rfl
  | cons entry entries ih =>
    have below := h entry List.mem_cons_self
    rw [place, if_neg (String.lt_asymm below), if_pos below,
      ih fun other member => h other (List.mem_cons_of_mem _ member), List.cons_append]

theorem entries_foldl_insert {added : List (String × α)} {m : KeyMap α}
    (h : (m.entries ++ added).Pairwise fun a b => a.1 < b.1) :
    (added.foldl (fun m entry => m.insert entry.1 entry.2) m).entries = m.entries ++ added := by
  induction added generalizing m with
  | nil => simp
  | cons entry added ih =>
    have below : ∀ other ∈ m.entries, other.1 < entry.1 := fun other member =>
      (List.pairwise_append.1 h).2.2 other member entry List.mem_cons_self
    have inserted : (m.insert entry.1 entry.2).entries = m.entries ++ [entry] :=
      place_of_forall_lt below entry.2
    have increasing : ((m.insert entry.1 entry.2).entries ++ added).Pairwise
        fun a b => a.1 < b.1 := by
      rwa [inserted, List.append_assoc, List.singleton_append]
    rw [List.foldl_cons, ih increasing, inserted, List.append_assoc, List.singleton_append]

/-- Entering the entries of a map one by one gives the map. -/
theorem ofList_entries (m : KeyMap α) : ofList m.entries = m := by
  have same : (ofList m.entries).entries = m.entries := entries_foldl_insert m.increasing
  cases m with
  | mk entries increasing => cases h : ofList entries; simp_all

/-! ### Lists with equal keys -/

/-- The last of the entries with this key has this value. -/
def LastEntry (entries : List (String × α)) (key : String) (value : α) : Prop :=
  ∃ front back, entries = front ++ (key, value) :: back ∧ ∀ entry ∈ back, entry.1 ≠ key

theorem lastEntry_cons_iff {entry : String × α} {entries : List (String × α)} {key : String}
    {value : α} : LastEntry (entry :: entries) key value ↔ LastEntry entries key value ∨
      entry = (key, value) ∧ ∀ other ∈ entries, other.1 ≠ key := by
  constructor
  · rintro ⟨front, back, split, last⟩
    cases front with
    | nil =>
      obtain ⟨rfl, rfl⟩ := List.cons.inj split
      exact .inr ⟨rfl, last⟩
    | cons first front =>
      obtain ⟨-, more⟩ := List.cons.inj split
      exact .inl ⟨front, back, more, last⟩
  · rintro (⟨front, back, rfl, last⟩ | ⟨rfl, last⟩)
    · exact ⟨entry :: front, back, rfl, last⟩
    · exact ⟨[], entries, rfl, last⟩

theorem exists_lastEntry {entries : List (String × α)} {key : String}
    (h : ∃ entry ∈ entries, entry.1 = key) : ∃ value, LastEntry entries key value := by
  induction entries with
  | nil => obtain ⟨entry, member, -⟩ := h; cases member
  | cons first entries ih =>
    by_cases later : ∃ other ∈ entries, other.1 = key
    · obtain ⟨value, last⟩ := ih later
      exact ⟨value, lastEntry_cons_iff.2 (.inl last)⟩
    · obtain ⟨entry, member, rfl⟩ := h
      rcases List.mem_cons.1 member with rfl | member
      · exact ⟨entry.2, lastEntry_cons_iff.2
          (.inr ⟨rfl, fun other member same => later ⟨other, member, same⟩⟩)⟩
      · exact absurd ⟨entry, member, rfl⟩ later

/-- What is entered hides what was there before. -/
theorem get?_foldl_insert {added : List (String × α)} {key : String} {value : α} (m : KeyMap α) :
    (added.foldl (fun m entry => m.insert entry.1 entry.2) m).get? key = some value ↔
      LastEntry added key value ∨
        (∀ entry ∈ added, entry.1 ≠ key) ∧ m.get? key = some value := by
  induction added generalizing m with
  | nil => simp [LastEntry]
  | cons entry added ih =>
    rw [List.foldl_cons, ih, lastEntry_cons_iff, get?_insert]
    by_cases same : key = entry.1
    · have here : some entry.2 = some value ↔ entry = (key, value) := by
        simp [Prod.ext_iff, same]
      have hidden : ¬∀ other ∈ entry :: added, other.1 ≠ key :=
        fun h => h entry List.mem_cons_self same.symm
      simp only [if_pos same, here, hidden, false_and, or_false]
      rw [and_comm]
    · have different : entry ≠ (key, value) := fun h => same (h ▸ rfl)
      have other : entry.1 ≠ key := fun h => same h.symm
      rw [if_neg same]
      simp [different, other]

/-- Of equal keys in a list the last one stands. -/
theorem get?_ofList {entries : List (String × α)} {key : String} {value : α} :
    (ofList entries).get? key = some value ↔ LastEntry entries key value := by
  rw [ofList, get?_foldl_insert]
  simp [get?_empty]

end SnapshotStore.KeyMap
