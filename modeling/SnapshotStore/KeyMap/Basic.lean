import SnapshotStore.Text.Stem

/-! Maps from texts to values, listed by strictly increasing key. The order of
keys is that of their code points. Equal maps are equal lists, so nothing of
the history of a map is left in it, and reading the entries in order needs no
sorting. -/
namespace SnapshotStore

universe u v

/-- A finite map from texts, as the list of its entries in key order. -/
structure KeyMap (α : Type u) where
  entries : List (String × α)
  increasing : entries.Pairwise fun a b => a.1 < b.1

namespace KeyMap

variable {α : Type u} {β : Type v}

/-- The map without entries. -/
def empty : KeyMap α :=
  ⟨[], List.Pairwise.nil⟩

instance : Inhabited (KeyMap α) :=
  ⟨empty⟩

/-- How many keys the map has. -/
def size (m : KeyMap α) : Nat :=
  m.entries.length

def isEmpty (m : KeyMap α) : Bool :=
  m.entries.isEmpty

/-- The keys in order. -/
def keys (m : KeyMap α) : List String :=
  m.entries.map Prod.fst

/-- The value at a key, if there is one. -/
def get? (m : KeyMap α) (key : String) : Option α :=
  m.entries.lookup key

def contains (m : KeyMap α) (key : String) : Bool :=
  (m.get? key).isSome

/-- Put an entry at its place in an ordered list, over an entry of the same key. -/
def place (key : String) (value : α) : List (String × α) → List (String × α)
  | [] => [(key, value)]
  | entry :: rest =>
    if key < entry.1 then (key, value) :: entry :: rest
    else if entry.1 < key then entry :: place key value rest
    else (key, value) :: rest

theorem mem_place {key : String} {value : α} {entry : String × α} {entries : List (String × α)}
    (h : entry ∈ place key value entries) : entry = (key, value) ∨ entry ∈ entries := by
  induction entries with
  | nil => exact .inl (List.mem_singleton.1 h)
  | cons head rest ih =>
    simp only [place] at h
    split at h
    · exact List.mem_cons.1 h
    · split at h
      · rcases List.mem_cons.1 h with rfl | h
        · exact .inr (List.mem_cons_self ..)
        · exact (ih h).imp id (List.mem_cons_of_mem _)
      · rcases List.mem_cons.1 h with rfl | h
        · exact .inl rfl
        · exact .inr (List.mem_cons_of_mem _ h)

theorem increasing_place (key : String) (value : α) {entries : List (String × α)}
    (h : entries.Pairwise fun a b => a.1 < b.1) :
    (place key value entries).Pairwise fun a b => a.1 < b.1 := by
  induction entries with
  | nil => exact List.pairwise_singleton _ _
  | cons head rest ih =>
    obtain ⟨first, others⟩ := List.pairwise_cons.1 h
    simp only [place]
    split
    · next below =>
      refine List.pairwise_cons.2 ⟨fun entry member => ?_, h⟩
      rcases List.mem_cons.1 member with rfl | member
      · exact below
      · exact String.lt_trans below (first entry member)
    · next notBelow =>
      split
      · next above =>
        refine List.pairwise_cons.2 ⟨fun entry member => ?_, ih others⟩
        rcases mem_place member with rfl | member
        · exact above
        · exact first entry member
      · next notAbove =>
        have same : head.1 = key :=
          String.le_antisymm (String.not_lt.1 notBelow) (String.not_lt.1 notAbove)
        exact List.pairwise_cons.2 ⟨fun entry member => same ▸ first entry member, others⟩

/-- Set the value at a key, whether or not the key was there. -/
def insert (m : KeyMap α) (key : String) (value : α) : KeyMap α :=
  ⟨place key value m.entries, increasing_place key value m.increasing⟩

/-- Keep the entries that a test accepts. -/
def filter (m : KeyMap α) (test : String × α → Bool) : KeyMap α :=
  ⟨m.entries.filter test, m.increasing.filter test⟩

/-- Remove a key, if it is there. -/
def erase (m : KeyMap α) (key : String) : KeyMap α :=
  m.filter fun entry => entry.1 ≠ key

/-- Change every value and keep the keys. -/
def mapValues (m : KeyMap α) (f : String → α → β) : KeyMap β :=
  ⟨m.entries.map fun entry => (entry.1, f entry.1 entry.2),
    List.pairwise_map.2 m.increasing⟩

/-- Enter a list one by one: of equal keys the last one stands. -/
def ofList (entries : List (String × α)) : KeyMap α :=
  entries.foldl (fun m entry => m.insert entry.1 entry.2) empty

/-- The entries whose key begins with the stem, in key order: a scan that
starts at the first key not below the stem, and stops at the first key that
does not begin with it. -/
def under (m : KeyMap α) (stem : String) : List (String × α) :=
  (m.entries.dropWhile fun entry => entry.1 < stem).takeWhile
    fun entry => Text.startsWith entry.1 stem

end KeyMap

end SnapshotStore
