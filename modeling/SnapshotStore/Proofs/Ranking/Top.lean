import SnapshotStore.Proofs.Number.Value
import SnapshotStore.Proofs.Store.Enumeration
import SnapshotStore.Store.Execute

/-! The highest numbers under a stem. A ranking is one list and no other: its rows
are as many as the limit lets, they stand by value and then by key, and what it
leaves out would stand behind them. -/
namespace SnapshotStore

theorem Value.number?_eq_some_iff {value : Value} {n : Number} :
    value.number? = some n ↔ value = .number n := by
  cases value <;> simp [Value.number?]

namespace Ranking

variable {s : Snapshot} {stem : String} {limit : Nat} {a b row : Ranked} {rows : List Ranked}

/-! ### What is ranked -/

/-- The keys that begin with a stem and hold a number. -/
def numbered (s : Snapshot) (stem : String) : List String :=
  s.keys.filter fun key => Text.startsWith key stem && ((s.get? key).bind Value.number?).isSome

theorem mem_numbered {key : String} : key ∈ numbered s stem ↔
    ∃ identity n, stem ++ identity = key ∧ s.get? key = some (.number n) := by
  rw [numbered, List.mem_filter, KeyMap.mem_keys_iff_exists, Bool.and_eq_true,
    Text.startsWith_iff, Option.isSome_iff_exists]
  constructor
  · rintro ⟨-, ⟨identity, rfl⟩, n, hNumber⟩
    obtain ⟨value, hValue, hKind⟩ := Option.bind_eq_some_iff.mp hNumber
    rw [Value.number?_eq_some_iff.mp hKind] at hValue
    exact ⟨identity, n, rfl, hValue⟩
  · rintro ⟨identity, n, rfl, hValue⟩
    exact ⟨⟨_, hValue⟩, ⟨identity, rfl⟩, n, Option.bind_eq_some_iff.mpr ⟨_, hValue, rfl⟩⟩

theorem mem_rows :
    row ∈ Ranking.rows s stem ↔ s.get? (stem ++ row.identity) = some (.number row.value) := by
  rw [Ranking.rows, List.mem_filterMap]
  constructor
  · rintro ⟨⟨key, value⟩, hEntry, hRow⟩
    obtain ⟨hValue, rest, rfl⟩ := KeyMap.mem_under.mp hEntry
    obtain ⟨n, hNumber, rfl⟩ := Option.map_eq_some_iff.mp hRow
    rw [Value.number?_eq_some_iff.mp hNumber] at hValue
    rwa [Text.withoutStem_append]
  · intro hValue
    refine ⟨(stem ++ row.identity, .number row.value), ?_, ?_⟩
    · exact KeyMap.mem_under.mpr ⟨hValue, row.identity, rfl⟩
    · simp only [Value.number?, Option.map_some, Text.withoutStem_append]

/-- Before they are sorted, rows stand by their keys. -/
theorem increasing_rows : (Ranking.rows s stem).Pairwise
    fun a b => stem ++ a.identity < stem ++ b.identity := by
  have hKey : ∀ entry ∈ s.under stem, ∀ row,
      entry.2.number?.map (fun n => (⟨Text.withoutStem entry.1 stem, n⟩ : Ranked)) = some row →
      stem ++ row.identity = entry.1 := by
    rintro ⟨key, value⟩ hEntry row hRow
    obtain ⟨-, rest, rfl⟩ := KeyMap.mem_under.mp hEntry
    obtain ⟨n, -, rfl⟩ := Option.map_eq_some_iff.mp hRow
    rw [Text.withoutStem_append]
  rw [Ranking.rows, List.pairwise_filterMap]
  refine (s.increasing_under stem).imp_of_mem ?_
  intro first second hFirst hSecond hLess a ha b hb
  rwa [hKey first hFirst a ha, hKey second hSecond b hb]

theorem length_rows : (Ranking.rows s stem).length = (numbered s stem).length := by
  have hDistinct : ((Ranking.rows s stem).map fun row => stem ++ row.identity).Nodup := by
    rw [List.nodup_iff_pairwise_ne, List.pairwise_map]
    refine increasing_rows.imp ?_
    intro a b hLess hSame
    rw [hSame] at hLess
    exact String.lt_irrefl _ hLess
  have hNumbered : (numbered s stem).Nodup := s.nodup_keys.filter _
  have hPerm : ((Ranking.rows s stem).map fun row => stem ++ row.identity).Perm
      (numbered s stem) := by
    rw [List.perm_ext_iff_of_nodup hDistinct hNumbered]
    intro key
    rw [List.mem_map, mem_numbered]
    constructor
    · rintro ⟨row, hRow, rfl⟩
      exact ⟨row.identity, row.value, rfl, mem_rows.mp hRow⟩
    · rintro ⟨identity, n, rfl, hValue⟩
      exact ⟨⟨identity, n⟩, mem_rows.mpr hValue, rfl⟩
  rw [← hPerm.length_eq, List.length_map]

/-! ### Sorting -/

/-- One row stands in front of another: by value, and by key between equal ones. -/
def Precedes (stem : String) (a b : Ranked) : Prop :=
  b.value.standing ≤ a.value.standing ∧
    (a.value.order b.value = .eq → stem ++ a.identity < stem ++ b.identity)

theorem ahead_iff : ahead a b = true ↔ b.value.standing ≤ a.value.standing := by
  rw [ahead, decide_eq_true_iff, Number.order_ne_gt_iff]

theorem ahead_trans (a b c : Ranked) (hFirst : ahead a b = true) (hSecond : ahead b c = true) :
    ahead a c = true := by
  rw [ahead_iff] at hFirst hSecond ⊢
  exact hSecond.trans hFirst

theorem ahead_total (a b : Ranked) : (ahead a b || ahead b a) = true := by
  rw [Bool.or_eq_true, ahead_iff, ahead_iff]
  exact le_total b.value.standing a.value.standing

/-- Sorting keeps elements in their order that may stand either way round. -/
theorem filter_mergeSort {α : Type} {le : α → α → Bool} {tied : α → Bool}
    (hTrans : ∀ a b c, le a b = true → le b c = true → le a c = true)
    (hTotal : ∀ a b, (le a b || le b a) = true)
    (hTied : ∀ a b, tied a = true → tied b = true → le a b = true) (l : List α) :
    (l.mergeSort le).filter tied = l.filter tied := by
  have hSorted : (l.filter tied).Pairwise fun a b => le a b = true :=
    List.pairwise_of_forall_mem_list fun a ha b hb =>
      hTied a b (List.mem_filter.mp ha).2 (List.mem_filter.mp hb).2
  have hSublist : (l.filter tied).Sublist (l.mergeSort le) :=
    List.sublist_mergeSort hTrans hTotal hSorted List.filter_sublist
  have hFiltered := hSublist.filter tied
  rw [List.filter_filter] at hFiltered
  simp only [Bool.and_self] at hFiltered
  have hLength := ((List.mergeSort_perm l le).filter tied).length_eq
  exact (hFiltered.eq_of_length hLength.symm).symm

/-- All rows, sorted. -/
def ranked (s : Snapshot) (stem : String) : List Ranked :=
  (Ranking.rows s stem).mergeSort ahead

theorem mem_ranked :
    row ∈ ranked s stem ↔ s.get? (stem ++ row.identity) = some (.number row.value) := by
  rw [ranked, List.mem_mergeSort, mem_rows]

theorem length_ranked : (ranked s stem).length = (numbered s stem).length := by
  rw [ranked, List.length_mergeSort, length_rows]

theorem precedes_ranked : (ranked s stem).Pairwise (Precedes stem) := by
  rw [List.pairwise_iff_forall_sublist]
  intro a b hPair
  constructor
  · have hSorted := List.pairwise_mergeSort ahead_trans ahead_total (Ranking.rows s stem)
    exact ahead_iff.mp (List.pairwise_iff_forall_sublist.mp hSorted hPair)
  · intro hEqual
    -- among the rows with the value of `a` the order is still that of the keys
    let tied : Ranked → Bool := fun row => row.value.order a.value = .eq
    have hTied : ∀ first second, tied first = true → tied second = true →
        ahead first second = true := by
      intro first second hFirst hSecond
      rw [decide_eq_true_iff, Number.order_eq_iff] at hFirst hSecond
      exact ahead_iff.mpr (hSecond.trans hFirst.symm).le
    have hBoth : [a, b].filter tied = [a, b] := by
      have ha : tied a = true := decide_eq_true (Number.order_eq_iff.mpr rfl)
      have hb : tied b = true :=
        decide_eq_true (Number.order_eq_iff.mpr (Number.order_eq_iff.mp hEqual).symm)
      rw [List.filter_cons_of_pos ha, List.filter_cons_of_pos hb, List.filter_nil]
    have hKept := filter_mergeSort ahead_trans ahead_total hTied (Ranking.rows s stem)
    have hRows := hPair.filter tied
    rw [hBoth, ranked, hKept] at hRows
    exact List.pairwise_iff_forall_sublist.mp increasing_rows (hRows.trans List.filter_sublist)

/-! ### The highest rows -/

/-- A key holds one number, so there is one row for it. -/
theorem eq_of_key_eq (ha : s.get? (stem ++ a.identity) = some (.number a.value))
    (hb : s.get? (stem ++ b.identity) = some (.number b.value))
    (hSame : stem ++ a.identity = stem ++ b.identity) : a = b := by
  obtain ⟨identity, n⟩ := a
  obtain ⟨other, k⟩ := b
  have hIdentity : identity = other := by
    rw [← Text.withoutStem_append stem identity, hSame, Text.withoutStem_append]
  subst hIdentity
  have hNumber : n = k := Value.number.inj (Option.some.inj (ha.symm.trans hb))
  rw [hNumber]

/-- What a ranking of at most so many rows is. Its rows are as many as there can be,
each from a key under the stem that holds its number, and no key has two of them.
They do not increase in the exact order of values, and equal ones stand by their
keys; and so it is between them and whatever is left out. -/
structure Highest (s : Snapshot) (stem : String) (limit : Nat) (rows : List Ranked) : Prop where
  length : rows.length = min limit (numbered s stem).length
  stored : ∀ row ∈ rows, s.get? (stem ++ row.identity) = some (.number row.value)
  distinct : (rows.map fun row => stem ++ row.identity).Nodup
  descending : rows.Pairwise fun a b => b.value.standing ≤ a.value.standing
  ties : rows.Pairwise fun a b =>
    a.value.order b.value = .eq → stem ++ a.identity < stem ++ b.identity
  omitted : ∀ identity n, s.get? (stem ++ identity) = some (.number n) →
    identity ∉ rows.map Ranked.identity → ∀ row ∈ rows, n.standing ≤ row.value.standing ∧
      (row.value.order n = .eq → stem ++ row.identity < stem ++ identity)

theorem Precedes.ne (h : Precedes stem a b) : a ≠ b := by
  rintro rfl
  exact String.lt_irrefl _ (h.2 (Number.order_eq_iff.mpr rfl))

theorem Precedes.asymm (h : Precedes stem a b) : ¬ Precedes stem b a := by
  intro hBack
  have hEqual : a.value.standing = b.value.standing := le_antisymm hBack.1 h.1
  have hLess := h.2 (Number.order_eq_iff.mpr hEqual)
  exact String.lt_asymm hLess (hBack.2 (Number.order_eq_iff.mpr hEqual.symm))

theorem highest_top (s : Snapshot) (stem : String) (limit : Nat) :
    Highest s stem limit (top s stem limit) := by
  have hTop : top s stem limit = (ranked s stem).take limit := rfl
  have hSorted : (top s stem limit).Pairwise (Precedes stem) :=
    precedes_ranked.sublist (List.take_sublist limit _)
  have hStored : ∀ row ∈ top s stem limit,
      s.get? (stem ++ row.identity) = some (.number row.value) := fun row hRow =>
    mem_ranked.mp (List.mem_of_mem_take hRow)
  refine ⟨?_, hStored, ?_, hSorted.imp And.left, hSorted.imp And.right, ?_⟩
  · rw [hTop, List.length_take, length_ranked]
  · rw [List.nodup_iff_pairwise_ne, List.pairwise_map]
    refine hSorted.imp_of_mem ?_
    intro a b ha hb hPrecedes hSame
    exact hPrecedes.ne (eq_of_key_eq (hStored a ha) (hStored b hb) hSame)
  · intro identity n hValue hOmitted row hRow
    have hRest : (⟨identity, n⟩ : Ranked) ∈ (ranked s stem).drop limit := by
      have hAll : (⟨identity, n⟩ : Ranked) ∈ ranked s stem := mem_ranked.mpr hValue
      rw [← List.take_append_drop limit (ranked s stem)] at hAll
      rcases List.mem_append.mp hAll with hTaken | hDropped
      · exact absurd (List.mem_map_of_mem hTaken) hOmitted
      · exact hDropped
    have hSplit : (ranked s stem).Pairwise (Precedes stem) := precedes_ranked
    rw [← List.take_append_drop limit (ranked s stem), List.pairwise_append] at hSplit
    exact hSplit.2.2 row hRow _ hRest

/-! ### One ranking only -/

theorem Highest.precedes (h : Highest s stem limit rows) : rows.Pairwise (Precedes stem) :=
  h.descending.and h.ties

theorem Highest.nodup (h : Highest s stem limit rows) : rows.Nodup :=
  List.nodup_iff_pairwise_ne.mpr (h.precedes.imp Precedes.ne)

/-- What a ranking leaves out would stand behind all of its rows. -/
theorem Highest.precedes_of_not_mem (h : Highest s stem limit rows) {other : Ranked}
    (hOther : s.get? (stem ++ other.identity) = some (.number other.value))
    (hOmitted : other ∉ rows) (hRow : row ∈ rows) : Precedes stem row other := by
  refine h.omitted other.identity other.value hOther ?_ row hRow
  intro hIdentity
  obtain ⟨same, hSame, hName⟩ := List.mem_map.mp hIdentity
  have hEqual := eq_of_key_eq (h.stored same hSame) hOther (congrArg (stem ++ ·) hName)
  exact hOmitted (hEqual ▸ hSame)

/-- A row of one ranking is in every other one. Otherwise the other one would have
a row that is not in the first, and each of the two rows would stand behind the
other. -/
theorem Highest.subset (h : Highest s stem limit rows) {others : List Ranked}
    (hOthers : Highest s stem limit others) : rows ⊆ others := by
  intro row hRow
  by_contra hMissing
  have hMore : ∃ other ∈ others, other ∉ rows := by
    by_contra hNone
    have hSubset : others ⊆ rows := fun other hOther => by
      by_contra hFound
      exact hNone ⟨other, hOther, hFound⟩
    have hLength : rows.length ≤ others.length := by rw [h.length, hOthers.length]
    have hPerm := (List.subperm_of_subset hOthers.nodup hSubset).perm_of_length_le hLength
    exact hMissing (hPerm.mem_iff.mpr hRow)
  obtain ⟨other, hOther, hExtra⟩ := hMore
  have hBehind : Precedes stem other row :=
    hOthers.precedes_of_not_mem (h.stored row hRow) hMissing hOther
  exact hBehind.asymm (h.precedes_of_not_mem (hOthers.stored other hOther) hExtra hRow)

theorem Highest.unique (h : Highest s stem limit rows) {others : List Ranked}
    (hOthers : Highest s stem limit others) : rows = others := by
  have hPerm : rows.Perm others := by
    rw [List.perm_ext_iff_of_nodup h.nodup hOthers.nodup]
    intro row
    exact ⟨fun hRow => h.subset hOthers hRow, fun hRow => hOthers.subset h hRow⟩
  exact hPerm.eq_of_pairwise (fun a b _ _ hFirst hSecond => absurd hSecond hFirst.asymm)
    h.precedes hOthers.precedes

/-- The ranking of a store is the stable descending selection: it is a ranking of
the highest numbers under the stem, as `Highest` says, and the only one. A smaller
limit gives the beginning of what a larger one gives. A ledger ranks what stands
under its own stem, and the command for a ranking is always carried out and changes
nothing. -/
theorem top_selects (s : Store) (stem : String) (limit : Nat) :
    (∀ rows, Highest s.data stem limit rows ↔ rows = top s.data stem limit) ∧
    (∀ more, limit ≤ more → top s.data stem limit <+: top s.data stem more) ∧
    (∀ l : Ledger, Highest s.data l.stem limit (l.top s limit)) ∧
    ∃ rows, s.execute (.top stem limit) = pure (.ok (.ranking rows), s) ∧
      Highest s.data stem limit rows := by
  refine ⟨?_, ?_, ?_, ?_⟩
  · intro rows
    constructor
    · intro hRows
      exact hRows.unique (highest_top s.data stem limit)
    · rintro rfl
      exact highest_top s.data stem limit
  · intro more hMore
    exact List.take_prefix_take_left hMore
  · intro l
    exact highest_top s.data l.stem limit
  · exact ⟨_, rfl, highest_top s.data stem limit⟩

/-- The number 2^53 as a floating and as a whole number, the whole number after it,
which no floating number is, and a key that only the stem without its dot would
find. -/
def mixed : Snapshot :=
  .ofList [("bal.a", .number (.float (.ofInt 9007199254740992))),
    ("bal.b", .number (.int 9007199254740993)), ("bal.c", .number (.int 9007199254740992)),
    ("bal.d", .text "1"), ("balance", .number (.int 9007199254740994))]

/-- The two that are equal come in key order, behind the one that is greater by one. -/
theorem top_selects_mixed :
    top mixed "bal." 2 =
      [⟨"b", .int 9007199254740993⟩, ⟨"a", .float (.ofInt 9007199254740992)⟩] ∧
    top mixed "bal." 2 <+: top mixed "bal." 3 := by
  let a : Ranked := ⟨"a", .float (.ofInt 9007199254740992)⟩
  let b : Ranked := ⟨"b", .int 9007199254740993⟩
  let c : Ranked := ⟨"c", .int 9007199254740992⟩
  have hRows : rows mixed "bal." = [a, b, c] := by decide +kernel
  have hBehind : ahead a b = false := by decide +kernel
  have hTied : ahead a c = true := by decide +kernel
  have hFirst : ahead b c = true := by decide +kernel
  have hTop : top mixed "bal." 2 = [b, a] := by
    rw [top, hRows]
    simp [List.mergeSort, List.MergeSort.Internal.splitInTwo, hBehind, hTied, hFirst]
  exact ⟨hTop, (top_selects (.opened {} mixed) "bal." 2).2.1 3 (by decide)⟩

end Ranking

end SnapshotStore
