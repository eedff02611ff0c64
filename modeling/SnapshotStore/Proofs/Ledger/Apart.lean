import Mathlib.Logic.Relation
import SnapshotStore.Proofs.Store.Enumeration
import SnapshotStore.Proofs.Store.Operation

/-! Several ledgers on one store. Keys are names put together, and the identities in
them may be any texts. Still no key belongs to two ledgers of which neither stem
begins with the other one, so what is done on one ledger is not seen in the other. -/
namespace SnapshotStore

open Program (Runs)

/-- What stands under a stem is decided by the values at its keys. -/
theorem KeyMap.under_congr {α : Type} {m n : KeyMap α} {stem : String}
    (h : ∀ rest, m.get? (stem ++ rest) = n.get? (stem ++ rest)) : m.under stem = n.under stem := by
  apply KeyMap.entries_unique (m.increasing_under stem) (n.increasing_under stem)
  rintro ⟨key, value⟩
  rw [KeyMap.mem_under, KeyMap.mem_under]
  constructor
  · rintro ⟨hValue, rest, rfl⟩
    exact ⟨(h rest).symm.trans hValue, rest, rfl⟩
  · rintro ⟨hValue, rest, rfl⟩
    exact ⟨(h rest).trans hValue, rest, rfl⟩

/-- Of two stems of one text, one begins with the other. -/
theorem Text.startsWith_or_startsWith {text a b : String} (ha : startsWith text a = true)
    (hb : startsWith text b = true) : startsWith a b = true ∨ startsWith b a = true := by
  simp only [startsWith, List.isPrefixOf_iff_prefix] at ha hb ⊢
  exact (List.prefix_or_prefix_of_prefix ha hb).symm

namespace Operation

variable {α : Type}

/-- The operation is one of this ledger. -/
inductive IsOf (l : Ledger) : {α : Type} → Operation α → Prop where
  | openAccount (identity : String) : IsOf l (.openAccount l identity)
  | setBalance (identity : String) (amount : Number) : IsOf l (.setBalance l identity amount)
  | give (identity : String) (amount : Number) : IsOf l (.give l identity amount)
  | take (identity : String) (amount : Number) : IsOf l (.take l identity amount)
  | transfer (source target : String) (amount : Number) :
      IsOf l (.transfer l source target amount)

/-- The identities that an operation of a ledger is about. -/
def Names : Operation α → String → Prop
  | .openAccount _ identity | .setBalance _ identity _ | .give _ identity _
  | .take _ identity _ => fun other => other = identity
  | .transfer _ source target _ => fun other => other = source ∨ other = target
  | _ => fun _ => False

/-- An operation of a ledger touches the keys of the identities that it is about. -/
theorem IsOf.touches_iff {l : Ledger} {operation : Operation α} (h : operation.IsOf l)
    {key : String} :
    operation.Touches key ↔ ∃ identity, operation.Names identity ∧ key = l.key identity := by
  cases h with
  | transfer source target amount => simp [Touches, Names]
  | _ => simp [Touches, Names]

end Operation

namespace Ledger

variable {l other : Ledger} {s s' : Store}

/-! ### Keys -/

/-- Neither of the stems begins with the other one. -/
structure Apart (l other : Ledger) : Prop where
  left : Text.startsWith l.stem other.stem = false
  right : Text.startsWith other.stem l.stem = false

/-- The stems are apart exactly if no key belongs to both ledgers, whatever the
identities are. -/
theorem apart_iff : Apart l other ↔ ∀ a b, l.key a ≠ other.key b := by
  constructor
  · intro h a b hSame
    have hLeft : Text.startsWith (l.key a) l.stem = true := Text.startsWith_iff.mpr ⟨a, rfl⟩
    have hRight : Text.startsWith (l.key a) other.stem = true := Text.startsWith_iff.mpr ⟨b, hSame⟩
    rcases Text.startsWith_or_startsWith hLeft hRight with hStem | hStem
    · rw [h.left] at hStem
      cases hStem
    · rw [h.right] at hStem
      cases hStem
  · intro h
    -- the longer stem is a key of the ledger with the shorter one, and of its own
    constructor
    · by_contra hStem
      obtain ⟨rest, hRest⟩ := Text.startsWith_iff.mp (eq_true_of_ne_false hStem)
      exact h "" rest (by rw [key, key, String.append_empty, hRest])
    · by_contra hStem
      obtain ⟨rest, hRest⟩ := Text.startsWith_iff.mp (eq_true_of_ne_false hStem)
      exact h rest "" (by rw [key, key, String.append_empty, hRest])

/-! ### What a ledger shows -/

/-- Everything that a ledger shows, in two stores. -/
structure Unchanged (l : Ledger) (s s' : Store) : Prop where
  balance : ∀ identity, l.balance s' identity = l.balance s identity
  accounts : l.accounts s' = l.accounts s
  top : ∀ limit, l.top s' limit = l.top s limit

/-- A ledger shows nothing but the values at its own keys. -/
theorem unchanged_of_get? (h : ∀ identity, s'.get? (l.key identity) = s.get? (l.key identity)) :
    Unchanged l s s' := by
  have hUnder : s'.data.under l.stem = s.data.under l.stem := KeyMap.under_congr h
  constructor
  · intro identity
    rw [Ledger.balance, Ledger.balance, Store.getNumber, Store.getNumber, h identity]
  · rw [Ledger.accounts, Ledger.accounts, Store.keys, Store.keys, Store.entries, Store.entries,
      hUnder]
  · intro limit
    rw [Ledger.top, Ledger.top, Ranking.top, Ranking.top, Ranking.rows, Ranking.rows, hUnder]

theorem Unchanged.trans {middle : Store} (h : Unchanged l s middle) (h' : Unchanged l middle s') :
    Unchanged l s s' :=
  ⟨fun identity => (h'.balance identity).trans (h.balance identity),
    h'.accounts.trans h.accounts, fun limit => (h'.top limit).trans (h.top limit)⟩

/-! ### Working on a ledger -/

/-- One operation of the ledger, whatever it comes to. -/
inductive Work (l : Ledger) (s s' : Store) : Prop where
  | perform {α : Type} {operation : Operation α} {d e : Disk} {trace : List Event}
      {outcome : Except StoreError α} (hOf : operation.IsOf l)
      (hRuns : Runs (operation.perform s) d trace (outcome, s') e)

/-- Any number of operations of the ledger, one after the other. -/
def Works (l : Ledger) : Store → Store → Prop :=
  Relation.ReflTransGen (Work l)

theorem Work.unchanged (h : Work l s s') (hApart : Apart l other) : Unchanged other s s' := by
  cases h with
  | @perform α operation d e trace outcome hOf hRuns =>
      refine unchanged_of_get? fun identity => Operation.get?_eq_of_runs hRuns fun hTouches => ?_
      obtain ⟨named, -, hKey⟩ := hOf.touches_iff.mp hTouches
      exact apart_iff.mp hApart named identity hKey.symm

theorem Works.unchanged (h : Works l s s') (hApart : Apart l other) : Unchanged other s s' := by
  induction h with
  | refl => exact unchanged_of_get? fun identity => rfl
  | tail works last ih => exact ih.trans (last.unchanged hApart)

/-- Ledgers whose stems are apart do not interfere. Any operations on one of them, in
any number and with any identities and amounts, successful or not, leave every balance
of the other one, its accounts and its ranking as they were. Within one ledger each
identity has a key of its own, so an operation changes the balances of no identities
but those that it is about. -/
theorem ledgers_apart (l other : Ledger) :
    (Apart l other → ∀ s s', Works l s s' → Unchanged other s s') ∧
    (∀ a b, a ≠ b → l.key a ≠ l.key b) ∧
    (∀ {α : Type} (operation : Operation α), operation.IsOf l → ∀ s d trace outcome s' e,
      Runs (operation.perform s) d trace (outcome, s') e →
      ∀ identity, ¬ operation.Names identity → l.balance s' identity = l.balance s identity) := by
  refine ⟨fun hApart s s' hWorks => hWorks.unchanged hApart,
    fun a b hDifferent hSame => hDifferent (l.key_injective hSame), ?_⟩
  intro α operation hOf s d trace outcome s' e hRuns identity hOther
  have hTouches : ¬ operation.Touches (l.key identity) := by
    rw [hOf.touches_iff]
    rintro ⟨named, hNamed, hKey⟩
    rw [l.key_injective hKey] at hOther
    exact hOther hNamed
  rw [Ledger.balance, Ledger.balance, Store.getNumber, Store.getNumber,
    Operation.get?_eq_of_runs hRuns hTouches]

/-- Next to a ledger `a` with ten for everyone stands a ledger `ab`, in which `x` has
seven. Taking four from `b.x` in the first one leaves the other one alone, and there is
no other balance in the first one that it changes. -/
theorem ledgers_apart_named : ∃ s' : Store,
    Ledger.take ⟨"a", .int 10⟩ (.opened {} (.ofList [("ab.x", .number (.int 7))])) "b.x" (.int 4) =
      (.ok true, s') ∧
    Ledger.balance ⟨"a", .int 10⟩ s' "b.x" = .ok (.int 6) ∧
    Ledger.balance ⟨"a", .int 10⟩ s' "x" = .ok (.int 10) ∧
    Unchanged ⟨"ab", .int 0⟩ (.opened {} (.ofList [("ab.x", .number (.int 7))])) s' := by
  let l : Ledger := ⟨"a", .int 10⟩
  let s : Store := .opened {} (.ofList [("ab.x", .number (.int 7))])
  have hTake : l.take s "b.x" (.int 4) =
      (.ok true, s.withSlot "a.b.x" (some (.number (.int 6)))) := rfl
  have hRuns : Runs ((Operation.take l "b.x" (.int 4)).perform s) .empty []
      (.ok true, s.withSlot "a.b.x" (some (.number (.int 6)))) .empty := .done _ _
  have hApart : Apart l ⟨"ab", .int 0⟩ := ⟨by decide, by decide⟩
  obtain ⟨hUnchanged, -, hOthers⟩ := ledgers_apart l ⟨"ab", .int 0⟩
  have hWork : Work l s _ := .perform (.take "b.x" (.int 4)) hRuns
  have hOther : ¬ (Operation.take l "b.x" (.int 4)).Names "x" :=
    show ¬ "x" = "b.x" by decide
  have hBalance := hOthers _ (.take "b.x" (.int 4)) _ _ _ _ _ _ hRuns "x" hOther
  exact ⟨_, hTake, rfl, hBalance.trans rfl, hUnchanged hApart _ _ (.single hWork)⟩

end Ledger

end SnapshotStore
