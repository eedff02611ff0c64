import SnapshotStore.Ranking
import SnapshotStore.Store.Basic

/-! A ledger keeps balances in a store, one number a member, under keys that
begin with the name of the ledger and a dot. Whoever has no key yet has the
starting balance. A transfer is two operations on the store, a debit and then
a credit, and is not undone if only the first of them happens. -/
namespace SnapshotStore

/-- A ledger on some store. -/
structure Ledger where
  name : String
  startingBalance : Number

namespace Ledger

/-- What all keys of the ledger begin with. -/
def stem (l : Ledger) : String :=
  l.name ++ "."

/-- The key of a balance. -/
def key (l : Ledger) (identity : String) : String :=
  l.stem ++ identity

/-- The balance, which is the starting balance where none was written. -/
def balance (l : Ledger) (s : Store) (identity : String) : Except StoreError Number :=
  s.getNumber (l.key identity) l.startingBalance

/-- Write the starting balance where there is none, and say whether it was
written. -/
def openAccount (l : Ledger) (s : Store) (identity : String) : Except StoreError Bool × Store :=
  s.update (l.key identity) fun slot =>
    match slot with
    | some _ => .ok (false, slot)
    | none => .ok (true, some (.number l.startingBalance))

/-- Write a balance, and zero for a negative one. Gives what was written. -/
def setBalance (l : Ledger) (s : Store) (identity : String) (amount : Number) :
    Except StoreError Number × Store :=
  let amount := if amount.isNegative then amount.zeroLike else amount
  let (outcome, s) := s.set (l.key identity) (.number amount)
  (outcome.map fun _ => amount, s)

/-- A change that adds an amount to the current balance. -/
def crediting (key : String) (absent amount : Number) (slot : Option Value) :
    Except StoreError (Bool × Option Value) := do
  let current ← Store.currentNumber key slot absent
  let next ← Store.fitting key (current.add? amount)
  return (true, some (.number next))

/-- Add to a balance. An amount that is not positive is not added. -/
def give (l : Ledger) (s : Store) (identity : String) (amount : Number) :
    Except StoreError Bool × Store :=
  if amount.isPositive then
    s.update (l.key identity) (crediting (l.key identity) l.startingBalance amount)
  else (.ok false, s)

/-- Take from a balance that covers the amount. An amount that is not positive
is not taken. -/
def take (l : Ledger) (s : Store) (identity : String) (amount : Number) :
    Except StoreError Bool × Store :=
  if amount.isPositive then
    s.update (l.key identity) (Store.debiting (l.key identity) l.startingBalance amount)
  else (.ok false, s)

/-- Take from one balance and give to another. -/
def transfer (l : Ledger) (s : Store) (source target : String) (amount : Number) :
    Except StoreError Bool × Store :=
  match l.take s source amount with
  | (.error error, s) => (.error error, s)
  | (.ok false, s) => (.ok false, s)
  | (.ok true, s) =>
    match l.give s target amount with
    | (.error error, s) => (.error error, s)
    | (.ok _, s) => (.ok true, s)

/-- The highest balances that were written. -/
def top (l : Ledger) (s : Store) (limit : Nat) : List Ranked :=
  Ranking.top s.data l.stem limit

/-- Whoever has a key, in key order. -/
def accounts (l : Ledger) (s : Store) : List String :=
  (s.keys l.stem).map (Text.withoutStem · l.stem)

end Ledger

end SnapshotStore
