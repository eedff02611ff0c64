import SnapshotStore.Error
import SnapshotStore.Number.Order

/-! A store in memory: its snapshot, and two counters. The generation grows
with every change; the saved generation is the one that the file holds. Each
operation gives its result and the store afterwards, also where it fails. -/
namespace SnapshotStore

/-- An open store. -/
structure Store where
  config : Config
  data : Snapshot
  generation : Nat
  savedGeneration : Nat

namespace Store

variable {α : Type}

/-- A store that has just been read, with nothing to save. -/
def opened (config : Config) (data : Snapshot) : Store :=
  ⟨config, data, 0, 0⟩

instance : Inhabited Store :=
  ⟨opened {} .empty⟩

def name (s : Store) : String :=
  s.config.name

/-- The file of the store. -/
def path (s : Store) : Path :=
  s.config.path

/-- Memory is ahead of the last successful save. -/
def isDirty (s : Store) : Bool :=
  s.generation ≠ s.savedGeneration

/-- How the store is named in messages. -/
def describe (s : Store) : String :=
  "store '" ++ s.name ++ "'"

/-- Put other content in place, as a change. -/
def changeTo (s : Store) (data : Snapshot) : Store :=
  { s with data, generation := s.generation + 1 }

/-! ### Reading -/

def get? (s : Store) (key : String) : Option Value :=
  s.data.get? key

/-- The value at a key, or the given one. -/
def get (s : Store) (key : String) (default : Value) : Value :=
  (s.get? key).getD default

def has (s : Store) (key : String) : Bool :=
  s.data.contains key

/-- A value as a number. -/
def expectNumber (key : String) (value : Value) : Except StoreError Number :=
  match value.number? with
  | some n => .ok n
  | none => .error (.typeMismatch key .number value.kind)

/-- What may be empty as a number, nothing counting as the given number. -/
def currentNumber (key : String) (slot : Option Value) (absent : Number) :
    Except StoreError Number :=
  match slot with
  | none => .ok absent
  | some value => expectNumber key value

/-- The number at a key, or the given one. A value of another kind is an
error, and not the same as no value. -/
def getNumber (s : Store) (key : String) (default : Number) : Except StoreError Number :=
  currentNumber key (s.get? key) default

/-- The list at a key; empty where there is none. -/
def getArray (s : Store) (key : String) : List String :=
  match s.get? key with
  | some (.list items) => items
  | _ => []

/-- The entries whose key begins with the stem, in key order. -/
def entries (s : Store) (stem : String) : List (String × Value) :=
  s.data.under stem

/-- The keys that begin with the stem, in order. -/
def keys (s : Store) (stem : String) : List String :=
  (s.entries stem).map Prod.fst

/-- The whole content as JSON over lines. -/
def dump (s : Store) : String :=
  s.data.dump

/-! ### Writing -/

/-- No key is empty. -/
def checkKey (key : String) : Except StoreError Unit :=
  if key = "" then .error .emptyKey else .ok ()

/-- A stored number is finite. -/
def checkValue (key : String) (value : Value) : Except StoreError Unit :=
  if value.isStorable then .ok () else .error (.invalidValue key .notFinite)

/-- Set the value at a key. -/
def set (s : Store) (key : String) (value : Value) : Except StoreError Unit × Store :=
  match checkKey key, checkValue key value with
  | .error error, _ => (.error error, s)
  | _, .error error => (.error error, s)
  | .ok _, .ok _ => (.ok (), s.changeTo (s.data.insert key value))

/-- Remove a key, and say whether it was there. -/
def delete (s : Store) (key : String) : Bool × Store :=
  if s.has key then (true, s.changeTo (s.data.erase key)) else (false, s)

/-- Remove every key, and say how many there were. -/
def clear (s : Store) : Nat × Store :=
  if s.data.isEmpty then (0, s) else (s.data.size, s.changeTo .empty)

/-- Two slots hold the same value, or both are empty. -/
def sameSlot : Option Value → Option Value → Bool
  | none, none => true
  | some a, some b => a.sameValue b
  | _, _ => false

/-- Put a slot back at its key. -/
def putBack (s : Store) (key : String) (slot : Option Value) : Except StoreError Unit × Store :=
  match slot with
  | none => (.ok (), s.changeTo (s.data.erase key))
  | some value =>
    match checkValue key value with
    | .error error => (.error error, s)
    | .ok _ => (.ok (), s.changeTo (s.data.insert key value))

/-- Read one slot, change it, and put it back, as one operation. A slot that
still holds the same value is not put back. If the change fails, or what it
leaves may not be stored, the store stays as it was. -/
def update (s : Store) (key : String)
    (change : Option Value → Except StoreError (α × Option Value)) : Except StoreError α × Store :=
  match checkKey key with
  | .error error => (.error error, s)
  | .ok _ =>
    match change (s.get? key) with
    | .error error => (.error error, s)
    | .ok (result, slot) =>
      if sameSlot slot (s.get? key) then (.ok result, s)
      else
        match s.putBack key slot with
        | (.error error, s) => (.error error, s)
        | (.ok _, s) => (.ok result, s)

/-- The outcome of arithmetic on the number at a key. -/
def fitting (key : String) (result : Option Number) : Except StoreError Number :=
  match result with
  | some n => .ok n
  | none => .error (.overflow key)

/-- A change that computes a new number from the current one and gives it. -/
def computing (key : String) (compute : Number → Option Number) (slot : Option Value) :
    Except StoreError (Number × Option Value) := do
  let current ← currentNumber key slot (.int 0)
  let next ← fitting key (compute current)
  return (next, some (.number next))

/-- Add to the number at a key; no value counts as zero. -/
def increment (s : Store) (key : String) (delta : Number) : Except StoreError Number × Store :=
  s.update key (computing key (·.add? delta))

/-- Subtract from the number at a key; no value counts as zero. -/
def decrement (s : Store) (key : String) (delta : Number) : Except StoreError Number × Store :=
  s.update key (computing key (·.sub? delta))

/-- A change that takes an amount away if the current number covers it. -/
def debiting (key : String) (absent amount : Number) (slot : Option Value) :
    Except StoreError (Bool × Option Value) := do
  let current ← currentNumber key slot absent
  if current.order amount = .lt then return (false, slot)
  let next ← fitting key (current.sub? amount)
  return (true, some (.number next))

/-- Subtract only if the number at a key is at least the amount. -/
def decrementIfAtLeast (s : Store) (key : String) (amount : Number) :
    Except StoreError Bool × Store :=
  if amount.isNegative then (.error (.invalidValue key (.negativeDecrement amount)), s)
  else s.update key (debiting key (.int 0) amount)

/-- The value at a key, which is set to the given one if there is none. -/
def getOrSet (s : Store) (key : String) (default : Value) : Except StoreError Value × Store :=
  s.update key fun slot => .ok (slot.getD default, some (slot.getD default))

/-- A change that adds an item to a list and gives the new length. -/
def appending (key item : String) : Option Value → Except StoreError (Nat × Option Value)
  | none => .ok (1, some (.list [item]))
  | some (.list items) => .ok (items.length + 1, some (.list (items ++ [item])))
  | some other => .error (.typeMismatch key .list other.kind)

/-- Add an item to the list at a key; no value counts as the empty list. -/
def push (s : Store) (key item : String) : Except StoreError Nat × Store :=
  s.update key (appending key item)

end Store

end SnapshotStore
