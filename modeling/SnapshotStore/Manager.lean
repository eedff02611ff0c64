import SnapshotStore.Store.Saving

/-! A manager keeps the open stores of one directory, at most one a name. A
store is opened when it is first asked for. -/
namespace SnapshotStore

/-- The open stores of a directory by name. Their setup is that of the manager,
apart from the name. -/
structure Manager where
  config : Config
  stores : KeyMap Store

namespace Manager

/-- A manager without open stores. Its directory is created. -/
def «open» (config : Config) : Program (Except StoreError Manager) := do
  match config.check with
  | .error fault => return .error (.config fault)
  | .ok _ =>
    match ← Program.request (.createDirectories config.directory) with
    | .error fault => return .error (.disk fault)
    | .ok _ => return .ok ⟨config, .empty⟩

/-- Put a store in place. -/
def put (m : Manager) (store : Store) : Manager :=
  { m with stores := m.stores.insert store.name store }

/-- Open the store of a name unless it is open by now. -/
def register (m : Manager) (name : String) : Program (Except StoreError Unit × Manager) := do
  if m.stores.contains name then return (.ok (), m)
  match ← Store.open (m.config.forStore name) with
  | .error error => return (.error error, m)
  | .ok store => return (.ok (), m.put store)

/-- Have the store of a name open. -/
def use (m : Manager) (name : String) : Program (Except StoreError Unit × Manager) :=
  if m.stores.contains name then return (.ok (), m)
  else
    match Config.checkName name with
    | .error fault => return (.error (.config fault), m)
    | .ok _ => m.register name

/-- The names of the open stores, in order. -/
def names (m : Manager) : List String :=
  m.stores.keys

/-- The first of two outcomes that is an error. -/
def firstError (first second : Except StoreError Unit) : Except StoreError Unit :=
  match first with
  | .error error => .error error
  | .ok _ => second

/-- Save the named stores in the order given. One that fails does not stop the
others; the first error is reported. -/
def saveAmong (m : Manager) : List String → Program (Except StoreError Unit × Manager)
  | [] => return (.ok (), m)
  | name :: rest => do
    match m.stores.get? name with
    | none => m.saveAmong rest
    | some store =>
      let (outcome, store) ← store.save
      let (others, m) ← (m.put store).saveAmong rest
      return (firstError outcome others, m)

/-- Save every open store. -/
def saveAll (m : Manager) : Program (Except StoreError Unit × Manager) :=
  m.saveAmong m.names

/-- The names of the stores with something to save. -/
def dirtyNames (m : Manager) : List String :=
  (m.stores.filter fun entry => entry.2.isDirty).keys

/-- Save the stores with something to save. -/
def saveDirty (m : Manager) : Program (Except StoreError Unit × Manager) :=
  m.saveAmong m.dirtyNames

/-- Some store has something to save. -/
def isDirty (m : Manager) : Bool :=
  m.stores.entries.any fun entry => entry.2.isDirty

/-- How the stores are named in messages. -/
def describe (m : Manager) : String :=
  "stores in " ++ m.config.directory.text

/-- Let the manager go, and with it every store that is not kept by somebody else. -/
def release (m : Manager) (kept : String → Bool) : Program Unit :=
  (m.stores.entries.filter fun entry => !kept entry.1).forM fun entry => entry.2.release

end Manager

end SnapshotStore
