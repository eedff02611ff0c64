import SnapshotStore.Ranking
import SnapshotStore.Value.Basic

/-! Commands to a store and the replies to them, as data. -/
namespace SnapshotStore

/-- Something a store is asked to do. -/
inductive Command where
  | get (key : String) (default : Option Value)
  | has (key : String)
  | set (key : String) (value : Value)
  | delete (key : String)
  | increment (key : String) (delta : Number)
  | decrement (key : String) (delta : Number)
  | push (key : String) (item : String)
  | keys (stem : String)
  | array (key : String)
  | top (stem : String) (limit : Nat)
  | dump
  | save
deriving DecidableEq

namespace Command

/-- How many rows a ranking has when no number is given. -/
def defaultLimit : Nat :=
  10

/-- The command may change what the store holds. -/
def isMutation : Command → Bool
  | .set _ _ | .delete _ | .increment _ _ | .decrement _ _ | .push _ _ => true
  | _ => false

end Command

/-- What a store answers to a command. -/
inductive Reply where
  | ok
  | value (value : Option Value)
  | bool (value : Bool)
  | number (value : Number)
  | count (value : Nat)
  | keys (names : List String)
  | ranking (rows : List Ranked)
  | text (content : String)

namespace Reply

/-- Lines without a line break at the end; no lines at all have a text of
their own. -/
def lines : List String → String
  | [] => "(empty)"
  | parts => "\n".intercalate parts

/-- A row of a ranking with its place. -/
def rankedLine (place : Nat) (row : Ranked) : String :=
  "#" ++ String.ofList (Decimal.digits place) ++ " " ++ row.identity ++ " " ++
    String.ofList row.value.text

/-- The text of a reply. -/
def display : Reply → String
  | .ok => "OK"
  | .value (some v) => v.display
  | .value none => "(nil)"
  | .bool b => String.ofList (Value.boolJson b)
  | .number n => String.ofList n.text
  | .count n => String.ofList (Decimal.digits n)
  | .keys names => lines names
  | .ranking rows => lines (rows.mapIdx fun place row => rankedLine (place + 1) row)
  | .text content => content

end Reply

end SnapshotStore
