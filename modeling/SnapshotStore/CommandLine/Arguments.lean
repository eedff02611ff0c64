import SnapshotStore.Command.Parse

/-! The arguments of the program. Options that choose the store come first,
then the name of an action, then the positions and the option of that action.
The value of an option is the next argument, or is attached to it; an argument
that begins with a hyphen is a value only when attached. After a lone double
hyphen every argument is a position. -/
namespace SnapshotStore.CommandLine

/-- An action with its arguments as they were typed. -/
inductive Action where
  | get (key : String) (default : Option String)
  | has (key : String)
  | set (key value : String)
  | del (key : String)
  | incr (key delta : String)
  | decr (key delta : String)
  | push (key item : String)
  | keys (stem : String)
  | array (key : String)
  | top (stem : String) (limit : Nat)
  | dump
  | batch
deriving DecidableEq

/-- The command that an action stands for; none for a batch, which reads its
commands elsewhere. -/
def Action.command? : Action → Except CommandFault (Option Command)
  | .get key default => .ok (some (.get key (default.map .ofLiteral)))
  | .has key => .ok (some (.has key))
  | .set key value => .ok (some (.set key (.ofLiteral value)))
  | .del key => .ok (some (.delete key))
  | .incr key delta => (Command.readNumber delta).map fun n => some (.increment key n)
  | .decr key delta => (Command.readNumber delta).map fun n => some (.decrement key n)
  | .push key item => .ok (some (.push key item))
  | .keys stem => .ok (some (.keys stem))
  | .array key => .ok (some (.array key))
  | .top stem limit => .ok (some (.top stem limit))
  | .dump => .ok (some .dump)
  | .batch => .ok none

/-- What the arguments ask for. -/
structure Invocation where
  directory : String
  store : String
  fresh : Bool
  action : Action

/-- What the arguments come to. -/
inductive Request where
  | run (invocation : Invocation)
  | version
  | misuse

/-- How one argument looks. An attached value follows an equals sign, or in
the short form the letter itself. -/
inductive Shape where
  | position
  | endOfOptions
  | long (name : String) (attached : Option String)
  | short (letter : Char) (attached : List Char)

/-- The shape of an argument. A lone hyphen is a position. -/
def shape (argument : String) : Shape :=
  match argument.toList with
  | ['-', '-'] => .endOfOptions
  | '-' :: '-' :: body =>
    let name := String.ofList (body.takeWhile (· ≠ '='))
    match body.dropWhile (· ≠ '=') with
    | [] => .long name none
    | _ :: value => .long name (some (String.ofList value))
  | '-' :: letter :: attached => .short letter attached
  | _ => .position

/-- The argument may stand where the value of an option is due. -/
def isPosition (argument : String) : Bool :=
  match shape argument with
  | .position => true
  | _ => false

/-- The value that follows the letter of a short option. -/
def attachedText : List Char → Option String
  | [] => none
  | '=' :: value => some (String.ofList value)
  | value => some (String.ofList value)

/-- The value of an option, and the arguments after it. -/
def optionValue? (attached : Option String) (rest : List String) :
    Option (String × { after : List String // after.length ≤ rest.length }) :=
  match attached, rest with
  | some value, rest => some (value, ⟨rest, Nat.le_refl _⟩)
  | none, [] => none
  | none, value :: after =>
    if isPosition value then some (value, ⟨after, Nat.le_succ _⟩) else none

/-! ### Actions -/

/-- What an action is given. -/
structure Given where
  positions : List String
  option : Option String

/-- What an action takes: how many positions, how many of them may be left
out, whether the last one may begin with a hyphen, and the names of its
option. -/
structure Form where
  positions : Nat
  optional : Nat := 0
  hyphenated : Bool := false
  long : Option String := none
  short : Option Char := none

/-- One more argument goes to the position that may begin with a hyphen. -/
def Form.admitsHyphen (f : Form) (given : Given) : Bool :=
  f.hyphenated && given.positions.length + 1 = f.positions

/-- What an argument of an action is taken for. -/
inductive Part where
  | position
  | positionsOnly
  | option (attached : Option String)
  | misfit

/-- What the next argument is taken for. A question for help is never taken
for a position. -/
def Form.part (f : Form) (given : Given) (argument : String) : Part :=
  match shape argument with
  | .position => .position
  | .endOfOptions => .positionsOnly
  | .long name attached =>
    if f.long = some name then .option attached
    else if f.admitsHyphen given && name ≠ "help" then .position
    else .misfit
  | .short letter attached =>
    if f.short = some letter then .option (attachedText attached)
    else if f.admitsHyphen given && (letter :: attached).any (· ≠ 'h') then .position
    else .misfit

/-- Note the value of the option, which may be given once. -/
def Given.note? (given : Given) (value : String) : Option Given :=
  if given.option.isSome then none else some { given with option := some value }

/-- Sort the arguments of an action. -/
def gather (f : Form) (given : Given) (arguments : List String) : Option Given :=
  match arguments with
  | [] => some given
  | argument :: rest =>
    match f.part given argument with
    | .position => gather f { given with positions := given.positions ++ [argument] } rest
    | .positionsOnly => some { given with positions := given.positions ++ rest }
    | .misfit => none
    | .option attached =>
      match optionValue? attached rest with
      | none => none
      | some (value, after) =>
        match given.note? value with
        | none => none
        | some given => gather f given after.1
termination_by arguments.length
decreasing_by
  · simp
  · have := after.2
    simp only [List.length_cons]
    omega

/-- The arguments of an action, if it is given what it takes. -/
def arguments (f : Form) (rest : List String) : Option Given :=
  match gather f ⟨[], none⟩ rest with
  | none => none
  | some given =>
    let count := given.positions.length
    if count ≤ f.positions ∧ f.positions ≤ count + f.optional then some given else none

/-- What each action takes, by its name. -/
def form? (name : String) : Option Form :=
  match name with
  | "get" => some { positions := 1, long := some "default" }
  | "has" => some { positions := 1 }
  | "set" => some { positions := 2 }
  | "del" => some { positions := 1 }
  | "incr" => some { positions := 2, optional := 1, hyphenated := true }
  | "decr" => some { positions := 2, optional := 1, hyphenated := true }
  | "push" => some { positions := 2 }
  | "keys" => some { positions := 1, optional := 1 }
  | "array" => some { positions := 1 }
  | "top" => some { positions := 1, long := some "limit", short := some 'n' }
  | "dump" => some { positions := 0 }
  | "batch" => some { positions := 0 }
  | _ => none

/-- The action of a name with what it is given. A delta left out is one, a
stem left out is empty, and a limit left out is the usual one. -/
def action? (name : String) (given : Given) : Option Action :=
  match name, given.positions with
  | "get", [key] => some (.get key given.option)
  | "has", [key] => some (.has key)
  | "set", [key, value] => some (.set key value)
  | "del", [key] => some (.del key)
  | "incr", [key] => some (.incr key "1")
  | "incr", [key, delta] => some (.incr key delta)
  | "decr", [key] => some (.decr key "1")
  | "decr", [key, delta] => some (.decr key delta)
  | "push", [key, item] => some (.push key item)
  | "keys", [] => some (.keys "")
  | "keys", [stem] => some (.keys stem)
  | "array", [key] => some (.array key)
  | "top", [stem] =>
    match given.option with
    | none => some (.top stem Command.defaultLimit)
    | some limit => (Decimal.readCount? limit.toList).map (.top stem)
  | "dump", [] => some .dump
  | "batch", [] => some .batch
  | _, _ => none

/-- An action from its name on. -/
def readAction? (name : String) (rest : List String) : Option Action :=
  match form? name with
  | none => none
  | some f =>
    match arguments f rest with
    | none => none
    | some given => action? name given

/-! ### Options in front of the action -/

/-- What the options have said so far. -/
structure Options where
  directory : Option String := none
  store : Option String := none
  fresh : Bool := false

/-- What is run when the options are followed by an action. What they leave
open is as in the usual setup. -/
def Options.invocation (o : Options) (action : Action) : Invocation :=
  let usual : Config := {}
  ⟨o.directory.getD usual.directory.text, o.store.getD usual.name, o.fresh, action⟩

/-- An option in front of the action. -/
inductive Setting where
  | directory
  | store
deriving DecidableEq

/-- The setting of an option with a value, by its long name. -/
def settingOfName? (name : String) : Option Setting :=
  if name = "data-dir" then some .directory else if name = "store" then some .store else none

/-- The setting of an option with a value, by its letter. -/
def settingOfLetter? (letter : Char) : Option Setting :=
  if letter = 'd' then some .directory else if letter = 's' then some .store else none

/-- Note the value of a setting, which may be given once. -/
def Options.note? (o : Options) (setting : Setting) (value : String) : Option Options :=
  match setting with
  | .directory => if o.directory.isSome then none else some { o with directory := some value }
  | .store => if o.store.isSome then none else some { o with store := some value }

/-- Read the options and the action. The first thing that settles the matter
decides: a mistake, or the question for the version. -/
def readOptions (o : Options) (arguments : List String) : Request :=
  match arguments with
  | [] => .misuse
  | argument :: rest =>
    let withSetting (setting : Option Setting) (attached : Option String) : Request :=
      match setting, optionValue? attached rest with
      | some setting, some (value, after) =>
        match o.note? setting value with
        | some o => readOptions o after.1
        | none => .misuse
      | _, _ => .misuse
    match shape argument with
    | .position =>
      match readAction? argument rest with
      | some action => .run (o.invocation action)
      | none => .misuse
    | .endOfOptions => .misuse
    | .long name attached =>
      if name = "version" ∧ attached = none then .version
      else if name = "fresh" then
        if attached = none ∧ o.fresh = false then readOptions { o with fresh := true } rest
        else .misuse
      else withSetting (settingOfName? name) attached
    | .short letter attached =>
      if letter = 'V' then .version
      else withSetting (settingOfLetter? letter) (attachedText attached)
termination_by arguments.length
decreasing_by
  · have := after.2
    simp only [List.length_cons]
    omega
  · simp

/-- What all arguments come to. -/
def parse (arguments : List String) : Request :=
  readOptions {} arguments

end SnapshotStore.CommandLine
