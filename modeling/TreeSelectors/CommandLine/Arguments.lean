namespace TreeSelectors.CommandLine

/-!
# Arguments of the command line

The first argument that is not a switch names the command. Switches may stand
anywhere among the arguments of their command; behind `--` nothing is a
switch. A switch is given once at most.
-/

/-- What the program is asked to do. -/
inductive Command where
  /-- Show the tokens of a selector. -/
  | tokens (selector : String) (json : Bool)
  /-- Show the tree of a selector. -/
  | parse (selector : String) (json : Bool)
  /-- Write a selector in its canonical form. -/
  | serialize (selector : String)
  /-- Find the objects of a JSON document that match a selector. -/
  | query (selector : String) (path? : Option String) (json? : Option String)
      (first : Bool) (names : Bool)
deriving Repr, DecidableEq

/-- A command, and whether warnings are suppressed. -/
structure Invocation where
  quiet : Bool
  command : Command
deriving Repr, DecidableEq

/-- The arguments of a command, sorted. -/
structure Sorted where
  positional : List String
  switches : List String
  values : List (String × String)
deriving Repr, DecidableEq

namespace Sorted

/-- No arguments. -/
def empty : Sorted :=
  ⟨[], [], []⟩

/-- Whether a switch was given. -/
def has (sorted : Sorted) (switch : String) : Bool :=
  sorted.switches.contains switch

/-- The value given with a switch. -/
def value? (sorted : Sorted) (switch : String) : Option String :=
  (sorted.values.find? fun entry => entry.1 == switch).map Prod.snd

/-- The arguments with one more positional one in front. -/
def withPositional (argument : String) (sorted : Sorted) : Sorted :=
  { sorted with positional := argument :: sorted.positional }

/-- The arguments with one more switch, unless it is there already. -/
def withSwitch? (switch : String) (sorted : Sorted) : Option Sorted :=
  if sorted.has switch then none
  else some { sorted with switches := switch :: sorted.switches }

/-- The arguments with one more value, unless its switch has one already. -/
def withValue? (switch value : String) (sorted : Sorted) : Option Sorted :=
  if (sorted.value? switch).isSome then none
  else some { sorted with values := (switch, value) :: sorted.values }

end Sorted

/-- The switches of a command: those that stand alone and those with a value. -/
structure Switches where
  alone : List String
  valued : List String

/-- Whether an argument is written like a switch. -/
def looksLikeSwitch (argument : String) : Bool :=
  match argument.toList with
  | '-' :: _ :: _ => true
  | _ => false

/-- The long name of a switch. -/
def longName (argument : String) : String :=
  if argument = "-q" then "--quiet" else argument

/-- The name and value of a switch written with an equals sign. -/
def splitAssignment? (argument : String) : Option (String × String) :=
  let chars := argument.toList
  match chars.dropWhile (· != '=') with
  | '=' :: value => some (String.ofList (chars.takeWhile (· != '=')), String.ofList value)
  | _ => none

/-- The arguments of a command with the given switches, unless one is unknown. -/
def sort? (switches : Switches) : List String → Option Sorted
  | [] =>
      some .empty
  | argument :: rest =>
      if argument = "--" then
        some { Sorted.empty with positional := rest }
      else if !looksLikeSwitch argument then
        (sort? switches rest).map (Sorted.withPositional argument)
      else if switches.alone.contains (longName argument) then
        (sort? switches rest).bind (Sorted.withSwitch? (longName argument))
      else if switches.valued.contains argument then
        match rest with
        | value :: others =>
            if looksLikeSwitch value then none
            else (sort? switches others).bind (Sorted.withValue? argument value)
        | [] =>
            none
      else
        match splitAssignment? argument with
        | some (name, value) =>
            if switches.valued.contains name then
              (sort? switches rest).bind (Sorted.withValue? name value)
            else
              none
        | none =>
            none

/-- The switches of a command, by its name. -/
def switchesOf? (command : String) : Option Switches :=
  match command with
  | "tokens" => some ⟨["--quiet", "--json"], []⟩
  | "parse" => some ⟨["--quiet", "--json"], []⟩
  | "serialize" => some ⟨["--quiet"], []⟩
  | "query" => some ⟨["--quiet", "--first", "--names"], ["--json"]⟩
  | _ => none

/-- The command with a name and arguments, if they fit together. -/
def commandOf? (name : String) (sorted : Sorted) : Option Command :=
  match name, sorted.positional with
  | "tokens", [selector] => some (.tokens selector (sorted.has "--json"))
  | "parse", [selector] => some (.parse selector (sorted.has "--json"))
  | "serialize", [selector] => some (.serialize selector)
  | "query", [selector] =>
      some (.query selector none (sorted.value? "--json") (sorted.has "--first")
        (sorted.has "--names"))
  | "query", [selector, path] =>
      some (.query selector (some path) (sorted.value? "--json") (sorted.has "--first")
        (sorted.has "--names"))
  | _, _ => none

/-- The invocation that some arguments stand for, if they stand for one. -/
def invocation? (arguments : List String) : Option Invocation := do
  let (early, arguments) :=
    match arguments with
    | first :: rest => if longName first = "--quiet" then (true, rest) else (false, arguments)
    | [] => (false, [])
  match arguments with
  | [] => none
  | name :: rest =>
      let switches ← switchesOf? name
      let sorted ← sort? switches rest
      let command ← commandOf? name sorted
      some ⟨early || sorted.has "--quiet", command⟩

end TreeSelectors.CommandLine
