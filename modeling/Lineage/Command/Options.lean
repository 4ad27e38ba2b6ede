import Lineage.Text.Split

/-!
# Options on a command line

A command declares the options it knows, and whether it takes one plain argument. Arguments are read
one after the other.

* `--name`, `--name value`, `--name=value`; `-x`, `-x value`, `-xvalue`, `-x=value`. Short options
  may stand together behind one hyphen, and the last of them may take a value.
* What starts with a hyphen is never taken as the value of the option before it, a single hyphen
  apart.
* Everything behind `--` is a plain argument.

The value of an option, or a plain argument, is checked only when the next option or plain argument
comes, or at the end. So an argument that nobody knows is reported ahead of a value that is wrong.
-/
namespace Lineage.Command

/-- Why a command line was not accepted, or what it asked for instead of a command. -/
inductive Usage where
  | helpForNothing
  | help
  | version
  | unknownArgument
  | invalidSubcommand
  | invalidValue
  | tooManyValues
  | conflict
  | missingArgument
  deriving DecidableEq, Repr, Inhabited

/-- What an option does. -/
inductive Action where
  /-- Stands alone, at most once. -/
  | flag
  /-- Stands alone, any number of times. -/
  | count
  /-- Takes a value that is acceptable, at most once. -/
  | value (accepts : String → Bool)
  /-- Takes values divided by a character, any number of times. -/
  | list (divider : Char)
  /-- Asks for help. -/
  | help

structure OptionSpec where
  name : String
  short : Option Char := none
  action : Action

namespace OptionSpec

def takesValue (o : OptionSpec) : Bool :=
  match o.action with
  | .value _ => true
  | .list _ => true
  | _ => false

end OptionSpec

/-- What a command understands. -/
structure CommandSpec where
  options : List OptionSpec
  /-- The plain argument, if there is one. -/
  argument : Option OptionSpec := none

namespace CommandSpec

def long? (c : CommandSpec) (name : String) : Option OptionSpec :=
  c.options.find? fun o => o.name == name

def short? (c : CommandSpec) (letter : Char) : Option OptionSpec :=
  c.options.find? fun o => o.short == some letter

end CommandSpec

/-! ## State -/

structure Reading where
  /-- The options found, each with its values, in order. -/
  found : List (String × List String) := []
  /-- The last option or plain argument, with the values it has so far. -/
  pending : Option (OptionSpec × List String) := none
  /-- Does the pending option wait for its value? -/
  waiting : Bool := false
  /-- Was the plain argument given? -/
  argumentGiven : Bool := false

namespace Reading

def has (r : Reading) (name : String) : Bool := r.found.any fun f => f.1 == name

def add (r : Reading) (name : String) (values : List String) : Reading :=
  { r with found := r.found ++ [(name, values)] }

/-- Records an option with its values. A second one is a conflict, whatever its value. -/
def record (r : Reading) (o : OptionSpec) (values : List String) : Except Usage Reading :=
  match o.action, values with
  | .help, _ => .error .help
  | .count, _ => .ok (r.add o.name [])
  | .flag, _ => if r.has o.name then .error .conflict else .ok (r.add o.name [])
  | .value _, [] => .error .invalidValue
  | .list _, [] => .error .invalidValue
  | .value accepts, v :: _ =>
    if r.has o.name then .error .conflict
    else if accepts v then .ok (r.add o.name [v])
    else .error .invalidValue
  | .list divider, v :: _ =>
    .ok (r.add o.name ((Text.split divider v.toList).map String.ofList))

/-- Records what is pending. -/
def settle (r : Reading) : Except Usage Reading :=
  match r.pending with
  | none => .ok r
  | some (o, values) => ({ r with pending := none, waiting := false }).record o values

/-- Records an option behind what is pending. -/
def react (r : Reading) (o : OptionSpec) (values : List String) : Except Usage Reading := do
  (← r.settle).record o values

/-- An option that waits for its value. -/
def await (r : Reading) (o : OptionSpec) : Except Usage Reading := do
  return { ← r.settle with pending := some (o, []), waiting := true }

/-! ## Arguments -/

/-- `--name` or `--name=value`. -/
def long (c : CommandSpec) (r : Reading) (body : List Char) : Except Usage Reading :=
  let name := body.takeWhile (· != '=')
  let attached := (body.dropWhile (· != '=')).tail?.map String.ofList
  match c.long? (String.ofList name) with
  | none => .error .unknownArgument
  | some o =>
    match o.takesValue, attached with
    | true, some v => r.react o [v]
    | true, none => r.await o
    | false, some _ => .error .tooManyValues
    | false, none => r.react o []

/-- Short options behind one hyphen. -/
def cluster (c : CommandSpec) (r : Reading) : List Char → Except Usage Reading
  | [] => .ok r
  | letter :: rest =>
    match c.short? letter with
    | none => .error .unknownArgument
    | some o =>
      if o.takesValue then
        match rest with
        | [] => r.await o
        | '=' :: v => r.react o [String.ofList v]
        | v => r.react o [String.ofList v]
      else do cluster c (← r.react o []) rest

/-- A plain argument, or the value that an option waits for. -/
def plain (c : CommandSpec) (r : Reading) (behindMark : Bool) (arg : String) :
    Except Usage Reading :=
  match r.pending, r.waiting && !behindMark with
  | some (o, values), true =>
    .ok { r with pending := some (o, values ++ [arg]), waiting := false }
  | _, _ =>
    match c.argument, r.argumentGiven with
    | some o, false => do
      return { ← r.settle with pending := some (o, [arg]), waiting := false, argumentGiven := true }
    | _, _ => .error .unknownArgument

/-- All arguments; `behindMark` says whether `--` was seen. -/
def arguments (c : CommandSpec) (r : Reading) (behindMark : Bool) :
    List String → Except Usage Reading
  | [] => r.settle
  | arg :: rest => do
    match behindMark, arg.toList with
    | false, ['-', '-'] => arguments c r true rest
    | false, '-' :: '-' :: body => arguments c (← r.long c body) false rest
    | false, '-' :: letter :: letters => arguments c (← r.cluster c (letter :: letters)) false rest
    | _, _ => arguments c (← r.plain c behindMark arg) behindMark rest

end Reading

/-- The options found in the arguments. The plain argument, if the command takes one, must be
there. -/
def CommandSpec.read (c : CommandSpec) (args : List String) :
    Except Usage (List (String × List String)) := do
  let r ← ({} : Reading).arguments c false args
  if c.argument.isSome && !r.argumentGiven then .error .missingArgument
  return r.found

end Lineage.Command
