import Retrace.Text.Pieces

/-!
# Reading a command line

The arguments of a command are options, written `--name value`, `--name=value`, `-n value` or
`-nvalue`, flags, and operands. An option waits for its value until the next argument that is not one;
what waits is settled before anything else is taken. After `--` all arguments are operands. Options
that were not given are looked for among the environment variables.
-/

namespace Retrace.Console

open Retrace.Text

inductive UsageError where
  | help
  | version
  | noCommand
  | unknownCommand
  /-- An option that the command does not have, or one operand too many. -/
  | unknownArgument
  | missingArgument
  /-- An option without its value, an empty path, or a value that is none of those allowed. -/
  | missingValue
  | malformedValue
  | unexpectedValue
  /-- Two arguments that exclude each other, or one given twice. -/
  | conflict
deriving DecidableEq, Repr

/-- An option, a flag or the operand of a command. -/
structure Parameter where
  name : String
  short : Option Char := none
  /-- How a value is checked; flags have none. -/
  check : Option (String → Except UsageError Unit)
  many : Bool := false
  /-- What divides the values in one argument. -/
  divider : Option Char := none
  required : Bool := false
  /-- The environment variable that stands in for it. -/
  fallback : Option String := none
  /-- Names of flags that it excludes. -/
  excludes : List String := []
  /-- What asking for it means, if it is not an argument at all. -/
  request : Option UsageError := none

structure Grammar where
  options : List Parameter
  operand : Parameter

def helpFlag : Parameter := { name := "help", short := some 'h', check := none, request := some .help }

def versionFlag : Parameter :=
  { name := "version", short := some 'V', check := none, request := some .version }

/-! ## What is given -/

/-- The values of the parameters given so far, in order. -/
abbrev Given := List (String × List String)

namespace Given

def has (g : Given) (name : String) : Bool := g.any (·.1 = name)

def values (g : Given) (name : String) : List String :=
  (g.filter (·.1 = name)).flatMap (·.2)

def value? (g : Given) (name : String) : Option String := (g.values name).head?

/-- Cuts a value at the divider of its parameter. -/
def divide (p : Parameter) (value : String) : List String :=
  match p.divider with
  | some c => (pieces [c] value.toList).map String.ofList
  | none => [value]

/-- Checks all values of a parameter, the first one first. -/
def checkAll (check : String → Except UsageError Unit) : List String → Except UsageError Unit
  | [] => .ok ()
  | value :: values =>
    match check value with
    | .ok _ => checkAll check values
    | .error e => .error e

def add (g : Given) (p : Parameter) (values : List String) : Except UsageError Given :=
  match p.request with
  | some e => .error e
  | none =>
    match p.check with
    | none => if g.has p.name then .error .conflict else .ok (g ++ [(p.name, [])])
    | some check =>
      if values.isEmpty then .error .missingValue
      else if !p.many && g.has p.name then .error .conflict
      else
        let values := values.flatMap (divide p)
        (checkAll check values).map fun _ => g ++ [(p.name, values)]

end Given

/-! ## Taking arguments -/

/-- How far a command line is read. -/
structure Reading where
  given : Given
  /-- A parameter whose values are not checked yet. -/
  pending : Option (Parameter × List String)
  /-- Whether the pending parameter waits for a value. -/
  waits : Bool
  operandSeen : Bool
  operandsOnly : Bool

namespace Reading

def start : Reading := ⟨[], none, false, false, false⟩

def settle (r : Reading) : Except UsageError Reading :=
  match r.pending with
  | none => .ok r
  | some (p, values) => (r.given.add p values).map fun given => { r with given, pending := none }

def keep (r : Reading) (p : Parameter) (values : List String) : Except UsageError Reading := do
  let r ← r.settle
  (r.given.add p values).map fun given => { r with given, waits := false }

/-- Takes an option whose value is to follow. -/
def await (r : Reading) (p : Parameter) : Except UsageError Reading :=
  r.settle.map fun r => { r with pending := some (p, []), waits := true }

def operand (r : Reading) (p : Parameter) (value : String) : Except UsageError Reading :=
  if r.operandSeen && !p.many then .error .unknownArgument
  else
    let fresh : Except UsageError Reading :=
      r.settle.map fun r => { r with pending := some (p, [value]), waits := false, operandSeen := true }
    match r.pending with
    | some (q, values) =>
      if p.many && q.name = p.name then .ok { r with pending := some (p, values ++ [value]) } else fresh
    | none => fresh

/-- Takes an option by its long name, with the value after its equals sign. -/
def long (r : Reading) (options : List Parameter) (name : String) (value : Option String) :
    Except UsageError Reading :=
  match options.find? (·.name = name) with
  | none => .error .unknownArgument
  | some p =>
    match p.check, value with
    | some _, some value => r.keep p [value]
    | some _, none => r.await p
    | none, some _ => .error .unexpectedValue
    | none, none => r.keep p []

/-- Takes short options written together. The first one with a value takes the rest. -/
def shorts (options : List Parameter) : Reading → List Char → Except UsageError Reading
  | r, [] => .ok r
  | r, c :: cs =>
    match options.find? (·.short = some c) with
    | none => .error .unknownArgument
    | some p =>
      match p.check, cs with
      | none, _ => do shorts options (← r.keep p []) cs
      | some _, [] => r.await p
      | some _, '=' :: value => r.keep p [String.ofList value]
      | some _, value => r.keep p [String.ofList value]

def splitLong (cs : List Char) : String × Option String :=
  match cut? ['='] cs with
  | some (name, value) => (String.ofList name, some (String.ofList value))
  | none => (String.ofList cs, none)

/-- Takes an argument. A lone dash is a value. -/
def take (g : Grammar) (r : Reading) (arg : String) : Except UsageError Reading :=
  if r.operandsOnly then r.operand g.operand arg
  else
    match arg.toList with
    | ['-', '-'] => .ok { r with operandsOnly := true }
    | '-' :: '-' :: cs =>
      let (name, value) := splitLong cs
      r.long g.options name value
    | '-' :: c :: cs => shorts g.options r (c :: cs)
    | _ =>
      match r.waits, r.pending with
      | true, some (p, values) => .ok { r with pending := some (p, values ++ [arg]), waits := false }
      | _, _ => r.operand g.operand arg

end Reading

/-! ## The whole command line -/

/-- Adds the options that environment variables stand in for. -/
def addFallbacks (lookup : String → Option String) : Given → List Parameter → Except UsageError Given
  | g, [] => .ok g
  | g, p :: ps =>
    match p.fallback.bind lookup with
    | some value =>
      if g.has p.name then addFallbacks lookup g ps
      else do addFallbacks lookup (← g.add p [value]) ps
    | none => addFallbacks lookup g ps

/-- Whether two parameters are given that exclude each other. -/
def clashes (g : Given) (options : List Parameter) : Bool :=
  options.any fun p => g.has p.name && p.excludes.any g.has

def Grammar.read (g : Grammar) (lookup : String → Option String) (args : List String) :
    Except UsageError Given := do
  let r ← args.foldlM (Reading.take g) Reading.start
  let r ← r.settle
  let given ← addFallbacks lookup r.given g.options
  if clashes given g.options then .error .conflict
  else if (g.operand :: g.options).all fun p => !p.required || given.has p.name then .ok given
  else .error .missingArgument

end Retrace.Console
