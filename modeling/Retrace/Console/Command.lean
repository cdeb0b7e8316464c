import Retrace.Argument
import Retrace.Console.Usage
import Retrace.Target

/-!
# Commands

The commands of the command line, what each of them takes, and how a command line is read as one.
-/

namespace Retrace.Console

/-! ## What commands are told -/

structure ToolOptions where
  config : Option String
  compiler : Option String
  client : Option String
  caller : Option String
deriving DecidableEq, Repr

structure EnvironmentOptions where
  now : Option String
  transferred : Option String
  balance : Option String
  level : Option String
  source : Option String
  ask : Bool
deriving DecidableEq, Repr

/-- Where compilations are kept, and for how many hours. -/
structure CacheOptions where
  root : Option String
  hours : Option Nat
  disabled : Bool
deriving DecidableEq, Repr

structure DebugOptions where
  source : String
  entrypoint : Option String
  breakpoints : List UInt32
  env : EnvironmentOptions
  tools : ToolOptions
  cache : CacheOptions
deriving DecidableEq, Repr

/-- A debug document and a trace. -/
structure RunFiles where
  document : String
  trace : String
deriving DecidableEq, Repr

inductive Command where
  | trace (file : String) (json : Bool)
  | steps (files : RunFiles) (json : Bool)
  | gas (files : RunFiles) (json : Bool)
  /-- Compiles a source file; the code is printed or written next to it. -/
  | gen (source : String) (target : Target) (print : Bool) (tools : ToolOptions)
  | debug (options : DebugOptions)
  | op (files : List String)
  | completions (shell : String)
deriving DecidableEq, Repr

/-! ## Values -/

/-- Reads a natural with an optional sign. A minus sign is for zero only. -/
def natural? (cs : List Char) : Option Nat :=
  match Scalar.unsign cs with
  | (negative, ds) =>
    match Decimal.read? ds with
    | some n => if negative ∧ n ≠ 0 then none else some n
    | none => none

def line? (value : String) : Option UInt32 :=
  match natural? value.toList with
  | some n => if n < Nat.pow 2 32 then some (UInt32.ofNat n) else none
  | none => none

def hours? (value : String) : Option Nat :=
  if value.startsWith "-" then none
  else
    match natural? value.toList with
    | some n => if n < Nat.pow 2 64 then some n else none
    | none => none

/-- The command shells that have completions. -/
def shells : List String := ["bash", "elvish", "fish", "powershell", "zsh"]

def checkText (_ : String) : Except UsageError Unit := .ok ()

def checkPath (value : String) : Except UsageError Unit :=
  if value = "" then .error .missingValue else .ok ()

def checkShell (value : String) : Except UsageError Unit :=
  if shells.contains value then .ok () else .error .missingValue

def checkWith {α : Type} (read : String → Option α) (value : String) : Except UsageError Unit :=
  if (read value).isSome then .ok () else .error .malformedValue

/-! ## Parameters -/

def operandOf (name : String) : Parameter := { name, check := some checkPath, required := true }

def flagOf (name : String) : Parameter := { name, check := none }

def textOf (name : String) : Parameter := { name, check := some checkText }

def pathOf (name : String) : Parameter := { name, check := some checkPath }

def toolParameters : List Parameter :=
  [pathOf "config", { pathOf "archetype-bin" with fallback := some "ARLDB_ARCHETYPE_BIN" },
    { pathOf "octez-client" with fallback := some "ARLDB_OCTEZ_CLIENT" }, textOf "caller"]

def environmentParameters : List Parameter :=
  [textOf "now", textOf "transferred", textOf "balance", textOf "level", textOf "source-address",
    flagOf "ask-env"]

def cacheParameters : List Parameter :=
  [{ pathOf "cache-root" with fallback := some "ARLDB_CACHE_ROOT", excludes := ["no-cache"] },
    { name := "cache-ttl", check := some (checkWith hours?), excludes := ["no-cache"] },
    flagOf "no-cache"]

def runParameters : List Parameter :=
  [{ pathOf "debug-json" with short := some 'd', required := true }, flagOf "json"]

def genParameters : List Parameter :=
  [{ name := "target", short := some 't', check := some (checkWith Target.ofName?), required := true },
    flagOf "stdout"]

def debugParameters : List Parameter :=
  [{ textOf "entrypoint" with short := some 'e' },
    { name := "breakpoints", short := some 'b', check := some (checkWith line?), many := true,
      divider := some ',' }]

/-! ## Commands by name -/

inductive CommandName where
  | trace
  | steps
  | gas
  | gen
  | debug
  | op
  | completions
deriving DecidableEq, Repr

namespace CommandName

def all : List CommandName := [.trace, .steps, .gas, .gen, .debug, .op, .completions]

/-- The name of a command and its short form. -/
def names : CommandName → List String
  | .trace => ["trace", "t"]
  | .steps => ["steps", "s"]
  | .gas => ["gas"]
  | .gen => ["gen", "g"]
  | .debug => ["debug", "d"]
  | .op => ["op"]
  | .completions => ["completions", "com"]

def ofName? (name : String) : Option CommandName := all.find? (·.names.contains name)

def grammar : CommandName → Grammar
  | .trace => ⟨[flagOf "json", helpFlag], operandOf "trace"⟩
  | .steps => ⟨runParameters ++ [helpFlag], operandOf "trace"⟩
  | .gas => ⟨runParameters ++ [helpFlag], operandOf "trace"⟩
  | .gen => ⟨genParameters ++ toolParameters ++ [helpFlag], operandOf "source"⟩
  | .debug =>
    ⟨debugParameters ++ environmentParameters ++ toolParameters ++ cacheParameters ++ [helpFlag],
      operandOf "source"⟩
  | .op => ⟨[helpFlag], { operandOf "files" with many := true }⟩
  | .completions => ⟨[helpFlag], { operandOf "shell" with check := some checkShell }⟩

end CommandName

/-! ## What is given, as a command -/

namespace Given

def toolOptions (g : Given) : ToolOptions :=
  ⟨g.value? "config", g.value? "archetype-bin", g.value? "octez-client", g.value? "caller"⟩

def environmentOptions (g : Given) : EnvironmentOptions :=
  ⟨g.value? "now", g.value? "transferred", g.value? "balance", g.value? "level",
    g.value? "source-address", g.has "ask-env"⟩

def cacheOptions (g : Given) : CacheOptions :=
  ⟨g.value? "cache-root", (g.value? "cache-ttl").bind hours?, g.has "no-cache"⟩

def runFiles? (g : Given) : Option RunFiles := do
  some ⟨← g.value? "debug-json", ← g.value? "trace"⟩

def debugOptions? (g : Given) : Option DebugOptions := do
  some ⟨← g.value? "source", g.value? "entrypoint", (g.values "breakpoints").filterMap line?,
    g.environmentOptions, g.toolOptions, g.cacheOptions⟩

def command? (g : Given) : CommandName → Option Command
  | .trace => (g.value? "trace").map (Command.trace · (g.has "json"))
  | .steps => g.runFiles?.map (Command.steps · (g.has "json"))
  | .gas => g.runFiles?.map (Command.gas · (g.has "json"))
  | .gen => do
    some (.gen (← g.value? "source") (← (g.value? "target").bind Target.ofName?) (g.has "stdout")
      g.toolOptions)
  | .debug => g.debugOptions?.map Command.debug
  | .op => some (.op (g.values "files"))
  | .completions => (g.value? "shell").map Command.completions

end Given

/-! ## The whole command line -/

def topFlags : List Parameter := [helpFlag, versionFlag]

/-- Whether a name is that of a command, or of the one that shows help. -/
def isCommand (name : String) : Bool := name = "help" || (CommandName.ofName? name).isSome

def helpAbout : List String → UsageError
  | [] => .help
  | [name] => if isCommand name then .help else .unknownCommand
  | _ => .unknownCommand

/-- The outcome of arguments after `--` that no command precedes. -/
def misplaced : List String → UsageError
  | [] => .noCommand
  | name :: _ => if isCommand name then .unknownArgument else .unknownCommand

def topOption (r : Except UsageError Reading) : UsageError :=
  match r with
  | .error e => e
  | .ok _ => .unknownArgument

def Command.read (lookup : String → Option String) : List String → Except UsageError Command
  | [] => .error .noCommand
  | "help" :: args => .error (helpAbout args)
  | arg :: args =>
    match CommandName.ofName? arg with
    | some name => do
      let given ← name.grammar.read lookup args
      match given.command? name with
      | some c => .ok c
      | none => .error .missingArgument
    | none =>
      match arg.toList with
      | ['-', '-'] => .error (misplaced args)
      | '-' :: '-' :: cs =>
        let (name, value) := Reading.splitLong cs
        .error (topOption (Reading.start.long topFlags name value))
      | '-' :: c :: cs => .error (topOption (Reading.shorts topFlags .start (c :: cs)))
      | _ => .error .unknownCommand

end Retrace.Console
