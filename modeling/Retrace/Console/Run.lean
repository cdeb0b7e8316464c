import Retrace.Console.Shell
import Retrace.Console.View
import Retrace.Debugger
import Retrace.Execution.Encoding
import Retrace.Settings.Reader

/-!
# Running commands

Each command is a job: it reads its files, does its work and prints the result.
-/

namespace Retrace.Console

open Retrace.Text

namespace Job

/-! ## Traced runs -/

def parseTrace (raw : String) : Job Trace :=
  match Trace.ofString raw with
  | .ok t => pure t
  | .error e => throw (Report.of (.trace e))

def loadRun (files : RunFiles) : Job Artifact := do
  let document ← MonadExcept.ofExcept (Document.ofText (← readFile files.document))
  MonadExcept.ofExcept (Artifact.ofRaw document (← readFile files.trace))

def showTrace (file : String) (json : Bool) : Job Unit := do
  let t ← parseTrace (← readFile file)
  printLines (if json then [t.toJson.indented] else View.trace t)

def showSteps (files : RunFiles) (json : Bool) : Job Unit := do
  let a ← loadRun files
  printLines (if json then [a.execution.toJson.indented] else View.execution a.execution)

def showGas (files : RunFiles) (json : Bool) : Job Unit := do
  let a ← loadRun files
  printLines (if json then [a.gas.toJson.indented] else View.gas a.gas)

/-! ## Receipts -/

/-- Reads one receipt, or a list of them if the text starts with a bracket. -/
def receipts (content : String) : Except Report (List Receipt) :=
  if (trimStart content.toList).head? = some '[' then
    match Receipt.readAll? content with
    | some rs => .ok rs
    | none => .error ((Report.of .malformedJson).within "not a list of tezos operations")
  else
    match Receipt.read? content with
    | some r => .ok [r]
    | none => .error ((Report.of .malformedJson).within "not a tezos operation")

def showReceipts : List String → Job Unit
  | [] => pure ()
  | file :: files => do
    match receipts (← readFile file) with
    | .ok rs => printLines (rs.map View.receipt)
    | .error e => throw (e.within ("in " ++ file))
    showReceipts files

/-! ## Settings -/

def settingsFrom (path : String) : Job Settings := do
  let s ← get
  let text ← orFile ("failed to read config file " ++ path) (s.files.read s.directory path)
  match Settings.read? text with
  | some c => pure c
  | none => throw ((Report.of .malformedSettings).within ("invalid config file " ++ path))

/-- The settings file that is used if there is one. -/
def ownSettings (s : Shell) : String := Path.join s.home ".arldb/config.toml"

def settings (o : ToolOptions) : Job Settings := do
  let s ← get
  let base ← match o.config with
    | some path => settingsFrom path
    | none =>
      if s.files.leads s.directory (ownSettings s) then settingsFrom (ownSettings s)
      else pure .builtIn
  pure (base.override ⟨o.compiler, o.client, o.caller⟩)

/-! ## Generating code -/

def exec (call : ToolCall) : Job String := act none (Backend.exec call none)

def generate (source : String) (target : Target) (toOutput : Bool) (tools : ToolOptions) : Job Unit := do
  let code ← exec ((← settings tools).compileCall source target)
  if toOutput then print code
  else
    writeFile (target.outputPath source) code
    warn ("Generated " ++ target.outputPath source ++ "\n")

/-! ## Debugging -/

structure Tools where
  backend : Backend
  cache : Option CacheFolder

/-- The folder of a cache, made if it is missing. -/
def cacheFolder (o : CacheOptions) : Job (Option CacheFolder) := do
  if o.disabled then pure none
  else
    let s ← get
    let path := Path.join (o.root.getD (Path.join s.home ".arldb/cache")) "archetype"
    match s.files.makeFolder s.directory path with
    | .ok (files, place) =>
      set { s with files }
      pure (some ⟨place, roomIn path⟩)
    | .error e => throw (Report.of (.file e))

def lifetime (o : CacheOptions) : Option Nat := o.hours.map fun h => min (h * 3600) Cache.never

def tools (o : ToolOptions) (c : CacheOptions) : Job Tools := do
  let settings ← settings o
  let folder ← cacheFolder c
  pure ⟨⟨settings, ⟨Compiled.codec, folder.isSome, lifetime c⟩⟩, folder⟩

def setField (env : Environment) (field : EnvironmentField) : Option String → Job Environment
  | some value => orInput (env.set field value)
  | none => pure env

def environment (o : EnvironmentOptions) (caller : String) : Job Environment := do
  let now := (DateTime.textOf? (← get).now).getD ""
  let env ← setField (Environment.make now caller) .now o.now
  let env ← setField env .transferred o.transferred
  let env ← setField env .balance o.balance
  let env ← setField env .level o.level
  setField env .source o.source

/-- Lets the user change an environment, if wanted. Without answer there is none. -/
def askEnvironment (o : EnvironmentOptions) (env : Environment) : Job (Option Environment) := do
  if o.ask then
    let (completed, env, d) := (← dialogue).collectEnvironment env
    conclude d
    pure (if completed then some env else none)
  else pure (some env)

/-- Asks for a request. Without answer there is none. -/
def askRequest (t : Tools) (o : DebugOptions) (env : Environment) : Job (Option Request) := do
  let (request, d) ← act t.cache
    (Debugger.promptRequest t.backend o.source o.entrypoint env (← dialogue))
  conclude d
  pure request

def launch (t : Tools) (dbg : Debugger) : Job (Debugger × List Event) :=
  act t.cache (dbg.launch t.backend true)

/-- Stops on breakpoints, if there are any. -/
def begin_ (lines : List UInt32) (s : Session) (events : List Event) :
    List Breakpoint × Session × List Event :=
  if lines.isEmpty then ([], s, events)
  else
    let s := s.setBreakpoints lines
    let (next, more) := s.continue_ false
    (s.breakpoints, next, events ++ more)

def invitation : String := "(arldb): "

/-- Follows the instructions of lines until one quits. -/
def converse (t : Tools) (source : List String) : Debugger → List String → Job Unit
  | _, [] => warn invitation
  | dbg, line :: lines => do
    warn invitation
    match Instruction.ofLine line, dbg.session with
    | .error message, _ =>
      warn (message ++ "\n")
      converse t source dbg lines
    | .ok .quit, _ => pure ()
    | .ok .restart, _ =>
      let (dbg, events) ← launch t dbg
      match dbg.session with
      | some s => printLines (View.events source s events)
      | none => pure ()
      converse t source dbg lines
    | .ok i, some s =>
      let (shown, s, events) := View.apply source s i
      printLines (shown ++ View.events source s events)
      converse t source { dbg with session := some s } lines
    | .ok _, none => converse t source dbg lines

def debugRequest (t : Tools) (o : DebugOptions) (request : Request) : Job Unit := do
  let source := (lines (← readFile o.source).toList).map String.ofList
  let (dbg, events) ← launch t (.ofRequest request)
  match dbg.session with
  | none => pure ()
  | some s =>
    let (breakpoints, s, events) := begin_ o.breakpoints s events
    printLines (breakpoints.map View.breakpoint ++ View.events source s events)
    converse t source { dbg with session := some s } (← get).input

def debug (o : DebugOptions) : Job Unit := do
  let t ← tools o.tools o.cache
  let env ← environment o.env t.backend.settings.caller
  match ← askEnvironment o.env env with
  | none => pure ()
  | some env =>
    match ← askRequest t o env with
    | none => pure ()
    | some request => debugRequest t o request

end Job

/-- Runs a command. Completions belong to the outer layer. -/
def Command.run : Command → Job Unit
  | .trace file json => Job.showTrace file json
  | .steps files json => Job.showSteps files json
  | .gas files json => Job.showGas files json
  | .gen source target toOutput tools => Job.generate source target toOutput tools
  | .debug options => Job.debug options
  | .op files => Job.showReceipts files
  | .completions _ => pure ()

inductive Outcome where
  | usage (e : UsageError)
  /-- The shell that a command left, and the failure it ended with. -/
  | done (shell : Shell) (failure : Option Report)

def run (lookup : String → Option String) (shell : Shell) (args : List String) : Outcome :=
  match Command.read lookup args with
  | .error e => .usage e
  | .ok command =>
    match command.run.run shell with
    | (.ok _, shell) => .done shell none
    | (.error e, shell) => .done shell (some e)

end Retrace.Console
