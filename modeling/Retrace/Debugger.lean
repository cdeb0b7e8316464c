import Retrace.Decimal.Layout
import Retrace.Dialogue
import Retrace.Pipeline
import Retrace.Session

/-!
# Debugging a request

A request is put together by questions and launched as often as wanted. A second launch replaces
the execution of the session and keeps its breakpoints.
-/

namespace Retrace

/-- A request and its latest launch. -/
structure Debugger where
  request : Request
  artifact : Option Artifact
  session : Option Session

namespace Debugger

def ofRequest (request : Request) : Debugger := ⟨request, none, none⟩

/-! ## Putting a request together -/

def entrypointNames (decls : List EntrypointDecl) : String :=
  String.intercalate ", " (decls.map (·.name))

def chosen (decls : List EntrypointDecl) (answer : String) : Except InputError EntrypointDecl :=
  match decls.find? (·.name = Text.trimString answer) with
  | some decl => .ok decl
  | none => .error ⟨"entrypoint", "expected one of " ++ entrypointNames decls⟩

/-- Chooses the entrypoint: the one that is given, the only one, or the one that is asked for. -/
def choose (decls : List EntrypointDecl) (given : Option String) (d : Dialogue) :
    Except Report (Option EntrypointDecl × Dialogue) :=
  match given, decls with
  | some name, _ =>
    match decls.find? (·.name = name) with
    | some decl => .ok (some decl, d)
    | none => .error (Report.of (.other ("unknown entrypoint " ++ Text.Quoted.quote name)))
  | none, [decl] => .ok (some decl, d)
  | none, _ =>
    let (a, d) := d.collect ("Entrypoint to call (" ++ entrypointNames decls ++ ")") (chosen decls)
    .ok (a.map (·.value), d)

/-- Asks for all that a request needs. There is no request if the user cancels. -/
def collectRequest (interface : Interface) (source : String) (given : Option String) (env : Environment)
    (d : Dialogue) : Except Report (Option Request × Dialogue) :=
  if interface.entrypoints.isEmpty then
    .error (Report.of (.other (source ++ " declares no entrypoint")))
  else
    match choose interface.entrypoints given d with
    | .error e => .error e
    | .ok (none, d) => .ok (none, d)
    | .ok (some decl, d) =>
      match d.collectCall decl with
      | (none, d) => .ok (none, d)
      | (some call, d) =>
        match d.collectConstants interface.constants with
        | (none, d) => .ok (none, d)
        | (some constants, d) =>
          match d.collectStorage interface.storage with
          | (none, d) => .ok (none, d)
          | (some storage, d) => .ok (some ⟨source, call, storage, env, constants⟩, d)

def promptRequest (b : Backend) (source : String) (given : Option String) (env : Environment)
    (d : Dialogue) : Action (Option Request × Dialogue) := do
  let compiled ← b.compile source
  match collectRequest compiled.document.interface source given env d with
  | .ok r => pure r
  | .error e => throw e

/-! ## Launching -/

def summary (request : Request) (execution : Execution) : String :=
  let steps := String.ofList (Decimal.digits execution.length)
  let gas := Decimal.showPlain (execution.totalGas / Execution.gasScale)
  request.call.describe ++ ": " ++ steps ++ " step(s), " ++ gas ++ " gas"

def sessionOver (dbg : Debugger) (artifact : Artifact) : Session :=
  match dbg.session with
  | some s => s.reload artifact
  | none => Session.make artifact dbg.request.call.entrypoint dbg.request.env dbg.request.constants

end Debugger

/-- A debugger at work: the world that it acts on, and the events published so far, latest last. -/
structure Workbench where
  debugger : Debugger
  world : World
  published : List Event

abbrev Work (α : Type) := ExceptT Report (StateM Workbench) α

namespace Workbench

/-- Does a part of the pipeline. What it did to the world stays done if it fails. -/
def act {α : Type} (action : Action α) : Work α := do
  let s ← get
  let (result, world) := action.run s.world
  set { s with world }
  match result with
  | .ok x => pure x
  | .error e => throw e

def publish (events : List Event) : Work Unit :=
  modify fun s => { s with published := s.published ++ events }

/-- Runs the request and starts stepping through it. -/
def launch (b : Backend) (stopOnEntry : Bool) : Work Unit := do
  let dbg := (← get).debugger
  let artifact ← act (b.analyze dbg.request)
  publish [.output (Debugger.summary dbg.request artifact.execution)]
  let (session, events) := (dbg.sessionOver artifact).start stopOnEntry
  modify fun s => { s with debugger := { dbg with artifact := some artifact, session := some session } }
  publish events

end Workbench

/-- The debugger after a launch, and what the launch published. -/
def Debugger.launch (b : Backend) (dbg : Debugger) (stopOnEntry : Bool) :
    Action (Debugger × List Event) := do
  let (result, s) := (Workbench.launch b stopOnEntry).run ⟨dbg, ← get, []⟩
  set s.world
  match result with
  | .ok _ => pure (s.debugger, s.published)
  | .error e => throw e

end Retrace
