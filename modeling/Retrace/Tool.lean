import Retrace.Environment
import Retrace.Report
import Retrace.Settings.Basic
import Retrace.Target
import Retrace.Trace.Failure

/-!
# External programs

The compiler and the sandbox client: their command lines, and what counts as their output.
-/

namespace Retrace

structure ToolOutput where
  /-- The exit code, missing if a signal ended the program. -/
  code : Option Int
  stdout : String
  stderr : String
deriving DecidableEq, Repr

structure ToolCall where
  program : String
  args : List String
deriving DecidableEq, Repr

namespace ToolOutput

def succeeded (o : ToolOutput) : Bool := o.code == some 0

/-- The text of an output. A failed run is an error, unless its messages hold `mark`: then they are
the text. -/
def check (program : String) (o : ToolOutput) (mark : Option String) : Except ToolError String :=
  if o.succeeded then .ok o.stdout
  else
    match mark with
    | some mark =>
      if Text.occurs mark.toList o.stderr.toList then .ok o.stderr
      else .error (.failed program o.code o.stderr)
    | none => .error (.failed program o.code o.stderr)

end ToolOutput

structure ScriptRun where
  script : String
  storage : String
  input : String
  entrypoint : String
  env : Environment

namespace Settings

def versionCall (s : Settings) : ToolCall := ⟨s.compiler, ["--version"]⟩

def compileCall (s : Settings) (source : String) (target : Target) : ToolCall :=
  ⟨s.compiler, ["--set-caller-init=" ++ s.caller, "-t", target.name, source]⟩

def runCall (s : Settings) (run : ScriptRun) : ToolCall :=
  ⟨s.client, s.clientArgs ++
    ["run", "script", run.script, "on", "storage", run.storage, "and", "input", run.input,
     "--entrypoint", run.entrypoint, "--trace-stack"] ++ run.env.flags⟩

end Settings
end Retrace
