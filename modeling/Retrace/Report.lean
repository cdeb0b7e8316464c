import Retrace.Argument
import Retrace.FileError
import Retrace.Text.Quoted
import Retrace.Trace.Basic

/-!
# Reports

A failure is reported by its cause and by what was being done, outermost first. The texts of
malformed JSON and settings are left to the outer layer.
-/

namespace Retrace

/-- Why a program did not give an output. -/
inductive ToolError where
  | spawn (program : String) (error : FileError)
  /-- The program ended with a code, or by a signal. -/
  | failed (program : String) (code : Option Int) (stderr : String)
deriving DecidableEq, Repr

namespace ToolError

def status : Option Int → String
  | some code => "code " ++ String.ofList (Decimal.ofInt code)
  | none => "a signal"

def message : ToolError → String
  | .spawn program error => "failed to spawn " ++ Text.Quoted.quote program ++ ": " ++ error.message
  | .failed program code stderr =>
    Text.Quoted.quote program ++ " exited with " ++ status code ++ ": " ++ stderr

end ToolError

inductive Cause where
  | trace (e : TraceError)
  | input (e : InputError)
  | tool (e : ToolError)
  | file (e : FileError)
  | malformedJson
  | malformedSettings
  | other (text : String)
deriving DecidableEq, Repr

/-- The texts of a cause, those of its own cause after it. A parser's text is not known here. -/
def Cause.texts : Cause → List (Option String)
  | .trace e => [some e.message]
  | .input e => [some e.message]
  | .tool (.spawn program error) => [some (ToolError.spawn program error).message, some error.message]
  | .tool e => [some e.message]
  | .file e => [some e.message]
  | .malformedJson => [none]
  | .malformedSettings => [none]
  | .other text => [some text]

/-- A failure and what was being done. -/
structure Report where
  context : List String
  cause : Cause
deriving DecidableEq, Repr

namespace Report

def of (cause : Cause) : Report := ⟨[], cause⟩

def within (r : Report) (what : String) : Report := { r with context := what :: r.context }

def texts (r : Report) : List (Option String) := r.context.map some ++ r.cause.texts

def hint? (r : Report) : Option String :=
  match r.cause with
  | .tool (.spawn ..) =>
    some ("point --archetype-bin and --octez-client (or `archetype_bin` and `octez_client_bin` " ++
      "in ~/.arldb/config.toml) at installed binaries")
  | .tool (.failed ..) => some "the tool output above says what went wrong"
  | .trace .empty | .trace .missingSection =>
    some "octez-client printed no trace, check that it runs in mockup mode"
  | .trace (.unknownLocation ..) | .trace (.stackMismatch ..) =>
    some "the debug information does not match the run, try again with --no-cache"
  | _ => none

end Report
end Retrace
