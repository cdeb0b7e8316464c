import Retrace.Artifact
import Retrace.Cache
import Retrace.Call
import Retrace.Constant
import Retrace.Digest
import Retrace.Document.Encoding
import Retrace.Tool

/-!
# From a source file to a rebuilt run

A contract is compiled, or taken from the cache, its constants are put in, the script is run in the
sandbox, and its trace is rebuilt. The first failure ends the pipeline. Files, programs and the clock
are part of a `World`, which also keeps what was done to it.
-/

namespace Retrace

structure World where
  files : String → Except FileError String
  tools : ToolCall → Except FileError ToolOutput
  scriptPath : String
  /-- Why no script can be written, if none can. -/
  scriptFault? : Option Cause := none
  /-- Seconds since 1970. -/
  now : Nat
  cache : Directory
  /-- Programs run so far, latest last. -/
  calls : List ToolCall
  /-- Scripts written so far, latest last. -/
  scripts : List String

/-- A computation that changes a world and may fail. -/
abbrev Action (α : Type) := ExceptT Report (StateM World) α

namespace World

def answer (w : World) (call : ToolCall) (mark : Option String) : Except Report String :=
  match w.tools call with
  | .error e => .error (.of (.tool (.spawn call.program e)))
  | .ok output =>
    match output.check call.program mark with
    | .ok text => .ok text
    | .error e => .error (.of (.tool e))

def sourceText (w : World) (path : String) : Except Report String :=
  match w.files path with
  | .ok text => .ok text
  | .error e => .error ((Report.of (.file e)).within ("failed to read " ++ path))

/-- The path of a new script, or why there is none. -/
def scriptFile (w : World) : Except Report String :=
  match w.scriptFault? with
  | none => .ok w.scriptPath
  | some cause => .error (.of cause)

end World

def Document.ofText (text : String) : Except Report Document :=
  match read? text with
  | some d => .ok d
  | none => .error ((Report.of .malformedJson).within "invalid debug document")

def Artifact.ofRaw (document : Document) (raw : String) : Except Report Artifact :=
  match reconstruct document raw with
  | .ok a => .ok a
  | .error e => .error (.of (.trace e))

structure Compiled where
  document : Document
  michelson : String

namespace Compiled

open Json

def ofJson? (j : Json) : Option Compiled :=
  match j.fields? ["debug", "michelson"] with
  | some [document, michelson] => do
    let document ← required? Document.ofJson? document
    let michelson ← required? string? michelson
    some ⟨document, michelson⟩
  | _ => none

def toJson (c : Compiled) : Json := .obj [("debug", c.document.toJson), ("michelson", .str c.michelson)]

def codec : Codec Compiled := ⟨toJson, ofJson?⟩

end Compiled

structure Request where
  source : String
  call : Call
  /-- If empty, the storage that the compiler generates. -/
  storage : Storage
  env : Environment
  constants : List Constant

/-- The programs and the cache that requests are served with. -/
structure Backend where
  settings : Settings
  cache : Cache Compiled

namespace Backend

/-- Runs a program and takes its text. -/
def exec (call : ToolCall) (mark : Option String) : Action String := do
  modify fun w => { w with calls := w.calls ++ [call] }
  MonadExcept.ofExcept ((← get).answer call mark)

def readSource (source : String) : Action String := do
  MonadExcept.ofExcept ((← get).sourceText source)

/-- Under what a compilation is kept: it depends on the compiler, the caller and the source. -/
def label (b : Backend) (version content : String) : String :=
  Digest.ofString (version ++ "\n" ++ b.settings.caller ++ "\n" ++ content)

def lookUp (b : Backend) (label : String) : Action (Option Compiled) := do
  let w ← get
  let (found, files) := b.cache.load w.now label w.cache
  set { w with cache := files }
  pure found

def saved (b : Backend) (label : String) (c : Compiled) (w : World) : Except Report Directory :=
  match b.cache.save w.now label c w.cache with
  | .ok files => .ok files
  | .error e => .error (.of (.file e))

def keep (b : Backend) (label : String) (c : Compiled) : Action Unit := do
  let files ← MonadExcept.ofExcept (b.saved label c (← get))
  modify fun w => { w with cache := files }

/-- Runs the compiler and keeps what it makes. -/
def remake (b : Backend) (source label : String) : Action Compiled := do
  let text ← exec (b.settings.compileCall source .debugTrace) none
  let document ← MonadExcept.ofExcept (Document.ofText text)
  let michelson ← exec (b.settings.compileCall source .michelson) none
  b.keep label ⟨document, michelson⟩
  pure ⟨document, michelson⟩

/-- Compiles a source file, or takes it from the cache. -/
def compile (b : Backend) (source : String) : Action Compiled := do
  let content ← readSource source
  let version ← exec b.settings.versionCall none
  let label := b.label (Text.trimString version) content
  match ← b.lookUp label with
  | some c => pure c
  | none => b.remake source label

def storageOf (b : Backend) (r : Request) : Action String := do
  if r.storage.elements.isEmpty then
    let text ← exec (b.settings.compileCall r.source .michelsonStorage) none
    pure (Constant.putAll (Text.trimString text) r.constants)
  else pure r.storage.michelson

def writeScript (code : String) : Action String := do
  let path ← MonadExcept.ofExcept (← get).scriptFile
  modify fun w => { w with scripts := w.scripts ++ [code] }
  pure path

/-- Compiles, runs and rebuilds one call. A run that fails in the sandbox is a result. -/
def analyze (b : Backend) (r : Request) : Action Artifact := do
  let compiled ← b.compile r.source
  let code := Constant.putAll compiled.michelson r.constants
  let storage ← b.storageOf r
  let script ← writeScript code
  let run : ScriptRun := ⟨script, storage, r.call.michelson, r.call.entrypoint, r.env⟩
  let raw ← exec (b.settings.runCall run) (some (String.ofList Trace.fatalMark))
  MonadExcept.ofExcept (Artifact.ofRaw compiled.document raw)

end Backend
end Retrace
