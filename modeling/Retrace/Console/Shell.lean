import Retrace.Console.Command
import Retrace.Dialogue
import Retrace.FileTree
import Retrace.Pipeline

/-!
# Where commands run

A shell has files, programs, a clock and three streams. A job is a computation on a shell that may
fail; what it wrote before stays written.
-/

namespace Retrace.Console

structure Shell where
  files : FileTree
  directory : Place
  /-- The path of the user's own directory. -/
  home : String
  /-- The programs that are found by name. -/
  programs : String → Option (List String → ToolOutput)
  scriptPath : String
  /-- Why no script can be written, if none can. -/
  scriptFault? : Option Cause := none
  /-- Seconds since 1970. -/
  now : Nat
  /-- The lines of the input still to be read. -/
  input : List String
  output : String
  /-- Questions and messages. -/
  messages : String

structure CacheFolder where
  place : Place
  /-- The longest name in it, in bytes. -/
  room : Nat

/-- A computation on a shell that may fail. -/
abbrev Job (α : Type) := ExceptT Report (StateM Shell) α

namespace Shell

/-- Whether a text can be handed to a program. -/
def isClean (text : String) : Bool := !text.toList.contains '\x00'

/-- Runs a program. One that is named by a path is looked for among the files, which cannot be run.
No more can the folders that stand for themselves and for the one above. -/
def run (s : Shell) (call : ToolCall) : Except FileError ToolOutput :=
  if !(call.program :: call.args).all isClean then .error .zeroInCommand
  else if call.program.toList.contains '/' then
    match s.files.resolve s.directory call.program with
    | .error e => .error e
    | .ok place => .error (if (s.files.entry? place).isSome then .notPermitted else .notFound)
  else if call.program = "." ∨ call.program = ".." then .error .notPermitted
  else if maxName < call.program.utf8ByteSize then .error .nameTooLong
  else
    match s.programs call.program with
    | some answer => .ok (answer call.args)
    | none => .error .notFound

/-- The part of a shell that a pipeline works on. -/
def world (s : Shell) (cache : Option CacheFolder) : World where
  files := s.files.read s.directory
  tools := s.run
  scriptPath := s.scriptPath
  scriptFault? := s.scriptFault?
  now := s.now
  cache := (cache.map fun c => s.files.directory c.place c.room).getD (Directory.empty 0)
  calls := []
  scripts := []

end Shell

namespace Job

def print (text : String) : Job Unit := modify fun s => { s with output := s.output ++ text }

def printLines (lines : List String) : Job Unit := print (String.join (lines.map (· ++ "\n")))

def warn (text : String) : Job Unit := modify fun s => { s with messages := s.messages ++ text }

/-- Ends with an error of a file, telling what was being done. -/
def orFile {α : Type} (what : String) : Except FileError α → Job α
  | .ok x => pure x
  | .error e => throw ((Report.of (.file e)).within what)

def orInput {α : Type} : Except InputError α → Job α
  | .ok x => pure x
  | .error e => throw (Report.of (.input e))

def readFile (path : String) : Job String := do
  let s ← get
  orFile ("failed to read " ++ path) (s.files.read s.directory path)

def writeFile (path text : String) : Job Unit := do
  let s ← get
  let files ← orFile ("failed to write " ++ path) (s.files.write s.directory path text)
  set { s with files }

/-- Runs a pipeline with a cache in a folder. -/
def act {α : Type} (cache : Option CacheFolder) (action : Action α) : Job α := do
  let s ← get
  let (r, w) := action.run (s.world cache)
  match cache with
  | some folder => set { s with files := s.files.setDirectory folder.place w.cache }
  | none => pure ()
  MonadExcept.ofExcept r

def transcript (log : List Exchange) : String :=
  String.join (log.map fun
    | .asked question => question ++ ": "
    | .refused e => e.message ++ "\n")

def dialogue : Job Dialogue := do pure ⟨(← get).input, []⟩

/-- Shows a dialogue and drops the lines that it took. -/
def conclude (d : Dialogue) : Job Unit :=
  modify fun s => { s with input := d.answers, messages := s.messages ++ transcript d.log }

end Job
end Retrace.Console
