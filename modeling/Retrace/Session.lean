import Retrace.Artifact
import Retrace.Constant
import Retrace.Environment
import Retrace.Text.Blank

/-!
# Debug sessions

A session walks over the steps of an execution, forwards and backwards, and stops on breakpoints.
Each move tells what happened by events. The cursor is the index of the current step, and -1 before
the first one.
-/

namespace Retrace

inductive Event where
  /-- Stopped before the first step. -/
  | entry
  | step
  | breakpoint
  | exception (value : String)
  | output (text : String)
  | finished
deriving DecidableEq, Repr

/-- A requested breakpoint. It is verified if some step ends on its line. -/
structure Breakpoint where
  id : Nat
  line : UInt32
  verified : Bool
deriving DecidableEq, Repr

/-- Where a session stands in the source. -/
structure Frame where
  name : String
  file : Option String
  line : UInt32
  column : UInt32
deriving DecidableEq, Repr

inductive Scope where
  | storage
  | inputs
  | locals
  | constants
deriving DecidableEq, Repr

namespace Scope

def all : List Scope := [.storage, .inputs, .locals, .constants]

def name : Scope → String
  | .storage => "Storage"
  | .inputs => "Inputs"
  | .locals => "Locals"
  | .constants => "Constants"

/-- The scope of a name, in letters of either case. -/
def ofName? (name : String) : Option Scope :=
  all.find? fun s => Scalar.sameIgnoringCase s.name.toList name.toList

end Scope

structure Session where
  execution : Execution
  gas : GasMap
  /-- The index of the current step, -1 before the first one. -/
  cursor : Int
  contract : String
  storageNames : List String
  inputNames : List String
  constants : List Binding
  showGas : Bool
  breakpoints : List Breakpoint
  stopLines : List UInt32
  nextId : Nat

namespace Session

def make (artifact : Artifact) (entrypoint : String) (env : Environment) (constants : List Constant) :
    Session where
  execution := artifact.execution
  gas := artifact.gas
  cursor := -1
  contract := artifact.document.name
  storageNames := artifact.document.storageNames
  inputNames := artifact.document.inputNames entrypoint
  constants := env.constants.map (fun (name, value) => ⟨name, value⟩) ++
    constants.map fun c => ⟨c.name, c.value⟩
  showGas := false
  breakpoints := []
  stopLines := []
  nextId := 1

/-! ## Where it stands -/

/-- The index of the last step, -1 if there is none. -/
def last (s : Session) : Int := s.execution.length - 1

def current? (s : Session) : Option Step :=
  match s.cursor with
  | .ofNat n => s.execution.steps[n]?
  | .negSucc _ => none

def atEnd (s : Session) : Bool := s.execution.length == 0 || s.cursor == s.last

/-- Whether the current step ends on a line of a verified breakpoint. -/
def onBreakpoint (s : Session) : Bool :=
  match s.current?.bind Step.line? with
  | some line => s.stopLines.contains line
  | none => false

/-- The gas per line, while a run is going on. -/
def decorations? (s : Session) : Option GasMap := if s.showGas then some s.gas else none

/-! ## Moves -/

/-- One step further, not past the beginning or the last step. -/
def advance (s : Session) (reverse : Bool) : Session :=
  { s with cursor := if reverse then max (s.cursor - 1) (-1) else min (s.cursor + 1) s.last }

def finish (s : Session) : Session × List Event :=
  ({ s with showGas := false },
    match s.execution.fail with
    | some value => [.exception value, .finished]
    | none => [.finished])

/-- The steps up to the end that a run goes to. -/
def ahead (s : Session) (reverse : Bool) : Nat :=
  if reverse then (s.cursor + 1).natAbs else (s.last - s.cursor).toNat

theorem ahead_advance {s : Session} {reverse : Bool} (hend : ¬ (!reverse && (s.advance reverse).atEnd) = true)
    (hstill : ¬ (reverse && (s.advance reverse).cursor == s.cursor) = true) :
    (s.advance reverse).ahead reverse < s.ahead reverse := by
  cases reverse with
  | true =>
    have hmoved : max (s.cursor - 1) (-1) ≠ s.cursor := by simpa [advance] using hstill
    simp only [ahead, advance, if_true]
    omega
  | false =>
    have hlen : s.execution.length ≠ 0 ∧ min (s.cursor + 1) s.last ≠ s.last := by
      simpa [atEnd, advance, last] using hend
    simp only [ahead, advance, last, Bool.false_eq_true, if_false] at hlen ⊢
    omega

/-- Runs to a breakpoint or an end of the run. -/
def continue_ (s : Session) (reverse : Bool) : Session × List Event :=
  if !reverse && (s.advance reverse).atEnd then (s.advance reverse).finish
  else if reverse && (s.advance reverse).cursor == s.cursor then (s.advance reverse, [.entry])
  else if (s.advance reverse).onBreakpoint then (s.advance reverse, [.breakpoint])
  else (s.advance reverse).continue_ reverse
termination_by s.ahead reverse
decreasing_by exact ahead_advance ‹_› ‹_›

def step (s : Session) (reverse : Bool) : Session × List Event :=
  let s := s.advance reverse
  if s.atEnd then s.finish else (s, [.step])

def start (s : Session) (stopOnEntry : Bool) : Session × List Event :=
  let s := { s with cursor := -1, showGas := true }
  if stopOnEntry then (s, [.entry]) else s.continue_ false

/-! ## Breakpoints -/

/-- Breakpoints with consecutive numbers. -/
def numbered (reachable : List UInt32) (id : Nat) : List UInt32 → List Breakpoint
  | [] => []
  | line :: lines => ⟨id, line, reachable.contains line⟩ :: numbered reachable (id + 1) lines

def setBreakpoints (s : Session) (lines : List UInt32) : Session :=
  let breakpoints := numbered (s.execution.steps.filterMap Step.line?) s.nextId lines
  { s with
    breakpoints
    stopLines := (breakpoints.filter (·.verified)).map (·.line)
    nextId := s.nextId + lines.length }

/-- Replaces the execution by that of a new run, keeping the breakpoints. -/
def reload (s : Session) (artifact : Artifact) : Session :=
  let s := { s with execution := artifact.execution, gas := artifact.gas, cursor := -1 }
  s.setBreakpoints (s.breakpoints.map (·.line))

/-! ## Views -/

def bindings (s : Session) : List Binding :=
  match s.current? with
  | some step => step.stack
  | none => []

def inScope (s : Session) : Scope → List Binding
  | .storage => s.bindings.filter fun b => s.storageNames.contains b.name
  | .inputs => s.bindings.filter fun b => s.inputNames.contains b.name
  | .locals =>
    s.bindings.filter fun b => !s.storageNames.contains b.name && !s.inputNames.contains b.name
  | .constants => s.constants

def evaluate? (s : Session) (name : String) : Option String :=
  s.current?.bind (·.valueOf? (Text.trimString name))

/-- The declaration entered last and the range seen last. -/
def frame? (s : Session) : Option Frame :=
  match s.cursor with
  | .negSucc _ => none
  | .ofNat n =>
    if n < s.execution.length then
      let visited := (s.execution.steps.take (n + 1)).reverse
      let name := (visited.findSome? Step.entered?).getD s.contract
      some <|
        match visited.findSome? (·.range) with
        | some range => ⟨name, some range.file, range.start.line, range.start.column⟩
        | none => ⟨name, none, 0, 0⟩
    else none

end Session

def Binding.describe (b : Binding) : String := b.name ++ " = " ++ b.value

end Retrace
