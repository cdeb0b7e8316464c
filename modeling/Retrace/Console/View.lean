import Retrace.Console.Instruction
import Retrace.Decimal.Layout
import Retrace.Micheline.Encoding
import Retrace.Receipt
import Retrace.Report

/-!
# What commands show

Traces, steps, gas, receipts and sessions as lines of text.
-/

namespace Retrace.Console

open Retrace.Decimal

def padRight (width : Nat) (text : String) : String :=
  text ++ String.ofList (List.replicate (width - text.length) ' ')

def number (n : Nat) : String := String.ofList (digits n)

namespace View

def failure (fail : Option String) : List String :=
  match fail with
  | some value => ["failed with " ++ value]
  | none => []

/-! ## Traces -/

def item (index : Nat) (i : TraceItem) : List String :=
  ["#" ++ number index ++ " location " ++ number i.location ++ " gas " ++ showPlain i.gas,
    "    [" ++ String.intercalate " | " i.stack ++ "]"]

def trace (t : Trace) : List String :=
  (t.items.zipIdx.flatMap fun (i, index) => item index i) ++ failure t.fail

/-! ## Steps -/

def position (s : Step) : String :=
  match s.range, s.boundary with
  | some r, _ =>
    let point (p : Position) := number p.line.toNat ++ ":" ++ number p.column.toNat
    point r.start ++ "-" ++ point r.stop
  | none, some b => b.kind ++ " " ++ b.name ++ " " ++ b.side.toName
  | none, none => ""

/-- The gas of a step, in gas units. -/
def gasOf (s : Step) : String := showPlain (s.gas / Execution.gasScale)

def step (index : Nat) (s : Step) : String :=
  "[" ++ number index ++ "] " ++ padRight 16 (position s) ++ " gas " ++ padRight 8 (gasOf s) ++ " " ++
    String.intercalate ", " (s.stack.map Binding.describe)

def execution (e : Execution) : List String :=
  (e.steps.zipIdx.map fun (s, index) => step index s) ++ failure e.fail

/-! ## Gas -/

def visit (v : Visit) : String := showPlain v.gas ++ " (total " ++ showPlain v.total ++ ")"

def gas (map : GasMap) : List String :=
  map.map fun (line, visits) =>
    "line " ++ number line.toNat ++ ": " ++ String.intercalate ", " (visits.map visit)

/-! ## Receipts -/

def receipt (r : Receipt) : String :=
  "#" ++ number r.nonce.toNat ++ " " ++ r.source ++ ": " ++ r.describe

/-! ## Failures -/

/-- A text of a report. A parser's text is not known. -/
def reportText (text : Option String) : String := text.getD "malformed text"

def causes : List (Option String) → List String
  | [] => []
  | texts => ["", "Caused by:"] ++ texts.map fun t => "- " ++ reportText t

def report (r : Report) : List String :=
  let hint := match r.hint? with
    | some hint => ["", "hint: " ++ hint]
    | none => []
  match r.texts with
  | [] => hint
  | text :: texts => reportText text :: causes texts ++ hint

/-! ## Sessions -/

/-- The line of a source that a frame is on, counted from one. -/
def sourceLine (source : List String) (line : UInt32) : List String :=
  match line.toNat with
  | 0 => []
  | n + 1 =>
    match source[n]? with
    | some text => ["  " ++ String.ofList (Text.trimEnd text.toList)]
    | none => []

def frame (source : List String) (s : Session) : List String :=
  match s.frame? with
  | none => ["not started"]
  | some f =>
    let gas := match s.current? with
      | some step => gasOf step
      | none => "0"
    (f.name ++ " " ++ number f.line.toNat ++ ":" ++ number f.column.toNat ++ " (step " ++
      number (s.cursor + 1).toNat ++ "/" ++ number s.execution.length ++ ", gas " ++ gas ++ ")") ::
      sourceLine source f.line

def scope (s : Session) (scope : Scope) : List String :=
  scope.name :: (s.inScope scope).map fun b => "  " ++ b.describe

def breakpoint (b : Breakpoint) : String :=
  "breakpoint " ++ number b.id ++ " at line " ++ number b.line.toNat ++
    if b.verified then "" else " is never reached"

/-- What happened, by a session that stands where it happened. -/
def event (source : List String) (s : Session) : Event → List String
  | .entry => ["stopped at entry"]
  | .step => frame source s
  | .breakpoint => "breakpoint" :: frame source s
  | .exception value => ["failed with " ++ value]
  | .output text => [text]
  | .finished => ["end of run"]

def events (source : List String) (s : Session) (es : List Event) : List String :=
  es.flatMap (event source s)

/-- Follows an instruction that needs no new run: what it shows, the session and the events. -/
def apply (source : List String) (s : Session) : Instruction → List String × Session × List Event
  | .next => ([], s.step false)
  | .previous => ([], s.step true)
  | .continue_ => ([], s.continue_ false)
  | .reverseContinue => ([], s.continue_ true)
  | .break_ lines =>
    let s := s.setBreakpoints lines
    (s.breakpoints.map breakpoint, s, [])
  | .inspect (some sc) => (scope s sc, s, [])
  | .inspect none => (Scope.all.flatMap (scope s), s, [])
  | .evaluate name =>
    match s.evaluate? name with
    | some value => ([name ++ " = " ++ value], s, [])
    | none => ([name ++ " is not bound here"], s, [])
  | .frame => (frame source s, s, [])
  | .step =>
    match s.current? with
    | some st => ([step s.cursor.toNat st], s, [])
    | none => (["not started"], s, [])
  | .gas =>
    match s.decorations? with
    | some map => (gas map, s, [])
    | none => (["no gas information once the run is over"], s, [])
  | .help => ([Instruction.helpText], s, [])
  | .restart | .quit => ([], s, [])

end View
end Retrace.Console
