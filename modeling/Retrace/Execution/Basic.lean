import Retrace.Location
import Retrace.Trace.Basic

/-!
# Source-level executions

A traced run is rebuilt as a list of source-level steps. The gas of instructions without annotation
is charged to the next annotated one; items without gas are passed over.
-/

namespace Retrace

/-- A named stack slot. -/
structure Binding where
  name : String
  value : String
deriving DecidableEq, Repr

structure Step where
  /-- The named stack, top first. -/
  stack : List Binding
  /-- Gas charged since the step before, in milligas. -/
  gas : Float
  range : Option SourceRange
  boundary : Option Boundary

namespace Step

/-- The value of the first slot of a name. -/
def valueOf? (s : Step) (name : String) : Option String :=
  (s.stack.find? (·.name = name)).map (·.value)

def entered? (s : Step) : Option String :=
  match s.boundary with
  | some ⟨_, name, .enter⟩ => some name
  | _ => none

/-- The line that the step's range ends on. -/
def line? (s : Step) : Option UInt32 := s.range.map (·.stop.line)

end Step

/-- The source-level steps of a run, and the value it failed with. -/
structure Execution where
  fail : Option String
  steps : List Step

namespace Execution

instance : Inhabited Execution := ⟨⟨none, []⟩⟩

def length (e : Execution) : Nat := e.steps.length

/-- The gas of all steps, in milligas, added from the left. -/
def totalGas (e : Execution) : Float := e.steps.foldl (fun total s => total + s.gas) (-0.0)

/-- Steps carry milligas, items gas units. -/
def gasScale : Float := 1000

/-- Names the values of a stack. -/
def bind (location : Nat) (info : DebugInfo) (values : List String) :
    Except TraceError (List Binding) :=
  if info.names.length = values.length then
    .ok (List.zipWith Binding.mk info.names values)
  else .error (.stackMismatch location info.names values)

/-- The steps of an annotated instruction. One with a range and a boundary makes two steps, the
second one without gas. -/
def stepsOf (info : DebugInfo) (stack : List Binding) (gas : Float) : List Step :=
  match info.range, info.boundary with
  | some range, some boundary => [⟨stack, gas, some range, none⟩, ⟨stack, 0, none, some boundary⟩]
  | range, boundary => [⟨stack, gas, range, boundary⟩]

/-- The steps of the remaining items, with the gas not charged yet. -/
def stepsFrom (nodes : List Micheline) (gas : Float) : List TraceItem → Except TraceError (List Step)
  | [] => .ok []
  | item :: items =>
    if item.gas == 0 then stepsFrom nodes gas items
    else
      let gas := gas + item.gas * gasScale
      match nodes[item.location]? with
      | none => .error (.unknownLocation item.location nodes.length)
      | some node =>
        match node.debugInfo? with
        | none => stepsFrom nodes gas items
        | some info =>
          match bind item.location info item.stack with
          | .error e => .error e
          | .ok stack => (stepsFrom nodes 0 items).map (stepsOf info stack gas ++ ·)

def rebuild (contract : Micheline) (trace : Trace) : Except TraceError Execution :=
  (stepsFrom contract.locations 0 trace.items).map fun steps => ⟨trace.fail, steps⟩

end Execution
end Retrace
