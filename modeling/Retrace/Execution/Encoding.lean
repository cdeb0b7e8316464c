import Retrace.Execution.Gas
import Retrace.Micheline.Encoding
import Retrace.Json.Writer

/-! # Traces and executions in JSON -/

namespace Retrace

open Json

namespace TraceItem

def ofJson? (j : Json) : Option TraceItem :=
  match j.fields? ["location", "gas", "stack"] with
  | some [location, gas, stack] => do
    let location ← required? (word? 64) location
    let gas ← required? number? gas
    let stack ← required? (list? string?) stack
    some ⟨location, gas, stack⟩
  | _ => none

def toJson (i : TraceItem) : Json :=
  .obj [("location", .int i.location), ("gas", .float i.gas), ("stack", .arr (i.stack.map .str))]

end TraceItem

namespace Trace

def ofJson? (j : Json) : Option Trace :=
  match j.fields? ["fail", "items"] with
  | some [fail, items] => do
    let fail ← optional? string? fail
    let items ← required? (list? TraceItem.ofJson?) items
    some ⟨fail, items⟩
  | _ => none

def toJson (t : Trace) : Json :=
  .obj (member? "fail" .str t.fail ++ [("items", .arr (t.items.map TraceItem.toJson))])

end Trace

namespace Binding

def ofJson? (j : Json) : Option Binding :=
  match j.fields? ["name", "value"] with
  | some [name, value] => do
    let name ← required? string? name
    let value ← required? string? value
    some ⟨name, value⟩
  | _ => none

def toJson (b : Binding) : Json := .obj [("name", .str b.name), ("value", .str b.value)]

end Binding

namespace Step

def ofJson? (j : Json) : Option Step :=
  match j.fields? ["stack", "gas", "range", "decl_bound"] with
  | some [stack, gas, range, boundary] => do
    let stack ← required? (list? Binding.ofJson?) stack
    let gas ← required? number? gas
    let range ← optional? SourceRange.ofJson? range
    let boundary ← optional? Boundary.ofJson? boundary
    some ⟨stack, gas, range, boundary⟩
  | _ => none

def toJson (s : Step) : Json :=
  .obj ([("stack", .arr (s.stack.map Binding.toJson)), ("gas", .float s.gas)] ++
    member? "range" SourceRange.toJson s.range ++ member? "decl_bound" Boundary.toJson s.boundary)

end Step

namespace Execution

def ofJson? (j : Json) : Option Execution :=
  match j.fields? ["fail", "steps"] with
  | some [fail, steps] => do
    let fail ← optional? string? fail
    let steps ← required? (list? Step.ofJson?) steps
    some ⟨fail, steps⟩
  | _ => none

def toJson (e : Execution) : Json :=
  .obj (member? "fail" .str e.fail ++ [("steps", .arr (e.steps.map Step.toJson))])

end Execution

namespace GasMap

def visitJson (v : Visit) : Json := .obj [("gas", .float v.gas), ("totalgas", .float v.total)]

/-- An object with the lines as keys. -/
def toJson (map : GasMap) : Json :=
  .obj (map.map fun (line, visits) =>
    (String.ofList (Decimal.digits line.toNat), .arr (visits.map visitJson)))

end GasMap
end Retrace
