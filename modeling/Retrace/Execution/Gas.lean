import Retrace.Execution.Basic

/-!
# Gas per source line

Each step with a source range is a visit of the line the range ends on.
-/

namespace Retrace

/-- The gas of one visit of a line, and of the run up to it, in gas units. -/
structure Visit where
  gas : Float
  total : Float

/-- The visits of each line, lines in increasing order and visits in the order of the run. -/
abbrev GasMap := List (UInt32 × List Visit)

namespace GasMap

def add (line : UInt32) (visit : Visit) : GasMap → GasMap
  | [] => [(line, [visit])]
  | (l, visits) :: rest =>
    if line < l then (line, [visit]) :: (l, visits) :: rest
    else if line = l then (l, visits ++ [visit]) :: rest
    else (l, visits) :: add line visit rest

/-- Adds the visits of steps. `total` is the gas of the ranged steps before them. -/
def addSteps (map : GasMap) (total : Float) : List Step → GasMap
  | [] => map
  | step :: steps =>
    match step.range with
    | none => addSteps map total steps
    | some range =>
      let total := total + step.gas
      addSteps (add range.stop.line ⟨step.gas / Execution.gasScale, total / Execution.gasScale⟩ map)
        total steps

end GasMap

def Execution.gasMap (e : Execution) : GasMap := GasMap.addSteps [] 0 e.steps

end Retrace
