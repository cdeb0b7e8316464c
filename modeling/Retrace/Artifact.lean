import Retrace.Document.Basic
import Retrace.Execution.Gas

/-! # Rebuilt runs -/

namespace Retrace

/-- Everything a session needs of a run. -/
structure Artifact where
  document : Document
  /-- What the sandbox printed. -/
  raw : String
  trace : Trace
  execution : Execution
  gas : GasMap

def Artifact.reconstruct (document : Document) (raw : String) : Except TraceError Artifact := do
  let trace ← Trace.ofString raw
  let execution ← Execution.rebuild document.contract trace
  .ok ⟨document, raw, trace, execution, execution.gasMap⟩

end Retrace
