/-! # Pairs -/

namespace Retrace.Michelson

/-- Folds values from the right into nested pairs. No value at all is `Unit`. -/
def pair : List String → String
  | [] => "Unit"
  | [v] => v
  | v :: vs => "(Pair " ++ v ++ " " ++ pair vs ++ ")"

end Retrace.Michelson
