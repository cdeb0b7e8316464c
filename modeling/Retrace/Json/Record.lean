import Retrace.Json.Reader

/-!
# Records in JSON

A record is an object with one member per field, in any order, or an array of its fields in their
order. Members of other names are skipped; a field given twice is an error. Fields at the end of an
array may be missing, and whether a missing field is an error is for the field to say.
-/

namespace Retrace.Json

/-- The values of a field among members. -/
def valuesOf (name : String) (ms : List (String × Json)) : List Json :=
  (ms.filter (·.1 = name)).map Prod.snd

/-- The value of a field that is given at most once. -/
def memberOnce? (ms : List (String × Json)) (name : String) : Option (Option Json) :=
  match valuesOf name ms with
  | [] => some none
  | [x] => some (some x)
  | _ => none

/-- The elements of an array as the fields of a record. -/
def spread : List String → List Json → Option (List (Option Json))
  | [], [] => some []
  | [], _ :: _ => none
  | _ :: names, [] => (spread names []).map (none :: ·)
  | _ :: names, x :: xs => (spread names xs).map (some x :: ·)

/-- The fields of a record, in the order of their names. -/
def fields? (names : List String) : Json → Option (List (Option Json))
  | .obj ms => names.mapM (memberOnce? ms)
  | .arr xs => spread names xs
  | _ => none

/-! ## Values of fields -/

def string? : Json → Option String
  | .str s => some s
  | _ => none

/-- A natural of at most `bits` bits. -/
def word? (bits : Nat) : Json → Option Nat
  | .int (.ofNat n) => if n < Nat.pow 2 bits then some n else none
  | _ => none

def number? : Json → Option Float
  | .int n => some (floatOfInt n)
  | .float x => some x
  | _ => none

def list? {α : Type} (read : Json → Option α) : Json → Option (List α)
  | .arr xs => xs.mapM read
  | _ => none

/-- A field that may be missing or null. -/
def optional? {α : Type} (read : Json → Option α) : Option Json → Option (Option α)
  | none | some .null => some none
  | some x => (read x).map some

/-- A field that has a value of its own when it is missing. -/
def default? {α : Type} (read : Json → Option α) (default : α) : Option Json → Option α
  | none => some default
  | some x => read x

def required? {α : Type} (read : Json → Option α) : Option Json → Option α
  | none => none
  | some x => read x

/-- The member of an optional field, left out if there is no value. -/
def member? {α : Type} (name : String) (write : α → Json) : Option α → List (String × Json)
  | none => []
  | some x => [(name, write x)]

/-- The member of a list, left out if it is empty. -/
def memberList {α : Type} (name : String) (write : α → Json) : List α → List (String × Json)
  | [] => []
  | x :: xs => [(name, .arr ((x :: xs).map write))]

end Retrace.Json
