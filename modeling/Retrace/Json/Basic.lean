/-!
# JSON values

A text can hold pieces that are well formed and yet have no value: a number too large for 64 bits,
a text with half of a surrogate pair, an array or object nested too deeply. Such a piece is kept as
`beyond`, so that a reader that skips a field can skip it too, while one that needs it fails.
-/

namespace Retrace

/-- A JSON value. Members of an object stand in the order of the text. -/
inductive Json where
  | null
  | bool (b : Bool)
  /-- A whole number, between `-2 ^ 63` and `2 ^ 64 - 1` when read from a text. -/
  | int (n : Int)
  | float (x : Float)
  | str (s : String)
  | arr (elements : List Json)
  | obj (members : List (String × Json))
  /-- A well-formed piece that has no value. -/
  | beyond

namespace Json

instance : Inhabited Json := ⟨.null⟩

/-! ## Values that can be kept -/

mutual
/-- Whether no piece of the value is beyond. -/
def isWhole : Json → Bool
  | .arr xs => allWhole xs
  | .obj ms => membersWhole ms
  | .beyond => false
  | _ => true

def allWhole : List Json → Bool
  | [] => true
  | x :: xs => x.isWhole && allWhole xs

def membersWhole : List (String × Json) → Bool
  | [] => true
  | (_, x) :: ms => x.isWhole && membersWhole ms
end

/-! ## Nesting -/

mutual
/-- The number of arrays and objects around the deepest piece, itself included. -/
def nesting : Json → Nat
  | .arr xs => nestingAll xs + 1
  | .obj ms => nestingMembers ms + 1
  | _ => 0

def nestingAll : List Json → Nat
  | [] => 0
  | x :: xs => max x.nesting (nestingAll xs)

def nestingMembers : List (String × Json) → Nat
  | [] => 0
  | (_, x) :: ms => max x.nesting (nestingMembers ms)
end

/-- The deepest nesting that a reader keeps. -/
def maxNesting : Nat := 127

/-! ## Free values

A value whose shape is not fixed keeps its members sorted by key, one per key: of several members
with one key the last one counts. -/

def setMember (key : String) (value : Json) : List (String × Json) → List (String × Json)
  | [] => [(key, value)]
  | (k, v) :: ms =>
    if key < k then (key, value) :: (k, v) :: ms
    else if key = k then (key, value) :: ms
    else (k, v) :: setMember key value ms

mutual
def sorted : Json → Json
  | .arr xs => .arr (sortedAll xs)
  | .obj ms => .obj (sortedMembers [] ms)
  | x => x

def sortedAll : List Json → List Json
  | [] => []
  | x :: xs => x.sorted :: sortedAll xs

def sortedMembers (done : List (String × Json)) : List (String × Json) → List (String × Json)
  | [] => done
  | (k, x) :: ms => sortedMembers (setMember k x.sorted done) ms
end

/-- A value to be kept whatever its shape. -/
def free? (j : Json) : Option Json := if j.isWhole then some j.sorted else none

/-! ## Whole numbers as 64-bit numbers -/

/-- The 64-bit number nearest to a whole number of the range of a text. -/
def floatOfInt : Int → Float
  | .ofNat n => (UInt64.ofNat n).toFloat
  | .negSucc n => -(UInt64.ofNat (n + 1)).toFloat

end Json
end Retrace
