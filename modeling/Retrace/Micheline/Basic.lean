/-!
# Compiled contracts

A contract is a Micheline tree. The compiler annotates some of its instructions with the names of
the stack slots, the source range they come from and the declaration they enter or leave.
-/

namespace Retrace

structure Position where
  line : UInt32
  column : UInt32
  /-- Characters from the start of the file. -/
  offset : UInt32
deriving DecidableEq, Repr

structure SourceRange where
  file : String
  start : Position
  stop : Position
deriving DecidableEq, Repr

/-- The two ends of a declaration. -/
inductive Side where
  | enter
  | leave
deriving DecidableEq, Repr

/-- Where a run enters or leaves a declaration. -/
structure Boundary where
  kind : String
  name : String
  side : Side
deriving DecidableEq, Repr

/-- What the compiler tells about an instruction. -/
structure DebugInfo where
  /-- Source names of the stack slots, top of the stack first. -/
  names : List String
  range : Option SourceRange
  boundary : Option Boundary
deriving DecidableEq, Repr

/-- A node of a compiled contract. -/
inductive Micheline where
  | seq (items : List Micheline)
  | prim (name : String) (args : List Micheline) (annots : List String) (debug : Option DebugInfo)
  | int (digits : String)
  | bytes (digits : String)
  | string (text : String)

namespace Micheline

instance : Inhabited Micheline := ⟨.seq []⟩

/-- The items of a sequence or the arguments of a primitive. -/
def children : Micheline → List Micheline
  | .seq items => items
  | .prim _ args _ _ => args
  | .int _ | .bytes _ | .string _ => []

def debugInfo? : Micheline → Option DebugInfo
  | .prim _ _ _ debug => debug
  | _ => none

def label : Micheline → String
  | .seq _ => "\x7b ... \x7d"
  | .prim name _ _ _ => name
  | .int digits => digits
  | .bytes digits => digits
  | .string text => text

/-! ## Size -/

mutual
def size : Micheline → Nat
  | .seq items => sizeAll items + 1
  | .prim _ args _ _ => sizeAll args + 1
  | .int _ | .bytes _ | .string _ => 1

def sizeAll : List Micheline → Nat
  | [] => 0
  | x :: xs => x.size + sizeAll xs
end

theorem size_eq (node : Micheline) : node.size = sizeAll node.children + 1 := by
  cases node <;> simp [size, children, sizeAll]

theorem sizeAll_append (xs ys : List Micheline) : sizeAll (xs ++ ys) = sizeAll xs + sizeAll ys := by
  induction xs with
  | nil => simp [sizeAll]
  | cons x xs ih => simp [sizeAll, ih, Nat.add_assoc]

theorem sizeAll_reverse (xs : List Micheline) : sizeAll xs.reverse = sizeAll xs := by
  induction xs with
  | nil => rfl
  | cons x xs ih => simp [sizeAll, sizeAll_append, ih, Nat.add_comm]

end Micheline
end Retrace
