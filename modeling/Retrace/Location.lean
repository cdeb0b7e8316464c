import Retrace.Micheline.Basic

/-!
# Locations of a contract

The interpreter names a node by its place in the pre-order listing of the contract: a node comes
before its children, and children are listed from left to right. `locations` walks the tree with a
stack of nodes still to visit; `preorder` is the listing by recursion.
-/

namespace Retrace.Micheline

/-! ## The walk -/

/-- The nodes listed so far, and the stack of those still to visit, its top last. -/
structure Walk where
  listed : Array Micheline
  pending : Array Micheline

namespace Walk

def start (root : Micheline) : Walk := ⟨#[], #[root]⟩

/-- One round: the node on top of the stack is listed, and its children are pushed from the last
to the first. There is no round when the stack is empty. -/
def next? (w : Walk) : Option Walk :=
  w.pending.back?.map fun node => ⟨w.listed.push node, w.pending.pop ++ node.children.reverse⟩

/-- The nodes on the stack and all below them, counted. -/
def left (w : Walk) : Nat := sizeAll w.pending.toList

theorem left_next {w w' : Walk} (h : w.next? = some w') : w.left = w'.left + 1 := by
  obtain ⟨node, hnode, rfl⟩ := Option.map_eq_some_iff.mp h
  obtain ⟨rest, hrest⟩ := Array.back?_eq_some_iff.mp hnode
  simp [left, hrest, sizeAll_append, sizeAll_reverse, sizeAll, size_eq node]
  omega

def run (w : Walk) : Array Micheline :=
  match _h : w.next? with
  | none => w.listed
  | some w' => w'.run
termination_by w.left
decreasing_by rw [left_next _h]; omega

end Walk

/-- The nodes of a contract in the order of their locations. -/
def locations (root : Micheline) : List Micheline := (Walk.start root).run.toList

/-! ## Annotated nodes -/

/-- The locations of the annotated nodes, counted from `start`. -/
def annotatedFrom (start : Nat) : List Micheline → List Nat
  | [] => []
  | node :: nodes =>
    if node.debugInfo?.isSome then start :: annotatedFrom (start + 1) nodes
    else annotatedFrom (start + 1) nodes

def annotatedLocations (root : Micheline) : List Nat := annotatedFrom 0 root.locations

/-! ## The listing by recursion -/

mutual
/-- A node, then the listings of its children. -/
def preorder : Micheline → List Micheline
  | .seq items => .seq items :: preorderAll items
  | .prim name args annots debug => .prim name args annots debug :: preorderAll args
  | .int digits => [.int digits]
  | .bytes digits => [.bytes digits]
  | .string text => [.string text]

def preorderAll : List Micheline → List Micheline
  | [] => []
  | x :: xs => preorder x ++ preorderAll xs
end

end Retrace.Micheline
