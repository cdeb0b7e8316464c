/-!
# Balanced Michelson texts

A Michelson value is printed over one line or several. Its lines belong together until braces and
parentheses are balanced; those inside string literals do not count.
-/

namespace Retrace.Michelson

/-- Where a scanner stands with respect to string literals. -/
inductive Literal where
  | outside
  | inside
  /-- Right after a backslash inside a literal. -/
  | escaped
deriving DecidableEq, Repr

def Literal.next : Literal → Char → Literal
  | .outside, c => if c = '"' then .inside else .outside
  | .inside, c => if c = '"' then .outside else if c = '\\' then .escaped else .inside
  | .escaped, _ => .inside

/-- Delimiters open at some point of a text, less those closed. -/
structure Balance where
  literal : Literal
  braces : Int
  parens : Int
deriving DecidableEq, Repr

namespace Balance

def start : Balance := ⟨.outside, 0, 0⟩

/-- What a character outside literals adds to the open braces. -/
def braceStep (c : Char) : Int := if c = '\x7b' then 1 else if c = '\x7d' then -1 else 0

def parenStep (c : Char) : Int := if c = '(' then 1 else if c = ')' then -1 else 0

def next (b : Balance) (c : Char) : Balance :=
  match b.literal with
  | .outside => ⟨b.literal.next c, b.braces + braceStep c, b.parens + parenStep c⟩
  | _ => { b with literal := b.literal.next c }

def scan (b : Balance) (cs : List Char) : Balance := cs.foldl next b

theorem scan_append (b : Balance) (xs ys : List Char) : b.scan (xs ++ ys) = (b.scan xs).scan ys := by
  simp [scan, List.foldl_append]

end Balance

/-- Whether a text has as many opening as closing braces and parentheses, and no open literal. -/
def isBalanced (cs : List Char) : Bool := decide (Balance.start.scan cs = Balance.start)

end Retrace.Michelson
