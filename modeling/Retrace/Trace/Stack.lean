import Retrace.Michelson.Balance
import Retrace.Text.Blank
import Retrace.Text.Pieces

/-!
# Stack dumps

A dump shows a stack between square brackets, one value per line, top of the stack first. A value
may spread over several lines, which are joined again as soon as they are balanced.
-/

namespace Retrace.Trace

open Retrace.Text Retrace.Michelson

inductive StackError where
  /-- The dump does not start with a bracket or never closes it. -/
  | notBracketed
  /-- The last value never became balanced. -/
  | unbalanced (rest : String)
deriving DecidableEq, Repr

/-- The text up to the bracket that closes the dump. Brackets inside literals do not count; `depth`
is the number of other brackets open. -/
def upToBracket? : (depth : Nat) → Literal → List Char → Option (List Char)
  | _, _, [] => none
  | depth, .outside, c :: cs =>
    if c = ']' then
      match depth with
      | 0 => some []
      | depth + 1 => (upToBracket? depth .outside cs).map (c :: ·)
    else if c = '[' then (upToBracket? (depth + 1) .outside cs).map (c :: ·)
    else (upToBracket? depth (Literal.outside.next c) cs).map (c :: ·)
  | depth, literal, c :: cs => (upToBracket? depth (literal.next c) cs).map (c :: ·)

/-- The text between the first bracket and the one that closes it. What follows is dropped. -/
def bracketed? : List Char → Option (List Char)
  | '[' :: cs => upToBracket? 0 .outside cs
  | _ => none

/-- The trimmed lines that are not empty. -/
def stackLines (inner : List Char) : List (List Char) :=
  ((pieces ['\n'] inner).map trim).filter (!·.isEmpty)

def gather (soFar line : List Char) : List Char :=
  if soFar.isEmpty then line else soFar ++ ' ' :: line

/-- Groups lines into balanced values. `soFar` holds lines that are not yet a value. -/
def segment (soFar : List Char) : List (List Char) → Except StackError (List String)
  | [] => if soFar.isEmpty then .ok [] else .error (.unbalanced (String.ofList soFar))
  | line :: lines =>
    let text := gather soFar line
    if isBalanced text then (segment [] lines).map (String.ofList text :: ·)
    else segment text lines

/-- Splits a dump into values. A blank dump is an empty stack. -/
def splitStack (dump : List Char) : Except StackError (List String) :=
  let dump := trim dump
  if dump.isEmpty then .ok []
  else
    match bracketed? dump with
    | some inner => segment [] (stackLines inner)
    | none => .error .notBracketed

end Retrace.Trace
