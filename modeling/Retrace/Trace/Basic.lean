import Retrace.Trace.Failure
import Retrace.Trace.Header
import Retrace.Trace.Stack

/-!
# Traces of script runs

The sandbox prints one item per interpreter step after the word `trace`. Items that are malformed
are left out; only a text that is blank or has no trace section is an error.
-/

namespace Retrace

open Retrace.Text

structure TraceItem where
  /-- The executed node of the contract. -/
  location : Nat
  /-- Gas consumed, in gas units. -/
  gas : Float
  /-- Stack values, top of the stack first. -/
  stack : List String

structure Trace where
  fail : Option String
  items : List TraceItem

/-- Why a trace cannot be read or does not fit its contract. -/
inductive TraceError where
  | empty
  | missingSection
  | unknownLocation (location size : Nat)
  | stackMismatch (location : Nat) (names values : List String)
deriving DecidableEq, Repr

namespace TraceError

def bracket (texts : List String) : String := "[" ++ String.intercalate ", " texts ++ "]"

def message : TraceError → String
  | .empty => "invalid trace input: empty"
  | .missingSection => "invalid trace input: missing `trace` section"
  | .unknownLocation location size =>
    s!"trace location {location} is out of the structural map (size {size})"
  | .stackMismatch location names values =>
    let n := names.length
    let m := values.length
    s!"stack mismatch at location {location}: {n} name(s) " ++ bracket names ++
      s!" for {m} value(s) " ++ bracket values

end TraceError

namespace Trace

instance : Inhabited Trace := ⟨⟨none, []⟩⟩

def isFailed (t : Trace) : Bool := t.fail.isSome

def maxLocation? (t : Trace) : Option Nat := (t.items.map (·.location)).max?

/-- What stands before every item. -/
def itemMark : List Char := "\n  - ".toList

/-- Reads an item: a header line and a stack dump. -/
def item? (chunk : List Char) : Option TraceItem :=
  let (line, dump) := (cut? ['\n'] chunk).getD (chunk, [])
  match header? line, splitStack dump with
  | some (location, gas), .ok stack => some ⟨location, gas, stack⟩
  | _, _ => none

def itemsOf (section_ : List Char) : List TraceItem :=
  ((pieces itemMark section_).filter (!allBlank ·)).filterMap item?

def parse (raw : List Char) : Except TraceError Trace :=
  if allBlank raw then .error .empty
  else
    let (body, fail) :=
      match cut? fatalMark raw with
      | some (before, _) => (before, failure? raw)
      | none => (raw, none)
    match cut? traceMark body with
    | some (_, section_) => .ok ⟨fail, itemsOf section_⟩
    | none => .error .missingSection

def ofString (raw : String) : Except TraceError Trace := parse raw.toList

end Trace
end Retrace
