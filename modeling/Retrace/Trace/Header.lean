import Retrace.Decimal.Binary64
import Retrace.Decimal.Numeral
import Retrace.Text.Blank
import Retrace.Text.Digit
import Retrace.Text.Pieces

/-!
# Headers of traced items

The header of an item names a location and the gas it consumed. Of several gas amounts on the line
the last one counts.
-/

namespace Retrace.Trace

open Retrace.Text

/-- The characters after a label and one blank. -/
def labelled? (label cs : List Char) : Option (List Char) :=
  match after? label cs with
  | some (c :: rest) => if isBlank c then some rest else none
  | _ => none

/-- The digits of the first location, and the text after them. -/
def location? : List Char → Option (List Char × List Char)
  | [] => none
  | c :: cs =>
    match labelled? "location:".toList (c :: cs) with
    | some rest =>
      match rest.takeWhile isDigit with
      | [] => location? cs
      | ds => some (ds, rest.dropWhile isDigit)
    | none => location? cs

def isAmountChar (c : Char) : Bool := isDigit c || c == '.'

/-- The digits and points of the last gas amount. -/
def amount? : List Char → Option (List Char)
  | [] => none
  | c :: cs =>
    amount? cs <|>
      match labelled? "gas:".toList (c :: cs) with
      | some rest =>
        match rest.takeWhile isAmountChar with
        | [] => none
        | ds => some ds
      | none => none

/-- Reads a decimal numeral: digits with at most one point, before or after which digits may be
missing, but not both. -/
def readAmount? (cs : List Char) : Option Float :=
  let whole := cs.takeWhile Char.isDigit
  match cs.dropWhile Char.isDigit with
  | [] => if whole.isEmpty then none else some (Decimal.nearest (Decimal.value whole) 1)
  | '.' :: fraction =>
    if fraction.all Char.isDigit && !(whole.isEmpty && fraction.isEmpty) then
      some (Decimal.nearestDecimal (Decimal.value whole) (Decimal.value fraction) fraction.length)
    else none
  | _ => none

/-- Reads a location. It is a word of 64 bits. -/
def readLocation? (ds : List Char) : Option Nat :=
  (Decimal.read? ds).filter (· < Nat.pow 2 64)

def header? (line : List Char) : Option (Nat × Float) := do
  let (ds, rest) ← location? line
  let amount ← amount? rest
  let location ← readLocation? ds
  let gas ← readAmount? amount
  some (location, gas)

end Retrace.Trace
