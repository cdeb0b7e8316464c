import Retrace.Decimal.Binary64
import Retrace.Decimal.Numeral
import Retrace.Json.Basic

/-!
# Numbers of a JSON text

A number without fraction and exponent is whole if 64 bits hold it. Every other number is a 64-bit
binary number, computed from at most 64 bits of digits and one power of ten, so that long numbers
may differ from the nearest one in the last place. A number too large for that is beyond.
-/

namespace Retrace.Json

open Retrace.Decimal

structure Numeral where
  negative : Bool
  whole : List Char
  fraction : Option (List Char)
  /-- Whether the exponent is negative, and its digits. -/
  exponent : Option (Bool × List Char)

namespace Numeral

def maxWord : Nat := Nat.pow 2 64 - 1

/-- The digits that a word holds, and the power of ten by which it is to be scaled. -/
structure Significand where
  word : Nat
  scale : Int

/-- Takes the digits before the point. From the first one that does not fit on, each digit only
counts as a power of ten. -/
def takeWhole : Nat → List Char → Significand
  | word, [] => ⟨word, 0⟩
  | word, d :: ds =>
    let next := word * 10 + digitValue d
    if next ≤ maxWord then takeWhole next ds else ⟨word, (d :: ds).length⟩

/-- Takes the digits after the point, up to the first one that does not fit. -/
def takeFraction : Significand → List Char → Significand
  | s, [] => s
  | s, d :: ds =>
    let next := s.word * 10 + digitValue d
    if next ≤ maxWord then takeFraction ⟨next, s.scale - 1⟩ ds else s

/-- Divides by a power of ten, in steps that a 64-bit number holds. -/
def scaleDown (places : Nat) (x : Float) : Float :=
  if places ≤ 308 then x / powerOfTen places
  else if x == 0 then x
  else scaleDown (places - 308) (x / powerOfTen 308)
termination_by places

/-- Multiplies by a power of ten, if the product is finite. -/
def scaleUp? (places : Nat) (x : Float) : Option Float :=
  if places ≤ 308 then
    let y := x * powerOfTen places
    if y.isInf then none else some y
  else if x == 0 then some x
  else none

def Significand.toFloat? (s : Significand) : Option Float :=
  let x := (UInt64.ofNat s.word).toFloat
  if 0 ≤ s.scale then scaleUp? s.scale.toNat x else some (scaleDown (-s.scale).toNat x)

/-- The significand scaled by the written exponent. An exponent of more than 31 bits makes zero or
no number at all. -/
def Significand.scaled? (s : Significand) : Option (Bool × List Char) → Option Float
  | none => s.toFloat?
  | some (negative, ds) =>
    let e := value ds
    if e < Nat.pow 2 31 then
      Significand.toFloat? ⟨s.word, if negative then s.scale - e else s.scale + e⟩
    else if s.word = 0 || negative then some 0
    else none

def toJson (n : Numeral) : Json :=
  let word := takeWhole 0 n.whole
  let signed (x : Float) : Float := if n.negative then -x else x
  match n.fraction, n.exponent with
  | none, none =>
    if word.scale = 0 ∧ ¬ n.negative then .int word.word
    else if word.scale = 0 ∧ 0 < word.word ∧ word.word ≤ Nat.pow 2 63 then .int (-(word.word : Int))
    else match word.toFloat? with
      | some x => .float (signed x)
      | none => .beyond
  | fraction, exponent =>
    match (takeFraction word (fraction.getD [])).scaled? exponent with
    | some x => .float (signed x)
    | none => .beyond

/-! ## Reading the parts -/

def digits? (cs : List Char) : Option (List Char × List Char) :=
  match cs.takeWhile Char.isDigit with
  | [] => none
  | ds => some (ds, cs.dropWhile Char.isDigit)

/-- The digits before the point: a single zero, or no zero in front. -/
def whole? (cs : List Char) : Option (List Char × List Char) :=
  match digits? cs with
  | some ('0' :: _ :: _, _) => none
  | r => r

def fraction? : List Char → Option (Option (List Char) × List Char)
  | '.' :: cs => (digits? cs).map fun r => (some r.1, r.2)
  | cs => some (none, cs)

def exponent? : List Char → Option (Option (Bool × List Char) × List Char)
  | c :: cs =>
    if c = 'e' ∨ c = 'E' then
      match cs with
      | '-' :: ds => (digits? ds).map fun r => (some (true, r.1), r.2)
      | '+' :: ds => (digits? ds).map fun r => (some (false, r.1), r.2)
      | ds => (digits? ds).map fun r => (some (false, r.1), r.2)
    else some (none, c :: cs)
  | [] => some (none, [])

/-- The parts after the sign. -/
def unsigned? (negative : Bool) (cs : List Char) : Option (Numeral × List Char) :=
  (whole? cs).bind fun whole =>
    (fraction? whole.2).bind fun fraction =>
      (exponent? fraction.2).map fun exponent =>
        (⟨negative, whole.1, fraction.1, exponent.1⟩, exponent.2)

def read? : List Char → Option (Numeral × List Char)
  | '-' :: cs => unsigned? true cs
  | cs => unsigned? false cs

end Numeral
end Retrace.Json
