import Retrace.Decimal.Numeral

/-!
# The fewest digits that read back

A positive 64-bit number `m * 2 ^ q` is the nearest one to every real of an interval around it,
ends included iff `m` is even. Of all decimals in that interval with the fewest digits, the one
closest to the number is chosen; if two are equally close, a `Tie` decides.
-/

namespace Retrace.Decimal

/-- A decimal `d.ddd * 10 ^ exponent`, by its digits, of which the last is not zero. -/
structure Scientific where
  digits : List Char
  exponent : Int

/-- Which of two decimals is taken if both are equally close: the upper one, or the one whose last
digit is even. -/
inductive Tie where
  | up
  | toEven
deriving DecidableEq, Repr

/-- Whether the lower of two neighbours is taken, its last digit being that of `d`. -/
def Tie.takesLower (tie : Tie) (d : Nat) : Bool := tie == .toEven && d % 2 == 0

/-- A finite positive number `significand * 2 ^ exponent`, taken apart. -/
structure Binary where
  significand : Nat
  exponent : Int

namespace Binary

def ofBits (bits : Nat) : Binary :=
  let e : Nat := bits / Nat.pow 2 52 % Nat.pow 2 11
  let m : Nat := bits % Nat.pow 2 52
  if e = 0 then ⟨m, -1074⟩ else ⟨m + Nat.pow 2 52, (e : Int) - 1075⟩

/-- Numerator and denominator of `n * 2 ^ (exponent - 2)`. Quarters of the last place are enough
to state the ends of the interval. -/
def quarters (x : Binary) (n : Nat) : Nat × Nat :=
  let e := x.exponent - 2
  if 0 ≤ e then (n * Nat.pow 2 e.toNat, 1) else (n, Nat.pow 2 (-e).toNat)

/-- The lower end, in quarters. It is closer where the exponent changes. -/
def lower (x : Binary) : Nat :=
  4 * x.significand - (if x.significand = Nat.pow 2 52 ∧ x.exponent ≠ -1074 then 1 else 2)

def upper (x : Binary) : Nat := 4 * x.significand + 2

/-- The exponent of the first decimal digit. -/
def leading (x : Binary) : Int :=
  let (num, den) := x.quarters (4 * x.significand)
  if den ≤ num then ((Decimal.digits (num / den)).length : Int) - 1
  else -((Decimal.digits (den / num)).length : Int)

/-- A natural times a power of ten, as numerator and denominator. -/
def onGrid (d : Nat) (grid : Int) : Nat × Nat :=
  if 0 ≤ grid then (d * Nat.pow 10 grid.toNat, 1) else (d, Nat.pow 10 (-grid).toNat)

/-- Whether a decimal reads back as the number. -/
def holds (x : Binary) (d : Nat) (grid : Int) : Bool :=
  let (n, b) := onGrid d grid
  let (lo, a) := x.quarters x.lower
  let (hi, _) := x.quarters x.upper
  if x.significand % 2 = 0 then lo * b ≤ n * a && n * a ≤ hi * b
  else lo * b < n * a && n * a < hi * b

/-- The neighbour of the number on the grid of `10 ^ grid` that reads back, the closer one if
both do. -/
def onGrid? (x : Binary) (tie : Tie) (grid : Int) : Option Nat :=
  let (num, den) := x.quarters (4 * x.significand)
  let (n, b) :=
    if 0 ≤ grid then (num, den * Nat.pow 10 grid.toNat) else (num * Nat.pow 10 (-grid).toNat, den)
  let d := n / b
  let r := n % b
  match x.holds d grid, x.holds (d + 1) grid with
  | true, true => some (if 2 * r < b || (2 * r == b && tie.takesLower d) then d else d + 1)
  | true, false => some d
  | false, true => some (d + 1)
  | false, false => none

/-- Digits on a grid as a scientific decimal. -/
def scientific (d : Nat) (grid : Int) : Scientific :=
  let ds := Decimal.digits d
  ⟨dropZeros ds, grid + ds.length - 1⟩

/-- The decimal with the fewest digits that reads back. Seventeen digits always do. -/
def shortest (x : Binary) (tie : Tie) : Scientific :=
  let k := x.leading
  let tries := (List.range 17).findSome? fun (n : Nat) =>
    (x.onGrid? tie (k - n)).map fun d => scientific d (k - n)
  tries.getD ⟨['0'], 0⟩

end Binary
end Retrace.Decimal
