import Retrace.Decimal.Shortest

/-!
# Texts of 64-bit numbers

A number is written with the fewest digits that read back. A `Layout` says when it is written
positionally, whether a whole number keeps a point and which way a tie goes.
-/

namespace Retrace.Decimal

structure Layout where
  /-- The exponents of the first digit that are written without an exponent. -/
  positional : Int → Bool
  /-- Whether a whole number ends in `.0`. -/
  keepsPoint : Bool
  tie : Tie

namespace Layout

/-- Without an exponent. -/
def place (layout : Layout) (s : Scientific) : List Char :=
  let n : Int := s.digits.length
  if n - 1 ≤ s.exponent then
    s.digits ++ List.replicate (s.exponent - n + 1).toNat '0' ++
      (if layout.keepsPoint then ['.', '0'] else [])
  else if 0 ≤ s.exponent then
    s.digits.take (s.exponent + 1).toNat ++ '.' :: s.digits.drop (s.exponent + 1).toNat
  else
    '0' :: '.' :: List.replicate (-s.exponent - 1).toNat '0' ++ s.digits

/-- With an exponent, whose sign is always written. -/
def power (s : Scientific) : List Char :=
  let mantissa := match s.digits with
    | d :: e :: es => d :: '.' :: e :: es
    | ds => ds
  let sign := if 0 ≤ s.exponent then '+' else '-'
  mantissa ++ 'e' :: sign :: digits s.exponent.natAbs

/-- The text of a number whose sign is set apart. -/
def magnitude (layout : Layout) (bits : Nat) : List Char :=
  if bits = 0 then layout.place ⟨['0'], 0⟩
  else
    let s := (Binary.ofBits bits).shortest layout.tie
    if layout.positional s.exponent then layout.place s else power s

def write (layout : Layout) (x : Float) : List Char :=
  let bits := x.toBits.toNat
  let size := bits % Nat.pow 2 63
  let sign := if size < bits then ['-'] else []
  if 0x7FF0000000000000 < size then "NaN".toList
  else if size = 0x7FF0000000000000 then sign ++ "inf".toList
  else sign ++ layout.magnitude size

end Layout

/-- Numbers for people: never an exponent, no point for a whole number, ties go up. -/
def plain : Layout := ⟨fun _ => true, false, .up⟩

def showPlain (x : Float) : String := String.ofList (plain.write x)

end Retrace.Decimal
