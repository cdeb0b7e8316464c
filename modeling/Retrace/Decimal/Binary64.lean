/-!
# Rounding to a 64-bit binary number

`nearest` is the 64-bit number closest to a quotient of naturals, a tie going to the even
neighbour. It is computed in exact arithmetic and only then turned into bits.
-/

namespace Retrace.Decimal

/-- The natural nearest to a quotient, a tie going to the even neighbour. -/
def roundHalfEven (num den : Nat) : Nat :=
  let q := num / den
  let r := num % den
  if 2 * r < den then q
  else if den < 2 * r then q + 1
  else if q % 2 = 0 then q else q + 1

def infinityBits : Nat := 0x7FF0000000000000

/-- The power of two that the quotient of two positive naturals reaches. -/
def ratioExponent (num den : Nat) : Int :=
  let e : Int := (num.log2 : Int) - den.log2
  let reached := if 0 ≤ e then den * Nat.pow 2 e.toNat ≤ num else den ≤ num * Nat.pow 2 (-e).toNat
  if reached then e else e - 1

/-- The bits of the number nearest to a quotient. The significand has 53 bits, fewer only for
numbers below the least exponent; a significand rounded up to 54 bits carries into the exponent. -/
def nearestBits (num den : Nat) : Nat :=
  if num = 0 then 0
  else
    let q : Int := max (ratioExponent num den - 52) (-1074)
    let m :=
      if 0 ≤ q then roundHalfEven num (den * Nat.pow 2 q.toNat)
      else roundHalfEven (num * Nat.pow 2 (-q).toNat) den
    min ((q + 1074).toNat * Nat.pow 2 52 + m) infinityBits

def nearest (num den : Nat) : Float := Float.ofBits (UInt64.ofNat (nearestBits num den))

def powerOfTen (n : Nat) : Float := nearest (Nat.pow 10 n) 1

/-- The number nearest to a decimal with digits before and after the point. -/
def nearestDecimal (whole fraction : Nat) (places : Nat) : Float :=
  nearest (whole * Nat.pow 10 places + fraction) (Nat.pow 10 places)

theorem roundHalfEven_one (n : Nat) : roundHalfEven n 1 = n := by
  simp [roundHalfEven, Nat.mod_one]

end Retrace.Decimal
