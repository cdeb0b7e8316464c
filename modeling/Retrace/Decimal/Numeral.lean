/-!
# Decimal numerals

Naturals as texts of ASCII digits, in both directions.
-/

namespace Retrace.Decimal

def digitValue (c : Char) : Nat := c.toNat - '0'.toNat

/-- The digits of a number, without leading zeros. -/
def digits (n : Nat) : List Char := Nat.toDigits 10 n

/-- The number that a run of digits continues, read from the left. -/
def valueFrom (n : Nat) (cs : List Char) : Nat := cs.foldl (fun n c => 10 * n + digitValue c) n

def value (cs : List Char) : Nat := valueFrom 0 cs

/-- Whether a text is one digit or more and nothing else. -/
def isNumeral (cs : List Char) : Bool := !cs.isEmpty && cs.all Char.isDigit

def read? (cs : List Char) : Option Nat := if isNumeral cs then some (value cs) else none

def ofInt : Int → List Char
  | .ofNat n => digits n
  | .negSucc n => '-' :: digits (n + 1)

/-- A text with zeros in front up to `width` places. -/
def filled (width : Nat) (cs : List Char) : List Char := List.replicate (width - cs.length) '0' ++ cs

def padded (width n : Nat) : List Char := filled width (digits n)

def dropZeros (cs : List Char) : List Char := (cs.reverse.dropWhile (· == '0')).reverse

@[simp] theorem valueFrom_nil (n : Nat) : valueFrom n [] = n := by simp [valueFrom]

@[simp] theorem valueFrom_cons (n : Nat) (c : Char) (cs : List Char) :
    valueFrom n (c :: cs) = valueFrom (10 * n + digitValue c) cs := by simp [valueFrom]

theorem valueFrom_append (n : Nat) (as bs : List Char) :
    valueFrom n (as ++ bs) = valueFrom (valueFrom n as) bs := by
  simp [valueFrom, List.foldl_append]

end Retrace.Decimal
