/-!
# Texts of a JSON text

Between the quotes a text is a list of units: characters and halves of surrogate pairs, the latter
only from `\uXXXX`. A text has a value iff each half belongs to a pair.
-/

namespace Retrace.Json.Text

def hexValue? (c : Char) : Option Nat :=
  if '0' ≤ c ∧ c ≤ '9' then some (c.toNat - '0'.toNat)
  else if 'a' ≤ c ∧ c ≤ 'f' then some (c.toNat - 'a'.toNat + 10)
  else if 'A' ≤ c ∧ c ≤ 'F' then some (c.toNat - 'A'.toNat + 10)
  else none

/-- The character that a backslash and a letter stand for. -/
def shortEscape? (c : Char) : Option Char :=
  if c = '"' ∨ c = '\\' ∨ c = '/' then some c
  else if c = 'b' then some (Char.ofNat 8)
  else if c = 'f' then some (Char.ofNat 12)
  else if c = 'n' then some '\n'
  else if c = 'r' then some '\r'
  else if c = 't' then some '\t'
  else none

/-- Where a reader stands inside a text. -/
inductive Place where
  | plain
  | afterSlash
  /-- In the digits of a code, with one digit and `more` to come. -/
  | code (more : Nat) (soFar : Nat)

def push (unit : Nat) (r : List Nat × List Char) : List Nat × List Char := (unit :: r.1, r.2)

/-- Reads the units up to the closing quote, and the text after it. -/
def unitsFrom : Place → List Char → Option (List Nat × List Char)
  | _, [] => none
  | .plain, c :: cs =>
    if c = '"' then some ([], cs)
    else if c = '\\' then unitsFrom .afterSlash cs
    else if c.toNat < 0x20 then none
    else (unitsFrom .plain cs).map (push c.toNat)
  | .afterSlash, c :: cs =>
    if c = 'u' then unitsFrom (.code 3 0) cs
    else (shortEscape? c).bind fun d => (unitsFrom .plain cs).map (push d.toNat)
  | .code more soFar, c :: cs =>
    (hexValue? c).bind fun d =>
      match more with
      | 0 => (unitsFrom .plain cs).map (push (16 * soFar + d))
      | more + 1 => unitsFrom (.code more (16 * soFar + d)) cs

def isHigh (u : Nat) : Bool := 0xD800 ≤ u && u < 0xDC00

def isLow (u : Nat) : Bool := 0xDC00 ≤ u && u < 0xE000

/-- Joins the halves of pairs. `high` is a half that waits for the other one. -/
def joinFrom : (high : Option Nat) → List Nat → Option (List Char)
  | none, [] => some []
  | some _, [] => none
  | none, u :: us =>
    if isHigh u then joinFrom (some u) us
    else if isLow u then none
    else (joinFrom none us).map (Char.ofNat u :: ·)
  | some h, u :: us =>
    if isLow u then
      (joinFrom none us).map (Char.ofNat (0x10000 + (h - 0xD800) * 0x400 + (u - 0xDC00)) :: ·)
    else none

/-- Reads a text after its opening quote. The value is missing if a half stands alone. -/
def read? (cs : List Char) : Option (Option String × List Char) :=
  (unitsFrom .plain cs).map fun r => ((joinFrom none r.1).map String.ofList, r.2)

/-! ## Writing -/

def hexDigit (n : Nat) : Char :=
  if n < 10 then Char.ofNat (n + '0'.toNat) else Char.ofNat (n - 10 + 'a'.toNat)

/-- One character between the quotes. Only quotes, backslashes and controls are written by
another text. -/
def escape (c : Char) : List Char :=
  if c = '"' then ['\\', '"']
  else if c = '\\' then ['\\', '\\']
  else if c.toNat = 8 then ['\\', 'b']
  else if c.toNat = 12 then ['\\', 'f']
  else if c = '\n' then ['\\', 'n']
  else if c = '\r' then ['\\', 'r']
  else if c = '\t' then ['\\', 't']
  else if c.toNat < 0x20 then ['\\', 'u', '0', '0', hexDigit (c.toNat / 16), hexDigit (c.toNat % 16)]
  else [c]

def write (s : String) : List Char := '"' :: s.toList.flatMap escape ++ ['"']

end Retrace.Json.Text
