import Retrace.Text.Hidden

/-!
# Quoted texts

Names and programs stand between double quotes in messages. A double quote, a backslash and the
usual controls are written with a backslash, other characters that do not show by their code.
-/

namespace Retrace.Text.Quoted

def hexCode (c : Char) : List Char := Nat.toDigits 16 c.toNat

/-- One character between the quotes. -/
def escape (c : Char) : List Char :=
  if c = '"' then ['\\', '"']
  else if c = '\\' then ['\\', '\\']
  else if c = '\n' then ['\\', 'n']
  else if c = '\r' then ['\\', 'r']
  else if c = '\t' then ['\\', 't']
  else if c.toNat = 0 then ['\\', '0']
  else if isHidden c then ['\\', 'u', '\x7b'] ++ hexCode c ++ ['\x7d']
  else [c]

def encode (cs : List Char) : List Char := '"' :: cs.flatMap escape ++ ['"']

def quote (s : String) : String := String.ofList (encode s.toList)

end Retrace.Text.Quoted
