import Retrace.Decimal.Layout
import Retrace.Json.Text
import Retrace.Json.Basic

/-!
# Writing a JSON text

Members are written in their order. The compact form has no spaces; the indented one has a line
for every element and member, with two spaces for every level.
-/

namespace Retrace.Json

open Retrace.Decimal

/-- Numbers have a point or an exponent; they are positional from `0.00001` on and below `10 ^ 16`.
A tie goes to the even digit. -/
def layout : Layout := ⟨fun e => -5 ≤ e && e < 16, true, .toEven⟩

/-- A 64-bit number; one that is not finite has no text of its own. -/
def writeFloat (x : Float) : List Char := if x.isFinite then layout.write x else "null".toList

/-! ## Compact form -/

mutual
def write : Json → List Char
  | .null | .beyond => "null".toList
  | .bool true => "true".toList
  | .bool false => "false".toList
  | .int n => Decimal.ofInt n
  | .float x => writeFloat x
  | .str s => Text.write s
  | .arr [] => ['[', ']']
  | .arr (x :: xs) => '[' :: write x ++ writeMore xs
  | .obj [] => ['\x7b', '\x7d']
  | .obj ((k, x) :: ms) => '\x7b' :: Text.write k ++ ':' :: write x ++ writeMoreMembers ms

/-- The rest of an array after one of its elements. -/
def writeMore : List Json → List Char
  | [] => [']']
  | x :: xs => ',' :: write x ++ writeMore xs

def writeMoreMembers : List (String × Json) → List Char
  | [] => ['\x7d']
  | (k, x) :: ms => ',' :: Text.write k ++ ':' :: write x ++ writeMoreMembers ms
end

def compact (j : Json) : String := String.ofList (write j)

/-! ## Indented form -/

def newLine (level : Nat) : List Char := '\n' :: List.replicate (2 * level) ' '

mutual
def indentAt (level : Nat) : Json → List Char
  | .arr [] => ['[', ']']
  | .arr (x :: xs) => '[' :: newLine (level + 1) ++ indentAt (level + 1) x ++ indentMore level xs
  | .obj [] => ['\x7b', '\x7d']
  | .obj ((k, x) :: ms) =>
    '\x7b' :: newLine (level + 1) ++ Text.write k ++ ": ".toList ++ indentAt (level + 1) x ++
      indentMoreMembers level ms
  | x => write x

def indentMore (level : Nat) : List Json → List Char
  | [] => newLine level ++ [']']
  | x :: xs => ',' :: newLine (level + 1) ++ indentAt (level + 1) x ++ indentMore level xs

def indentMoreMembers (level : Nat) : List (String × Json) → List Char
  | [] => newLine level ++ ['\x7d']
  | (k, x) :: ms =>
    ',' :: newLine (level + 1) ++ Text.write k ++ ": ".toList ++ indentAt (level + 1) x ++
      indentMoreMembers level ms
end

def indented (j : Json) : String := String.ofList (indentAt 0 j)

end Retrace.Json
