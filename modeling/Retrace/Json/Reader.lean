import Retrace.Json.Number
import Retrace.Json.Text

/-!
# Reading a JSON text

The readers take the text at their position and return the value with the text after it. `fuel`
bounds the calls and is more than the text can use; `room` is the number of arrays and objects
that may still be opened around a value to be kept.
-/

namespace Retrace.Json

def isSpace (c : Char) : Bool := c == ' ' || c == '\n' || c == '\t' || c == '\r'

def skipSpace (cs : List Char) : List Char := cs.dropWhile isSpace

/-- A value that needs room. -/
def within (room : Nat) (j : Json) : Json := if room = 0 then .beyond else j

/-- The members whose keys have a value. -/
def keyed : List (Option String × Json) → Option (List (String × Json))
  | [] => some []
  | (none, _) :: _ => none
  | (some k, x) :: ms => (keyed ms).map ((k, x) :: ·)

/-- An object of members. A key without value leaves the object without value. -/
def ofMembers (ms : List (Option String × Json)) : Json :=
  match keyed ms with
  | some ms => .obj ms
  | none => .beyond

/-- Reads a key and the colon after it. -/
def key? (cs : List Char) : Option (Option String × List Char) :=
  match skipSpace cs with
  | '"' :: cs =>
    (Text.read? cs).bind fun k =>
      match skipSpace k.2 with
      | ':' :: cs => some (k.1, cs)
      | _ => none
  | _ => none

def scalar? : List Char → Option (Json × List Char)
  | '"' :: cs => (Text.read? cs).map fun r => (match r.1 with | some s => .str s | none => .beyond, r.2)
  | 'n' :: 'u' :: 'l' :: 'l' :: cs => some (.null, cs)
  | 't' :: 'r' :: 'u' :: 'e' :: cs => some (.bool true, cs)
  | 'f' :: 'a' :: 'l' :: 's' :: 'e' :: cs => some (.bool false, cs)
  | cs => (Numeral.read? cs).map fun r => (r.1.toJson, r.2)

mutual
def value? : (fuel room : Nat) → List Char → Option (Json × List Char)
  | 0, _, _ => none
  | fuel + 1, room, cs =>
    match skipSpace cs with
    | '[' :: cs =>
      match skipSpace cs with
      | ']' :: cs => some (within room (.arr []), cs)
      | cs =>
        (value? fuel (room - 1) cs).bind fun x =>
          (moreElements? fuel (room - 1) x.2).map fun xs => (within room (.arr (x.1 :: xs.1)), xs.2)
    | '\x7b' :: cs =>
      match skipSpace cs with
      | '\x7d' :: cs => some (within room (.obj []), cs)
      | cs =>
        (key? cs).bind fun k =>
          (value? fuel (room - 1) k.2).bind fun x =>
            (moreMembers? fuel (room - 1) x.2).map fun ms =>
              (within room (ofMembers ((k.1, x.1) :: ms.1)), ms.2)
    | cs => scalar? cs

/-- Reads the rest of an array after one of its elements. -/
def moreElements? : (fuel room : Nat) → List Char → Option (List Json × List Char)
  | 0, _, _ => none
  | fuel + 1, room, cs =>
    match skipSpace cs with
    | ']' :: cs => some ([], cs)
    | ',' :: cs =>
      (value? fuel room cs).bind fun x =>
        (moreElements? fuel room x.2).map fun xs => (x.1 :: xs.1, xs.2)
    | _ => none

/-- Reads the rest of an object after one of its members. -/
def moreMembers? : (fuel room : Nat) → List Char → Option (List (Option String × Json) × List Char)
  | 0, _, _ => none
  | fuel + 1, room, cs =>
    match skipSpace cs with
    | '\x7d' :: cs => some ([], cs)
    | ',' :: cs =>
      (key? cs).bind fun k =>
        (value? fuel room k.2).bind fun x =>
          (moreMembers? fuel room x.2).map fun ms => ((k.1, x.1) :: ms.1, ms.2)
    | _ => none
end

/-- Reads a text that holds one value and nothing else. -/
def read? (cs : List Char) : Option Json :=
  match value? (cs.length + 1) maxNesting cs with
  | some (x, rest) => if skipSpace rest = [] then some x else none
  | none => none

def ofString? (s : String) : Option Json := read? s.toList

end Retrace.Json
