/-!
# Pieces of a text

Finding a mark in a text, cutting at its first occurrence, splitting at every occurrence and
replacing every occurrence. Occurrences are taken from the left and do not overlap. All functions
recurse on the text; one that passes a mark carries the number of characters still to be skipped.
-/

namespace Retrace.Text

/-- What follows `mark`, if the text starts with it. -/
def after? : (mark text : List Char) → Option (List Char)
  | [], text => some text
  | _ :: _, [] => none
  | m :: ms, c :: cs => if m = c then after? ms cs else none

/-- The texts before and after the first occurrence of `mark`. -/
def cut? (mark : List Char) : List Char → Option (List Char × List Char)
  | [] => if mark = [] then some ([], []) else none
  | c :: cs =>
    match after? mark (c :: cs) with
    | some rest => some ([], rest)
    | none => (cut? mark cs).map fun p => (c :: p.1, p.2)

def occurs (mark text : List Char) : Bool := (cut? mark text).isSome

def growPiece (c : Char) : List (List Char) → List (List Char)
  | [] => [[c]]
  | p :: ps => (c :: p) :: ps

/-- The pieces of a text whose first `skip` characters belong to a mark. -/
def piecesFrom (mark : List Char) : Nat → List Char → List (List Char)
  | _, [] => [[]]
  | skip + 1, _ :: cs => piecesFrom mark skip cs
  | 0, c :: cs =>
    if mark.isPrefixOf (c :: cs) then [] :: piecesFrom mark (mark.length - 1) cs
    else growPiece c (piecesFrom mark 0 cs)

/-- The pieces between the occurrences of a mark that is not empty. -/
def pieces (mark text : List Char) : List (List Char) := piecesFrom mark 0 text

/-- Replaces the occurrences of `mark` after the first `skip` characters, which are dropped. -/
def replaceFrom (mark new : List Char) : Nat → List Char → List Char
  | _, [] => []
  | skip + 1, _ :: cs => replaceFrom mark new skip cs
  | 0, c :: cs =>
    if mark.isPrefixOf (c :: cs) then new ++ replaceFrom mark new (mark.length - 1) cs
    else c :: replaceFrom mark new 0 cs

/-- Replaces every occurrence of a mark that is not empty. -/
def replace (mark new text : List Char) : List Char := replaceFrom mark new 0 text

/-- Removes a carriage return at the end of a line. -/
def dropReturn : List Char → List Char
  | [] => []
  | ['\r'] => []
  | c :: cs => c :: dropReturn cs

/-- The lines of a text, without their ends. A text that ends with a newline has no line after
it, and a carriage return before a newline belongs to the line's end. -/
def lines (text : List Char) : List (List Char) :=
  let ps := pieces ['\n'] text
  let ended := ps.dropLast.map dropReturn
  match ps.getLast? with
  | none | some [] => ended
  | some last => ended ++ [last]

def join (sep : List Char) : List (List Char) → List Char
  | [] => []
  | [t] => t
  | t :: ts => t ++ sep ++ join sep ts

theorem after?_eq_some_iff (mark text rest : List Char) :
    after? mark text = some rest ↔ text = mark ++ rest := by
  induction mark generalizing text with
  | nil => simp [after?, eq_comm]
  | cons m ms ih =>
    cases text with
    | nil => simp [after?]
    | cons c cs =>
      by_cases h : m = c
      · subst h; simp [after?, ih]
      · simp [after?, h, Ne.symm h]

theorem piecesFrom_drop (mark : List Char) (skip : Nat) (text : List Char) :
    piecesFrom mark skip text = piecesFrom mark 0 (text.drop skip) := by
  induction text generalizing skip with
  | nil => simp [piecesFrom]
  | cons c cs ih => cases skip <;> simp [piecesFrom, ih]

theorem replaceFrom_drop (mark new : List Char) (skip : Nat) (text : List Char) :
    replaceFrom mark new skip text = replaceFrom mark new 0 (text.drop skip) := by
  induction text generalizing skip with
  | nil => simp [replaceFrom]
  | cons c cs ih => cases skip <;> simp [replaceFrom, ih]

end Retrace.Text
