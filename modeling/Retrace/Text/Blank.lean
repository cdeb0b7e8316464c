import Retrace.Text.Ranges

/-!
# Blank characters

Blank means the Unicode property White_Space. Texts are trimmed and split into words by it.
-/

namespace Retrace.Text

/-- The runs of White_Space. -/
def blankRanges : List (Nat × Nat) :=
  [(0x9, 0xD), (0x20, 0x20), (0x85, 0x85), (0xA0, 0xA0), (0x1680, 0x1680), (0x2000, 0x200A),
   (0x2028, 0x2029), (0x202F, 0x202F), (0x205F, 0x205F), (0x3000, 0x3000)]

def isBlank (c : Char) : Bool := inRanges blankRanges c

def trimStart (cs : List Char) : List Char := cs.dropWhile isBlank

def trimEnd : List Char → List Char
  | [] => []
  | c :: cs =>
    match trimEnd cs with
    | [] => if isBlank c then [] else [c]
    | d :: ds => c :: d :: ds

def trim (cs : List Char) : List Char := trimEnd (trimStart cs)

def allBlank (cs : List Char) : Bool := cs.all isBlank

def growWord (c : Char) : List (List Char) → List (List Char)
  | [] => [[c]]
  | w :: ws => (c :: w) :: ws

/-- The maximal runs of characters that are not blank. The first word of the result is the one
that `cs` starts inside of, empty if `cs` starts with a blank. -/
def wordsFrom : List Char → List (List Char)
  | [] => [[]]
  | c :: cs => if isBlank c then [] :: wordsFrom cs else growWord c (wordsFrom cs)

/-- The words of a text: its maximal non-empty runs of characters that are not blank. -/
def words (cs : List Char) : List (List Char) := (wordsFrom cs).filter (!·.isEmpty)

def trimString (s : String) : String := String.ofList (trim s.toList)

end Retrace.Text
