import Retrace.Json.Text
import Retrace.Text.Blank
import Retrace.Text.Pieces
import Retrace.Text.Word

/-!
# The value a run failed with

A run that aborts prints a report that ends with the value it failed with, and somewhere the mark
of a fatal error. The value may hold percent escapes.
-/

namespace Retrace.Trace

open Retrace.Text

/-! ## Percent escapes -/

/-- The value of digits that are all hexadecimal. -/
def hexNumber? (ds : List Char) : Option Nat :=
  ds.foldlM (fun n d => (Json.Text.hexValue? d).map (16 * n + ·)) 0

def charOf? (n : Nat) : Option Char := if n.isValidChar then some (Char.ofNat n) else none

def first? (n : Nat) (cs : List Char) : Option (List Char) :=
  if (cs.take n).length = n then some (cs.take n) else none

/-- The character that an escape stands for, from the text after its percent sign, with the number
of characters it takes: two digits, or `u` and four digits. -/
def escape? : List Char → Option (Char × Nat)
  | 'u' :: cs => do
    let n ← hexNumber? (← first? 4 cs)
    let c ← charOf? n
    some (c, 5)
  | cs => do
    let n ← hexNumber? (← first? 2 cs)
    some (Char.ofNat n, 2)

/-- Decodes the escapes after the first `skip` characters, which are dropped. -/
def unescapeFrom : Nat → List Char → List Char
  | _, [] => []
  | skip + 1, _ :: cs => unescapeFrom skip cs
  | 0, c :: cs =>
    if c = '%' then
      match escape? cs with
      | some (d, n) => d :: unescapeFrom n cs
      | none => c :: unescapeFrom 0 cs
    else c :: unescapeFrom 0 cs

/-- Decodes percent escapes. A percent sign that starts none is kept. -/
def unescape (cs : List Char) : List Char := unescapeFrom 0 cs

/-! ## The report -/

def fatalMark : List Char := "Fatal error:".toList

/-- The word that starts the trace. -/
def traceMark : List Char := "trace".toList

/-- Whether a value ends here: at a newline before the trace or a fatal error. -/
def endsValue : List Char → Bool
  | '\n' :: cs => traceMark.isPrefixOf cs || fatalMark.isPrefixOf cs
  | _ => false

/-- The text up to the first end of a value. -/
def upToEnd? : List Char → Option (List Char)
  | [] => none
  | c :: cs => if endsValue (c :: cs) then some [] else (upToEnd? cs).map (c :: ·)

/-- The value after some blanks. All blanks belong to them, but if no end follows, the last one may
be the newline that ends an empty value. -/
def payloadFrom? : List Char → Option (List Char)
  | [] => none
  | c :: cs =>
    if isBlank c then payloadFrom? cs <|> if endsValue (c :: cs) then some [] else none
    else upToEnd? (c :: cs)

/-- The value after at least one blank. -/
def payload? : List Char → Option (List Char)
  | c :: cs => if isBlank c then payloadFrom? cs else none
  | [] => none

/-- The value of a report that starts here. -/
def reportAt? (cs : List Char) : Option (List Char) := do
  let rest ← after? "reached ".toList cs
  let word := rest.takeWhile isWordChar
  if word.isEmpty then none
  else
    let rest ← after? " instruction\nwith".toList (rest.dropWhile isWordChar)
    payload? rest

def report? : List Char → Option (List Char)
  | [] => none
  | c :: cs => reportAt? (c :: cs) <|> report? cs

/-- The value a run failed with, if it did and its report is there. -/
def failure? (raw : List Char) : Option String :=
  if occurs fatalMark raw then (report? raw).map fun v => String.ofList (unescape (trim v)) else none

end Retrace.Trace
