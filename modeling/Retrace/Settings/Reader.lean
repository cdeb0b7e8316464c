import Retrace.Json.Text
import Retrace.Settings.Basic

/-!
# Reading a settings file

A settings file is a TOML document with at most the four keys of the settings, each given once:
three strings and an array of strings. Tables and dotted keys have no place in it, and everything
else makes the file invalid.
-/

namespace Retrace.Settings

open Json.Text (hexValue?)

/-! ## Characters -/

def isTomlSpace (c : Char) : Bool := c == ' ' || c == '\t'

def skipBlanks (cs : List Char) : List Char := cs.dropWhile isTomlSpace

/-- Controls are not allowed, but for the tab. -/
def isTomlChar (c : Char) : Bool := (0x20 ≤ c.toNat || c == '\t') && c.toNat != 0x7F

def isKeyChar (c : Char) : Bool := c.isAlphanum || c == '_' || c == '-'

def newline? : List Char → Option (List Char)
  | '\n' :: cs => some cs
  | '\r' :: '\n' :: cs => some cs
  | _ => none

/-- The text from the end of a comment's line on, if a comment starts here. -/
def skipComment (cs : List Char) : List Char :=
  match cs with
  | '#' :: rest => rest.dropWhile isTomlChar
  | _ => cs

/-- Ends a line: blanks, a comment, and a newline or the end of the file. -/
def endLine? (cs : List Char) : Option (List Char) :=
  match skipComment (skipBlanks cs) with
  | [] => some []
  | cs => newline? cs

/-- Passes blanks, comments and newlines, as often as `fuel` allows. -/
def skipLines : (fuel : Nat) → List Char → List Char
  | 0, cs => cs
  | fuel + 1, cs =>
    let cs := skipComment (skipBlanks cs)
    match newline? cs with
    | some rest => skipLines fuel rest
    | none => cs

/-! ## Strings -/

/-- The character that a backslash and a letter stand for. -/
def letterEscape? (c : Char) : Option Char :=
  if c = 'b' then some (Char.ofNat 8)
  else if c = 't' then some '\t'
  else if c = 'n' then some '\n'
  else if c = 'f' then some (Char.ofNat 12)
  else if c = 'r' then some '\r'
  else if c = '"' then some '"'
  else if c = '\\' then some '\\'
  else none

/-- The character of `n` hexadecimal digits. -/
def codeEscape? (n : Nat) (cs : List Char) : Option (Char × List Char) :=
  let ds := cs.take n
  if ds.length = n then do
    let code ← ds.foldlM (fun code d => (hexValue? d).map (16 * code + ·)) 0
    if code.isValidChar then some (Char.ofNat code, cs.drop n) else none
  else none

/-- The character after a backslash. -/
def escape? : List Char → Option (Char × List Char)
  | 'u' :: cs => codeEscape? 4 cs
  | 'U' :: cs => codeEscape? 8 cs
  | c :: cs => (letterEscape? c).map fun d => (d, cs)
  | [] => none

def consTo (c : Char) (r : List Char × List Char) : List Char × List Char := (c :: r.1, r.2)

/-- A literal string on one line, after its quote. -/
def literalLine? : List Char → Option (List Char × List Char)
  | [] => none
  | c :: cs =>
    if c = '\'' then some ([], cs)
    else if isTomlChar c then (literalLine? cs).map (consTo c)
    else none

/-- A basic string on one line, after its quote. -/
def basicLine? : (fuel : Nat) → List Char → Option (List Char × List Char)
  | 0, _ => none
  | _, [] => none
  | fuel + 1, c :: cs =>
    if c = '"' then some ([], cs)
    else if c = '\\' then (escape? cs).bind fun e => (basicLine? fuel e.2).map (consTo e.1)
    else if isTomlChar c then (basicLine? fuel cs).map (consTo c)
    else none

/-- Ends a string over several lines. Up to two quotes may stand before the three that end it. -/
def closing? (quote : Char) (cs : List Char) : Option (List Char × List Char) :=
  let quotes := (cs.takeWhile (· = quote)).length
  if quotes < 3 then none
  else
    let inner := min (quotes - 3) 2
    some (List.replicate inner quote, cs.drop (inner + 3))

def skipBreaks : List Char → List Char
  | '\r' :: '\n' :: cs => skipBreaks cs
  | c :: cs => if isTomlSpace c || c == '\n' then skipBreaks cs else c :: cs
  | [] => []

/-- A backslash at the end of a line removes all blanks and newlines after it. -/
def lineBreak? (cs : List Char) : Option (List Char) := (newline? (skipBlanks cs)).map skipBreaks

/-- A literal string over several lines, after its quotes. -/
def literalLines? : (fuel : Nat) → List Char → Option (List Char × List Char)
  | 0, _ => none
  | _, [] => none
  | fuel + 1, c :: cs =>
    match closing? '\'' (c :: cs) with
    | some r => some r
    | none =>
      match newline? (c :: cs) with
      | some rest => (literalLines? fuel rest).map (consTo '\n')
      | none => if isTomlChar c then (literalLines? fuel cs).map (consTo c) else none

/-- A basic string over several lines, after its quotes. -/
def basicLines? : (fuel : Nat) → List Char → Option (List Char × List Char)
  | 0, _ => none
  | _, [] => none
  | fuel + 1, c :: cs =>
    match closing? '"' (c :: cs) with
    | some r => some r
    | none =>
      match newline? (c :: cs) with
      | some rest => (basicLines? fuel rest).map (consTo '\n')
      | none =>
        if c = '\\' then
          match lineBreak? cs with
          | some rest => basicLines? fuel rest
          | none => (escape? cs).bind fun e => (basicLines? fuel e.2).map (consTo e.1)
        else if isTomlChar c then (basicLines? fuel cs).map (consTo c)
        else none

/-- A newline right after the opening quotes does not count. -/
def skipFirstNewline (cs : List Char) : List Char := (newline? cs).getD cs

/-- Reads a string of any of the four kinds. -/
def string? (cs : List Char) : Option (List Char × List Char) :=
  let fuel := cs.length + 1
  match cs with
  | '"' :: '"' :: '"' :: rest => basicLines? fuel (skipFirstNewline rest)
  | '\'' :: '\'' :: '\'' :: rest => literalLines? fuel (skipFirstNewline rest)
  | '"' :: rest => basicLine? fuel rest
  | '\'' :: rest => literalLine? rest
  | _ => none

/-- Reads a key, bare or as a string on one line. -/
def key? (cs : List Char) : Option (String × List Char) :=
  match cs with
  | '"' :: rest => (basicLine? (rest.length + 1) rest).map fun r => (String.ofList r.1, r.2)
  | '\'' :: rest => (literalLine? rest).map fun r => (String.ofList r.1, r.2)
  | _ =>
    match cs.takeWhile isKeyChar with
    | [] => none
    | k => some (String.ofList k, cs.dropWhile isKeyChar)

/-! ## Arrays -/

/-- The strings of an array after its bracket or a comma. -/
def items? : (fuel : Nat) → List Char → Option (List String × List Char)
  | 0, _ => none
  | fuel + 1, cs =>
    match skipLines (cs.length + 1) cs with
    | ']' :: rest => some ([], rest)
    | cs =>
      (string? cs).bind fun s =>
        match skipLines (s.2.length + 1) s.2 with
        | ']' :: rest => some ([String.ofList s.1], rest)
        | ',' :: rest => (items? fuel rest).map fun r => (String.ofList s.1 :: r.1, r.2)
        | _ => none

/-! ## Documents -/

structure Given where
  compiler : Option String
  client : Option String
  caller : Option String
  clientArgs : Option (List String)

/-- Reads the value of a key that is not set yet. -/
def assign? (g : Given) (key : String) (cs : List Char) : Option (Given × List Char) :=
  let text (old : Option String) (put : Option String → Given) : Option (Given × List Char) :=
    match old with
    | some _ => none
    | none => (string? cs).map fun r => (put (some (String.ofList r.1)), r.2)
  if key = "archetype_bin" then text g.compiler fun v => { g with compiler := v }
  else if key = "octez_client_bin" then text g.client fun v => { g with client := v }
  else if key = "caller" then text g.caller fun v => { g with caller := v }
  else if key = "octez_client_args" then
    match g.clientArgs, cs with
    | none, '[' :: rest =>
      (items? (rest.length + 1) rest).map fun r => ({ g with clientArgs := some r.1 }, r.2)
    | _, _ => none
  else none

def given? : (fuel : Nat) → Given → List Char → Option Given
  | 0, _, _ => none
  | fuel + 1, g, cs =>
    match skipLines (cs.length + 1) cs with
    | [] => some g
    | cs => do
      let (key, cs) ← key? cs
      match skipBlanks cs with
      | '=' :: cs =>
        let (g, cs) ← assign? g key (skipBlanks cs)
        given? fuel g (← endLine? cs)
      | _ => none

def dropMark : List Char → List Char
  | c :: cs => if c.toNat = 0xFEFF then cs else c :: cs
  | [] => []

/-- Reads a settings file. What it does not set has its built-in value. -/
def read? (text : String) : Option Settings := do
  let cs := dropMark text.toList
  let g ← given? (cs.length + 1) ⟨none, none, none, none⟩ cs
  some
    { compiler := g.compiler.getD builtIn.compiler
      client := g.client.getD builtIn.client
      caller := g.caller.getD builtIn.caller
      clientArgs := g.clientArgs.getD builtIn.clientArgs }

end Retrace.Settings
