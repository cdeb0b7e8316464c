import Retrace.Console.Command
import Retrace.Session
import Retrace.Text.Quoted

/-!
# Instructions of a session

What a user types while a run is debugged: a word, or its first letters, and its arguments. An empty
line is a step.
-/

namespace Retrace.Console

open Retrace.Text

inductive Instruction where
  | next
  | previous
  | continue_
  | reverseContinue
  | break_ (lines : List UInt32)
  /-- Shows the variables of a scope, or of all. -/
  | inspect (scope : Option Scope)
  | evaluate (name : String)
  | frame
  | step
  | gas
  | restart
  | help
  | quit
deriving DecidableEq, Repr

namespace Instruction

/-- Reads line numbers; they have no minus sign. -/
def lines? : List String → Except String (List UInt32)
  | [] => .ok []
  | w :: ws =>
    match if w.startsWith "-" then none else line? w with
    | some line => (lines? ws).map (line :: ·)
    | none => .error ("invalid line number " ++ Quoted.quote w)

/-- Ends with an instruction that takes no more words. -/
def alone (i : Instruction) : List String → Except String Instruction
  | [] => .ok i
  | w :: _ => .error ("unexpected argument " ++ Quoted.quote w)

def ofWords : List String → Except String Instruction
  | [] => .ok .next
  | w :: ws =>
    if w = "n" ∨ w = "next" then alone .next ws
    else if w = "p" ∨ w = "prev" then alone .previous ws
    else if w = "c" ∨ w = "continue" then alone .continue_ ws
    else if w = "rc" then alone .reverseContinue ws
    else if w = "b" ∨ w = "break" then (lines? ws).map .break_
    else if w = "v" ∨ w = "vars" then
      match ws with
      | [] => .ok (.inspect none)
      | name :: ws =>
        match Scope.ofName? name with
        | some scope => alone (.inspect (some scope)) ws
        | none => .error ("unknown scope " ++ Quoted.quote name)
    else if w = "e" ∨ w = "eval" then
      match ws with
      | [] => .error "missing variable name"
      | name :: ws => alone (.evaluate name) ws
    else if w = "f" ∨ w = "frame" then alone .frame ws
    else if w = "s" ∨ w = "step" then alone .step ws
    else if w = "g" ∨ w = "gas" then alone .gas ws
    else if w = "r" ∨ w = "restart" then alone .restart ws
    else if w = "h" ∨ w = "help" then alone .help ws
    else if w = "q" ∨ w = "quit" then alone .quit ws
    else .error ("unknown command " ++ Quoted.quote w ++ ", type `h` for help")

def ofLine (line : String) : Except String Instruction :=
  ofWords ((words line.toList).map String.ofList)

def helpText : String := String.intercalate "\n"
  ["n, next            step forward (also an empty line)",
    "p, prev            step backward",
    "c, continue        run to the next breakpoint",
    "rc                 run back to the previous breakpoint",
    "b, break <LINE>..  replace the breakpoints",
    "v, vars [SCOPE]    show variables (storage, inputs, locals, constants)",
    "e, eval <NAME>     show the current value of a variable",
    "f, frame           show the current position",
    "s, step            show the current step",
    "g, gas             show the gas spent per line",
    "r, restart         run the call again",
    "q, quit            exit"]

end Instruction
end Retrace.Console
