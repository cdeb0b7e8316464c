import Retrace.Call
import Retrace.Constant
import Retrace.Document.Basic
import Retrace.Environment

/-!
# Asking for values

Values that a run needs are asked for one by one. A question is asked again until its answer is
accepted; when no answer is left the user has cancelled. Answers are consumed from a list, and the
exchange is kept in order.
-/

namespace Retrace

open Retrace.Text

inductive Exchange where
  | asked (question : String)
  | refused (error : InputError)
deriving DecidableEq, Repr

/-- The answers still to come, and what passed so far, latest last. -/
structure Dialogue where
  answers : List String
  log : List Exchange
deriving DecidableEq, Repr

namespace Dialogue

def questions (d : Dialogue) : List String :=
  d.log.filterMap fun | .asked q => some q | .refused _ => none

def refusals (d : Dialogue) : List InputError :=
  d.log.filterMap fun | .asked _ => none | .refused e => some e

def note (d : Dialogue) (x : Exchange) : Dialogue := { d with log := d.log ++ [x] }

def ask (d : Dialogue) (question : String) : Option String × Dialogue :=
  match d.answers with
  | [] => (none, d.note (.asked question))
  | answer :: answers => (some answer, { answers, log := d.log ++ [.asked question] })

end Dialogue

/-- An accepted answer, and all answers given to its question, the accepted one last. -/
structure Accepted (α : Type) where
  value : α
  given : List String

/-- Asks a question until its answer passes a check. -/
def askUntil {α : Type} (question : String) (check : String → Except InputError α) :
    (answers : List String) → (log : List Exchange) → Option (Accepted α) × Dialogue
  | [], log => (none, ⟨[], log ++ [.asked question]⟩)
  | answer :: answers, log =>
    match check answer with
    | .ok value => (some ⟨value, [answer]⟩, ⟨answers, log ++ [.asked question]⟩)
    | .error e =>
      match askUntil question check answers (log ++ [.asked question, .refused e]) with
      | (some a, d) => (some { a with given := answer :: a.given }, d)
      | (none, d) => (none, d)

namespace Dialogue

def collect {α : Type} (d : Dialogue) (question : String) (check : String → Except InputError α) :
    Option (Accepted α) × Dialogue :=
  askUntil question check d.answers d.log

/-! ## Entrypoints -/

def argumentQuestion (entrypoint : String) (arg : ArgumentDecl) : String :=
  "Value of argument '" ++ arg.name ++ "' (" ++ (ArgumentType.ofName arg.type).name ++ ") of '" ++
    entrypoint ++ "'"

def collectArguments (call : Call) : Dialogue → List ArgumentDecl → Option Call × Dialogue
  | d, [] => (some call, d)
  | d, arg :: args =>
    match d.collect (argumentQuestion call.entrypoint arg)
        (fun text => call.add arg.name text (ArgumentType.ofName arg.type)) with
    | (some a, d) => collectArguments a.value d args
    | (none, d) => (none, d)

def collectCall (d : Dialogue) (decl : EntrypointDecl) : Option Call × Dialogue :=
  collectArguments ⟨decl.name, []⟩ d decl.args

/-! ## Fields with defaults -/

/-- A question about a field, showing its default. -/
def fieldQuestion (what : String) (field : FieldDecl) : String :=
  what ++ " '" ++ field.name ++ "' (" ++ (ArgumentType.ofName field.type).name ++ ")" ++
    match field.value with
    | some default => " [" ++ default ++ "]"
    | none => ""

/-- Whether an answer leaves a field at its default: it is blank, and there is a default. -/
def keepsDefault (field : FieldDecl) (answer : String) : Bool :=
  field.value.isSome && allBlank answer.toList

def fieldText (field : FieldDecl) (answer : String) : String :=
  if allBlank answer.toList then field.value.getD answer else answer

def collectConstantsFrom (done : List Constant) :
    Dialogue → List FieldDecl → Option (List Constant) × Dialogue
  | d, [] => (some done, d)
  | d, field :: fields =>
    match d.collect (fieldQuestion "Value of constant" field)
        (fun answer =>
          Argument.make field.name (fieldText field answer) (ArgumentType.ofName field.type)) with
    | (some a, d) => collectConstantsFrom (done ++ [⟨field.name, a.value.michelson⟩]) d fields
    | (none, d) => (none, d)

/-- Asks for every constant parameter. A blank answer keeps the declared default. -/
def collectConstants (d : Dialogue) (fields : List FieldDecl) : Option (List Constant) × Dialogue :=
  collectConstantsFrom [] d fields

/-- Asks for storage fields, one after the other. `edited` tells whether an answer so far, refused
ones included, did not keep a default. -/
def collectStorageFrom (storage : Storage) (edited : Bool) :
    Dialogue → List FieldDecl → Option Storage × Dialogue
  | d, [] => (some (if edited then storage else .empty), d)
  | d, field :: fields =>
    match d.collect (fieldQuestion "Initial value of storage" field)
        (fun answer =>
          storage.add field.name (fieldText field answer) (ArgumentType.ofName field.type)) with
    | (some a, d) => collectStorageFrom a.value (edited || a.given.any (!keepsDefault field ·)) d fields
    | (none, d) => (none, d)

/-- Asks for the initial value of every storage field. If every answer keeps a default the storage
is empty, and the run starts from the one that the compiler generates. -/
def collectStorage (d : Dialogue) (fields : List FieldDecl) : Option Storage × Dialogue :=
  collectStorageFrom .empty false d fields

/-! ## Environments -/

/-- Asks for environment values, one after the other. The environment is returned also if the user
cancels, with the values accepted so far. -/
def collectFields (env : Environment) : Dialogue → List EnvironmentField → Bool × Environment × Dialogue
  | d, [] => (true, env, d)
  | d, field :: fields =>
    match d.collect ("Value of '" ++ field.name ++ "' [" ++ env.get field ++ "]")
        (fun answer => if allBlank answer.toList then .ok env else env.set field answer) with
    | (some a, d) => collectFields a.value d fields
    | (none, d) => (false, env, d)

/-- Lets the user change an environment. A blank answer keeps a value. -/
def collectEnvironment (d : Dialogue) (env : Environment) : Bool × Environment × Dialogue :=
  collectFields env d EnvironmentField.all

end Dialogue
end Retrace
