import Retrace.Argument

/-!
# Environments

The values that a contract sees during a run. Every change is checked, so that an environment can
always be passed to the sandbox.
-/

namespace Retrace

open Retrace.Text

inductive EnvironmentField where
  | now
  | transferred
  | balance
  | level
  | caller
  | source
deriving DecidableEq, Repr

namespace EnvironmentField

def all : List EnvironmentField := [.now, .transferred, .balance, .level, .caller, .source]

def name : EnvironmentField → String
  | .now => "now"
  | .transferred => "transferred"
  | .balance => "balance"
  | .level => "level"
  | .caller => "caller"
  | .source => "source"

def ofName? (name : String) : Option EnvironmentField := all.find? (·.name = name)

end EnvironmentField

/-- The environment of a run. Amounts are in mutez. -/
structure Environment where
  now : String
  transferred : String
  balance : String
  level : String
  caller : String
  source : String
deriving DecidableEq, Repr

namespace Environment

/-- A call at a date with nothing transferred, the caller being its source too. -/
def make (now caller : String) : Environment := ⟨now, "0", "0", "1", caller, caller⟩

def get (e : Environment) : EnvironmentField → String
  | .now => e.now
  | .transferred => e.transferred
  | .balance => e.balance
  | .level => e.level
  | .caller => e.caller
  | .source => e.source

def put (e : Environment) (value : String) : EnvironmentField → Environment
  | .now => { e with now := value }
  | .transferred => { e with transferred := value }
  | .balance => { e with balance := value }
  | .level => { e with level := value }
  | .caller => { e with caller := value }
  | .source => { e with source := value }

/-- Whether a trimmed text is a value of a field. -/
def accepts (field : EnvironmentField) (text : List Char) : Bool :=
  match field with
  | .now => (DateTime.read? text).isSome
  | .transferred | .balance | .level => Scalar.isNat text
  | .caller | .source => Scalar.isAddress text

def rule : EnvironmentField → String
  | .now => "invalid date value (should not have milliseconds)"
  | .transferred => "should be a positive integer value"
  | .balance | .level => "should be a positive integer"
  | .caller | .source => "value is not a valid Tezos address"

/-- Sets a field to a text without the blanks around it. -/
def set (e : Environment) (field : EnvironmentField) (text : String) : Except InputError Environment :=
  let value := trim text.toList
  if accepts field value then .ok (e.put (String.ofList value) field)
  else .error ⟨field.name, rule field⟩

def constants (e : Environment) : List (String × String) :=
  EnvironmentField.all.map fun f => (f.name, e.get f)

/-! ## Passing it to the sandbox -/

/-- An amount of mutez as a decimal amount of tez, empty if it is no integer. Whole part and fraction
both keep a minus sign, the fraction after the zeros that fill it. -/
def tezOf (mutez : String) : String :=
  match Scalar.integer? mutez.toList with
  | none => ""
  | some m =>
    let whole := Decimal.ofInt (m.tdiv 1000000)
    match Decimal.dropZeros (Decimal.filled 6 (Decimal.ofInt (m.tmod 1000000))) with
    | [] => String.ofList whole
    | fraction => String.ofList (whole ++ '.' :: fraction)

/-- The seconds of the date, empty if it is no date. -/
def nowSeconds (e : Environment) : String :=
  match DateTime.secondsOf? e.now with
  | some s => String.ofList (Decimal.ofInt s)
  | none => ""

/-- The flags that give a run this environment. A flag without value is left out. -/
def flags (e : Environment) : List String :=
  ([("--amount", tezOf e.transferred), ("--balance", tezOf e.balance), ("--source", e.source),
    ("--payer", e.caller), ("--now", e.nowSeconds), ("--level", e.level)].filter (·.2 ≠ "")).flatMap
    fun (flag, value) => [flag, value]

end Environment
end Retrace
