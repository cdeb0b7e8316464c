import Retrace.Calendar
import Retrace.Json.Text
import Retrace.Text.Blank

/-!
# Arguments

A value that a user types is checked against the type its declaration names and written as a
Michelson literal. Types that are not known take any text.
-/

namespace Retrace

open Retrace.Text

/-- A rejected value: what was entered and the rule that it breaks. -/
structure InputError where
  field : String
  detail : String
deriving DecidableEq, Repr

def InputError.message (e : InputError) : String := "Invalid " ++ e.field ++ " value: " ++ e.detail

inductive ArgumentType where
  | nat
  | int
  | bool
  | string
  | bytes
  | address
  | timestamp
  /-- Any other type, whose values are taken as they are. -/
  | other (name : String)
deriving DecidableEq, Repr

namespace ArgumentType

def ofName (name : String) : ArgumentType :=
  let name := trimString name
  if name = "nat" then .nat
  else if name = "int" then .int
  else if name = "bool" then .bool
  else if name = "string" then .string
  else if name = "bytes" then .bytes
  else if name = "address" then .address
  else if name = "date" ∨ name = "timestamp" then .timestamp
  else .other name

def name : ArgumentType → String
  | .nat => "nat"
  | .int => "int"
  | .bool => "bool"
  | .string => "string"
  | .bytes => "bytes"
  | .address => "address"
  | .timestamp => "timestamp"
  | .other name => name

end ArgumentType

inductive ArgumentValue where
  | integer (n : Int)
  | bool (b : Bool)
  /-- A text, without the quotes of a string and the mark of bytes. -/
  | text (s : String)
deriving DecidableEq, Repr

namespace ArgumentValue

def shown : ArgumentValue → String
  | .integer n => String.ofList (Decimal.ofInt n)
  | .bool true => "True"
  | .bool false => "False"
  | .text s => s

end ArgumentValue

/-! ## Scalars -/

namespace Scalar

/-- The digits after an optional sign, and whether the sign is a minus. -/
def unsign : List Char → Bool × List Char
  | '-' :: ds => (true, ds)
  | '+' :: ds => (false, ds)
  | ds => (false, ds)

/-- Reads a decimal integer with an optional sign. -/
def integer? (text : List Char) : Option Int :=
  let (negative, ds) := unsign (trim text)
  (Decimal.read? ds).map fun n => if negative then -(n : Int) else n

def isNat (text : List Char) : Bool :=
  match integer? text with
  | some n => 0 ≤ n
  | none => false

/-- Implicit accounts start with `tz`, contracts with `KT`. -/
def isAddress (text : List Char) : Bool :=
  "tz".toList.isPrefixOf text || "KT".toList.isPrefixOf text

def unquote (text : List Char) : List Char :=
  match text with
  | '"' :: rest =>
    match rest.reverse with
    | '"' :: inner => inner.reverse
    | _ => text
  | _ => text

/-- Removes the mark of bytes. -/
def unmark : List Char → List Char
  | '0' :: 'x' :: ds => ds
  | ds => ds

/-- Whether a text is an even number of hexadecimal digits. One mark in front, of either case, is
passed over. -/
def isHex (text : List Char) : Bool :=
  let ds := match text with
    | '0' :: c :: ds => if c = 'x' ∨ c = 'X' then ds else text
    | _ => text
  ds.length % 2 == 0 && ds.all fun d => (Json.Text.hexValue? d).isSome

/-- Whether two texts are the same but for the case of ASCII letters. -/
def sameIgnoringCase (a b : List Char) : Bool := a.map Char.toLower == b.map Char.toLower

end Scalar

/-! ## Checking a value -/

namespace ArgumentType

open Scalar

/-- Checks a text against a type. The error is the rule that the text breaks. -/
def check (type : ArgumentType) (text : List Char) : Except String ArgumentValue :=
  match type with
  | .nat =>
    match integer? text with
    | some n => if 0 ≤ n then .ok (.integer n) else .error "a nat value is expected"
    | none => .error "a nat value is expected"
  | .int =>
    match integer? text with
    | some n => .ok (.integer n)
    | none => .error "an integer value is expected"
  | .address =>
    if isAddress text then .ok (.text (String.ofList text)) else .error "an address value is expected"
  | .timestamp =>
    if (DateTime.read? text).isSome then .ok (.text (String.ofList text))
    else .error "a date value 'YYYY-MM-DD dd:mm:ss' is expected"
  | .string =>
    let inner := unquote text
    if inner.all (·.toNat < 128) then .ok (.text (String.ofList inner))
    else .error "a string with non extended ASCII characters is expected"
  | .bool =>
    if sameIgnoringCase (trim text) "true".toList then .ok (.bool true)
    else if sameIgnoringCase (trim text) "false".toList then .ok (.bool false)
    else .error "a boolean value 'True' or 'False' is expected"
  | .bytes =>
    let digits := unmark (unquote (trim text))
    if isHex digits then .ok (.text (String.ofList (digits.map Char.toLower)))
    else .error "a hexadecimal bytes value is expected"
  | .other _ => .ok (.text (String.ofList text))

end ArgumentType

/-- A named, typed and checked value: an entrypoint argument or a storage field. -/
structure Argument where
  name : String
  type : ArgumentType
  value : ArgumentValue
deriving DecidableEq, Repr

namespace Argument

def make (name text : String) (type : ArgumentType) : Except InputError Argument :=
  match type.check text.toList with
  | .ok value => .ok ⟨name, type, value⟩
  | .error detail => .error ⟨"argument", detail⟩

def michelson (a : Argument) : String :=
  match a.type with
  | .string | .address => "\"" ++ a.value.shown ++ "\""
  | .bytes => "0x" ++ a.value.shown
  | _ => a.value.shown

def describe (a : Argument) : String := a.name ++ ": " ++ a.type.name ++ " = " ++ a.value.shown

end Argument
end Retrace
