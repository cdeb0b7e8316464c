import Retrace.Text.Blank
import Retrace.Text.Pieces

/-!
# Constant parameters

The compiler leaves a placeholder in the code where a constant parameter is used. Values are put in
their place, one parameter after the other.
-/

namespace Retrace

open Retrace.Text

structure Constant where
  name : String
  value : String
deriving DecidableEq, Repr

namespace Constant

/-- What the compiler writes for the parameter. -/
def placeholder (c : Constant) : String := "const_" ++ c.name ++ "__"

/-- Whether a text is a sequence between braces. -/
def isBlock (text : List Char) : Bool := text.head? == some '\x7b' && text.getLast? == some '\x7d'

/-- The value as it is put into code: between parentheses if it has several words and is no
sequence. -/
def codeValue (c : Constant) : String :=
  let value := trim c.value.toList
  if !isBlock value && value.contains ' ' then String.ofList ('(' :: value ++ [')'])
  else String.ofList value

def put (code : String) (c : Constant) : String :=
  String.ofList (replace c.placeholder.toList c.codeValue.toList code.toList)

/-- Puts the values of all parameters into code, in their order. -/
def putAll (code : String) (constants : List Constant) : String := constants.foldl put code

end Constant
end Retrace
