import Retrace.Argument
import Retrace.Michelson.Pair

/-!
# Calls and storages

An entrypoint call and an initial storage are lists of checked values, passed to the sandbox as one
Michelson value.
-/

namespace Retrace

def michelsonOf (args : List Argument) : String := Michelson.pair (args.map Argument.michelson)

def describeAll (args : List Argument) : String := String.intercalate ", " (args.map Argument.describe)

structure Call where
  entrypoint : String
  args : List Argument
deriving DecidableEq, Repr

namespace Call

def add (c : Call) (name text : String) (type : ArgumentType) : Except InputError Call :=
  (Argument.make name text type).map fun a => { c with args := c.args ++ [a] }

def names (c : Call) : List String := c.args.map (·.name)

def michelson (c : Call) : String := michelsonOf c.args

def describe (c : Call) : String := c.entrypoint ++ "(" ++ describeAll c.args ++ ")"

end Call

/-- An initial storage. An empty one stands for the storage that the compiler generates. -/
structure Storage where
  elements : List Argument
deriving DecidableEq, Repr

namespace Storage

def empty : Storage := ⟨[]⟩

def add (s : Storage) (name text : String) (type : ArgumentType) : Except InputError Storage :=
  (Argument.make name text type).map fun a => ⟨s.elements ++ [a]⟩

def names (s : Storage) : List String := s.elements.map (·.name)

def michelson (s : Storage) : String := michelsonOf s.elements

def describe (s : Storage) : String := "[" ++ describeAll s.elements ++ "]"

end Storage
end Retrace
