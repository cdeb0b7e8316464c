import Retrace.Micheline.Basic

/-!
# Debug documents

What the compiler tells about a contract: its name, its declared interface and its annotated code.
-/

namespace Retrace

structure ArgumentDecl where
  name : String
  type : String
deriving DecidableEq, Repr

structure EntrypointDecl where
  name : String
  args : List ArgumentDecl
  range : Option SourceRange
deriving DecidableEq, Repr

/-- A storage field or a constant parameter. -/
structure FieldDecl where
  name : String
  type : String
  /-- The declared initial value, as a Michelson literal. -/
  value : Option String
deriving DecidableEq, Repr

/-- The declared surface of a contract. -/
structure Interface where
  entrypoints : List EntrypointDecl
  storage : List FieldDecl
  constants : List FieldDecl
deriving DecidableEq, Repr

structure Document where
  name : String
  interface? : Option Interface
  contract : Micheline

namespace Document

instance : Inhabited Document := ⟨⟨"", none, default⟩⟩

/-- The interface, empty if none is declared. -/
def interface (d : Document) : Interface := d.interface?.getD ⟨[], [], []⟩

/-- The first entrypoint of a name. -/
def entrypoint? (d : Document) (name : String) : Option EntrypointDecl :=
  d.interface.entrypoints.find? (·.name = name)

def storageNames (d : Document) : List String := d.interface.storage.map (·.name)

/-- The argument names of an entrypoint, none if it is not declared. -/
def inputNames (d : Document) (entrypoint : String) : List String :=
  match d.entrypoint? entrypoint with
  | some e => e.args.map (·.name)
  | none => []

end Document
end Retrace
