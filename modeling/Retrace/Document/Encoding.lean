import Retrace.Document.Basic
import Retrace.Json.Writer
import Retrace.Micheline.Encoding

/-! # Debug documents in JSON -/

namespace Retrace

open Json

namespace ArgumentDecl

def ofJson? (j : Json) : Option ArgumentDecl :=
  match j.fields? ["name", "type_"] with
  | some [name, type] => do
    let name ← required? string? name
    let type ← required? string? type
    some ⟨name, type⟩
  | _ => none

def toJson (a : ArgumentDecl) : Json := .obj [("name", .str a.name), ("type_", .str a.type)]

end ArgumentDecl

namespace EntrypointDecl

def ofJson? (j : Json) : Option EntrypointDecl :=
  match j.fields? ["name", "args", "range"] with
  | some [name, args, range] => do
    let name ← required? string? name
    let args ← default? (list? ArgumentDecl.ofJson?) [] args
    let range ← optional? (SourceRange.ofJsonNamed? "begin_" "end_") range
    some ⟨name, args, range⟩
  | _ => none

def toJson (e : EntrypointDecl) : Json :=
  .obj ([("name", .str e.name), ("args", .arr (e.args.map ArgumentDecl.toJson))] ++
    member? "range" (SourceRange.toJsonNamed "begin_" "end_") e.range)

end EntrypointDecl

namespace FieldDecl

def ofJson? (j : Json) : Option FieldDecl :=
  match j.fields? ["name", "type_", "value"] with
  | some [name, type, value] => do
    let name ← required? string? name
    let type ← required? string? type
    let value ← optional? string? value
    some ⟨name, type, value⟩
  | _ => none

def toJson (f : FieldDecl) : Json :=
  .obj ([("name", .str f.name), ("type_", .str f.type)] ++ member? "value" .str f.value)

end FieldDecl

namespace Interface

def ofJson? (j : Json) : Option Interface :=
  match j.fields? ["entrypoints", "storage", "const_params"] with
  | some [entrypoints, storage, constants] => do
    let entrypoints ← default? (list? EntrypointDecl.ofJson?) [] entrypoints
    let storage ← default? (list? FieldDecl.ofJson?) [] storage
    let constants ← default? (list? FieldDecl.ofJson?) [] constants
    some ⟨entrypoints, storage, constants⟩
  | _ => none

def toJson (i : Interface) : Json :=
  .obj [("entrypoints", .arr (i.entrypoints.map EntrypointDecl.toJson)),
    ("storage", .arr (i.storage.map FieldDecl.toJson)),
    ("const_params", .arr (i.constants.map FieldDecl.toJson))]

end Interface

namespace Document

def ofJson? (j : Json) : Option Document :=
  match j.fields? ["name", "interface", "contract"] with
  | some [name, interface, contract] => do
    let name ← default? string? "" name
    let interface ← optional? Interface.ofJson? interface
    let contract ← required? Micheline.ofJson? contract
    some ⟨name, interface, contract⟩
  | _ => none

def toJson (d : Document) : Json :=
  .obj ([("name", .str d.name)] ++ member? "interface" Interface.toJson d.interface? ++
    [("contract", d.contract.toJson)])

def read? (text : String) : Option Document := (Json.ofString? text).bind ofJson?

def write (d : Document) : String := d.toJson.compact

end Document
end Retrace
