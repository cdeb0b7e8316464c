import Retrace.Json.Record
import Retrace.Micheline.Basic

/-!
# Contracts in JSON

A node has no tag. It is tried as a sequence, a primitive, an integer, bytes and a string, in this
order, and the first that fits is taken. Empty arguments and annotations and absent parts are left
out when a node is written.
-/

namespace Retrace

open Json

/-! ## Annotations -/

namespace Position

def ofJson? (j : Json) : Option Position :=
  match j.fields? ["line", "col", "char"] with
  | some [line, column, offset] => do
    let line ← required? (word? 32) line
    let column ← required? (word? 32) column
    let offset ← required? (word? 32) offset
    some ⟨.ofNat line, .ofNat column, .ofNat offset⟩
  | _ => none

def toJson (p : Position) : Json :=
  .obj [("line", .int p.line.toNat), ("col", .int p.column.toNat), ("char", .int p.offset.toNat)]

end Position

namespace SourceRange

/-- A range whose ends are named as given. -/
def ofJsonNamed? (start stop : String) (j : Json) : Option SourceRange :=
  match j.fields? ["name", start, stop] with
  | some [file, start, stop] => do
    let file ← required? string? file
    let start ← required? Position.ofJson? start
    let stop ← required? Position.ofJson? stop
    some ⟨file, start, stop⟩
  | _ => none

def toJsonNamed (start stop : String) (r : SourceRange) : Json :=
  .obj [("name", .str r.file), (start, r.start.toJson), (stop, r.stop.toJson)]

def ofJson? : Json → Option SourceRange := ofJsonNamed? "begin" "end"

def toJson : SourceRange → Json := toJsonNamed "begin" "end"

end SourceRange

namespace Side

def ofName? (name : String) : Option Side :=
  if name = "begin" then some .enter else if name = "end" then some .leave else none

def toName : Side → String
  | .enter => "begin"
  | .leave => "end"

/-- A side is a name, or an object with the name as its only key and a null. -/
def ofJson? : Json → Option Side
  | .str name => ofName? name
  | .obj [(name, .null)] => ofName? name
  | _ => none

def toJson (s : Side) : Json := .str s.toName

end Side

namespace Boundary

def ofJson? (j : Json) : Option Boundary :=
  match j.fields? ["kind", "name", "bound"] with
  | some [kind, name, side] => do
    let kind ← required? string? kind
    let name ← required? string? name
    let side ← required? Side.ofJson? side
    some ⟨kind, name, side⟩
  | _ => none

def toJson (b : Boundary) : Json :=
  .obj [("kind", .str b.kind), ("name", .str b.name), ("bound", b.side.toJson)]

end Boundary

namespace DebugInfo

/-- A slot is a record with a name only. -/
def slot? (j : Json) : Option String :=
  match j.fields? ["name"] with
  | some [name] => required? string? name
  | _ => none

def slot (name : String) : Json := .obj [("name", .str name)]

def ofJson? (j : Json) : Option DebugInfo :=
  match j.fields? ["stack", "range", "decl_bound"] with
  | some [names, range, boundary] => do
    let names ← default? (list? slot?) [] names
    let range ← optional? SourceRange.ofJson? range
    let boundary ← optional? Boundary.ofJson? boundary
    some ⟨names, range, boundary⟩
  | _ => none

def toJson (a : DebugInfo) : Json :=
  .obj ([("stack", .arr (a.names.map slot))] ++ member? "range" SourceRange.toJson a.range ++
    member? "decl_bound" Boundary.toJson a.boundary)

end DebugInfo

/-! ## Nodes -/

namespace Micheline

/-- A primitive from its fields, its arguments being read already. -/
def ofParts? (name : Option Json) (args : Option (List Micheline)) (annots debug : Option Json) :
    Option Micheline := do
  let name ← required? string? name
  let args ← args
  let annots ← default? (list? string?) [] annots
  let debug ← optional? DebugInfo.ofJson? debug
  some (.prim name args annots debug)

/-- A literal from an object with its only field. -/
def literal? (ms : List (String × Json)) : Option Micheline :=
  let field (name : String) : Option String := (memberOnce? ms name).bind (required? string?)
  ((field "int").map .int) <|> ((field "bytes").map .bytes) <|> ((field "string").map .string)

mutual
/-- Reads a node that has been kept whole. -/
def decode? : Json → Option Micheline
  | .arr [] => some (.seq [])
  | .arr [name] =>
    match decode? name with
    | some node => some (.seq [node])
    | none => ofParts? (some name) (some []) none none
  | .arr (name :: args :: rest) =>
    match decode? name, decode? args, decodeAll? rest with
    | some first, some second, some others => some (.seq (first :: second :: others))
    | _, _, _ =>
      match rest with
      | [] => ofParts? (some name) (decodeArgs? args) none none
      | [annots] => ofParts? (some name) (decodeArgs? args) (some annots) none
      | [annots, debug] => ofParts? (some name) (decodeArgs? args) (some annots) (some debug)
      | _ => none
  | .obj ms =>
    match Json.fields? ["prim", "args", "annots", "debug"] (.obj ms) with
    | some [name, _, annots, debug] => ofParts? name (decodeArgsOf? ms) annots debug <|> literal? ms
    | _ => literal? ms
  | _ => none

def decodeAll? : List Json → Option (List Micheline)
  | [] => some []
  | x :: xs =>
    match decode? x, decodeAll? xs with
    | some node, some nodes => some (node :: nodes)
    | _, _ => none

def decodeArgs? : Json → Option (List Micheline)
  | .arr xs => decodeAll? xs
  | _ => none

/-- Reads the arguments among the members of an object, none if there are none. -/
def decodeArgsOf? : List (String × Json) → Option (List Micheline)
  | [] => some []
  | (k, x) :: ms => if k = "args" then decodeArgs? x else decodeArgsOf? ms
end

def ofJson? (j : Json) : Option Micheline := if j.isWhole then decode? j else none

mutual
def toJson : Micheline → Json
  | .seq items => .arr (toJsonAll items)
  | .prim name args annots debug =>
    .obj ([("prim", .str name)] ++ (match toJsonAll args with | [] => [] | xs => [("args", .arr xs)]) ++
      memberList "annots" .str annots ++ member? "debug" DebugInfo.toJson debug)
  | .int digits => .obj [("int", .str digits)]
  | .bytes digits => .obj [("bytes", .str digits)]
  | .string text => .obj [("string", .str text)]

def toJsonAll : List Micheline → List Json
  | [] => []
  | x :: xs => x.toJson :: toJsonAll xs
end

end Micheline
end Retrace
