import Retrace.Json.Record
import Retrace.Json.Writer

/-!
# Operation receipts

The operations that a contract call emits. The kind of an operation stands among its members, or
first in an array of its fields. What a receipt holds is kept whole, also the members that are not
used.
-/

namespace Retrace

open Json

structure Parameters where
  entrypoint : String
  value : Json

inductive Effect where
  | transaction (amount destination : String) (parameters : Option Parameters)
  | event (type payload : Json)
  /-- Without delegate, a delegation is withdrawn. -/
  | delegation (delegate : Option String)
  | origination (balance : String) (code storage : Json)

structure Receipt where
  source : String
  nonce : UInt64
  effect : Effect

namespace Parameters

def ofJson? (j : Json) : Option Parameters :=
  match j.fields? ["entrypoint", "value"] with
  | some [entrypoint, value] => do
    let entrypoint ← required? string? entrypoint
    let value ← required? free? value
    some ⟨entrypoint, value⟩
  | _ => none

def toJson (p : Parameters) : Json := .obj [("entrypoint", .str p.entrypoint), ("value", p.value)]

end Parameters

namespace Effect

def kind : Effect → String
  | .transaction .. => "transaction"
  | .event .. => "event"
  | .delegation .. => "delegation"
  | .origination .. => "origination"

/-- The fields of an operation of a kind after its source and nonce. -/
def fieldsOf? (kind : String) : Option (List String) :=
  if kind = "transaction" then some ["amount", "destination", "parameters"]
  else if kind = "event" then some ["type", "payload"]
  else if kind = "delegation" then some ["delegate"]
  else if kind = "origination" then some ["balance", "script"]
  else none

/-- The code and storage of a new contract. -/
def script? (j : Json) : Option (Json × Json) :=
  match j.fields? ["code", "storage"] with
  | some [code, storage] => do
    let code ← required? free? code
    let storage ← required? free? storage
    some (code, storage)
  | _ => none

def ofFields? (kind : String) : List (Option Json) → Option Effect
  | [amount, destination, parameters] => do
    let amount ← required? string? amount
    let destination ← required? string? destination
    let parameters ← optional? Parameters.ofJson? parameters
    some (.transaction amount destination parameters)
  | [first, second] =>
    if kind = "event" then do
      let type ← required? free? first
      let payload ← required? free? second
      some (.event type payload)
    else do
      let balance ← required? string? first
      let (code, storage) ← required? script? second
      some (.origination balance code storage)
  | [delegate] => (optional? string? delegate).map .delegation
  | _ => none

def members : Effect → List (String × Json)
  | .transaction amount destination parameters =>
    [("amount", .str amount), ("destination", .str destination)] ++
      member? "parameters" Parameters.toJson parameters
  | .event type payload => [("type", type), ("payload", payload)]
  | .delegation delegate =>
    [("delegate", match delegate with | some d => .str d | none => .null)]
  | .origination balance code storage =>
    [("balance", .str balance), ("script", .obj [("code", code), ("storage", storage)])]

def describe : Effect → String
  | .transaction amount destination parameters =>
    "transaction of " ++ amount ++ " to " ++ destination ++
      match parameters with
      | some p => " (%" ++ p.entrypoint ++ " " ++ p.value.compact ++ ")"
      | none => ""
  | .event type payload => "event " ++ type.compact ++ ": " ++ payload.compact
  | .delegation (some delegate) => "delegation to " ++ delegate
  | .delegation none => "delegation withdrawal"
  | .origination balance _ _ => "origination with balance " ++ balance

end Effect

namespace Receipt

def ofKind? (kind : String) (j : Json) : Option Receipt := do
  let names ← Effect.fieldsOf? kind
  match ← j.fields? ("source" :: "nonce" :: names) with
  | source :: nonce :: rest =>
    let source ← required? string? source
    let nonce ← required? (word? 64) nonce
    let effect ← Effect.ofFields? kind rest
    some ⟨source, .ofNat nonce, effect⟩
  | _ => none

def ofJson? (j : Json) : Option Receipt :=
  if j.isWhole then
    match j with
    | .obj ms =>
      match memberOnce? ms "kind" with
      | some (some (.str kind)) => ofKind? kind (.obj (ms.filter (·.1 ≠ "kind")))
      | _ => none
    | .arr (.str kind :: xs) => ofKind? kind (.arr xs)
    | _ => none
  else none

def toJson (r : Receipt) : Json :=
  .obj ([("kind", .str r.effect.kind), ("source", .str r.source), ("nonce", .int r.nonce.toNat)] ++
    r.effect.members)

def read? (text : String) : Option Receipt := (Json.ofString? text).bind ofJson?

def readAll? (text : String) : Option (List Receipt) := (Json.ofString? text).bind (list? ofJson?)

def write (r : Receipt) : String := r.toJson.compact

def describe (r : Receipt) : String := r.effect.describe

end Receipt
end Retrace
