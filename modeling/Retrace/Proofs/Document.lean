import Retrace.Document.Encoding
import Retrace.Proofs.Json.Written

/-!
# Documents as they are written

Every record of a debug document reads back from the JSON that is written of it, and only the
contract may nest deeply.
-/

namespace Retrace

open Json

/-! ## Parts of records -/

namespace Json

theorem mapM_map {α : Type} {read : Json → Option α} {write : α → Json}
    (h : ∀ x, read (write x) = some x) (xs : List α) : (xs.map write).mapM read = some xs := by
  induction xs with
  | nil => rfl
  | cons x xs ih => simp [h, ih]

theorem list?_map {α : Type} {read : Json → Option α} {write : α → Json}
    (h : ∀ x, read (write x) = some x) (xs : List α) : list? read (.arr (xs.map write)) = some xs :=
  mapM_map h xs

@[simp] theorem optional?_none {α : Type} (read : Json → Option α) : optional? read none = some none := rfl

theorem optional?_some {α : Type} {read : Json → Option α} {j : Json} {x : α} (h : read j = some x)
    (hnull : read .null = none) : optional? read (some j) = some (some x) := by
  cases j with
  | null => simp [hnull] at h
  | _ => simp [optional?, h]

theorem string?_str (s : String) : string? (.str s) = some s := rfl

theorem word?_toNat (x : UInt32) : word? 32 (.int x.toNat) = some x.toNat := by
  have hlt : x.toNat < Nat.pow 2 32 := x.toNat_lt
  exact if_pos hlt

end Json

/-! ## Reading back -/

theorem Position.ofJson?_toJson (p : Position) : ofJson? p.toJson = some p := by
  simp [ofJson?, toJson, fields?, memberOnce?, valuesOf, required?, word?_toNat]

theorem SourceRange.ofJson?_toJson (r : SourceRange) : ofJson? r.toJson = some r := by
  simp [ofJson?, toJson, ofJsonNamed?, toJsonNamed, fields?, memberOnce?, valuesOf, required?, string?,
    Position.ofJson?_toJson]

theorem SourceRange.ofJsonNamed?_toJsonNamed (r : SourceRange) :
    ofJsonNamed? "begin_" "end_" (r.toJsonNamed "begin_" "end_") = some r := by
  simp [ofJsonNamed?, toJsonNamed, fields?, memberOnce?, valuesOf, required?, string?,
    Position.ofJson?_toJson]

theorem Side.ofJson?_toJson (s : Side) : ofJson? s.toJson = some s := by
  cases s <;> rfl

theorem Boundary.ofJson?_toJson (b : Boundary) : ofJson? b.toJson = some b := by
  simp [ofJson?, toJson, fields?, memberOnce?, valuesOf, required?, string?, Side.ofJson?_toJson]

theorem DebugInfo.slot?_slot (name : String) : slot? (slot name) = some name := by
  simp [slot?, slot, fields?, memberOnce?, valuesOf, required?, string?]

theorem DebugInfo.ofJson?_toJson (a : DebugInfo) : ofJson? a.toJson = some a := by
  have hrange (r : SourceRange) := optional?_some r.ofJson?_toJson rfl
  have hboundary (b : Boundary) := optional?_some b.ofJson?_toJson rfl
  obtain ⟨names, range, boundary⟩ := a
  cases range <;> cases boundary <;>
    simp [ofJson?, toJson, fields?, memberOnce?, valuesOf, default?, member?, list?_map slot?_slot,
      hrange, hboundary]

namespace Micheline

mutual
theorem decode?_toJson : ∀ node : Micheline, decode? node.toJson = some node
  | .seq [] => by simp [toJson, toJsonAll, decode?]
  | .seq [x] => by simp [toJson, toJsonAll, decode?, decode?_toJson x]
  | .seq (x :: y :: rest) => by
    simp [toJson, toJsonAll, decode?, decode?_toJson x, decode?_toJson y, decodeAll?_toJsonAll rest]
  | .prim name args annots debug => by
    have hargs := decodeAll?_toJsonAll args
    have hannots := list?_map string?_str annots
    have hdebug (d : DebugInfo) := optional?_some d.ofJson?_toJson rfl
    cases args <;> cases annots <;> cases debug <;>
      simp_all [toJson, toJsonAll, decode?, memberList, member?, fields?, memberOnce?, valuesOf, ofParts?,
        required?, default?, string?, decodeArgsOf?, decodeArgs?]
  | .int digits => by
    simp [toJson, decode?, fields?, memberOnce?, valuesOf, ofParts?, required?, string?, literal?]
  | .bytes digits => by
    simp [toJson, decode?, fields?, memberOnce?, valuesOf, ofParts?, required?, string?, literal?]
  | .string text => by
    simp [toJson, decode?, fields?, memberOnce?, valuesOf, ofParts?, required?, string?, literal?]

theorem decodeAll?_toJsonAll : ∀ nodes : List Micheline, decodeAll? (toJsonAll nodes) = some nodes
  | [] => rfl
  | x :: xs => by simp [toJsonAll, decodeAll?, decode?_toJson x, decodeAll?_toJsonAll xs]
end

end Micheline

theorem ArgumentDecl.ofJson?_toJson (a : ArgumentDecl) : ofJson? a.toJson = some a := by
  simp [ofJson?, toJson, fields?, memberOnce?, valuesOf, required?, string?]

theorem EntrypointDecl.ofJson?_toJson (e : EntrypointDecl) : ofJson? e.toJson = some e := by
  have hrange (r : SourceRange) := optional?_some r.ofJsonNamed?_toJsonNamed rfl
  obtain ⟨name, args, range⟩ := e
  cases range <;>
    simp [ofJson?, toJson, fields?, memberOnce?, valuesOf, required?, default?, member?, string?,
      list?_map ArgumentDecl.ofJson?_toJson, hrange]

theorem FieldDecl.ofJson?_toJson (f : FieldDecl) : ofJson? f.toJson = some f := by
  have hvalue (s : String) := optional?_some (string?_str s) rfl
  obtain ⟨name, type, value⟩ := f
  cases value <;>
    simp [ofJson?, toJson, fields?, memberOnce?, valuesOf, required?, member?, string?_str, hvalue]

theorem Interface.ofJson?_toJson (i : Interface) : ofJson? i.toJson = some i := by
  simp [ofJson?, toJson, fields?, memberOnce?, valuesOf, default?,
    list?_map EntrypointDecl.ofJson?_toJson, list?_map FieldDecl.ofJson?_toJson]

/-! ## Whole numbers and texts only -/

namespace Json

theorem plain_str (s : String) : (Json.str s).Plain := trivial

theorem allPlain_map {α : Type} {write : α → Json} (h : ∀ x, (write x).Plain) (xs : List α) :
    AllPlain (xs.map write) := by
  induction xs with
  | nil => trivial
  | cons x xs ih => exact ⟨h x, ih⟩

theorem membersPlain_append (ms ns : List (String × Json)) :
    MembersPlain (ms ++ ns) ↔ MembersPlain ms ∧ MembersPlain ns := by
  induction ms with
  | nil => simp [MembersPlain]
  | cons m ms ih => simp [MembersPlain, ih, and_assoc]

theorem membersPlain_member? {α : Type} {write : α → Json} (h : ∀ x, (write x).Plain) (name : String)
    (x : Option α) : MembersPlain (member? name write x) := by
  cases x with
  | none => trivial
  | some x => exact ⟨h x, trivial⟩

theorem membersPlain_memberList {α : Type} {write : α → Json} (h : ∀ x, (write x).Plain) (name : String)
    (xs : List α) : MembersPlain (memberList name write xs) := by
  cases xs with
  | nil => trivial
  | cons x xs => exact ⟨allPlain_map h (x :: xs), trivial⟩

theorem isWord_toNat (x : UInt32) : IsWord x.toNat := by
  have hlt : x.toNat < 2 ^ 32 := x.toNat_lt
  constructor
  · have : (0 : Int) ≤ Nat.pow 2 63 := by decide
    omega
  · have : (2 ^ 32 : Int) ≤ Nat.pow 2 64 := by decide
    omega

end Json

theorem Position.plain_toJson (p : Position) : p.toJson.Plain :=
  ⟨isWord_toNat _, isWord_toNat _, isWord_toNat _, trivial⟩

theorem SourceRange.plain_toJsonNamed (start stop : String) (r : SourceRange) :
    (r.toJsonNamed start stop).Plain :=
  ⟨trivial, r.start.plain_toJson, r.stop.plain_toJson, trivial⟩

theorem DebugInfo.plain_toJson (a : DebugInfo) : a.toJson.Plain := by
  have hslot (name : String) : (slot name).Plain := ⟨trivial, trivial⟩
  have hboundary (b : Boundary) : b.toJson.Plain := ⟨trivial, trivial, trivial, trivial⟩
  simp only [toJson, Plain, membersPlain_append]
  refine ⟨⟨⟨allPlain_map hslot _, trivial⟩, ?_⟩, membersPlain_member? hboundary _ _⟩
  exact membersPlain_member? (SourceRange.plain_toJsonNamed "begin" "end") _ _

mutual
theorem Micheline.plain_toJson : ∀ node : Micheline, node.toJson.Plain
  | .seq items => Micheline.plain_toJsonAll items
  | .prim name args annots debug => by
    have hargs := Micheline.plain_toJsonAll args
    simp only [toJson, Plain, membersPlain_append]
    refine ⟨⟨⟨⟨trivial, trivial⟩, ?_⟩, membersPlain_memberList plain_str _ _⟩,
      membersPlain_member? DebugInfo.plain_toJson _ _⟩
    split
    · trivial
    · exact ⟨hargs, trivial⟩
  | .int _ | .bytes _ | .string _ => ⟨trivial, trivial⟩

theorem Micheline.plain_toJsonAll : ∀ nodes : List Micheline, AllPlain (toJsonAll nodes)
  | [] => trivial
  | x :: xs => ⟨Micheline.plain_toJson x, Micheline.plain_toJsonAll xs⟩
end

theorem Interface.plain_toJson (i : Interface) : i.toJson.Plain := by
  have hargument (a : ArgumentDecl) : a.toJson.Plain := ⟨trivial, trivial, trivial⟩
  have hentrypoint (e : EntrypointDecl) : e.toJson.Plain := by
    simp only [EntrypointDecl.toJson, Plain, membersPlain_append]
    exact ⟨⟨trivial, allPlain_map hargument _, trivial⟩,
      membersPlain_member? (SourceRange.plain_toJsonNamed "begin_" "end_") _ _⟩
  have hfield (f : FieldDecl) : f.toJson.Plain := by
    simp only [FieldDecl.toJson, Plain, membersPlain_append]
    exact ⟨⟨trivial, trivial, trivial⟩, membersPlain_member? plain_str _ _⟩
  exact ⟨allPlain_map hentrypoint _, allPlain_map hfield _, allPlain_map hfield _, trivial⟩

theorem Document.plain_toJson (d : Document) : d.toJson.Plain := by
  simp only [toJson, Plain, membersPlain_append]
  exact ⟨⟨⟨trivial, trivial⟩, membersPlain_member? Interface.plain_toJson _ _⟩,
    d.contract.plain_toJson, trivial⟩

/-! ## Nesting -/

namespace Json

theorem nestingAll_map_le {α : Type} {write : α → Json} {n : Nat} (h : ∀ x, (write x).nesting ≤ n)
    (xs : List α) : nestingAll (xs.map write) ≤ n := by
  induction xs with
  | nil => exact Nat.zero_le n
  | cons x xs ih => exact Nat.max_le.mpr ⟨h x, ih⟩

theorem nestingMembers_append (ms ns : List (String × Json)) :
    nestingMembers (ms ++ ns) = max (nestingMembers ms) (nestingMembers ns) := by
  induction ms with
  | nil => simp [nestingMembers]
  | cons m ms ih => simp [nestingMembers, ih, Nat.max_assoc]

end Json

theorem EntrypointDecl.nesting_toJson_le (e : EntrypointDecl) : e.toJson.nesting ≤ 3 := by
  have hargs : nestingAll (e.args.map ArgumentDecl.toJson) ≤ 1 := nestingAll_map_le (fun _ => Nat.le_refl 1) _
  have hrange : nestingMembers (member? "range" (SourceRange.toJsonNamed "begin_" "end_") e.range) ≤ 2 := by
    cases e.range with
    | none => exact Nat.zero_le 2
    | some r => exact Nat.le_refl 2
  simp only [toJson, nesting, nestingMembers, nestingMembers_append]
  omega

theorem FieldDecl.nesting_toJson_le (f : FieldDecl) : f.toJson.nesting ≤ 1 := by
  obtain ⟨name, type, value⟩ := f
  cases value <;> exact Nat.le_refl 1

theorem Interface.nesting_toJson_le (i : Interface) : i.toJson.nesting ≤ 5 := by
  have hentrypoints := nestingAll_map_le EntrypointDecl.nesting_toJson_le i.entrypoints
  have hstorage := nestingAll_map_le FieldDecl.nesting_toJson_le i.storage
  have hconstants := nestingAll_map_le FieldDecl.nesting_toJson_le i.constants
  simp only [toJson, nesting, nestingMembers]
  omega

theorem Document.nesting_contract {d : Document} {room : Nat} (hroom : 6 ≤ room)
    (h : room < d.toJson.nesting) : room - 1 < d.contract.toJson.nesting := by
  have hinterface : nestingMembers (member? "interface" Interface.toJson d.interface?) ≤ 5 := by
    cases d.interface? with
    | none => exact Nat.zero_le 5
    | some i => simpa [member?, nestingMembers] using i.nesting_toJson_le
  simp only [toJson, nesting, nestingMembers, nestingMembers_append] at h
  omega

/-! ## Documents -/

theorem Document.ofJson?_toJson (d : Document) : ofJson? d.toJson = some d := by
  have hinterface (i : Interface) := optional?_some i.ofJson?_toJson rfl
  have hcontract : Micheline.ofJson? d.contract.toJson = some d.contract := by
    rw [Micheline.ofJson?, if_pos d.contract.plain_toJson.isWhole, Micheline.decode?_toJson]
  obtain ⟨name, interface, contract⟩ := d
  cases interface <;>
    simp [ofJson?, toJson, fields?, memberOnce?, valuesOf, required?, default?, member?, string?,
      hinterface, hcontract]

theorem Document.ofJson?_cut (d : Document) {room : Nat} (hroom : 6 ≤ room) :
    ofJson? (d.toJson.cut room) = if d.toJson.nesting ≤ room then some d else none := by
  split
  · rename_i h
    rw [cut_eq_self _ h, ofJson?_toJson]
  · rename_i h
    have hcontract : Micheline.ofJson? (d.contract.toJson.cut (room - 1)) = none := by
      rw [Micheline.ofJson?, isWhole_cut _ (nesting_contract hroom (Nat.lt_of_not_le h))]
      rfl
    have hopen : room ≠ 0 := by omega
    obtain ⟨name, interface, contract⟩ := d
    cases interface <;>
      simp [ofJson?, toJson, cut, cutMembers, within, hopen, fields?, memberOnce?, valuesOf, required?,
        default?, member?, string?, hcontract]

theorem Document.read?_write {d : Document} (h : d.toJson.nesting ≤ maxNesting) : read? d.write = some d := by
  rw [read?, write, ofString?_compact d.plain_toJson, Option.bind_some, cut_eq_self _ h, ofJson?_toJson]

/-- **A written document reads back**, each node as what it was and each absent part as absent, exactly if
it nests no deeper than what can be read. -/
theorem Document.read?_write_eq (d : Document) :
    read? d.write = if d.toJson.nesting ≤ maxNesting then some d else none := by
  split
  · rename_i h
    exact read?_write h
  · rename_i h
    rw [read?, write, ofString?_compact d.plain_toJson, Option.bind_some, d.ofJson?_cut (by decide), if_neg h]

end Retrace
