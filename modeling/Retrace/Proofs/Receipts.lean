import Retrace.Proofs.Document
import Retrace.Proofs.Json.Members
import Retrace.Receipt

/-!
# Receipts as they are written

A receipt reads back from what is written of it, whatever the order of its members and whatever other
members stand among them.
-/

namespace Retrace

open Json

/-! ## Receipts that can be kept -/

/-- The free values of an effect are as they are kept. -/
def Effect.Kept : Effect → Prop
  | .transaction _ _ parameters => ∀ p ∈ parameters, p.value.Kept
  | .event type payload => type.Kept ∧ payload.Kept
  | .delegation _ => True
  | .origination _ code storage => code.Kept ∧ storage.Kept

def Receipt.commonKeys : List String := ["kind", "source", "nonce"]

theorem Parameters.ofJson?_toJson {p : Parameters} (h : p.value.Kept) : ofJson? p.toJson = some p := by
  simp [ofJson?, toJson, fields?, memberOnce?, valuesOf, required?, string?, h.free?]

theorem Effect.exists_fields {e : Effect} (h : e.Kept) :
    ∃ names fields, fieldsOf? e.kind = some names ∧ fields? names (.obj e.members) = some fields ∧
      ofFields? e.kind fields = some e ∧ (∀ m ∈ e.members, m.1 ∈ names) ∧
      ∀ name ∈ names, name ∉ Receipt.commonKeys := by
  cases e with
  | transaction amount destination parameters =>
    refine ⟨_, [some (.str amount), some (.str destination), parameters.map Parameters.toJson], rfl, ?_⟩
    cases parameters with
    | none =>
      simp [members, member?, fields?, memberOnce?, valuesOf, ofFields?, required?, string?,
        Receipt.commonKeys]
    | some p =>
      have hparameters := optional?_some (Parameters.ofJson?_toJson (h p rfl)) rfl
      simp [members, member?, fields?, memberOnce?, valuesOf, ofFields?, required?, string?, hparameters,
        Receipt.commonKeys]
  | event type payload =>
    refine ⟨_, [some type, some payload], rfl, ?_⟩
    simp [members, fields?, memberOnce?, valuesOf, ofFields?, required?, kind, h.1.free?, h.2.free?,
      Receipt.commonKeys]
  | delegation delegate =>
    cases delegate with
    | none =>
      refine ⟨_, [some .null], rfl, ?_⟩
      simp [members, fields?, memberOnce?, valuesOf, ofFields?, optional?, Receipt.commonKeys]
    | some d =>
      refine ⟨_, [some (.str d)], rfl, ?_⟩
      simp [members, fields?, memberOnce?, valuesOf, ofFields?, optional?, string?, Receipt.commonKeys]
  | origination balance code storage =>
    refine ⟨_, [some (.str balance), some (.obj [("code", code), ("storage", storage)])], rfl, ?_⟩
    simp [members, fields?, memberOnce?, valuesOf, ofFields?, required?, script?, string?, kind, h.1.free?,
      h.2.free?, Receipt.commonKeys]

theorem Effect.membersPlain_members {e : Effect} (h : e.Kept) : MembersPlain e.members := by
  cases e with
  | transaction amount destination parameters =>
    cases parameters with
    | none => exact ⟨trivial, trivial, trivial⟩
    | some p => exact ⟨trivial, trivial, ⟨trivial, (h p rfl).1, trivial⟩, trivial⟩
  | event type payload => exact ⟨h.1.1, h.2.1, trivial⟩
  | delegation delegate => cases delegate <;> exact ⟨trivial, trivial⟩
  | origination balance code storage => exact ⟨trivial, ⟨h.1.1, h.2.1, trivial⟩, trivial⟩

namespace Receipt

def common (r : Receipt) : List (String × Json) :=
  [("kind", .str r.effect.kind), ("source", .str r.source), ("nonce", .int r.nonce.toNat)]

def members (r : Receipt) : List (String × Json) := r.common ++ r.effect.members

/-- The names that mean something in a receipt of its kind. -/
def knownKeys (r : Receipt) : List String :=
  commonKeys ++ (Effect.fieldsOf? r.effect.kind).getD []

/-- A text or a whole number of 64 bits. -/
def Simple (j : Json) : Prop := (∃ s, j = .str s) ∨ ∃ n, IsWord n ∧ j = .int n

/-- The members of a receipt in any order, with members of unknown names among them. -/
def Reordered (r : Receipt) (ms : List (String × Json)) : Prop :=
  ∃ unknown, (∀ m ∈ unknown, m.1 ∉ r.knownKeys ∧ Simple m.2) ∧ ms.Perm (r.members ++ unknown)

theorem reordered_members (r : Receipt) : r.Reordered r.members :=
  ⟨[], by simp, by simp⟩

theorem nonce_lt (r : Receipt) : r.nonce.toNat < Nat.pow 2 64 := r.nonce.toNat_lt

theorem membersPlain_common (r : Receipt) : MembersPlain r.common := by
  refine ⟨trivial, trivial, ⟨?_, ?_⟩, trivial⟩
  · have hlow : (0 : Int) ≤ Nat.pow 2 63 := by decide
    omega
  · exact Int.ofNat_lt.mpr r.nonce_lt

theorem Simple.plain {j : Json} (h : Simple j) : j.Plain ∧ j.nesting = 0 := by
  rcases h with ⟨s, rfl⟩ | ⟨n, hn, rfl⟩
  · exact ⟨trivial, rfl⟩
  · exact ⟨hn, rfl⟩

theorem Reordered.plain {r : Receipt} {ms : List (String × Json)} (h : r.Reordered ms)
    (hkept : r.effect.Kept) : (Json.obj ms).Plain ∧ (Json.obj ms).nesting ≤ r.toJson.nesting := by
  obtain ⟨unknown, hunknown, hperm⟩ := h
  have hcommon := membersPlain_iff.mp r.membersPlain_common
  have heffect := membersPlain_iff.mp (Effect.membersPlain_members hkept)
  constructor
  · apply membersPlain_iff.mpr
    intro m hm
    rcases List.mem_append.mp (hperm.mem_iff.mp hm) with hm | hm
    · rcases List.mem_append.mp hm with hm | hm
      · exact hcommon m hm
      · exact heffect m hm
    · exact (hunknown m hm).2.plain.1
  · apply Nat.succ_le_succ
    apply nestingMembers_le_iff.mpr
    intro m hm
    rcases List.mem_append.mp (hperm.mem_iff.mp hm) with hm | hm
    · exact nestingMembers_le_iff.mp (Nat.le_refl _) m hm
    · -- A member of an unknown name is simple and adds no depth.
      rw [(hunknown m hm).2.plain.2]
      exact Nat.zero_le _

theorem Reordered.memberOnce? {r : Receipt} {ms : List (String × Json)} {names : List String}
    (h : r.Reordered ms) (hnames : Effect.fieldsOf? r.effect.kind = some names)
    (hkeys : ∀ m ∈ r.effect.members, m.1 ∈ names) (hapart : ∀ name ∈ names, name ∉ commonKeys) :
    (∀ name ∈ commonKeys, Json.memberOnce? ms name = Json.memberOnce? r.common name) ∧
      ∀ name ∈ names, Json.memberOnce? ms name = Json.memberOnce? r.effect.members name := by
  obtain ⟨unknown, hunknown, hperm⟩ := h
  have hknown : ∀ m ∈ unknown, m.1 ∉ commonKeys ∧ m.1 ∉ names := by
    intro m hm
    have hm := (hunknown m hm).1
    unfold knownKeys at hm
    rwa [hnames, Option.getD_some, List.mem_append, not_or] at hm
  constructor
  · intro name hname
    rw [memberOnce?_perm hperm, members, List.append_assoc, memberOnce?_append_of_not_mem]
    rintro m hm rfl
    rcases List.mem_append.mp hm with hm | hm
    · exact hapart _ (hkeys m hm) hname
    · exact (hknown m hm).1 hname
  · -- The members of the effect are brought to the front.
    intro name hname
    have hfront : ms.Perm (r.effect.members ++ (r.common ++ unknown)) := by
      apply hperm.trans
      rw [members, ← List.append_assoc]
      exact List.perm_append_comm.append_right unknown
    rw [memberOnce?_perm hfront, memberOnce?_append_of_not_mem]
    rintro m hm rfl
    rcases List.mem_append.mp hm with hm | hm
    · exact hapart _ hname (List.mem_map_of_mem hm)
    · exact (hknown m hm).2 hname

theorem Reordered.ofJson? {r : Receipt} {ms : List (String × Json)} (h : r.Reordered ms)
    (hkept : r.effect.Kept) : Receipt.ofJson? (.obj ms) = some r := by
  obtain ⟨names, fields, hnames, hfields, heffect, hkeys, hapart⟩ := Effect.exists_fields hkept
  obtain ⟨hcommon, hown⟩ := h.memberOnce? hnames hkeys hapart
  have hkind : Json.memberOnce? ms "kind" = some (some (.str r.effect.kind)) := hcommon "kind" (by decide)
  have hsource : Json.memberOnce? ms "source" = some (some (.str r.source)) := hcommon "source" (by decide)
  have hnonce : Json.memberOnce? ms "nonce" = some (some (.int r.nonce.toNat)) := hcommon "nonce" (by decide)
  have hmembers : fields? ("source" :: "nonce" :: names) (.obj (ms.filter (·.1 ≠ "kind"))) =
      some (some (.str r.source) :: some (.int r.nonce.toNat) :: fields) := by
    have hkept : ∀ name ∈ "source" :: "nonce" :: names, name ≠ "kind" := by
      rintro name hname rfl
      exact hapart "kind" (by simpa using hname) (by decide)
    have hnames : fields? names (.obj ms) = some fields := (fields?_congr hown).trans hfields
    rw [fields?_congr fun name hname => memberOnce?_filter_ne (hkept name hname) ms]
    unfold fields? at hnames ⊢
    simp only at hnames ⊢
    simp [hsource, hnonce, hnames]
  have hword : word? 64 (.int r.nonce.toNat) = some r.nonce.toNat := if_pos r.nonce_lt
  unfold Receipt.ofJson? ofKind?
  rw [if_pos (h.plain hkept).1.isWhole]
  simp only [hkind, hnames, hmembers, Option.bind_eq_bind, Option.bind_some, required?, string?, hword,
    heffect, UInt64.ofNat_toNat]

/-- **A receipt survives being written and read back**, also with its members in any other order and with
members of unknown names among them. -/
theorem read?_reordered {r : Receipt} (hkept : r.effect.Kept) (hnesting : r.toJson.nesting ≤ maxNesting) :
    read? r.write = some r ∧ ∀ ms, r.Reordered ms → read? (Json.obj ms).compact = some r := by
  have hany : ∀ ms, r.Reordered ms → read? (Json.obj ms).compact = some r := by
    intro ms hms
    obtain ⟨hplain, hdepth⟩ := hms.plain hkept
    unfold read?
    rw [ofString?_compact hplain, cut_eq_self _ (Nat.le_trans hdepth hnesting), Option.bind_some,
      hms.ofJson? hkept]
  exact ⟨hany r.members r.reordered_members, hany⟩

def payment : Receipt :=
  ⟨"KT1A", 18446744073709551615, .transaction "1000" "tz1B"
    (some ⟨"exec", .obj [("args", .arr [.int (-1), .int 18446744073709551615]), ("prim", .str "Left")]⟩)⟩

/-- Its members backwards, after two that mean nothing, one of them the name of another kind's field. -/
def shuffledPayment : List (String × Json) :=
  [("delegate", .str "tz1C"), ("level", .int (-9223372036854775808))] ++ payment.members.reverse

theorem read?_shuffledPayment :
    payment.effect.Kept ∧ payment.toJson.nesting ≤ maxNesting ∧ payment.Reordered shuffledPayment ∧
      read? payment.write = some payment ∧ read? (Json.obj shuffledPayment).compact = some payment := by
  have hkept : payment.effect.Kept := by
    intro p hp
    cases hp
    have hlow : IsWord (-1) := by constructor <;> decide
    have hhigh : IsWord 18446744073709551615 := by constructor <;> decide
    have hkeys : ["args", "prim"].Pairwise (· < ·) := by decide
    exact ⟨⟨⟨hlow, hhigh, trivial⟩, trivial, trivial⟩, hkeys, ⟨trivial, trivial, trivial⟩, trivial, trivial⟩
  have hnesting : payment.toJson.nesting ≤ maxNesting := by decide
  have hshuffled : payment.Reordered shuffledPayment := by
    have hlevel : IsWord (-9223372036854775808) := by constructor <;> decide
    refine ⟨[("delegate", .str "tz1C"), ("level", .int (-9223372036854775808))], ?_, ?_⟩
    · simp [knownKeys, commonKeys, Simple, payment, Effect.kind, Effect.fieldsOf?, hlevel]
    · exact List.perm_append_comm.trans ((List.reverse_perm _).append_right _)
  obtain ⟨hwritten, hany⟩ := read?_reordered hkept hnesting
  exact ⟨hkept, hnesting, hshuffled, hwritten, hany _ hshuffled⟩

end Receipt
end Retrace
