import Retrace.Json.Record
import Retrace.Proofs.Json.Written

/-!
# Members in any order

The fields of a record do not depend on the order of its members, nor on the members of other names. A free
value whose keys are in order is kept as it is.
-/

namespace Retrace.Json

/-! ## Fields among members -/

theorem memberOnce?_perm {ms ns : List (String × Json)} (h : ms.Perm ns) (name : String) :
    memberOnce? ms name = memberOnce? ns name := by
  have hvalues : (valuesOf name ms).Perm (valuesOf name ns) := (h.filter _).map _
  unfold memberOnce?
  cases hms : valuesOf name ms with
  | nil =>
    rw [hms] at hvalues
    rw [hvalues.nil_eq]
  | cons x xs =>
    cases xs with
    | nil =>
      rw [hms] at hvalues
      rw [List.perm_singleton.mp hvalues.symm]
    | cons y ys =>
      have hlength := hvalues.length_eq
      rw [hms] at hlength
      cases hns : valuesOf name ns with
      | nil => simp [hns] at hlength
      | cons z zs =>
        cases zs with
        | nil => simp [hns] at hlength
        | cons => rfl

theorem memberOnce?_append_of_not_mem {ms unknown : List (String × Json)} {name : String}
    (h : ∀ m ∈ unknown, m.1 ≠ name) : memberOnce? (ms ++ unknown) name = memberOnce? ms name := by
  have hnone : valuesOf name unknown = [] := by
    simpa [valuesOf] using h
  have hvalues : valuesOf name (ms ++ unknown) = valuesOf name ms := by
    unfold valuesOf at hnone ⊢
    rw [List.filter_append, List.map_append, hnone, List.append_nil]
  unfold memberOnce?
  rw [hvalues]

theorem memberOnce?_filter_ne {name key : String} (h : name ≠ key) (ms : List (String × Json)) :
    memberOnce? (ms.filter (·.1 ≠ key)) name = memberOnce? ms name := by
  have hvalues : valuesOf name (ms.filter (·.1 ≠ key)) = valuesOf name ms := by
    unfold valuesOf
    rw [List.filter_filter]
    congr 1
    apply List.filter_congr
    intro m hm
    by_cases hname : m.1 = name
    · simp [hname, h]
    · simp [hname]
  unfold memberOnce?
  rw [hvalues]

theorem fields?_congr {ms ns : List (String × Json)} {names : List String}
    (h : ∀ name ∈ names, memberOnce? ms name = memberOnce? ns name) :
    fields? names (.obj ms) = fields? names (.obj ns) := by
  unfold fields?
  simp only
  induction names with
  | nil => rfl
  | cons name names ih =>
    obtain ⟨hname, hnames⟩ := List.forall_mem_cons.mp h
    rw [List.mapM_cons, List.mapM_cons, hname, ih hnames]

theorem membersPlain_iff {ms : List (String × Json)} : MembersPlain ms ↔ ∀ m ∈ ms, m.2.Plain := by
  induction ms with
  | nil => simp [MembersPlain]
  | cons m ms ih => simp [MembersPlain, ih]

theorem nestingMembers_le_iff {ms : List (String × Json)} {n : Nat} :
    nestingMembers ms ≤ n ↔ ∀ m ∈ ms, m.2.nesting ≤ n := by
  induction ms with
  | nil => simp [nestingMembers]
  | cons m ms ih => rw [nestingMembers, Nat.max_le, ih, List.forall_mem_cons]

/-! ## Free values -/

mutual
/-- The keys of every object are in order, and none is repeated. -/
def SortedKeys : Json → Prop
  | .arr xs => AllSortedKeys xs
  | .obj ms => (ms.map (·.1)).Pairwise (· < ·) ∧ MembersSortedKeys ms
  | .null | .bool _ | .int _ | .float _ | .str _ | .beyond => True

def AllSortedKeys : List Json → Prop
  | [] => True
  | x :: xs => x.SortedKeys ∧ AllSortedKeys xs

def MembersSortedKeys : List (String × Json) → Prop
  | [] => True
  | (_, x) :: ms => x.SortedKeys ∧ MembersSortedKeys ms
end

theorem setMember_of_lt {key : String} {value : Json} {done : List (String × Json)}
    (h : ∀ m ∈ done, m.1 < key) : setMember key value done = done ++ [(key, value)] := by
  induction done with
  | nil => rfl
  | cons m done ih =>
    obtain ⟨hm, hdone⟩ := List.forall_mem_cons.mp h
    unfold setMember
    rw [if_neg (String.lt_asymm hm), if_neg (fun heq => String.lt_irrefl _ (heq ▸ hm)), ih hdone, List.cons_append]

mutual
theorem SortedKeys.sorted_eq : ∀ {j : Json}, j.SortedKeys → j.sorted = j
  | .arr xs, h => by rw [sorted, AllSortedKeys.sortedAll_eq h]
  | .obj ms, h => by
    rw [sorted, MembersSortedKeys.sortedMembers_eq h.2 h.1 (by simp), List.nil_append]
  | .null, _ | .bool _, _ | .int _, _ | .float _, _ | .str _, _ | .beyond, _ => rfl

theorem AllSortedKeys.sortedAll_eq : ∀ {xs : List Json}, AllSortedKeys xs → sortedAll xs = xs
  | [], _ => rfl
  | x :: xs, h => by rw [sortedAll, SortedKeys.sorted_eq h.1, AllSortedKeys.sortedAll_eq h.2]

theorem MembersSortedKeys.sortedMembers_eq : ∀ {ms done : List (String × Json)}, MembersSortedKeys ms →
    (ms.map (·.1)).Pairwise (· < ·) → (∀ m ∈ done, ∀ k ∈ ms.map (·.1), m.1 < k) →
    sortedMembers done ms = done ++ ms
  | [], done, _, _, _ => by rw [sortedMembers, List.append_nil]
  | (k, x) :: ms, done, h, hkeys, hdone => by
    obtain ⟨hfirst, hrest⟩ := List.pairwise_cons.mp hkeys
    rw [sortedMembers, SortedKeys.sorted_eq h.1, setMember_of_lt fun m hm => hdone m hm k (by simp),
      MembersSortedKeys.sortedMembers_eq h.2 hrest, List.append_assoc]
    · rfl
    · intro m hm l hl
      rcases List.mem_append.mp hm with hm | hm
      · exact hdone m hm l (List.mem_cons_of_mem _ hl)
      · rw [List.mem_singleton.mp hm]
        exact hfirst l hl
end

/-- A free value as it is kept: its numbers are whole and of 64 bits, and its keys are in order. -/
def Kept (j : Json) : Prop := j.Plain ∧ j.SortedKeys

theorem Kept.free? {j : Json} (h : j.Kept) : Json.free? j = some j := by
  unfold Json.free?
  rw [if_pos h.1.isWhole, h.2.sorted_eq]

end Retrace.Json
