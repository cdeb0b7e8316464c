import Retrace.Location

/-!
# The walk lists a contract in pre-order

One round of the walk moves the top of the stack to the listing, so what is listed and what is
still to be listed stay the same taken together. Below the walk, the listing of a node is one
contiguous part of the listing of any tree around it, which gives the locations of its children.
-/

namespace Retrace.Micheline

/-! ## The listing by recursion -/

theorem preorder_eq (node : Micheline) : node.preorder = node :: preorderAll node.children := by
  cases node <;> simp [preorder, children, preorderAll]

theorem preorderAll_append (xs ys : List Micheline) :
    preorderAll (xs ++ ys) = preorderAll xs ++ preorderAll ys := by
  induction xs with
  | nil => simp [preorderAll]
  | cons x xs ih => simp [preorderAll, ih]

mutual
theorem preorder_length : ∀ node : Micheline, node.preorder.length = node.size
  | .seq items => by simp [preorder, size, preorderAll_length items]
  | .prim _ args _ _ => by simp [preorder, size, preorderAll_length args]
  | .int _ | .bytes _ | .string _ => by simp [preorder, size]

theorem preorderAll_length : ∀ nodes : List Micheline, (preorderAll nodes).length = sizeAll nodes
  | [] => rfl
  | x :: xs => by simp [preorderAll, sizeAll, preorder_length x, preorderAll_length xs]
end

/-- A node of a listing starts its own listing there. -/
def Starts (listing : List Micheline) (l : Nat) (node : Micheline) : Prop :=
  ∃ before after, listing = before ++ node.preorder ++ after ∧ before.length = l

theorem Starts.cons {listing : List Micheline} {l : Nat} {node : Micheline} (x : Micheline)
    (h : Starts listing l node) : Starts (x :: listing) (l + 1) node := by
  obtain ⟨before, after, rfl, rfl⟩ := h
  exact ⟨x :: before, after, by simp, by simp⟩

theorem Starts.append_right {listing : List Micheline} {l : Nat} {node : Micheline}
    (more : List Micheline) (h : Starts listing l node) : Starts (listing ++ more) l node := by
  obtain ⟨before, after, rfl, rfl⟩ := h
  exact ⟨before, after ++ more, by simp, rfl⟩

theorem Starts.append_left {listing : List Micheline} {l : Nat} {node : Micheline}
    (front : List Micheline) (h : Starts listing l node) :
    Starts (front ++ listing) (front.length + l) node := by
  obtain ⟨before, after, rfl, rfl⟩ := h
  exact ⟨front ++ before, after, by simp, by simp⟩

theorem starts_self (node : Micheline) : Starts node.preorder 0 node := ⟨[], [], by simp, rfl⟩

mutual
theorem starts_preorder (root : Micheline) (l : Nat) (node : Micheline)
    (h : root.preorder[l]? = some node) : Starts root.preorder l node := by
  -- Location 0 is the root itself, all others are in the listing of its children.
  cases l with
  | zero =>
    rw [preorder_eq, List.getElem?_cons_zero, Option.some.injEq] at h
    rw [h]
    exact starts_self node
  | succ l =>
    rw [preorder_eq, List.getElem?_cons_succ] at h
    rw [preorder_eq]
    exact (starts_preorderAll root.children l node h).cons root
termination_by 2 * root.size
decreasing_by rw [size_eq root]; omega

theorem starts_preorderAll (nodes : List Micheline) (l : Nat) (node : Micheline)
    (h : (preorderAll nodes)[l]? = some node) : Starts (preorderAll nodes) l node := by
  match nodes with
  | [] => simp [preorderAll] at h
  | x :: xs =>
    simp only [preorderAll] at h ⊢
    by_cases hl : l < x.preorder.length
    · rw [List.getElem?_append_left hl] at h
      exact (starts_preorder x l node h).append_right _
    · rw [List.getElem?_append_right (by omega)] at h
      have hx := (starts_preorderAll xs _ node h).append_left x.preorder
      rwa [Nat.add_sub_cancel' (by omega)] at hx
termination_by 2 * sizeAll nodes + 1
decreasing_by all_goals simp only [sizeAll, size_eq x]; omega
end

theorem Starts.getElem? {listing : List Micheline} {l : Nat} {node : Micheline}
    (h : Starts listing l node) : listing[l]? = some node := by
  obtain ⟨before, after, rfl, rfl⟩ := h
  simp [preorder_eq node]

theorem Starts.child {listing : List Micheline} {l j : Nat} {node child : Micheline}
    (h : Starts listing l node) (hj : node.children[j]? = some child) :
    Starts listing (l + 1 + sizeAll (node.children.take j)) child := by
  obtain ⟨before, after, rfl, rfl⟩ := h
  obtain ⟨hlt, hchild⟩ := List.getElem?_eq_some_iff.mp hj
  have hsplit : node.children = node.children.take j ++ child :: node.children.drop (j + 1) := by
    rw [← hchild, List.getElem_cons_drop, List.take_append_drop]
  have hlisting := congrArg preorderAll hsplit
  rw [preorderAll_append, preorderAll] at hlisting
  refine ⟨before ++ node :: preorderAll (node.children.take j),
    preorderAll (node.children.drop (j + 1)) ++ after, ?_, ?_⟩
  · rw [preorder_eq node, hlisting]
    simp
  · simp [preorderAll_length]
    omega

/-! ## The walk -/

namespace Walk

/-- All that the walk lists by its end: what is listed, then what is below the stack from its top
down. -/
def total (w : Walk) : List Micheline := w.listed.toList ++ preorderAll w.pending.toList.reverse

theorem total_next {w w' : Walk} (h : w.next? = some w') : w'.total = w.total := by
  obtain ⟨node, hnode, rfl⟩ := Option.map_eq_some_iff.mp h
  obtain ⟨rest, hrest⟩ := Array.back?_eq_some_iff.mp hnode
  simp [total, hrest, preorderAll, preorderAll_append, preorder_eq node]

theorem pending_of_next_eq_none {w : Walk} (h : w.next? = none) : w.pending = #[] := by
  simpa [next?] using h

theorem next_eq_none_iff (w : Walk) : w.next? = none ↔ w.left = 0 := by
  constructor
  · intro h
    simp [left, pending_of_next_eq_none h, sizeAll]
  · intro h
    cases hw : w.next? with
    | none => rfl
    | some w' =>
      have := left_next hw
      omega

theorem total_of_next_eq_none {w : Walk} (h : w.next? = none) : w.total = w.listed.toList := by
  simp [total, pending_of_next_eq_none h, preorderAll]

theorem run_eq_total (w : Walk) : w.run.toList = w.total := by
  fun_induction run w with
  | case1 w h => exact (total_of_next_eq_none h).symm
  | case2 w w' h ih => rw [ih, total_next h]

/-- The walk after `n` rounds, if it takes as many. -/
def rounds : Nat → Walk → Option Walk
  | 0, w => some w
  | n + 1, w => w.next?.bind (rounds n)

theorem rounds_left (w : Walk) :
    ∃ w', w.rounds w.left = some w' ∧ w'.next? = none ∧ w'.listed = w.run := by
  fun_induction run w with
  | case1 w h =>
    rw [(next_eq_none_iff w).mp h]
    exact ⟨w, rfl, h, rfl⟩
  | case2 w w' h ih =>
    obtain ⟨last, hlast, hnone, hlisted⟩ := ih
    refine ⟨last, ?_, hnone, hlisted⟩
    rw [left_next h, rounds, h]
    exact hlast

theorem left_start (root : Micheline) : (start root).left = root.size := by
  simp [left, start, sizeAll]

theorem total_start (root : Micheline) : (start root).total = root.preorder := by
  simp [total, start, preorderAll]

end Walk

theorem locations_eq (root : Micheline) : root.locations = root.preorder := by
  rw [locations, Walk.run_eq_total, Walk.total_start]

theorem locations_length (root : Micheline) : root.locations.length = root.size := by
  rw [locations_eq, preorder_length]

/-! ## Annotated nodes -/

theorem mem_annotatedFrom (start l : Nat) (nodes : List Micheline) :
    l ∈ annotatedFrom start nodes ↔
      ∃ i node info, nodes[i]? = some node ∧ node.debugInfo? = some info ∧ l = start + i := by
  induction nodes generalizing start with
  | nil => simp [annotatedFrom]
  | cons x xs ih =>
    -- Either the head is meant, at index 0, or an index of the tail is one less.
    have hmem : l ∈ annotatedFrom start (x :: xs) ↔
        (l = start ∧ ∃ info, x.debugInfo? = some info) ∨ l ∈ annotatedFrom (start + 1) xs := by
      cases hx : x.debugInfo? <;> simp [annotatedFrom, hx]
    rw [hmem, ih]
    constructor
    · rintro (⟨rfl, info, hinfo⟩ | ⟨i, node, info, hnode, hinfo, rfl⟩)
      · exact ⟨0, x, info, rfl, hinfo, rfl⟩
      · exact ⟨i + 1, node, info, hnode, hinfo, by omega⟩
    · rintro ⟨i, node, info, hnode, hinfo, rfl⟩
      cases i with
      | zero =>
        obtain rfl : x = node := by simpa using hnode
        exact Or.inl ⟨rfl, info, hinfo⟩
      | succ i => exact Or.inr ⟨i, node, info, hnode, hinfo, by omega⟩

theorem annotatedFrom_sorted (start : Nat) (nodes : List Micheline) :
    (annotatedFrom start nodes).Pairwise (· < ·) := by
  induction nodes generalizing start with
  | nil => exact List.Pairwise.nil
  | cons x xs ih =>
    unfold annotatedFrom
    split
    · refine List.pairwise_cons.mpr ⟨?_, ih (start + 1)⟩
      intro l hl
      obtain ⟨i, _, _, _, _, rfl⟩ := (mem_annotatedFrom _ _ _).mp hl
      omega
    · exact ih (start + 1)

/-- **Locations.** The walk ends after one round per node and lists the contract in pre-order, which
fixes the number of locations, the locations of children and the annotated locations. -/
theorem locations_exact (root : Micheline) :
    (∃ w, (Walk.start root).rounds root.size = some w ∧ w.next? = none ∧
      w.listed.toList = root.locations) ∧
    root.locations = root.preorder ∧
    root.locations.length = root.size ∧
    (∀ l, root.locations[l]? = none ↔ root.locations.length ≤ l) ∧
    (∀ l node j child, root.locations[l]? = some node → node.children[j]? = some child →
      root.locations[l + 1 + sizeAll (node.children.take j)]? = some child) ∧
    root.annotatedLocations.Pairwise (· < ·) ∧
    (∀ l, l ∈ root.annotatedLocations ↔
      ∃ node info, root.locations[l]? = some node ∧ node.debugInfo? = some info) := by
  refine ⟨?_, locations_eq root, locations_length root, ?_, ?_, annotatedFrom_sorted 0 _, ?_⟩
  · obtain ⟨w, hw, hnone, hlisted⟩ := Walk.rounds_left (Walk.start root)
    rw [Walk.left_start] at hw
    exact ⟨w, hw, hnone, by rw [hlisted, locations]⟩
  · intro l
    exact List.getElem?_eq_none_iff
  · intro l node j child hnode hchild
    rw [locations_eq] at hnode ⊢
    exact ((starts_preorder root l node hnode).child hchild).getElem?
  · intro l
    rw [annotatedLocations, mem_annotatedFrom]
    constructor
    · rintro ⟨i, node, info, hnode, hinfo, rfl⟩
      exact ⟨node, info, by simpa using hnode, hinfo⟩
    · rintro ⟨node, info, hnode, hinfo⟩
      exact ⟨l, node, info, hnode, hinfo, by omega⟩

end Retrace.Micheline
