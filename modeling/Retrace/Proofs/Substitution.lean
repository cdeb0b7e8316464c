import Mathlib.Data.List.Nodup
import Retrace.Constant
import Retrace.Proofs.Text.Marks
import Retrace.Proofs.Text.Trim

/-!
# Constants put into code

Constants are put one after the other, each wherever its placeholder is at that time. Between
characters that no placeholder has, a placeholder is told from all others by its text; else one may
be inside another or come about from a value, and then the order tells.
-/

namespace Retrace.Constant

open Retrace.Text

/-! ## Placeholders -/

def mark (c : Constant) : List Char := c.placeholder.toList

theorem mark_eq (c : Constant) : c.mark = "const_".toList ++ c.name.toList ++ "__".toList := by
  simp [mark, placeholder]

theorem mark_ne_nil (c : Constant) : c.mark ≠ [] := by
  simp [mark_eq]

theorem head?_mark (c : Constant) : c.mark.head? = some 'c' := by
  simp [mark_eq]

theorem getLast?_mark (c : Constant) : c.mark.getLast? = some '_' := by
  rw [mark_eq, List.getLast?_append]
  rfl

theorem name_eq_of_mark_eq {c o : Constant} (h : c.mark = o.mark) : c.name = o.name := by
  rw [mark_eq, mark_eq, List.append_left_inj, List.append_right_inj] at h
  exact String.toList_inj.mp h

theorem mark_infix_of_infix_parens {o : Constant} {value : List Char}
    (h : o.mark <:+: '(' :: value ++ [')']) : o.mark <:+: value := by
  rw [List.infix_concat_iff] at h
  rcases h with ⟨front, hend⟩ | h
  · have hlast := congrArg List.getLast? hend
    rw [List.getLast?_append, getLast?_mark, List.getLast?_concat] at hlast
    simp at hlast
  · rcases List.infix_cons_iff.mp h with ⟨rest, hstart⟩ | h
    · have hhead := congrArg List.head? hstart
      rw [List.head?_append, head?_mark] at hhead
      simp at hhead
    · exact h

theorem mark_infix_value_of_infix_codeValue {c o : Constant} (h : o.mark <:+: c.codeValue.toList) :
    o.mark <:+: c.value.toList := by
  have htrim := trim_isInfix c.value.toList
  rw [codeValue] at h
  split at h
  · rw [String.toList_ofList] at h
    exact (mark_infix_of_infix_parens h).trans htrim
  · rw [String.toList_ofList] at h
    exact h.trans htrim

/-! ## Putting all -/

/-- `putAll` on characters. -/
def splice (text : List Char) (constants : List Constant) : List Char :=
  constants.foldl (fun text c => replace c.mark c.codeValue.toList text) text

theorem toList_putAll (code : String) (constants : List Constant) :
    (putAll code constants).toList = splice code.toList constants := by
  unfold putAll splice
  induction constants generalizing code with
  | nil => rfl
  | cons c constants ih =>
    rw [List.foldl_cons, List.foldl_cons, ih, put, String.toList_ofList]
    rfl

theorem splice_of_absent {text : List Char} {constants : List Constant}
    (h : ∀ c ∈ constants, ¬ c.mark <:+: text) : splice text constants = text := by
  unfold splice
  induction constants with
  | nil => rfl
  | cons c constants ih =>
    obtain ⟨hc, hconstants⟩ := List.forall_mem_cons.mp h
    rw [List.foldl_cons, replace_of_not_infix hc, ih hconstants]

theorem splice_append_cons {constants : List Constant} {x : Char} (hx : ∀ c ∈ constants, x ∉ c.mark)
    (front rest : List Char) :
    splice (front ++ x :: rest) constants = splice front constants ++ x :: splice rest constants := by
  unfold splice
  induction constants generalizing front rest with
  | nil => rfl
  | cons c constants ih =>
    obtain ⟨hc, hconstants⟩ := List.forall_mem_cons.mp hx
    simp only [List.foldl_cons]
    rw [replace_append_cons c.mark_ne_nil hc, ih hconstants]

theorem splice_nil (constants : List Constant) : splice [] constants = [] :=
  splice_of_absent fun c _ h => c.mark_ne_nil (List.infix_nil.mp h)

theorem splice_mark {order : List Constant} {c : Constant} (hc : c ∈ order) (hnodup : order.Nodup)
    (hown : ∀ o ∈ order, o ≠ c → ¬ o.mark <:+: c.mark)
    (hvalue : ∀ o ∈ order, ¬ o.mark <:+: c.codeValue.toList) :
    splice c.mark order = c.codeValue.toList := by
  obtain ⟨before, after, rfl⟩ := List.append_of_mem hc
  have hbefore : splice c.mark before = c.mark := by
    refine splice_of_absent fun o ho => hown o (by simp [ho]) ?_
    rintro rfl
    exact (List.nodup_append.mp hnodup).2.2 o ho o List.mem_cons_self rfl
  have hafter : splice c.codeValue.toList after = c.codeValue.toList :=
    splice_of_absent fun o ho => hvalue o (by simp [ho])
  unfold splice at hbefore hafter ⊢
  rw [List.foldl_append, List.foldl_cons, hbefore, replace_self c.mark_ne_nil, hafter]

/-! ## Placeholders that stand alone -/

/-- No identifier goes on across the ends of what stands between two texts. -/
def Delimited (ident : Char → Bool) (before after : List Char) : Prop :=
  (∀ x ∈ before.getLast?, ident x = false) ∧ ∀ x ∈ after.head?, ident x = false

/-- Every placeholder that occurs in a text is delimited. -/
def Alone (ident : Char → Bool) (constants : List Constant) (text : List Char) : Prop :=
  ∀ c ∈ constants, ∀ before after, text = before ++ (c.mark ++ after) → Delimited ident before after

/-- Constants with different names, placeholders that are identifiers and values without
placeholders. -/
structure Proper (ident : Char → Bool) (constants : List Constant) : Prop where
  names : (constants.map (·.name)).Nodup
  ident_mark : ∀ c ∈ constants, c.mark.all ident = true
  value : ∀ c ∈ constants, ∀ o ∈ constants, ¬ o.mark <:+: c.value.toList

variable {ident : Char → Bool} {constants order : List Constant}

theorem Proper.perm (h : Proper ident constants) (horder : order.Perm constants) : Proper ident order where
  names := (horder.map _).nodup_iff.mpr h.names
  ident_mark c hc := h.ident_mark c (horder.subset hc)
  value c hc o ho := h.value c (horder.subset hc) o (horder.subset ho)

theorem Proper.eq_of_mark_eq (h : Proper ident constants) {c o : Constant} (hc : c ∈ constants)
    (ho : o ∈ constants) (hmark : c.mark = o.mark) : c = o :=
  List.inj_on_of_nodup_map h.names hc ho (name_eq_of_mark_eq hmark)

theorem Proper.not_mem_mark (h : Proper ident constants) {x : Char} (hx : ident x = false) :
    ∀ c ∈ constants, x ∉ c.mark := by
  intro c hc hmem
  rw [List.all_eq_true.mp (h.ident_mark c hc) x hmem] at hx
  cases hx

theorem Proper.splice_delimited (h : Proper ident constants) {before after : List Char}
    (hends : Delimited ident before after) (middle : List Char) :
    splice (before ++ (middle ++ after)) constants =
      splice before constants ++ (splice middle constants ++ splice after constants) := by
  have hright : splice (middle ++ after) constants = splice middle constants ++ splice after constants := by
    cases after with
    | nil => rw [splice_nil, List.append_nil, List.append_nil]
    | cons x after =>
      have hx := h.not_mem_mark (hends.2 x rfl)
      have hsplit := splice_append_cons hx [] after
      rw [splice_nil] at hsplit
      rw [splice_append_cons hx]
      exact congrArg _ hsplit.symm
  rcases List.eq_nil_or_concat before with rfl | ⟨front, x, rfl⟩
  · rw [splice_nil, List.nil_append, List.nil_append, hright]
  · have hx := h.not_mem_mark (hends.1 x (by simp))
    have hsplit := splice_append_cons hx front []
    rw [splice_nil] at hsplit
    rw [List.concat_eq_append, hsplit, List.append_assoc, List.singleton_append, splice_append_cons hx, hright]
    simp

theorem Proper.splice_own (h : Proper ident constants) {c : Constant} (hc : c ∈ constants)
    (hown : ∀ o ∈ constants, o ≠ c → ¬ o.mark <:+: c.mark) {before after : List Char}
    (hends : Delimited ident before after) :
    splice (before ++ (c.mark ++ after)) constants =
      splice before constants ++ (c.codeValue.toList ++ splice after constants) := by
  rw [h.splice_delimited hends, splice_mark hc (List.Nodup.of_map _ h.names) hown]
  exact fun o ho hinfix => h.value c hc o ho (mark_infix_value_of_infix_codeValue hinfix)

theorem Alone.left {front rest : List Char} (h : Alone ident constants (front ++ rest)) :
    Alone ident constants front := by
  rintro c hc before after rfl
  obtain ⟨hbefore, hafter⟩ := h c hc before (after ++ rest) (by simp)
  refine ⟨hbefore, fun x hx => hafter x ?_⟩
  rw [List.head?_append, Option.mem_def.mp hx]
  rfl

theorem Alone.right {front rest : List Char} (h : Alone ident constants (front ++ rest)) :
    Alone ident constants rest := by
  rintro c hc before after rfl
  obtain ⟨hbefore, hafter⟩ := h c hc (front ++ before) after (by simp)
  refine ⟨fun x hx => hbefore x ?_, hafter⟩
  rw [List.getLast?_append, Option.mem_def.mp hx]
  rfl

theorem Proper.not_infix_of_alone (h : Proper ident constants) {c : Constant} (hc : c ∈ constants)
    {before after : List Char} (halone : Alone ident constants (before ++ (c.mark ++ after))) :
    ∀ o ∈ constants, o ≠ c → ¬ o.mark <:+: c.mark := by
  rintro o ho hne ⟨left, right, hmark⟩
  obtain ⟨hleft, hright⟩ := halone o ho (before ++ left) (right ++ after) (by simp [← hmark])
  have hident : ∀ x ∈ left ++ o.mark ++ right, ident x = true := by
    rw [hmark]
    exact List.all_eq_true.mp (h.ident_mark c hc)
  -- The other placeholder is delimited, while what stands beside it here belongs to an identifier.
  have hleft_nil : left = [] := by
    rcases List.eq_nil_or_concat left with hnil | ⟨front, x, rfl⟩
    · exact hnil
    · have hx := hleft x (by simp)
      rw [hident x (by simp)] at hx
      cases hx
  have hright_nil : right = [] := by
    cases right with
    | nil => rfl
    | cons x rest =>
      have hx := hright x rfl
      rw [hident x (by simp)] at hx
      cases hx
  subst hleft_nil hright_nil
  exact hne (h.eq_of_mark_eq ho hc (by simpa using hmark))

theorem Proper.splice_perm (h : Proper ident constants) (horder : order.Perm constants) (text : List Char)
    (halone : Alone ident constants text) : splice text order = splice text constants := by
  by_cases hplain : ∀ c ∈ constants, ¬ c.mark <:+: text
  · rw [splice_of_absent hplain, splice_of_absent fun c hc => hplain c (horder.subset hc)]
  · -- The text is cut at a placeholder, and what is around it is shorter.
    push Not at hplain
    obtain ⟨c, hc, before, after, htext⟩ := hplain
    have hlen : before.length + c.mark.length + after.length = text.length := by
      simp only [← htext, List.length_append]
    have hpos := List.length_pos_of_ne_nil c.mark_ne_nil
    rw [← htext, List.append_assoc] at halone ⊢
    have hends := halone c hc before after rfl
    have hown := h.not_infix_of_alone hc halone
    have hbefore := Proper.splice_perm h horder before halone.left
    have hafter := Proper.splice_perm h horder after halone.right.right
    rw [h.splice_own hc hown hends, (h.perm horder).splice_own (horder.symm.subset hc)
      (fun o ho => hown o (horder.subset ho)) hends, hbefore, hafter]
termination_by text.length
decreasing_by all_goals omega

/-! ## The order of constants -/

theorem alone_iff (text : List Char) : Alone ident constants text ↔
    ∀ c ∈ constants, ∀ k < text.length + 1, c.mark <+: text.drop k →
      Delimited ident (text.take k) (text.drop (k + c.mark.length)) := by
  constructor
  · rintro h c hc k - ⟨after, hafter⟩
    refine h c hc _ _ ?_
    rw [← List.drop_drop, ← hafter, List.drop_left, hafter, List.take_append_drop]
  · rintro h c hc before after rfl
    have hk : before.length < (before ++ (c.mark ++ after)).length + 1 := by
      rw [List.length_append]
      omega
    simpa using h c hc before.length hk (by simp)

instance (ident : Char → Bool) (before after : List Char) : Decidable (Delimited ident before after) :=
  decidable_of_iff (before.getLast?.all (!ident ·) = true ∧ after.head?.all (!ident ·) = true) (by
    simp [Delimited, Option.all_eq_true])

instance (ident : Char → Bool) (constants : List Constant) (text : List Char) :
    Decidable (Alone ident constants text) := decidable_of_iff' _ (alone_iff text)

/-- **Constants are put into code whatever their order** where every placeholder is delimited. In any
code, a delimited placeholder that has no other one in it is replaced by its own value. -/
theorem putAll_order_free (h : Proper ident constants) (horder : order.Perm constants) :
    (∀ code : String, Alone ident constants code.toList → putAll code order = putAll code constants) ∧
    ∀ c ∈ constants, (∀ o ∈ constants, o ≠ c → ¬ o.mark <:+: c.mark) →
      ∀ before after : String, Delimited ident before.toList after.toList →
        putAll (before ++ c.placeholder ++ after) order =
          putAll before order ++ c.codeValue ++ putAll after order := by
  constructor
  · intro code halone
    rw [← String.toList_inj, toList_putAll, toList_putAll]
    exact h.splice_perm horder _ halone
  · intro c hc hown before after hends
    have hplace := (h.perm horder).splice_own (horder.symm.subset hc)
      (fun o ho => hown o (horder.subset ho)) hends
    rw [← String.toList_inj]
    simp only [toList_putAll, String.toList_append, List.append_assoc]
    exact hplace

def isIdentifier (x : Char) : Bool := x.isAlphanum || x == '_'

theorem putAll_order_free_sample :
    putAll "\x7b PUSH nat const_n__ ; PUSH (pair nat nat) const_p__ ; PUSH nat const_n__ \x7d"
        [⟨"p", "Pair 1 2"⟩, ⟨"n", " 5 "⟩] =
      putAll "\x7b PUSH nat const_n__ ; PUSH (pair nat nat) const_p__ ; PUSH nat const_n__ \x7d"
        [⟨"n", " 5 "⟩, ⟨"p", "Pair 1 2"⟩] ∧
    putAll ("PUSH (pair nat nat) " ++ placeholder ⟨"p", "Pair 1 2"⟩ ++ " ; CDR")
        [⟨"p", "Pair 1 2"⟩, ⟨"n", " 5 "⟩] = "PUSH (pair nat nat) (Pair 1 2) ; CDR" := by
  have hproper : Proper isIdentifier [⟨"n", " 5 "⟩, ⟨"p", "Pair 1 2"⟩] :=
    ⟨by decide +kernel, by decide +kernel, by decide +kernel⟩
  have horder : List.Perm [⟨"p", "Pair 1 2"⟩, ⟨"n", " 5 "⟩] [(⟨"n", " 5 "⟩ : Constant), ⟨"p", "Pair 1 2"⟩] :=
    List.Perm.swap _ _ _
  obtain ⟨hperm, hown⟩ := putAll_order_free hproper horder
  refine ⟨hperm _ (by decide +kernel), ?_⟩
  rw [hown ⟨"p", "Pair 1 2"⟩ (by simp) (by decide +kernel) _ _ (by decide +kernel)]
  decide +kernel

/-- A placeholder inside another one is replaced there if its turn comes first. -/
theorem putAll_nested :
    Proper isIdentifier [⟨"a", "1"⟩, ⟨"xconst_a", "2"⟩] ∧
      placeholder ⟨"xconst_a", "2"⟩ = "const_xconst_a__" ∧ codeValue ⟨"xconst_a", "2"⟩ = "2" ∧
      putAll "const_xconst_a__" [⟨"a", "1"⟩, ⟨"xconst_a", "2"⟩] = "const_x1" ∧
      putAll "const_xconst_a__" [⟨"xconst_a", "2"⟩, ⟨"a", "1"⟩] = "2" :=
  ⟨⟨by decide +kernel, by decide +kernel, by decide +kernel⟩, by decide +kernel, by decide +kernel,
    by decide +kernel, by decide +kernel⟩

end Retrace.Constant
