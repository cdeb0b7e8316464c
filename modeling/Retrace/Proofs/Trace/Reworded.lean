import Mathlib.Data.List.Forall2
import Retrace.Proofs.Literal
import Retrace.Proofs.Trace.Dump
import Retrace.Trace.Basic

/-!
# Texts that differ in their literals

Two runs of a contract on other strings print texts that differ only between double quotes. What is
done to a dump sees literals as wholes: it finds the same brackets, the same lines and the same values
in both texts.
-/

namespace Retrace.Trace

open Retrace.Text Retrace.Michelson

/-! ## The relation -/

/-- What may stand in a literal: quotes and backslashes are escaped, there is no line break, and the
mark of a fatal error does not occur. -/
structure Content (text : List Char) : Prop where
  enclosed : isEnclosed text = true
  unbroken : '\n' ∉ text
  unmarked : ¬ fatalMark <:+: text

theorem literal_append (text rest : List Char) :
    '"' :: (text ++ '"' :: rest) = '"' :: (text ++ ['"']) ++ rest := by
  simp

theorem Content.newline_not_mem {text : List Char} (h : Content text) : '\n' ∉ '"' :: (text ++ ['"']) := by
  simpa using h.unbroken

/-- Two texts that are the same but for the contents of some literals. The characters around these
literals are all of a kind. -/
inductive Reworded (kind : Char → Prop) : List Char → List Char → Prop
  | nil : Reworded kind [] []
  | cons {c : Char} {x y : List Char} (hc : kind c) (h : Reworded kind x y) :
      Reworded kind (c :: x) (c :: y)
  | literal {a b x y : List Char} (ha : Content a) (hb : Content b) (h : Reworded kind x y) :
      Reworded kind ('"' :: (a ++ '"' :: x)) ('"' :: (b ++ '"' :: y))

/-- A character that opens no literal. -/
def Unquoted (c : Char) : Prop := c ≠ '"'

theorem rel_map {α β : Type} {r : α → α → Prop} {s : β → β → Prop} {f g : α → β} {o o' : Option α}
    (h : Option.Rel r o o') (hfg : ∀ a b, r a b → s (f a) (g b)) : Option.Rel s (o.map f) (o'.map g) := by
  cases h with
  | none => exact .none
  | some h => exact .some (hfg _ _ h)

theorem rel_cases {α : Type} {r : α → α → Prop} {o o' : Option α} (h : Option.Rel r o o') :
    (o = none ∧ o' = none) ∨ ∃ a b, o = some a ∧ o' = some b ∧ r a b := by
  cases h with
  | none => exact Or.inl ⟨rfl, rfl⟩
  | some h => exact Or.inr ⟨_, _, rfl, rfl, h⟩

theorem rel_isSome {α : Type} {r : α → α → Prop} {o o' : Option α} (h : Option.Rel r o o') :
    o.isSome = o'.isSome := by
  cases h <;> rfl

namespace Reworded

variable {kind : Char → Prop} {x y mark : List Char}

theorem symm (h : Reworded kind x y) : Reworded kind y x := by
  induction h with
  | nil => exact .nil
  | cons hc _ ih => exact .cons hc ih
  | literal ha hb _ ih => exact .literal hb ha ih

theorem mono {kind' : Char → Prop} (hkind : ∀ c, kind c → kind' c) (h : Reworded kind x y) :
    Reworded kind' x y := by
  induction h with
  | nil => exact .nil
  | cons hc _ ih => exact .cons (hkind _ hc) ih
  | literal ha hb _ ih => exact .literal ha hb ih

theorem append {x' y' : List Char} (h : Reworded kind x y) (h' : Reworded kind x' y') :
    Reworded kind (x ++ x') (y ++ y') := by
  induction h with
  | nil => exact h'
  | cons hc _ ih => exact .cons hc ih
  | literal ha hb _ ih =>
    simp only [List.cons_append, List.append_assoc]
    exact .literal ha hb ih

theorem refl_of_forall (h : ∀ c ∈ x, kind c) : Reworded kind x x := by
  induction x with
  | nil => exact .nil
  | cons c x ih =>
    obtain ⟨hc, hx⟩ := List.forall_mem_cons.mp h
    exact .cons hc (ih hx)

theorem append_left {front : List Char} (hfront : ∀ c ∈ front, kind c) (h : Reworded kind x y) :
    Reworded kind (front ++ x) (front ++ y) := (refl_of_forall hfront).append h

theorem isEmpty_eq (h : Reworded kind x y) : x.isEmpty = y.isEmpty := by
  cases h <;> rfl

theorem head?_eq (h : Reworded kind x y) : x.head? = y.head? := by
  cases h <;> rfl

/-! ## Marks -/

theorem after? (hmark : '"' ∉ mark) (h : Reworded kind x y) :
    Option.Rel (Reworded kind) (after? mark x) (after? mark y) := by
  induction mark generalizing x y with
  | nil => exact .some h
  | cons m ms ih =>
    rw [List.mem_cons, not_or] at hmark
    cases h with
    | nil => exact .none
    | @cons c x y hc h =>
      unfold Text.after?
      split
      · exact ih hmark.2 h
      · exact .none
    | literal =>
      unfold Text.after?
      rw [if_neg (Ne.symm hmark.1), if_neg (Ne.symm hmark.1)]
      exact .none

theorem isPrefixOf_eq (hmark : '"' ∉ mark) (h : Reworded kind x y) :
    mark.isPrefixOf x = mark.isPrefixOf y := by
  have hiff : ∀ text, mark.isPrefixOf text = (Text.after? mark text).isSome := by
    intro text
    rw [Bool.eq_iff_iff, List.isPrefixOf_iff_prefix, Option.isSome_iff_ne_none, ne_eq,
      after?_eq_none_iff, not_not]
  rw [hiff, hiff, rel_isSome (h.after? hmark)]

theorem occurs_of_occurs (h : Reworded kind x y) (hmark : '"' ∉ mark) (hne : mark ≠ [])
    (hcontent : ∀ text, Content text → ¬ mark <:+: text) (hx : mark <:+: x) :
    mark <:+: y := by
  induction h with
  | nil => exact hx
  | @cons c x y hc h ih =>
    rw [List.infix_cons_iff] at hx ⊢
    refine hx.imp (fun hstarts => ?_) ih
    rw [← List.isPrefixOf_iff_prefix] at hstarts ⊢
    rwa [← isPrefixOf_eq hmark (Reworded.cons hc h)]
  | @literal a b x y ha hb h ih =>
    -- The quotes are seams that no occurrence crosses, and between them there is none.
    have hcut : mark <:+: a ++ '"' :: x := by
      rw [← List.nil_append ('"' :: _)] at hx
      rcases infix_of_infix_append_cons hne hmark hx with hnil | hrest
      · exact absurd (List.infix_nil.mp hnil) hne
      · exact hrest
    rcases infix_of_infix_append_cons hne hmark hcut with hin | hout
    · exact absurd hin (hcontent a ha)
    · exact (ih hout).trans ⟨'"' :: (b ++ ['"']), [], by simp⟩

/-! ## Runs of characters -/

theorem dropWhile {f : Char → Bool} (hf : f '"' = false) (h : Reworded kind x y) :
    Reworded kind (x.dropWhile f) (y.dropWhile f) := by
  induction h with
  | nil => exact .nil
  | @cons c x y hc h ih =>
    rw [List.dropWhile_cons, List.dropWhile_cons]
    split
    · exact ih
    · exact .cons hc h
  | literal ha hb h =>
    rw [List.dropWhile_cons_of_neg (by simp [hf]), List.dropWhile_cons_of_neg (by simp [hf])]
    exact .literal ha hb h

theorem takeWhile_eq {f : Char → Bool} (hf : f '"' = false) (h : Reworded kind x y) :
    x.takeWhile f = y.takeWhile f := by
  induction h with
  | nil => rfl
  | @cons c x y hc h ih => rw [List.takeWhile_cons, List.takeWhile_cons, ih]
  | literal => rw [List.takeWhile_cons_of_neg (by simp [hf]), List.takeWhile_cons_of_neg (by simp [hf])]

theorem trimStart (h : Reworded kind x y) : Reworded kind (trimStart x) (trimStart y) :=
  h.dropWhile (by decide)

theorem trimEnd (h : Reworded kind x y) : Reworded kind (trimEnd x) (trimEnd y) := by
  induction h with
  | nil => exact .nil
  | @cons c x y hc h ih =>
    unfold Text.trimEnd
    revert ih
    generalize Text.trimEnd x = x'
    generalize Text.trimEnd y = y'
    intro ih
    cases ih with
    | nil =>
      by_cases hblank : isBlank c = true
      · simpa [hblank] using Reworded.nil
      · simpa [hblank] using Reworded.cons hc .nil
    | cons hd ih => exact .cons hc (.cons hd ih)
    | literal ha hb ih => exact .cons hc (.literal ha hb ih)
  | @literal a b x y ha hb h ih =>
    have hquote : isBlank '"' = false := by decide
    rw [← List.cons_append, ← List.cons_append, trimEnd_append_solid hquote, trimEnd_append_solid hquote]
    exact .literal ha hb ih

theorem trim (h : Reworded kind x y) : Reworded kind (trim x) (trim y) := h.trimStart.trimEnd

/-! ## Delimiters -/

theorem scan_eq (h : Reworded Unquoted x y) (braces parens : Int) :
    (⟨.outside, braces, parens⟩ : Balance).scan x = (⟨.outside, braces, parens⟩ : Balance).scan y := by
  induction h generalizing braces parens with
  | nil => rfl
  | cons hc _ ih =>
    simp only [Balance.scan, List.foldl_cons, Balance.next, Literal.next] at ih ⊢
    rw [if_neg hc]
    exact ih _ _
  | literal ha hb _ ih =>
    rw [Balance.scan_literal ha.enclosed, Balance.scan_literal hb.enclosed, ih]

theorem isBalanced_eq (h : Reworded Unquoted x y) : isBalanced x = isBalanced y := by
  unfold isBalanced Balance.start
  rw [h.scan_eq]

end Reworded

theorem foldlM_bracketStep_encloses {l : Literal} {text : List Char} (hl : l ≠ .outside)
    (h : l.encloses text = true) (depth : Nat) :
    text.foldlM bracketStep (depth, l) = some (depth, .inside) := by
  induction text generalizing l with
  | nil =>
    obtain rfl : l = .inside := by simpa [Literal.encloses] using h
    rfl
  | cons c cs ih =>
    obtain ⟨hnext, hcs⟩ := Literal.encloses_cons h
    have hstep : bracketStep (depth, l) c = some (depth, l.next c) := by
      cases l with
      | outside => exact absurd rfl hl
      | inside => rfl
      | escaped => rfl
    rw [List.foldlM_cons, hstep]
    exact ih hnext hcs

theorem upToBracket?_literal {text : List Char} (h : isEnclosed text = true) (depth : Nat)
    (rest : List Char) : upToBracket? depth .outside ('"' :: (text ++ '"' :: rest)) =
      (upToBracket? depth .outside rest).map fun inner => '"' :: (text ++ '"' :: inner) := by
  have hopen : bracketStep (depth, .outside) '"' = some (depth, .inside) := rfl
  have hclose : bracketStep (depth, .inside) '"' = some (depth, .outside) := rfl
  have hpass := foldlM_bracketStep_encloses (by decide) h depth
  rw [upToBracket?_cons hopen, upToBracket?_append hpass, upToBracket?_cons hclose]
  simp [Function.comp_def]

theorem bracketed?_of_ne {c : Char} (h : c ≠ '[') (cs : List Char) : bracketed? (c :: cs) = none := by
  unfold bracketed?
  split
  · rename_i heq
    exact absurd (List.cons.inj heq).1 h
  · rfl

theorem bracketStep_outside {depth : Nat} {c : Char} (hc : Unquoted c) (h : ¬ (depth = 0 ∧ c = ']')) :
    ∃ d, bracketStep (depth, .outside) c = some (d, .outside) := by
  by_cases hopen : c = '['
  · exact ⟨depth + 1, by simp [bracketStep, hopen]⟩
  · by_cases hclose : c = ']'
    · obtain ⟨d, rfl⟩ := Nat.exists_eq_succ_of_ne_zero fun hzero => h ⟨hzero, hclose⟩
      exact ⟨d, by simp [bracketStep, hclose]⟩
    · refine ⟨depth, ?_⟩
      have hnext : Literal.outside.next c = .outside := if_neg hc
      simp [bracketStep, hopen, hclose, hnext]

namespace Reworded

variable {kind : Char → Prop} {x y : List Char}

theorem upToBracket? (h : Reworded Unquoted x y) (depth : Nat) :
    Option.Rel (Reworded Unquoted) (upToBracket? depth .outside x) (upToBracket? depth .outside y) := by
  induction h generalizing depth with
  | nil => exact .none
  | @cons c x y hc _ ih =>
    by_cases hend : depth = 0 ∧ c = ']'
    · obtain ⟨rfl, rfl⟩ := hend
      exact .some .nil
    · obtain ⟨d, hstep⟩ := bracketStep_outside hc hend
      rw [upToBracket?_cons hstep, upToBracket?_cons hstep]
      exact rel_map (ih d) fun _ _ => .cons hc
  | literal ha hb _ ih =>
    rw [upToBracket?_literal ha.enclosed, upToBracket?_literal hb.enclosed]
    exact rel_map (ih depth) fun _ _ => .literal ha hb

theorem bracketed? (h : Reworded Unquoted x y) :
    Option.Rel (Reworded Unquoted) (bracketed? x) (bracketed? y) := by
  cases h with
  | nil => exact .none
  | @cons c x y hc h =>
    by_cases hopen : c = '['
    · subst hopen
      exact h.upToBracket? 0
    · rw [bracketed?_of_ne hopen, bracketed?_of_ne hopen]
      exact .none
  | literal => exact .none

/-! ## Lines -/

theorem lines_append {front front' : List Char} (hfront : '\n' ∉ front) (hfront' : '\n' ∉ front')
    (happend : ∀ p q, Reworded kind p q → Reworded kind (front ++ p) (front' ++ q))
    (h : List.Forall₂ (Reworded kind) (pieces ['\n'] x) (pieces ['\n'] y)) :
    List.Forall₂ (Reworded kind) (pieces ['\n'] (front ++ x)) (pieces ['\n'] (front' ++ y)) := by
  obtain ⟨p, ps, hx, hpieces⟩ := pieces_line x
  obtain ⟨q, qs, hy, hpieces'⟩ := pieces_line y
  rw [hx, hy, List.forall₂_cons] at h
  rw [hpieces _ hfront, hpieces' _ hfront']
  exact .cons (happend p q h.1) h.2

theorem lines (h : Reworded kind x y) :
    List.Forall₂ (Reworded kind) (pieces ['\n'] x) (pieces ['\n'] y) := by
  induction h with
  | nil => exact .cons .nil .nil
  | @cons c x y hc _ ih =>
    by_cases hnew : c = '\n'
    · subst hnew
      have hpieces : ∀ rest, pieces ['\n'] ('\n' :: rest) = [] :: pieces ['\n'] rest :=
        pieces_append apart_newline (not_infix_of_newline_not_mem List.not_mem_nil)
      rw [hpieces, hpieces]
      exact .cons .nil ih
    · have hline : '\n' ∉ [c] := by simpa using Ne.symm hnew
      exact lines_append hline hline (fun _ _ => .cons hc) ih
  | @literal a b x y ha hb _ ih =>
    rw [literal_append a, literal_append b]
    refine lines_append ha.newline_not_mem hb.newline_not_mem (fun p q hpq => ?_) ih
    rw [← literal_append, ← literal_append]
    exact .literal ha hb hpq

theorem stackLines (h : Reworded kind x y) :
    List.Forall₂ (Reworded kind) (stackLines x) (stackLines y) := by
  unfold Trace.stackLines
  refine List.rel_filter ?_ (List.rel_map (fun _ _ hpq => trim hpq) h.lines)
  intro p q hpq
  simp only [hpq.isEmpty_eq]

/-! ## Values -/

theorem gather {x' y' : List Char} (h : Reworded Unquoted x y) (h' : Reworded Unquoted x' y') :
    Reworded Unquoted (gather x x') (gather y y') := by
  have hspace : Unquoted ' ' := by unfold Unquoted; decide
  unfold Trace.gather
  rw [h.isEmpty_eq]
  split
  · exact h'
  · exact h.append (.cons hspace h')

theorem segment {ls ls' : List (List Char)} (h : Reworded Unquoted x y)
    (hls : List.Forall₂ (Reworded Unquoted) ls ls') :
    Option.Rel (fun s t => s.length = t.length) (segment x ls).toOption (segment y ls').toOption := by
  induction hls generalizing x y with
  | nil =>
    unfold Trace.segment
    rw [h.isEmpty_eq]
    split
    · exact .some rfl
    · exact .none
  | cons hl _ ih =>
    have htext := h.gather hl
    have hmap : ∀ (s : String) (e : Except StackError (List String)),
        (e.map (s :: ·)).toOption = e.toOption.map (s :: ·) := by
      intro s e
      cases e <;> rfl
    unfold Trace.segment
    simp only [htext.isBalanced_eq]
    split
    · rw [hmap, hmap]
      exact rel_map (ih .nil) fun s t hst => by simpa using hst
    · exact ih htext

theorem splitStack (h : Reworded Unquoted x y) :
    Option.Rel (fun s t => s.length = t.length) (splitStack x).toOption (splitStack y).toOption := by
  have htrim := h.trim
  unfold Trace.splitStack
  simp only [htrim.isEmpty_eq]
  split
  · exact .some rfl
  · rcases rel_cases htrim.bracketed? with ⟨hx, hy⟩ | ⟨inner, inner', hx, hy, hinner⟩
    · simp only [hx, hy]
      exact .none
    · simp only [hx, hy]
      exact segment .nil hinner.stackLines

end Reworded

/-! ## Items -/

/-- Two steps at one location, with the same gas and as many stack values. -/
structure SameFrame (i j : TraceItem) : Prop where
  location : i.location = j.location
  gas : i.gas = j.gas
  stack : i.stack.length = j.stack.length

theorem item?_line {line rest : List Char} (hline : '\n' ∉ line) :
    item? (line ++ '\n' :: rest) = (header? line).bind fun head =>
      (splitStack rest).toOption.map fun stack => ⟨head.1, head.2, stack⟩ := by
  have hcut : cut? ['\n'] (line ++ '\n' :: rest) = some (line, rest) :=
    cut?_append apart_newline (not_infix_of_newline_not_mem hline) rest
  unfold item?
  simp only [hcut, Option.getD_some]
  cases header? line with
  | none => rfl
  | some head => cases splitStack rest <;> rfl

theorem item?_reworded {line x y : List Char} (hline : '\n' ∉ line) (h : Reworded Unquoted x y) :
    Option.Rel SameFrame (item? (line ++ '\n' :: x)) (item? (line ++ '\n' :: y)) := by
  rw [item?_line hline, item?_line hline]
  cases header? line with
  | none => exact .none
  | some head => exact rel_map h.splitStack fun s t hst => ⟨rfl, rfl, hst⟩

end Retrace.Trace
