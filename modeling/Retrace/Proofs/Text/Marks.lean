import Mathlib.Data.List.Infix
import Retrace.Text.Pieces

/-!
# Texts cut and split at marks

A mark whose first character does not come again in it cannot overlap itself: where one occurrence
starts, no other is still open. Cutting and splitting at such a mark undo joining with it.
-/

namespace Retrace.Text

/-- The first character of the mark does not come again in it. -/
def Apart (mark : List Char) : Prop := ∃ m ms, mark = m :: ms ∧ m ∉ ms

theorem Apart.ne_nil {mark : List Char} (h : Apart mark) : mark ≠ [] := by
  obtain ⟨m, ms, rfl, -⟩ := h
  exact List.cons_ne_nil m ms

/-! ## Occurrences -/

theorem prefix_of_prefix_append {mark front rest : List Char} (hmark : Apart mark) (hfront : front ≠ [])
    (h : mark <+: front ++ (mark ++ rest)) : mark <+: front := by
  obtain ⟨m, ms, rfl, hm⟩ := hmark
  obtain ⟨t, ht⟩ := h
  rcases List.append_eq_append_iff.mp ht with ⟨as, has, -⟩ | ⟨bs, hbs, hrest⟩
  · exact ⟨as, has.symm⟩
  · cases bs with
    | nil => simp [hbs]
    | cons b bs =>
      -- The mark would start with `front` and go on with its own first character.
      obtain ⟨f, fs, rfl⟩ := List.exists_cons_of_ne_nil hfront
      simp only [List.cons_append, List.cons.injEq] at hbs hrest
      exact absurd (by rw [hbs.2, ← hrest.1]; simp) hm

theorem not_infix_append {mark front rest : List Char} (hmark : Apart mark)
    (hrest : rest = [] ∨ rest.head? = mark.head?) (h : ¬ mark <:+: front) (h' : ¬ mark <:+: rest) :
    ¬ mark <:+: front ++ rest := by
  obtain ⟨m, ms, rfl, hm⟩ := hmark
  rw [List.infix_append_iff_ne_nil]
  rintro (hfront | hinfix | ⟨l₁, l₂, hl₁, hl₂, heq, -, t, rfl⟩)
  · exact h hfront
  · exact h' hinfix
  · obtain ⟨x, xs, rfl⟩ := List.exists_cons_of_ne_nil hl₁
    obtain ⟨y, ys, rfl⟩ := List.exists_cons_of_ne_nil hl₂
    obtain rfl : y = m := by simpa using hrest
    simp only [List.cons_append, List.cons.injEq] at heq
    exact absurd (by rw [heq.2]; simp) hm

/-- A character that a mark does not have is a seam that no occurrence crosses. -/
theorem infix_of_infix_append_cons {mark front rest : List Char} {c : Char} (hmark : mark ≠ [])
    (hc : c ∉ mark) (h : mark <:+: front ++ c :: rest) : mark <:+: front ∨ mark <:+: rest := by
  rw [List.infix_append_iff_ne_nil] at h
  rcases h with hfront | hinfix | ⟨l₁, l₂, -, hl₂, rfl, -, t, ht⟩
  · exact Or.inl hfront
  · rcases List.infix_cons_iff.mp hinfix with ⟨t, ht⟩ | hrest
    · obtain ⟨m, ms, rfl⟩ := List.exists_cons_of_ne_nil hmark
      exact absurd (by simp [(List.cons.inj ht).1]) hc
    · exact Or.inr hrest
  · obtain ⟨d, ds, rfl⟩ := List.exists_cons_of_ne_nil hl₂
    exact absurd (by simp [(List.cons.inj ht).1]) hc

theorem after?_append (mark rest : List Char) : after? mark (mark ++ rest) = some rest :=
  (after?_eq_some_iff _ _ _).mpr rfl

theorem after?_eq_none_iff (mark text : List Char) : after? mark text = none ↔ ¬ mark <+: text := by
  constructor
  · rintro h ⟨rest, rfl⟩
    rw [after?_append] at h
    cases h
  · intro h
    cases hrest : after? mark text with
    | none => rfl
    | some rest =>
      rw [after?_eq_some_iff] at hrest
      exact absurd ⟨rest, hrest.symm⟩ h

/-! ## Cutting -/

theorem cut?_eq_none_iff {mark : List Char} (hmark : mark ≠ []) (text : List Char) :
    cut? mark text = none ↔ ¬ mark <:+: text := by
  induction text with
  | nil => simp [cut?, hmark]
  | cons c cs ih =>
    rw [List.infix_cons_iff, not_or, ← ih, ← after?_eq_none_iff, cut?]
    cases after? mark (c :: cs) <;> simp

theorem cut?_eq_some {mark text before after : List Char} (h : cut? mark text = some (before, after)) :
    text = before ++ (mark ++ after) := by
  induction text generalizing before with
  | nil =>
    by_cases hmark : mark = []
    · obtain ⟨rfl, rfl⟩ : [] = before ∧ [] = after := by simpa [cut?, hmark] using h
      simp [hmark]
    · simp [cut?, hmark] at h
  | cons c cs ih =>
    rw [cut?] at h
    cases hafter : after? mark (c :: cs) with
    | some rest =>
      obtain ⟨rfl, rfl⟩ : [] = before ∧ rest = after := by simpa [hafter] using h
      exact (after?_eq_some_iff mark _ rest).mp hafter
    | none =>
      simp only [hafter, Option.map_eq_some_iff, Prod.mk.injEq, Prod.exists] at h
      obtain ⟨before', after', hcut, rfl, rfl⟩ := h
      rw [ih hcut, List.cons_append]

theorem cut?_append_left {mark front before after : List Char} (h : cut? mark front = some (before, after))
    (hmark : mark ≠ []) (rest : List Char) : cut? mark (front ++ rest) = some (before, after ++ rest) := by
  induction front generalizing before with
  | nil => simp [cut?, hmark] at h
  | cons c cs ih =>
    rw [cut?] at h
    rw [List.cons_append, cut?, ← List.cons_append]
    cases hafter : after? mark (c :: cs) with
    | some found =>
      obtain ⟨rfl, rfl⟩ : [] = before ∧ found = after := by simpa [hafter] using h
      rw [(after?_eq_some_iff _ _ _).mp hafter, List.append_assoc, after?_append]
    | none =>
      simp only [hafter, Option.map_eq_some_iff, Prod.mk.injEq, Prod.exists] at h
      obtain ⟨before', after', hcut, rfl, rfl⟩ := h
      have hnone : after? mark (c :: cs ++ rest) = none := by
        rw [after?_eq_none_iff] at hafter ⊢
        intro hpre
        have hlen : mark.length ≤ (c :: cs).length := by
          rw [cut?_eq_some hcut]
          simp
          omega
        exact hafter (List.prefix_of_prefix_length_le hpre (List.prefix_append _ _) hlen)
      rw [hnone, ih hcut]
      rfl

theorem occurs_iff (mark text : List Char) : occurs mark text = true ↔ mark <:+: text := by
  by_cases hmark : mark = []
  · subst hmark
    cases text <;> simp [occurs, cut?, after?]
  · rw [occurs, ← not_iff_not, ← cut?_eq_none_iff hmark, Bool.not_eq_true, Option.isSome_eq_false_iff,
      Option.isNone_iff_eq_none]

theorem cut?_append {mark front : List Char} (hmark : Apart mark) (hfront : ¬ mark <:+: front)
    (rest : List Char) : cut? mark (front ++ (mark ++ rest)) = some (front, rest) := by
  induction front with
  | nil =>
    have hafter := after?_append mark rest
    obtain ⟨m, ms, rfl, -⟩ := hmark
    rw [List.nil_append, List.cons_append, cut?, ← List.cons_append, hafter]
  | cons c cs ih =>
    rw [List.infix_cons_iff, not_or] at hfront
    have hnone : after? mark (c :: (cs ++ (mark ++ rest))) = none := by
      rw [after?_eq_none_iff, ← List.cons_append]
      exact fun h => hfront.1 (prefix_of_prefix_append hmark (by simp) h)
    rw [List.cons_append, cut?, hnone, ih hfront.2]
    rfl

/-! ## Splitting -/

theorem pieces_of_not_infix {mark text : List Char} (h : ¬ mark <:+: text) : pieces mark text = [text] := by
  unfold pieces
  induction text with
  | nil => rfl
  | cons c cs ih =>
    rw [List.infix_cons_iff, not_or] at h
    rw [piecesFrom, if_neg (by simpa using h.1), ih h.2]
    rfl

theorem pieces_append {mark front : List Char} (hmark : Apart mark) (hfront : ¬ mark <:+: front)
    (rest : List Char) : pieces mark (front ++ (mark ++ rest)) = front :: pieces mark rest := by
  unfold pieces
  induction front with
  | nil =>
    obtain ⟨m, ms, rfl, -⟩ := hmark
    rw [List.nil_append, List.cons_append, piecesFrom, if_pos (by simp), piecesFrom_drop]
    simp
  | cons c cs ih =>
    rw [List.infix_cons_iff, not_or] at hfront
    have hnot : ¬ mark <+: c :: (cs ++ (mark ++ rest)) := by
      rw [← List.cons_append]
      exact fun h => hfront.1 (prefix_of_prefix_append hmark (by simp) h)
    rw [List.cons_append, piecesFrom, if_neg (by simpa using hnot), ih hfront.2]
    rfl

theorem pieces_ne_nil (mark text : List Char) : pieces mark text ≠ [] := by
  unfold pieces
  cases text with
  | nil => simp [piecesFrom]
  | cons c cs =>
    unfold piecesFrom
    split
    · simp
    · cases piecesFrom mark 0 cs <;> simp [growPiece]

theorem pieces_append_cons (c : Char) (front rest : List Char) :
    pieces [c] (front ++ c :: rest) = pieces [c] front ++ pieces [c] rest := by
  induction front with
  | nil => simp [pieces, piecesFrom]
  | cons x front ih =>
    obtain ⟨p, ps, hfront⟩ := List.exists_cons_of_ne_nil (pieces_ne_nil [c] front)
    rw [hfront] at ih
    unfold pieces at ih hfront ⊢
    rw [List.cons_append, piecesFrom, piecesFrom]
    split
    · rename_i hx
      rw [if_pos (by simpa using hx)]
      simp [ih, hfront]
    · rename_i hx
      rw [if_neg (by simpa using hx), ih, hfront]
      rfl

/-! ## Replacing -/

theorem replace_of_not_infix {mark text : List Char} (h : ¬ mark <:+: text) (new : List Char) :
    replace mark new text = text := by
  unfold replace
  induction text with
  | nil => rfl
  | cons c cs ih =>
    rw [List.infix_cons_iff, not_or] at h
    rw [replaceFrom, if_neg (by simpa using h.1), ih h.2]

theorem replace_self {mark : List Char} (hmark : mark ≠ []) (new : List Char) :
    replace mark new mark = new := by
  obtain ⟨m, ms, rfl⟩ := List.exists_cons_of_ne_nil hmark
  rw [replace, replaceFrom, if_pos (by simp), replaceFrom_drop]
  simp [replaceFrom]

theorem prefix_append_cons_iff {mark : List Char} {c : Char} (hc : c ∉ mark) (front rest : List Char) :
    mark <+: front ++ c :: rest ↔ mark <+: front := by
  refine ⟨fun h => ?_, fun h => h.trans (List.prefix_append _ _)⟩
  by_contra hnot
  -- A mark that reaches beyond the front has the character that comes next.
  have hlong : (front ++ [c]).length ≤ mark.length := by
    rw [List.length_append, List.length_singleton, Nat.succ_le_iff]
    exact Nat.lt_of_not_le fun hle => hnot (List.prefix_of_prefix_length_le h (List.prefix_append _ _) hle)
  have hfront : front ++ [c] <+: mark :=
    List.prefix_of_prefix_length_le ⟨rest, by simp⟩ h hlong
  exact hc (hfront.subset (by simp))

theorem replace_append_cons {mark : List Char} {c : Char} (hmark : mark ≠ []) (hc : c ∉ mark)
    (new front rest : List Char) :
    replace mark new (front ++ c :: rest) = replace mark new front ++ c :: replace mark new rest := by
  -- The induction is on the front, for any part of it that belongs to a mark already replaced.
  suffices h : ∀ skip ≤ front.length, replaceFrom mark new skip (front ++ c :: rest) =
      replaceFrom mark new skip front ++ c :: replaceFrom mark new 0 rest from h 0 (Nat.zero_le _)
  induction front with
  | nil =>
    intro skip hskip
    obtain rfl : skip = 0 := by simpa using hskip
    have hnot : ¬ mark <+: c :: rest := by
      intro h
      exact hmark (List.prefix_nil.mp ((prefix_append_cons_iff hc [] rest).mp h))
    simp [replaceFrom, hnot]
  | cons d front ih =>
    intro skip hskip
    cases skip with
    | succ skip => exact ih skip (by simpa using hskip)
    | zero =>
      have hstarts := prefix_append_cons_iff hc (d :: front) rest
      rw [List.cons_append] at hstarts
      simp only [List.cons_append, replaceFrom, List.isPrefixOf_iff_prefix, hstarts]
      split
      case isTrue h =>
        have hlen := h.length_le
        rw [List.length_cons] at hlen
        rw [ih (mark.length - 1) (by omega), List.append_assoc]
      case isFalse => rw [ih 0 (Nat.zero_le _), List.cons_append]

/-! ## Lines -/

theorem apart_newline : Apart ['\n'] := ⟨'\n', [], rfl, by simp⟩

theorem not_infix_of_newline_not_mem {text : List Char} (h : '\n' ∉ text) : ¬ ['\n'] <:+: text := by
  rwa [List.singleton_infix_iff]

theorem pieces_line (rest : List Char) : ∃ p ps, pieces ['\n'] rest = p :: ps ∧
    ∀ line, '\n' ∉ line → pieces ['\n'] (line ++ rest) = (line ++ p) :: ps := by
  obtain ⟨p, ps, hrest⟩ := List.exists_cons_of_ne_nil (pieces_ne_nil ['\n'] rest)
  refine ⟨p, ps, hrest, fun line hline => ?_⟩
  induction line with
  | nil => exact hrest
  | cons c line ih =>
    rw [List.mem_cons, not_or] at hline
    have hnot : ¬ ['\n'].isPrefixOf (c :: (line ++ rest)) = true := by simpa using hline.1
    rw [List.cons_append, pieces, piecesFrom, if_neg hnot, ← pieces, ih hline.2]
    rfl

theorem newline_not_mem_pieces (cs : List Char) : ∀ p ∈ pieces ['\n'] cs, '\n' ∉ p := by
  unfold pieces
  induction cs with
  | nil => simp [piecesFrom]
  | cons c cs ih =>
    rw [piecesFrom]
    by_cases hc : c = '\n'
    · subst hc
      rw [if_pos (by simp)]
      exact List.forall_mem_cons.mpr ⟨List.not_mem_nil, ih⟩
    · rw [if_neg (by simpa using Ne.symm hc)]
      cases hps : piecesFrom ['\n'] 0 cs with
      | nil => simp [growPiece, Ne.symm hc]
      | cons p ps =>
        rw [hps] at ih
        obtain ⟨hp, hps⟩ := List.forall_mem_cons.mp ih
        exact List.forall_mem_cons.mpr ⟨by simp [Ne.symm hc, hp], hps⟩

def firstLine (text : List Char) : List Char := text.takeWhile (· != '\n')

theorem cut?_newline_fst (text : List Char) :
    ((cut? ['\n'] text).getD (text, [])).1 = firstLine text := by
  unfold firstLine
  induction text with
  | nil => rfl
  | cons c cs ih =>
    by_cases hc : c = '\n'
    · subst hc
      simp [cut?, after?]
    · rw [List.takeWhile_cons_of_pos (by simpa using hc), ← ih, cut?]
      simp only [after?, if_neg (Ne.symm hc)]
      cases cut? ['\n'] cs <;> rfl

theorem firstLine_append {text rest : List Char} (h : rest = [] ∨ rest.head? = some '\n') :
    firstLine (text ++ rest) = firstLine text := by
  unfold firstLine
  induction text with
  | nil =>
    rcases h with rfl | h
    · rfl
    · obtain ⟨t, rfl⟩ := List.head?_eq_some_iff.mp h
      simp
  | cons c cs ih =>
    rw [List.cons_append, List.takeWhile_cons, List.takeWhile_cons, ih]

end Retrace.Text
