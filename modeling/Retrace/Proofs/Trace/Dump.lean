import Retrace.Proofs.Text.Marks
import Retrace.Proofs.Text.Trim
import Retrace.Trace.Stack

/-!
# Dumps as they are printed

A stack is printed between square brackets, a value on each line or over several lines. Splitting the
dump gives the values back. A line break acts on brackets and literals as a space does, so the scanner
that looks for the closing bracket passes a broken value as it passes the value in one piece.
-/

namespace Retrace.Trace

open Retrace.Text Retrace.Michelson

/-! ## Printing -/

structure Line where
  /-- Spaces in front of the text. -/
  indent : Nat
  text : List Char

structure Value where
  lines : List Line

def joined (lines : List Line) : List Char := join [' '] (lines.map (·.text))

def Value.text (v : Value) : List Char := joined v.lines

def Line.print (l : Line) : List Char := '\n' :: (spaces l.indent ++ l.text)

def printLines : List Line → List Char
  | [] => []
  | l :: ls => l.text ++ ls.flatMap Line.print

/-- A stack, with the spaces before its opening bracket and the blanks inside its brackets. The first
value may stand right after the bracket or on a line of its own. -/
structure Dump where
  indent : Nat
  left : List Char
  values : List Value
  right : List Char

def Dump.inner (d : Dump) : List Char :=
  d.left ++ printLines (d.values.flatMap (·.lines)) ++ d.right

def Dump.print (d : Dump) : List Char := spaces d.indent ++ '[' :: (d.inner ++ [']'])

/-! ## Brackets -/

/-- Passes one character: the brackets open outside literals are counted, and none may be closed that
is not open. -/
def bracketStep : Nat × Literal → Char → Option (Nat × Literal)
  | (depth, .outside), c =>
    if c = '[' then some (depth + 1, .outside)
    else if c = ']' then
      match depth with
      | 0 => none
      | depth + 1 => some (depth, .outside)
    else some (depth, Literal.outside.next c)
  | (depth, literal), c => some (depth, literal.next c)

/-- The square brackets outside literals are properly nested. -/
def Nested (cs : List Char) : Prop := cs.foldlM bracketStep (0, .outside) = some (0, .outside)

instance (cs : List Char) : Decidable (Nested cs) := inferInstanceAs (Decidable (_ = _))

theorem upToBracket?_cons {depth d : Nat} {literal l : Literal} {c : Char}
    (h : bracketStep (depth, literal) c = some (d, l)) (cs : List Char) :
    upToBracket? depth literal (c :: cs) = (upToBracket? d l cs).map (c :: ·) := by
  cases literal with
  | outside =>
    by_cases hclose : c = ']'
    · subst hclose
      cases depth with
      | zero => simp [bracketStep] at h
      | succ depth =>
        obtain ⟨rfl, rfl⟩ : depth = d ∧ .outside = l := by simpa [bracketStep] using h
        simp [upToBracket?]
    · by_cases hopen : c = '['
      · obtain ⟨rfl, rfl⟩ : depth + 1 = d ∧ .outside = l := by simpa [bracketStep, hopen] using h
        simp [upToBracket?, hopen]
      · obtain ⟨rfl, rfl⟩ : depth = d ∧ Literal.outside.next c = l := by
          simpa [bracketStep, hopen, hclose] using h
        simp [upToBracket?, hopen, hclose]
  | inside =>
    obtain ⟨rfl, rfl⟩ : depth = d ∧ Literal.inside.next c = l := by simpa [bracketStep] using h
    simp [upToBracket?]
  | escaped =>
    obtain ⟨rfl, rfl⟩ : depth = d ∧ Literal.escaped.next c = l := by simpa [bracketStep] using h
    simp [upToBracket?]

theorem upToBracket?_append {depth d : Nat} {literal l : Literal} {cs : List Char}
    (h : cs.foldlM bracketStep (depth, literal) = some (d, l)) (rest : List Char) :
    upToBracket? depth literal (cs ++ rest) = (upToBracket? d l rest).map (cs ++ ·) := by
  induction cs generalizing depth literal with
  | nil =>
    obtain ⟨rfl, rfl⟩ : depth = d ∧ literal = l := by simpa using h
    simp
  | cons c cs ih =>
    rw [List.foldlM_cons] at h
    obtain ⟨⟨depth', literal'⟩, hstep, hcs⟩ := Option.bind_eq_some_iff.mp h
    rw [List.cons_append, upToBracket?_cons hstep, ih hcs]
    simp [Function.comp_def]

theorem bracketed?_append {inner : List Char} (h : Nested inner) (rest : List Char) :
    bracketed? ('[' :: (inner ++ ']' :: rest)) = some inner := by
  rw [bracketed?, upToBracket?_append h, upToBracket?]
  simp

theorem nested_of_allBlank {cs : List Char} (h : allBlank cs = true) : Nested cs := by
  induction cs with
  | nil => rfl
  | cons c cs ih =>
    obtain ⟨hc, hcs⟩ := (allBlank_cons c cs).mp h
    have hopen : c ≠ '[' := by rintro rfl; exact absurd hc (by decide)
    have hclose : c ≠ ']' := by rintro rfl; exact absurd hc (by decide)
    have hquote : c ≠ '"' := by rintro rfl; exact absurd hc (by decide)
    have hstep : bracketStep (0, .outside) c = some (0, .outside) := by
      simp [bracketStep, Literal.next, hopen, hclose, hquote]
    rw [Nested, List.foldlM_cons, hstep]
    exact ih hcs

theorem Nested.append {as bs : List Char} (ha : Nested as) (hb : Nested bs) : Nested (as ++ bs) := by
  unfold Nested at *
  rw [List.foldlM_append, ha]
  exact hb

/-! ## Breaks -/

theorem bracketStep_space (depth : Nat) (literal : Literal) :
    bracketStep (depth, literal) ' ' = some (depth, literal.next ' ') := by
  cases literal <;> simp [bracketStep]

theorem bracketStep_newline (depth : Nat) (literal : Literal) :
    bracketStep (depth, literal) '\n' = some (depth, literal.next ' ') := by
  cases literal <;> simp [bracketStep, Literal.next]

theorem next_space_space (literal : Literal) : (literal.next ' ').next ' ' = literal.next ' ' := by
  cases literal <;> rfl

theorem foldlM_spaces (n depth : Nat) (literal : Literal) :
    (spaces n).foldlM bracketStep (depth, literal.next ' ') = some (depth, literal.next ' ') := by
  induction n with
  | zero => rfl
  | succ n ih =>
    rw [spaces, List.replicate_succ, List.foldlM_cons, bracketStep_space, next_space_space]
    exact ih

theorem foldlM_print (l : Line) (state : Nat × Literal) :
    l.print.foldlM bracketStep state = (' ' :: l.text).foldlM bracketStep state := by
  obtain ⟨depth, literal⟩ := state
  rw [Line.print, List.foldlM_cons, List.foldlM_cons, bracketStep_newline, bracketStep_space,
    Option.bind_eq_bind, Option.bind_some, List.foldlM_append, foldlM_spaces]
  rfl

theorem join_cons (sep t : List Char) (ts : List (List Char)) :
    join sep (t :: ts) = t ++ ts.flatMap (sep ++ ·) := by
  induction ts generalizing t with
  | nil => simp [join]
  | cons u us ih => rw [join, ih, List.flatMap_cons, List.append_assoc, List.append_assoc]; simp

theorem foldlM_printLines (lines : List Line) (state : Nat × Literal) :
    (printLines lines).foldlM bracketStep state = (joined lines).foldlM bracketStep state := by
  cases lines with
  | nil => rfl
  | cons l ls =>
    rw [printLines, joined, List.map_cons, join_cons, List.foldlM_append, List.foldlM_append]
    -- The later lines act alike on whatever state the first one leaves.
    congr 1
    funext state
    induction ls generalizing state with
    | nil => rfl
    | cons l' ls ih =>
      rw [List.flatMap_cons, List.foldlM_append, foldlM_print, List.map_cons, List.flatMap_cons,
        List.foldlM_append]
      exact bind_congr ih

theorem join_append {sep : List Char} {as bs : List (List Char)} (ha : as ≠ []) (hb : bs ≠ []) :
    join sep (as ++ bs) = join sep as ++ (sep ++ join sep bs) := by
  obtain ⟨a, as, rfl⟩ := List.exists_cons_of_ne_nil ha
  obtain ⟨b, bs, rfl⟩ := List.exists_cons_of_ne_nil hb
  simp [join_cons]

theorem joined_append {as bs : List Line} (ha : as ≠ []) (hb : bs ≠ []) :
    joined (as ++ bs) = joined as ++ ' ' :: joined bs := by
  rw [joined, List.map_append, join_append (by simpa using ha) (by simpa using hb)]
  rfl

/-! ## Values -/

structure Line.WellFormed (l : Line) : Prop where
  ne_nil : l.text ≠ []
  trimmed : trim l.text = l.text
  no_newline : '\n' ∉ l.text

/-- A value that is printed so that it can be read back. A break stands for a single space, so no other
blanks stand beside it; and no group of the first lines is balanced. -/
structure Value.WellFormed (v : Value) : Prop where
  ne_nil : v.lines ≠ []
  lines : ∀ l ∈ v.lines, l.WellFormed
  balanced : isBalanced v.text = true
  nested : Nested v.text
  unbroken : ∀ k, 0 < k → k < v.lines.length → isBalanced (joined (v.lines.take k)) = false

theorem nested_joined {values : List Value} (h : ∀ v ∈ values, v.WellFormed) :
    Nested (joined (values.flatMap (·.lines))) := by
  induction values with
  | nil => rfl
  | cons v vs ih =>
    obtain ⟨hv, hvs⟩ := List.forall_mem_cons.mp h
    rw [List.flatMap_cons]
    by_cases hempty : vs.flatMap (·.lines) = []
    · rw [hempty, List.append_nil]
      exact hv.nested
    · rw [joined_append hv.ne_nil hempty]
      exact hv.nested.append ((nested_of_allBlank (allBlank_spaces 1)).append (ih hvs))

/-- A stack that is printed so that it can be read back. -/
structure Dump.WellFormed (d : Dump) : Prop where
  left : allBlank d.left = true
  right : allBlank d.right = true
  values : ∀ v ∈ d.values, v.WellFormed

theorem nested_inner {d : Dump} (h : d.WellFormed) : Nested d.inner := by
  have hlines : Nested (printLines (d.values.flatMap (·.lines))) := by
    unfold Nested
    rw [foldlM_printLines]
    exact nested_joined h.values
  exact ((nested_of_allBlank h.left).append hlines).append (nested_of_allBlank h.right)

/-! ## Lines -/

theorem stackLines_of_line {line : List Char} (h : '\n' ∉ line) :
    stackLines line = [trim line].filter (!·.isEmpty) := by
  rw [stackLines, pieces_of_not_infix (not_infix_of_newline_not_mem h)]
  rfl

theorem stackLines_append {line : List Char} (h : '\n' ∉ line) (rest : List Char) :
    stackLines (line ++ '\n' :: rest) = stackLines line ++ stackLines rest := by
  rw [stackLines_of_line h, stackLines]
  have hpieces := pieces_append apart_newline (not_infix_of_newline_not_mem h) rest
  rw [List.singleton_append] at hpieces
  rw [hpieces, List.map_cons, ← List.singleton_append, List.filter_append]
  rfl

theorem stackLines_cons_of_blank {c : Char} (h : isBlank c = true) (cs : List Char) :
    stackLines (c :: cs) = stackLines cs := by
  by_cases hc : c = '\n'
  · subst hc
    exact stackLines_append List.not_mem_nil cs
  · have htrim : ∀ p, trim (c :: p) = trim p := fun p => by
      rw [trim, trimStart, List.dropWhile_cons_of_pos h, ← trimStart, ← trim]
    rw [stackLines, stackLines, pieces, piecesFrom, if_neg (by simpa using Ne.symm hc), ← pieces]
    cases pieces ['\n'] cs with
    | nil => rw [growPiece, List.map_singleton, htrim]; rfl
    | cons p ps => rw [growPiece, List.map_cons, List.map_cons, htrim]

theorem stackLines_append_left {left : List Char} (h : allBlank left = true) (cs : List Char) :
    stackLines (left ++ cs) = stackLines cs := by
  induction left with
  | nil => rfl
  | cons c left ih =>
    obtain ⟨hc, hleft⟩ := (allBlank_cons c left).mp h
    rw [List.cons_append, stackLines_cons_of_blank hc, ih hleft]

theorem stackLines_append_right {line right : List Char} (hline : '\n' ∉ line) (h : allBlank right = true) :
    stackLines (line ++ right) = stackLines line := by
  induction right generalizing line with
  | nil => rw [List.append_nil]
  | cons c right ih =>
    obtain ⟨hc, hright⟩ := (allBlank_cons c right).mp h
    by_cases hnew : c = '\n'
    · have hblank : stackLines right = [] := by
        have := stackLines_append_left hright []
        rwa [List.append_nil] at this
      rw [hnew, stackLines_append hline, hblank, List.append_nil]
    · have hlonger : '\n' ∉ line ++ [c] := by simp [hline, Ne.symm hnew]
      have htrim : trim (line ++ [c]) = trim line := by
        have hnil : allBlank [] = true := rfl
        have hblank : allBlank [c] = true := (allBlank_cons c []).mpr ⟨hc, hnil⟩
        exact trim_pad hnil hblank line
      rw [List.append_cons, ih hlonger hright, stackLines_of_line hlonger, htrim,
        stackLines_of_line hline]

theorem stackLines_print {lines : List Line} (h : ∀ l ∈ lines, l.WellFormed) {right : List Char}
    (hright : allBlank right = true) : stackLines (printLines lines ++ right) = lines.map (·.text) := by
  induction lines with
  | nil => exact stackLines_append_right List.not_mem_nil hright
  | cons l ls ih =>
    obtain ⟨hl, hls⟩ := List.forall_mem_cons.mp h
    have hfirst : stackLines l.text = [l.text] := by
      rw [stackLines_of_line hl.no_newline, hl.trimmed]
      simp [hl.ne_nil]
    cases ls with
    | nil =>
      rw [printLines, List.flatMap_nil, List.append_nil, stackLines_append_right hl.no_newline hright,
        hfirst]
      rfl
    | cons l' ls =>
      have hsplit : printLines (l :: l' :: ls) ++ right =
          l.text ++ '\n' :: (spaces l'.indent ++ (printLines (l' :: ls) ++ right)) := by
        simp [printLines, Line.print]
      rw [hsplit, stackLines_append hl.no_newline, stackLines_append_left (allBlank_spaces _), hfirst,
        ih hls]
      rfl

/-! ## Grouping -/

theorem gather_joined {soFar : List Line} (h : ∀ l ∈ soFar, l.WellFormed) (l : Line) :
    gather (joined soFar) l.text = joined (soFar ++ [l]) := by
  cases soFar with
  | nil => rfl
  | cons k ks =>
    have hempty : (joined (k :: ks)).isEmpty = false := by
      simp [joined, join_cons, (h k List.mem_cons_self).ne_nil]
    rw [gather, hempty, joined_append (by simp) (by simp)]
    rfl

theorem segment_append (soFar : List Line) {todo : List Line} (h : ∀ l ∈ soFar ++ todo, l.WellFormed)
    (htodo : todo ≠ []) (hwhole : isBalanced (joined (soFar ++ todo)) = true)
    (hpart : ∀ k, soFar.length < k → k < (soFar ++ todo).length →
      isBalanced (joined ((soFar ++ todo).take k)) = false) (rest : List (List Char)) :
    segment (joined soFar) (todo.map (·.text) ++ rest) =
      (segment [] rest).map (String.ofList (joined (soFar ++ todo)) :: ·) := by
  induction todo generalizing soFar with
  | nil => exact absurd rfl htodo
  | cons l ls ih =>
    have hgather := gather_joined (fun k hk => h k (List.mem_append_left _ hk)) l
    rw [List.map_cons, List.cons_append, segment, hgather]
    cases ls with
    | nil => rw [if_pos hwhole, List.map_nil, List.nil_append]
    | cons l' ls =>
      have hsplit : soFar ++ l :: l' :: ls = (soFar ++ [l]) ++ (l' :: ls) := by simp
      have hopen : isBalanced (joined (soFar ++ [l])) = false := by
        have := hpart (soFar.length + 1) (by omega) (by simp)
        rwa [hsplit, List.take_left' (by simp)] at this
      rw [hopen, if_neg (by simp), hsplit]
      rw [hsplit] at h hwhole hpart
      refine ih (soFar ++ [l]) h (by simp) hwhole ?_
      intro k hk hlt
      rw [List.length_append, List.length_singleton] at hk
      exact hpart k (by omega) hlt

theorem segment_values {values : List Value} (h : ∀ v ∈ values, v.WellFormed) :
    segment [] ((values.flatMap (·.lines)).map (·.text)) = .ok (values.map (String.ofList ·.text)) := by
  induction values with
  | nil => rfl
  | cons v vs ih =>
    obtain ⟨hv, hvs⟩ := List.forall_mem_cons.mp h
    have hsegment := segment_append [] hv.lines hv.ne_nil hv.balanced hv.unbroken
      ((vs.flatMap (·.lines)).map (·.text))
    rw [List.flatMap_cons, List.map_append]
    exact hsegment.trans (by rw [ih hvs]; rfl)

theorem stackLines_inner {d : Dump} (h : d.WellFormed) :
    stackLines d.inner = (d.values.flatMap (·.lines)).map (·.text) := by
  have hlines : ∀ l ∈ d.values.flatMap (·.lines), l.WellFormed := by
    intro l hl
    obtain ⟨v, hv, hl⟩ := List.mem_flatMap.mp hl
    exact (h.values v hv).lines l hl
  rw [Dump.inner, List.append_assoc, stackLines_append_left h.left]
  exact stackLines_print hlines h.right

theorem splitStack_print {d : Dump} (h : d.WellFormed) (rest : List Char) :
    splitStack (d.print ++ rest) = .ok (d.values.map (String.ofList ·.text)) := by
  have htrim : trim (d.print ++ rest) = '[' :: (d.inner ++ ']' :: trimEnd rest) := by
    rw [Dump.print, List.append_assoc, trim, trimStart_append_of_allBlank (allBlank_spaces _)]
    simp only [List.cons_append, List.append_assoc, List.nil_append]
    rw [trimStart, List.dropWhile_cons_of_neg (by decide), ← List.cons_append,
      trimEnd_append_solid (by decide), List.cons_append]
  rw [splitStack, htrim]
  simp only [List.isEmpty_cons, bracketed?_append (nested_inner h), stackLines_inner h]
  exact segment_values h.values

end Retrace.Trace
