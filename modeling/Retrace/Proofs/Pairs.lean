import Retrace.Michelson.Balance
import Retrace.Michelson.Pair

/-!
# Reading pairs

A value tells where it ends if its delimiters are properly nested and a space stands only where
something is open: the first space after it that stands outside everything is the separator. So the
values of a nested pair can be read off its text, as long as their number is known.
-/

namespace Retrace.Michelson

/-! ## Nesting -/

/-- What is open at some point of a text. -/
structure Nesting where
  literal : Literal
  /-- The delimiters that have to come, that of the innermost open one first. -/
  awaited : List Char
deriving DecidableEq, Repr

namespace Nesting

def start : Nesting := ⟨.outside, []⟩

def delimiters : List Char := ['(', ')', '\x7b', '\x7d']

/-- Passes one character. Outside literals a closing delimiter has to match the innermost open one. -/
def next? (n : Nesting) (c : Char) : Option Nesting :=
  match n.literal with
  | .outside =>
    if c = '(' then some ⟨.outside, ')' :: n.awaited⟩
    else if c = '\x7b' then some ⟨.outside, '\x7d' :: n.awaited⟩
    else if c = ')' ∨ c = '\x7d' then
      if n.awaited.head? = some c then some ⟨.outside, n.awaited.tail⟩ else none
    else some { n with literal := n.literal.next c }
  | _ => some { n with literal := n.literal.next c }

/-- What passing a character can do: it opens a delimiter, closes the innermost one, or is none. -/
inductive Passes : Nesting → Char → Nesting → Prop
  | paren (ds : List Char) : Passes ⟨.outside, ds⟩ '(' ⟨.outside, ')' :: ds⟩
  | brace (ds : List Char) : Passes ⟨.outside, ds⟩ '\x7b' ⟨.outside, '\x7d' :: ds⟩
  | close {c : Char} (h : c = ')' ∨ c = '\x7d') (ds : List Char) :
    Passes ⟨.outside, c :: ds⟩ c ⟨.outside, ds⟩
  | other {n : Nesting} {c : Char} (h : n.literal = .outside → c ∉ delimiters) :
    Passes n c { n with literal := n.literal.next c }

theorem next?_eq_some_iff {n m : Nesting} {c : Char} : n.next? c = some m ↔ Passes n c m := by
  constructor
  · intro h
    unfold next? at h
    split at h
    · rename_i hliteral
      obtain ⟨literal, awaited⟩ := n
      obtain rfl : literal = .outside := hliteral
      split at h
      · rename_i hopen
        obtain rfl := Option.some.inj h
        exact hopen ▸ .paren awaited
      split at h
      · rename_i hopen
        obtain rfl := Option.some.inj h
        exact hopen ▸ .brace awaited
      split at h
      · rename_i hclose
        split at h
        · rename_i hhead
          obtain ⟨rest, rfl⟩ := List.head?_eq_some_iff.mp hhead
          obtain rfl := Option.some.inj h
          exact .close hclose rest
        · cases h
      · obtain rfl := Option.some.inj h
        exact .other fun _ => by simp_all [delimiters]
    · rename_i hliteral
      obtain rfl := Option.some.inj h
      exact .other fun houtside => absurd houtside hliteral
  · rintro (ds | ds | ⟨hc, ds⟩ | hc)
    · rfl
    · rfl
    · rcases hc with rfl | rfl
      · simp [next?]
      · simp [next?]
    · unfold next?
      split
      · rename_i hliteral
        have hc := hc hliteral
        simp_all [delimiters]
      · rfl

def scan? (n : Nesting) (cs : List Char) : Option Nesting := cs.foldlM next? n

theorem scan?_cons (n : Nesting) (c : Char) (cs : List Char) :
    n.scan? (c :: cs) = (n.next? c).bind (·.scan? cs) := rfl

theorem scan?_append (n : Nesting) (xs ys : List Char) :
    n.scan? (xs ++ ys) = (n.scan? xs).bind (·.scan? ys) := by
  unfold scan?
  rw [List.foldlM_append]
  rfl

theorem scan?_append_of_eq {n m : Nesting} {xs : List Char} (h : n.scan? xs = some m) (ys : List Char) :
    n.scan? (xs ++ ys) = m.scan? ys := by
  rw [scan?_append, h]
  rfl

theorem exists_scan?_of_append {n m : Nesting} {xs ys : List Char} (h : n.scan? (xs ++ ys) = some m) :
    ∃ k, n.scan? xs = some k := by
  rw [scan?_append] at h
  obtain ⟨k, hk, -⟩ := Option.bind_eq_some_iff.mp h
  exact ⟨k, hk⟩

/-- The same inside further delimiters. -/
def under (n : Nesting) (outer : List Char) : Nesting := { n with awaited := n.awaited ++ outer }

theorem next?_under {n m : Nesting} {c : Char} (h : n.next? c = some m) (outer : List Char) :
    (n.under outer).next? c = some (m.under outer) := by
  rw [next?_eq_some_iff] at h ⊢
  cases h with
  | paren ds => exact .paren (ds ++ outer)
  | brace ds => exact .brace (ds ++ outer)
  | close hc ds => exact .close hc (ds ++ outer)
  | other hc => exact .other (n := n.under outer) hc

theorem scan?_under {n m : Nesting} {cs : List Char} (h : n.scan? cs = some m) (outer : List Char) :
    (n.under outer).scan? cs = some (m.under outer) := by
  induction cs generalizing n with
  | nil =>
    obtain rfl := Option.some.inj h
    rfl
  | cons c cs ih =>
    rw [scan?_cons] at h ⊢
    obtain ⟨k, hk, hcs⟩ := Option.bind_eq_some_iff.mp h
    rw [next?_under hk]
    exact ih hcs

/-! ## Nesting and balance -/

/-- How many delimiters are open, whatever their order. -/
def balance (n : Nesting) : Balance := ⟨n.literal, n.awaited.count '\x7d', n.awaited.count ')'⟩

theorem balance_next {n m : Nesting} {c : Char} (h : n.next? c = some m) : n.balance.next c = m.balance := by
  unfold balance Balance.next Balance.braceStep Balance.parenStep
  cases next?_eq_some_iff.mp h with
  | paren ds => simp [Literal.next]
  | brace ds => simp [Literal.next]
  | close hc ds =>
    have hback : ∀ k : Nat, ((k : Int) + 1) + -1 = k := by
      intro k
      omega
    rcases hc with rfl | rfl
    · simp [Literal.next, hback]
    · simp [Literal.next, hback]
  | other hc =>
    cases hliteral : n.literal with
    | outside =>
      have hc := hc hliteral
      simp_all [delimiters]
    | inside => rfl
    | escaped => rfl

theorem balance_scan {n m : Nesting} {cs : List Char} (h : n.scan? cs = some m) :
    n.balance.scan cs = m.balance := by
  unfold Balance.scan
  induction cs generalizing n with
  | nil =>
    obtain rfl := Option.some.inj h
    rfl
  | cons c cs ih =>
    rw [scan?_cons] at h
    obtain ⟨k, hk, hcs⟩ := Option.bind_eq_some_iff.mp h
    rw [List.foldl_cons, balance_next hk]
    exact ih hcs

end Nesting

theorem isBalanced_of_nested {cs : List Char} (h : Nesting.start.scan? cs = some .start) :
    isBalanced cs = true := decide_eq_true (Nesting.balance_scan h)

/-! ## Texts that tell where they end -/

/-- Parentheses and braces outside literals are properly nested, literals are closed, and a space
stands only where something is open. -/
structure SelfDelimiting (text : List Char) : Prop where
  nonempty : text ≠ []
  nested : Nesting.start.scan? text = some .start
  spaces : ∀ before after, text = before ++ ' ' :: after → Nesting.start.scan? before ≠ some .start

theorem selfDelimiting_iff (text : List Char) :
    text ≠ [] ∧ Nesting.start.scan? text = some .start ∧
      (∀ i < text.length, text[i]? = some ' ' → Nesting.start.scan? (text.take i) ≠ some .start) ↔
    SelfDelimiting text := by
  constructor
  · rintro ⟨hne, hnested, hspaces⟩
    refine ⟨hne, hnested, ?_⟩
    rintro before after rfl
    have hbefore := hspaces before.length (by simp) (by simp)
    rwa [List.take_left] at hbefore
  · rintro ⟨hne, hnested, hspaces⟩
    refine ⟨hne, hnested, ?_⟩
    intro i hi hspace
    apply hspaces (text.take i) (text.drop (i + 1))
    obtain ⟨_, hget⟩ := List.getElem?_eq_some_iff.mp hspace
    rw [← hget, List.getElem_cons_drop, List.take_append_drop]

instance (text : List Char) : Decidable (SelfDelimiting text) := decidable_of_iff _ (selfDelimiting_iff text)

theorem SelfDelimiting.eq_nil_of_append {x more s t : List Char} (hx : Nesting.start.scan? x = some .start)
    (h : SelfDelimiting (x ++ more)) (hspace : ' ' :: s = more ++ ' ' :: t) : more = [] := by
  cases more with
  | nil => rfl
  | cons c more =>
    obtain ⟨rfl, -⟩ := List.cons.inj hspace
    -- After all of `x` the space stands outside everything.
    exact absurd hx (h.spaces x more rfl)

theorem SelfDelimiting.eq_of_append_space {x y s t : List Char} (hx : SelfDelimiting x)
    (hy : SelfDelimiting y) (h : x ++ ' ' :: s = y ++ ' ' :: t) : x = y ∧ s = t := by
  -- One of the two texts goes on where the other one ends.
  rcases List.append_eq_append_iff.mp h with ⟨more, rfl, hspace⟩ | ⟨more, rfl, hspace⟩
  · obtain rfl := hy.eq_nil_of_append hx.nested hspace
    simpa using h
  · obtain rfl := hx.eq_nil_of_append hy.nested hspace
    simpa using h

theorem selfDelimiting_parens {inner : List Char} (h : Nesting.start.scan? inner = some .start) :
    SelfDelimiting ('(' :: (inner ++ [')'])) := by
  have hopen : Nesting.start.next? '(' = some (Nesting.start.under [')']) := rfl
  have hinside : ∀ {cs k}, Nesting.start.scan? cs = some k →
      Nesting.start.scan? ('(' :: cs) = some (k.under [')']) := by
    intro cs k hcs
    rw [Nesting.scan?_cons, hopen]
    exact Nesting.scan?_under hcs [')']
  refine ⟨by simp, ?_, ?_⟩
  · rw [← List.cons_append, Nesting.scan?_append_of_eq (hinside h)]
    rfl
  · intro before after heq
    cases before with
    | nil => simp at heq
    | cons c before =>
      obtain ⟨rfl, hrest⟩ := List.cons.inj heq
      -- The last character is no space, so what stands before the space is a part of the inner text.
      obtain ⟨rest, rfl⟩ : ∃ rest, inner = before ++ rest := by
        rcases List.append_eq_append_iff.mp hrest with ⟨more, hbefore, hmore⟩ | ⟨more, hinner, -⟩
        · cases more with
          | nil => exact ⟨[], by simpa using hbefore.symm⟩
          | cons d more => simp at hmore
        · exact ⟨more, hinner⟩
      obtain ⟨k, hk⟩ := Nesting.exists_scan?_of_append h
      rw [hinside hk]
      simp [Nesting.under, Nesting.start]

/-! ## Pairs -/

def paired (first second : String) : String := "(Pair " ++ first ++ " " ++ second ++ ")"

theorem pair_cons (v : String) {vs : List String} (h : vs ≠ []) : pair (v :: vs) = paired v (pair vs) := by
  cases vs with
  | nil => exact absurd rfl h
  | cons w ws => rfl

theorem pair_append (outer : List String) {vs : List String} (h : vs ≠ []) :
    pair (outer ++ vs) = outer.foldr paired (pair vs) := by
  induction outer with
  | nil => rfl
  | cons v outer ih =>
    rw [List.cons_append, pair_cons v (by simp [h]), ih]
    rfl

theorem toList_paired (first second : String) :
    (paired first second).toList = '(' :: ("Pair ".toList ++ first.toList ++ ' ' :: second.toList ++ [')']) := by
  simp [paired]

theorem selfDelimiting_paired {first second : String} (hfirst : SelfDelimiting first.toList)
    (hsecond : SelfDelimiting second.toList) : SelfDelimiting (paired first second).toList := by
  have hword : Nesting.start.scan? "Pair ".toList = some .start := by decide
  have hspace : Nesting.start.next? ' ' = some .start := rfl
  rw [toList_paired]
  apply selfDelimiting_parens
  rw [List.append_assoc, Nesting.scan?_append_of_eq hword, Nesting.scan?_append_of_eq hfirst.nested,
    Nesting.scan?_cons, hspace]
  exact hsecond.nested

theorem selfDelimiting_pair {vs : List String} (hne : vs ≠ []) (h : ∀ v ∈ vs, SelfDelimiting v.toList) :
    SelfDelimiting (pair vs).toList := by
  induction vs with
  | nil => exact absurd rfl hne
  | cons v vs ih =>
    obtain ⟨hv, hvs⟩ := List.forall_mem_cons.mp h
    by_cases hmore : vs = []
    · subst hmore
      exact hv
    · rw [pair_cons v hmore]
      exact selfDelimiting_paired hv (ih hmore hvs)

theorem paired_inj {v w a b : String} (hv : SelfDelimiting v.toList) (hw : SelfDelimiting w.toList)
    (h : paired v a = paired w b) : v = w ∧ a = b := by
  have hlist := congrArg String.toList h
  rw [toList_paired, toList_paired] at hlist
  simp only [List.cons.injEq, true_and, List.append_assoc, List.append_cancel_left_eq, List.cons_append] at hlist
  obtain ⟨hfirst, hrest⟩ := hv.eq_of_append_space hw hlist
  exact ⟨String.toList_inj.mp hfirst, String.toList_inj.mp (List.append_cancel_right hrest)⟩

theorem pair_inj {xs ys : List String} (hxs : ∀ x ∈ xs, SelfDelimiting x.toList)
    (hys : ∀ y ∈ ys, SelfDelimiting y.toList) (hlength : xs.length = ys.length) (h : pair xs = pair ys) :
    xs = ys := by
  induction xs generalizing ys with
  | nil => exact (List.length_eq_zero_iff.mp hlength.symm).symm
  | cons x xs ih =>
    cases ys with
    | nil => simp at hlength
    | cons y ys =>
      obtain ⟨hx, hxs'⟩ := List.forall_mem_cons.mp hxs
      obtain ⟨hy, hys'⟩ := List.forall_mem_cons.mp hys
      have hlength' : xs.length = ys.length := by simpa using hlength
      by_cases hmore : xs = []
      · subst hmore
        obtain rfl := List.length_eq_zero_iff.mp hlength'.symm
        exact congrArg (fun v => [v]) h
      · have hmore' : ys ≠ [] := by
          rintro rfl
          exact hmore (List.length_eq_zero_iff.mp hlength')
        rw [pair_cons x hmore, pair_cons y hmore'] at h
        obtain ⟨rfl, hrest⟩ := paired_inj hx hy h
        rw [ih hxs' hys' hlength' hrest]

/-- **Pairs can be read.** A nested pair of texts that tell where they end is such a text itself, and
it is the pair of no other list of as many of them. Each value but the last is paired with the pair
of those after it, at every depth. -/
theorem pair_readable {xs ys : List String} (hne : xs ≠ []) (hlength : xs.length = ys.length)
    (hxs : ∀ x ∈ xs, SelfDelimiting x.toList) (hys : ∀ y ∈ ys, SelfDelimiting y.toList) :
    (pair xs = pair ys ↔ xs = ys) ∧
    SelfDelimiting (pair xs).toList ∧ isBalanced (pair xs).toList = true ∧
    ∀ outer first rest, xs = outer ++ first :: rest → rest ≠ [] →
      pair (first :: rest) = "(Pair " ++ first ++ " " ++ pair rest ++ ")" ∧
      pair xs = outer.foldr paired (pair (first :: rest)) := by
  have hself := selfDelimiting_pair hne hxs
  refine ⟨⟨pair_inj hxs hys hlength, congrArg pair⟩, hself, isBalanced_of_nested hself.nested, ?_⟩
  rintro outer first rest rfl hrest
  exact ⟨pair_cons first hrest, pair_append outer (by simp)⟩

/-- The same three values, grouped to the left and to the right. The literal holds a parenthesis, an
escaped quote and spaces. -/
def leftGrouped : List String := ["(Pair \"a) \\\" b\" \x7b 1 ; 2 \x7d)", "3"]

def rightGrouped : List String := ["\"a) \\\" b\"", "(Pair \x7b 1 ; 2 \x7d 3)"]

theorem pair_readable_grouped :
    (∀ x ∈ leftGrouped, SelfDelimiting x.toList) ∧ (∀ y ∈ rightGrouped, SelfDelimiting y.toList) ∧
      pair leftGrouped ≠ pair rightGrouped ∧ SelfDelimiting (pair leftGrouped).toList ∧
      isBalanced (pair leftGrouped).toList = true := by
  have hleft : ∀ x ∈ leftGrouped, SelfDelimiting x.toList := by decide
  have hright : ∀ y ∈ rightGrouped, SelfDelimiting y.toList := by decide
  have hdiffer : leftGrouped ≠ rightGrouped := by decide
  have hlength : leftGrouped.length = rightGrouped.length := by decide
  obtain ⟨hsame, hself, hbalanced, -⟩ := pair_readable (by decide) hlength hleft hright
  exact ⟨hleft, hright, mt hsame.mp hdiffer, hself, hbalanced⟩

-- A list of another length may be written alike.
example : pair ["1", "2"] = pair ["(Pair 1 2)"] := by decide

end Retrace.Michelson
