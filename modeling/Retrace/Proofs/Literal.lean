import Retrace.Michelson.Balance

/-!
# Contents of string literals

A literal ends at the first double quote that no backslash escapes. A text that holds none, and does
not end with a backslash that would escape the closing quote, can stand between the quotes: a scanner
passes it without leaving the literal, and the literal tells by itself where it ends.
-/

namespace Retrace.Michelson

/-- Whether a scanner inside a literal stays there all along and may leave it at the end. -/
def Literal.encloses : Literal → List Char → Bool
  | l, [] => l == .inside
  | l, c :: cs => l.next c != .outside && (l.next c).encloses cs

/-- Whether a text can stand between double quotes. -/
def isEnclosed (text : List Char) : Bool := Literal.inside.encloses text

theorem Literal.encloses_cons {l : Literal} {c : Char} {cs : List Char}
    (h : l.encloses (c :: cs) = true) : l.next c ≠ .outside ∧ (l.next c).encloses cs = true := by
  simpa [encloses] using h

theorem Literal.encloses_unique {l : Literal} {x y s t : List Char} (hx : l.encloses x = true)
    (hy : l.encloses y = true) (h : x ++ '"' :: s = y ++ '"' :: t) : x = y ∧ s = t := by
  induction x generalizing l y with
  | nil =>
    obtain rfl : l = .inside := by simpa [encloses] using hx
    cases y with
    | nil => simpa using h
    | cons c y =>
      obtain ⟨rfl, -⟩ : '"' = c ∧ s = y ++ '"' :: t := by simpa using h
      exact absurd rfl (encloses_cons hy).1
  | cons c x ih =>
    cases y with
    | nil =>
      obtain rfl : l = .inside := by simpa [encloses] using hy
      obtain ⟨rfl, -⟩ : c = '"' ∧ x ++ '"' :: s = t := by simpa using h
      exact absurd rfl (encloses_cons hx).1
    | cons d y =>
      obtain ⟨rfl, hrest⟩ : c = d ∧ x ++ '"' :: s = y ++ '"' :: t := by simpa using h
      obtain ⟨rfl, rfl⟩ := ih (encloses_cons hx).2 (encloses_cons hy).2 hrest
      exact ⟨rfl, rfl⟩

namespace Balance

theorem next_of_ne_outside {l : Literal} (h : l ≠ .outside) (braces parens : Int) (c : Char) :
    (⟨l, braces, parens⟩ : Balance).next c = ⟨l.next c, braces, parens⟩ := by
  cases l with
  | outside => exact absurd rfl h
  | inside => rfl
  | escaped => rfl

theorem scan_encloses {l : Literal} {text : List Char} (hl : l ≠ .outside)
    (h : l.encloses text = true) (braces parens : Int) :
    (⟨l, braces, parens⟩ : Balance).scan text = ⟨.inside, braces, parens⟩ := by
  unfold scan
  induction text generalizing l with
  | nil =>
    obtain rfl : l = .inside := by simpa [Literal.encloses] using h
    rfl
  | cons c cs ih =>
    obtain ⟨hnext, hcs⟩ := Literal.encloses_cons h
    rw [List.foldl_cons, next_of_ne_outside hl, ih hnext hcs]

theorem scan_literal {text : List Char} (h : isEnclosed text = true) (braces parens : Int)
    (rest : List Char) : (⟨.outside, braces, parens⟩ : Balance).scan ('"' :: (text ++ '"' :: rest)) =
      (⟨.outside, braces, parens⟩ : Balance).scan rest := by
  have hopen : (⟨.outside, braces, parens⟩ : Balance).next '"' = ⟨.inside, braces, parens⟩ := by
    simp [next, Literal.next, braceStep, parenStep]
  have hpass := scan_encloses (by decide) h braces parens
  rw [scan, List.foldl_cons, hopen, ← scan, scan_append, hpass]
  rfl

theorem scan_plain {text : List Char}
    (h : ∀ c ∈ text, c ≠ '"' ∧ c ≠ '\x7b' ∧ c ≠ '\x7d' ∧ c ≠ '(' ∧ c ≠ ')') (braces parens : Int) :
    (⟨.outside, braces, parens⟩ : Balance).scan text = ⟨.outside, braces, parens⟩ := by
  unfold scan
  induction text with
  | nil => rfl
  | cons c cs ih =>
    obtain ⟨⟨hquote, hopen, hclose, hleft, hright⟩, hcs⟩ := List.forall_mem_cons.mp h
    have hnext : (⟨.outside, braces, parens⟩ : Balance).next c = ⟨.outside, braces, parens⟩ := by
      simp [next, Literal.next, braceStep, parenStep, hquote, hopen, hclose, hleft, hright]
    rw [List.foldl_cons, hnext, ih hcs]

end Balance
end Retrace.Michelson
