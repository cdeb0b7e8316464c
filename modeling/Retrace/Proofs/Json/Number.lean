import Retrace.Json.Number
import Retrace.Proofs.Decimal

/-!
# Numbers as they are written

A number that is written part by part reads back as those parts, before anything that ends a value. A whole
number of 64 bits reads back as itself.
-/

namespace Retrace.Json

open Retrace.Decimal

/-- What stands after a value: nothing, a comma or a closing bracket. -/
def Closes (rest : List Char) : Prop := ∀ c ∈ rest.head?, c = ',' ∨ c = ']' ∨ c = '\x7d'

theorem closes_nil : Closes [] := by simp [Closes]

theorem closes_cons {c : Char} (h : c = ',' ∨ c = ']' ∨ c = '\x7d') (rest : List Char) :
    Closes (c :: rest) := by
  simpa [Closes] using h

theorem Closes.cases {rest : List Char} (h : Closes rest) :
    rest = [] ∨ ∃ c cs, rest = c :: cs ∧ (c = ',' ∨ c = ']' ∨ c = '\x7d') := by
  cases rest with
  | nil => exact Or.inl rfl
  | cons c cs => exact Or.inr ⟨c, cs, rfl, h c rfl⟩

/-- No digit follows. -/
def Ends (rest : List Char) : Prop := ∀ c ∈ rest.head?, c.isDigit = false

theorem Closes.ends {rest : List Char} (h : Closes rest) : Ends rest := by
  intro c hc
  rcases h c hc with rfl | rfl | rfl <;> rfl

/-- The whole numbers that 64 bits hold, with or without sign. -/
def IsWord (n : Int) : Prop := -(Nat.pow 2 63 : Int) ≤ n ∧ n < (Nat.pow 2 64 : Int)

namespace Numeral

/-! ## The parts of a number -/

def signText (negative : Bool) : List Char := if negative then ['-'] else []

def fractionText : Option (List Char) → List Char
  | none => []
  | some ds => '.' :: ds

def exponentText : Option (Bool × List Char) → List Char
  | none => []
  | some (negative, ds) => 'e' :: (if negative then '-' else '+') :: ds

def text (n : Numeral) : List Char :=
  signText n.negative ++ (n.whole ++ (fractionText n.fraction ++ exponentText n.exponent))

/-- The parts are digits, and the whole part has no zero in front. -/
structure WellFormed (n : Numeral) : Prop where
  whole : Canonical n.whole
  fraction : ∀ ds ∈ n.fraction, isNumeral ds = true
  exponent : ∀ e ∈ n.exponent, isNumeral e.2 = true

theorem ends_exponent (e : Option (Bool × List Char)) {rest : List Char} (h : Closes rest) :
    Ends (exponentText e ++ rest) := by
  cases e with
  | none => exact h.ends
  | some e => simp [Ends, exponentText]

theorem ends_fraction (f : Option (List Char)) (e : Option (Bool × List Char)) {rest : List Char}
    (h : Closes rest) : Ends (fractionText f ++ (exponentText e ++ rest)) := by
  cases f with
  | none => exact ends_exponent e h
  | some ds => simp [Ends, fractionText]

theorem digits?_append {ds rest : List Char} (h : isNumeral ds = true) (hrest : Ends rest) :
    digits? (ds ++ rest) = some (ds, rest) := by
  simp only [isNumeral, Bool.and_eq_true, Bool.not_eq_true', List.isEmpty_eq_false_iff, List.all_eq_true] at h
  have hstop : rest.takeWhile Char.isDigit = [] ∧ rest.dropWhile Char.isDigit = rest := by
    cases rest with
    | nil => simp
    | cons c cs => simp [hrest c rfl]
  unfold digits?
  rw [List.takeWhile_append_of_pos h.2, List.dropWhile_append_of_pos h.2, hstop.1, hstop.2, List.append_nil]
  cases ds with
  | nil => exact absurd rfl h.1
  | cons d ds => rfl

theorem whole?_append {ds rest : List Char} (h : Canonical ds) (hrest : Ends rest) :
    whole? (ds ++ rest) = some (ds, rest) := by
  unfold whole?
  rw [digits?_append h.1 hrest]
  split
  · rename_i hzero
    obtain ⟨rfl, -⟩ := Prod.mk.inj (Option.some.inj hzero)
    simpa using h.2 rfl
  · rfl

theorem fraction?_append {f : Option (List Char)} (h : ∀ ds ∈ f, isNumeral ds = true)
    (e : Option (Bool × List Char)) {rest : List Char} (hrest : Closes rest) :
    fraction? (fractionText f ++ (exponentText e ++ rest)) = some (f, exponentText e ++ rest) := by
  cases f with
  | none =>
    cases e with
    | none => obtain rfl | ⟨c, cs, rfl, rfl | rfl | rfl⟩ := hrest.cases <;> rfl
    | some e => rfl
  | some ds => simp [fractionText, fraction?, digits?_append (h ds rfl) (ends_exponent e hrest)]

theorem exponent?_append {e : Option (Bool × List Char)} (h : ∀ d ∈ e, isNumeral d.2 = true) {rest : List Char}
    (hrest : Closes rest) : exponent? (exponentText e ++ rest) = some (e, rest) := by
  cases e with
  | none => obtain rfl | ⟨c, cs, rfl, rfl | rfl | rfl⟩ := hrest.cases <;> simp [exponentText, exponent?]
  | some e =>
    obtain ⟨negative, ds⟩ := e
    have hdigits := digits?_append (h _ rfl) (hrest.ends)
    cases negative <;> simp [exponentText, exponent?, hdigits]

theorem unsigned?_append (negative : Bool) {n : Numeral} (h : n.WellFormed) {rest : List Char}
    (hrest : Closes rest) :
    unsigned? negative (n.whole ++ (fractionText n.fraction ++ (exponentText n.exponent ++ rest))) =
      some (⟨negative, n.whole, n.fraction, n.exponent⟩, rest) := by
  unfold unsigned?
  rw [whole?_append h.whole (ends_fraction _ _ hrest), Option.bind_some, fraction?_append h.fraction _ hrest,
    Option.bind_some, exponent?_append h.exponent hrest]
  rfl

theorem whole_eq_cons {n : Numeral} (h : n.WellFormed) : ∃ c cs, n.whole = c :: cs ∧ c.isDigit = true := by
  have hdigits := h.whole.1
  cases hwhole : n.whole with
  | nil => simp [hwhole, isNumeral] at hdigits
  | cons c cs =>
    simp [hwhole, isNumeral] at hdigits
    exact ⟨c, cs, rfl, hdigits.1⟩

theorem read?_text {n : Numeral} (h : n.WellFormed) {rest : List Char} (hrest : Closes rest) :
    read? (n.text ++ rest) = some (n, rest) := by
  have hparts := fun negative => unsigned?_append negative h hrest
  obtain ⟨negative, whole, fraction, exponent⟩ := n
  unfold text signText
  simp only [List.append_assoc] at hparts ⊢
  cases negative with
  | true => exact hparts true
  | false =>
    obtain ⟨c, cs, rfl, hc⟩ := whole_eq_cons h
    rw [← hparts false]
    unfold read?
    split
    · rename_i heq
      obtain ⟨rfl, -⟩ := List.cons.inj heq
      exact absurd hc (by decide)
    · rfl

/-! ## Whole numbers -/

theorem takeWhole_eq (word : Nat) (ds : List Char) (h : valueFrom word ds ≤ maxWord) :
    takeWhole word ds = ⟨valueFrom word ds, 0⟩ := by
  induction ds generalizing word with
  | nil => simp [takeWhole]
  | cons d ds ih =>
    rw [valueFrom_cons] at h ⊢
    have hgrows : 10 * word + digitValue d ≤ valueFrom (10 * word + digitValue d) ds := by
      have hpow : 0 < 10 ^ ds.length := Nat.pow_pos (by omega)
      rw [valueFrom_eq]
      exact Nat.le_trans (Nat.le_mul_of_pos_right _ hpow) (Nat.le_add_right _ _)
    rw [takeWhole, Nat.mul_comm word 10, if_pos (Nat.le_trans hgrows h), ih _ h]

theorem takeWhole_digits {n : Nat} (h : n < Nat.pow 2 64) : takeWhole 0 (digits n) = ⟨n, 0⟩ := by
  have hvalue : valueFrom 0 (digits n) = n := value_digits n
  rw [takeWhole_eq _ _ (by rw [hvalue, maxWord]; omega), hvalue]

theorem toJson_digits {n : Nat} (h : n < Nat.pow 2 64) :
    toJson ⟨false, digits n, none, none⟩ = .int n := by
  simp [toJson, takeWhole_digits h]

theorem toJson_neg_digits {n : Nat} (h : n < Nat.pow 2 63) :
    toJson ⟨true, digits (n + 1), none, none⟩ = .int (.negSucc n) := by
  have hword : n + 1 < Nat.pow 2 64 := by
    have : Nat.pow 2 63 + 1 ≤ Nat.pow 2 64 := by decide
    omega
  have hle : n + 1 ≤ Nat.pow 2 63 := h
  simp [toJson, takeWhole_digits hword, hle]
  omega

def ofInt : Int → Numeral
  | .ofNat n => ⟨false, digits n, none, none⟩
  | .negSucc n => ⟨true, digits (n + 1), none, none⟩

theorem wellFormed_ofInt (n : Int) : (ofInt n).WellFormed := by
  cases n <;> exact ⟨canonical_digits _, by simp [ofInt], by simp [ofInt]⟩

theorem text_ofInt (n : Int) : (ofInt n).text = Decimal.ofInt n := by
  cases n <;> simp [ofInt, text, signText, fractionText, exponentText, Decimal.ofInt]

theorem toJson_ofInt {n : Int} (h : IsWord n) : (ofInt n).toJson = .int n := by
  obtain ⟨hlow, hhigh⟩ := h
  cases n with
  | ofNat n => exact toJson_digits (Int.ofNat_lt.mp hhigh)
  | negSucc n =>
    have : Int.negSucc n = -((n : Int) + 1) := rfl
    exact toJson_neg_digits (by omega)

end Numeral
end Retrace.Json
