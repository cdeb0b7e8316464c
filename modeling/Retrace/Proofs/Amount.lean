import Mathlib.Algebra.Order.Field.Rat
import Mathlib.Tactic.FieldSimp
import Mathlib.Tactic.Ring
import Retrace.Environment
import Retrace.Proofs.Canonical
import Retrace.Proofs.Text.Marks

/-!
# Amounts

An amount of mutez is written as a decimal amount of tez: the zeros that fill the fraction up to its
six places are added in front and taken away at the end, and the decimal denotes the same amount. It has no
zero that could be left out, so that every amount has one text.
-/

namespace Retrace

open Retrace.Text Retrace.Decimal Retrace.Scalar

/-! ## Decimals -/

namespace Decimal

/-- The number that a decimal denotes: digits, and perhaps a point and more digits. -/
def rational? (text : List Char) : Option ℚ :=
  match cut? ['.'] text with
  | none => (read? text).map fun n => (n : ℚ)
  | some (whole, fraction) =>
    if isNumeral whole && isNumeral fraction then
      some ((value whole : ℚ) + value fraction / 10 ^ fraction.length)
    else none

theorem point_not_mem_digits (n : Nat) : '.' ∉ digits n := by
  intro h
  have hdigit := isDigit_of_mem_digits h
  simp at hdigit

theorem rational?_digits (n : Nat) : rational? (digits n) = some (n : ℚ) := by
  have hcut : cut? ['.'] (digits n) = none := by
    rw [cut?_eq_none_iff (by simp), List.singleton_infix_iff]
    exact point_not_mem_digits n
  unfold rational?
  rw [hcut]
  simp [read?_digits]

theorem rational?_point {fraction : List Char} (n : Nat) (h : isNumeral fraction = true) :
    rational? (digits n ++ '.' :: fraction) = some ((n : ℚ) + value fraction / 10 ^ fraction.length) := by
  have hcut : cut? ['.'] (digits n ++ '.' :: fraction) = some (digits n, fraction) := by
    apply cut?_append ⟨'.', [], rfl, by simp⟩
    rw [List.singleton_infix_iff]
    exact point_not_mem_digits n
  unfold rational?
  rw [hcut]
  simp [isNumeral_digits, h, value_digits]

theorem value_dropZeros (ds : List Char) :
    (value (dropZeros ds) : ℚ) / 10 ^ (dropZeros ds).length = value ds / 10 ^ ds.length := by
  obtain ⟨k, hk⟩ := dropZeros_append ds
  have hvalue : value ds = value (dropZeros ds) * 10 ^ k := by
    conv_lhs => rw [hk]
    rw [value_append, value_replicate, List.length_replicate, Nat.add_zero]
  have hlen : ds.length = (dropZeros ds).length + k := by
    conv_lhs => rw [hk]
    simp
  rw [hvalue, hlen]
  push_cast
  field_simp
  ring

/-- A decimal with nothing to leave out: a canonical numeral, and perhaps a point and up to `places` digits, of
which the last one is no zero. -/
inductive Reduced (places : Nat) : List Char → Prop
  | whole {w : List Char} (hw : Canonical w) : Reduced places w
  | point {w f : List Char} (hw : Canonical w) (hf : isNumeral f = true) (hplaces : f.length ≤ places)
      (hlast : f.getLast? ≠ some '0') : Reduced places (w ++ '.' :: f)

end Decimal

/-! ## Mutez as tez -/

namespace Environment

/-- A part of a tez, without the zeros at its end. -/
def tezFraction (n : Nat) : List Char := dropZeros (padded 6 (n % 1000000))

theorem value_tezFraction (n : Nat) :
    (value (tezFraction n) : ℚ) / 10 ^ (tezFraction n).length = (n % 1000000 : Nat) / 10 ^ 6 := by
  unfold tezFraction
  rw [value_dropZeros, value_padded, length_padded (by omega) (by omega)]

theorem tezOf_eq {mutez : String} {n : Nat} (h : integer? mutez.toList = some (n : Int)) :
    (tezOf mutez).toList = digits (n / 1000000) ++
      if tezFraction n = [] then [] else '.' :: tezFraction n := by
  have hwhole : ofInt ((n : Int).tdiv 1000000) = digits (n / 1000000) := rfl
  have hfraction : filled 6 (ofInt ((n : Int).tmod 1000000)) = padded 6 (n % 1000000) := rfl
  unfold tezOf tezFraction
  simp only [h, hwhole, hfraction]
  split
  · rename_i hnil
    simp [hnil]
  · rename_i hcons
    rw [if_neg hcons]
    simp

theorem tezOf_ne_empty {mutez : String} {n : Nat} (h : integer? mutez.toList = some (n : Int)) :
    tezOf mutez ≠ "" := by
  intro hempty
  have htext := tezOf_eq h
  rw [hempty] at htext
  exact digits_ne_nil _ (List.append_eq_nil_iff.mp htext.symm).1

theorem rational?_tezOf {mutez : String} {n : Nat} (h : integer? mutez.toList = some (n : Int)) :
    rational? (tezOf mutez).toList = some ((n : ℚ) / 10 ^ 6) := by
  have hsplit : (n : ℚ) = (n / 1000000 : Nat) * 10 ^ 6 + (n % 1000000 : Nat) := by
    exact_mod_cast (Nat.div_add_mod' n 1000000).symm
  have hvalue := value_tezFraction n
  rw [tezOf_eq h]
  split
  · rename_i hnil
    rw [hnil] at hvalue
    rw [List.append_nil, rational?_digits, hsplit, add_div, ← hvalue]
    simp [value]
  · rename_i hcons
    have hnumeral : isNumeral (tezFraction n) = true :=
      isNumeral_dropZeros (fun _ => isDigit_of_mem_padded) hcons
    rw [rational?_point _ hnumeral, hvalue, hsplit, add_div]
    simp

theorem isNat_iff (text : List Char) : isNat text = true ↔ ∃ n : Nat, integer? text = some (n : Int) := by
  unfold isNat
  cases h : integer? text with
  | none => simp
  | some m =>
    simp only [decide_eq_true_eq, Option.some.injEq]
    constructor
    · intro hm
      exact ⟨m.toNat, by omega⟩
    · rintro ⟨n, rfl⟩
      omega

/-! ## No zeros to leave out -/

theorem length_tezFraction_le (n : Nat) : (tezFraction n).length ≤ 6 := by
  have hlength := (dropZeros_isPrefix (padded 6 (n % 1000000))).length_le
  rwa [length_padded (by omega) (by omega)] at hlength

theorem reduced_tezOf {mutez : String} {n : Nat} (h : integer? mutez.toList = some (n : Int)) :
    Reduced 6 (tezOf mutez).toList := by
  have hwhole := canonical_digits (n / 1000000)
  rw [tezOf_eq h]
  split
  · rw [List.append_nil]
    exact .whole hwhole
  · rename_i hcons
    apply Reduced.point hwhole
    · exact isNumeral_dropZeros (fun _ => isDigit_of_mem_padded) hcons
    · exact length_tezFraction_le n
    · exact getLast?_dropZeros _

theorem tezOf_eq_iff {a b : String} {m n : Nat} (ha : integer? a.toList = some (m : Int))
    (hb : integer? b.toList = some (n : Int)) : tezOf a = tezOf b ↔ m = n := by
  constructor
  · intro h
    have hvalue := rational?_tezOf ha
    rw [h, rational?_tezOf hb, Option.some.injEq] at hvalue
    field_simp at hvalue
    exact_mod_cast hvalue.symm
  · rintro rfl
    rw [← String.toList_inj, tezOf_eq ha, tezOf_eq hb]

/-- **Amounts are converted exactly.** Every text that spells a natural number is accepted, with any sign,
zeros and blanks around it, and gives the one reduced decimal of a millionth of that number. -/
theorem tezOf_exact :
    (∀ text, isNat text = true ↔ ∃ m : Nat, Spells (trim text) m) ∧
    (∀ (mutez : String) (m : Nat), Spells (trim mutez.toList) m →
      Reduced 6 (tezOf mutez).toList ∧ rational? (tezOf mutez).toList = some ((m : ℚ) / 10 ^ 6)) ∧
    ∀ (a b : String) (m n : Nat), Spells (trim a.toList) m → Spells (trim b.toList) n →
      (tezOf a = tezOf b ↔ m = n) := by
  simp only [← integer?_eq_some_iff]
  refine ⟨isNat_iff, ?_, ?_⟩
  · intro mutez m h
    exact ⟨reduced_tezOf h, rational?_tezOf h⟩
  · intro a b m n ha hb
    exact tezOf_eq_iff ha hb

theorem tezOf_spelled : tezOf " +0012345670" = tezOf "12345670\n" ∧
    rational? (tezOf " +0012345670").toList = some (12345670 / 10 ^ 6) := by
  have hsigned : Spells (trim " +0012345670".toList) (12345670 : Nat) := integer?_eq_some_iff.mp (by decide)
  have hplain : Spells (trim "12345670\n".toList) (12345670 : Nat) := integer?_eq_some_iff.mp (by decide)
  obtain ⟨-, hvalue, hsame⟩ := tezOf_exact
  exact ⟨(hsame _ _ _ _ hsigned hplain).mpr rfl, (hvalue _ _ hsigned).2⟩

example : tezOf " +0012345670" = "12.34567" ∧ tezOf "-0" = "0" ∧ tezOf "-5" = "0.0000-5" := by decide

end Environment
end Retrace
