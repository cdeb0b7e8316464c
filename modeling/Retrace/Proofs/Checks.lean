import Retrace.Argument

/-!
# What a check accepts

One rule for each type: which texts its check accepts, and the values it makes of them.
-/

namespace Retrace

open Retrace.Text Retrace.Scalar

/-- What is typed for bytes, without blanks, quotes and the mark in front. -/
def Scalar.typedDigits (text : List Char) : List Char := unmark (unquote (trim text))

namespace ArgumentType

/-- The values that a check makes of texts. -/
inductive Checks : ArgumentType → List Char → ArgumentValue → Prop
  | nat {text : List Char} {n : Int} (h : integer? text = some n) (hn : 0 ≤ n) :
    Checks .nat text (.integer n)
  | int {text : List Char} {n : Int} (h : integer? text = some n) : Checks .int text (.integer n)
  | bool {text : List Char} (b : Bool)
    (h : (trim text).map Char.toLower = (if b then "true" else "false").toList) :
    Checks .bool text (.bool b)
  | string {text : List Char} (h : (unquote text).all (·.toNat < 128) = true) :
    Checks .string text (.text (String.ofList (unquote text)))
  | bytes {text : List Char} (h : isHex (typedDigits text) = true) :
    Checks .bytes text (.text (String.ofList ((typedDigits text).map Char.toLower)))
  | address {text : List Char} (h : isAddress text = true) :
    Checks .address text (.text (String.ofList text))
  | timestamp {text : List Char} (h : (DateTime.read? text).isSome = true) :
    Checks .timestamp text (.text (String.ofList text))
  | other (name : String) (text : List Char) : Checks (.other name) text (.text (String.ofList text))

theorem ite_eq_ok_iff {p : Prop} [Decidable p] {v w : ArgumentValue} {rule : String} :
    (if p then .ok v else .error rule : Except String ArgumentValue) = .ok w ↔ p ∧ v = w := by
  split <;> simp [*]

theorem sameIgnoringCase_iff {a b : List Char} (h : b.map Char.toLower = b) :
    sameIgnoringCase a b = true ↔ a.map Char.toLower = b := by
  rw [sameIgnoringCase, h, beq_iff_eq]

theorem check_eq_ok_iff {type : ArgumentType} {text : List Char} {value : ArgumentValue} :
    type.check text = .ok value ↔ type.Checks text value := by
  have htrue : sameIgnoringCase (trim text) "true".toList = true ↔ _ := sameIgnoringCase_iff (by decide)
  have hfalse : sameIgnoringCase (trim text) "false".toList = true ↔ _ := sameIgnoringCase_iff (by decide)
  constructor
  · intro h
    unfold check at h
    cases type with
    | nat =>
      cases hn : integer? text with
      | none => simp [hn] at h
      | some n =>
        simp only [hn] at h
        obtain ⟨hpos, rfl⟩ := ite_eq_ok_iff.mp h
        exact .nat hn hpos
    | int =>
      cases hn : integer? text with
      | none => simp [hn] at h
      | some n =>
        simp only [hn] at h
        cases h
        exact .int hn
    | bool =>
      simp only [htrue, hfalse] at h
      split at h
      · cases h
        exact .bool true ‹_›
      · obtain ⟨hword, rfl⟩ := ite_eq_ok_iff.mp h
        exact .bool false hword
    | string =>
      obtain ⟨hascii, rfl⟩ := ite_eq_ok_iff.mp h
      exact .string hascii
    | bytes =>
      obtain ⟨hhex, rfl⟩ := ite_eq_ok_iff.mp h
      exact .bytes hhex
    | address =>
      obtain ⟨haddress, rfl⟩ := ite_eq_ok_iff.mp h
      exact .address haddress
    | timestamp =>
      obtain ⟨hdate, rfl⟩ := ite_eq_ok_iff.mp h
      exact .timestamp hdate
    | other name =>
      cases h
      exact .other name text
  · intro h
    cases h with
    | nat h hn => simp [check, h, hn]
    | int h => simp [check, h]
    | bool b h =>
      unfold check
      cases b with
      | true => exact if_pos (htrue.mpr h)
      | false =>
        have hne : ¬ sameIgnoringCase (trim text) "true".toList = true := by
          rw [htrue, h]
          decide
        exact (if_neg hne).trans (if_pos (hfalse.mpr h))
    | string h => exact if_pos h
    | bytes h => exact if_pos h
    | address h => exact if_pos h
    | timestamp h => exact if_pos h
    | other name => rfl

end ArgumentType

theorem Argument.make_eq_ok_iff {name text : String} {type : ArgumentType} {a : Argument} :
    make name text type = .ok a ↔ a.name = name ∧ a.type = type ∧ type.Checks text.toList a.value := by
  rw [← ArgumentType.check_eq_ok_iff]
  obtain ⟨name', type', value⟩ := a
  unfold make
  cases hcheck : type.check text.toList with
  | ok v =>
    simp only [Except.ok.injEq, Argument.mk.injEq]
    constructor
    · rintro ⟨rfl, rfl, rfl⟩
      exact ⟨rfl, rfl, rfl⟩
    · rintro ⟨rfl, rfl, rfl⟩
      exact ⟨rfl, rfl, rfl⟩
  | error e => simp

end Retrace
