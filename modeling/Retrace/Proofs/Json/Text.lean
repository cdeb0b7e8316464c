import Retrace.Json.Text

/-!
# Texts as they are written

A text that is written between quotes reads back as itself, whatever stands after it.
-/

namespace Retrace.Json.Text

theorem hexValue?_hexDigit {n : Nat} (h : n < 16) : hexValue? (hexDigit n) = some n := by
  have hall : ∀ n : Fin 16, hexValue? (hexDigit n) = some n.val := by decide
  exact hall ⟨n, h⟩

theorem toNat_ofNat_of_eq {c : Char} {n : Nat} (h : c.toNat = n) : (Char.ofNat n).toNat = c.toNat := by
  rw [← h, Char.ofNat_toNat]

theorem unitsFrom_escape (c : Char) (cs : List Char) :
    unitsFrom .plain (escape c ++ cs) = (unitsFrom .plain cs).map (push c.toNat) := by
  unfold escape
  split
  · rename_i h
    subst h
    simp [unitsFrom, shortEscape?]
  split
  · rename_i h
    subst h
    simp [unitsFrom, shortEscape?]
  split
  · rename_i h
    simp [unitsFrom, shortEscape?, toNat_ofNat_of_eq h]
  split
  · rename_i h
    simp [unitsFrom, shortEscape?, toNat_ofNat_of_eq h]
  split
  · rename_i h
    subst h
    simp [unitsFrom, shortEscape?]
  split
  · rename_i h
    subst h
    simp [unitsFrom, shortEscape?]
  split
  · rename_i h
    subst h
    simp [unitsFrom, shortEscape?]
  split
  · -- A control without a letter of its own: two zeros and the two digits of its code.
    rename_i h
    have hzero : hexValue? '0' = some 0 := by decide
    have hhigh := hexValue?_hexDigit (n := c.toNat / 16) (by omega)
    have hlow := hexValue?_hexDigit (n := c.toNat % 16) (by omega)
    have hcode : 16 * (c.toNat / 16) + c.toNat % 16 = c.toNat := by omega
    simp [unitsFrom, hzero, hhigh, hlow, hcode]
  · rename_i hquote hslash _ _ _ _ _ hcontrol
    simp [unitsFrom, hquote, hslash, hcontrol]

theorem unitsFrom_written (cs rest : List Char) :
    unitsFrom .plain (cs.flatMap escape ++ '"' :: rest) = some (cs.map Char.toNat, rest) := by
  induction cs with
  | nil => simp [unitsFrom]
  | cons c cs ih =>
    rw [List.flatMap_cons, List.append_assoc, unitsFrom_escape, ih]
    rfl

theorem isHigh_toNat (c : Char) : isHigh c.toNat = false ∧ isLow c.toNat = false := by
  have hvalid : c.toNat < 0xD800 ∨ 0xDFFF < c.toNat ∧ c.toNat < 0x110000 := c.valid
  constructor
  · simp only [isHigh, Bool.and_eq_false_iff, decide_eq_false_iff_not]
    omega
  · simp only [isLow, Bool.and_eq_false_iff, decide_eq_false_iff_not]
    omega

theorem joinFrom_toNat (cs : List Char) : joinFrom none (cs.map Char.toNat) = some cs := by
  induction cs with
  | nil => rfl
  | cons c cs ih =>
    obtain ⟨hhigh, hlow⟩ := isHigh_toNat c
    simp [joinFrom, hhigh, hlow, ih]

theorem read?_written (s : String) (rest : List Char) :
    read? (s.toList.flatMap escape ++ '"' :: rest) = some (some s, rest) := by
  rw [read?, unitsFrom_written]
  simp [joinFrom_toNat]

end Retrace.Json.Text
