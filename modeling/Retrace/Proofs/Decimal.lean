import Mathlib.Algebra.Group.Nat.Defs
import Mathlib.Data.List.DropRight
import Retrace.Decimal.Numeral

/-! # Numerals and their values -/

namespace Retrace.Decimal

theorem digitValue_digitChar {d : Nat} (h : d < 10) : digitValue d.digitChar = d := by
  have hall : ∀ d : Fin 10, digitValue (Nat.digitChar d) = d := by decide
  exact hall ⟨d, h⟩

theorem value_append_one (cs : List Char) (c : Char) : value (cs ++ [c]) = 10 * value cs + digitValue c := by
  rw [value, valueFrom_append, valueFrom_cons, valueFrom_nil, value]

theorem valueFrom_eq (n : Nat) (cs : List Char) : valueFrom n cs = n * 10 ^ cs.length + value cs := by
  unfold value
  induction cs generalizing n with
  | nil => simp
  | cons c cs ih =>
    rw [valueFrom_cons, valueFrom_cons, ih, ih (10 * 0 + digitValue c), List.length_cons, Nat.pow_succ]
    grind

theorem value_append (as bs : List Char) : value (as ++ bs) = value as * 10 ^ bs.length + value bs := by
  rw [value, valueFrom_append, valueFrom_eq]
  rfl

theorem value_digits (n : Nat) : value (digits n) = n := by
  unfold digits
  induction n using Nat.strongRecOn with
  | _ n ih =>
    rw [Nat.toDigits_eq_if (by omega)]
    split
    · rename_i h
      simp [value, digitValue_digitChar h]
    · rename_i h
      rw [value_append_one, ih (n / 10) (by omega), digitValue_digitChar (by omega)]
      omega

theorem digits_ne_nil (n : Nat) : digits n ≠ [] := by
  unfold digits
  rw [Nat.toDigits_eq_if (by omega)]
  split <;> simp

theorem isDigit_of_mem_digits {n : Nat} {c : Char} (h : c ∈ digits n) : c.isDigit = true :=
  Nat.isDigit_of_mem_toDigits (by omega) (by omega) h

theorem isNumeral_digits (n : Nat) : isNumeral (digits n) = true := by
  have hall : (digits n).all Char.isDigit = true := List.all_eq_true.mpr fun _ => isDigit_of_mem_digits
  simp [isNumeral, digits_ne_nil n, hall]

theorem read?_digits (n : Nat) : read? (digits n) = some n := by
  rw [read?, if_pos (isNumeral_digits n), value_digits]

theorem digits_inj {m n : Nat} (h : digits m = digits n) : m = n := by
  rw [← value_digits m, h, value_digits]

theorem digits_eq_zero_cons {n : Nat} {cs : List Char} (h : digits n = '0' :: cs) : cs = [] := by
  unfold digits at h
  induction n using Nat.strongRecOn generalizing cs with
  | _ n ih =>
    rw [Nat.toDigits_eq_if (by omega)] at h
    split at h
    · exact (List.cons.inj h).2.symm
    · rename_i hn
      -- The digits in front are those of a smaller number, which is not zero.
      cases hfront : Nat.toDigits 10 (n / 10) with
      | nil => exact absurd hfront (digits_ne_nil _)
      | cons c front =>
        rw [hfront, List.cons_append] at h
        obtain ⟨rfl, rfl⟩ := List.cons.inj h
        obtain rfl := ih (n / 10) (by omega) hfront
        have hvalue := value_digits (n / 10)
        rw [digits, hfront] at hvalue
        have hzero : value ['0'] = 0 := by decide
        omega

/-- A numeral with no zero in front that could be left out. -/
def Canonical (cs : List Char) : Prop := isNumeral cs = true ∧ (cs.head? = some '0' → cs = ['0'])

theorem canonical_digits (n : Nat) : Canonical (digits n) := by
  refine ⟨isNumeral_digits n, ?_⟩
  intro hhead
  obtain ⟨cs, hcs⟩ := List.head?_eq_some_iff.mp hhead
  obtain rfl := digits_eq_zero_cons hcs
  exact hcs

/-- An integer is written: a canonical numeral, after a minus sign if the integer is negative. -/
def Written (n : Int) (cs : List Char) : Prop :=
  (0 ≤ n ∧ Canonical cs ∧ (value cs : Int) = n) ∨
  (n < 0 ∧ ∃ ds, cs = '-' :: ds ∧ Canonical ds ∧ (value ds : Int) = -n)

theorem written_ofInt (n : Int) : Written n (ofInt n) := by
  cases n with
  | ofNat n =>
    left
    refine ⟨Int.natCast_nonneg n, canonical_digits n, ?_⟩
    rw [ofInt, value_digits]
    rfl
  | negSucc n =>
    right
    refine ⟨Int.negSucc_lt_zero n, digits (n + 1), rfl, canonical_digits _, ?_⟩
    rw [value_digits]
    omega

theorem mem_ofInt {n : Int} {c : Char} (h : c ∈ ofInt n) : c = '-' ∨ c.isDigit = true := by
  cases n with
  | ofNat n => exact Or.inr (isDigit_of_mem_digits h)
  | negSucc n =>
    rcases List.mem_cons.mp h with rfl | h
    · exact Or.inl rfl
    · exact Or.inr (isDigit_of_mem_digits h)

theorem ofInt_inj {m n : Int} (h : ofInt m = ofInt n) : m = n := by
  -- Digits do not start with a minus sign.
  have hsign : ∀ k l : Nat, digits k ≠ '-' :: digits l := by
    intro k l hkl
    have hmem : '-' ∈ digits k := by simp [hkl]
    exact absurd (isDigit_of_mem_digits hmem) (by decide)
  cases m with
  | ofNat m =>
    cases n with
    | ofNat n => rw [digits_inj h]
    | negSucc n => exact absurd h (hsign m (n + 1))
  | negSucc m =>
    cases n with
    | ofNat n => exact absurd h.symm (hsign n (m + 1))
    | negSucc n =>
      have hmn : m + 1 = n + 1 := digits_inj (List.cons.inj h).2
      rw [Nat.succ.inj hmn]

/-! ## Zeros in front -/

theorem value_replicate (k : Nat) : value (List.replicate k '0') = 0 := by
  induction k with
  | zero => rfl
  | succ k ih =>
    rw [List.replicate_succ', value_append_one, ih]
    decide

theorem value_padded (width n : Nat) : value (padded width n) = n := by
  unfold padded filled
  rw [value_append, value_replicate, value_digits]
  omega

theorem length_padded {width n : Nat} (hwidth : 0 < width) (h : n < 10 ^ width) :
    (padded width n).length = width := by
  have hlen : (digits n).length ≤ width := (Nat.length_toDigits_le_iff (by omega) hwidth).mpr h
  simp [padded, filled]
  omega

theorem isDigit_of_mem_zeros {k : Nat} {c : Char} (h : c ∈ List.replicate k '0') : c.isDigit = true := by
  rw [List.eq_of_mem_replicate h]
  rfl

theorem isDigit_of_mem_padded {width n : Nat} {c : Char} (h : c ∈ padded width n) : c.isDigit = true := by
  unfold padded filled at h
  rcases List.mem_append.mp h with h | h
  · exact isDigit_of_mem_zeros h
  · exact isDigit_of_mem_digits h

/-! ## Zeros at the end -/

theorem dropZeros_isPrefix (ds : List Char) : dropZeros ds <+: ds := List.rdropWhile_prefix (· == '0') ds

theorem dropZeros_eq_nil_iff {ds : List Char} : dropZeros ds = [] ↔ ∀ c ∈ ds, c = '0' := by
  unfold dropZeros
  simp

theorem dropZeros_append (ds : List Char) : ∃ k, ds = dropZeros ds ++ List.replicate k '0' := by
  have hzeros : ∀ c ∈ ds.rtakeWhile (· == '0'), c = '0' := by
    intro c hc
    simpa using List.mem_rtakeWhile_imp hc
  refine ⟨(ds.rtakeWhile (· == '0')).length, ?_⟩
  rw [← List.eq_replicate_of_mem hzeros]
  exact List.rdropWhile_append_rtakeWhile.symm

theorem getLast?_dropZeros (ds : List Char) : (dropZeros ds).getLast? ≠ some '0' := by
  unfold dropZeros
  rw [List.getLast?_reverse]
  intro h
  have hhead := List.head?_dropWhile_not (· == '0') ds.reverse
  rw [h] at hhead
  simp at hhead

theorem isNumeral_of_ne_nil {ds : List Char} (hne : ds ≠ []) (h : ∀ d ∈ ds, d.isDigit = true) :
    isNumeral ds = true := by
  simp [isNumeral, hne, List.all_eq_true.mpr h]

theorem isNumeral_dropZeros {ds : List Char} (hdigits : ∀ c ∈ ds, c.isDigit = true)
    (h : dropZeros ds ≠ []) : isNumeral (dropZeros ds) = true := by
  apply isNumeral_of_ne_nil h
  intro c hc
  exact hdigits c ((dropZeros_isPrefix ds).mem hc)

/-! ## Order -/

theorem value_cons (c : Char) (cs : List Char) : value (c :: cs) = digitValue c * 10 ^ cs.length + value cs := by
  rw [value, valueFrom_cons, valueFrom_eq, Nat.mul_zero, Nat.zero_add]

theorem digitValue_add {c : Char} (h : c.isDigit = true) : digitValue c + 48 = c.toNat ∧ digitValue c < 10 := by
  have hdigit : 48 ≤ c.toNat ∧ c.toNat ≤ 57 := Char.isDigit_iff_toNat.mp h
  have hzero : '0'.toNat = 48 := rfl
  unfold digitValue
  omega

theorem value_lt {ds : List Char} (h : ∀ c ∈ ds, c.isDigit = true) : value ds < 10 ^ ds.length := by
  induction ds with
  | nil => decide
  | cons c cs ih =>
    have hc := (digitValue_add (h c List.mem_cons_self)).2
    have hcs := ih fun d hd => h d (List.mem_cons_of_mem c hd)
    rw [value_cons, List.length_cons, Nat.pow_succ]
    calc digitValue c * 10 ^ cs.length + value cs
        < digitValue c * 10 ^ cs.length + 10 ^ cs.length := by omega
      _ = (digitValue c + 1) * 10 ^ cs.length := by rw [Nat.succ_mul]
      _ ≤ 10 * 10 ^ cs.length := Nat.mul_le_mul_right _ hc
      _ = 10 ^ cs.length * 10 := Nat.mul_comm _ _

theorem eq_of_value_eq {ds es : List Char} (hlength : ds.length = es.length)
    (hds : ∀ c ∈ ds, c.isDigit = true) (hes : ∀ c ∈ es, c.isDigit = true) (h : value ds = value es) : ds = es := by
  induction ds generalizing es with
  | nil => exact (List.length_eq_zero_iff.mp hlength.symm).symm
  | cons d ds ih =>
    cases es with
    | nil => simp at hlength
    | cons e es =>
      simp only [List.length_cons, Nat.add_right_cancel_iff] at hlength
      simp only [List.mem_cons, forall_eq_or_imp] at hds hes
      rw [value_cons, value_cons, hlength] at h
      have hlt := value_lt hds.2
      rw [hlength] at hlt
      -- The first digit is the quotient, the other digits are the remainder.
      have hfirst : digitValue d = digitValue e := by
        have hquotient := congrArg (· / 10 ^ es.length) h
        simp only [Nat.add_comm _ (value _), Nat.add_mul_div_right _ _ (Nat.pow_pos (show 0 < 10 by decide)),
          Nat.div_eq_of_lt hlt, Nat.div_eq_of_lt (value_lt hes.2)] at hquotient
        omega
      rw [hfirst] at h
      have hd := (digitValue_add hds.1).1
      have he := (digitValue_add hes.1).1
      rw [Char.toNat_inj.mp (show d.toNat = e.toNat by omega), ih hlength hds.2 hes.2 (by omega)]

theorem padded_value {width : Nat} {ds : List Char} (hwidth : 0 < width) (hlength : ds.length = width)
    (hdigits : ∀ c ∈ ds, c.isDigit = true) : padded width (value ds) = ds := by
  have hlt := value_lt hdigits
  rw [hlength] at hlt
  apply eq_of_value_eq
  · rw [length_padded hwidth hlt, hlength]
  · exact fun _ => isDigit_of_mem_padded
  · exact hdigits
  · exact value_padded width _

theorem append_lt_append {ds es : List Char} (hlength : ds.length = es.length)
    (hds : ∀ c ∈ ds, c.isDigit = true) (hes : ∀ c ∈ es, c.isDigit = true) (h : value ds < value es)
    (xs ys : List Char) : ds ++ xs < es ++ ys := by
  induction ds generalizing es with
  | nil =>
    cases es with
    | nil => simp at h
    | cons e es => simp at hlength
  | cons d ds ih =>
    cases es with
    | nil => simp at hlength
    | cons e es =>
      simp only [List.length_cons, Nat.add_right_cancel_iff] at hlength
      simp only [List.mem_cons, forall_eq_or_imp] at hds hes
      rw [value_cons, value_cons, hlength] at h
      rw [List.cons_append, List.cons_append, List.cons_lt_cons_iff]
      have hd := (digitValue_add hds.1).1
      have he := (digitValue_add hes.1).1
      rcases Nat.lt_trichotomy d.toNat e.toNat with hlt | heq | hgt
      · exact Or.inl hlt
      · have hvalues : digitValue d = digitValue e := by omega
        rw [hvalues] at h
        exact Or.inr ⟨Char.toNat_inj.mp heq, ih hlength hds.2 hes.2 (by omega)⟩
      · -- The first digit is worth more than all digits after it.
        have hfirst := Nat.mul_le_mul_right (10 ^ es.length) (show digitValue e + 1 ≤ digitValue d by omega)
        have hrest := value_lt hes.2
        rw [Nat.succ_mul] at hfirst
        omega

theorem padded_lt_padded {width m n : Nat} (hwidth : 0 < width) (hm : m < 10 ^ width) (hn : n < 10 ^ width)
    (h : m < n) (xs ys : List Char) : padded width m ++ xs < padded width n ++ ys := by
  apply append_lt_append
  · rw [length_padded hwidth hm, length_padded hwidth hn]
  · exact fun c => isDigit_of_mem_padded
  · exact fun c => isDigit_of_mem_padded
  · rw [value_padded, value_padded]
    exact h

theorem padded_sep_lt {width m n : Nat} {sep : Char} {xs ys : List Char} (hwidth : 0 < width)
    (hm : m < 10 ^ width) (hn : n < 10 ^ width) (h : m < n ∨ m = n ∧ xs < ys) :
    padded width m ++ sep :: xs < padded width n ++ sep :: ys := by
  rcases h with h | ⟨rfl, h⟩
  · exact padded_lt_padded hwidth hm hn h _ _
  · apply List.append_left_lt
    exact List.cons_lt_cons_iff.mpr (Or.inr ⟨rfl, h⟩)

end Retrace.Decimal
