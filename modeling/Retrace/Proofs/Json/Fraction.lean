import Retrace.Json.Writer
import Retrace.Proofs.Json.Number

/-!
# Fractions as they are written

Every finite 64-bit number is written as a number of the format: a whole part without zeros in front, and
perhaps a fraction and an exponent.
-/

namespace Retrace

open Retrace.Decimal

/-! ## The digits of a positive number -/

namespace Decimal

namespace Binary

theorem significand_pos {bits : Nat} (h : bits ≠ 0) (hlt : bits < Nat.pow 2 63) :
    0 < (ofBits bits).significand := by
  unfold ofBits
  simp only [Nat.pow_eq] at hlt ⊢
  split
  · simp only
    omega
  · simp only
    omega

theorem holds_zero {x : Binary} (h : 0 < x.significand) (grid : Int) : x.holds 0 grid = false := by
  have hlower : 0 < x.lower := by
    unfold lower
    split <;> omega
  have hquarters : 0 < (x.quarters x.lower).1 := by
    unfold quarters
    simp only
    split
    · exact Nat.mul_pos hlower (Nat.pow_pos (by decide))
    · exact hlower
  have hgrid : (onGrid 0 grid).1 = 0 ∧ 0 < (onGrid 0 grid).2 := by
    unfold onGrid
    split
    · simp
    · exact ⟨rfl, Nat.pow_pos (by decide)⟩
  have hproduct := Nat.mul_pos hquarters hgrid.2
  unfold holds
  simp only [hgrid.1, Nat.zero_mul]
  split
  · simp [Nat.ne_of_gt hproduct]
  · simp

theorem pos_of_onGrid? {x : Binary} {tie : Tie} {grid : Int} {d : Nat} (h : 0 < x.significand)
    (hd : x.onGrid? tie grid = some d) : 0 < d := by
  have hpos : ∀ d, x.holds d grid = true → 0 < d := by
    intro d hholds
    apply Nat.pos_of_ne_zero
    rintro rfl
    simp [holds_zero h] at hholds
  unfold onGrid? at hd
  simp only at hd
  generalize (if 0 ≤ grid then ((x.quarters (4 * x.significand)).1,
      (x.quarters (4 * x.significand)).2 * Nat.pow 10 grid.toNat)
    else ((x.quarters (4 * x.significand)).1 * Nat.pow 10 (-grid).toNat, (x.quarters (4 * x.significand)).2)) = q at hd
  split at hd
  · rename_i hlow _
    have hlow := hpos _ hlow
    obtain rfl := Option.some.inj hd
    split <;> omega
  · rename_i hlow _
    obtain rfl := Option.some.inj hd
    exact hpos _ hlow
  · obtain rfl := Option.some.inj hd
    exact Nat.succ_pos _
  · cases hd

end Binary

/-- Digits that can stand in front of a point: no zero stands first, except for the number zero. -/
def Scientific.Leads (s : Scientific) : Prop :=
  ∃ c cs, s.digits = c :: cs ∧ (∀ d ∈ c :: cs, d.isDigit = true) ∧ (c = '0' → cs = [] ∧ s.exponent = 0)

namespace Binary

theorem leads_scientific {d : Nat} (h : 0 < d) (grid : Int) : (scientific d grid).Leads := by
  have hdigits : ∀ c ∈ digits d, c.isDigit = true := fun _ => isDigit_of_mem_digits
  have hprefix := dropZeros_isPrefix (digits d)
  cases hd : digits d with
  | nil => exact absurd hd (digits_ne_nil d)
  | cons c cs =>
    have hfirst : c ≠ '0' := by
      rintro rfl
      obtain rfl := digits_eq_zero_cons hd
      have hvalue := value_digits d
      rw [hd] at hvalue
      have hzero : value ['0'] = 0 := by decide
      omega
    -- The first digit is not dropped.
    cases hdrop : dropZeros (c :: cs) with
    | nil => exact absurd (dropZeros_eq_nil_iff.mp hdrop c List.mem_cons_self) hfirst
    | cons e es =>
      rw [hd, hdrop] at hprefix
      obtain ⟨rfl, -⟩ := List.cons_prefix_cons.mp hprefix
      refine ⟨e, es, by simp [scientific, hd, hdrop], ?_, fun hzero => absurd hzero hfirst⟩
      intro x hx
      exact hdigits x (hd ▸ hprefix.mem hx)

theorem leads_shortest {x : Binary} (h : 0 < x.significand) (tie : Tie) : (x.shortest tie).Leads := by
  unfold shortest
  simp only
  generalize htries : ((List.range 17).findSome? fun (n : Nat) =>
    (x.onGrid? tie (x.leading - n)).map fun d => scientific d (x.leading - n)) = tries
  cases tries with
  | none => exact ⟨'0', [], rfl, by simp, fun _ => ⟨rfl, rfl⟩⟩
  | some s =>
    obtain ⟨n, -, hn⟩ := List.exists_of_findSome?_eq_some htries
    obtain ⟨d, hd, rfl⟩ := Option.map_eq_some_iff.mp hn
    exact leads_scientific (pos_of_onGrid? h hd) _

end Binary

theorem canonical_cons {c : Char} {cs : List Char} (hdigits : ∀ d ∈ c :: cs, d.isDigit = true)
    (hzero : c = '0' → cs = []) : Canonical (c :: cs) := by
  refine ⟨by simpa [isNumeral] using hdigits, ?_⟩
  intro hhead
  obtain rfl := Option.some.inj hhead
  rw [hzero rfl]

end Decimal

/-! ## Layouts -/

namespace Json

open Numeral

theorem exists_place {s : Scientific} (h : s.Leads) (negative : Bool) :
    ∃ n : Numeral, n.WellFormed ∧ n.text = signText negative ++ layout.place s := by
  obtain ⟨c, cs, hs, hdigits, hzero⟩ := h
  unfold Layout.place
  simp only [hs]
  split
  · -- A whole number: zeros after its digits, and a zero after the point.
    refine ⟨⟨negative, c :: (cs ++ List.replicate (s.exponent - (c :: cs).length + 1).toNat '0'), some ['0'], none⟩,
      ⟨?_, by simp [isNumeral], by simp⟩, by simp [text, fractionText, exponentText, layout]⟩
    apply canonical_cons
    · intro d hd
      rw [← List.cons_append] at hd
      rcases List.mem_append.mp hd with hd | hd
      · exact hdigits d hd
      · exact isDigit_of_mem_zeros hd
    · intro hc
      obtain ⟨rfl, hexponent⟩ := hzero hc
      simp [hexponent]
  · rename_i hlarge
    split
    · -- The point is among the digits.
      rename_i hexponent
      obtain ⟨k, hk⟩ : ∃ k : Nat, (s.exponent + 1).toNat = k + 1 := ⟨s.exponent.toNat, by omega⟩
      have hk' : k < cs.length := by
        simp only [List.length_cons] at hlarge
        omega
      refine ⟨⟨negative, c :: cs.take k, some (cs.drop k), none⟩, ⟨?_, ?_, by simp⟩,
        by simp [text, fractionText, exponentText, hk]⟩
      · apply canonical_cons
        · intro d hd
          exact hdigits d (((List.take_prefix k cs).sublist.cons_cons c).mem hd)
        · intro hc
          simp [(hzero hc).1]
      · rintro ds hds
        obtain rfl := Option.some.inj hds
        apply isNumeral_of_ne_nil
        · simp
          omega
        · intro d hd
          exact hdigits d (List.mem_cons_of_mem c (List.mem_of_mem_drop hd))
    · -- Zeros stand between the point and the digits.
      refine ⟨⟨negative, ['0'], some (List.replicate (-s.exponent - 1).toNat '0' ++ c :: cs), none⟩,
        ⟨canonical_cons (by simp) (by simp), ?_, by simp⟩, by simp [text, fractionText, exponentText]⟩
      rintro ds hds
      obtain rfl := Option.some.inj hds
      apply isNumeral_of_ne_nil (by simp)
      intro d hd
      rcases List.mem_append.mp hd with hd | hd
      · exact isDigit_of_mem_zeros hd
      · exact hdigits d hd

theorem exists_power {s : Scientific} (h : s.Leads) (negative : Bool) :
    ∃ n : Numeral, n.WellFormed ∧ n.text = signText negative ++ Layout.power s := by
  obtain ⟨c, cs, hs, hdigits, -⟩ := h
  have hfirst : Canonical [c] := canonical_cons (by simpa using hdigits c (by simp)) (fun _ => rfl)
  have hexponent := isNumeral_digits s.exponent.natAbs
  have hsign : (if 0 ≤ s.exponent then '+' else '-') = if decide (s.exponent < 0) = true then '-' else '+' := by
    by_cases hneg : s.exponent < 0
    · simp [hneg]
    · simp [hneg, Int.not_lt.mp hneg]
  unfold Layout.power
  simp only [hs, hsign]
  cases cs with
  | nil =>
    refine ⟨⟨negative, [c], none, some (decide (s.exponent < 0), digits s.exponent.natAbs)⟩,
      ⟨hfirst, by simp, by simpa using hexponent⟩, ?_⟩
    simp [text, fractionText, exponentText]
  | cons d ds =>
    refine ⟨⟨negative, [c], some (d :: ds), some (decide (s.exponent < 0), digits s.exponent.natAbs)⟩,
      ⟨hfirst, ?_, by simpa using hexponent⟩, ?_⟩
    · rintro es hes
      obtain rfl := Option.some.inj hes
      exact isNumeral_of_ne_nil (by simp) fun e he => hdigits e (List.mem_cons_of_mem c he)
    · simp [text, fractionText, exponentText]

theorem toBits_lt_of_isFinite {x : Float} (h : x.isFinite = true) :
    x.toBits.toNat % Nat.pow 2 63 < 0x7FF0000000000000 := by
  have hones : (@Float.Model.UnpackedFloat.unpackExponent Float.Model.Format.binary64
      x.toModel.toBits.toBitVec).toNat ≠ 2047 := by
    intro heq
    have hexponent : @Float.Model.UnpackedFloat.unpackExponent Float.Model.Format.binary64
        x.toModel.toBits.toBitVec = -BitVec.ofNat Float.Model.Format.binary64.exponentBits 1 := by
      apply BitVec.eq_of_toNat_eq
      rw [heq]
      rfl
    unfold Float.isFinite Float.Model.isFinite Float.Model.unpack Float.Model.UnpackedFloat.unpack at h
    dsimp only at h
    rw [if_pos hexponent] at h
    split at h <;> cases h
  unfold Float.Model.UnpackedFloat.unpackExponent at hones
  simp [BitVec.extractLsb, BitVec.extractLsb'] at hones
  unfold Float.toBits
  simp only [Nat.shiftRight_eq_div_pow] at hones
  simp only [Nat.pow_eq]
  omega

theorem exists_numeral {x : Float} (h : x.isFinite = true) :
    ∃ n : Numeral, n.WellFormed ∧ n.text = layout.write x := by
  have hfinite := toBits_lt_of_isFinite h
  have hsign : ∀ p : Prop, [Decidable p] → (if p then ['-'] else []) = signText (decide p) := by
    intro p _
    simp [signText]
  unfold Layout.write Layout.magnitude
  simp only
  rw [if_neg (by omega), if_neg (by omega), hsign]
  split
  · exact exists_place ⟨'0', [], rfl, by simp, fun _ => ⟨rfl, rfl⟩⟩ _
  · rename_i hbits
    have hleads := Binary.leads_shortest (Binary.significand_pos hbits (Nat.mod_lt _ (by decide))) layout.tie
    split
    · exact exists_place hleads _
    · exact exists_power hleads _

end Json
end Retrace
