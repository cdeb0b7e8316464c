import Retrace.Proofs.Decimal
import Retrace.Proofs.Text.Marks
import Retrace.Proofs.Text.Trim
import Retrace.Trace.Header

/-!
# Headers as they are printed

A header that is printed for a location and an amount of gas reads back as these. A line from which
a header is read has the two labels in it, each with a blank and a number.
-/

namespace Retrace.Trace

open Retrace.Text

/-- The text is a label, a blank and a word. -/
inductive Labelled (label word : List Char) : List Char → Prop
  | mk (c : Char) (hc : isBlank c = true) : Labelled label word (label ++ c :: word)

/-- Digits and points, a digit among them. -/
def IsAmount (word : List Char) : Prop :=
  (∀ c ∈ word, c.isDigit = true ∨ c = '.') ∧ ∃ c ∈ word, c.isDigit = true

/-- A line with a location and, somewhere after it, an amount of gas. -/
def HasHeader (line : List Char) : Prop :=
  ∃ before location between gas after, line = before ++ location ++ between ++ gas ++ after ∧
    (∃ ds, Decimal.isNumeral ds = true ∧ Labelled "location:".toList ds location) ∧
    (∃ ds, IsAmount ds ∧ Labelled "gas:".toList ds gas)

theorem takeWhile_append_stop {p : Char → Bool} {word : List Char} {c : Char}
    (hword : ∀ d ∈ word, p d = true) (hc : p c = false) (rest : List Char) :
    (word ++ c :: rest).takeWhile p = word ∧ (word ++ c :: rest).dropWhile p = c :: rest := by
  rw [List.takeWhile_append_of_pos hword, List.dropWhile_append_of_pos hword]
  simp [hc]

/-! ## Lines without a header -/

theorem labelled?_eq_some_iff (label cs rest : List Char) :
    labelled? label cs = some rest ↔ ∃ c, isBlank c = true ∧ cs = label ++ c :: rest := by
  unfold labelled?
  constructor
  · intro h
    split at h
    · rename_i c tail hafter
      rw [after?_eq_some_iff] at hafter
      split at h
      · rename_i hc
        obtain rfl := Option.some.inj h
        exact ⟨c, hc, hafter⟩
      · cases h
    · cases h
  · rintro ⟨c, hc, rfl⟩
    rw [after?_append]
    simp [hc]

theorem labelled_of_takeWhile {label cs rest : List Char} (p : Char → Bool)
    (h : labelled? label cs = some rest) :
    ∃ field, cs = field ++ rest.dropWhile p ∧ Labelled label (rest.takeWhile p) field := by
  obtain ⟨c, hc, rfl⟩ := (labelled?_eq_some_iff _ _ _).mp h
  refine ⟨_, ?_, .mk c hc⟩
  simp [List.takeWhile_append_dropWhile]

theorem location?_eq_some {cs ds rest : List Char} (h : location? cs = some (ds, rest)) :
    ∃ before field, cs = before ++ field ++ rest ∧ Labelled "location:".toList ds field := by
  fun_induction location? cs with
  | case1 => cases h
  | case2 c cs tail hlabel hempty ih =>
    obtain ⟨before, field, rfl, hfield⟩ := ih h
    exact ⟨c :: before, field, rfl, hfield⟩
  | case3 c cs tail hlabel hne =>
    obtain ⟨rfl, rfl⟩ := Prod.mk.inj (Option.some.inj h)
    obtain ⟨field, hcs, hfield⟩ := labelled_of_takeWhile isDigit hlabel
    exact ⟨[], field, hcs, hfield⟩
  | case4 c cs hlabel ih =>
    obtain ⟨before, field, rfl, hfield⟩ := ih h
    exact ⟨c :: before, field, rfl, hfield⟩

theorem amount?_cons_of_some {cs ds : List Char} (c : Char) (h : amount? cs = some ds) :
    amount? (c :: cs) = some ds := by
  rw [amount?, h]
  rfl

theorem amount?_cons_of_none {cs ds : List Char} {c : Char} (h : amount? cs = none) :
    amount? (c :: cs) = some ds ↔
      ∃ rest, labelled? "gas:".toList (c :: cs) = some rest ∧ rest.takeWhile isAmountChar = ds ∧ ds ≠ [] := by
  rw [amount?, h, Option.orElse_eq_orElse, Option.orElse_eq_or, Option.none_or]
  cases hlabel : labelled? "gas:".toList (c :: cs) with
  | none => simp only [reduceCtorEq, false_and, exists_false]
  | some rest =>
    simp only [Option.some.injEq, exists_eq_left']
    split
    · rename_i hempty
      rw [hempty]
      simp only [reduceCtorEq, false_iff, not_and, not_not]
      exact Eq.symm
    · rename_i hne
      rw [Option.some.injEq]
      exact ⟨fun h => ⟨h, h ▸ hne⟩, And.left⟩

theorem amount?_eq_some {cs ds : List Char} (h : amount? cs = some ds) :
    ∃ before field after, cs = before ++ field ++ after ∧ Labelled "gas:".toList ds field := by
  induction cs with
  | nil => cases h
  | cons c cs ih =>
    cases hcs : amount? cs with
    | some ds' =>
      rw [amount?_cons_of_some c hcs] at h
      obtain rfl := Option.some.inj h
      obtain ⟨before, field, after, rfl, hfield⟩ := ih hcs
      exact ⟨c :: before, field, after, rfl, hfield⟩
    | none =>
      obtain ⟨rest, hlabel, rfl, -⟩ := (amount?_cons_of_none hcs).mp h
      obtain ⟨field, hcs, hfield⟩ := labelled_of_takeWhile isAmountChar hlabel
      exact ⟨[], field, rest.dropWhile isAmountChar, hcs, hfield⟩

theorem isNumeral_of_readLocation? {ds : List Char} {location : Nat}
    (h : readLocation? ds = some location) : Decimal.isNumeral ds = true := by
  obtain ⟨hread, -⟩ := Option.filter_eq_some_iff.mp h
  unfold Decimal.read? at hread
  split at hread
  · assumption
  · cases hread

theorem isAmount_of_digits {ds : List Char} (h : ∀ c ∈ ds, c.isDigit = true) (hne : ds ≠ []) :
    IsAmount ds := by
  obtain ⟨c, hc⟩ := List.exists_mem_of_ne_nil ds hne
  exact ⟨fun d hd => Or.inl (h d hd), c, hc, h c hc⟩

theorem isAmount_of_point {whole fraction : List Char} (hwhole : ∀ c ∈ whole, c.isDigit = true)
    (hfraction : ∀ c ∈ fraction, c.isDigit = true) (hne : whole ++ fraction ≠ []) :
    IsAmount (whole ++ '.' :: fraction) := by
  have hdigits : ∀ c ∈ whole ++ fraction, c.isDigit = true := by
    intro c hc
    rcases List.mem_append.mp hc with hc | hc
    · exact hwhole c hc
    · exact hfraction c hc
  obtain ⟨-, d, hd, hdigit⟩ := isAmount_of_digits hdigits hne
  constructor
  · intro c hc
    rcases List.mem_append.mp hc with hc | hc
    · exact Or.inl (hwhole c hc)
    · exact (List.mem_cons.mp hc).symm.imp_left (hfraction c)
  · refine ⟨d, ?_, hdigit⟩
    rw [List.mem_append] at hd ⊢
    exact hd.imp_right (List.mem_cons_of_mem _)

theorem isAmount_of_readAmount? {ds : List Char} {gas : Float} (h : readAmount? ds = some gas) :
    IsAmount ds := by
  have hsplit : ds = ds.takeWhile Char.isDigit ++ ds.dropWhile Char.isDigit :=
    List.takeWhile_append_dropWhile.symm
  have hwhole : ∀ c ∈ ds.takeWhile Char.isDigit, c.isDigit = true := fun c hc =>
    List.all_eq_true.mp List.all_takeWhile c hc
  simp only [readAmount?] at h
  split at h
  · rename_i hdrop
    rw [hdrop, List.append_nil] at hsplit
    rw [hsplit]
    refine isAmount_of_digits hwhole fun hempty => ?_
    simp [hempty] at h
  · rename_i fraction hdrop
    rw [hdrop] at hsplit
    rw [hsplit]
    split at h
    · rename_i hread
      simp only [Bool.and_eq_true, List.all_eq_true] at hread
      refine isAmount_of_point hwhole hread.1 fun hempty => ?_
      obtain ⟨hw, hf⟩ := List.append_eq_nil_iff.mp hempty
      simp [hw, hf] at hread
    · cases h
  · cases h

theorem header?_eq_none {line : List Char} (h : ¬ HasHeader line) : header? line = none := by
  cases hread : header? line with
  | none => rfl
  | some result =>
    refine absurd ?_ h
    obtain ⟨⟨ds, rest⟩, hlocation, hread⟩ := Option.bind_eq_some_iff.mp hread
    obtain ⟨as, hamount, hread⟩ := Option.bind_eq_some_iff.mp hread
    obtain ⟨n, hn, hread⟩ := Option.bind_eq_some_iff.mp hread
    obtain ⟨g, hg, -⟩ := Option.bind_eq_some_iff.mp hread
    obtain ⟨before, location, rfl, hfield⟩ := location?_eq_some hlocation
    obtain ⟨between, gas, after, rfl, hgas⟩ := amount?_eq_some hamount
    exact ⟨before, location, between, gas, after, by simp, ⟨ds, isNumeral_of_readLocation? hn, hfield⟩,
      ⟨as, isAmount_of_readAmount? hg, hgas⟩⟩

/-! ## Printed headers -/

/-- A decimal numeral: digits and, after a point, more digits. -/
structure Amount where
  whole : List Char
  fraction : Option (List Char)

namespace Amount

def WellFormed (a : Amount) : Prop :=
  Decimal.isNumeral a.whole = true ∧ ∀ f, a.fraction = some f → Decimal.isNumeral f = true

def print (a : Amount) : List Char :=
  a.whole ++ (match a.fraction with
    | none => []
    | some f => '.' :: f)

def toFloat (a : Amount) : Float :=
  let places := a.fraction.getD []
  Decimal.nearest (Decimal.value (a.whole ++ places)) (10 ^ places.length)

theorem isDigit_of_isNumeral {cs : List Char} (h : Decimal.isNumeral cs = true) {c : Char} (hc : c ∈ cs) :
    c.isDigit = true := by
  simp only [Decimal.isNumeral, Bool.and_eq_true, List.all_eq_true] at h
  exact h.2 c hc

theorem ne_nil_of_isNumeral {cs : List Char} (h : Decimal.isNumeral cs = true) : cs ≠ [] := by
  rintro rfl
  simp [Decimal.isNumeral] at h

theorem mem_print {a : Amount} (h : a.WellFormed) {c : Char} (hc : c ∈ a.print) :
    c.isDigit = true ∨ c = '.' := by
  unfold print at hc
  rcases List.mem_append.mp hc with hc | hc
  · exact Or.inl (isDigit_of_isNumeral h.1 hc)
  · cases hf : a.fraction with
    | none => simp [hf] at hc
    | some f =>
      simp only [hf, List.mem_cons] at hc
      exact hc.symm.imp_left (isDigit_of_isNumeral (h.2 f hf))

theorem print_ne_nil {a : Amount} (h : a.WellFormed) : a.print ≠ [] := by
  simp [print, ne_nil_of_isNumeral h.1]

theorem readAmount?_print {a : Amount} (h : a.WellFormed) : readAmount? a.print = some a.toFloat := by
  have hwhole : ∀ c ∈ a.whole, c.isDigit = true := fun c hc => isDigit_of_isNumeral h.1 hc
  have hne : a.whole.isEmpty = false := by simpa using ne_nil_of_isNumeral h.1
  unfold readAmount? print toFloat
  cases hf : a.fraction with
  | none =>
    have htake : (a.whole ++ []).takeWhile Char.isDigit = a.whole ++ [] :=
      List.takeWhile_append_of_pos hwhole
    have hdrop : (a.whole ++ []).dropWhile Char.isDigit = [] := List.dropWhile_append_of_pos hwhole
    rw [List.append_nil] at htake hdrop
    simp [htake, hdrop, hne]
  | some f =>
    have hdigits : f.all Char.isDigit = true :=
      List.all_eq_true.mpr fun c hc => isDigit_of_isNumeral (h.2 f hf) hc
    obtain ⟨htake, hdrop⟩ := takeWhile_append_stop (c := '.') hwhole (by decide) f
    simp only [htake, hdrop]
    simp [hdigits, hne, Decimal.nearestDecimal, Decimal.value_append]

end Amount

def printHeader (location : Nat) (gas : Amount) : List Char :=
  "location:".toList ++ ' ' :: (Decimal.digits location ++
    (" (just consumed gas:".toList ++ ' ' :: (gas.print ++ [')'])))

theorem location?_label {rest : List Char} (h : rest.takeWhile isDigit ≠ []) :
    location? ("location:".toList ++ ' ' :: rest) =
      some (rest.takeWhile isDigit, rest.dropWhile isDigit) := by
  have hlabel : labelled? "location:".toList ("location:".toList ++ ' ' :: rest) = some rest :=
    (labelled?_eq_some_iff _ _ _).mpr ⟨' ', isBlank_space, rfl⟩
  obtain ⟨c, cs, hcs⟩ := List.exists_cons_of_ne_nil
    (List.append_ne_nil_of_right_ne_nil "location:".toList (List.cons_ne_nil ' ' rest))
  rw [hcs] at hlabel ⊢
  rw [location?, hlabel]
  cases hds : rest.takeWhile isDigit with
  | nil => exact absurd hds h
  | cons d ds => simp only [hds]

theorem amount?_eq_none {cs : List Char} (h : 'g' ∉ cs) : amount? cs = none := by
  cases hread : amount? cs with
  | none => rfl
  | some ds =>
    obtain ⟨before, field, after, rfl, ⟨c, -⟩⟩ := amount?_eq_some hread
    exact absurd (by simp) h

theorem amount?_append {cs ds : List Char} (front : List Char) (h : amount? cs = some ds) :
    amount? (front ++ cs) = some ds := by
  induction front with
  | nil => exact h
  | cons c front ih => exact amount?_cons_of_some c ih

theorem amount?_label {word : List Char} {c : Char} (hword : ∀ d ∈ word, isAmountChar d = true)
    (hne : word ≠ []) (hc : isAmountChar c = false) {rest : List Char} (hg : 'g' ∉ word ++ c :: rest) :
    amount? ("gas:".toList ++ ' ' :: (word ++ c :: rest)) = some word := by
  have hlabel : labelled? "gas:".toList ("gas:".toList ++ ' ' :: (word ++ c :: rest)) =
      some (word ++ c :: rest) := (labelled?_eq_some_iff _ _ _).mpr ⟨' ', isBlank_space, rfl⟩
  have hcons : "gas:".toList ++ ' ' :: (word ++ c :: rest) =
      'g' :: (['a', 's', ':', ' '] ++ (word ++ c :: rest)) := by simp
  have hnone : amount? (['a', 's', ':', ' '] ++ (word ++ c :: rest)) = none := by
    apply amount?_eq_none
    rw [List.mem_append, not_or]
    exact ⟨by decide, hg⟩
  rw [hcons] at hlabel ⊢
  exact (amount?_cons_of_none hnone).mpr ⟨_, hlabel, (takeWhile_append_stop hword hc rest).1, hne⟩

theorem Amount.isAmountChar_of_mem {gas : Amount} (h : gas.WellFormed) {c : Char} (hc : c ∈ gas.print) :
    isAmountChar c = true := by
  rcases Amount.mem_print h hc with hc | rfl
  · simp [isAmountChar, isDigit_of_ascii hc]
  · simp [isAmountChar]

theorem amount?_printed {gas : Amount} (h : gas.WellFormed) :
    amount? (" (just consumed gas:".toList ++ ' ' :: (gas.print ++ [')'])) = some gas.print := by
  have hhere : amount? ("gas:".toList ++ ' ' :: (gas.print ++ [')'])) = some gas.print := by
    apply amount?_label (fun c => Amount.isAmountChar_of_mem h) (Amount.print_ne_nil h) (by decide)
    intro hg
    rcases List.mem_append.mp hg with hg | hg
    · rcases Amount.mem_print h hg with hg | hg <;> simp at hg
    · simp at hg
  have hsplit : " (just consumed gas:".toList = " (just consumed ".toList ++ "gas:".toList := by simp
  rw [hsplit, List.append_assoc]
  exact amount?_append _ hhere

theorem location?_printed (location : Nat) {rest : List Char} (h : rest.head? = some ' ') :
    location? ("location:".toList ++ ' ' :: (Decimal.digits location ++ rest)) =
      some (Decimal.digits location, rest) := by
  obtain ⟨tail, rfl⟩ := List.head?_eq_some_iff.mp h
  have hdigits : ∀ c ∈ Decimal.digits location, isDigit c = true := fun c hc =>
    isDigit_of_ascii (Decimal.isDigit_of_mem_digits hc)
  obtain ⟨htake, hdrop⟩ := takeWhile_append_stop (c := ' ') hdigits (by decide) tail
  rw [location?_label (by rw [htake]; exact Decimal.digits_ne_nil location), htake, hdrop]

theorem readLocation?_digits {location : Nat} (h : location < 2 ^ 64) :
    readLocation? (Decimal.digits location) = some location := by
  rw [readLocation?, Decimal.read?_digits, Option.filter_some, if_pos]
  exact decide_eq_true h

theorem header?_printHeader {location : Nat} {gas : Amount} (hlocation : location < 2 ^ 64)
    (hgas : gas.WellFormed) : header? (printHeader location gas) = some (location, gas.toFloat) := by
  have hfound : location? (printHeader location gas) =
      some (Decimal.digits location, " (just consumed gas:".toList ++ ' ' :: (gas.print ++ [')'])) :=
    location?_printed location (by simp)
  simp only [header?, hfound, Option.bind_eq_bind, Option.bind_some, amount?_printed hgas,
    readLocation?_digits hlocation, Amount.readAmount?_print hgas]

end Retrace.Trace
