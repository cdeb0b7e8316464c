import Retrace.Call
import Retrace.Proofs.Checks
import Retrace.Proofs.Decimal
import Retrace.Proofs.Literal

/-!
# Arguments as one Michelson value

Numbers, truth values, bytes and dates are written so that each literal tells where it ends. Strings
and addresses are put between double quotes as they are: theirs do so only if no quote in the value
closes the literal early.
-/

namespace Retrace

open Retrace.Michelson

/-! ## Accepted values -/

/-- The characters of the literals that are not quoted, but for the space of a date. -/
def isAtomChar (c : Char) : Bool := c.isAlphanum || c == '-' || c == ':'

/-- A date, or the end of one, by its length and its characters. -/
structure DateTime.Shaped (n : Nat) (cs : List Char) : Prop where
  length_eq : cs.length = n
  chars : ∀ c ∈ cs, isAtomChar c = true ∨ c = ' '

/-- The values that a type has. -/
inductive ArgumentType.Fits : ArgumentType → ArgumentValue → Prop
  | nat {n : Int} (h : 0 ≤ n) : Fits .nat (.integer n)
  | int (n : Int) : Fits .int (.integer n)
  | bool (b : Bool) : Fits .bool (.bool b)
  | string (s : String) : Fits .string (.text s)
  | bytes {s : String} (h : ∀ c ∈ s.toList, c.isAlphanum = true) : Fits .bytes (.text s)
  | address (s : String) : Fits .address (.text s)
  | timestamp {s : String} (h : DateTime.Shaped 19 s.toList) : Fits .timestamp (.text s)
  | other (name s : String) : Fits (.other name) (.text s)

theorem toNat_lt_of_hexValue? {c : Char} (h : (Json.Text.hexValue? c).isSome = true) : c.toNat < 128 := by
  apply Nat.lt_of_not_le
  intro hge
  have hlt : ∀ d : Char, d.toNat < 128 → ¬ c ≤ d := by
    intro d hd hle
    have : c.toNat ≤ d.toNat := hle
    omega
  have hnone : Json.Text.hexValue? c = none := by
    unfold Json.Text.hexValue?
    simp [hlt '9' (by decide), hlt 'f' (by decide), hlt 'F' (by decide)]
  simp [hnone] at h

theorem forall_ascii {P : Char → Prop} (h : ∀ n : Fin 128, P (Char.ofNat n)) {c : Char}
    (hc : c.toNat < 128) : P c := by
  have hn := h ⟨c.toNat, hc⟩
  rwa [Char.ofNat_toNat] at hn

theorem isAlphanum_toLower {c : Char} (h : (Json.Text.hexValue? c).isSome = true) :
    c.toLower.isAlphanum = true :=
  forall_ascii (P := fun c => (Json.Text.hexValue? c).isSome = true → c.toLower.isAlphanum = true)
    (by decide) (toNat_lt_of_hexValue? h) h

theorem isAlphanum_of_isHex {ds : List Char} (h : Scalar.isHex ds = true) :
    ∀ c ∈ ds.map Char.toLower, c.isAlphanum = true := by
  have hdigits : ∀ d ∈ ds, (Json.Text.hexValue? d).isSome = true ∨ d = '0' ∨ d = 'x' ∨ d = 'X' := by
    unfold Scalar.isHex at h
    simp only [Bool.and_eq_true, List.all_eq_true] at h
    intro d hd
    split at h
    · split at h
      · rename_i hmark
        simp only [List.mem_cons] at hd
        rcases hd with rfl | rfl | hd
        · simp
        · simp [hmark]
        · exact Or.inl (h.2 d hd)
      · exact Or.inl (h.2 d hd)
    · exact Or.inl (h.2 d hd)
  intro c hc
  obtain ⟨d, hd, rfl⟩ := List.mem_map.mp hc
  rcases hdigits d hd with hd | rfl | rfl | rfl
  · exact isAlphanum_toLower hd
  · decide
  · decide
  · decide

namespace DateTime

theorem Shaped.of_field? {n m k : Nat} {cs rest : List Char} (h : field? n cs = some (m, rest))
    (hrest : Shaped k rest) : Shaped (n + k) cs := by
  simp only [field?, Bool.and_eq_true, decide_eq_true_eq, List.all_eq_true,
    Option.ite_none_right_eq_some, Option.some.injEq, Prod.mk.injEq] at h
  obtain ⟨⟨hlen, hdigits⟩, -, rfl⟩ := h
  have hsplit := List.take_append_drop n cs
  constructor
  · rw [← hsplit, List.length_append, hlen, hrest.length_eq]
  · rw [← hsplit]
    intro c hc
    rcases List.mem_append.mp hc with hc | hc
    · left
      simp [isAtomChar, Char.isAlphanum, hdigits c hc]
    · exact hrest.chars c hc

theorem Shaped.of_nextField? {sep : Char} {m k : Nat} {cs rest : List Char}
    (h : nextField? sep cs = some (m, rest)) (hsep : isAtomChar sep = true ∨ sep = ' ')
    (hrest : Shaped k rest) : Shaped (3 + k) cs := by
  cases cs with
  | nil => simp [nextField?] at h
  | cons c cs =>
    simp only [nextField?, Option.ite_none_right_eq_some] at h
    obtain ⟨rfl, h⟩ := h
    have hcs := hrest.of_field? h
    constructor
    · rw [List.length_cons, hcs.length_eq]
      omega
    · exact List.forall_mem_cons.mpr ⟨hsep, hcs.chars⟩

theorem shaped_of_read? {cs : List Char} (h : (read? cs).isSome = true) : Shaped 19 cs := by
  obtain ⟨date, h⟩ := Option.isSome_iff_exists.mp h
  simp only [read?, Option.bind_eq_bind, Option.bind_eq_some_iff, Prod.exists,
    Option.ite_none_right_eq_some, Bool.and_eq_true, List.isEmpty_iff] at h
  obtain ⟨_, _, hyear, _, _, hmonth, _, _, hday, _, _, hhour, _, _, hminute, _, _, hsecond, ⟨rfl, -⟩, -⟩ := h
  have hend : Shaped 0 [] := ⟨rfl, by simp⟩
  have hminute := (hend.of_nextField? hsecond (by decide)).of_nextField? hminute (by decide)
  have hday := (hminute.of_nextField? hhour (by decide)).of_nextField? hday (by decide)
  exact (hday.of_nextField? hmonth (by decide)).of_field? hyear

end DateTime

theorem ArgumentType.fits_of_check {type : ArgumentType} {text : List Char} {value : ArgumentValue}
    (h : type.check text = .ok value) : type.Fits value := by
  cases check_eq_ok_iff.mp h with
  | nat _ hn => exact .nat hn
  | int => exact .int _
  | bool b => exact .bool b
  | string => exact .string _
  | bytes hhex =>
    refine .bytes ?_
    rw [String.toList_ofList]
    exact isAlphanum_of_isHex hhex
  | address => exact .address _
  | timestamp hdate =>
    refine .timestamp ?_
    rw [String.toList_ofList]
    exact DateTime.shaped_of_read? hdate
  | other name => exact .other name _

namespace Argument

/-- The check of the argument's type accepts some text, and the value is what it makes of it. -/
def Accepted (a : Argument) : Prop := ∃ text, make a.name text a.type = .ok a

/-- A value that is put between quotes can stand there. -/
def Enclosed (a : Argument) : Prop :=
  a.type = .string ∨ a.type = .address → isEnclosed a.value.shown.toList = true

/-- What makes a literal tell its value. -/
structure Clear (a : Argument) : Prop where
  accepted : a.Accepted
  enclosed : a.Enclosed
  known : ∀ name, a.type ≠ .other name

theorem accepted_of_ascii (name : String) {s : String} (h : s.toList.all (·.toNat < 128) = true) :
    Accepted ⟨name, .string, .text s⟩ := by
  have hquote : Scalar.unquote ('"' :: (s.toList ++ ['"'])) = s.toList := by simp [Scalar.unquote]
  refine ⟨String.ofList ('"' :: (s.toList ++ ['"'])), ?_⟩
  simp only [make, ArgumentType.check, String.toList_ofList, hquote, h, if_true, String.ofList_toList]

theorem Accepted.fits {a : Argument} (h : a.Accepted) : a.type.Fits a.value := by
  obtain ⟨text, h⟩ := h
  unfold make at h
  split at h
  · rename_i value hcheck
    have hvalue : value = a.value := congrArg Argument.value (Except.ok.inj h)
    exact hvalue ▸ ArgumentType.fits_of_check hcheck
  · cases h

end Argument

/-! ## Forms of literals -/

/-- How the literals of a type are written. -/
inductive Form where
  | atom
  | date
  | quoted

def Form.Writes : Form → List Char → Prop
  | .atom, x => ∀ c ∈ x, isAtomChar c = true
  | .date, x => DateTime.Shaped 19 x
  | .quoted, x => ∃ u, isEnclosed u = true ∧ x = '"' :: (u ++ ['"'])

/-- What can follow a literal: the end of the text, the next value of a pair or the end of a pair. -/
def Stops (rest : List Char) : Prop := ∀ c ∈ rest.head?, c = ' ' ∨ c = ')'

theorem stops_nil : Stops [] := by simp [Stops]

theorem stops_cons {c : Char} (h : c = ' ' ∨ c = ')') (rest : List Char) : Stops (c :: rest) := by
  simpa [Stops] using h

theorem isAtomChar_of_isAlphanum {c : Char} (h : c.isAlphanum = true) : isAtomChar c = true := by
  simp [isAtomChar, h]

theorem atom_unique {x y s t : List Char} (hx : Form.atom.Writes x) (hy : Form.atom.Writes y)
    (hs : Stops s) (ht : Stops t) (h : x ++ s = y ++ t) : x = y ∧ s = t := by
  have hstop : ∀ {c : Char}, isAtomChar c = true → ¬ (c = ' ' ∨ c = ')') := by
    rintro c hc (rfl | rfl)
    · exact absurd hc (by decide)
    · exact absurd hc (by decide)
  induction x generalizing y with
  | nil =>
    cases y with
    | nil => exact ⟨rfl, h⟩
    | cons d y =>
      obtain rfl : s = d :: (y ++ t) := h
      exact absurd (hs d rfl) (hstop (hy d List.mem_cons_self))
  | cons c x ih =>
    obtain ⟨hc, hx⟩ := List.forall_mem_cons.mp hx
    cases y with
    | nil =>
      obtain rfl : c :: (x ++ s) = t := h
      exact absurd (ht c rfl) (hstop hc)
    | cons d y =>
      obtain ⟨rfl, hrest⟩ := List.cons.inj h
      obtain ⟨rfl, rfl⟩ := ih hx (List.forall_mem_cons.mp hy).2 hrest
      exact ⟨rfl, rfl⟩

/-- A literal tells where it ends: an atom at what stops it, a date after its length, and a quoted
text at the first quote that is not escaped. -/
theorem Form.unique {f : Form} {x y s t : List Char} (hx : f.Writes x) (hy : f.Writes y)
    (hs : Stops s) (ht : Stops t) (h : x ++ s = y ++ t) : x = y ∧ s = t := by
  cases f with
  | atom => exact atom_unique hx hy hs ht h
  | date => exact List.append_inj h (hx.length_eq.trans hy.length_eq.symm)
  | quoted =>
    obtain ⟨u, hu, rfl⟩ := hx
    obtain ⟨v, hv, rfl⟩ := hy
    have hinner : u ++ '"' :: s = v ++ '"' :: t := by simpa using h
    obtain ⟨rfl, rfl⟩ := Literal.encloses_unique hu hv hinner
    exact ⟨rfl, rfl⟩

theorem Form.scan {f : Form} {x : List Char} (h : f.Writes x) (braces parens : Int) :
    (⟨.outside, braces, parens⟩ : Balance).scan x = ⟨.outside, braces, parens⟩ := by
  have hplain : ∀ c : Char, isAtomChar c = true ∨ c = ' ' →
      c ≠ '"' ∧ c ≠ '\x7b' ∧ c ≠ '\x7d' ∧ c ≠ '(' ∧ c ≠ ')' := by
    intro c hc
    refine ⟨?_, ?_, ?_, ?_, ?_⟩ <;> (rintro rfl; exact absurd hc (by decide))
  cases f with
  | atom => exact Balance.scan_plain (fun c hc => hplain c (Or.inl (h c hc))) braces parens
  | date => exact Balance.scan_plain (fun c hc => hplain c (h.chars c hc)) braces parens
  | quoted =>
    obtain ⟨u, hu, rfl⟩ := h
    exact Balance.scan_literal hu braces parens []

/-! ## Literals of arguments -/

def ArgumentType.form : ArgumentType → Form
  | .string | .address => .quoted
  | .timestamp => .date
  | _ => .atom

theorem writes_ofInt (n : Int) : Form.atom.Writes (Decimal.ofInt n) := by
  intro c hc
  rcases Decimal.mem_ofInt hc with rfl | hdigit
  · decide
  · simp [isAtomChar, Char.isAlphanum, hdigit]

namespace Argument

theorem Clear.writes {a : Argument} (h : a.Clear) : a.type.form.Writes a.michelson.toList := by
  obtain ⟨_, type, value⟩ := a
  have hfits := h.accepted.fits
  simp only at hfits
  cases hfits with
  | nat | int =>
    simp only [michelson, ArgumentValue.shown, String.toList_ofList]
    exact writes_ofInt _
  | bool b =>
    cases b
    · simp [ArgumentType.form, Form.Writes, michelson, ArgumentValue.shown, isAtomChar]
    · simp [ArgumentType.form, Form.Writes, michelson, ArgumentValue.shown, isAtomChar]
  | string u =>
    exact ⟨u.toList, h.enclosed (Or.inl rfl), by simp [michelson, ArgumentValue.shown]⟩
  | bytes hu =>
    intro c hc
    simp only [michelson, ArgumentValue.shown, String.toList_append, List.mem_append] at hc
    have hmark : "0x".toList.all isAtomChar = true := by decide
    rcases hc with hc | hc
    · exact List.all_eq_true.mp hmark c hc
    · exact isAtomChar_of_isAlphanum (hu c hc)
  | address u =>
    exact ⟨u.toList, h.enclosed (Or.inr rfl), by simp [michelson, ArgumentValue.shown]⟩
  | timestamp hu => exact hu
  | other name => exact absurd rfl (h.known name)

theorem value_eq_of_michelson {a b : Argument} (ha : a.Accepted) (hb : b.Accepted)
    (htype : a.type = b.type) (h : a.michelson = b.michelson) : a.value = b.value := by
  obtain ⟨_, type, v⟩ := a
  obtain ⟨_, _, w⟩ := b
  obtain rfl : type = _ := htype
  have hv := ha.fits
  have hw := hb.fits
  simp only at hv hw ⊢
  cases hv with
  | nat | int =>
    cases hw
    simp only [michelson, ArgumentValue.shown, String.ofList_inj] at h
    rw [Decimal.ofInt_inj h]
  | bool b =>
    cases hw with
    | bool c => cases b <;> cases c <;> simp_all [michelson, ArgumentValue.shown]
  | string u | address u | bytes hu | timestamp hu | other name u =>
    cases hw
    simpa [michelson, ArgumentValue.shown, ← String.toList_inj] using h

end Argument

/-! ## Lists of arguments -/

theorem michelsonOf_cons_cons (a b : Argument) (as : List Argument) :
    (michelsonOf (a :: b :: as)).toList = "(Pair ".toList ++
      (a.michelson.toList ++ ' ' :: ((michelsonOf (b :: as)).toList ++ [')'])) := by
  simp [michelsonOf, Michelson.pair]

theorem scan_michelsonOf {as : List Argument} (h : ∀ a ∈ as, a.Clear) (braces parens : Int) :
    (⟨.outside, braces, parens⟩ : Balance).scan (michelsonOf as).toList = ⟨.outside, braces, parens⟩ := by
  induction as generalizing parens with
  | nil =>
    have hunit : Form.atom.Writes "Unit".toList := List.all_eq_true.mp (by decide)
    exact Form.scan hunit braces parens
  | cons a as ih =>
    obtain ⟨ha, has⟩ := List.forall_mem_cons.mp h
    have hfirst := Form.scan ha.writes
    cases as with
    | nil => exact hfirst braces parens
    | cons b as =>
      have hopen : (⟨.outside, braces, parens⟩ : Balance).scan "(Pair ".toList =
          ⟨.outside, braces, parens + 1⟩ := by
        simp [Balance.scan, Balance.next, Literal.next, Balance.braceStep, Balance.parenStep]
      have hspace : ∀ rest, (⟨.outside, braces, parens + 1⟩ : Balance).scan (' ' :: rest) =
          (⟨.outside, braces, parens + 1⟩ : Balance).scan rest := by
        intro rest
        simp [Balance.scan, Balance.next, Literal.next, Balance.braceStep, Balance.parenStep]
      have hclose : (⟨.outside, braces, parens + 1⟩ : Balance).scan [')'] =
          ⟨.outside, braces, parens⟩ := by
        have hback : parens + 1 + -1 = parens := by omega
        simp [Balance.scan, Balance.next, Literal.next, Balance.braceStep, Balance.parenStep, hback]
      rw [michelsonOf_cons_cons, Balance.scan_append, hopen, Balance.scan_append, hfirst, hspace,
        Balance.scan_append, ih has, hclose]

theorem values_unique {as bs : List Argument} (has : ∀ a ∈ as, a.Clear) (hbs : ∀ b ∈ bs, b.Clear)
    (htypes : as.map (·.type) = bs.map (·.type)) {s t : List Char} (hs : Stops s) (ht : Stops t)
    (h : (michelsonOf as).toList ++ s = (michelsonOf bs).toList ++ t) :
    as.map (·.value) = bs.map (·.value) ∧ s = t := by
  induction as generalizing bs s t with
  | nil =>
    obtain rfl : bs = [] := by simpa using htypes.symm
    exact ⟨rfl, List.append_cancel_left h⟩
  | cons a as ih =>
    cases bs with
    | nil => simp at htypes
    | cons b bs =>
      simp only [List.map_cons, List.cons.injEq] at htypes
      obtain ⟨htype, htypes⟩ := htypes
      obtain ⟨ha, has⟩ := List.forall_mem_cons.mp has
      obtain ⟨hb, hbs⟩ := List.forall_mem_cons.mp hbs
      have hvalue : ∀ {s t : List Char}, Stops s → Stops t →
          a.michelson.toList ++ s = b.michelson.toList ++ t → a.value = b.value ∧ s = t := by
        intro s t hs ht heq
        obtain ⟨hliteral, rfl⟩ := Form.unique ha.writes (htype ▸ hb.writes) hs ht heq
        have hstring := String.toList_inj.mp hliteral
        exact ⟨Argument.value_eq_of_michelson ha.accepted hb.accepted htype hstring, rfl⟩
      cases as with
      | nil =>
        obtain rfl : bs = [] := by simpa using htypes.symm
        obtain ⟨hfirst, rfl⟩ := hvalue hs ht h
        simp [hfirst]
      | cons a' as =>
        cases bs with
        | nil => simp at htypes
        | cons b' bs =>
          rw [michelsonOf_cons_cons, michelsonOf_cons_cons] at h
          simp only [List.append_assoc, List.cons_append, List.nil_append] at h
          have hspace : ∀ rest, Stops (' ' :: rest) := stops_cons (Or.inl rfl)
          have hparen : ∀ rest, Stops (')' :: rest) := stops_cons (Or.inr rfl)
          -- The first literals are the same, and so are the texts after them.
          obtain ⟨hfirst, hrest⟩ := hvalue (hspace _) (hspace _) (List.append_cancel_left h)
          obtain ⟨hmore, hend⟩ := ih has hbs htypes (hparen _) (hparen _) (List.cons.inj hrest).2
          exact ⟨congrArg₂ List.cons hfirst hmore, (List.cons.inj hend).2⟩

/-- **Arguments are told apart.** As long as no string and no address closes its own literal, the value
of an argument list is balanced, and it is the value of no other list of these types. -/
theorem michelsonOf_unambiguous {as bs : List Argument} (has : ∀ a ∈ as, a.Accepted)
    (hbs : ∀ b ∈ bs, b.Accepted) (htypes : as.map (·.type) = bs.map (·.type))
    (hknown : ∀ a ∈ as, ∀ name, a.type ≠ .other name) (has' : ∀ a ∈ as, a.Enclosed)
    (hbs' : ∀ b ∈ bs, b.Enclosed) :
    isBalanced (michelsonOf as).toList = true ∧ isBalanced (michelsonOf bs).toList = true ∧
      (michelsonOf as = michelsonOf bs → as.map (·.value) = bs.map (·.value)) := by
  have hknown' : ∀ b ∈ bs, ∀ name, b.type ≠ .other name := by
    intro b hb
    have hmem : b.type ∈ as.map (·.type) := htypes ▸ List.mem_map_of_mem hb
    obtain ⟨a, ha, htype⟩ := List.mem_map.mp hmem
    exact htype ▸ hknown a ha
  have hclear : ∀ a ∈ as, a.Clear := fun a ha => ⟨has a ha, has' a ha, hknown a ha⟩
  have hclear' : ∀ b ∈ bs, b.Clear := fun b hb => ⟨hbs b hb, hbs' b hb, hknown' b hb⟩
  refine ⟨decide_eq_true (scan_michelsonOf hclear 0 0), decide_eq_true (scan_michelsonOf hclear' 0 0), ?_⟩
  intro h
  exact (values_unique hclear hclear' htypes stops_nil stops_nil (by rw [h])).1

def twoStrings (s t : String) : List Argument := [⟨"x", .string, .text s⟩, ⟨"y", .string, .text t⟩]

theorem accepted_twoStrings {s t : String} (hs : s.toList.all (·.toNat < 128) = true)
    (ht : t.toList.all (·.toNat < 128) = true) : ∀ a ∈ twoStrings s t, a.Accepted :=
  List.forall_mem_cons.mpr ⟨Argument.accepted_of_ascii "x" hs,
    List.forall_mem_singleton.mpr (Argument.accepted_of_ascii "y" ht)⟩

theorem escaped_unambiguous :
    isBalanced (michelsonOf (twoStrings "a\\\" \\\"b" "c\\\\")).toList = true ∧
      michelsonOf (twoStrings "a\\\" \\\"b" "c\\\\") ≠ michelsonOf (twoStrings "a" "\\\"b c\\\\") := by
  have henclosed : ∀ s t : String, isEnclosed s.toList = true → isEnclosed t.toList = true →
      ∀ a ∈ twoStrings s t, a.Enclosed := by
    intro s t hs ht
    exact List.forall_mem_cons.mpr ⟨fun _ => hs, List.forall_mem_singleton.mpr fun _ => ht⟩
  obtain ⟨hbalanced, -, hvalues⟩ := michelsonOf_unambiguous
    (accepted_twoStrings (s := "a\\\" \\\"b") (t := "c\\\\") (by decide) (by decide))
    (accepted_twoStrings (s := "a") (t := "\\\"b c\\\\") (by decide) (by decide)) rfl
    (by simp [twoStrings]) (henclosed _ _ (by decide) (by decide)) (henclosed _ _ (by decide) (by decide))
  exact ⟨hbalanced, fun h => absurd (hvalues h) (by decide)⟩

/-- A quote that is not escaped closes its literal: two lists of strings have one value, and the
literal of a string is not balanced. -/
theorem unescaped_ambiguous :
    (∀ a ∈ twoStrings "a\" \"b" "c", a.Accepted) ∧ (∀ b ∈ twoStrings "a" "b\" \"c", b.Accepted) ∧
      michelsonOf (twoStrings "a\" \"b" "c") = michelsonOf (twoStrings "a" "b\" \"c") ∧
      (twoStrings "a\" \"b" "c").map (·.value) ≠ (twoStrings "a" "b\" \"c").map (·.value) ∧
      (∀ c ∈ twoStrings "a\"b" "c", c.Accepted) ∧
      isBalanced (michelsonOf (twoStrings "a\"b" "c")).toList = false :=
  ⟨accepted_twoStrings (by decide) (by decide), accepted_twoStrings (by decide) (by decide), by decide,
    by decide, accepted_twoStrings (by decide) (by decide), by decide⟩

end Retrace
