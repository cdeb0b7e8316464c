import Retrace.Dialogue
import Retrace.Proofs.Arguments
import Retrace.Proofs.Calendar
import Retrace.Proofs.Text.Trim

/-!
# Literals of checked values

A value is written as the canonical literal of its type, and its literal, checked again, gives the
value back. There are two gaps: an address is not accepted between the quotes that its literal has,
and bytes that are typed with a second mark, or with one in capitals, keep it in their literal.
-/

namespace Retrace

open Retrace.Text Retrace.Decimal Retrace.Scalar

/-! ## Numbers -/

namespace Scalar

/-- A text spells an integer: digits after an optional sign. -/
def Spells (text : List Char) (n : Int) : Prop :=
  ∃ ds, isNumeral ds = true ∧
    ((text = ds ∨ text = '+' :: ds) ∧ n = value ds ∨ text = '-' :: ds ∧ n = -(value ds : Int))

theorem unsign_of_isNumeral {ds : List Char} (h : isNumeral ds = true) : unsign ds = (false, ds) := by
  cases ds with
  | nil => rfl
  | cons d ds =>
    have hd : d.isDigit = true := by
      simp [isNumeral] at h
      exact h.1
    have hminus : d ≠ '-' := by
      rintro rfl
      simp at hd
    have hplus : d ≠ '+' := by
      rintro rfl
      simp at hd
    unfold unsign
    split
    · rename_i heq
      exact absurd (List.cons.inj heq).1 hminus
    · rename_i heq
      exact absurd (List.cons.inj heq).1 hplus
    · rfl

theorem integer?_eq_some_iff {text : List Char} {n : Int} :
    integer? text = some n ↔ Spells (trim text) n := by
  have hread : integer? text = some n ↔ isNumeral (unsign (trim text)).2 = true ∧
      n = if (unsign (trim text)).1 then -(value (unsign (trim text)).2 : Int)
        else value (unsign (trim text)).2 := by
    unfold integer? read?
    rcases unsign (trim text) with ⟨negative, ds⟩
    by_cases h : isNumeral ds = true
    · simp only [h, if_true, true_and]
      exact ⟨fun heq => (Option.some.inj heq).symm, fun heq => congrArg some heq.symm⟩
    · simp [h]
  rw [hread]
  generalize trim text = cs
  unfold Spells
  constructor
  · rintro ⟨hnumeral, rfl⟩
    refine ⟨(unsign cs).2, hnumeral, ?_⟩
    unfold unsign
    split <;> simp
  · rintro ⟨ds, hnumeral, ⟨rfl | rfl, rfl⟩ | ⟨rfl, rfl⟩⟩
    · simp [unsign_of_isNumeral hnumeral, hnumeral]
    · exact ⟨hnumeral, rfl⟩
    · exact ⟨hnumeral, rfl⟩

theorem toNat_lt_of_isAlphanum {c : Char} (h : c.isAlphanum = true) : c.toNat < 128 := by
  have hclass : (c.isUpper || c.isLower || c.isDigit) = true := h
  simp only [Bool.or_eq_true] at hclass
  have hlt : ∀ hi : Char, hi.toNat < 128 → c.val ≤ hi.val → c.toNat < 128 := by
    intro hi hascii hle
    exact Nat.lt_of_le_of_lt (UInt32.le_iff_toNat_le.mp hle) hascii
  rcases hclass with (hupper | hlower) | hdigit
  · exact hlt 'Z' (by decide) (of_decide_eq_true hupper).2
  · exact hlt 'z' (by decide) (of_decide_eq_true (Bool.and_eq_true_iff.mp hlower).2)
  · exact hlt '9' (by decide) (of_decide_eq_true (Bool.and_eq_true_iff.mp hdigit).2)

theorem isBlank_of_isAlphanum {c : Char} (h : c.isAlphanum = true) : isBlank c = false :=
  forall_ascii (P := fun c => c.isAlphanum = true → isBlank c = false) (by decide)
    (toNat_lt_of_isAlphanum h) h

theorem integer?_ofInt (n : Int) : integer? (ofInt n) = some n := by
  have hsolid : ∀ c ∈ ofInt n, isBlank c = false := by
    intro c hc
    rcases mem_ofInt hc with rfl | hdigit
    · decide
    · exact isBlank_of_isAlphanum (by simp [Char.isAlphanum, hdigit])
  rw [integer?_eq_some_iff, trim_of_solid hsolid]
  cases n with
  | ofNat n => exact ⟨digits n, isNumeral_digits n, Or.inl ⟨Or.inl rfl, by rw [value_digits]; rfl⟩⟩
  | negSucc n => exact ⟨digits (n + 1), isNumeral_digits _, Or.inr ⟨rfl, by rw [value_digits]; omega⟩⟩

/-! ## Bytes -/

/-- A text starts with a mark of either case. -/
def Marked (ds : List Char) : Prop := ∃ c rest, ds = '0' :: c :: rest ∧ (c = 'x' ∨ c = 'X')

/-- An even number of hexadecimal digits. -/
def HexPairs (ds : List Char) : Prop :=
  ds.length % 2 = 0 ∧ ∀ d ∈ ds, (Json.Text.hexValue? d).isSome = true

/-- The bytes that pairs of hexadecimal digits of either case denote. -/
def bytes? : List Char → Option (List Nat)
  | [] => some []
  | [_] => none
  | c :: d :: ds =>
    (Json.Text.hexValue? c).bind fun high =>
      (Json.Text.hexValue? d).bind fun low => (bytes? ds).map ((16 * high + low) :: ·)

/-- A digit `0` to `9` or a small letter `a` to `f`. -/
def isLowerHex (c : Char) : Bool := ('0' ≤ c && c ≤ '9') || ('a' ≤ c && c ≤ 'f')

theorem HexPairs.not_marked {ds : List Char} (h : HexPairs ds) : ¬ Marked ds := by
  rintro ⟨c, rest, rfl, rfl | rfl⟩
  · exact absurd (h.2 'x' (by simp)) (by decide)
  · exact absurd (h.2 'X' (by simp)) (by decide)

theorem isHex_iff (ds : List Char) : isHex ds = true ↔
    HexPairs ds ∨ ∃ c rest, ds = '0' :: c :: rest ∧ (c = 'x' ∨ c = 'X') ∧ HexPairs rest := by
  have hpairs : ∀ ds : List Char, (ds.length % 2 == 0 &&
      ds.all fun d => (Json.Text.hexValue? d).isSome) = true ↔ HexPairs ds := by
    intro ds
    simp [HexPairs]
  constructor
  · intro h
    unfold isHex at h
    simp only [hpairs] at h
    split at h
    · split at h
      · rename_i c rest hmark
        exact Or.inr ⟨c, rest, rfl, hmark, h⟩
      · exact Or.inl h
    · exact Or.inl h
  · rintro (h | ⟨c, rest, rfl, hmark, h⟩)
    · have hmark := h.not_marked
      unfold isHex
      simp only [hpairs]
      split
      · rename_i c rest
        rw [if_neg (fun hc => hmark ⟨c, rest, rfl, hc⟩)]
        exact h
      · exact h
    · unfold isHex
      simp only [hpairs, if_pos hmark]
      exact h

theorem hexValue?_toLower {d : Char} (h : (Json.Text.hexValue? d).isSome = true) :
    isLowerHex d.toLower = true ∧ Json.Text.hexValue? d.toLower = Json.Text.hexValue? d :=
  forall_ascii (P := fun d => (Json.Text.hexValue? d).isSome = true →
    isLowerHex d.toLower = true ∧ Json.Text.hexValue? d.toLower = Json.Text.hexValue? d)
    (by decide) (toNat_lt_of_hexValue? h) h

theorem toLower_toLower (c : Char) : c.toLower.toLower = c.toLower := by
  by_cases h : c.val ≥ 'A'.val ∧ c.val ≤ 'Z'.val
  · have hlt : c.toNat < 128 := by
      have hle : c.toNat ≤ 90 := UInt32.le_iff_toNat_le.mp h.2
      omega
    exact forall_ascii (P := fun c => c.toLower.toLower = c.toLower) (by decide) hlt
  · have hself : c.toLower = c := dif_neg h
    rw [hself, hself]

theorem HexPairs.map_toLower {ds : List Char} (h : HexPairs ds) : HexPairs (ds.map Char.toLower) := by
  constructor
  · rw [List.length_map]
    exact h.1
  · intro c hc
    obtain ⟨d, hd, rfl⟩ := List.mem_map.mp hc
    rw [(hexValue?_toLower (h.2 d hd)).2]
    exact h.2 d hd

theorem isHex_map_toLower {ds : List Char} (h : isHex ds = true) : isHex (ds.map Char.toLower) = true := by
  rw [isHex_iff] at h ⊢
  rcases h with h | ⟨c, rest, rfl, hmark, h⟩
  · exact Or.inl h.map_toLower
  · refine Or.inr ⟨c.toLower, rest.map Char.toLower, rfl, ?_, h.map_toLower⟩
    rcases hmark with rfl | rfl
    · exact Or.inl rfl
    · exact Or.inl rfl

theorem HexPairs.bytes?_eq {ds : List Char} (h : HexPairs ds) :
    ∃ bytes, bytes? ds = some bytes ∧ bytes? (ds.map Char.toLower) = some bytes := by
  obtain ⟨heven, hdigits⟩ := h
  induction ds using bytes?.induct with
  | case1 => exact ⟨[], rfl, rfl⟩
  | case2 d => simp at heven
  | case3 c d ds ih =>
    simp only [List.forall_mem_cons] at hdigits
    obtain ⟨hc, hd, hds⟩ := hdigits
    obtain ⟨bytes, hbytes, hlower⟩ := ih (by simp at heven; omega) hds
    obtain ⟨high, hhigh⟩ := Option.isSome_iff_exists.mp hc
    obtain ⟨low, hlow⟩ := Option.isSome_iff_exists.mp hd
    refine ⟨(16 * high + low) :: bytes, ?_, ?_⟩
    · simp [bytes?, hhigh, hlow, hbytes]
    · simp [bytes?, hexValue?_toLower hc, hexValue?_toLower hd, hhigh, hlow, hlower]

end Scalar

/-! ## Literals checked again -/

theorem Scalar.typedDigits_marked {ds : List Char} (h : ∀ c ∈ ds, c.isAlphanum = true) :
    typedDigits ('0' :: 'x' :: ds) = ds := by
  have hsolid : ∀ c ∈ '0' :: 'x' :: ds, isBlank c = false := by
    simp only [List.forall_mem_cons]
    exact ⟨by decide, by decide, fun c hc => isBlank_of_isAlphanum (h c hc)⟩
  unfold typedDigits
  rw [trim_of_solid hsolid]
  rfl

theorem Scalar.isAddress_quoted (text : List Char) : isAddress ('"' :: text) = false := by
  simp [isAddress, List.isPrefixOf]

theorem ArgumentType.Checks.michelson {type : ArgumentType} {text : List Char} {value : ArgumentValue}
    (h : type.Checks text value) (htype : type ≠ .address) (name : String) :
    type.Checks (Argument.michelson ⟨name, type, value⟩).toList value := by
  simp only [Argument.michelson]
  cases h with
  | nat h hn =>
    simp only [ArgumentValue.shown, String.toList_ofList]
    exact .nat (integer?_ofInt _) hn
  | int h =>
    simp only [ArgumentValue.shown, String.toList_ofList]
    exact .int (integer?_ofInt _)
  | bool b h =>
    apply Checks.bool
    cases b <;> decide
  | string hascii =>
    have hquoted : unquote ('"' :: (unquote text ++ ['"'])) = unquote text := by simp [unquote]
    have hagain : Checks .string ('"' :: (unquote text ++ ['"'])) _ := .string (by rw [hquoted]; exact hascii)
    rw [hquoted] at hagain
    simpa [ArgumentValue.shown] using hagain
  | bytes hhex =>
    have hdigits := typedDigits_marked (isAlphanum_of_isHex hhex)
    have hagain : Checks .bytes ('0' :: 'x' :: (typedDigits text).map Char.toLower) _ :=
      .bytes (by rw [hdigits]; exact isHex_map_toLower hhex)
    have hlower : Char.toLower ∘ Char.toLower = Char.toLower := funext toLower_toLower
    rw [hdigits, List.map_map, hlower] at hagain
    simpa [ArgumentValue.shown] using hagain
  | address haddress => exact absurd rfl htype
  | timestamp hdate =>
    simp only [ArgumentValue.shown, String.toList_ofList]
    exact .timestamp hdate
  | other name' =>
    simp only [ArgumentValue.shown, String.toList_ofList]
    exact .other name' text

namespace Argument

/-- **Literals are stable.** The literal of an accepted value is accepted for its type and gives the
value back, unless it is an address: its literal, between quotes, is refused. -/
theorem make_michelson {name text : String} {type : ArgumentType} {a : Argument}
    (h : make name text type = .ok a) :
    make name a.michelson type =
      if type = .address then .error ⟨"argument", "an address value is expected"⟩ else .ok a := by
  obtain ⟨_, _, value⟩ := a
  obtain ⟨rfl, rfl, hchecks⟩ := make_eq_ok_iff.mp h
  split
  · rename_i htype
    simp only at htype
    subst htype
    have hquoted := isAddress_quoted (value.shown.toList ++ ['"'])
    simp [make, ArgumentType.check, michelson, hquoted]
  · rename_i htype
    exact make_eq_ok_iff.mpr ⟨rfl, rfl, hchecks.michelson htype _⟩

theorem make_michelson_marked :
    make "x" " \"0x0XcA\" " .bytes = .ok ⟨"x", .bytes, .text "0xca"⟩ ∧
      make "x" "0x0xca" .bytes = .ok ⟨"x", .bytes, .text "0xca"⟩ := by
  have hmake : make "x" " \"0x0XcA\" " .bytes = .ok ⟨"x", .bytes, .text "0xca"⟩ := by rfl
  exact ⟨hmake, make_michelson hmake⟩

/-- The literal of an address is refused, so that a blank answer does not keep an address that is
declared by its literal. -/
theorem quoted_address_refused :
    make "owner" "tz1Lc2qBKEWCBeDU8npG6zCeCqpmaegRi6Jg" .address =
      .ok ⟨"owner", .address, .text "tz1Lc2qBKEWCBeDU8npG6zCeCqpmaegRi6Jg"⟩ ∧
    michelson ⟨"owner", .address, .text "tz1Lc2qBKEWCBeDU8npG6zCeCqpmaegRi6Jg"⟩ =
      "\"tz1Lc2qBKEWCBeDU8npG6zCeCqpmaegRi6Jg\"" ∧
    make "owner" "\"tz1Lc2qBKEWCBeDU8npG6zCeCqpmaegRi6Jg\"" .address =
      .error ⟨"argument", "an address value is expected"⟩ ∧
    (Dialogue.collectConstants ⟨[""], []⟩
      [⟨"owner", "address", some "\"tz1Lc2qBKEWCBeDU8npG6zCeCqpmaegRi6Jg\""⟩]).1 = none :=
  ⟨by rfl, by decide, by rfl, by rfl⟩

end Argument

/-! ## Canonical literals -/

/-- A literal is canonical for a type and denotes what was typed. -/
def ArgumentType.IsCanonical (type : ArgumentType) (text literal : List Char) : Prop :=
  match type with
  | .nat => ∃ n : Nat, Spells (trim text) n ∧ Decimal.Canonical literal ∧ value literal = n
  | .int => ∃ n : Int, Spells (trim text) n ∧ Decimal.Written n literal
  | .bool =>
    ((trim text).map Char.toLower = "true".toList ∧ literal = "True".toList) ∨
      ((trim text).map Char.toLower = "false".toList ∧ literal = "False".toList)
  | .bytes =>
    ∃ ds bytes, literal = '0' :: 'x' :: ds ∧ ds.length % 2 = 0 ∧ (∀ d ∈ ds, isLowerHex d = true) ∧
      bytes? ds = some bytes ∧ bytes? (typedDigits text) = some bytes
  | .timestamp =>
    literal = text ∧ ∃ d : DateTime, d.Shows literal ∧ 1 ≤ d.month ∧ d.month ≤ 12 ∧ 1 ≤ d.day ∧
      d.day ≤ DateTime.daysInMonth d.year d.month ∧ d.hour ≤ 23 ∧ d.minute ≤ 59 ∧ d.second ≤ 60
  | .string | .address | .other _ => True

theorem Scalar.isCanonical_bytes_iff {text : List Char} (hhex : isHex (typedDigits text) = true) :
    ArgumentType.bytes.IsCanonical text ('0' :: 'x' :: (typedDigits text).map Char.toLower) ↔
      ¬ Marked (typedDigits text) := by
  constructor
  · rintro ⟨ds, bytes, hds, -, hlower, -⟩ ⟨c, rest, hmarked, hc⟩
    obtain rfl : (typedDigits text).map Char.toLower = ds := by simpa using hds
    rw [hmarked] at hlower
    have hdigit := hlower c.toLower (by simp)
    rcases hc with rfl | rfl
    · exact absurd hdigit (by decide)
    · exact absurd hdigit (by decide)
  · intro hmark
    rcases (isHex_iff _).mp hhex with hpairs | ⟨c, rest, heq, hc, -⟩
    · obtain ⟨bytes, hbytes, hlower⟩ := hpairs.bytes?_eq
      refine ⟨_, bytes, rfl, hpairs.map_toLower.1, ?_, hlower, hbytes⟩
      intro c hc
      obtain ⟨d, hd, rfl⟩ := List.mem_map.mp hc
      exact (hexValue?_toLower (hpairs.2 d hd)).1
    · exact absurd ⟨c, rest, heq, hc⟩ hmark

theorem DateTime.isCanonical_timestamp {text : List Char} (h : (read? text).isSome = true) :
    ArgumentType.timestamp.IsCanonical text text := by
  obtain ⟨d, hread⟩ := Option.isSome_iff_exists.mp h
  obtain ⟨hshows, hvalid⟩ := read?_eq_some_iff.mp hread
  simp only [isValid, Bool.and_eq_true, decide_eq_true_eq] at hvalid
  obtain ⟨⟨⟨⟨⟨⟨hmonth, hmonth'⟩, hday⟩, hday'⟩, hhour⟩, hminute⟩, hsecond⟩ := hvalid
  exact ⟨rfl, d, hshows, hmonth, hmonth', hday, hday', hhour, hminute, hsecond⟩

namespace Argument

/-- **Literals are canonical.** The literal of an accepted value is the canonical one of what was
typed, unless bytes were typed with a mark left after the one that is removed. -/
theorem michelson_canonical_iff {name text : String} {type : ArgumentType} {a : Argument}
    (h : make name text type = .ok a) :
    type.IsCanonical text.toList a.michelson.toList ↔
      (type = .bytes → ¬ Marked (typedDigits text.toList)) := by
  obtain ⟨_, _, value⟩ := a
  obtain ⟨rfl, rfl, hchecks⟩ := make_eq_ok_iff.mp h
  simp only [michelson] at hchecks ⊢
  cases hchecks with
  | nat hinteger hn =>
    simp only [ArgumentValue.shown, String.toList_ofList, reduceCtorEq, false_implies, iff_true]
    obtain ⟨m, rfl⟩ := Int.eq_ofNat_of_zero_le hn
    exact ⟨m, integer?_eq_some_iff.mp hinteger, canonical_digits m, value_digits m⟩
  | int hinteger =>
    simp only [ArgumentValue.shown, String.toList_ofList, reduceCtorEq, false_implies, iff_true]
    exact ⟨_, integer?_eq_some_iff.mp hinteger, written_ofInt _⟩
  | bool b hword =>
    simp only [reduceCtorEq, false_implies, iff_true]
    cases b with
    | true => exact Or.inl ⟨hword, rfl⟩
    | false => exact Or.inr ⟨hword, rfl⟩
  | bytes hhex =>
    have hliteral : ∀ ds : List Char, ("0x" ++ String.ofList ds).toList = '0' :: 'x' :: ds := by simp
    simp only [ArgumentValue.shown, hliteral, isCanonical_bytes_iff hhex, true_implies]
  | timestamp hdate =>
    simp only [ArgumentValue.shown, String.toList_ofList, reduceCtorEq, false_implies, iff_true]
    exact DateTime.isCanonical_timestamp hdate
  | string | address | other => simp [ArgumentType.IsCanonical]

theorem michelson_canonical_cafe :
    make "x" " \"0xCaFe\" " .bytes = .ok ⟨"x", .bytes, .text "cafe"⟩ ∧
      ArgumentType.bytes.IsCanonical " \"0xCaFe\" ".toList "0xcafe".toList := by
  have hmake : make "x" " \"0xCaFe\" " .bytes = .ok ⟨"x", .bytes, .text "cafe"⟩ := by rfl
  refine ⟨hmake, (michelson_canonical_iff hmake).mpr ?_⟩
  rintro - ⟨c, rest, hmarked, -⟩
  have hdigits : typedDigits " \"0xCaFe\" ".toList = "CaFe".toList := by decide
  rw [hdigits] at hmarked
  cases hmarked

/-- A second mark stays, and is no digit. -/
theorem second_mark_kept :
    make "x" "0x0xCAFE" .bytes = .ok ⟨"x", .bytes, .text "0xcafe"⟩ ∧
      michelson ⟨"x", .bytes, .text "0xcafe"⟩ = "0x0xcafe" ∧
      ¬ ArgumentType.bytes.IsCanonical "0x0xCAFE".toList "0x0xcafe".toList := by
  refine ⟨by rfl, by decide, ?_⟩
  intro hcanonical
  have hmark := (isCanonical_bytes_iff (by decide)).mp hcanonical
  exact hmark ⟨'x', "CAFE".toList, by decide, Or.inl rfl⟩

end Argument
end Retrace
