import Mathlib.Data.Nat.Digits.Lemmas
import Retrace.Proofs.Arguments
import Retrace.Trace.Failure

/-!
# Percent escapes

An escape is a percent sign before the digits of a code: two of them, or `u` and four. A text is decoded
once, from the left. Where an escape starts, its character is taken and the text goes on behind it; every
other character is copied, a percent sign that starts no escape among them.
-/

namespace Retrace.Trace

open Retrace.Json.Text (hexValue?)

/-! ## Codes -/

/-- A digit of base sixteen, of either case, and its value. -/
def HexDigit (d : Char) (n : Nat) : Prop := n < 16 ∧ d.toLower = n.digitChar

/-- The number that digits of base sixteen denote, the last one counting least. -/
def Denotes (ds : List Char) (n : Nat) : Prop :=
  ∃ ns, List.Forall₂ HexDigit ds.reverse ns ∧ Nat.ofDigits 16 ns = n

theorem toNat_lt_of_toLower {d : Char} (h : d.toLower.toNat < 128) : d.toNat < 128 := by
  by_cases hupper : d.val ≥ 'A'.val ∧ d.val ≤ 'Z'.val
  · have hle : d.toNat ≤ 90 := UInt32.le_iff_toNat_le.mp hupper.2
    omega
  · have hself : d.toLower = d := dif_neg hupper
    rwa [hself] at h

theorem hexValue?_eq_some_iff (d : Char) (n : Nat) : hexValue? d = some n ↔ HexDigit d n := by
  -- Both sides hold of ASCII characters only, which are checked one by one.
  have hlt : ∀ d : Char, d.toNat < 128 → ∀ n ∈ hexValue? d, n < 16 := fun _ =>
    forall_ascii (P := fun d => ∀ n ∈ hexValue? d, n < 16) (by decide)
  have hiff : ∀ d : Char, d.toNat < 128 → ∀ n : Fin 16, hexValue? d = some n.val ↔ d.toLower = n.val.digitChar :=
    fun _ => forall_ascii (P := fun d => ∀ n : Fin 16, hexValue? d = some n.val ↔ d.toLower = n.val.digitChar)
      (by decide +kernel)
  constructor
  · intro h
    have hascii := toNat_lt_of_hexValue? (c := d) (by simp [h])
    have hn := hlt d hascii n h
    exact ⟨hn, (hiff d hascii ⟨n, hn⟩).mp h⟩
  · rintro ⟨hn, h⟩
    have hdigit : ∀ n : Fin 16, n.val.digitChar.toNat < 128 := by decide
    have hascii : d.toNat < 128 := by
      apply toNat_lt_of_toLower
      rw [h]
      exact hdigit ⟨n, hn⟩
    exact (hiff d hascii ⟨n, hn⟩).mpr h

theorem denotes_append_one (ds : List Char) (d : Char) (n : Nat) :
    Denotes (ds ++ [d]) n ↔ ∃ m k, Denotes ds m ∧ HexDigit d k ∧ n = 16 * m + k := by
  unfold Denotes
  simp only [List.reverse_append, List.reverse_singleton, List.singleton_append,
    List.forall₂_cons_left_iff]
  constructor
  · rintro ⟨_, ⟨k, ns, hd, hds, rfl⟩, rfl⟩
    refine ⟨_, k, ⟨ns, hds, rfl⟩, hd, ?_⟩
    rw [Nat.ofDigits_cons]
    omega
  · rintro ⟨_, k, ⟨ns, hds, rfl⟩, hd, rfl⟩
    refine ⟨k :: ns, ⟨k, ns, hd, hds, rfl⟩, ?_⟩
    rw [Nat.ofDigits_cons]
    omega

theorem hexNumber?_eq_some_iff (ds : List Char) (n : Nat) : hexNumber? ds = some n ↔ Denotes ds n := by
  induction ds using List.reverseRecOn generalizing n with
  | nil => simp [hexNumber?, Denotes, eq_comm]
  | append_singleton ds d ih =>
    have hstep : hexNumber? (ds ++ [d]) = (hexNumber? ds).bind fun m => (hexValue? d).map (16 * m + ·) := by
      simp [hexNumber?, List.foldlM_append]
    rw [hstep, denotes_append_one]
    simp only [Option.bind_eq_some_iff, Option.map_eq_some_iff, ih, hexValue?_eq_some_iff]
    constructor
    · rintro ⟨m, hds, k, hd, rfl⟩
      exact ⟨m, k, hds, hd, rfl⟩
    · rintro ⟨m, k, hds, hd, rfl⟩
      exact ⟨m, hds, k, hd, rfl⟩

theorem Denotes.lt {ds : List Char} {n : Nat} (h : Denotes ds n) : n < 16 ^ ds.length := by
  obtain ⟨ns, hds, rfl⟩ := h
  have hlength : ds.length = ns.length := by
    rw [← hds.length_eq, List.length_reverse]
  rw [hlength]
  apply Nat.ofDigits_lt_base_pow_length (by decide)
  clear hlength
  generalize ds.reverse = rs at hds
  induction hds with
  | nil => simp
  | cons hd _ ih => exact List.forall_mem_cons.mpr ⟨hd.1, ih⟩

theorem toNat_ofNat {n : Nat} (h : n.isValidChar) : (Char.ofNat n).toNat = n := by
  rw [Char.ofNat, dif_pos h]
  rfl

theorem charOf?_eq_some_iff (n : Nat) (c : Char) : charOf? n = some c ↔ c.toNat = n := by
  unfold charOf?
  rw [Option.ite_none_right_eq_some, Option.some.injEq]
  constructor
  · rintro ⟨hvalid, rfl⟩
    exact toNat_ofNat hvalid
  · rintro rfl
    exact ⟨c.valid, Char.ofNat_toNat c⟩

/-! ## Escapes -/

/-- A text that stands for a character by its code. -/
inductive Escape : List Char → Char → Prop
  | short {ds : List Char} {c : Char} (hlength : ds.length = 2) (hcode : Denotes ds c.toNat) :
      Escape ('%' :: ds) c
  | long {ds : List Char} {c : Char} (hlength : ds.length = 4) (hcode : Denotes ds c.toNat) :
      Escape ('%' :: 'u' :: ds) c

/-- An escape stands at the start of a text. -/
def EscapeAt (text : List Char) : Prop := ∃ e c, Escape e c ∧ e <+: text

theorem first?_eq_some_iff (n : Nat) (cs ds : List Char) :
    first? n cs = some ds ↔ ds.length = n ∧ ds <+: cs := by
  unfold first?
  rw [Option.ite_none_right_eq_some, Option.some.injEq]
  constructor
  · rintro ⟨hlength, rfl⟩
    exact ⟨hlength, List.take_prefix n cs⟩
  · rintro ⟨rfl, hprefix⟩
    rw [List.prefix_iff_eq_take.mp hprefix]
    simp

theorem not_denotes_u (ds : List Char) (n : Nat) : ¬ Denotes ('u' :: ds) n := by
  have hu : hexValue? 'u' = none := by decide
  rw [← hexNumber?_eq_some_iff]
  simp [hexNumber?, hu]

theorem escape?_eq_some_iff (cs : List Char) (c : Char) (n : Nat) :
    escape? cs = some (c, n) ↔ ∃ e, Escape ('%' :: e) c ∧ e.length = n ∧ e <+: cs := by
  unfold escape?
  split
  · rename_i rest
    simp only [Option.bind_eq_bind, Option.bind_eq_some_iff, first?_eq_some_iff, hexNumber?_eq_some_iff,
      charOf?_eq_some_iff, Option.some.injEq, Prod.mk.injEq]
    constructor
    · rintro ⟨ds, ⟨hlength, hprefix⟩, _, hcode, d, rfl, rfl, rfl⟩
      refine ⟨'u' :: ds, .long hlength hcode, by simp [hlength], ?_⟩
      exact (List.prefix_cons_inj 'u').mpr hprefix
    · rintro ⟨e, hescape, rfl, hprefix⟩
      cases hescape with
      | short hlength hcode =>
        obtain ⟨d, ds, rfl⟩ := List.exists_cons_of_length_pos (show 0 < e.length by omega)
        obtain ⟨rfl, -⟩ := List.cons_prefix_cons.mp hprefix
        exact absurd hcode (not_denotes_u ds _)
      | @long ds _ hlength hcode =>
        rw [List.prefix_cons_inj] at hprefix
        exact ⟨ds, ⟨hlength, hprefix⟩, _, hcode, c, rfl, rfl, by simp [hlength]⟩
  · rename_i hu
    simp only [Option.bind_eq_bind, Option.bind_eq_some_iff, first?_eq_some_iff, hexNumber?_eq_some_iff,
      Option.some.injEq, Prod.mk.injEq]
    constructor
    · rintro ⟨ds, ⟨hlength, hprefix⟩, m, hcode, rfl, rfl⟩
      have hlt := hcode.lt
      rw [hlength] at hlt
      have hvalid : m.isValidChar := Or.inl (by omega)
      refine ⟨ds, .short hlength ?_, hlength, hprefix⟩
      rwa [toNat_ofNat hvalid]
    · rintro ⟨e, hescape, rfl, hprefix⟩
      cases hescape with
      | short hlength hcode =>
        exact ⟨e, ⟨hlength, hprefix⟩, _, hcode, Char.ofNat_toNat c, hlength.symm⟩
      | long =>
        obtain ⟨rest, rfl⟩ := hprefix
        exact absurd rfl (hu _)

theorem Escape.escape?_eq {e : List Char} {c : Char} (h : Escape ('%' :: e) c) (rest : List Char) :
    escape? (e ++ rest) = some (c, e.length) :=
  (escape?_eq_some_iff _ _ _).mpr ⟨e, h, rfl, List.prefix_append e rest⟩

theorem Escape.exists_percent {e : List Char} {c : Char} (h : Escape e c) : ∃ ds, e = '%' :: ds := by
  cases h with
  | short => exact ⟨_, rfl⟩
  | long => exact ⟨_, rfl⟩

theorem Escape.unique {e e' rest rest' : List Char} {c c' : Char} (h : Escape e c) (h' : Escape e' c')
    (htext : e ++ rest = e' ++ rest') : e = e' ∧ c = c' ∧ rest = rest' := by
  obtain ⟨ds, rfl⟩ := h.exists_percent
  obtain ⟨ds', rfl⟩ := h'.exists_percent
  have hds : ds ++ rest = ds' ++ rest' := (List.cons.inj htext).2
  have hread := h.escape?_eq rest
  rw [hds, h'.escape?_eq rest'] at hread
  simp only [Option.some.injEq, Prod.mk.injEq] at hread
  obtain ⟨rfl, rfl⟩ := List.append_inj hds hread.2.symm
  exact ⟨rfl, hread.1.symm, rfl⟩

/-! ## Decoding -/

theorem unescapeFrom_drop (skip : Nat) (text : List Char) :
    unescapeFrom skip text = unescape (text.drop skip) := by
  unfold unescape
  induction text generalizing skip with
  | nil => simp [unescapeFrom]
  | cons c cs ih => cases skip <;> simp [unescapeFrom, ih]

theorem unescape_escape {e : List Char} {c : Char} (h : Escape e c) (rest : List Char) :
    unescape (e ++ rest) = c :: unescape rest := by
  obtain ⟨ds, rfl⟩ := h.exists_percent
  rw [List.cons_append, unescape, unescapeFrom, if_pos rfl, h.escape?_eq rest]
  simp [unescapeFrom_drop]

theorem unescape_copy {c : Char} {rest : List Char} (h : ¬ EscapeAt (c :: rest)) :
    unescape (c :: rest) = c :: unescape rest := by
  unfold unescape
  rw [unescapeFrom]
  split
  · rename_i hc
    subst hc
    cases hescape : escape? rest with
    | none => rfl
    | some found =>
      obtain ⟨e, he, -, hprefix⟩ := (escape?_eq_some_iff rest found.1 found.2).mp hescape
      exact absurd ⟨_, _, he, (List.prefix_cons_inj '%').mpr hprefix⟩ h
  · rfl

theorem not_escapeAt_of_ne {c : Char} (h : c ≠ '%') (rest : List Char) : ¬ EscapeAt (c :: rest) := by
  rintro ⟨e, d, he, hprefix⟩
  obtain ⟨ds, rfl⟩ := he.exists_percent
  exact h (List.cons_prefix_cons.mp hprefix).1.symm

/-- A text in which each character stands for itself or is escaped. A percent sign is always escaped. -/
inductive Escaped : List Char → List Char → Prop
  | nil : Escaped [] []
  | plain {c : Char} {s t : List Char} (hc : c ≠ '%') (h : Escaped s t) : Escaped (c :: s) (c :: t)
  | escape {c : Char} {e s t : List Char} (he : Escape e c) (h : Escaped s t) : Escaped (c :: s) (e ++ t)

theorem Escaped.unescape_eq {s t : List Char} (h : Escaped s t) : unescape t = s := by
  induction h with
  | nil => rfl
  | plain hc _ ih => rw [unescape_copy (not_escapeAt_of_ne hc _), ih]
  | escape he _ ih => rw [unescape_escape he, ih]

/-! ## Tokens -/

/-- A part of a text and the character that it gives. -/
structure Token where
  text : List Char
  char : Char

/-- The tokens of a text from the left: an escape where one starts, else one character as it is. -/
inductive Tokens : List Char → List Token → Prop
  | nil : Tokens [] []
  | escape {e : List Char} {c : Char} {rest : List Char} {ts : List Token} (he : Escape e c)
      (h : Tokens rest ts) : Tokens (e ++ rest) (⟨e, c⟩ :: ts)
  | copy {c : Char} {rest : List Char} {ts : List Token} (hc : ¬ EscapeAt (c :: rest))
      (h : Tokens rest ts) : Tokens (c :: rest) (⟨[c], c⟩ :: ts)

namespace Tokens

theorem exists_of_text (text : List Char) : ∃ ts, Tokens text ts := by
  induction hn : text.length using Nat.strongRecOn generalizing text with
  | _ n ih =>
    subst hn
    by_cases hescape : EscapeAt text
    · obtain ⟨e, c, he, rest, rfl⟩ := hescape
      obtain ⟨ds, hds⟩ := he.exists_percent
      obtain ⟨ts, hts⟩ := ih rest.length (by simp [hds]) rest rfl
      exact ⟨_, .escape he hts⟩
    · cases text with
      | nil => exact ⟨[], .nil⟩
      | cons c rest =>
        obtain ⟨ts, hts⟩ := ih rest.length (by simp) rest rfl
        exact ⟨_, .copy hescape hts⟩

theorem unique {text : List Char} {ts ts' : List Token} (h : Tokens text ts) (h' : Tokens text ts') :
    ts = ts' := by
  induction h generalizing ts' with
  | nil =>
    generalize htext : [] = text at h'
    cases h' with
    | nil => rfl
    | escape he =>
      obtain ⟨ds, rfl⟩ := he.exists_percent
      cases htext
    | copy => cases htext
  | @escape e c rest ts he _ ih =>
    generalize htext : e ++ rest = text at h'
    cases h' with
    | nil =>
      obtain ⟨ds, rfl⟩ := he.exists_percent
      cases htext
    | escape he' h' =>
      obtain ⟨rfl, rfl, rfl⟩ := he.unique he' htext
      rw [ih h']
    | copy hc =>
      rw [← htext] at hc
      exact absurd ⟨e, c, he, List.prefix_append e rest⟩ hc
  | @copy c rest ts hc _ ih =>
    generalize htext : c :: rest = text at h'
    cases h' with
    | nil => cases htext
    | @escape e' _ rest' _ he' =>
      rw [htext] at hc
      exact absurd ⟨e', _, he', List.prefix_append e' rest'⟩ hc
    | copy _ h' =>
      obtain ⟨rfl, rfl⟩ := List.cons.inj htext
      rw [ih h']

theorem flatMap_text {text : List Char} {ts : List Token} (h : Tokens text ts) :
    ts.flatMap Token.text = text := by
  induction h with
  | nil => rfl
  | escape _ _ ih => rw [List.flatMap_cons, ih]
  | copy _ _ ih => rw [List.flatMap_cons, ih, List.singleton_append]

theorem unescape_eq {text : List Char} {ts : List Token} (h : Tokens text ts) :
    unescape text = ts.map Token.char := by
  induction h with
  | nil => rfl
  | escape he _ ih => rw [unescape_escape he, ih, List.map_cons]
  | copy hc _ ih => rw [unescape_copy hc, ih, List.map_cons]

end Tokens

/-- **Decoding undoes every escaping, in one pass.** Any other text is decoded token by token. -/
theorem unescape_exact :
    (∀ s t, Escaped s t → unescape t = s) ∧
    ∀ text, (∃! ts, Tokens text ts) ∧
      ∀ ts, Tokens text ts → ts.flatMap Token.text = text ∧ unescape text = ts.map Token.char := by
  refine ⟨fun s t h => h.unescape_eq, ?_⟩
  intro text
  constructor
  · obtain ⟨ts, hts⟩ := Tokens.exists_of_text text
    exact ⟨ts, hts, fun ts' hts' => hts'.unique hts⟩
  · intro ts hts
    exact ⟨hts.flatMap_text, hts.unescape_eq⟩

theorem unescape_escapedPercent :
    Escaped "%41é".toList "%2541%u00E9".toList ∧ unescape "%2541%u00E9".toList = "%41é".toList := by
  have hpercent : Denotes "25".toList '%'.toNat := (hexNumber?_eq_some_iff _ _).mp (by decide)
  have hletter : Denotes "00E9".toList 'é'.toNat := (hexNumber?_eq_some_iff _ _).mp (by decide)
  have h : Escaped "%41é".toList "%2541%u00E9".toList :=
    .escape (.short rfl hpercent) (.plain (by decide) (.plain (by decide) (.escape (.long rfl hletter) .nil)))
  exact ⟨h, unescape_exact.1 _ _ h⟩

example : unescape "%4%u00E9%uD800%é1".toList = "%4é%uD800%é1".toList := by decide

end Retrace.Trace
