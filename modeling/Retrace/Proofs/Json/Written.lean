import Retrace.Json.Reader
import Retrace.Json.Writer
import Retrace.Proofs.Json.Fraction
import Retrace.Proofs.Json.Number
import Retrace.Proofs.Json.Text

/-!
# Values as they are written

What is written of a value can be read. Texts and whole numbers of 64 bits come back as they are, other numbers
as what their digits are read as, and the arrays and objects nested too deeply come back without value.
-/

namespace Retrace.Json

/-! ## Values that are written exactly -/

mutual
/-- Nothing in the value is beyond, and its numbers are whole and of 64 bits. -/
def Plain : Json → Prop
  | .int n => IsWord n
  | .float _ | .beyond => False
  | .arr xs => AllPlain xs
  | .obj ms => MembersPlain ms
  | .null | .bool _ | .str _ => True

def AllPlain : List Json → Prop
  | [] => True
  | x :: xs => x.Plain ∧ AllPlain xs

def MembersPlain : List (String × Json) → Prop
  | [] => True
  | (_, x) :: ms => x.Plain ∧ MembersPlain ms
end

/-! ## Cutting off what is nested too deeply -/

mutual
/-- The value as it is kept where `room` more arrays and objects may be opened. -/
def cut : Json → (room : Nat) → Json
  | .arr xs, room => within room (.arr (cutAll xs (room - 1)))
  | .obj ms, room => within room (.obj (cutMembers ms (room - 1)))
  | x, _ => x

def cutAll : List Json → (room : Nat) → List Json
  | [], _ => []
  | x :: xs, room => x.cut room :: cutAll xs room

def cutMembers : List (String × Json) → (room : Nat) → List (String × Json)
  | [], _ => []
  | (k, x) :: ms, room => (k, x.cut room) :: cutMembers ms room
end

mutual
theorem cut_eq_self : ∀ (j : Json) {room : Nat}, j.nesting ≤ room → j.cut room = j
  | .arr xs, room, h => by
    simp only [nesting] at h
    rw [cut, cutAll_eq_self xs (by omega), within, if_neg (by omega)]
  | .obj ms, room, h => by
    simp only [nesting] at h
    rw [cut, cutMembers_eq_self ms (by omega), within, if_neg (by omega)]
  | .null, _, _ | .bool _, _, _ | .int _, _, _ | .float _, _, _ | .str _, _, _ | .beyond, _, _ => rfl

theorem cutAll_eq_self : ∀ (xs : List Json) {room : Nat}, nestingAll xs ≤ room → cutAll xs room = xs
  | [], _, _ => rfl
  | x :: xs, room, h => by
    simp only [nestingAll] at h
    rw [cutAll, cut_eq_self x (by omega), cutAll_eq_self xs (by omega)]

theorem cutMembers_eq_self : ∀ (ms : List (String × Json)) {room : Nat},
    nestingMembers ms ≤ room → cutMembers ms room = ms
  | [], _, _ => rfl
  | (k, x) :: ms, room, h => by
    simp only [nestingMembers] at h
    rw [cutMembers, cut_eq_self x (by omega), cutMembers_eq_self ms (by omega)]
end

mutual
theorem isWhole_cut : ∀ (j : Json) {room : Nat}, room < j.nesting → (j.cut room).isWhole = false
  | .arr xs, 0, _ => rfl
  | .arr xs, room + 1, h => by
    simp only [nesting] at h
    exact allWhole_cutAll xs (by omega)
  | .obj ms, 0, _ => rfl
  | .obj ms, room + 1, h => by
    simp only [nesting] at h
    exact membersWhole_cutMembers ms (by omega)
  | .null, _, h | .bool _, _, h | .int _, _, h | .float _, _, h | .str _, _, h | .beyond, _, h => by
    simp [nesting] at h

theorem allWhole_cutAll : ∀ (xs : List Json) {room : Nat},
    room < nestingAll xs → allWhole (cutAll xs room) = false
  | [], _, h => by simp [nestingAll] at h
  | x :: xs, room, h => by
    simp only [nestingAll] at h
    rw [cutAll, allWhole, Bool.and_eq_false_iff]
    by_cases hx : room < x.nesting
    · exact Or.inl (isWhole_cut x hx)
    · exact Or.inr (allWhole_cutAll xs (by omega))

theorem membersWhole_cutMembers : ∀ (ms : List (String × Json)) {room : Nat},
    room < nestingMembers ms → membersWhole (cutMembers ms room) = false
  | [], _, h => by simp [nestingMembers] at h
  | (k, x) :: ms, room, h => by
    simp only [nestingMembers] at h
    rw [cutMembers, membersWhole, Bool.and_eq_false_iff]
    by_cases hx : room < x.nesting
    · exact Or.inl (isWhole_cut x hx)
    · exact Or.inr (membersWhole_cutMembers ms (by omega))
end

mutual
theorem Plain.isWhole : ∀ {j : Json}, j.Plain → j.isWhole = true
  | .arr _, h => AllPlain.allWhole h
  | .obj _, h => MembersPlain.membersWhole h
  | .null, _ | .bool _, _ | .int _, _ | .str _, _ => rfl

theorem AllPlain.allWhole : ∀ {xs : List Json}, AllPlain xs → Json.allWhole xs = true
  | [], _ => rfl
  | x :: xs, h => by
    rw [Json.allWhole, Plain.isWhole h.1, AllPlain.allWhole h.2, Bool.true_and]

theorem MembersPlain.membersWhole : ∀ {ms : List (String × Json)},
    MembersPlain ms → Json.membersWhole ms = true
  | [], _ => rfl
  | (k, x) :: ms, h => by
    rw [Json.membersWhole, Plain.isWhole h.1, MembersPlain.membersWhole h.2, Bool.true_and]
end

/-! ## What a value reads back as -/

def numberOf (text : List Char) : Json :=
  match Numeral.read? text with
  | some (n, _) => n.toJson
  | none => .beyond

mutual
/-- The value that the text of a value stands for. What has no text of its own is written as null. -/
def reread : Json → Json
  | .int n => numberOf (Decimal.ofInt n)
  | .float x => if x.isFinite then numberOf (layout.write x) else .null
  | .arr xs => .arr (rereadAll xs)
  | .obj ms => .obj (rereadMembers ms)
  | .beyond => .null
  | .null => .null
  | .bool b => .bool b
  | .str s => .str s

def rereadAll : List Json → List Json
  | [] => []
  | x :: xs => x.reread :: rereadAll xs

def rereadMembers : List (String × Json) → List (String × Json)
  | [] => []
  | (k, x) :: ms => (k, x.reread) :: rereadMembers ms
end

theorem numberOf_text {n : Numeral} (h : n.WellFormed) : numberOf n.text = n.toJson := by
  have hread := Numeral.read?_text h closes_nil
  rw [List.append_nil] at hread
  unfold numberOf
  rw [hread]

theorem numberOf_ofInt {n : Int} (h : IsWord n) : numberOf (Decimal.ofInt n) = .int n := by
  rw [← Numeral.text_ofInt, numberOf_text (Numeral.wellFormed_ofInt n), Numeral.toJson_ofInt h]

theorem nesting_numberOf (text : List Char) : (numberOf text).nesting = 0 := by
  unfold numberOf
  split
  · unfold Numeral.toJson
    simp only
    repeat' split
    all_goals rfl
  · rfl

mutual
theorem Plain.reread_eq : ∀ {j : Json}, j.Plain → j.reread = j
  | .int _, h => numberOf_ofInt h
  | .arr _, h => by rw [reread, AllPlain.rereadAll_eq h]
  | .obj _, h => by rw [reread, MembersPlain.rereadMembers_eq h]
  | .null, _ | .bool _, _ | .str _, _ => rfl

theorem AllPlain.rereadAll_eq : ∀ {xs : List Json}, AllPlain xs → rereadAll xs = xs
  | [], _ => rfl
  | x :: xs, h => by rw [rereadAll, Plain.reread_eq h.1, AllPlain.rereadAll_eq h.2]

theorem MembersPlain.rereadMembers_eq : ∀ {ms : List (String × Json)}, MembersPlain ms → rereadMembers ms = ms
  | [], _ => rfl
  | (k, x) :: ms, h => by rw [rereadMembers, Plain.reread_eq h.1, MembersPlain.rereadMembers_eq h.2]
end

mutual
theorem nesting_reread : ∀ j : Json, j.reread.nesting = j.nesting
  | .int _ => nesting_numberOf _
  | .float x => by
    rw [reread]
    split
    · exact nesting_numberOf _
    · rfl
  | .arr xs => by rw [reread, nesting, nesting, nestingAll_rereadAll xs]
  | .obj ms => by rw [reread, nesting, nesting, nestingMembers_rereadMembers ms]
  | .null | .bool _ | .str _ | .beyond => rfl

theorem nestingAll_rereadAll : ∀ xs : List Json, nestingAll (rereadAll xs) = nestingAll xs
  | [] => rfl
  | x :: xs => by rw [rereadAll, nestingAll, nestingAll, nesting_reread x, nestingAll_rereadAll xs]

theorem nestingMembers_rereadMembers : ∀ ms : List (String × Json),
    nestingMembers (rereadMembers ms) = nestingMembers ms
  | [] => rfl
  | (k, x) :: ms => by
    rw [rereadMembers, nestingMembers, nestingMembers, nesting_reread x, nestingMembers_rereadMembers ms]
end

/-! ## Reading -/

theorem skipSpace_cons {c : Char} (h : isSpace c = false) (cs : List Char) :
    skipSpace (c :: cs) = c :: cs := by
  simp [skipSpace, h]

theorem key?_write (k : String) (rest : List Char) :
    key? (Text.write k ++ ':' :: rest) = some (some k, rest) := by
  have hread := Text.read?_written k (':' :: rest)
  simp only [key?, Text.write, List.cons_append, List.append_assoc, List.nil_append,
    skipSpace_cons (show isSpace '"' = false from rfl), hread, Option.bind_some,
    skipSpace_cons (show isSpace ':' = false from rfl)]

theorem text_eq_cons {n : Numeral} (h : n.WellFormed) :
    ∃ c cs, n.text = c :: cs ∧ ∀ d : Char, d.isDigit = false → d ≠ '-' → c ≠ d := by
  obtain ⟨c, cs, hwhole, hc⟩ := Numeral.whole_eq_cons h
  unfold Numeral.text Numeral.signText
  cases n.negative with
  | true => exact ⟨'-', _, rfl, fun d _ hd => hd.symm⟩
  | false =>
    rw [hwhole]
    refine ⟨c, _, rfl, ?_⟩
    rintro d hd - rfl
    simp [hc] at hd

theorem scalar?_text {n : Numeral} (h : n.WellFormed) {rest : List Char} (hrest : Closes rest) :
    scalar? (n.text ++ rest) = some (n.toJson, rest) := by
  have hread := Numeral.read?_text h hrest
  obtain ⟨c, cs, hcons, hother⟩ := text_eq_cons h
  rw [hcons, List.cons_append] at hread ⊢
  unfold scalar?
  split
  · rename_i heq
    exact absurd (List.cons.inj heq).1 (hother _ (by decide) (by decide))
  · rename_i heq
    exact absurd (List.cons.inj heq).1 (hother _ (by decide) (by decide))
  · rename_i heq
    exact absurd (List.cons.inj heq).1 (hother _ (by decide) (by decide))
  · rename_i heq
    exact absurd (List.cons.inj heq).1 (hother _ (by decide) (by decide))
  · rw [hread, Option.map_some]

/-- A text starts with no space and with no closing bracket. -/
def Opens (text : List Char) : Prop := ∃ c cs, text = c :: cs ∧ isSpace c = false ∧ c ≠ ']'

theorem opens_text {n : Numeral} (h : n.WellFormed) : Opens n.text := by
  obtain ⟨c, cs, hcons, hother⟩ := text_eq_cons h
  refine ⟨c, cs, hcons, ?_, hother _ rfl (by decide)⟩
  simp [isSpace, hother ' ' rfl (by decide), hother '\n' rfl (by decide), hother '\t' rfl (by decide),
    hother '\r' rfl (by decide)]

theorem opens_write (j : Json) : Opens (write j) := by
  cases j with
  | int n =>
    rw [write, ← Numeral.text_ofInt]
    exact opens_text (Numeral.wellFormed_ofInt n)
  | float x =>
    rw [write, writeFloat]
    split
    · rename_i hfinite
      obtain ⟨n, hn, htext⟩ := exists_numeral hfinite
      rw [← htext]
      exact opens_text hn
    · exact ⟨_, _, rfl, rfl, by decide⟩
  | bool b => cases b <;> exact ⟨_, _, rfl, rfl, by decide⟩
  | arr xs => cases xs <;> exact ⟨_, _, rfl, rfl, by decide⟩
  | obj ms => cases ms <;> exact ⟨_, _, rfl, rfl, by decide⟩
  | null | str s | beyond => exact ⟨_, _, rfl, rfl, by decide⟩

theorem value?_text {n : Numeral} (h : n.WellFormed) (fuel room : Nat) {rest : List Char} (hrest : Closes rest) :
    value? (fuel + 1) room (n.text ++ rest) = some (numberOf n.text, rest) := by
  have hscalar := scalar?_text h hrest
  obtain ⟨c, cs, hcons, hspace, -⟩ := opens_text h
  obtain ⟨c', cs', hcons', hother⟩ := text_eq_cons h
  obtain ⟨rfl, rfl⟩ := List.cons.inj (hcons.symm.trans hcons')
  rw [← numberOf_text h, hcons, List.cons_append] at hscalar
  rw [hcons, List.cons_append, value?, skipSpace_cons hspace]
  split
  · rename_i heq
    exact absurd (List.cons.inj heq).1 (hother _ rfl (by decide))
  · rename_i heq
    exact absurd (List.cons.inj heq).1 (hother _ rfl (by decide))
  · exact hscalar

theorem closes_writeMore (xs : List Json) (rest : List Char) : Closes (writeMore xs ++ rest) := by
  cases xs <;> exact closes_cons (by decide) _

theorem closes_writeMoreMembers (ms : List (String × Json)) (rest : List Char) :
    Closes (writeMoreMembers ms ++ rest) := by
  cases ms with
  | nil => exact closes_cons (by decide) _
  | cons m ms => exact closes_cons (by decide) _

theorem keyed_some (ms : List (String × Json)) :
    keyed (ms.map fun m => (some m.1, m.2)) = some ms := by
  induction ms with
  | nil => rfl
  | cons m ms ih => simp [keyed, ih]

theorem value?_bracket (j : Json) (fuel room : Nat) (rest : List Char) :
    value? (fuel + 1) room ('[' :: (write j ++ rest)) =
      (value? fuel (room - 1) (write j ++ rest)).bind fun x =>
        (moreElements? fuel (room - 1) x.2).map fun xs => (within room (.arr (x.1 :: xs.1)), xs.2) := by
  obtain ⟨c, cs, hcons, hspace, hclose⟩ := opens_write j
  rw [value?, skipSpace_cons rfl, hcons, List.cons_append]
  simp only [skipSpace_cons hspace]
  split
  · rename_i heq
    exact absurd (List.cons.inj heq).1 hclose
  · rfl

theorem value?_brace (k : String) (fuel room : Nat) (rest : List Char) :
    value? (fuel + 1) room ('\x7b' :: (Text.write k ++ ':' :: rest)) =
      (value? fuel (room - 1) rest).bind fun x =>
        (moreMembers? fuel (room - 1) x.2).map fun ms =>
          (within room (ofMembers ((some k, x.1) :: ms.1)), ms.2) := by
  have hkey := key?_write k rest
  simp only [Text.write, List.cons_append] at hkey ⊢
  rw [value?, skipSpace_cons rfl]
  simp only [skipSpace_cons (show isSpace '"' = false from rfl)]
  split
  · rename_i heq
    exact absurd (List.cons.inj heq).1 (by decide)
  · rw [hkey, Option.bind_some]

mutual
/-- A written value is read up to its end. The fuel may be anything that its length does not exceed. -/
theorem value?_write : ∀ {j : Json} (fuel room : Nat) {rest : List Char}, Closes rest →
    (write j).length ≤ fuel → value? fuel room (write j ++ rest) = some (j.reread.cut room, rest)
  | .null, fuel + 1, room, rest, _, _ => by simp [write, value?, skipSpace, isSpace, scalar?, reread, cut]
  | .beyond, fuel + 1, room, rest, _, _ => by simp [write, value?, skipSpace, isSpace, scalar?, reread, cut]
  | .bool true, fuel + 1, room, rest, _, _ => by simp [write, value?, skipSpace, isSpace, scalar?, reread, cut]
  | .bool false, fuel + 1, room, rest, _, _ => by simp [write, value?, skipSpace, isSpace, scalar?, reread, cut]
  | .int n, fuel + 1, room, rest, hrest, _ => by
    rw [write, reread, cut_eq_self _ (by simp [nesting_numberOf]), ← Numeral.text_ofInt]
    exact value?_text (Numeral.wellFormed_ofInt n) fuel room hrest
  | .float x, fuel + 1, room, rest, hrest, _ => by
    rw [write, writeFloat, reread]
    split
    · rename_i hfinite
      obtain ⟨n, hn, htext⟩ := exists_numeral hfinite
      rw [cut_eq_self _ (by simp [nesting_numberOf]), ← htext]
      exact value?_text hn fuel room hrest
    · simp [value?, skipSpace, isSpace, scalar?, cut]
  | .str s, fuel + 1, room, rest, _, _ => by
    simp [write, Text.write, value?, skipSpace, isSpace, scalar?, reread, cut, Text.read?_written]
  | .arr [], fuel + 1, room, rest, _, _ => by
    simp [write, value?, skipSpace, isSpace, reread, rereadAll, cut, cutAll]
  | .arr (x :: xs), fuel + 1, room, rest, hrest, hfuel => by
    simp only [write, List.length_cons, List.length_append, List.cons_append, List.append_assoc] at hfuel ⊢
    rw [value?_bracket, value?_write fuel (room - 1) (closes_writeMore xs rest) (by omega),
      Option.bind_some, moreElements?_write fuel (room - 1) (by omega)]
    rfl
  | .obj [], fuel + 1, room, rest, _, _ => by
    simp [write, value?, skipSpace, isSpace, reread, rereadMembers, cut, cutMembers]
  | .obj ((k, x) :: ms), fuel + 1, room, rest, hrest, hfuel => by
    simp only [write, List.length_cons, List.length_append, List.cons_append, List.append_assoc] at hfuel ⊢
    rw [value?_brace, value?_write fuel (room - 1) (closes_writeMoreMembers ms rest) (by omega),
      Option.bind_some, moreMembers?_write fuel (room - 1) (by omega), Option.map_some, ofMembers,
      keyed, keyed_some]
    rfl
  | j, 0, _, _, _, hfuel => by
    obtain ⟨c, cs, hcons, -⟩ := opens_write j
    simp [hcons] at hfuel

theorem moreElements?_write : ∀ {xs : List Json} (fuel room : Nat) {rest : List Char},
    (writeMore xs).length ≤ fuel →
    moreElements? fuel room (writeMore xs ++ rest) = some (cutAll (rereadAll xs) room, rest)
  | [], fuel + 1, room, rest, _ => by
    simp [writeMore, moreElements?, skipSpace, isSpace, rereadAll, cutAll]
  | x :: xs, fuel + 1, room, rest, hfuel => by
    simp only [writeMore, List.length_cons, List.length_append, List.cons_append, List.append_assoc]
      at hfuel ⊢
    rw [moreElements?, skipSpace_cons rfl]
    simp only [value?_write (j := x) fuel room (closes_writeMore xs rest) (by omega), Option.bind_some,
      moreElements?_write fuel room (show (writeMore xs).length ≤ fuel by omega), Option.map_some,
      rereadAll, cutAll]
  | [], 0, _, _, hfuel => by simp [writeMore] at hfuel
  | x :: xs, 0, _, _, hfuel => by simp [writeMore] at hfuel

theorem moreMembers?_write : ∀ {ms : List (String × Json)} (fuel room : Nat) {rest : List Char},
    (writeMoreMembers ms).length ≤ fuel →
    moreMembers? fuel room (writeMoreMembers ms ++ rest) =
      some ((cutMembers (rereadMembers ms) room).map fun m => (some m.1, m.2), rest)
  | [], fuel + 1, room, rest, _ => by
    simp [writeMoreMembers, moreMembers?, skipSpace, isSpace, rereadMembers, cutMembers]
  | (k, x) :: ms, fuel + 1, room, rest, hfuel => by
    simp only [writeMoreMembers, List.length_cons, List.length_append, List.cons_append,
      List.append_assoc] at hfuel ⊢
    rw [moreMembers?, skipSpace_cons rfl]
    simp only [key?_write, Option.bind_some,
      value?_write fuel room (closes_writeMoreMembers ms rest) (show (write x).length ≤ fuel by omega),
      moreMembers?_write fuel room (show (writeMoreMembers ms).length ≤ fuel by omega),
      Option.map_some, rereadMembers, cutMembers, List.map_cons]
  | [], 0, _, _, hfuel => by simp [writeMoreMembers] at hfuel
  | (k, x) :: ms, 0, _, _, hfuel => by simp [writeMoreMembers] at hfuel
end

theorem ofString?_compact_eq (j : Json) : ofString? j.compact = some (j.reread.cut maxNesting) := by
  have hread := value?_write (j := j) ((write j).length + 1) maxNesting closes_nil (Nat.le_succ _)
  rw [List.append_nil] at hread
  rw [ofString?, compact, String.toList_ofList, read?, hread]
  rfl

theorem ofString?_compact {j : Json} (h : j.Plain) : ofString? j.compact = some (j.cut maxNesting) := by
  rw [ofString?_compact_eq, h.reread_eq]

end Retrace.Json
