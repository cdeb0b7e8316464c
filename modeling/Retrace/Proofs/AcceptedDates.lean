import Retrace.Proofs.Instants

/-!
# Accepted dates

An accepted text is the one text of the date that it shows, and its seconds lead back to it. There is one
gap: the second 60 is accepted in every minute and counts as the second 59, so that two texts stand for one
instant. But for that, texts are told apart and ordered as their instants are.
-/

namespace Retrace.DateTime

open Retrace.Decimal

/-! ## Texts of dates -/

theorem Field.padded_value {n : Nat} {ds : List Char} (h : Field n ds) (hn : 0 < n) : padded n (value ds) = ds :=
  Decimal.padded_value hn h.1 h.2

theorem Shows.year_mem {d : DateTime} {cs : List Char} (h : d.Shows cs) : 0 ≤ d.year ∧ d.year ≤ 9999 := by
  obtain ⟨hyear, -, -, -, -, -⟩ := h
  have hlt := value_lt hyear.2
  rw [hyear.1] at hlt
  simp only
  omega

theorem Shows.write_eq {d : DateTime} {cs : List Char} (h : d.Shows cs) : d.write = cs := by
  rw [DateTime.write_eq h.year_mem]
  obtain ⟨hyear, hmonth, hday, hhour, hminute, hsecond⟩ := h
  simp only [Int.toNat_natCast]
  rw [hyear.padded_value (by decide), hmonth.padded_value (by decide), hday.padded_value (by decide),
    hhour.padded_value (by decide), hminute.padded_value (by decide), hsecond.padded_value (by decide)]

theorem exists_of_secondsOf? {text : String} {s : Int} (h : secondsOf? text = some s) :
    ∃ d : DateTime, d.isValid = true ∧ (0 ≤ d.year ∧ d.year ≤ 9999) ∧ text = String.ofList d.write ∧
      d.toSeconds = s := by
  obtain ⟨d, hread, rfl⟩ := Option.map_eq_some_iff.mp h
  obtain ⟨hshows, hvalid⟩ := read?_eq_some_iff.mp hread
  refine ⟨d, hvalid, hshows.year_mem, ?_, rfl⟩
  rw [hshows.write_eq, String.ofList_toList]

/-! ## The second 60 -/

/-- The date with the second 59 in place of a second 60. -/
def settled (d : DateTime) : DateTime := { d with second := min d.second 59 }

theorem ofSeconds_toSeconds {d : DateTime} (h : d.isValid = true) : ofSeconds d.toSeconds = d.settled := by
  obtain ⟨hmonth, hday, htime⟩ := (isValid_iff d).mp h
  have hdays : d.toSeconds / 86400 = dayNumber d.year d.month d.day := by
    unfold toSeconds
    omega
  have hrest : (d.toSeconds % 86400).toNat = d.hour * 3600 + d.minute * 60 + min d.second 59 := by
    unfold toSeconds
    omega
  unfold ofSeconds settled
  rw [hdays, hrest, ofDayNumber_dayNumber hmonth hday]
  simp only [mk.injEq, true_and]
  omega

/-- The text ends with the second 60. -/
def LeapSecond (text : String) : Prop := [':', '6', '0'] <:+ text.toList

instance (text : String) : Decidable (LeapSecond text) := inferInstanceAs (Decidable (_ <:+ _))

def settle (text : String) : String :=
  if LeapSecond text then String.ofList (text.toList.dropLast.dropLast ++ ['5', '9']) else text

theorem settle_eq_iff (text : String) : settle text = text ↔ ¬ LeapSecond text := by
  unfold settle
  split
  · rename_i h
    obtain ⟨front, hfront⟩ := h
    simp [← String.toList_inj, ← hfront, LeapSecond]
  · rename_i h
    exact iff_of_true rfl h

theorem write_second (d : DateTime) : ∃ front, d.write = front ++ ':' :: padded 2 d.second ∧
    d.settled.write = front ++ ':' :: padded 2 (min d.second 59) :=
  ⟨_, rfl, rfl⟩

theorem leapSecond_iff {front : List Char} {second : Nat} (h : second ≤ 60) :
    LeapSecond (String.ofList (front ++ ':' :: padded 2 second)) ↔ second = 60 := by
  unfold LeapSecond
  rw [String.toList_ofList]
  constructor
  · rintro ⟨rest, hrest⟩
    have hlength : [':', '6', '0'].length = (':' :: padded 2 second).length := by
      simp [length_padded (show 0 < 2 by decide) (show second < 10 ^ 2 by omega)]
    have hdigits := (List.append_inj' hrest hlength).2
    have hvalue := congrArg value (List.cons.inj hdigits).2
    rw [value_padded] at hvalue
    exact hvalue.symm
  · rintro rfl
    exact List.suffix_append front _

theorem settle_write {d : DateTime} (h : d.isValid = true) :
    settle (String.ofList d.write) = String.ofList d.settled.write := by
  obtain ⟨front, hwrite, hsettled⟩ := d.write_second
  obtain ⟨-, -, -, -, hsecond⟩ := (isValid_iff d).mp h
  rw [hwrite, hsettled]
  unfold settle
  by_cases h60 : d.second = 60
  · have hdigits : padded 2 60 = ['6', '0'] ∧ padded 2 (min 60 59) = ['5', '9'] := by decide
    rw [if_pos ((leapSecond_iff hsecond).mpr h60), String.toList_ofList, h60, hdigits.1, hdigits.2]
    simp
  · rw [if_neg (mt (leapSecond_iff hsecond).mp h60), Nat.min_eq_left (by omega)]

/-! ## Instants -/

theorem settle_eq {text : String} {s : Int} (h : secondsOf? text = some s) :
    (firstShown ≤ s ∧ s ≤ lastShown) ∧ settle text = String.ofList (ofSeconds s).write := by
  obtain ⟨d, hvalid, hyear, rfl, rfl⟩ := exists_of_secondsOf? h
  rw [← year_mem_iff, ofSeconds_toSeconds hvalid, settle_write hvalid]
  exact ⟨hyear, rfl⟩

theorem settle_lt {a b : String} {s t : Int} (ha : secondsOf? a = some s) (hb : secondsOf? b = some t)
    (h : s < t) : settle a < settle b := by
  obtain ⟨hs, ha⟩ := settle_eq ha
  obtain ⟨ht, hb⟩ := settle_eq hb
  rw [ha, hb, String.lt_iff, String.toList_ofList, String.toList_ofList]
  apply write_lt _ (isValid_ofSeconds s) _ (isValid_ofSeconds t) (earlier_of_lt h)
  · exact (year_mem_iff s).mpr hs
  · exact (year_mem_iff t).mpr ht

theorem settle_compare {a b : String} {s t : Int} (ha : secondsOf? a = some s) (hb : secondsOf? b = some t) :
    (s = t ↔ settle a = settle b) ∧ (s < t ↔ settle a < settle b) := by
  rcases Int.lt_trichotomy s t with h | rfl | h
  · have hlt := settle_lt ha hb h
    exact ⟨iff_of_false (by omega) (String.ne_of_lt hlt), iff_of_true h hlt⟩
  · have heq : settle a = settle b := by
      rw [(settle_eq ha).2, (settle_eq hb).2]
    exact ⟨iff_of_true rfl heq, iff_of_false (Int.lt_irrefl s) (heq ▸ String.lt_irrefl _)⟩
  · have hlt := settle_lt hb ha h
    exact ⟨iff_of_false (by omega) (Ne.symm (String.ne_of_lt hlt)), iff_of_false (by omega) (String.lt_asymm hlt)⟩

/-- **An accepted date denotes its own instant if its second is not 60, and only then.** A second 60 denotes the
instant of the text with 59 in its place; instants are the same and in order just as these texts are. -/
theorem secondsOf?_settled {text : String} (h : isDate text = true) :
    ∃ s, secondsOf? text = some s ∧ textOf? s = some (settle text) ∧
      (textOf? s = some text ↔ ¬ LeapSecond text) ∧
      ∀ other t, secondsOf? other = some t →
        (s = t ↔ settle text = settle other) ∧ (s < t ↔ settle text < settle other) := by
  obtain ⟨d, hread⟩ := Option.isSome_iff_exists.mp h
  have hseconds : secondsOf? text = some d.toSeconds := by
    unfold secondsOf?
    rw [hread]
    rfl
  obtain ⟨hshown, hsettle⟩ := settle_eq hseconds
  have htext := textOf?_of_shown hshown
  rw [← hsettle] at htext
  refine ⟨d.toSeconds, hseconds, htext, ?_, fun other t hother => settle_compare hseconds hother⟩
  rw [htext, Option.some.injEq, settle_eq_iff]

theorem secondsOf?_leapDay : isDate "2024-02-29 23:59:59" = true ∧
    ∃ s, secondsOf? "2024-02-29 23:59:59" = some s ∧ textOf? s = some "2024-02-29 23:59:59" ∧ s < 1709251200 := by
  have hdate : isDate "2024-02-29 23:59:59" = true := by decide +kernel
  obtain ⟨s, hs, -, hown, hcompare⟩ := secondsOf?_settled hdate
  have hmarch : secondsOf? "2024-03-01 00:00:00" = some 1709251200 := by decide +kernel
  refine ⟨hdate, s, hs, hown.mpr (by decide), (hcompare _ _ hmarch).2.mpr ?_⟩
  decide +kernel

theorem leapSecond_shared :
    isDate "2024-01-15 10:30:60" = true ∧ secondsOf? "2024-01-15 10:30:60" = some 1705314659 ∧
      textOf? 1705314659 = some "2024-01-15 10:30:59" ∧ secondsOf? "2024-01-15 10:30:59" = some 1705314659 ∧
      "2024-01-15 10:30:59" < "2024-01-15 10:30:60" := by
  decide +kernel

end Retrace.DateTime
