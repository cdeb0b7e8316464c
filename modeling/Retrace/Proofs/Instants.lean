import Retrace.Proofs.Calendar
import Retrace.Proofs.Days
import Retrace.Proofs.Decimal

/-!
# Instants and their dates

The date of an instant reads back as that instant if its year has four digits, and only then. The texts of
such dates stand in the order of their instants, since every field has a fixed width.
-/

namespace Retrace

open Retrace.Decimal

namespace DateTime

/-! ## Fields -/

theorem isValid_iff (d : DateTime) : d.isValid = true ↔
    (1 ≤ d.month ∧ d.month ≤ 12) ∧ (1 ≤ d.day ∧ d.day ≤ daysInMonth d.year d.month) ∧
      d.hour ≤ 23 ∧ d.minute ≤ 59 ∧ d.second ≤ 60 := by
  simp only [isValid, Bool.and_eq_true, decide_eq_true_eq]
  omega

theorem daysInMonth_le (year : Int) (month : Nat) : daysInMonth year month ≤ 31 := by
  unfold daysInMonth
  split
  · split <;> omega
  · split <;> omega

theorem isValid_ofSeconds (s : Int) : (ofSeconds s).isValid = true := by
  obtain ⟨d, -, hdate⟩ := YearDay.exists_of_number (s / 86400)
  rw [isValid_iff]
  unfold ofSeconds
  rw [hdate]
  refine ⟨d.month_date, ⟨d.day_date.2, d.day_le_daysInMonth⟩, ?_⟩
  simp only
  omega

theorem toSeconds_ofSeconds (s : Int) : (ofSeconds s).toSeconds = s := by
  have hday := dayNumber_ofDayNumber (s / 86400)
  unfold toSeconds ofSeconds
  simp only [hday]
  omega

def Earlier (d d' : DateTime) : Prop :=
  d.year < d'.year ∨ d.year = d'.year ∧ (d.month < d'.month ∨ d.month = d'.month ∧
    (d.day < d'.day ∨ d.day = d'.day ∧ (d.hour < d'.hour ∨ d.hour = d'.hour ∧
      (d.minute < d'.minute ∨ d.minute = d'.minute ∧ d.second < d'.second))))

theorem earlier_of_lt {s s' : Int} (h : s < s') : Earlier (ofSeconds s) (ofSeconds s') := by
  unfold Earlier ofSeconds
  simp only
  rcases Int.lt_or_eq_of_le (Int.ediv_le_ediv (by decide : (0 : Int) < 86400) (Int.le_of_lt h)) with hdays | hdays
  · rcases before_of_lt hdays with hyear | ⟨hyear, hmonth | ⟨hmonth, hday⟩⟩
    · exact Or.inl hyear
    · exact Or.inr ⟨hyear, Or.inl hmonth⟩
    · exact Or.inr ⟨hyear, Or.inr ⟨hmonth, Or.inl hday⟩⟩
  · rw [hdays]
    omega

/-! ## The years 0 to 9999 -/

def firstShown : Int := -62167219200

def lastShown : Int := 253402300799

theorem year_lt_iff {s start y : Int} (hstart : ofSeconds start = ⟨y, 1, 1, 0, 0, 0⟩) :
    (ofSeconds s).year < y ↔ s < start := by
  constructor
  · intro hyear
    apply Int.not_le.mp
    intro hle
    rcases Int.lt_or_eq_of_le hle with hlater | rfl
    · have hearlier := earlier_of_lt hlater
      rw [hstart] at hearlier
      unfold Earlier at hearlier
      simp only at hearlier
      omega
    · rw [hstart] at hyear
      exact Int.lt_irrefl y hyear
  · intro hlt
    have hearlier := earlier_of_lt hlt
    have hvalid := (isValid_iff _).mp (isValid_ofSeconds s)
    rw [hstart] at hearlier
    unfold Earlier at hearlier
    simp only at hearlier
    omega

theorem year_mem_iff (s : Int) :
    0 ≤ (ofSeconds s).year ∧ (ofSeconds s).year ≤ 9999 ↔ firstShown ≤ s ∧ s ≤ lastShown := by
  have hfirst := year_lt_iff (s := s) (show ofSeconds firstShown = ⟨0, 1, 1, 0, 0, 0⟩ by decide +kernel)
  have hlast := year_lt_iff (s := s) (show ofSeconds (lastShown + 1) = ⟨10000, 1, 1, 0, 0, 0⟩ by decide +kernel)
  omega

/-! ## Texts -/

theorem write_eq {d : DateTime} (hyear : 0 ≤ d.year ∧ d.year ≤ 9999) :
    d.write = padded 4 d.year.toNat ++ '-' :: (padded 2 d.month ++ '-' :: (padded 2 d.day ++
      ' ' :: (padded 2 d.hour ++ ':' :: (padded 2 d.minute ++ ':' :: padded 2 d.second)))) := by
  have hwritten : writeYear d.year = padded 4 d.year.toNat := by
    cases hd : d.year with
    | ofNat n =>
      rw [hd] at hyear
      unfold writeYear
      simp only [Int.ofNat_eq_natCast, Int.toNat_natCast] at hyear ⊢
      rw [if_pos (by omega)]
    | negSucc n =>
      rw [hd] at hyear
      omega
  unfold write
  rw [hwritten]
  simp

theorem field_padded {width n : Nat} (hwidth : 0 < width) (h : n < 10 ^ width) : Field width (padded width n) :=
  ⟨length_padded hwidth h, fun _ => isDigit_of_mem_padded⟩

theorem shows_write {d : DateTime} (hyear : 0 ≤ d.year ∧ d.year ≤ 9999) (hvalid : d.isValid = true) :
    d.Shows d.write := by
  obtain ⟨hmonth, hday, htime⟩ := (isValid_iff d).mp hvalid
  have hdays := daysInMonth_le d.year d.month
  have hshows := Shows.mk (field_padded (by decide) (show d.year.toNat < 10 ^ 4 by omega))
    (field_padded (by decide) (show d.month < 10 ^ 2 by omega))
    (field_padded (by decide) (show d.day < 10 ^ 2 by omega))
    (field_padded (by decide) (show d.hour < 10 ^ 2 by omega))
    (field_padded (by decide) (show d.minute < 10 ^ 2 by omega))
    (field_padded (by decide) (show d.second < 10 ^ 2 by omega))
  simp only [value_padded, Int.toNat_of_nonneg hyear.1] at hshows
  rw [write_eq hyear]
  exact hshows

theorem read?_write {d : DateTime} (hyear : 0 ≤ d.year ∧ d.year ≤ 9999) (hvalid : d.isValid = true) :
    read? d.write = some d :=
  read?_eq_some_iff.mpr ⟨shows_write hyear hvalid, hvalid⟩

theorem write_lt {d d' : DateTime} (hyear : 0 ≤ d.year ∧ d.year ≤ 9999) (hvalid : d.isValid = true)
    (hyear' : 0 ≤ d'.year ∧ d'.year ≤ 9999) (hvalid' : d'.isValid = true) (h : Earlier d d') :
    d.write < d'.write := by
  obtain ⟨hmonth, hday, htime⟩ := (isValid_iff d).mp hvalid
  obtain ⟨hmonth', hday', htime'⟩ := (isValid_iff d').mp hvalid'
  have hdays := daysInMonth_le d.year d.month
  have hdays' := daysInMonth_le d'.year d'.month
  rw [write_eq hyear, write_eq hyear']
  apply padded_sep_lt (by decide) (by omega) (by omega)
  refine h.imp (by omega) fun ⟨hsame, h⟩ => ⟨by rw [hsame], ?_⟩
  apply padded_sep_lt (by decide) (by omega) (by omega)
  refine h.imp_right fun ⟨hsame, h⟩ => ⟨hsame, ?_⟩
  apply padded_sep_lt (by decide) (by omega) (by omega)
  refine h.imp_right fun ⟨hsame, h⟩ => ⟨hsame, ?_⟩
  apply padded_sep_lt (by decide) (by omega) (by omega)
  refine h.imp_right fun ⟨hsame, h⟩ => ⟨hsame, ?_⟩
  apply padded_sep_lt (by decide) (by omega) (by omega)
  refine h.imp_right fun ⟨hsame, h⟩ => ⟨hsame, ?_⟩
  have hsecond := padded_lt_padded (show 0 < 2 by decide) (by omega) (by omega) h [] []
  simpa using hsecond

theorem isDigit_head_of_shows {d : DateTime} {c : Char} {cs : List Char} (h : d.Shows (c :: cs)) :
    c.isDigit = true := by
  generalize htext : c :: cs = text at h
  cases h with
  | @mk year _ _ _ _ _ hyear =>
    cases year with
    | nil => simp [Field] at hyear
    | cons y ys =>
      obtain ⟨rfl, -⟩ := List.cons.inj htext
      exact hyear.2 c List.mem_cons_self

theorem read?_cons_of_not_digit {c : Char} (h : c.isDigit = false) (cs : List Char) : read? (c :: cs) = none := by
  cases hread : read? (c :: cs) with
  | none => rfl
  | some d => simp [isDigit_head_of_shows (read?_eq_some_iff.mp hread).1] at h

theorem read?_write_of_signed {d : DateTime} (h : d.year < 0 ∨ 9999 < d.year) : read? d.write = none := by
  unfold write
  cases hyear : d.year with
  | ofNat n =>
    have hlarge : ¬ n ≤ 9999 := by
      rw [hyear] at h
      simp only [Int.ofNat_eq_natCast] at h
      omega
    unfold writeYear
    simp only [if_neg hlarge, List.cons_append]
    exact read?_cons_of_not_digit rfl _
  | negSucc n =>
    unfold writeYear
    simp only [List.cons_append]
    exact read?_cons_of_not_digit rfl _

/-! ## Instants -/

theorem textOf?_of_shown {s : Int} (h : firstShown ≤ s ∧ s ≤ lastShown) :
    textOf? s = some (String.ofList (ofSeconds s).write) := by
  apply if_pos
  unfold firstShown lastShown at h
  unfold minSeconds maxSeconds
  omega

/-- **Every instant of the years 0 to 9999 has a date that denotes it**, later instants have later texts, and
the texts of all other instants denote nothing. -/
theorem textOf?_exact :
    (∀ s, firstShown ≤ s → s ≤ lastShown →
      ∃ d, textOf? s = some d ∧ isDate d = true ∧ secondsOf? d = some s) ∧
    (∀ s s' d d', firstShown ≤ s → s < s' → s' ≤ lastShown →
      textOf? s = some d → textOf? s' = some d' → d < d') ∧
    (∀ s d, s < firstShown ∨ lastShown < s → textOf? s = some d → secondsOf? d = none) := by
  refine ⟨?_, ?_, ?_⟩
  · intro s hlow hhigh
    have hread := read?_write ((year_mem_iff s).mpr ⟨hlow, hhigh⟩) (isValid_ofSeconds s)
    refine ⟨_, textOf?_of_shown ⟨hlow, hhigh⟩, ?_, ?_⟩
    · unfold isDate
      rw [String.toList_ofList, hread]
      rfl
    · unfold secondsOf?
      rw [String.toList_ofList, hread, Option.map_some, toSeconds_ofSeconds]
  · intro s s' d d' hlow hlt hhigh hd hd'
    rw [textOf?_of_shown ⟨hlow, by omega⟩] at hd
    rw [textOf?_of_shown ⟨by omega, hhigh⟩] at hd'
    obtain rfl := Option.some.inj hd
    obtain rfl := Option.some.inj hd'
    rw [String.lt_iff, String.toList_ofList, String.toList_ofList]
    apply write_lt _ (isValid_ofSeconds s) _ (isValid_ofSeconds s') (earlier_of_lt hlt)
    · exact (year_mem_iff s).mpr ⟨hlow, by omega⟩
    · exact (year_mem_iff s').mpr ⟨by omega, hhigh⟩
  · intro s d hs hd
    obtain ⟨-, hd⟩ := Option.ite_none_right_eq_some.mp hd
    obtain rfl := Option.some.inj hd
    have hyear := year_mem_iff s
    unfold secondsOf?
    rw [String.toList_ofList, read?_write_of_signed (by omega)]
    rfl

end DateTime
end Retrace
