import Retrace.Calendar

/-!
# Dates as they are written

A text is a date if it has the shape `YYYY-MM-DD hh:mm:ss`, all of its numbers in ASCII digits, and the
numbers are in their ranges.
-/

namespace Retrace.DateTime

open Retrace.Decimal

/-- A run of `n` digits. -/
def Field (n : Nat) (ds : List Char) : Prop := ds.length = n ∧ ∀ c ∈ ds, c.isDigit = true

/-- A text shows a date: `YYYY-MM-DD hh:mm:ss`. -/
inductive Shows : DateTime → List Char → Prop
  | mk {year month day hour minute second : List Char} (hyear : Field 4 year) (hmonth : Field 2 month)
      (hday : Field 2 day) (hhour : Field 2 hour) (hminute : Field 2 minute) (hsecond : Field 2 second) :
      Shows ⟨value year, value month, value day, value hour, value minute, value second⟩
        (year ++ '-' :: (month ++ '-' :: (day ++ ' ' :: (hour ++ ':' :: (minute ++ ':' :: second)))))

theorem field?_eq_some_iff {n v : Nat} {cs rest : List Char} :
    field? n cs = some (v, rest) ↔ ∃ ds, Field n ds ∧ value ds = v ∧ cs = ds ++ rest := by
  simp only [field?, Bool.and_eq_true, decide_eq_true_eq, List.all_eq_true,
    Option.ite_none_right_eq_some, Option.some.injEq, Prod.mk.injEq]
  constructor
  · rintro ⟨hfield, hvalue, rfl⟩
    exact ⟨cs.take n, hfield, hvalue, (List.take_append_drop n cs).symm⟩
  · rintro ⟨ds, ⟨hlen, hdigits⟩, hvalue, rfl⟩
    rw [List.take_left' hlen, List.drop_left' hlen]
    exact ⟨⟨hlen, hdigits⟩, hvalue, rfl⟩

theorem nextField?_eq_some_iff {sep : Char} {v : Nat} {cs rest : List Char} :
    nextField? sep cs = some (v, rest) ↔
      ∃ ds, Field 2 ds ∧ value ds = v ∧ cs = sep :: (ds ++ rest) := by
  cases cs with
  | nil => simp [nextField?]
  | cons c cs =>
    simp only [nextField?, Option.ite_none_right_eq_some, field?_eq_some_iff, List.cons.injEq]
    constructor
    · rintro ⟨hsep, ds, hfield, hvalue, hcs⟩
      exact ⟨ds, hfield, hvalue, hsep, hcs⟩
    · rintro ⟨ds, hfield, hvalue, hsep, hcs⟩
      exact ⟨hsep, ds, hfield, hvalue, hcs⟩

theorem read?_eq_some_iff {cs : List Char} {d : DateTime} :
    read? cs = some d ↔ d.Shows cs ∧ d.isValid = true := by
  simp only [read?, Option.bind_eq_bind, Option.bind_eq_some_iff, Prod.exists, field?_eq_some_iff,
    nextField?_eq_some_iff, Option.ite_none_right_eq_some, Bool.and_eq_true, List.isEmpty_iff,
    Option.some.injEq]
  constructor
  · rintro ⟨_, _, ⟨year, hyear, rfl, rfl⟩, _, _, ⟨month, hmonth, rfl, rfl⟩, _, _, ⟨day, hday, rfl, rfl⟩,
      _, _, ⟨hour, hhour, rfl, rfl⟩, _, _, ⟨minute, hminute, rfl, rfl⟩,
      _, _, ⟨second, hsecond, rfl, rfl⟩, ⟨rfl, hvalid⟩, rfl⟩
    rw [List.append_nil]
    exact ⟨.mk hyear hmonth hday hhour hminute hsecond, hvalid⟩
  · rintro ⟨⟨hyear, hmonth, hday, hhour, hminute, hsecond⟩, hvalid⟩
    exact ⟨_, _, ⟨_, hyear, rfl, rfl⟩, _, _, ⟨_, hmonth, rfl, rfl⟩, _, _, ⟨_, hday, rfl, rfl⟩,
      _, _, ⟨_, hhour, rfl, rfl⟩, _, _, ⟨_, hminute, rfl, rfl⟩,
      _, [], ⟨_, hsecond, rfl, (List.append_nil _).symm⟩, ⟨rfl, hvalid⟩, rfl⟩

end Retrace.DateTime
