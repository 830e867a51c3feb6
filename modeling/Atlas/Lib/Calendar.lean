import Mathlib.Algebra.Order.Group.Int
import Mathlib.Tactic.Ring

/-!
# Dates and their ISO 8601 texts

A day has a number, counted from 1970-01-01, and a date in the proleptic Gregorian
calendar.  The years are taken from March to February, so that a leap day is the last day
of its year.  The text of a point in time is written as `datetime.isoformat` does: the
fraction only if there is one, and the offset from UTC only if it is known.

A text is a list of characters.

## Main definitions

* `Date`, `ofDays`, `Date.toDays` — a date and the number of its day.
* `padded` — a number with a fixed number of digits.
* `DateTime`, `DateTime.isoformat` — a point in time, and its text.

## Main results

* `toDays_ofDays` — **a date determines its day**.
-/

namespace Calendar

/-! ### Dates -/

structure Date where
  year : ℤ
  month : ℤ
  day : ℤ
  deriving DecidableEq, Repr, Inhabited

/-- The days before the first of March of a year, from the first of March of year zero. -/
def daysBefore (year : ℤ) : ℤ := 365 * year + year / 4 - year / 100 + year / 400

/-- The days from 0000-03-01 to 1970-01-01. -/
def epoch : ℤ := 719468

/-- The year of a day, from March on, and its place in that year. -/
def yearDay (n : ℤ) : ℤ × ℤ :=
  let r400 := n % 146097
  let n100 := min (r400 / 36524) 3
  let r100 := r400 - n100 * 36524
  let r4 := r100 % 1461
  let n1 := min (r4 / 365) 3
  (n / 146097 * 400 + n100 * 100 + r100 / 1461 * 4 + n1, r4 - n1 * 365)

/-- The date of a place in a year from March on: the months are counted from March, and
their first days are at `(153 * m + 2) / 5`. -/
def ofYearDay (year day : ℤ) : Date :=
  let month := (5 * day + 2) / 153
  { year := if month < 10 then year else year + 1
    month := if month < 10 then month + 3 else month - 9
    day := day - (153 * month + 2) / 5 + 1 }

/-- The date of a day. -/
def ofDays (n : ℤ) : Date := ofYearDay (yearDay (n + epoch)).1 (yearDay (n + epoch)).2

/-- The day of a date. -/
def Date.toDays (d : Date) : ℤ :=
  let year := if 2 < d.month then d.year else d.year - 1
  let month := if 2 < d.month then d.month - 3 else d.month + 9
  daysBefore year + ((153 * month + 2) / 5 + d.day - 1) - epoch

theorem daysBefore_split {n400 n100 n4 n1 : ℤ} (h100 : 0 ≤ n100 ∧ n100 ≤ 3)
    (h4 : 0 ≤ n4 ∧ n4 ≤ 24) (h1 : 0 ≤ n1 ∧ n1 ≤ 3) :
    daysBefore (n400 * 400 + n100 * 100 + n4 * 4 + n1) =
      n400 * 146097 + n100 * 36524 + n4 * 1461 + n1 * 365 := by
  have hfour : (n400 * 400 + n100 * 100 + n4 * 4 + n1) / 4 = n400 * 100 + n100 * 25 + n4 := by
    omega
  have hhundred : (n400 * 400 + n100 * 100 + n4 * 4 + n1) / 100 = n400 * 4 + n100 := by omega
  have hera : (n400 * 400 + n100 * 100 + n4 * 4 + n1) / 400 = n400 := by omega
  rw [daysBefore, hfour, hhundred, hera]
  ring

/-- The year and the place in it give the day back, and a year has at most 366 days. -/
theorem yearDay_spec (n : ℤ) :
    daysBefore (yearDay n).1 + (yearDay n).2 = n ∧ 0 ≤ (yearDay n).2 ∧ (yearDay n).2 ≤ 365 := by
  have h100 : 0 ≤ min (n % 146097 / 36524) 3 ∧ min (n % 146097 / 36524) 3 ≤ 3 := by omega
  have h4 : 0 ≤ (n % 146097 - min (n % 146097 / 36524) 3 * 36524) / 1461 ∧
      (n % 146097 - min (n % 146097 / 36524) 3 * 36524) / 1461 ≤ 24 := by omega
  have h1 : 0 ≤ min ((n % 146097 - min (n % 146097 / 36524) 3 * 36524) % 1461 / 365) 3 ∧
      min ((n % 146097 - min (n % 146097 / 36524) 3 * 36524) % 1461 / 365) 3 ≤ 3 := by omega
  simp only [yearDay]
  rw [daysBefore_split h100 h4 h1]
  omega

theorem toDays_ofYearDay {year day : ℤ} (hlow : 0 ≤ day) (hhigh : day ≤ 365) :
    (ofYearDay year day).toDays = daysBefore year + day - epoch := by
  by_cases hlt : (5 * day + 2) / 153 < 10
  · have hmarch : (5 * day + 2) / 153 + 3 - 3 = (5 * day + 2) / 153 := by ring
    have htwo : 2 < (5 * day + 2) / 153 + 3 := by omega
    simp only [ofYearDay, Date.toDays, if_pos hlt, if_pos htwo, hmarch]
    ring
  · have hmarch : (5 * day + 2) / 153 - 9 + 9 = (5 * day + 2) / 153 := by ring
    have htwo : ¬2 < (5 * day + 2) / 153 - 9 := by omega
    have hyear : year + 1 - 1 = year := by ring
    simp only [ofYearDay, Date.toDays, if_neg hlt, if_neg htwo, hmarch, hyear]
    ring

/-- **A date determines its day**. -/
theorem toDays_ofDays (n : ℤ) : (ofDays n).toDays = n := by
  obtain ⟨hspec, hlow, hhigh⟩ := yearDay_spec (n + epoch)
  rw [ofDays, toDays_ofYearDay hlow hhigh, hspec, add_sub_cancel_right]

theorem month_ofDays (n : ℤ) : 1 ≤ (ofDays n).month ∧ (ofDays n).month ≤ 12 := by
  obtain ⟨-, hlow, hhigh⟩ := yearDay_spec (n + epoch)
  simp only [ofDays, ofYearDay]
  omega

theorem day_ofDays (n : ℤ) : 1 ≤ (ofDays n).day ∧ (ofDays n).day ≤ 31 := by
  obtain ⟨-, hlow, hhigh⟩ := yearDay_spec (n + epoch)
  simp only [ofDays, ofYearDay]
  omega

/-! ### Texts -/

/-- The last digits of a number, as many as are asked for. -/
def padded : ℕ → ℕ → List Char
  | 0, _ => []
  | width + 1, n => padded width (n / 10) ++ [Nat.digitChar (n % 10)]

/-- A point in time: the wall clock in microseconds from 1970-01-01T00:00:00, and the
offset of the wall clock from UTC in minutes, if it is known. -/
structure DateTime where
  wall : ℤ
  offset : Option ℤ
  deriving DecidableEq, Repr, Inhabited

/-- The microseconds of a day. -/
def dayMicros : ℤ := 86400000000

namespace DateTime

/-- `YYYY-MM-DD`. -/
def dateText (n : ℤ) : List Char :=
  let date := ofDays n
  padded 4 date.year.toNat ++ '-' :: padded 2 date.month.toNat ++ '-' :: padded 2 date.day.toNat

/-- `HH:MM:SS`, with `.ffffff` if there is a fraction. -/
def timeText (micros : ℕ) : List Char :=
  padded 2 (micros / 3600000000) ++ ':' :: padded 2 (micros / 60000000 % 60) ++
    ':' :: padded 2 (micros / 1000000 % 60) ++
    if micros % 1000000 = 0 then [] else '.' :: padded 6 (micros % 1000000)

/-- `+HH:MM` or `-HH:MM`. -/
def offsetText (minutes : ℤ) : List Char :=
  (if minutes < 0 then '-' else '+') ::
    padded 2 (minutes.natAbs / 60) ++ ':' :: padded 2 (minutes.natAbs % 60)

/-- `datetime.isoformat`. -/
def isoformat (t : DateTime) : List Char :=
  dateText (t.wall / dayMicros) ++ 'T' :: timeText (t.wall % dayMicros).toNat ++
    t.offset.elim [] offsetText

end DateTime

/-- The new year of 2024, and the last microsecond of the leap day. -/
example : String.ofList (DateTime.isoformat ⟨1704067200000000, some 0⟩) =
    "2024-01-01T00:00:00+00:00" := by decide +kernel

example : String.ofList (DateTime.isoformat ⟨1709251199999999, none⟩) =
    "2024-02-29T23:59:59.999999" := by decide +kernel

end Calendar
