import Atlas.Lib.Calendar
import Atlas.Lib.Isoformat
import Mathlib.Data.Char
import Mathlib.Data.List.Lex

/-!
# Weeks and months of days

Days are grouped into weeks from Monday on and into months.  A week has a number, and so has a
month; a day has the number of another one exactly if it is not before the first day of that
week or month, as long as it is not after the other day.

The text of a month is the year and the month of its dates, and the texts of four-digit years
are ordered as the months are.

## Main definitions

* `weekday`, `weekIndex` — the day of the week, and the number of the week.
* `monthIndex`, `monthStart` — the number of the month, and its first day.
* `monthText` — the text of a month.

## Main results

* `weekIndex_eq_iff`, `monthIndex_eq_iff` — **which days belong to one week or month**.
* `monthIndex_mono` — months follow each other as their days do.
* `monthText_lt_iff`, `monthText_inj` — **texts of months are ordered as the months are**.
-/

namespace Calendar

/-! ### Weeks -/

/-- The day of the week, from Monday on: 1970-01-01 was a Thursday. -/
def weekday (n : ℤ) : ℤ := (n + 3) % 7

/-- The number of the week. -/
def weekIndex (n : ℤ) : ℤ := (n + 3) / 7

/-- **Which days belong to one week.** -/
theorem weekIndex_eq_iff {n m : ℤ} (h : n ≤ m) :
    weekIndex n = weekIndex m ↔ m - weekday m ≤ n := by
  unfold weekIndex weekday
  omega

/-! ### Months -/

/-- The number of the month. -/
def monthIndex (n : ℤ) : ℤ := 12 * (ofDays n).year + (ofDays n).month - 1

/-- The first day of the month: the day of the month is replaced by one. -/
def monthStart (n : ℤ) : ℤ := ({ ofDays n with day := 1 } : Date).toDays

theorem daysBefore_mono {y y' : ℤ} (h : y ≤ y') : daysBefore y ≤ daysBefore y' := by
  unfold daysBefore
  omega

/-- The days of a year from March on. -/
theorem daysBefore_next {a b c k : ℤ} (hb : 0 ≤ b ∧ b ≤ 3) (hc : 0 ≤ c ∧ c ≤ 24)
    (hk : 0 ≤ k ∧ k ≤ 3) :
    daysBefore (a * 400 + b * 100 + c * 4 + k + 1) - daysBefore (a * 400 + b * 100 + c * 4 + k) =
      if k < 3 then 365 else if c < 24 then 366 else if b < 3 then 365 else 366 := by
  unfold daysBefore
  split_ifs <;> omega

/-- A day comes before the next year. -/
theorem lt_daysBefore_yearDay (n : ℤ) : n < daysBefore ((yearDay n).1 + 1) := by
  obtain ⟨hspec, -, -⟩ := yearDay_spec n
  have h100 : 0 ≤ min (n % 146097 / 36524) 3 ∧ min (n % 146097 / 36524) 3 ≤ 3 := by omega
  have h4 : 0 ≤ (n % 146097 - min (n % 146097 / 36524) 3 * 36524) / 1461 ∧
      (n % 146097 - min (n % 146097 / 36524) 3 * 36524) / 1461 ≤ 24 := by omega
  have h1 : 0 ≤ min ((n % 146097 - min (n % 146097 / 36524) 3 * 36524) % 1461 / 365) 3 ∧
      min ((n % 146097 - min (n % 146097 / 36524) 3 * 36524) % 1461 / 365) 3 ≤ 3 := by omega
  have hnext := daysBefore_next (a := n / 146097) h100 h4 h1
  simp only [yearDay] at hspec ⊢
  split_ifs at hnext <;> omega

/-- The years follow each other as their days do. -/
theorem yearDay_mono {n m : ℤ} (h : n ≤ m) : (yearDay n).1 ≤ (yearDay m).1 := by
  by_contra hlt
  have hyears : daysBefore ((yearDay m).1 + 1) ≤ daysBefore (yearDay n).1 :=
    daysBefore_mono (by omega)
  have hm := lt_daysBefore_yearDay m
  obtain ⟨hn, hlow, -⟩ := yearDay_spec n
  omega

/-- The months are counted from March, as the places in a year are. -/
theorem monthIndex_eq (n : ℤ) :
    monthIndex n =
      12 * (yearDay (n + epoch)).1 + (5 * (yearDay (n + epoch)).2 + 2) / 153 + 2 := by
  simp only [monthIndex, ofDays, ofYearDay]
  split <;> ring

/-- The first day of a month is at a place in the year that is the same in all years. -/
theorem monthStart_eq (n : ℤ) :
    monthStart n = daysBefore (yearDay (n + epoch)).1 +
      (153 * ((5 * (yearDay (n + epoch)).2 + 2) / 153) + 2) / 5 - epoch := by
  have hdays := toDays_ofDays n
  have hday : (ofDays n).day = (yearDay (n + epoch)).2 -
      (153 * ((5 * (yearDay (n + epoch)).2 + 2) / 153) + 2) / 5 + 1 := rfl
  obtain ⟨hspec, -, -⟩ := yearDay_spec (n + epoch)
  simp only [monthStart, Date.toDays] at hdays ⊢
  omega

/-- **Months follow each other as their days do.** -/
theorem monthIndex_mono {n m : ℤ} (h : n ≤ m) : monthIndex n ≤ monthIndex m := by
  obtain ⟨hn, hnlow, hnhigh⟩ := yearDay_spec (n + epoch)
  obtain ⟨hm, hmlow, hmhigh⟩ := yearDay_spec (m + epoch)
  have hyears := yearDay_mono (add_le_add_left h epoch)
  rw [monthIndex_eq, monthIndex_eq]
  rcases hyears.lt_or_eq with hlt | heq
  · omega
  · rw [heq] at hn ⊢
    omega

/-- **Which days belong to one month.** -/
theorem monthIndex_eq_iff {n m : ℤ} (h : n ≤ m) :
    monthIndex n = monthIndex m ↔ monthStart m ≤ n := by
  obtain ⟨hn, hnlow, hnhigh⟩ := yearDay_spec (n + epoch)
  obtain ⟨hm, hmlow, hmhigh⟩ := yearDay_spec (m + epoch)
  have hyears := yearDay_mono (add_le_add_left h epoch)
  rw [monthIndex_eq, monthIndex_eq, monthStart_eq]
  constructor
  · intro hmonth
    have heq : (yearDay (n + epoch)).1 = (yearDay (m + epoch)).1 := by omega
    rw [heq] at hn
    omega
  · intro hstart
    have heq : (yearDay (n + epoch)).1 = (yearDay (m + epoch)).1 := by
      by_contra hne
      have hnext : daysBefore ((yearDay (n + epoch)).1 + 1) ≤
          daysBefore (yearDay (m + epoch)).1 := daysBefore_mono (by omega)
      have hbefore := lt_daysBefore_yearDay (n + epoch)
      omega
    rw [heq] at hn ⊢
    omega

/-! ### The texts of months -/

/-- `%Y-%m` of a year of four digits. -/
def monthText (n : ℤ) : List Char :=
  padded 4 (ofDays n).year.toNat ++ '-' :: padded 2 (ofDays n).month.toNat

/-- Texts are compared by their starts first, if these are of one length. -/
theorem append_lt_append_iff {xs ys xs' ys' : List Char} (h : xs.length = ys.length) :
    xs ++ xs' < ys ++ ys' ↔ xs < ys ∨ xs = ys ∧ xs' < ys' := by
  induction xs generalizing ys with
  | nil =>
    obtain rfl : ys = [] := List.eq_nil_of_length_eq_zero h.symm
    simp
  | cons x xs ih =>
    cases ys with
    | nil => cases h
    | cons y ys =>
      have ih := ih (Nat.succ.inj h)
      simp only [List.cons_append, List.cons_lt_cons_iff, ih, List.cons.injEq]
      tauto

theorem digitChar_lt_iff : ∀ a < 10, ∀ b < 10,
    Nat.digitChar a < Nat.digitChar b ↔ a < b := by decide

theorem padded_inj {width a b : ℕ} (ha : a < 10 ^ width) (hb : b < 10 ^ width) :
    padded width a = padded width b ↔ a = b := by
  refine ⟨fun h => ?_, congrArg _⟩
  have hread := ofDigitChars_padded width a
  rw [h, ofDigitChars_padded width b, Nat.mod_eq_of_lt ha, Nat.mod_eq_of_lt hb] at hread
  exact hread.symm

/-- Numbers with one number of digits are ordered as their texts are. -/
theorem padded_lt_iff {width a b : ℕ} (ha : a < 10 ^ width) (hb : b < 10 ^ width) :
    padded width a < padded width b ↔ a < b := by
  induction width generalizing a b with
  | zero =>
    obtain rfl : a = 0 := by omega
    obtain rfl : b = 0 := by omega
    simp [padded]
  | succ width ih =>
    rw [pow_succ] at ha hb
    have hlast : [Nat.digitChar (a % 10)] < [Nat.digitChar (b % 10)] ↔ a % 10 < b % 10 := by
      simp [List.cons_lt_cons_iff, digitChar_lt_iff (a % 10) (by omega) (b % 10) (by omega)]
    have hhead : padded width (a / 10) = padded width (b / 10) ↔ a / 10 = b / 10 :=
      padded_inj (by omega) (by omega)
    rw [padded, padded, append_lt_append_iff (by rw [length_padded, length_padded]),
      ih (by omega) (by omega), hlast, hhead]
    omega

/-- **Texts of months are ordered as the months are.** -/
theorem monthText_lt_iff {n m : ℤ} (hn : 0 ≤ (ofDays n).year ∧ (ofDays n).year ≤ 9999)
    (hm : 0 ≤ (ofDays m).year ∧ (ofDays m).year ≤ 9999) :
    monthText n < monthText m ↔ monthIndex n < monthIndex m := by
  obtain ⟨hnlow, hnhigh⟩ := month_ofDays n
  obtain ⟨hmlow, hmhigh⟩ := month_ofDays m
  have hyearn : (ofDays n).year.toNat < 10 ^ 4 := by omega
  have hyearm : (ofDays m).year.toNat < 10 ^ 4 := by omega
  have hmonth : '-' :: padded 2 (ofDays n).month.toNat < '-' :: padded 2 (ofDays m).month.toNat ↔
      (ofDays n).month.toNat < (ofDays m).month.toNat := by
    rw [List.cons_lt_cons_iff, padded_lt_iff (by omega) (by omega)]
    simp
  rw [monthText, monthText, append_lt_append_iff (by rw [length_padded, length_padded]),
    padded_lt_iff hyearn hyearm, padded_inj hyearn hyearm, hmonth, monthIndex, monthIndex]
  omega

/-- The text of a month is that of no other month. -/
theorem monthText_inj {n m : ℤ} (hn : 0 ≤ (ofDays n).year ∧ (ofDays n).year ≤ 9999)
    (hm : 0 ≤ (ofDays m).year ∧ (ofDays m).year ≤ 9999) :
    monthText n = monthText m ↔ monthIndex n = monthIndex m := by
  constructor
  · intro h
    have hle : ¬monthIndex n < monthIndex m := fun hlt =>
      List.lt_irrefl _ (h ▸ (monthText_lt_iff hn hm).mpr hlt)
    have hge : ¬monthIndex m < monthIndex n := fun hlt =>
      List.lt_irrefl _ (h ▸ (monthText_lt_iff hm hn).mpr hlt)
    omega
  · intro h
    obtain ⟨hnlow, hnhigh⟩ := month_ofDays n
    obtain ⟨hmlow, hmhigh⟩ := month_ofDays m
    unfold monthIndex at h
    have hyear : (ofDays n).year = (ofDays m).year := by omega
    have hmonth : (ofDays n).month = (ofDays m).month := by omega
    rw [monthText, monthText, hyear, hmonth]

end Calendar
