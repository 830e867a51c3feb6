import Mathlib.Algebra.Order.Floor.Ring
import Mathlib.Algebra.Order.Floor.Semiring
import Mathlib.Tactic.Linarith
import Mathlib.Tactic.FieldSimp
import Mathlib.Tactic.Ring

/-!
# Rounding to a grid

Decimal arithmetic rounds a number to a multiple of a quantum.  Two roundings
are used: to the nearest multiple with ties to the even one, and towards zero.

## Main definitions

* `roundHalfEven x` — the nearest integer, ties to the even one.
* `roundDown x` — the integer part, towards zero.
* `quantize e x`, `quantizeDown e x` — the same to a multiple of `e`.
* `halfQuantum e` — the most that the nearest multiple is away.
* `OnGrid e x` — `x` is a multiple of `e`.

## Main results

* `quantize_nonneg` — rounding to the nearest multiple keeps the sign of a
  non-negative number.
* `quantizeDown_nonpos` — rounding towards zero keeps the sign of a non-positive number.
* `quantizeDown_idem` — rounding towards zero again changes nothing.
* `quantize_mono`, `quantizeDown_mono` — rounding keeps the order, towards zero that of
  non-negative numbers.
* `quantizeDown_le` — rounding towards zero does not enlarge.
* `abs_quantize_sub_le` — rounding to the nearest multiple moves by half a quantum at most.
* `quantize_add_quantize`, `quantize_sub_quantize` — what is rounded already is not rounded again.
* `quantize_le_quantizeDown_iff` — what a rounded number is compared with after rounding
  towards zero, it is compared with before.
* `OnGrid.le_quantizeDown` — rounding towards zero passes over no multiple below a number.
-/

namespace Quantize

variable {α : Type*} [Field α] [LinearOrder α] [FloorRing α]

/-- The nearest integer, ties to the even one. -/
def roundHalfEven (x : α) : ℤ :=
  if x - ⌊x⌋ < 1 / 2 then ⌊x⌋
  else if 1 / 2 < x - ⌊x⌋ then ⌊x⌋ + 1
  else if ⌊x⌋ % 2 = 0 then ⌊x⌋ else ⌊x⌋ + 1

/-- The integer part of a number, towards zero. -/
def roundDown (x : α) : ℤ := if 0 ≤ x then ⌊x⌋ else -⌊-x⌋

/-- The nearest multiple of `e`, ties to the even one. -/
def quantize (e x : α) : α := roundHalfEven (x / e) * e

/-- What rounding to a multiple of `e` moves a number at most. -/
def halfQuantum (e : α) : α := e / 2

/-- The multiple of `e` next to `x` towards zero. -/
def quantizeDown (e x : α) : α := roundDown (x / e) * e

theorem roundHalfEven_nonneg {x : α} (hx : 0 ≤ x) : 0 ≤ roundHalfEven x := by
  have hfloor : 0 ≤ ⌊x⌋ := Int.floor_nonneg.mpr hx
  unfold roundHalfEven
  split_ifs <;> omega

theorem roundDown_of_nonneg {x : α} (hx : 0 ≤ x) : roundDown x = ⌊x⌋ := if_pos hx

variable [IsStrictOrderedRing α]

theorem roundDown_intCast (n : ℤ) : roundDown (n : α) = n := by
  rw [roundDown]
  split_ifs
  · exact Int.floor_intCast n
  · rw [← Int.cast_neg, Int.floor_intCast, neg_neg]

/-- Rounding a rounded number again keeps it. -/
theorem quantizeDown_idem {e : α} (he : e ≠ 0) (x : α) :
    quantizeDown e (quantizeDown e x) = quantizeDown e x := by
  rw [quantizeDown, quantizeDown, mul_div_cancel_right₀ _ he, roundDown_intCast]

theorem quantize_nonneg {e x : α} (he : 0 ≤ e) (hx : 0 ≤ x) : 0 ≤ quantize e x :=
  mul_nonneg (by exact_mod_cast roundHalfEven_nonneg (div_nonneg hx he)) he

theorem quantizeDown_nonpos {e x : α} (he : 0 ≤ e) (hx : x ≤ 0) : quantizeDown e x ≤ 0 := by
  have hq : x / e ≤ 0 := div_nonpos_of_nonpos_of_nonneg hx he
  refine mul_nonpos_of_nonpos_of_nonneg ?_ he
  rw [roundDown]
  split_ifs with h
  · rw [le_antisymm hq h]
    simp
  · have hfloor : 0 ≤ ⌊-(x / e)⌋ := Int.floor_nonneg.mpr (neg_nonneg.mpr hq)
    push_cast
    exact neg_nonpos.mpr (by exact_mod_cast hfloor)

theorem quantizeDown_mono {e x y : α} (he : 0 ≤ e) (hx : 0 ≤ x) (hxy : x ≤ y) :
    quantizeDown e x ≤ quantizeDown e y := by
  have hq : x / e ≤ y / e := div_le_div_of_nonneg_right hxy he
  rw [quantizeDown, quantizeDown, roundDown_of_nonneg (div_nonneg hx he),
    roundDown_of_nonneg (div_nonneg (hx.trans hxy) he)]
  exact mul_le_mul_of_nonneg_right (by exact_mod_cast Int.floor_mono hq) he

/-- Rounding a non-negative number towards zero does not enlarge it. -/
theorem quantizeDown_le {e x : α} (he : 0 < e) (hx : 0 ≤ x) : quantizeDown e x ≤ x := by
  rw [quantizeDown, roundDown_of_nonneg (div_nonneg hx he.le)]
  calc (⌊x / e⌋ : α) * e ≤ x / e * e := mul_le_mul_of_nonneg_right (Int.floor_le _) he.le
    _ = x := div_mul_cancel₀ x he.ne'

theorem quantizeDown_quantize {e : α} (he : e ≠ 0) (x : α) :
    quantizeDown e (quantize e x) = quantize e x := by
  rw [quantize, quantizeDown, mul_div_cancel_right₀ _ he, roundDown_intCast]

/-- A positive multiple of the quantum is within a number rounded towards zero when it is
within the number itself. -/
theorem quantize_le_quantizeDown_iff {e x y : α} (he : 0 < e) (hx : 0 < quantize e x) :
    quantize e x ≤ quantizeDown e y ↔ quantize e x ≤ y := by
  constructor
  · intro hle
    have hy : 0 ≤ y := by
      by_contra hneg
      exact absurd (hx.trans_le hle) (not_lt.mpr (quantizeDown_nonpos he.le (not_le.mp hneg).le))
    exact hle.trans (quantizeDown_le he hy)
  · intro hle
    rw [← quantizeDown_quantize he.ne' x]
    exact quantizeDown_mono he.le hx.le hle

/-! ### The error of rounding -/

theorem abs_roundHalfEven_sub_le (x : α) : |(roundHalfEven x : α) - x| ≤ 1 / 2 := by
  have hlow : (⌊x⌋ : α) ≤ x := Int.floor_le x
  have hhigh : x < ⌊x⌋ + 1 := Int.lt_floor_add_one x
  unfold roundHalfEven
  split_ifs with hdown hup heven
  · rw [abs_sub_comm, abs_of_nonneg (sub_nonneg.mpr hlow)]
    exact hdown.le
  · push_cast
    rw [abs_of_nonneg (by linarith)]
    linarith
  · rw [abs_sub_comm, abs_of_nonneg (sub_nonneg.mpr hlow)]
    exact not_lt.mp hup
  · push_cast
    rw [abs_of_nonneg (by linarith)]
    linarith

/-- Rounding to the nearest multiple moves by half a quantum at most. -/
theorem abs_quantize_sub_le {e : α} (he : 0 < e) (x : α) : |quantize e x - x| ≤ e / 2 := by
  have hunits : quantize e x - x = (roundHalfEven (x / e) - x / e) * e := by
    rw [quantize, sub_mul, div_mul_cancel₀ _ he.ne']
  rw [hunits, abs_mul, abs_of_pos he]
  calc |(roundHalfEven (x / e) : α) - x / e| * e
      ≤ 1 / 2 * e := mul_le_mul_of_nonneg_right (abs_roundHalfEven_sub_le _) he.le
    _ = e / 2 := by ring

/-- Rounding the numbers of a list moves their sum by half a quantum for each at most. -/
theorem abs_sum_quantize_sub_le {e : α} (he : 0 < e) (xs : List α) :
    |(xs.map (quantize e)).sum - xs.sum| ≤ xs.length * (e / 2) := by
  induction xs with
  | nil => simp
  | cons x xs ih =>
    have hsplit : ((x :: xs).map (quantize e)).sum - (x :: xs).sum =
        (quantize e x - x) + ((xs.map (quantize e)).sum - xs.sum) := by
      rw [List.map_cons, List.sum_cons, List.sum_cons]
      ring
    rw [hsplit]
    calc |(quantize e x - x) + ((xs.map (quantize e)).sum - xs.sum)|
        ≤ |quantize e x - x| + |(xs.map (quantize e)).sum - xs.sum| := abs_add_le _ _
      _ ≤ e / 2 + xs.length * (e / 2) := add_le_add (abs_quantize_sub_le he x) ih
      _ = (x :: xs).length * (e / 2) := by
        rw [List.length_cons]
        push_cast
        ring

/-- Rounding to the nearest integer keeps the order. -/
theorem roundHalfEven_mono {x y : α} (h : x ≤ y) : roundHalfEven x ≤ roundHalfEven y := by
  by_contra hlt
  have hx := abs_le.mp (abs_roundHalfEven_sub_le x)
  have hy := abs_le.mp (abs_roundHalfEven_sub_le y)
  have hgap : (roundHalfEven y : α) + 1 ≤ roundHalfEven x := by
    exact_mod_cast Int.add_one_le_iff.mpr (not_le.mp hlt)
  -- both are half a unit away, so the two numbers are one
  have hsame : x = y := le_antisymm h (by linarith [hx.2, hy.1])
  exact hlt (hsame ▸ le_rfl)

theorem quantize_mono {e x y : α} (he : 0 < e) (h : x ≤ y) : quantize e x ≤ quantize e y := by
  have hunits : x / e ≤ y / e := div_le_div_of_nonneg_right h he.le
  exact mul_le_mul_of_nonneg_right (by exact_mod_cast roundHalfEven_mono hunits) he.le

theorem roundHalfEven_intCast (n : ℤ) : roundHalfEven (n : α) = n := by
  have hhalf : (0 : α) < 1 / 2 := by norm_num
  rw [roundHalfEven, Int.floor_intCast, sub_self, if_pos hhalf]

theorem quantize_intCast_mul {e : α} (he : e ≠ 0) (n : ℤ) : quantize e (n * e) = n * e := by
  rw [quantize, mul_div_cancel_right₀ _ he, roundHalfEven_intCast]

/-- Rounding to the nearest integer is symmetric. -/
theorem roundHalfEven_neg (x : α) : roundHalfEven (-x) = -roundHalfEven x := by
  have hlow : (⌊x⌋ : α) ≤ x := Int.floor_le x
  have hhigh : x < ⌊x⌋ + 1 := Int.lt_floor_add_one x
  by_cases hint : x = ⌊x⌋
  · rw [hint, ← Int.cast_neg, roundHalfEven_intCast, roundHalfEven_intCast]
  · have hlow : (⌊x⌋ : α) < x := lt_of_le_of_ne hlow (Ne.symm hint)
    have hfloor : ⌊-x⌋ = -⌊x⌋ - 1 := by
      rw [Int.floor_eq_iff]
      push_cast
      constructor <;> linarith
    simp only [roundHalfEven, hfloor]
    push_cast
    split_ifs <;> first | omega | (exfalso; linarith)

/-- The sum of rounded numbers is rounded already. -/
theorem quantize_add_quantize {e : α} (he : e ≠ 0) (x y : α) :
    quantize e (quantize e x + quantize e y) = quantize e x + quantize e y := by
  have hunits : quantize e x + quantize e y =
      ((roundHalfEven (x / e) + roundHalfEven (y / e) : ℤ) : α) * e := by
    rw [quantize, quantize, Int.cast_add, add_mul]
  rw [hunits, quantize_intCast_mul he]

theorem quantize_sub_quantize {e : α} (he : e ≠ 0) (x y : α) :
    quantize e (quantize e x - quantize e y) = quantize e x - quantize e y := by
  have hunits : quantize e x - quantize e y =
      ((roundHalfEven (x / e) - roundHalfEven (y / e) : ℤ) : α) * e := by
    rw [quantize, quantize, Int.cast_sub, sub_mul]
  rw [hunits, quantize_intCast_mul he]

/-! ### The multiples of a quantum -/

/-- `x` is a multiple of `e`. -/
def OnGrid (e x : α) : Prop := ∃ n : ℤ, x = n * e

omit [LinearOrder α] [FloorRing α] [IsStrictOrderedRing α] in
theorem OnGrid.sub {e x y : α} (hx : OnGrid e x) (hy : OnGrid e y) : OnGrid e (x - y) := by
  obtain ⟨m, rfl⟩ := hx
  obtain ⟨n, rfl⟩ := hy
  exact ⟨m - n, by push_cast; ring⟩

omit [IsStrictOrderedRing α] in
theorem quantizeDown_onGrid (e x : α) : OnGrid e (quantizeDown e x) := ⟨roundDown (x / e), rfl⟩

/-- The multiples are the numbers that rounding keeps. -/
theorem onGrid_iff {e x : α} (he : e ≠ 0) : OnGrid e x ↔ quantizeDown e x = x := by
  constructor
  · rintro ⟨n, rfl⟩
    rw [quantizeDown, mul_div_cancel_right₀ _ he, roundDown_intCast]
  · intro hx
    exact hx ▸ quantizeDown_onGrid e x

/-- Rounding towards zero raises a negative number. -/
theorem le_quantizeDown_of_neg {e x : α} (he : 0 < e) (hx : x < 0) : x ≤ quantizeDown e x := by
  have hq : ¬ 0 ≤ x / e := not_le.mpr (div_neg_of_neg_of_pos hx he)
  rw [quantizeDown, roundDown, if_neg hq]
  push_cast
  calc x = -(-(x / e)) * e := by rw [neg_neg, div_mul_cancel₀ x he.ne']
    _ ≤ -(⌊-(x / e)⌋ : α) * e :=
        mul_le_mul_of_nonneg_right (neg_le_neg (Int.floor_le _)) he.le

/-- Rounding towards zero passes over no multiple below a number. -/
theorem OnGrid.le_quantizeDown {e x y : α} (he : 0 < e) (hx : OnGrid e x) (hxy : x ≤ y) :
    x ≤ quantizeDown e y := by
  rcases lt_or_ge y 0 with hy | hy
  · exact hxy.trans (le_quantizeDown_of_neg he hy)
  rcases lt_or_ge x 0 with hneg | hpos
  · have hfloor : 0 ≤ ⌊y / e⌋ := Int.floor_nonneg.mpr (div_nonneg hy he.le)
    rw [quantizeDown, roundDown_of_nonneg (div_nonneg hy he.le)]
    exact hneg.le.trans (mul_nonneg (by exact_mod_cast hfloor) he.le)
  · rw [← (onGrid_iff he.ne').mp hx]
    exact quantizeDown_mono he.le hpos hxy

end Quantize
