import Mathlib.Data.Int.Log
import Mathlib.Algebra.Order.Ring.Rat
import Mathlib.Data.Rat.Floor
import Mathlib.Tactic.Positivity
import Atlas.Lib.Quantize

/-!
# Arithmetic that rounds every result

A program that computes with a fixed number of digits rounds the exact result of every
operation.  What its results say is proved for any such arithmetic: the rounding keeps the
order and the sign, gives a rounded number back, and moves a number by a fraction of itself
at most.  The exact arithmetic is the one that does not move any.

A value that has been computed is compared with the exact one by counting roundings: after
`n` of them it is within `(1 + u) ^ n - 1` of the size of what has been computed with, where
`u` is the error of one.

The exponents have no limit here.  Only rounding to a given quantum is refused, where the
result has more digits than the arithmetic.

## Main definitions

* `roundDigits p x` — the number of `p` digits next to `x`.
* `Arithmetic` — a rounding, with its laws.
* `Arithmetic.exact`, `Arithmetic.digits` — no rounding, and rounding to a number of digits;
  `Arithmetic.decimal28` is that of decimals by default.
* `Arithmetic.add`, `sub`, `mul`, `div`, `sum` — the rounded operations.
* `Arithmetic.quantize`, `quantizeDown` — rounding to a quantum, where it is not refused.
* `Arithmetic.Approx n M a b` — `a` is `b` up to `n` roundings of the size `M`.

## Main results

* `roundDigits_mono`, `roundDigits_idem`, `abs_roundDigits_sub_le` — the laws of rounding to
  a number of digits.
* `Approx.round`, `Approx.add`, `Approx.mul`, `Approx.sum` — **how roundings add up**.
* `sum_filter_pos_add_neg`, `sum_filter_pos_sub_neg` — a sum by the sign of its numbers.
-/

open Quantize

section Digits

variable {α : Type*} [Field α] [LinearOrder α] [IsStrictOrderedRing α] [FloorRing α] {p : ℕ}
  {x y : α}

/-- The number of `p` significant digits next to `x`, ties to the even one. -/
def roundDigits (p : ℕ) (x : α) : α :=
  if x = 0 then 0 else quantize (10 ^ (Int.log 10 |x| + 1 - p)) x

omit [IsStrictOrderedRing α] in
@[simp] theorem roundDigits_zero : roundDigits p (0 : α) = 0 := if_pos rfl

omit [IsStrictOrderedRing α] in
theorem roundDigits_of_ne (hx : x ≠ 0) :
    roundDigits p x = quantize (10 ^ (Int.log 10 |x| + 1 - p)) x := if_neg hx

theorem zpow_ten_pos (k : ℤ) : (0 : α) < 10 ^ k := zpow_pos (by norm_num) k

theorem roundDigits_neg (x : α) : roundDigits p (-x) = -roundDigits p x := by
  by_cases hx : x = 0
  · rw [hx, neg_zero, roundDigits_zero, neg_zero]
  · rw [roundDigits_of_ne hx, roundDigits_of_ne (neg_ne_zero.mpr hx), abs_neg, quantize, quantize,
      neg_div, roundHalfEven_neg, Int.cast_neg, neg_mul]

/-- A multiple of the quantum that has not more digits is kept. -/
theorem quantize_zpow_mul {k l : ℤ} (hkl : l ≤ k) (n : ℤ) :
    quantize (10 ^ l) ((n : α) * 10 ^ k) = n * 10 ^ k := by
  obtain ⟨j, hj⟩ : ∃ j : ℕ, k = j + l := ⟨(k - l).toNat, by omega⟩
  have hgrid : (n : α) * 10 ^ k = ((n * 10 ^ j : ℤ) : α) * 10 ^ l := by
    rw [hj, zpow_add₀ (by norm_num), zpow_natCast]
    push_cast
    ring
  rw [hgrid, quantize_intCast_mul (zpow_ten_pos l).ne']

/-- A number of `p` digits is kept. -/
theorem roundDigits_kept (k : ℤ) {n : ℤ} (hn : n.natAbs < 10 ^ p) :
    roundDigits p (n * 10 ^ k : α) = n * 10 ^ k := by
  by_cases hzero : n = 0
  · simp [hzero]
  · have hx : (n * 10 ^ k : α) ≠ 0 :=
      mul_ne_zero (by exact_mod_cast hzero) (zpow_ten_pos k).ne'
    -- the quantum is no more than the unit of the number
    have hlog : Int.log 10 |(n * 10 ^ k : α)| < k + p := by
      refine (Int.lt_zpow_iff_log_lt (by norm_num) (abs_pos.mpr hx)).mp ?_
      have hdigits : |(n : α)| < 10 ^ p := by
        rw [← Int.cast_abs, Int.abs_eq_natAbs]
        exact_mod_cast hn
      push_cast
      rw [abs_mul, abs_of_pos (zpow_ten_pos k : (0 : α) < 10 ^ k), zpow_add₀ (by norm_num),
        zpow_natCast, mul_comm]
      exact mul_lt_mul_of_pos_left hdigits (zpow_ten_pos k)
    rw [roundDigits_of_ne hx]
    exact quantize_zpow_mul (by omega) n

theorem zpow_log_le (hx : x ≠ 0) : (10 : α) ^ Int.log 10 |x| ≤ |x| := by
  exact_mod_cast Int.zpow_log_le_self (b := 10) (by norm_num) (abs_pos.mpr hx)

theorem lt_zpow_log (x : α) : |x| < (10 : α) ^ (Int.log 10 |x| + 1) := by
  exact_mod_cast Int.lt_zpow_succ_log_self (b := 10) (by norm_num) |x|

/-- A positive number is rounded to the interval between its powers of ten. -/
theorem roundDigits_mem (hp : 0 < p) (hx : 0 < x) :
    (10 : α) ^ Int.log 10 |x| ≤ roundDigits p x ∧
      roundDigits p x ≤ 10 ^ (Int.log 10 |x| + 1) := by
  have hlow : (10 : α) ^ Int.log 10 |x| ≤ x := (zpow_log_le hx.ne').trans_eq (abs_of_pos hx)
  have hhigh : x ≤ 10 ^ (Int.log 10 |x| + 1) := (le_abs_self x).trans (lt_zpow_log x).le
  have hkept : ∀ k : ℤ, Int.log 10 |x| ≤ k →
      quantize (10 ^ (Int.log 10 |x| + 1 - p)) (10 ^ k : α) = 10 ^ k := by
    intro k hk
    have h := @quantize_zpow_mul α _ _ _ _ k (Int.log 10 |x| + 1 - p) (by omega) 1
    rwa [Int.cast_one, one_mul] at h
  rw [roundDigits_of_ne hx.ne']
  exact ⟨(hkept _ le_rfl).symm.trans_le (quantize_mono (zpow_ten_pos _) hlow),
    (quantize_mono (zpow_ten_pos _) hhigh).trans_eq (hkept _ (by omega))⟩

theorem roundDigits_pos (hp : 0 < p) (hx : 0 < x) : 0 < roundDigits p x :=
  (zpow_ten_pos _).trans_le (roundDigits_mem hp hx).1

/-- Rounding to a number of digits keeps the order of positive numbers. -/
theorem roundDigits_mono_pos (hp : 0 < p) (hx : 0 < x) (h : x ≤ y) :
    roundDigits p x ≤ roundDigits p y := by
  have hy : 0 < y := hx.trans_le h
  have hlog : Int.log 10 |x| ≤ Int.log 10 |y| := by
    rw [abs_of_pos hx, abs_of_pos hy]
    exact Int.log_mono_right hx h
  rcases hlog.lt_or_eq with hlt | heq
  · -- a power of ten lies between the two
    calc roundDigits p x ≤ 10 ^ (Int.log 10 |x| + 1) := (roundDigits_mem hp hx).2
      _ ≤ 10 ^ Int.log 10 |y| := zpow_le_zpow_right₀ (by norm_num) (by omega)
      _ ≤ roundDigits p y := (roundDigits_mem hp hy).1
  · rw [roundDigits_of_ne hx.ne', roundDigits_of_ne hy.ne', heq]
    exact quantize_mono (zpow_ten_pos _) h

/-- **Rounding to a number of digits keeps the order.** -/
theorem roundDigits_mono (hp : 0 < p) (h : x ≤ y) : roundDigits p x ≤ roundDigits p y := by
  have hnonneg : ∀ z : α, 0 ≤ z → 0 ≤ roundDigits p z := by
    intro z hz
    rcases hz.eq_or_lt with rfl | hz
    · rw [roundDigits_zero]
    · exact (roundDigits_pos hp hz).le
  rcases lt_or_ge 0 x with hx | hx
  · exact roundDigits_mono_pos hp hx h
  rcases lt_or_ge y 0 with hy | hy
  · have hneg := roundDigits_mono_pos hp (neg_pos.mpr hy) (neg_le_neg h)
    rw [roundDigits_neg, roundDigits_neg] at hneg
    exact neg_le_neg_iff.mp hneg
  · have hneg := hnonneg (-x) (neg_nonneg.mpr hx)
    rw [roundDigits_neg] at hneg
    exact (neg_nonneg.mp hneg).trans (hnonneg y hy)

/-- **Rounding to a number of digits moves a number by half a unit of its last digit at most.** -/
theorem abs_roundDigits_sub_le (p : ℕ) (x : α) :
    |roundDigits p x - x| ≤ 10 ^ (1 - p : ℤ) / 2 * |x| := by
  by_cases hx : x = 0
  · simp [hx]
  · rw [roundDigits_of_ne hx]
    calc |quantize (10 ^ (Int.log 10 |x| + 1 - p)) x - x|
        ≤ 10 ^ (Int.log 10 |x| + 1 - p) / 2 := abs_quantize_sub_le (zpow_ten_pos _) x
      _ = 10 ^ (1 - p : ℤ) / 2 * 10 ^ Int.log 10 |x| := by
        rw [show Int.log 10 |x| + 1 - p = (1 - p : ℤ) + Int.log 10 |x| by ring,
          zpow_add₀ (by norm_num)]
        ring
      _ ≤ 10 ^ (1 - p : ℤ) / 2 * |x| :=
        mul_le_mul_of_nonneg_left (zpow_log_le hx) (half_pos (zpow_ten_pos _)).le

/-- A rounded number is kept. -/
theorem roundDigits_idem (hp : 0 < p) (x : α) :
    roundDigits p (roundDigits p x) = roundDigits p x := by
  have hpos : ∀ x : α, 0 < x → roundDigits p (roundDigits p x) = roundDigits p x := by
    intro x hx
    obtain ⟨hlow, hhigh⟩ := roundDigits_mem hp hx
    rcases hhigh.lt_or_eq with hlt | heq
    · -- the rounded number has the same quantum
      have hr : 0 < roundDigits p x := roundDigits_pos hp hx
      have hlog : Int.log 10 |roundDigits p x| = Int.log 10 |x| := by
        rw [abs_of_pos hr]
        refine le_antisymm ?_ ?_
        · refine Int.lt_add_one_iff.mp ((Int.lt_zpow_iff_log_lt (by norm_num) hr).mp ?_)
          exact_mod_cast hlt
        · exact (Int.zpow_le_iff_le_log (by norm_num) hr).mp (by exact_mod_cast hlow)
      rw [roundDigits_of_ne hr.ne', hlog, roundDigits_of_ne hx.ne']
      exact quantize_intCast_mul (zpow_ten_pos _).ne' _
    · have hpower := @roundDigits_kept α _ _ _ _ p (Int.log 10 |x| + 1) 1
        (Nat.one_lt_pow hp.ne' (by norm_num))
      rw [Int.cast_one, one_mul] at hpower
      rw [heq, hpower]
  rcases lt_trichotomy x 0 with hx | rfl | hx
  · have hneg := hpos (-x) (neg_pos.mpr hx)
    rw [roundDigits_neg, roundDigits_neg] at hneg
    exact neg_inj.mp hneg
  · rw [roundDigits_zero, roundDigits_zero]
  · exact hpos x hx

end Digits

/-- An arithmetic that rounds its results, with a relative error of `error` at most.  Numbers of
fewer than `capacity` units of some power of ten are kept, if there is a capacity, and all
numbers otherwise. -/
structure Arithmetic (α : Type*) [Field α] [LinearOrder α] where
  round : α → α
  error : α
  capacity : Option ℕ
  error_nonneg : 0 ≤ error
  error_le : error ≤ 1 / 10
  capacity_large : ∀ c ∈ capacity, 10 < c
  round_mono : ∀ {x y}, x ≤ y → round x ≤ round y
  round_neg : ∀ x, round (-x) = -round x
  round_idem : ∀ x, round (round x) = round x
  round_kept : ∀ (k n : ℤ), (∀ c ∈ capacity, n.natAbs < c) → round (n * 10 ^ k) = n * 10 ^ k
  abs_round_sub_le : ∀ x, |round x - x| ≤ error * |x|

namespace Arithmetic

variable {α : Type*} [Field α] [LinearOrder α] [IsStrictOrderedRing α]

/-- Nothing is rounded. -/
def exact : Arithmetic α where
  round := id
  error := 0
  capacity := none
  error_nonneg := le_rfl
  error_le := by norm_num
  capacity_large _ hc := by cases hc
  round_mono := id
  round_neg _ := rfl
  round_idem _ := rfl
  round_kept _ _ _ := rfl
  abs_round_sub_le x := by simp

theorem half_unit_nonneg (p : ℕ) : 0 ≤ halfQuantum ((10 : α) ^ (1 - p : ℤ)) :=
  (half_pos (zpow_pos (by norm_num) _)).le

/-- Half a unit of the second digit or a later one is no more than a tenth. -/
theorem half_unit_le {p : ℕ} (hp : 1 < p) : halfQuantum ((10 : α) ^ (1 - p : ℤ)) ≤ 1 / 10 := by
  have hle : (10 : α) ^ (1 - p : ℤ) ≤ 10 ^ (-1 : ℤ) :=
    zpow_le_zpow_right₀ (by norm_num) (by omega)
  norm_num at hle
  rw [halfQuantum]
  linarith

theorem ten_lt_capacity {p : ℕ} (hp : 1 < p) (c : ℕ) (hc : c ∈ some (10 ^ p)) : 10 < c := by
  rw [← Option.some.inj hc]
  exact (Nat.pow_lt_pow_iff_right (a := 10) (n := 1) (by norm_num)).mpr hp

/-- Every result is rounded to `p` digits. -/
def digits [FloorRing α] (p : ℕ) (hp : 1 < p) : Arithmetic α where
  round := roundDigits p
  error := halfQuantum (10 ^ (1 - p : ℤ))
  capacity := some (10 ^ p)
  error_nonneg := half_unit_nonneg p
  error_le := half_unit_le hp
  capacity_large := ten_lt_capacity hp
  round_mono := roundDigits_mono (Nat.zero_lt_of_lt hp)
  round_neg := roundDigits_neg
  round_idem := roundDigits_idem (Nat.zero_lt_of_lt hp)
  round_kept k _ hn := roundDigits_kept k (hn _ rfl)
  abs_round_sub_le := abs_roundDigits_sub_le p

variable (A : Arithmetic α) {x y : α}

/-! ### Operations -/

section Operations

omit [IsStrictOrderedRing α]

def add (x y : α) : α := A.round (x + y)

def sub (x y : α) : α := A.round (x - y)

def mul (x y : α) : α := A.round (x * y)

def div (x y : α) : α := A.round (x / y)

/-- The numbers of a list are added up from zero. -/
def sum (xs : List α) : α := xs.foldl A.add 0

/-- Whether a number of quanta is within the capacity. -/
def Holds (n : ℤ) : Prop := ∀ c ∈ A.capacity, n.natAbs < c

instance (n : ℤ) : Decidable (A.Holds n) :=
  inferInstanceAs (Decidable (∀ c ∈ A.capacity, n.natAbs < c))

/-- Rounding to a quantum, ties to the even multiple. -/
def quantize [FloorRing α] (e x : α) : Option α :=
  if A.Holds (roundHalfEven (x / e)) then some (Quantize.quantize e x) else none

/-- Rounding to a quantum, towards zero. -/
def quantizeDown [FloorRing α] (e x : α) : Option α :=
  if A.Holds (roundDown (x / e)) then some (Quantize.quantizeDown e x) else none

end Operations

section Exact

@[simp] theorem exact_round (x : α) : (exact : Arithmetic α).round x = x := rfl

@[simp] theorem exact_error : (exact : Arithmetic α).error = 0 := rfl

@[simp] theorem exact_add (x y : α) : exact.add x y = x + y := rfl

@[simp] theorem exact_sub (x y : α) : exact.sub x y = x - y := rfl

@[simp] theorem exact_mul (x y : α) : exact.mul x y = x * y := rfl

@[simp] theorem exact_div (x y : α) : exact.div x y = x / y := rfl

@[simp] theorem exact_sum (xs : List α) : exact.sum xs = xs.sum := by
  show xs.foldl (· + ·) 0 = xs.sum
  rw [← List.sum_eq_foldl]

theorem exact_holds (n : ℤ) : (exact : Arithmetic α).Holds n := fun _ hc => by cases hc

@[simp] theorem exact_quantize [FloorRing α] (e x : α) :
    exact.quantize e x = some (Quantize.quantize e x) := if_pos (exact_holds _)

@[simp] theorem exact_quantizeDown [FloorRing α] (e x : α) :
    exact.quantizeDown e x = some (Quantize.quantizeDown e x) := if_pos (exact_holds _)

end Exact

/-! ### Signs and order -/

@[simp] theorem round_zero : A.round 0 = 0 := by
  have h := A.abs_round_sub_le 0
  rw [abs_zero, mul_zero, sub_zero] at h
  exact abs_nonpos_iff.mp h

theorem round_nonneg (hx : 0 ≤ x) : 0 ≤ A.round x := by
  simpa using A.round_mono hx

theorem round_nonpos (hx : x ≤ 0) : A.round x ≤ 0 := by
  simpa using A.round_mono hx

theorem error_lt_one : A.error < 1 := A.error_le.trans_lt (by norm_num)

omit [IsStrictOrderedRing α] in
/-- Small numbers are kept. -/
theorem round_natCast {n : ℕ} (hn : n ≤ 10) : A.round n = n := by
  have h := A.round_kept 0 n fun c hc => hn.trans_lt (A.capacity_large c hc)
  simpa using h

omit [IsStrictOrderedRing α] in
@[simp] theorem round_one : A.round 1 = 1 := by
  exact_mod_cast A.round_natCast (n := 1) (by norm_num)

omit [IsStrictOrderedRing α] in
theorem round_hundred : A.round 100 = 100 := by
  have h := A.round_kept 2 1 fun c hc =>
    (by norm_num : (1 : ℤ).natAbs < 10).trans (A.capacity_large c hc)
  norm_num at h
  exact h

/-- Rounding does not lose the sign of a number. -/
theorem round_pos (hx : 0 < x) : 0 < A.round x := by
  have hmoved := abs_le.mp (A.abs_round_sub_le x)
  rw [abs_of_pos hx] at hmoved
  have hless : A.error * x < x := (mul_lt_iff_lt_one_left hx).mpr A.error_lt_one
  linarith [hmoved.1]

theorem round_pos_iff : 0 < A.round x ↔ 0 < x := by
  refine ⟨fun h => ?_, A.round_pos⟩
  by_contra hx
  exact absurd h (not_lt.mpr (A.round_nonpos (not_lt.mp hx)))

theorem round_eq_zero_iff : A.round x = 0 ↔ x = 0 := by
  refine ⟨fun h => ?_, fun h => h ▸ A.round_zero⟩
  rcases lt_trichotomy x 0 with hx | hx | hx
  · have hpos := A.round_pos (neg_pos.mpr hx)
    rw [A.round_neg, h, neg_zero] at hpos
    exact absurd hpos (lt_irrefl _)
  · exact hx
  · exact absurd h (A.round_pos hx).ne'

theorem abs_round (x : α) : |A.round x| = A.round |x| := by
  rcases le_total 0 x with hx | hx
  · rw [abs_of_nonneg hx, abs_of_nonneg (A.round_nonneg hx)]
  · rw [abs_of_nonpos hx, abs_of_nonpos (A.round_nonpos hx), A.round_neg]

protected theorem add_nonneg (hx : 0 ≤ x) (hy : 0 ≤ y) : 0 ≤ A.add x y :=
  A.round_nonneg (add_nonneg hx hy)

protected theorem mul_nonneg (hx : 0 ≤ x) (hy : 0 ≤ y) : 0 ≤ A.mul x y :=
  A.round_nonneg (mul_nonneg hx hy)

protected theorem div_nonneg (hx : 0 ≤ x) (hy : 0 ≤ y) : 0 ≤ A.div x y :=
  A.round_nonneg (div_nonneg hx hy)

/-- A share of no more than the whole. -/
protected theorem div_le_one (hy : 0 ≤ y) (h : x ≤ y) : A.div x y ≤ 1 :=
  (A.round_mono (div_le_one_of_le₀ h hy)).trans_eq A.round_one

protected theorem sub_nonneg (h : y ≤ x) : 0 ≤ A.sub x y := A.round_nonneg (sub_nonneg.mpr h)

theorem foldl_add_nonneg {xs : List α} (hxs : ∀ x ∈ xs, 0 ≤ x) : ∀ {a : α}, 0 ≤ a →
    0 ≤ xs.foldl A.add a := by
  induction xs with
  | nil => exact fun ha => ha
  | cons x xs ih =>
    intro a ha
    exact ih (fun y hy => hxs y (List.mem_cons_of_mem _ hy))
      (A.add_nonneg ha (hxs x (List.mem_cons_self ..)))

theorem sum_nonneg {xs : List α} (hxs : ∀ x ∈ xs, 0 ≤ x) : 0 ≤ A.sum xs :=
  A.foldl_add_nonneg hxs le_rfl

omit [IsStrictOrderedRing α] in
theorem foldl_add_neg (xs : List α) (a : α) :
    (xs.map (-·)).foldl A.add (-a) = -xs.foldl A.add a := by
  induction xs generalizing a with
  | nil => rfl
  | cons x xs ih =>
    rw [List.map_cons, List.foldl_cons, List.foldl_cons, ← ih, add, add, ← neg_add, round_neg]

omit [IsStrictOrderedRing α] in
theorem sum_map_neg (xs : List α) : A.sum (xs.map (-·)) = -A.sum xs := by
  simpa [sum] using A.foldl_add_neg xs 0

theorem sum_nonpos {xs : List α} (hxs : ∀ x ∈ xs, x ≤ 0) : A.sum xs ≤ 0 := by
  have h := @sum_nonneg α _ _ _ A (xs.map (-·))
    (List.forall_mem_map.mpr fun x hx => neg_nonneg.mpr (hxs x hx))
  rwa [sum_map_neg, neg_nonneg] at h

theorem foldl_add_eq_zero_iff {xs : List α} (hxs : ∀ x ∈ xs, 0 ≤ x) : ∀ {a : α}, 0 ≤ a →
    (xs.foldl A.add a = 0 ↔ a = 0 ∧ ∀ x ∈ xs, x = 0) := by
  induction xs with
  | nil => exact fun _ => by simp
  | cons x xs ih =>
    intro a ha
    have hx : 0 ≤ x := hxs x (List.mem_cons_self ..)
    rw [List.foldl_cons, ih (fun y hy => hxs y (List.mem_cons_of_mem _ hy))
      (A.add_nonneg ha hx), add, round_eq_zero_iff, add_eq_zero_iff_of_nonneg ha hx,
      List.forall_mem_cons, and_assoc]

/-- A sum of numbers that are not negative is zero only if all of them are. -/
theorem sum_eq_zero_iff {xs : List α} (hxs : ∀ x ∈ xs, 0 ≤ x) :
    A.sum xs = 0 ↔ ∀ x ∈ xs, x = 0 := by
  rw [sum, A.foldl_add_eq_zero_iff hxs le_rfl]
  exact and_iff_right rfl

/-! ### Counting roundings -/

/-- What `n` roundings move a number of the size one at most. -/
def drift (n : ℕ) : α := (1 + A.error) ^ n - 1

omit [IsStrictOrderedRing α] in
@[simp] theorem drift_zero : A.drift 0 = 0 := by rw [drift, pow_zero, sub_self]

@[simp] theorem exact_drift (n : ℕ) : (exact : Arithmetic α).drift n = 0 := by
  rw [drift, exact_error, add_zero, one_pow, sub_self]

theorem drift_nonneg (n : ℕ) : 0 ≤ A.drift n :=
  sub_nonneg.mpr (one_le_pow₀ (le_add_of_nonneg_right A.error_nonneg))

theorem drift_mono {m n : ℕ} (h : m ≤ n) : A.drift m ≤ A.drift n :=
  sub_le_sub_right (pow_le_pow_right₀ (le_add_of_nonneg_right A.error_nonneg) h) 1

omit [IsStrictOrderedRing α] in
theorem drift_succ (n : ℕ) : A.drift (n + 1) = A.drift n + A.error * (1 + A.drift n) := by
  simp only [drift, pow_succ]
  ring

omit [IsStrictOrderedRing α] in
theorem drift_add (m n : ℕ) : A.drift (m + n) = A.drift m * (1 + A.drift n) + A.drift n := by
  simp only [drift, pow_add]
  ring

theorem drift_add_le (m n : ℕ) : A.drift m + A.drift n ≤ A.drift (m + n) := by
  rw [drift_add]
  linarith [mul_nonneg (A.drift_nonneg m) (A.drift_nonneg n)]

/-- `a` is `b` up to `n` roundings of numbers of the size `M`. -/
structure Approx (n : ℕ) (M a b : α) : Prop where
  size : |b| ≤ M
  near : |a - b| ≤ A.drift n * M

namespace Approx

variable {A} {m n : ℕ} {M N a b c d : α}

theorem refl (h : |b| ≤ M) : A.Approx 0 M b b := ⟨h, by simp⟩

theorem nonneg (h : A.Approx n M a b) : 0 ≤ M := (abs_nonneg b).trans h.size

theorem mono (h : A.Approx m M a b) (hmn : m ≤ n) (hMN : M ≤ N) : A.Approx n N a b where
  size := h.size.trans hMN
  near := h.near.trans (mul_le_mul (A.drift_mono hmn) hMN h.nonneg (A.drift_nonneg n))

/-- Two computations of one number. -/
theorem abs_sub_computed_le (h : A.Approx m M a b) (h' : A.Approx n M c b) :
    |a - c| ≤ A.drift (m + n) * M := by
  calc |a - c| ≤ |a - b| + |b - c| := abs_sub_le a b c
    _ ≤ A.drift m * M + A.drift n * M := add_le_add h.near ((abs_sub_comm b c).trans_le h'.near)
    _ = (A.drift m + A.drift n) * M := by ring
    _ ≤ A.drift (m + n) * M := mul_le_mul_of_nonneg_right (A.drift_add_le m n) h.nonneg

/-- The computed number is not much larger. -/
theorem abs_computed_le (h : A.Approx n M a b) : |a| ≤ (1 + A.drift n) * M := by
  calc |a| = |(a - b) + b| := by rw [sub_add_cancel]
    _ ≤ |a - b| + |b| := abs_add_le _ _
    _ ≤ A.drift n * M + M := add_le_add h.near h.size
    _ = (1 + A.drift n) * M := by ring

/-- **One more rounding.** -/
theorem round (h : A.Approx n M a b) : A.Approx (n + 1) M (A.round a) b where
  size := h.size
  near := by
    calc |A.round a - b| = |(A.round a - a) + (a - b)| := by rw [sub_add_sub_cancel]
      _ ≤ |A.round a - a| + |a - b| := abs_add_le _ _
      _ ≤ A.error * ((1 + A.drift n) * M) + A.drift n * M :=
        add_le_add ((A.abs_round_sub_le a).trans
          (mul_le_mul_of_nonneg_left h.abs_computed_le A.error_nonneg)) h.near
      _ = A.drift (n + 1) * M := by rw [drift_succ]; ring

omit [IsStrictOrderedRing α] in
theorem neg (h : A.Approx n M a b) : A.Approx n M (-a) (-b) where
  size := by rw [abs_neg]; exact h.size
  near := by rw [neg_sub_neg, abs_sub_comm]; exact h.near

theorem add (h : A.Approx n M a b) (h' : A.Approx n N c d) :
    A.Approx n (M + N) (a + c) (b + d) where
  size := (abs_add_le _ _).trans (add_le_add h.size h'.size)
  near := by
    calc |a + c - (b + d)| = |(a - b) + (c - d)| := by rw [add_sub_add_comm]
      _ ≤ |a - b| + |c - d| := abs_add_le _ _
      _ ≤ A.drift n * M + A.drift n * N := add_le_add h.near h'.near
      _ = A.drift n * (M + N) := by ring

theorem sub (h : A.Approx n M a b) (h' : A.Approx n N c d) :
    A.Approx n (M + N) (a - c) (b - d) := by
  rw [sub_eq_add_neg, sub_eq_add_neg]
  exact h.add h'.neg

theorem mul (h : A.Approx m M a b) (h' : A.Approx n N c d) :
    A.Approx (m + n) (M * N) (a * c) (b * d) where
  size := by
    rw [abs_mul]
    exact mul_le_mul h.size h'.size (abs_nonneg d) h.nonneg
  near := by
    have hsplit : a * c - b * d = (a - b) * c + b * (c - d) := by ring
    calc |a * c - b * d| ≤ |a - b| * |c| + |b| * |c - d| := by
          rw [hsplit, ← abs_mul, ← abs_mul]
          exact abs_add_le _ _
      _ ≤ A.drift m * M * ((1 + A.drift n) * N) + M * (A.drift n * N) :=
        add_le_add
          (mul_le_mul h.near h'.abs_computed_le (abs_nonneg c)
            (mul_nonneg (A.drift_nonneg m) h.nonneg))
          (mul_le_mul h.size h'.near (abs_nonneg _) h.nonneg)
      _ = A.drift (m + n) * (M * N) := by rw [drift_add]; ring

/-- A known number divides. -/
theorem div_const (h : A.Approx n M a b) (c : α) : A.Approx n (M / |c|) (a / c) (b / c) where
  size := by
    rw [abs_div]
    exact div_le_div_of_nonneg_right h.size (abs_nonneg c)
  near := by
    rw [← sub_div, abs_div, ← mul_div_assoc]
    exact div_le_div_of_nonneg_right h.near (abs_nonneg c)

/-- A number that is rounded itself divides. -/
theorem div_round (h : A.Approx n M a b) (hc : 0 < c) :
    A.Approx (n + 2) (M / c) (a / A.round c) (b / c) := by
  have hround : 0 < A.round c := A.round_pos hc
  have hratio : A.Approx 2 1 (c / A.round c) 1 := by
    refine ⟨by rw [abs_one], ?_⟩
    have hmoved := abs_le.mp (A.abs_round_sub_le c)
    rw [abs_of_pos hc] at hmoved
    have hlow : c * (1 - A.error) ≤ A.round c := by linarith [hmoved.1]
    have herror := A.error_nonneg
    have hsmall := A.error_le
    have hsize : |c - A.round c| ≤ A.error * c := by
      rw [abs_sub_comm]
      exact abs_le.mpr hmoved
    rw [mul_one, div_sub_one hround.ne', abs_div, abs_of_pos hround, div_le_iff₀ hround, drift]
    calc |c - A.round c| ≤ A.error * c := hsize
      _ ≤ ((1 + A.error) ^ 2 - 1) * (c * (1 - A.error)) := by
        have hrest : 0 ≤ A.error * (1 - A.error - A.error ^ 2) :=
          mul_nonneg herror (by nlinarith)
        have hfactor : A.error ≤ ((1 + A.error) ^ 2 - 1) * (1 - A.error) := by linarith
        calc A.error * c ≤ ((1 + A.error) ^ 2 - 1) * (1 - A.error) * c :=
              mul_le_mul_of_nonneg_right hfactor hc.le
          _ = ((1 + A.error) ^ 2 - 1) * (c * (1 - A.error)) := by ring
      _ ≤ ((1 + A.error) ^ 2 - 1) * A.round c :=
        mul_le_mul_of_nonneg_left hlow (by nlinarith)
  have hproduct := (h.div_const c).mul hratio
  rw [abs_of_pos hc, mul_one, mul_one, div_mul_div_cancel₀ hc.ne'] at hproduct
  exact hproduct

/-- **A sum is rounded once for each of its numbers.** -/
theorem foldl {ι : Type*} {f g size : ι → α} (is : List ι)
    (h : ∀ i ∈ is, A.Approx n (size i) (f i) (g i)) : ∀ {m : ℕ} {a b M : α}, n ≤ m →
    A.Approx m M a b →
    A.Approx (m + is.length) (M + (is.map size).sum) ((is.map f).foldl A.add a)
      (b + (is.map g).sum) := by
  induction is with
  | nil =>
    intro m a b M _ hab
    simpa using hab
  | cons i is ih =>
    intro m a b M hnm hab
    have hi : A.Approx m (size i) (f i) (g i) :=
      (h i (List.mem_cons_self ..)).mono hnm le_rfl
    have hrest := ih (fun j hj => h j (List.mem_cons_of_mem _ hj)) (hnm.trans (Nat.le_succ m))
      (hab.add hi).round
    have hcount : m + (is.length + 1) = m + 1 + is.length := by omega
    simp only [List.map_cons, List.foldl_cons, List.sum_cons, List.length_cons]
    rw [hcount, ← add_assoc M, ← add_assoc b]
    exact hrest

theorem sum {ι : Type*} {f g size : ι → α} {is : List ι}
    (h : ∀ i ∈ is, A.Approx n (size i) (f i) (g i)) :
    A.Approx (n + is.length) (is.map size).sum (A.sum (is.map f)) (is.map g).sum := by
  have hzero : A.Approx n 0 0 (0 : α) := (refl (by simp)).mono (Nat.zero_le n) le_rfl
  simpa [Arithmetic.sum] using foldl is h le_rfl hzero

/-- Numbers that are not added up by the arithmetic. -/
theorem list_sum {ι : Type*} {f g size : ι → α} {is : List ι}
    (h : ∀ i ∈ is, A.Approx n (size i) (f i) (g i)) :
    A.Approx n (is.map size).sum (is.map f).sum (is.map g).sum := by
  induction is with
  | nil => simpa using (refl (by simp)).mono (Nat.zero_le n) le_rfl
  | cons i is ih =>
    simp only [List.map_cons, List.sum_cons]
    exact (h i (List.mem_cons_self ..)).add (ih fun j hj => h j (List.mem_cons_of_mem _ hj))

end Approx

/-- A number is what it is rounded to, but for two roundings of that. -/
theorem abs_sub_round_le (x : α) : |x - A.round x| ≤ A.drift 2 * |A.round x| := by
  have herror := A.error_nonneg
  have hsmall := A.error_le
  have hmoved := A.abs_round_sub_le x
  rw [abs_sub_comm] at hmoved
  have hsize : |x| * (1 - A.error) ≤ |A.round x| := by
    have h := abs_sub_abs_le_abs_sub x (A.round x)
    linarith
  have hfactor : A.error ≤ A.drift 2 * (1 - A.error) := by
    have hrest : 0 ≤ A.error * (1 - A.error - A.error ^ 2) :=
      mul_nonneg herror (by nlinarith)
    rw [drift]
    linarith
  calc |x - A.round x| ≤ A.error * |x| := hmoved
    _ ≤ A.drift 2 * (1 - A.error) * |x| := mul_le_mul_of_nonneg_right hfactor (abs_nonneg x)
    _ = A.drift 2 * (|x| * (1 - A.error)) := by ring
    _ ≤ A.drift 2 * |A.round x| := mul_le_mul_of_nonneg_left hsize (A.drift_nonneg 2)

theorem drift_two_lt : A.drift 2 < 1 := by
  have herror := A.error_nonneg
  have hsmall := A.error_le
  rw [drift]
  nlinarith

/-- What is below a bound after rounding is below it before, but for two roundings. -/
theorem le_of_round_le (h : A.round x ≤ y) : x ≤ y + A.drift 2 * |y| := by
  have hmoved := (abs_le.mp (A.abs_sub_round_le x)).2
  have hsize : |A.round x| - |y| ≤ y - A.round x := by
    have h' := abs_sub_abs_le_abs_sub (A.round x) y
    rwa [abs_sub_comm, abs_of_nonneg (sub_nonneg.mpr h)] at h'
  have hscaled := mul_le_mul_of_nonneg_left hsize (A.drift_nonneg 2)
  have hslack := mul_le_mul_of_nonneg_right A.drift_two_lt.le (sub_nonneg.mpr h)
  linarith

variable {A} in
/-- The same for a bound that has been computed. -/
theorem Approx.le_of_round_le {n : ℕ} {M a b : α} (h : A.Approx n M a b) (hx : A.round x ≤ a) :
    x ≤ b + A.drift (n + 2) * M := by
  calc x ≤ a + A.drift 2 * |a| := A.le_of_round_le hx
    _ ≤ (b + A.drift n * M) + A.drift 2 * ((1 + A.drift n) * M) := by
      have hnear := (abs_le.mp h.near).2
      have hscaled := mul_le_mul_of_nonneg_left h.abs_computed_le (A.drift_nonneg 2)
      linarith
    _ = b + A.drift (n + 2) * M := by rw [Nat.add_comm n 2, drift_add]; ring

variable {A} in
/-- What is within a computed bound, moved by a share of it, is within the exact bound, moved by
the share of the roundings of both. -/
theorem Approx.le_of_le_add {m n : ℕ} {L L' : α} (h : A.Approx m |L| L' L)
    (hx : x ≤ L' + A.drift n * |L'|) : x ≤ L + A.drift (m + n) * |L| := by
  have hnear := (abs_le.mp h.near).2
  have hsize := mul_le_mul_of_nonneg_left h.abs_computed_le (A.drift_nonneg n)
  calc x ≤ L' + A.drift n * |L'| := hx
    _ ≤ L + A.drift m * |L| + A.drift n * ((1 + A.drift m) * |L|) := by linarith
    _ = L + A.drift (m + n) * |L| := by rw [drift_add]; ring

variable {A} in
/-- And what is within the exact bound, tightened by the roundings of both, is within the
computed one. -/
theorem Approx.le_sub_of_le {m n : ℕ} {L L' : α} (h : A.Approx m |L| L' L)
    (hx : x ≤ L - A.drift (m + n) * |L|) : x ≤ L' - A.drift n * |L'| := by
  have hnear := (abs_le.mp h.near).1
  have hsize := mul_le_mul_of_nonneg_left h.abs_computed_le (A.drift_nonneg n)
  calc x ≤ L - A.drift (m + n) * |L| := hx
    _ = L - A.drift m * |L| - A.drift n * ((1 + A.drift m) * |L|) := by rw [drift_add]; ring
    _ ≤ L' - A.drift n * |L'| := by linarith

variable {A} in
/-- What is above a computed bound after rounding is above it before. -/
theorem Approx.lt_of_lt_round {n : ℕ} {M a b : α} (h : A.Approx n M a b) (hx : a < A.round x) :
    b - A.drift (n + 2) * M < x := by
  have hmoved := (abs_le.mp (A.abs_sub_round_le x)).1
  have hnear := (abs_le.mp h.near).1
  have hsize := mul_le_mul_of_nonneg_left h.abs_computed_le (A.drift_nonneg 2)
  have hgap : |A.round x| - |a| ≤ A.round x - a := by
    have h' := abs_sub_abs_le_abs_sub (A.round x) a
    rwa [abs_of_pos (sub_pos.mpr hx)] at h'
  have hscaled := mul_le_mul_of_nonneg_left hgap (A.drift_nonneg 2)
  have hslack := mul_lt_mul_of_pos_right A.drift_two_lt (sub_pos.mpr hx)
  rw [Nat.add_comm n 2, drift_add]
  linarith

/-- Rounding a known number. -/
theorem approx_round (x : α) : A.Approx 1 |x| (A.round x) x := (Approx.refl le_rfl).round

/-- A sum of known numbers. -/
theorem approx_sum (xs : List α) : A.Approx xs.length (xs.map (|·|)).sum (A.sum xs) xs.sum := by
  have h := @Approx.sum α _ _ _ A 0 α id id (fun x => |x|) xs fun x _ => Approx.refl le_rfl
  simpa using h

/-! ### Sums by sign -/

omit [IsStrictOrderedRing α] in
/-- The numbers that are positive, and those that are negative. -/
theorem sum_filter_pos_add_neg (xs : List α) :
    (xs.filter (0 < ·)).sum + (xs.filter (· < 0)).sum = xs.sum := by
  induction xs with
  | nil => simp
  | cons x xs ih =>
    rcases lt_trichotomy x 0 with hneg | rfl | hpos
    · simp [hneg, not_lt.mpr hneg.le, ← ih]
      ring
    · simpa using ih
    · simp [hpos, not_lt.mpr hpos.le, ← ih]
      ring

/-- The size of a list is that of its positive and its negative numbers. -/
theorem sum_filter_pos_sub_neg (xs : List α) :
    (xs.filter (0 < ·)).sum - (xs.filter (· < 0)).sum = (xs.map (|·|)).sum := by
  induction xs with
  | nil => simp
  | cons x xs ih =>
    rcases lt_trichotomy x 0 with hneg | rfl | hpos
    · simp [hneg, not_lt.mpr hneg.le, ← ih, abs_of_neg hneg]
      ring
    · simpa using ih
    · simp [hpos, not_lt.mpr hpos.le, ← ih, abs_of_pos hpos]
      ring

variable {A} in
/-- A computed sum of numbers that are not negative. -/
theorem sum_near_of_nonneg {xs : List α} {n : ℕ} (hxs : ∀ x ∈ xs, 0 ≤ x) (hn : xs.length ≤ n) :
    A.Approx n xs.sum (A.sum xs) xs.sum := by
  have hsize : xs.map (|·|) = xs :=
    (List.map_congr_left fun x hx => abs_of_nonneg (hxs x hx)).trans (List.map_id _)
  have h := A.approx_sum xs
  rw [hsize] at h
  exact h.mono hn le_rfl

variable {A} in
theorem sum_near_of_nonpos {xs : List α} {n : ℕ} (hxs : ∀ x ∈ xs, x ≤ 0) (hn : xs.length ≤ n) :
    A.Approx n (-xs.sum) (A.sum xs) xs.sum := by
  have hsize : xs.map (|·|) = xs.map (-·) :=
    List.map_congr_left fun x hx => abs_of_nonpos (hxs x hx)
  have h := A.approx_sum xs
  rw [hsize, ← List.sum_neg] at h
  exact h.mono hn le_rfl

/-- The default decimal context: 28 digits. -/
def decimal28 : Arithmetic ℚ := digits 28 (by decide)

end Arithmetic
