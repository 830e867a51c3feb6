import Mathlib.Data.Int.Log
import Mathlib.Data.Rat.Floor
import Mathlib.Tactic.Linarith
import Atlas.Lib.Quantize

/-!
# Numbers of 64 bits

The floating-point numbers of double precision, as the rational numbers they are, with the
two infinities.  A rational number is rounded to the next of them: to 53 significant bits, and
no finer than the smallest positive one, with ties to the even one.  What is rounded beyond the
largest one is infinite.

The value that is no number is not among them: no literal is read as it.

## Main definitions

* `IsDouble` — the rational numbers of double precision.
* `Number` — one of them, or an infinity.
* `round` — the nearest number of double precision.

## Main results

* `quantize_ulp_idem` — **rounding a rounded number again keeps it**.
* `round_intCast_ne_zero` — **no integer but zero is rounded to zero**.
* `is_round_iff` — an integer is rounded to itself when it is of double precision.
-/

namespace Binary64

open Quantize

/-- The distance of the numbers next to `q`. -/
def ulp (q : ℚ) : ℚ := 2 ^ max (Int.log 2 |q| - 52) (-1074)

/-- The number is of double precision. -/
def IsDouble (q : ℚ) : Prop := quantize (ulp q) q = q ∧ |q| < 2 ^ 1024

instance (q : ℚ) : Decidable (IsDouble q) := inferInstanceAs (Decidable (_ ∧ _))

theorem ulp_pos (q : ℚ) : 0 < ulp q := zpow_pos (by norm_num) _

/-! ### Rounding again -/

/-- The rounded number has 53 bits, or is the power of two after them. -/
theorem abs_roundHalfEven_div_ulp_le (q : ℚ) : |roundHalfEven (q / ulp q)| ≤ 2 ^ 53 := by
  have hfit : |q / ulp q| ≤ 2 ^ 53 := by
    rw [abs_div, abs_of_pos (ulp_pos q), div_le_iff₀ (ulp_pos q)]
    have hlt : |q| < ((2 : ℕ) : ℚ) ^ (Int.log 2 |q| + 1) :=
      Int.lt_zpow_succ_log_self (by norm_num) _
    have hle : Int.log 2 |q| + 1 ≤ 53 + max (Int.log 2 |q| - 52) (-1074) := by omega
    calc |q| ≤ (2 : ℚ) ^ (Int.log 2 |q| + 1) := by simpa using hlt.le
      _ ≤ 2 ^ (53 + max (Int.log 2 |q| - 52) (-1074)) := zpow_le_zpow_right₀ (by norm_num) hle
      _ = 2 ^ 53 * ulp q := by rw [zpow_add₀ (by norm_num), ulp]; norm_num
  have hmoved := abs_roundHalfEven_sub_le (q / ulp q)
  have hnear : |(roundHalfEven (q / ulp q) : ℚ)| < 2 ^ 53 + 1 := by
    have := abs_sub_abs_le_abs_sub (roundHalfEven (q / ulp q) : ℚ) (q / ulp q)
    linarith
  have hint : |roundHalfEven (q / ulp q)| < 2 ^ 53 + 1 := by exact_mod_cast hnear
  omega

/-- A multiple of a power of two is of the precision of a finer one. -/
theorem quantize_zpow_mul {k l : ℤ} (hlk : l ≤ k) (m : ℤ) :
    quantize ((2 : ℚ) ^ l) (m * 2 ^ k) = m * 2 ^ k := by
  obtain ⟨n, rfl⟩ := Int.le.dest hlk
  have hunits : (m : ℚ) * 2 ^ (l + n) = ((m * 2 ^ n : ℤ) : ℚ) * 2 ^ l := by
    rw [zpow_add₀ (by norm_num), zpow_natCast]
    push_cast
    ring
  rw [hunits, quantize_intCast_mul (zpow_pos (by norm_num) _).ne']

/-- **Rounding a rounded number again keeps it.** -/
theorem quantize_ulp_idem (q : ℚ) :
    quantize (ulp (quantize (ulp q) q)) (quantize (ulp q) q) = quantize (ulp q) q := by
  set k := max (Int.log 2 |q| - 52) (-1074) with hk
  set m := roundHalfEven (q / ulp q) with hm
  have hr : quantize (ulp q) q = m * (2 : ℚ) ^ k := rfl
  have hbound : |m| ≤ 2 ^ 53 := abs_roundHalfEven_div_ulp_le q
  rw [hr]
  rcases eq_or_ne m 0 with hzero | hne
  · simp [hzero, quantize, roundHalfEven]
  have habs : |(m : ℚ) * 2 ^ k| = (|m| : ℤ) * 2 ^ k := by
    rw [abs_mul, abs_of_pos (zpow_pos (by norm_num : (0 : ℚ) < 2) k), Int.cast_abs]
  have hpos : (0 : ℚ) < |(m : ℚ) * 2 ^ k| :=
    abs_pos.mpr (mul_ne_zero (by exact_mod_cast hne) (zpow_pos (by norm_num) k).ne')
  rcases hbound.lt_or_eq with hlt | heq
  · -- the number is below the next power of two, and its own unit is no larger
    have hlog : Int.log 2 |(m : ℚ) * 2 ^ k| < 53 + k := by
      rw [← Int.lt_zpow_iff_log_lt (by norm_num) hpos, habs]
      push_cast
      rw [zpow_add₀ (by norm_num)]
      have : (|m| : ℚ) < 2 ^ 53 := by exact_mod_cast hlt
      exact mul_lt_mul_of_pos_right (by simpa using this) (zpow_pos (by norm_num) k)
    exact quantize_zpow_mul (by omega) m
  · -- the number is the next power of two
    have hlog : Int.log 2 |(m : ℚ) * 2 ^ k| = 53 + k := by
      rw [habs, heq]
      have hpow : (((2 ^ 53 : ℤ) : ℚ)) * 2 ^ k = ((2 : ℕ) : ℚ) ^ (53 + k) := by
        rw [Nat.cast_ofNat, zpow_add₀ (by norm_num)]
        norm_num
      rw [hpow, Int.log_zpow (by norm_num)]
    obtain ⟨s, hs⟩ : ∃ s : ℤ, m = s * 2 ^ 53 := by
      rcases abs_eq (by norm_num : (0 : ℤ) ≤ 2 ^ 53) |>.mp heq with h | h
      · exact ⟨1, by rw [h, one_mul]⟩
      · exact ⟨-1, by rw [h, neg_one_mul]⟩
    have hshift : (m : ℚ) * 2 ^ k = s * 2 ^ (53 + k) := by
      rw [hs, zpow_add₀ (by norm_num)]
      push_cast
      ring
    unfold ulp
    rw [hlog, hshift]
    exact quantize_zpow_mul (by omega) s

/-! ### Numbers -/

/-- A number of double precision, or an infinity. -/
inductive Number
  | finite (q : ℚ) (double : IsDouble q)
  | infinite (negative : Bool)
  deriving DecidableEq

/-- The number is an integer. -/
def Number.Is (x : Number) (n : ℤ) : Prop :=
  match x with
  | .finite q _ => q = n
  | .infinite _ => False

instance (x : Number) (n : ℤ) : Decidable (x.Is n) :=
  match x with
  | .finite q _ => inferInstanceAs (Decidable (q = n))
  | .infinite _ => inferInstanceAs (Decidable False)

/-- The number is less than an integer. -/
def Number.Below (x : Number) (n : ℤ) : Prop :=
  match x with
  | .finite q _ => q < n
  | .infinite negative => negative = true

instance (x : Number) (n : ℤ) : Decidable (x.Below n) :=
  match x with
  | .finite q _ => inferInstanceAs (Decidable (q < n))
  | .infinite negative => inferInstanceAs (Decidable (negative = true))

/-- The nearest number of double precision. -/
def round (q : ℚ) : Number :=
  if h : |quantize (ulp q) q| < 2 ^ 1024 then
    .finite (quantize (ulp q) q) ⟨quantize_ulp_idem q, h⟩
  else .infinite (q < 0)

/-- A number of double precision is rounded to itself. -/
theorem round_of_isDouble {q : ℚ} (hq : IsDouble q) : round q = .finite q hq := by
  have hfit : |quantize (ulp q) q| < 2 ^ 1024 := by rw [hq.1]; exact hq.2
  rw [round, dif_pos hfit]
  simp only [hq.1]

/-- An integer that a number is has no other rounding. -/
theorem Number.Is.eq_round {x : Number} {n : ℤ} (h : x.Is n) : x = round n := by
  cases x with
  | finite q hq =>
    have hn : q = n := h
    subst hn
    exact (round_of_isDouble hq).symm
  | infinite negative => exact h.elim

/-- An integer is rounded to itself when it is of double precision. -/
theorem is_round_iff {n : ℤ} : (round n).Is n ↔ IsDouble (n : ℚ) := by
  constructor
  · intro h
    cases hr : round (n : ℚ) with
    | finite q hq =>
      rw [hr] at h
      have hn : q = n := h
      exact hn ▸ hq
    | infinite negative =>
      rw [hr] at h
      exact h.elim
  · intro h
    rw [round_of_isDouble h]
    exact rfl

/-- An integer of double precision is compared as itself. -/
theorem round_below_iff {n m : ℤ} (hn : IsDouble (n : ℚ)) : (round n).Below m ↔ n < m := by
  rw [round_of_isDouble hn]
  exact Int.cast_lt

/-- The numbers next to an integer are closer than the integer is to zero. -/
theorem ulp_intCast_le {n : ℤ} (hn : n ≠ 0) : ulp n ≤ |(n : ℚ)| := by
  have hone : (1 : ℚ) ≤ |(n : ℚ)| := by exact_mod_cast Int.one_le_abs hn
  have hlog : 0 ≤ Int.log 2 |(n : ℚ)| := by
    rw [← Int.zpow_le_iff_le_log (by norm_num) (by linarith)]
    simpa using hone
  have hle : max (Int.log 2 |(n : ℚ)| - 52) (-1074) ≤ Int.log 2 |(n : ℚ)| := by omega
  have hself : ((2 : ℕ) : ℚ) ^ Int.log 2 |(n : ℚ)| ≤ |(n : ℚ)| :=
    Int.zpow_log_le_self (by norm_num) (by linarith)
  calc ulp n ≤ (2 : ℚ) ^ Int.log 2 |(n : ℚ)| := zpow_le_zpow_right₀ (by norm_num) hle
    _ ≤ |(n : ℚ)| := by simpa using hself

/-- **No integer but zero is rounded to zero.** -/
theorem round_intCast_ne_zero {n : ℤ} (hn : n ≠ 0) : ¬(round n).Is 0 := by
  have hmoved : |quantize (ulp n) (n : ℚ) - n| ≤ ulp n / 2 := abs_quantize_sub_le (ulp_pos _) _
  have hulp : ulp n ≤ |(n : ℚ)| := ulp_intCast_le hn
  have hpos : 0 < ulp n := ulp_pos n
  intro hzero
  rw [round] at hzero
  split_ifs at hzero
  · have hnil : quantize (ulp n) (n : ℚ) = ((0 : ℤ) : ℚ) := hzero
    rw [hnil, Int.cast_zero, zero_sub, abs_neg] at hmoved
    linarith
  · exact hzero.elim

theorem isDouble_zero : IsDouble 0 := by
  have hzero : quantize (ulp 0) (0 : ℚ) = 0 := by simp [quantize, roundHalfEven]
  exact ⟨hzero, by norm_num⟩

/-- An integer is rounded to zero when it is zero. -/
theorem round_is_zero_iff {n : ℤ} : (round n).Is 0 ↔ n = 0 := by
  constructor
  · intro h
    by_contra hn
    exact round_intCast_ne_zero hn h
  · rintro rfl
    rw [is_round_iff, Int.cast_zero]
    exact isDouble_zero

/-- **An integer of 53 bits is of double precision.** -/
theorem isDouble_intCast {z : ℤ} (hz : |z| < 2 ^ 53) : IsDouble (z : ℚ) := by
  have hlog : Int.log 2 |(z : ℚ)| ≤ 52 := by
    rcases eq_or_ne z 0 with rfl | hne
    · simp
    · have hpos : 0 < |(z : ℚ)| := abs_pos.mpr (by exact_mod_cast hne)
      have hlt : |(z : ℚ)| < ((2 : ℕ) : ℚ) ^ (53 : ℤ) := by exact_mod_cast hz
      have := (Int.lt_zpow_iff_log_lt (by norm_num) hpos).mp hlt
      omega
  have hquantize := quantize_zpow_mul (k := 0) (l := max (Int.log 2 |(z : ℚ)| - 52) (-1074))
    (by omega) z
  refine ⟨by simpa [ulp] using hquantize, ?_⟩
  calc |(z : ℚ)| < 2 ^ 53 := by exact_mod_cast hz
    _ ≤ 2 ^ 1024 := pow_le_pow_right₀ (by norm_num) (by norm_num)

end Binary64
