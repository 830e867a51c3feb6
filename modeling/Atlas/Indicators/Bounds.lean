import Mathlib.Algebra.Order.BigOperators.Group.List
import Mathlib.Algebra.Order.Field.Rat
import Mathlib.Tactic.FieldSimp
import Mathlib.Tactic.Linarith
import Mathlib.Tactic.Ring
import Atlas.Indicators.Momentum
import Atlas.Indicators.Volatility

/-!
# Bounds and mirror images of the indicators

An average of numbers stays where the numbers are, and so does a smoothed average.  The
RSI is a share in percent, the EMA is between the extremes of what it has seen, and the
ATR is no negative number.  Rounding keeps signs, 0 and 100, so that it does not touch the
first and the last of these; an EMA can leave its range by the error of its roundings.

The RSI of a mirrored series has gains and losses exchanged.  But for rounding it is what the
RSI leaves of 100, except where nothing has moved: there the code answers 100 for both series.

## Main definitions

* `rsiAverages` — the averages of gains and losses that `rsi` keeps.
* `NoMovement` — these averages have seen no change.
* `emaSlack` — what rounding can move an EMA value out of its range.

## Main results

* `indicator_bounds` — **RSI in [0, 100], EMA between the extremes, ATR not negative**.
* `rsiOf_near`, `step_near` — what the roundings of a value add up to.
* `rsi_mirror` — **the RSI of the mirrored series**.

## References

`app/indicators/momentum.py`, `app/indicators/moving_averages.py`,
`app/indicators/volatility.py`.
-/

namespace Atlas

namespace Indicators

open Causal Arithmetic

variable {A : Arithmetic ℚ} {data : List ℚ} {period : ℤ}

/-! ### Averages -/

theorem mean_nonneg {first : List ℚ} (hperiod : 0 < period) (h : ∀ x ∈ first, 0 ≤ x) :
    0 ≤ A.div (A.sum first) period := by
  have hpos : (0 : ℚ) ≤ period := by exact_mod_cast hperiod.le
  exact A.div_nonneg (A.sum_nonneg h) hpos

/-- The mean of no negative values is zero when all of them are. -/
theorem mean_eq_zero_iff {first : List ℚ} (hperiod : 0 < period) (h : ∀ x ∈ first, 0 ≤ x) :
    A.div (A.sum first) period = 0 ↔ ∀ x ∈ first, x = 0 := by
  have hne : (period : ℚ) ≠ 0 := by exact_mod_cast hperiod.ne'
  rw [Arithmetic.div, A.round_eq_zero_iff, div_eq_zero_iff, or_iff_left hne, A.sum_eq_zero_iff h]

/-- A smoothed average of no negative values. -/
theorem smoothed_nonneg {avg x : ℚ} (hperiod : 0 < period) (havg : 0 ≤ avg) (hx : 0 ≤ x) :
    0 ≤ A.div (A.add (A.mul avg (period - 1)) x) period := by
  have hone : (1 : ℚ) ≤ period := by exact_mod_cast hperiod
  have hrest : 0 ≤ A.mul avg ((period : ℚ) - 1) := A.mul_nonneg havg (by linarith)
  exact A.div_nonneg (A.add_nonneg hrest hx) (by linarith)

/-- A period of 2 or more remembers: the average is zero when it was and the value is. -/
theorem smoothed_eq_zero_iff {avg x : ℚ} (hperiod : 1 < period) (havg : 0 ≤ avg) (hx : 0 ≤ x) :
    A.div (A.add (A.mul avg (period - 1)) x) period = 0 ↔ avg = 0 ∧ x = 0 := by
  have hone : (1 : ℚ) < period := by exact_mod_cast hperiod
  have hmemory : (0 : ℚ) < period - 1 := by linarith
  have hne : (period : ℚ) ≠ 0 := by linarith
  rw [Arithmetic.div, A.round_eq_zero_iff, div_eq_zero_iff, or_iff_left hne, Arithmetic.add,
    A.round_eq_zero_iff, add_eq_zero_iff_of_nonneg (A.mul_nonneg havg hmemory.le) hx,
    Arithmetic.mul, A.round_eq_zero_iff, mul_eq_zero, or_iff_left hmemory.ne']

/-! ### The averages of `rsi` -/

/-- The averages of gains and losses, after each change from the first average on. -/
def rsiAverages (A : Arithmetic ℚ) (period : ℤ) (data : List ℚ) : List (ℚ × ℚ) :=
  seeded (period.toNat - 1) (averages A period) (smooth A period) (differences (gainLoss A) data)

theorem rsiValues_eq :
    rsiValues A period data = (rsiAverages A period data).map fun avg => rsiOf A avg.1 avg.2 := rfl

theorem gainLoss_nonneg (prev x : ℚ) :
    0 ≤ (gainLoss A prev x).1 ∧ 0 ≤ (gainLoss A prev x).2 := by
  unfold gainLoss
  dsimp only
  constructor
  · split_ifs with hgain
    · exact hgain.le
    · exact le_rfl
  · split_ifs with hloss
    · linarith
    · exact le_rfl

theorem gainLoss_eq_zero_iff {prev x : ℚ} : gainLoss A prev x = (0, 0) ↔ prev = x := by
  have hchange : A.sub x prev = 0 ↔ prev = x := by
    rw [Arithmetic.sub, A.round_eq_zero_iff, sub_eq_zero, eq_comm]
  unfold gainLoss
  dsimp only
  rw [Prod.mk.injEq, ← hchange]
  constructor
  · rintro ⟨hgain, hloss⟩
    split_ifs at hgain hloss <;> linarith
  · intro hzero
    simp [hzero]

/-- The gains and losses of a series are not negative. -/
theorem differences_nonneg {change : ℚ × ℚ} (h : change ∈ differences (gainLoss A) data) :
    0 ≤ change.1 ∧ 0 ≤ change.2 := by
  obtain ⟨i, hi, rfl⟩ := List.mem_iff_getElem.mp h
  rw [differences] at hi
  simp only [differences, List.getElem_zipWith]
  exact gainLoss_nonneg _ _

/-- No change is remembered: with a period of 1 the last of them is none, otherwise no one is. -/
def Quiet (period : ℤ) (changes : List (ℚ × ℚ)) : Prop :=
  ∀ j change, changes[j]? = some change → (period = 1 → j + 1 = changes.length) → change = (0, 0)

/-- A remembered change keeps the averages quiet when it is none. -/
theorem quiet_append {before : List (ℚ × ℚ)} {change : ℚ × ℚ} :
    Quiet period (before ++ [change]) ↔
      (period ≠ 1 → Quiet period before) ∧ change = (0, 0) := by
  constructor
  · intro h
    refine ⟨fun hperiod j earlier hj _ => ?_, ?_⟩
    · have hlt : j < before.length := (List.getElem?_eq_some_iff.mp hj).1
      exact h j earlier (by rw [List.getElem?_append_left hlt, hj]) fun hone => absurd hone hperiod
    · exact h before.length change (by simp) fun _ => by simp
  · rintro ⟨hbefore, rfl⟩ j earlier hj hlast
    rw [List.length_append, List.length_singleton] at hlast
    rcases lt_or_ge j before.length with hlt | hge
    · rw [List.getElem?_append_left hlt] at hj
      -- an earlier change is remembered when the period is no 1
      have hperiod : period ≠ 1 := fun hone => by have := hlast hone; omega
      exact hbefore hperiod j earlier hj fun hone => absurd hone hperiod
    · rw [List.getElem?_append_right hge] at hj
      exact (List.mem_singleton.mp (List.mem_of_getElem? hj))

/-- The first averages: not negative, and zero when nothing has moved. -/
theorem seed_spec {first : List (ℚ × ℚ)} (hperiod : 0 < period)
    (hlength : first.length = period.toNat - 1 + 1)
    (h : ∀ change ∈ first, 0 ≤ change.1 ∧ 0 ≤ change.2) :
    (0 ≤ (averages A period first).1 ∧ 0 ≤ (averages A period first).2) ∧
      ((averages A period first).1 = 0 ∧ (averages A period first).2 = 0 ↔
        Quiet period first) := by
  have hgain : ∀ x ∈ first.map Prod.fst, 0 ≤ x := by
    intro x hx
    obtain ⟨change, hchange, rfl⟩ := List.mem_map.mp hx
    exact (h change hchange).1
  have hloss : ∀ x ∈ first.map Prod.snd, 0 ≤ x := by
    intro x hx
    obtain ⟨change, hchange, rfl⟩ := List.mem_map.mp hx
    exact (h change hchange).2
  refine ⟨⟨mean_nonneg hperiod hgain, mean_nonneg hperiod hloss⟩, ?_⟩
  rw [averages, mean_eq_zero_iff hperiod hgain, mean_eq_zero_iff hperiod hloss]
  constructor
  · rintro ⟨hgains, hlosses⟩ j change hj _
    have hmem := List.mem_of_getElem? hj
    exact Prod.ext (hgains _ (List.mem_map_of_mem hmem)) (hlosses _ (List.mem_map_of_mem hmem))
  · intro hquiet
    have hzero : ∀ change ∈ first, change = (0, 0) := by
      intro change hchange
      obtain ⟨j, hj⟩ := List.mem_iff_getElem?.mp hchange
      -- with a period of 1 there is one change only
      refine hquiet j change hj fun hone => ?_
      have hlt : j < first.length := (List.getElem?_eq_some_iff.mp hj).1
      omega
    constructor <;>
    · intro x hx
      obtain ⟨change, hchange, rfl⟩ := List.mem_map.mp hx
      rw [hzero change hchange]

/-- One more change: the averages stay not negative, and zero while nothing moves. -/
theorem smooth_spec {avg change : ℚ × ℚ} {before : List (ℚ × ℚ)} (hperiod : 0 < period)
    (havg : 0 ≤ avg.1 ∧ 0 ≤ avg.2) (hquiet : avg.1 = 0 ∧ avg.2 = 0 ↔ Quiet period before)
    (hchange : 0 ≤ change.1 ∧ 0 ≤ change.2) :
    (0 ≤ (smooth A period avg change).1 ∧ 0 ≤ (smooth A period avg change).2) ∧
      ((smooth A period avg change).1 = 0 ∧ (smooth A period avg change).2 = 0 ↔
        Quiet period (before ++ [change])) := by
  refine ⟨⟨smoothed_nonneg hperiod havg.1 hchange.1, smoothed_nonneg hperiod havg.2 hchange.2⟩, ?_⟩
  rw [quiet_append, ← hquiet, Prod.ext_iff, smooth]
  rcases eq_or_lt_of_le (show (1 : ℤ) ≤ period from hperiod) with hone | hlong
  · subst hone
    simp [Arithmetic.mul, Arithmetic.add, Arithmetic.div, A.round_eq_zero_iff]
  · rw [smoothed_eq_zero_iff hlong havg.1 hchange.1, smoothed_eq_zero_iff hlong havg.2 hchange.2]
    simp only [hlong.ne', ne_eq, not_false_eq_true, true_implies]
    tauto

/-- **The averages of `rsi`** are not negative, and they are zero when no remembered change
has moved the series. -/
theorem rsiAverages_spec {k : ℕ} {avg : ℚ × ℚ} (hperiod : 0 < period)
    (h : (rsiAverages A period data)[k]? = some avg) :
    (0 ≤ avg.1 ∧ 0 ≤ avg.2) ∧
      (avg.1 = 0 ∧ avg.2 = 0 ↔
        Quiet period ((differences (gainLoss A) data).take (period.toNat + k))) := by
  have hall := @seeded_induction _ _ (period.toNat - 1)
    (averages A period) (smooth A period)
    (fun before avg => (∀ change ∈ before, 0 ≤ change.1 ∧ 0 ≤ change.2) →
      (0 ≤ avg.1 ∧ 0 ≤ avg.2) ∧ (avg.1 = 0 ∧ avg.2 = 0 ↔ Quiet period before))
    (fun first hlength hnonneg => seed_spec hperiod hlength hnonneg)
    (fun before avg change ih hnonneg => by
      obtain ⟨havg, hquiet⟩ := ih fun c hc => hnonneg c (List.mem_append_left _ hc)
      exact smooth_spec hperiod havg hquiet (hnonneg change (by simp)))
    (differences (gainLoss A) data) k avg h
  have hsucc : period.toNat - 1 + 1 = period.toNat := by omega
  rw [hsucc] at hall
  exact hall fun change hchange => differences_nonneg (List.mem_of_mem_take hchange)

/-! ### RSI values -/

theorem one_le_add {rs : ℚ} (hrs : 0 ≤ rs) : 1 ≤ A.add 1 rs := by
  rw [← A.round_one]
  exact A.round_mono (by linarith [A.round_one])

/-- What is taken off 100. -/
theorem share_between {rs : ℚ} (hrs : 0 ≤ rs) :
    0 ≤ A.div 100 (A.add 1 rs) ∧ A.div 100 (A.add 1 rs) ≤ 100 := by
  have hone := one_le_add (A := A) hrs
  refine ⟨A.div_nonneg (by norm_num : (0 : ℚ) ≤ 100) (zero_le_one.trans hone), ?_⟩
  exact (A.round_mono (div_le_self (by norm_num) hone)).trans_eq A.round_hundred

/-- A share of 100 in terms of a ratio that is known up to an error. -/
theorem share_near {rs rs' u : ℚ} (hu : 0 ≤ u) (hrs : 0 ≤ rs) (hrs' : 0 ≤ rs')
    (h : |rs' - rs| ≤ u * |rs|) : |100 / (1 + rs') - 100 / (1 + rs)| ≤ 100 * u := by
  have hden : 0 < (1 + rs') * (1 + rs) := mul_pos (by linarith) (by linarith)
  have hsplit : 100 / (1 + rs') - 100 / (1 + rs) = 100 * (rs - rs') / ((1 + rs') * (1 + rs)) := by
    field_simp
    ring
  have hle : rs ≤ (1 + rs') * (1 + rs) := by nlinarith
  rw [abs_of_nonneg hrs] at h
  rw [hsplit, abs_div, abs_of_pos hden, abs_mul, abs_sub_comm, div_le_iff₀ hden]
  calc |(100 : ℚ)| * |rs' - rs| ≤ 100 * (u * rs) := by
        rw [abs_of_pos (by norm_num)]
        linarith
    _ ≤ 100 * (u * ((1 + rs') * (1 + rs))) := by
        have hmul := mul_le_mul_of_nonneg_left hle hu
        linarith
    _ = 100 * u * ((1 + rs') * (1 + rs)) := by ring

/-- A hundred by a number that is known up to an error. -/
theorem hundredth_near {t t' u : ℚ} (hu : 0 ≤ u) (ht : 0 < t) (ht' : 1 ≤ t')
    (h : |t' - t| ≤ u * t) : |100 / t' - 100 / t| ≤ 100 * u := by
  have hden : 0 < t' * t := mul_pos (by linarith) ht
  have hsplit : 100 / t' - 100 / t = 100 * (t - t') / (t' * t) := by
    have hne : t' ≠ 0 := by linarith
    field_simp
  have hle : t ≤ t' * t := by nlinarith
  rw [hsplit, abs_div, abs_of_pos hden, abs_mul, abs_sub_comm, div_le_iff₀ hden]
  calc |(100 : ℚ)| * |t' - t| ≤ 100 * (u * t) := by
        rw [abs_of_pos (by norm_num)]
        linarith
    _ ≤ 100 * (u * (t' * t)) := by
        have hmul := mul_le_mul_of_nonneg_left hle hu
        linarith
    _ = 100 * u * (t' * t) := by ring

theorem rsiOf_between {gain loss : ℚ} (hgain : 0 ≤ gain) (hloss : 0 ≤ loss) :
    0 ≤ rsiOf A gain loss ∧ rsiOf A gain loss ≤ 100 := by
  unfold rsiOf
  split_ifs with hzero
  · norm_num
  · obtain ⟨hshare, hle⟩ := share_between (A := A) (A.div_nonneg hgain hloss)
    constructor
    · exact A.sub_nonneg hle
    · -- what is taken off 100 is not negative, and 100 is not rounded
      exact (A.round_mono (by linarith)).trans_eq A.round_hundred

/-- **The RSI is the share of the gains**, up to four roundings. -/
theorem rsiOf_near {gain loss : ℚ} (hgain : 0 ≤ gain) (hloss : 0 ≤ loss)
    (hmoved : ¬(gain = 0 ∧ loss = 0)) :
    |rsiOf A gain loss - 100 * gain / (gain + loss)| ≤ 400 * A.error := by
  unfold rsiOf
  split_ifs with hzero
  · have hne : gain ≠ 0 := fun hg => hmoved ⟨hg, hzero⟩
    rw [hzero, add_zero, mul_div_assoc, div_self hne, mul_one, sub_self, abs_zero]
    exact mul_nonneg (by norm_num) A.error_nonneg
  · have hpos : 0 < loss := lt_of_le_of_ne hloss (Ne.symm hzero)
    have hrs : 0 ≤ A.div gain loss := A.div_nonneg hgain hloss
    obtain ⟨hshare, hle⟩ := share_between (A := A) hrs
    -- the four roundings, one after the other
    have hsum : 0 < gain + loss := by linarith
    have hexact : 100 * gain / (gain + loss) = 100 - 100 / (1 + gain / loss) := by
      field_simp
      ring
    have hratio : |100 / (1 + A.div gain loss) - 100 / (1 + gain / loss)| ≤ 100 * A.error :=
      share_near A.error_nonneg (div_nonneg hgain hloss) hrs (A.abs_round_sub_le (gain / loss))
    have htotal : |100 / A.add 1 (A.div gain loss) - 100 / (1 + A.div gain loss)| ≤
        100 * A.error := by
      have hone : 0 < 1 + A.div gain loss := by linarith
      have h := A.abs_round_sub_le (1 + A.div gain loss)
      rw [abs_of_pos hone] at h
      exact hundredth_near A.error_nonneg hone (one_le_add hrs) h
    have hquotient : |A.div 100 (A.add 1 (A.div gain loss)) -
        100 / A.add 1 (A.div gain loss)| ≤ 100 * A.error := by
      refine (A.abs_round_sub_le _).trans ?_
      rw [mul_comm]
      refine mul_le_mul_of_nonneg_right ?_ A.error_nonneg
      rw [abs_of_nonneg (div_nonneg (by norm_num) (by linarith [one_le_add (A := A) hrs]))]
      exact div_le_self (by norm_num) (one_le_add hrs)
    have hrest : |A.sub 100 (A.div 100 (A.add 1 (A.div gain loss))) -
        (100 - A.div 100 (A.add 1 (A.div gain loss)))| ≤ 100 * A.error := by
      refine (A.abs_round_sub_le _).trans ?_
      rw [mul_comm, abs_of_nonneg (by linarith)]
      exact mul_le_mul_of_nonneg_right (by linarith) A.error_nonneg
    rw [hexact]
    rw [abs_le] at hratio htotal hquotient hrest ⊢
    constructor <;> linarith

/-- **Gains and losses exchanged**: what is left of 100, up to rounding, unless there are
neither. -/
theorem rsiOf_swap {gain loss : ℚ} (hgain : 0 ≤ gain) (hloss : 0 ≤ loss)
    (hmoved : ¬(gain = 0 ∧ loss = 0)) :
    |rsiOf A loss gain - (100 - rsiOf A gain loss)| ≤ 800 * A.error := by
  have hne : gain + loss ≠ 0 := by
    intro hsum
    exact hmoved ⟨by linarith, by linarith⟩
  have hsplit : 100 * loss / (loss + gain) = 100 - 100 * gain / (gain + loss) := by
    rw [add_comm loss gain]
    field_simp
    ring
  have hthis := rsiOf_near (A := A) hgain hloss hmoved
  have hother := rsiOf_near (A := A) hloss hgain fun h => hmoved h.symm
  rw [hsplit] at hother
  rw [abs_le] at hthis hother ⊢
  constructor <;> linarith

/-- An `rsi` that answers has had prices and a positive period. -/
theorem rsi_ok {out : List (Option ℚ)} (h : rsi A data period = .ok out) :
    data ≠ [] ∧ 0 < period ∧ out = padded period.toNat (rsiValues A period) data := by
  by_cases hdata : data = []
  · rw [rsi, if_pos hdata] at h
    exact absurd h (by simp)
  · by_cases hperiod : period ≤ 0
    · rw [rsi, if_neg hdata, if_pos hperiod] at h
      exact absurd h (by simp)
    · rw [rsi_eq hdata (not_le.mp hperiod)] at h
      exact ⟨hdata, not_le.mp hperiod, (Except.ok.inj h).symm⟩

/-- A defined RSI value comes from the averages at its index. -/
theorem rsi_value {i : ℕ} {v : ℚ} (hperiod : 0 < period)
    (h : (padded period.toNat (rsiValues A period) data)[i]? = some (some v)) :
    period.toNat ≤ i ∧
      ∃ avg, (rsiAverages A period data)[i - period.toNat]? = some avg ∧ rsiOf A avg.1 avg.2 = v := by
  obtain ⟨hle, hvalue⟩ :=
    (getElem?_padded_eq_some_iff (rsiValues_delayed hperiod)).mp h
  rw [rsiValues_eq, List.getElem?_map] at hvalue
  exact ⟨hle, Option.map_eq_some_iff.mp hvalue⟩

/-! ### EMA and ATR values -/

/-- The mean of the first values, up to rounding. -/
theorem mean_near {first : List ℚ} {lo hi M : ℚ} (hperiod : 0 < period)
    (hlength : (first.length : ℤ) = period) (h : ∀ x ∈ first, lo ≤ x ∧ x ≤ hi)
    (hlo : |lo| ≤ M) (hhi : |hi| ≤ M) :
    lo - A.drift (first.length + 1) * M ≤ A.div (A.sum first) period ∧
      A.div (A.sum first) period ≤ hi + A.drift (first.length + 1) * M := by
  have hpos : (0 : ℚ) < period := by exact_mod_cast hperiod
  have hcast : (first.length : ℚ) = period := by exact_mod_cast hlength
  have hlow := List.card_nsmul_le_sum first lo fun x hx => (h x hx).1
  have hhigh := List.sum_le_card_nsmul first hi fun x hx => (h x hx).2
  rw [nsmul_eq_mul, hcast, mul_comm, ← le_div_iff₀ hpos] at hlow
  rw [nsmul_eq_mul, hcast, mul_comm, ← div_le_iff₀ hpos] at hhigh
  have hsizes : (first.map (|·|)).sum ≤ period * M := by
    have hall := List.sum_le_card_nsmul (first.map (|·|)) M fun y hy => by
      obtain ⟨x, hx, rfl⟩ := List.mem_map.mp hy
      obtain ⟨hxlo, hxhi⟩ := h x hx
      exact abs_le.mpr ⟨(abs_le.mp hlo).1.trans hxlo, hxhi.trans (abs_le.mp hhi).2⟩
    rwa [nsmul_eq_mul, List.length_map, hcast] at hall
  have hmean := (((A.approx_sum first).mono le_rfl hsizes).div_const period).round
  rw [abs_of_pos hpos, mul_div_cancel_left₀ M hpos.ne'] at hmean
  have hnear := abs_le.mp hmean.near
  rw [Arithmetic.div]
  constructor <;> linarith [hnear.1, hnear.2]

/-- The multiplier of `ema` is a share. -/
theorem multiplier_between (hperiod : 0 < period) :
    0 ≤ A.div 2 (A.add (period : ℚ) 1) ∧ A.div 2 (A.add (period : ℚ) 1) ≤ 1 := by
  have hone : (1 : ℚ) ≤ period := by exact_mod_cast hperiod
  have htwo : A.round 2 = 2 := by exact_mod_cast A.round_natCast (n := 2) (by norm_num)
  have hsum : 2 ≤ A.add (period : ℚ) 1 := htwo.symm.trans_le (A.round_mono (by linarith))
  refine ⟨A.div_nonneg (by norm_num) (by linarith), ?_⟩
  refine (A.round_mono ?_).trans_eq A.round_one
  exact (div_le_one (by linarith)).mpr hsum

/-- **A step towards a value** that is rounded three times leaves the range of the values by the
error of three roundings. -/
theorem step_near {lo hi M e prev x share : ℚ} (hshare : 0 ≤ share ∧ share ≤ 1)
    (hprev : lo - e ≤ prev ∧ prev ≤ hi + e) (hx : lo ≤ x ∧ x ≤ hi) (he : 0 ≤ e)
    (hlo : |lo| ≤ M) (hhi : |hi| ≤ M) :
    let e' := e + A.drift 3 * (2 * M + e)
    lo - e' ≤ A.add (A.mul (A.sub x prev) share) prev ∧
      A.add (A.mul (A.sub x prev) share) prev ≤ hi + e' := by
  intro e'
  obtain ⟨hs, hs'⟩ := hshare
  obtain ⟨hplo, hphi⟩ := hprev
  rw [abs_le] at hlo hhi
  -- without rounding the step is a convex combination
  have hconvex : lo - e ≤ (x - prev) * share + prev ∧ (x - prev) * share + prev ≤ hi + e := by
    constructor <;> nlinarith
  have hchange : |x - prev| ≤ 2 * M + e := abs_le.mpr ⟨by linarith, by linarith⟩
  have hmoved : A.Approx 2 (2 * M + e) (A.mul (A.sub x prev) share) ((x - prev) * share) := by
    have hknown : A.Approx 0 1 share share := .refl (by rwa [abs_of_nonneg hs])
    have hproduct := ((Arithmetic.Approx.refl hchange).round.mul hknown).round
    rwa [mul_one] at hproduct
  have hsum : A.Approx 2 (2 * M + e) (A.mul (A.sub x prev) share + prev)
      ((x - prev) * share + prev) := by
    refine ⟨abs_le.mpr ⟨by linarith, by linarith⟩, ?_⟩
    rw [add_sub_add_right_eq_sub]
    exact hmoved.near
  have hnear := abs_le.mp hsum.round.near
  rw [Arithmetic.add]
  constructor <;> linarith [hnear.1, hnear.2]

theorem emaValues_near {k : ℕ} {v lo hi M : ℚ} (hperiod : 0 < period)
    (h : (emaValues A period data)[k]? = some v)
    (hbounds : ∀ x ∈ data.take (period.toNat + k), lo ≤ x ∧ x ≤ hi)
    (hlo : |lo| ≤ M) (hhi : |hi| ≤ M) :
    lo - A.drift (3 * (period.toNat + k)) * (2 * M) ≤ v ∧
      v ≤ hi + A.drift (3 * (period.toNat + k)) * (2 * M) := by
  have hM : 0 ≤ M := (abs_nonneg lo).trans hlo
  have hsucc : period.toNat - 1 + 1 = period.toNat := by omega
  have hall := @seeded_induction _ _ (period.toNat - 1)
    (fun first : List ℚ => A.div (A.sum first) period)
    (fun prev x => A.add (A.mul (A.sub x prev) (A.div 2 (A.add period 1))) prev)
    (fun before v => (∀ x ∈ before, lo ≤ x ∧ x ≤ hi) →
      lo - A.drift (3 * before.length) * (2 * M) ≤ v ∧
        v ≤ hi + A.drift (3 * before.length) * (2 * M))
    (fun first hlength hfirst => by
      obtain ⟨hmlo, hmhi⟩ := mean_near (A := A) hperiod (by omega) hfirst hlo hhi
      have hdrift : A.drift (first.length + 1) * M ≤ A.drift (3 * first.length) * (2 * M) :=
        mul_le_mul (A.drift_mono (by omega)) (by linarith) hM (A.drift_nonneg _)
      constructor <;> linarith)
    (fun before prev x ih hbefore => by
      have hprev := ih fun y hy => hbefore y (List.mem_append_left _ hy)
      have hslack : 0 ≤ A.drift (3 * before.length) * (2 * M) :=
        mul_nonneg (A.drift_nonneg _) (by linarith)
      have hnext := step_near (A := A) (multiplier_between (A := A) hperiod) hprev
        (hbefore x (by simp))
        hslack hlo hhi
      have hthree : A.drift (3 * (before ++ [x]).length) * (2 * M) =
          A.drift (3 * before.length) * (2 * M) +
            A.drift 3 * (2 * M + A.drift (3 * before.length) * (2 * M)) := by
        have hlength : 3 * (before ++ [x]).length = 3 + 3 * before.length := by
          rw [List.length_append, List.length_singleton]
          ring
        rw [hlength, A.drift_add]
        ring
      rw [hthree]
      exact hnext)
    data k v h
  rw [hsucc] at hall
  have hlength : (data.take (period.toNat + k)).length = period.toNat + k := by
    have hcount := (emaValues_delayed (A := A) period).length data
    have hlt := (List.getElem?_eq_some_iff.mp h).1
    rw [List.length_take]
    omega
  have hread := hall hbounds
  rwa [hlength] at hread

theorem trueRange_nonneg {h l c : List ℚ} {i : ℕ} (hle : l.getD i 0 ≤ h.getD i 0) :
    0 ≤ trueRange A h l c i := by
  unfold trueRange
  dsimp only
  split_ifs
  · exact A.sub_nonneg hle
  · exact le_max_of_le_left (A.sub_nonneg hle)

theorem atrValues_nonneg {bars : List (ℚ × ℚ × ℚ)} {k : ℕ} {v : ℚ} (hperiod : 0 < period)
    (hbars : ∀ bar ∈ bars, bar.2.1 ≤ bar.1) (h : (atrValues A period bars)[k]? = some v) : 0 ≤ v := by
  have hall := @seeded_induction _ _ (period.toNat - 1)
    (fun first : List ℚ => A.div (A.sum first) period)
    (fun prev tr => A.div (A.add (A.mul prev (period - 1)) tr) period)
    (fun before v => (∀ tr ∈ before, 0 ≤ tr) → 0 ≤ v)
    (fun first _ hfirst => mean_nonneg hperiod hfirst)
    (fun before prev tr ih hbefore => smoothed_nonneg hperiod
      (ih fun y hy => hbefore y (List.mem_append_left _ hy)) (hbefore tr (by simp)))
    (trueRanges A bars) k v h
  refine hall fun tr htr => ?_
  obtain ⟨i, hi, rfl⟩ := List.mem_map.mp (List.mem_of_mem_take htr)
  rw [List.mem_range] at hi
  refine trueRange_nonneg ?_
  simpa [hi] using hbars bars[i] (List.getElem_mem hi)

theorem ema_ok {out : List (Option ℚ)} (h : ema A data period = .ok out) :
    data ≠ [] ∧ 0 < period ∧ out = padded (period.toNat - 1) (emaValues A period) data := by
  by_cases hdata : data = []
  · rw [ema, if_pos hdata] at h
    exact absurd h (by simp)
  · by_cases hperiod : period ≤ 0
    · rw [ema, if_neg hdata, if_pos hperiod] at h
      exact absurd h (by simp)
    · rw [ema_eq hdata (not_le.mp hperiod)] at h
      exact ⟨hdata, not_le.mp hperiod, (Except.ok.inj h).symm⟩

/-- An `atr` that answers has had bars and a positive period. -/
theorem atr_ok {h l c : List ℚ} {out : List (Option ℚ)} (hok : atr A h l c period = .ok out) :
    0 < period ∧ ∃ bars : List (ℚ × ℚ × ℚ),
      bars.map (fun b => b.1) = h ∧ bars.map (fun b => b.2.1) = l ∧
        out = padded (period.toNat - 1) (atrValues A period) bars := by
  by_cases hempty : h = [] ∨ l = [] ∨ c = []
  · rw [atr, if_pos hempty] at hok
    exact absurd hok (by simp)
  · by_cases hlength : h.length = l.length ∧ l.length = c.length
    · by_cases hperiod : period ≤ 0
      · rw [atr, if_neg hempty, if_neg (not_not.mpr hlength), if_pos hperiod] at hok
        exact absurd hok (by simp)
      · rw [not_le] at hperiod
        have hhl := hlength.1
        have hlc := hlength.2
        have hh : (h.zip (l.zip c)).map (fun b => b.1) = h :=
          List.map_fst_zip (by rw [List.length_zip]; omega)
        have hrest : (h.zip (l.zip c)).map Prod.snd = l.zip c :=
          List.map_snd_zip (by rw [List.length_zip]; omega)
        have hl : (h.zip (l.zip c)).map (fun b => b.2.1) = l := by
          have hfst := congrArg (List.map Prod.fst) hrest
          rw [List.map_map, List.map_fst_zip hlc.le] at hfst
          exact hfst
        have hc : (h.zip (l.zip c)).map (fun b => b.2.2) = c := by
          have hsnd := congrArg (List.map Prod.snd) hrest
          rw [List.map_map, List.map_snd_zip hlc.ge] at hsnd
          exact hsnd
        have hbars : h.zip (l.zip c) ≠ [] := by
          rintro hnil
          rw [hnil] at hh
          exact hempty (Or.inl hh.symm)
        have hanswer := @atr_eq A _ _ hbars hperiod
        rw [hh, hl, hc, hok] at hanswer
        exact ⟨hperiod, h.zip (l.zip c), hh, hl, Except.ok.inj hanswer⟩
    · rw [atr, if_neg hempty, if_pos hlength] at hok
      exact absurd hok (by simp)

/-! ### The bounds -/

/-- What rounding can move an EMA value out of the range of its inputs. -/
def emaSlack (A : Arithmetic ℚ) (i : ℕ) (lo hi : ℚ) : ℚ :=
  A.drift (3 * (i + 1)) * (2 * max |lo| |hi|)

/-- **Indicator bounds**: every RSI value is in [0, 100], every EMA value is between the
smallest and the largest of the values up to its index but for rounding, and no ATR value is
negative when no bar has its high below its low. -/
theorem indicator_bounds (A : Arithmetic ℚ) :
    (∀ (data : List ℚ) (period : ℤ) (out : List (Option ℚ)) (i : ℕ) (v : ℚ),
      rsi A data period = .ok out → out[i]? = some (some v) → 0 ≤ v ∧ v ≤ 100) ∧
    (∀ (data : List ℚ) (period : ℤ) (out : List (Option ℚ)) (i : ℕ) (v : ℚ),
      ema A data period = .ok out → out[i]? = some (some v) →
        ∃ lo hi, (data.take (i + 1)).min? = some lo ∧ (data.take (i + 1)).max? = some hi ∧
          lo - emaSlack A i lo hi ≤ v ∧ v ≤ hi + emaSlack A i lo hi) ∧
    (∀ (h l c : List ℚ) (period : ℤ) (out : List (Option ℚ)) (i : ℕ) (v : ℚ),
      atr A h l c period = .ok out → List.Forall₂ (· ≤ ·) l h → out[i]? = some (some v) →
        0 ≤ v) := by
  refine ⟨fun data period out i v hok hv => ?_, fun data period out i v hok hv => ?_,
    fun h l c period out i v hok hbars hv => ?_⟩
  · obtain ⟨-, hperiod, rfl⟩ := rsi_ok hok
    obtain ⟨-, avg, havg, rfl⟩ := rsi_value hperiod hv
    obtain ⟨hnonneg, -⟩ := rsiAverages_spec hperiod havg
    exact rsiOf_between hnonneg.1 hnonneg.2
  · obtain ⟨hdata, hperiod, rfl⟩ := ema_ok hok
    obtain ⟨hle, hvalue⟩ := (getElem?_padded_eq_some_iff (emaValues_delayed period)).mp hv
    have hne : data.take (i + 1) ≠ [] := by simpa using hdata
    have hinputs : period.toNat + (i - (period.toNat - 1)) = i + 1 := by omega
    refine ⟨_, _, List.min?_eq_some_min hne, List.max?_eq_some_max hne, ?_⟩
    have hnear := emaValues_near hperiod hvalue (fun x hx => ?_)
      (le_max_left |(data.take (i + 1)).min hne| |(data.take (i + 1)).max hne|) (le_max_right _ _)
    · rwa [hinputs] at hnear
    · rw [hinputs] at hx
      exact ⟨List.min_le_of_mem hx, List.le_max_of_mem hx⟩
  · obtain ⟨hperiod, bars, rfl, rfl, rfl⟩ := atr_ok hok
    obtain ⟨-, hvalue⟩ := (getElem?_padded_eq_some_iff (atrValues_delayed period)).mp hv
    refine atrValues_nonneg hperiod (fun bar hbar => ?_) hvalue
    rw [List.forall₂_map_left_iff, List.forall₂_map_right_iff, List.forall₂_same] at hbars
    exact hbars bar hbar

/-- A series that falls and rises, a rising one and two bars. -/
theorem indicator_bounds_example :
    (∀ v, rsi decimal28 [3, 1, 2] 2 = .ok [none, none, some v] → 0 ≤ v ∧ v ≤ 100) ∧
      (∀ v, ema decimal28 [1, 2, 4] 2 = .ok [none, some (3 / 2), some v] →
        1 - emaSlack decimal28 2 1 4 ≤ v ∧ v ≤ 4 + emaSlack decimal28 2 1 4) ∧
      (∀ v, atr decimal28 [3, 4] [2, 2] [2, 3] 2 = .ok [none, some v] → 0 ≤ v) := by
  refine ⟨fun v hv => ?_, fun v hv => ?_, fun v hv => ?_⟩
  · exact (indicator_bounds decimal28).1 _ _ _ 2 v hv rfl
  · obtain ⟨lo, hi, hlo, hhi, hbounds⟩ := (indicator_bounds decimal28).2.1 _ _ _ 2 v hv rfl
    have hmin : (([1, 2, 4] : List ℚ).take 3).min? = some 1 := by
      norm_num [List.min?]
    have hmax : (([1, 2, 4] : List ℚ).take 3).max? = some 4 := by
      norm_num [List.max?]
    obtain rfl := Option.some.inj (hmin.symm.trans hlo)
    obtain rfl := Option.some.inj (hmax.symm.trans hhi)
    exact hbounds
  · exact (indicator_bounds decimal28).2.2 _ _ _ _ _ 1 v hv (by simp; norm_num) rfl

/-- **An average out of its range.**  The difference of the two values has 29 digits, and the
small one is lost: the average is below both. -/
theorem ema_leaves_range :
    ¬∀ (data : List ℚ) (period : ℤ) (out : List (Option ℚ)) (i : ℕ) (v : ℚ),
      ema decimal28 data period = .ok out → out[i]? = some (some v) →
        ∃ lo hi, (data.take (i + 1)).min? = some lo ∧ (data.take (i + 1)).max? = some hi ∧
          lo ≤ v ∧ v ≤ hi := by
  intro hrange
  obtain ⟨lo, hi, hlo, -, hle, -⟩ :=
    hrange [10 ^ 21, 1 / 10 ^ 8] 1 [some (10 ^ 21), some 0] 1 0 (by decide +kernel) rfl
  have hmin : (([10 ^ 21, 1 / 10 ^ 8] : List ℚ).take 2).min? = some (1 / 10 ^ 8) := by
    norm_num [List.min?]
  obtain rfl := Option.some.inj (hmin.symm.trans hlo)
  norm_num at hle

/-! ### The mirrored series -/

/-- Nothing has moved up to an index, as far as the averages remember: no price differs from
the next, or with a period of 1 the last price does not differ from the one before. -/
def NoMovement (period : ℤ) (data : List ℚ) (i : ℕ) : Prop :=
  ∀ j < i, (period = 1 → j + 1 = i) → data[j]? = data[j + 1]?

theorem quiet_differences {i : ℕ} (hi : i < data.length) :
    Quiet period ((differences (gainLoss A) data).take i) ↔ NoMovement period data i := by
  have hlength : ((differences (gainLoss A) data).take i).length = i := by
    rw [List.length_take, (Delayed.differences (gainLoss A)).length]
    omega
  have hchange : ∀ j (hj : j < i), ((differences (gainLoss A) data).take i)[j]? =
      some (gainLoss A data[j] data[j + 1]) := by
    intro j hj
    rw [List.getElem?_take_of_lt hj, differences, List.getElem?_zipWith, List.getElem?_tail,
      List.getElem?_eq_getElem (by omega), List.getElem?_eq_getElem (by omega)]
  unfold Quiet NoMovement
  rw [hlength]
  constructor
  · intro hquiet j hj hlast
    have hzero := hquiet j _ (hchange j hj) hlast
    rw [List.getElem?_eq_getElem (by omega), List.getElem?_eq_getElem (by omega),
      gainLoss_eq_zero_iff.mp hzero]
  · intro hstill j change hj hlast
    have hlt : j < i := by
      rw [← hlength]
      exact (List.getElem?_eq_some_iff.mp hj).1
    have heq := hstill j hlt hlast
    rw [List.getElem?_eq_getElem (by omega), List.getElem?_eq_getElem (by omega),
      Option.some_inj] at heq
    rw [hchange j hlt, Option.some_inj] at hj
    rw [← hj]
    exact gainLoss_eq_zero_iff.mpr heq

theorem gainLoss_mirror (c prev x : ℚ) :
    gainLoss A (c - prev) (c - x) = (gainLoss A prev x).swap := by
  have hchange : A.sub (c - x) (c - prev) = -A.sub x prev := by
    rw [Arithmetic.sub, Arithmetic.sub, ← A.round_neg, neg_sub, sub_sub_sub_cancel_left]
  refine Prod.ext ?_ ?_
  · rw [Prod.fst_swap]
    dsimp only [gainLoss]
    rw [hchange]
    split_ifs <;> linarith
  · rw [Prod.snd_swap]
    dsimp only [gainLoss]
    rw [hchange]
    split_ifs <;> linarith

theorem differences_mirror (c : ℚ) (data : List ℚ) :
    differences (gainLoss A) (data.map (c - ·)) = (differences (gainLoss A) data).map Prod.swap := by
  unfold differences
  rw [← List.map_tail, List.zipWith_map, List.map_zipWith]
  simp only [gainLoss_mirror]

/-- The averages of the mirrored series are exchanged. -/
theorem rsiAverages_mirror (c : ℚ) :
    rsiAverages A period (data.map (c - ·)) = (rsiAverages A period data).map Prod.swap := by
  unfold rsiAverages
  rw [differences_mirror]
  refine seeded_map (fun first => ?_) (fun avg change => rfl) _
  rw [averages, averages, List.map_map, List.map_map]
  rfl

/-- **The RSI of a mirrored series** is defined where the RSI is, and it is what that leaves
of 100 but for rounding, unless nothing has moved: then both are 100. -/
theorem rsi_mirror {out : List (Option ℚ)} (h : rsi A data period = .ok out) (c : ℚ) :
    ∃ mirrored, rsi A (data.map (c - ·)) period = .ok mirrored ∧
      ∀ i v, out[i]? = some (some v) →
        (¬NoMovement period data i →
          ∃ w, mirrored[i]? = some (some w) ∧ |w - (100 - v)| ≤ 800 * A.error) ∧
        (NoMovement period data i → v = 100 ∧ mirrored[i]? = some (some 100)) := by
  obtain ⟨hdata, hperiod, rfl⟩ := rsi_ok h
  have hmirror : data.map (c - ·) ≠ [] := by simpa using hdata
  refine ⟨_, rsi_eq hmirror hperiod, fun i v hv => ?_⟩
  have hi : i < data.length := by
    rw [← length_padded (rsiValues_delayed (A := A) hperiod) data]
    exact (List.getElem?_eq_some_iff.mp hv).1
  obtain ⟨hle, avg, havg, rfl⟩ := rsi_value hperiod hv
  obtain ⟨hnonneg, hquiet⟩ := rsiAverages_spec hperiod havg
  rw [Nat.add_sub_cancel' hle, quiet_differences hi] at hquiet
  -- the averages are exchanged, without a rounding
  have hmirrored : (padded period.toNat (rsiValues A period) (data.map (c - ·)))[i]? =
      some (some (rsiOf A avg.2 avg.1)) := by
    rw [getElem?_padded_eq_some_iff (rsiValues_delayed hperiod)]
    refine ⟨hle, ?_⟩
    rw [rsiValues_eq, rsiAverages_mirror, List.map_map, List.getElem?_map, havg]
    rfl
  rw [hmirrored]
  constructor
  · intro hmoved
    exact ⟨_, rfl, rsiOf_swap hnonneg.1 hnonneg.2 (hquiet.not.mpr hmoved)⟩
  · intro hstill
    obtain ⟨hgain, hloss⟩ := hquiet.mpr hstill
    rw [hgain, hloss]
    exact ⟨if_pos rfl, congrArg _ (congrArg _ (if_pos rfl))⟩

/-- A series that has moved, mirrored at 5. -/
theorem rsi_mirror_example :
    ∃ mirrored, rsi decimal28 ([1, 4, 2].map ((5 : ℚ) - ·)) 2 = .ok mirrored ∧
      ∀ i v, [none, none, some (60 : ℚ)][i]? = some (some v) →
        (¬NoMovement 2 [1, 4, 2] i →
          ∃ w, mirrored[i]? = some (some w) ∧ |w - (100 - v)| ≤ 800 * decimal28.error) ∧
        (NoMovement 2 [1, 4, 2] i → v = 100 ∧ mirrored[i]? = some (some 100)) :=
  rsi_mirror (by decide +kernel) 5

/-- The two ways in which the mirrored RSI is not what is left of 100: two prices without a
movement, with an RSI of 100 both ways, and the last digit of a share. -/
theorem rsi_not_symmetric :
    (rsi decimal28 [1, 1] 1 = .ok [none, some 100] ∧
      rsi decimal28 ([1, 1].map (2 - ·)) 1 = .ok [none, some 100]) ∧
    (rsi decimal28 [1, 4, 2] 2 = .ok [none, none, some 60] ∧
      rsi decimal28 ([1, 4, 2].map (5 - ·)) 2 = .ok [none, none, some (40 + 1 / 10 ^ 26)]) ∧
    ¬∀ (data : List ℚ) (period : ℤ) (c : ℚ) (out : List (Option ℚ)) (i : ℕ) (v : ℚ),
      rsi decimal28 data period = .ok out → out[i]? = some (some v) →
        ∃ mirrored, rsi decimal28 (data.map (c - ·)) period = .ok mirrored ∧
          mirrored[i]? = some (some (100 - v)) := by
  refine ⟨⟨by decide +kernel, by decide +kernel⟩, ⟨by decide +kernel, by decide +kernel⟩, ?_⟩
  intro hsymmetric
  obtain ⟨mirrored, hok, hvalue⟩ :=
    hsymmetric [1, 1] 1 2 [none, some 100] 1 100 (by decide +kernel) rfl
  have hflat : rsi decimal28 ([1, 1].map ((2 : ℚ) - ·)) 1 = .ok [none, some 100] := by
    decide +kernel
  rw [hflat] at hok
  rw [← Except.ok.inj hok] at hvalue
  revert hvalue
  decide +kernel

end Indicators

end Atlas
