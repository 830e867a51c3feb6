import Mathlib.Algebra.Order.Group.MinMax
import Atlas.Backtest.Metrics
import Atlas.Lib.Drawdown

/-!
# The greatest drawdown, twice

The metrics of a backtest and the analytics of the paper account each go over an equity
curve from a first value.  The analytics then look at the current value too, and so find
the greatest drawdown of the first value, the curve and the last one, but for rounding.  The
metrics are given the final equity but stop at the end of the curve.

## Main definitions

* `Analytics.CurvePoint`, `Analytics.maxDrawdown` — `_max_drawdown`.
* `equitySequence` — the first value, the curve and the last value.

## Main results

* `foldl_drawdownStep_near` — a pass that rounds is next to the exact one.
* `max_drawdown_iff` — **what each of the two finds**, and when it is the same.

## References

`app/analytics/performance.py`, `app/backtesting/metrics.py`.
-/

namespace Atlas

open Drawdown Arithmetic

namespace Analytics

/-- A point of the equity curve of the account, as far as it is read. -/
structure CurvePoint where
  equity : Option ℚ := none
  deriving DecidableEq, Repr, Inhabited

/-- `point.get("equity", "0")`. -/
def CurvePoint.value (point : CurvePoint) : ℚ := point.equity.getD 0

/-- `_max_drawdown`. -/
def maxDrawdown (A : Arithmetic ℚ) (equityCurve : Option (List CurvePoint))
    (starting current : ℚ) : ℚ :=
  let step (acc : ℚ × ℚ) (eq : ℚ) : ℚ × ℚ :=
    let peak := max acc.1 eq
    (peak, if 0 < peak then max acc.2 (A.div (A.sub peak eq) peak) else acc.2)
  let acc := ((equityCurve.getD []).map CurvePoint.value).foldl step (starting, 0)
  (step acc current).2

end Analytics

namespace Backtest

/-- The initial cash, the equity curve and the final equity. -/
def equitySequence (initialCash : ℚ) (equityCurve : List (Time × ℚ)) (finalEquity : ℚ) : List ℚ :=
  initialCash :: equityCurve.map Prod.snd ++ [finalEquity]

/-- The points of an equity curve as the analytics are given them. -/
def curvePoints (equityCurve : List (Time × ℚ)) : List Analytics.CurvePoint :=
  equityCurve.map fun point => { equity := some point.2 }

variable {A : Arithmetic ℚ} {numerics : Numerics} {initialCash finalEquity peak dd dd' v : ℚ}
  {equityCurve : List (Time × ℚ)} {l : List ℚ}

/-- A fall to a positive value is computed with two roundings. -/
theorem fall_near (hv : 0 < v) (hle : v ≤ peak) :
    |A.div (A.sub peak v) peak - (peak - v) / peak| ≤ A.drift 2 := by
  have hpeak : 0 < peak := hv.trans_le hle
  have hfall : (peak - v) / peak ≤ 1 := (div_le_one hpeak).mpr (by linarith)
  have happrox := ((A.approx_round (peak - v)).div_const peak).round
  rw [abs_of_nonneg (sub_nonneg.mpr hle), abs_of_pos hpeak] at happrox
  calc |A.div (A.sub peak v) peak - (peak - v) / peak|
      ≤ A.drift 2 * ((peak - v) / peak) := happrox.near
    _ ≤ A.drift 2 := mul_le_of_le_one_right (A.drift_nonneg 2) hfall

/-- **A pass that rounds** is next to the exact one. -/
theorem foldl_drawdownStep_near (hpos : ∀ v ∈ l, 0 < v) (hdd : |dd' - dd| ≤ A.drift 2) :
    (l.foldl (drawdownStep A) (peak, dd')).1 = (l.foldl Drawdown.step (peak, dd)).1 ∧
      |(l.foldl (drawdownStep A) (peak, dd')).2 - (l.foldl Drawdown.step (peak, dd)).2| ≤
        A.drift 2 := by
  induction l generalizing peak dd dd' with
  | nil => exact ⟨rfl, hdd⟩
  | cons v l ih =>
    have hv : 0 < v := hpos v (List.mem_cons_self ..)
    have hhigh : 0 < max peak v := lt_max_of_lt_right hv
    rw [List.foldl_cons, List.foldl_cons, drawdownStep, Drawdown.step]
    simp only [if_pos hhigh]
    refine ih (fun w hw => hpos w (List.mem_cons_of_mem _ hw)) ?_
    exact (abs_max_sub_max_le_max _ _ _ _).trans (max_le hdd (fall_near hv (le_max_right ..)))

/-- **What the two find.**  Of positive values, the analytics find the greatest drawdown of the
whole sequence and the metrics that of the initial cash and the curve, each but for two
roundings.  These are the same, and there are metrics, exactly if every fall from an earlier
value to the final equity is matched by a fall before it, and the growth can be quantized. -/
theorem max_drawdown_iff (A : Arithmetic ℚ) (numerics : Numerics) (trades : List BacktestTrade)
    (equityCurve : List (Time × ℚ)) (initialCash finalEquity : ℚ)
    (hpos : ∀ v ∈ equitySequence initialCash equityCurve finalEquity, 0 < v) :
    ∃ d d',
      IsGreatest (drawdowns (equitySequence initialCash equityCurve finalEquity)) d ∧
      |Analytics.maxDrawdown A (some (curvePoints equityCurve)) initialCash finalEquity - d| ≤
        A.drift 2 ∧
      IsGreatest (drawdowns (initialCash :: equityCurve.map Prod.snd)) d' ∧
      (∀ m, computeMetrics A numerics trades equityCurve initialCash finalEquity = .ok m →
        |m.maxDrawdown - d'| ≤ A.drift 2) ∧
      ((∃ m, computeMetrics A numerics trades equityCurve initialCash finalEquity = .ok m) ∧
          d' = d ↔
        Quantizable A numerics equityCurve initialCash finalEquity ∧
          ∀ v ∈ initialCash :: equityCurve.map Prod.snd,
            ∃ d ∈ drawdowns (initialCash :: equityCurve.map Prod.snd),
              (v - finalEquity) / v ≤ d) := by
  have hfront : ∀ v ∈ initialCash :: equityCurve.map Prod.snd, 0 < v := fun v hv =>
    hpos v (List.mem_append_left _ hv)
  obtain ⟨-, hwhole⟩ := @isGreatest_foldl ℚ _ (equityCurve.map Prod.snd ++ [finalEquity])
    initialCash _ _ hpos
  obtain ⟨-, hcurve⟩ := isGreatest_foldl hfront
  refine ⟨_, _, hwhole, ?_, hcurve, fun m hm => ?_, ?_⟩
  · have hvalues : (curvePoints equityCurve).map Analytics.CurvePoint.value =
        equityCurve.map Prod.snd := by
      rw [curvePoints, List.map_map]
      rfl
    have hnear := @foldl_drawdownStep_near A initialCash 0 0
      (equityCurve.map Prod.snd ++ [finalEquity])
      (fun v hv => hpos v (List.mem_cons_of_mem _ hv)) (by simpa using A.drift_nonneg 2)
    rw [List.foldl_concat] at hnear
    simp only [Analytics.maxDrawdown, Option.getD_some, hvalues]
    exact hnear.2
  · obtain ⟨x, rfl⟩ := computeMetrics_eq_ok hm
    exact (foldl_drawdownStep_near (fun v hv => hfront v (List.mem_cons_of_mem _ hv))
      (by simpa using A.drift_nonneg 2)).2
  · rw [computeMetrics_isOk_iff, ← isGreatest_concat_iff (List.cons_ne_nil _ _) hcurve]
    exact and_congr_right fun _ => ⟨fun heq => heq ▸ hwhole, fun h => h.unique hwhole⟩

/-- Numerics that never fail, with a growth of ten percent. -/
def tenPercent : Numerics where
  square x := x ^ 2
  sqrt x := x
  growth _ _ := .finite (1 / 10)

/-- A curve that falls by a tenth, and a final equity above it. -/
theorem max_drawdown_iff_above :
    ∃ m d, computeMetrics decimal28 tenPercent [] [(0, 90)] 100 95 = .ok m ∧
      IsGreatest (drawdowns [100, 90, 95]) d ∧ |m.maxDrawdown - d| ≤ decimal28.drift 2 := by
  have hpos : ∀ v ∈ equitySequence 100 [(0, 90)] 95, 0 < v := by decide +kernel
  obtain ⟨d, d', hd, -, -, hmetrics, hiff⟩ :=
    max_drawdown_iff decimal28 tenPercent [] [(0, 90)] 100 95 hpos
  have hfalls : ∀ v ∈ (100 : ℚ) :: [((0 : Time), (90 : ℚ))].map Prod.snd,
      ∃ d ∈ drawdowns ((100 : ℚ) :: [((0 : Time), (90 : ℚ))].map Prod.snd), (v - 95) / v ≤ d := by
    intro v hv
    refine ⟨(100 - 90) / 100, ⟨0, 1, 100, 90, by decide, rfl, rfl, rfl⟩, ?_⟩
    rcases List.mem_pair.1 hv with rfl | rfl
    all_goals norm_num
  have hgrowth : Quantizable decimal28 tenPercent [(0, 90)] 100 95 := fun g hg => by
    rw [show annualGrowth decimal28 tenPercent [(0, 90)] 100 95 = none by decide +kernel] at hg
    cases hg
  obtain ⟨⟨m, hm⟩, rfl⟩ := hiff.mpr ⟨hgrowth, hfalls⟩
  exact ⟨m, _, hm, hd, hmetrics m hm⟩

/-- A final equity below every value of the curve: the metrics report no drawdown at all. -/
theorem max_drawdown_misses_final :
    ∃ m, computeMetrics decimal28 tenPercent [] [(0, 100)] 100 50 = .ok m ∧ m.maxDrawdown = 0 ∧
      IsGreatest (drawdowns (equitySequence 100 [(0, 100)] 50)) (1 / 2) := by
  have hpos : ∀ v ∈ equitySequence 100 [(0, 100)] 50, 0 < v := by decide +kernel
  have hgreatest := (@isGreatest_foldl ℚ _ [100, 50] 100 _ _ hpos).2
  have hhalf : ([100, 50].foldl Drawdown.step ((100 : ℚ), 0)).2 = 1 / 2 := by decide +kernel
  exact ⟨_, rfl, by decide +kernel, hhalf ▸ hgreatest⟩

end Backtest

end Atlas
