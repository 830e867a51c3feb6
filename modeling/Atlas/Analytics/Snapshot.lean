import Atlas.Analytics.Performance
import Atlas.Analytics.TradeJournal
import Atlas.Lib.Grouping
import Atlas.Lib.Isoformat
import Mathlib.Data.Char
import Mathlib.Data.List.Lex

/-!
# The performance of the account

The metrics of the paper account are computed from its closed trades, its equity curve and its
balances; the charts from the equity curve alone.

All of it is in an arithmetic, and what it says holds but for its roundings; that `quantize`
raises for values of too many digits is left out.  A point of the curve has at most two texts for
its time; a drawdown that is given with it takes the place of the computed one, and one that is no
number is as good as none.  Times of other forms than the ones that `isoformat` writes are no
times.

## Main definitions

* `compute`, `PerformanceSnapshot` — the metrics.
* `buildEquitySeries`, `EquitySeries` — the charts.

## Main results

* `compute_explains` — **the metrics explain the profit**: the rates and the averages give the
  sum, the profit factor its sign, and the streaks are the longest ones.
* `dailyReturns_compound` — **the daily returns compound to the last equity**.
* `maximumDrawdown_charted` — **the greatest drawdown is the greatest one of the chart**.

## References

`app/analytics/performance.py`.
-/

namespace Atlas

namespace Analytics

open Calendar Arithmetic

/-! ### The metrics -/

/-- A point of the equity curve with the texts of its time. -/
structure EquityPoint extends CurvePoint where
  time : Option String := none
  createdAt : Option String := none
  drawdown : Option ℚ := none
  deriving DecidableEq, Repr, Inhabited

/-- `str(point.get("time") or point.get("created_at") or "")` -/
def EquityPoint.stamp (point : EquityPoint) : String :=
  textOr point.time (textOr point.createdAt "")

/-- `ensure_utc(datetime.fromisoformat(text.replace("Z", "+00:00")))` -/
def readStamp (text : String) : Option Time :=
  (DateTime.fromisoformat (DateTime.replaceZulu text.toList)).map fun t =>
    t.wall - t.offset.getD 0 * 60000000

/-- `PerformanceSnapshot` -/
structure PerformanceSnapshot where
  currentBalance : ℚ
  startingBalance : ℚ
  unrealisedPnl : ℚ
  realisedPnl : ℚ
  dailyPnl : ℚ
  weeklyPnl : ℚ
  monthlyPnl : ℚ
  roiPct : ℚ
  winRate : ℚ
  lossRate : ℚ
  profitFactor : ℚ
  averageWin : ℚ
  averageLoss : ℚ
  largestWin : ℚ
  largestLoss : ℚ
  maximumDrawdown : ℚ
  consecutiveWins : ℕ
  consecutiveLosses : ℕ
  averageHoldingTime : ℚ
  totalFees : ℚ
  totalSimulatedVolume : ℚ
  tradeCount : ℕ
  openPositionCount : ℕ
  deriving DecidableEq, Repr, Inhabited

/-- `_max_streak` -/
def maxStreak (pnls : List ℚ) (winning : Bool) : ℕ :=
  longest (fun p => if winning then 0 < p else p < 0) pnls

/-- The points of the curve from a time on; a point without an equity raises there. -/
def windowPoints (cutoff : Time) : List EquityPoint → Option (List (Time × ℚ))
  | [] => some []
  | point :: points =>
      match readStamp point.stamp with
      | none => windowPoints cutoff points
      | some ts =>
          if cutoff ≤ ts then do
            let equity ← point.equity
            let rest ← windowPoints cutoff points
            some ((ts, equity) :: rest)
          else windowPoints cutoff points

variable (A : Arithmetic ℚ)

/-- `_period_pnl` -/
def periodPnl (trades : List ClosedTrade) (equityCurve : Option (List EquityPoint)) (now : Time)
    (days : ℤ) : Option ℚ := do
  let cutoff := now - days * dayMicros
  let inWindow ← windowPoints cutoff (equityCurve.getD [])
  match inWindow.mergeSort fun x y => x.1 ≤ y.1 with
  | first :: second :: rest => some (A.sub ((second :: rest).getLastD second).2 first.2)
  | _ => some (A.sum ((trades.filter fun t => cutoff ≤ t.exitTime).map ClosedTrade.netPnl))

/-- `max(xs) if xs else 0`, and `min` likewise. -/
def maxOr (xs : List ℚ) : ℚ := xs.max?.getD 0

def minOr (xs : List ℚ) : ℚ := xs.min?.getD 0

/-- The average of a list, which is zero for an empty one. -/
def averageOr (xs : List ℚ) : ℚ := if xs = [] then 0 else A.div (A.sum xs) xs.length

/-- `PerformanceEngine.compute` -/
def compute (startingBalance : ℚ) (trades : List ClosedTrade) (currentBalance unrealisedPnl : ℚ)
    (realisedPnl : Option ℚ) (equityCurve : Option (List EquityPoint)) (openPositionCount : ℕ)
    (now : Time) : Option PerformanceSnapshot := do
  let pnls := trades.map ClosedTrade.netPnl
  let wins := pnls.filter (0 < ·)
  let losses := pnls.filter (· < 0)
  let count := trades.length
  let grossProfit := A.sum wins
  let grossLoss := |A.sum losses|
  let daily ← periodPnl A trades equityCurve now 1
  let weekly ← periodPnl A trades equityCurve now 7
  let monthly ← periodPnl A trades equityCurve now 30
  some
    { currentBalance
      startingBalance
      unrealisedPnl
      realisedPnl := realisedPnl.getD (A.sum pnls)
      dailyPnl := daily
      weeklyPnl := weekly
      monthlyPnl := monthly
      roiPct :=
        if 0 < startingBalance then A.mul (A.sub (A.div currentBalance startingBalance) 1) 100
        else 0
      winRate := if count = 0 then 0 else A.div wins.length count
      lossRate := if count = 0 then 0 else A.div losses.length count
      profitFactor :=
        if 0 < grossLoss then A.div grossProfit grossLoss
        else if 0 < grossProfit then 999999 else 0
      averageWin := averageOr A wins
      averageLoss := averageOr A losses
      largestWin := maxOr wins
      largestLoss := minOr losses
      maximumDrawdown :=
        maxDrawdown A (equityCurve.map (·.map EquityPoint.toCurvePoint)) startingBalance
          currentBalance
      consecutiveWins := maxStreak pnls true
      consecutiveLosses := maxStreak pnls false
      averageHoldingTime :=
        if count = 0 then 0
        else A.div (trades.map fun t => (t.durationSeconds : ℚ)).sum count
      totalFees := A.sum (trades.map ClosedTrade.fees)
      totalSimulatedVolume :=
        A.add (A.sum (trades.map fun t => A.mul t.entryPrice t.quantity))
          (A.sum (trades.map fun t => A.mul t.exitPrice t.quantity))
      tradeCount := count
      openPositionCount }

/-! ### The charts -/

/-- The day of a point. -/
def EquityPoint.day (point : EquityPoint) : List Char := point.stamp.toList.take 10

/-- The drawdowns of the points behind a peak. -/
def drawdownsFrom (peak : ℚ) : List EquityPoint → List ℚ
  | [] => []
  | point :: points =>
      let peak := max peak point.value
      point.drawdown.getD (if 0 < peak then A.div (A.sub peak point.value) peak else 0) ::
        drawdownsFrom peak points

/-- The equity of each day: the last one of its points. -/
def dayClose (points : List EquityPoint) : Dict (List Char) ℚ :=
  points.foldl (fun d point => if point.day = [] then d else d.set point.day point.value) ∅

/-- The days in their order. -/
def closeDays (points : List EquityPoint) : List (List Char) :=
  (dayClose points).keys.mergeSort fun day day' => day ≤ day'

/-- The equities of the days. -/
def closes (points : List EquityPoint) : List ℚ :=
  (closeDays points).map fun day => ((dayClose points).get? day).getD 0

/-- The returns of the days behind an equity. -/
def returnsFrom (prevEq : ℚ) : List ℚ → List ℚ
  | [] => []
  | eq :: rest => (if 0 < prevEq then A.div (A.sub eq prevEq) prevEq else 0) :: returnsFrom eq rest

structure EquitySeries where
  balanceHistory : List (String × ℚ)
  drawdownHistory : List (String × ℚ)
  dailyReturnHistory : List (List Char × ℚ)
  deriving DecidableEq, Repr

/-- `build_equity_series` -/
def buildEquitySeries (points : List EquityPoint) (startingBalance : ℚ) : EquitySeries where
  balanceHistory := points.map fun point =>
    (point.stamp, Quantize.quantize (1 / 100) point.value)
  drawdownHistory := (points.map EquityPoint.stamp).zip
    ((drawdownsFrom A startingBalance points).map (Quantize.quantize (1 / 10000)))
  dailyReturnHistory := (closeDays points).zip
    ((returnsFrom A startingBalance (closes points)).map fun ret =>
      Quantize.quantize (1 / 10000) (A.mul ret 100))

variable {A}

/-! ### The metrics explain the profit -/

theorem pos_of_mem_wins {pnls : List ℚ} {p : ℚ} (hp : p ∈ pnls.filter (0 < ·)) : 0 < p :=
  of_decide_eq_true (List.mem_filter.mp hp).2

theorem neg_of_mem_losses {pnls : List ℚ} {p : ℚ} (hp : p ∈ pnls.filter (· < 0)) : p < 0 :=
  of_decide_eq_true (List.mem_filter.mp hp).2

/-- The wins and the losses are no more than the trades. -/
theorem length_wins_add_length_losses (pnls : List ℚ) :
    (pnls.filter (0 < ·)).length + (pnls.filter (· < 0)).length ≤ pnls.length := by
  induction pnls with
  | nil => simp
  | cons p pnls ih =>
    rcases lt_trichotomy p 0 with hneg | rfl | hpos
    · simp only [List.filter_cons, hneg, not_lt.mpr hneg.le, decide_true, decide_false, if_true,
        Bool.false_eq_true, if_false, List.length_cons]
      omega
    · simp only [List.filter_cons, lt_irrefl, decide_false, Bool.false_eq_true, if_false,
        List.length_cons]
      omega
    · simp only [List.filter_cons, hpos, not_lt.mpr hpos.le, decide_true, decide_false, if_true,
        Bool.false_eq_true, if_false, List.length_cons]
      omega

/-- A computed average. -/
theorem averageOr_near {xs : List ℚ} {M : ℚ} {n : ℕ} (hsome : xs ≠ [])
    (hsum : A.Approx n M (A.sum xs) xs.sum) :
    A.Approx (n + 1) (M / xs.length) (averageOr A xs) (xs.sum / xs.length) := by
  have h := (hsum.div_const xs.length).round
  rw [Nat.abs_cast] at h
  rw [averageOr, if_neg hsome]
  exact h

/-- A share of the trades times an average is what the share gives, but for rounding. -/
theorem share_mul_average_near {xs : List ℚ} {M : ℚ} {count n : ℕ} (hcount : count ≠ 0)
    (hsum : A.Approx n M (A.sum xs) xs.sum) :
    |count * (A.div xs.length count * averageOr A xs) - xs.sum| ≤ A.drift (n + 2) * M := by
  have hpos : (0 : ℚ) < count := by exact_mod_cast Nat.pos_of_ne_zero hcount
  by_cases hnil : xs = []
  · have hM := mul_nonneg (A.drift_nonneg (n + 2)) hsum.nonneg
    simpa [hnil, averageOr] using hM
  · have hlength : (0 : ℚ) < xs.length := by
      exact_mod_cast List.length_pos_iff.mpr hnil
    have hshare : A.Approx 1 ((xs.length : ℚ) / count) (A.div xs.length count)
        (xs.length / count) := by
      have h := A.approx_round ((xs.length : ℚ) / count)
      rwa [abs_of_pos (div_pos hlength hpos)] at h
    have hproduct := hshare.mul (averageOr_near hnil hsum)
    have hvalue : (xs.length : ℚ) / count * (xs.sum / xs.length) = xs.sum / count := by
      field_simp
    have hsize : (xs.length : ℚ) / count * (M / xs.length) = M / count := by
      field_simp
    rw [hvalue, hsize, show 1 + (n + 1) = n + 2 by ring] at hproduct
    have hscale : count * (A.div xs.length count * averageOr A xs) - xs.sum =
        count * (A.div xs.length count * averageOr A xs - xs.sum / count) := by
      field_simp
    calc |count * (A.div xs.length count * averageOr A xs) - xs.sum|
        = count * |A.div xs.length count * averageOr A xs - xs.sum / count| := by
          rw [hscale, abs_mul, abs_of_pos hpos]
      _ ≤ count * (A.drift (n + 2) * (M / count)) :=
          mul_le_mul_of_nonneg_left hproduct.near hpos.le
      _ = A.drift (n + 2) * M := by field_simp

theorem le_maxOr {xs : List ℚ} {x : ℚ} (hx : x ∈ xs) : x ≤ maxOr xs := by
  obtain ⟨m, hm⟩ := Option.isSome_iff_exists.mp (List.isSome_max?_of_mem hx)
  rw [maxOr, hm, Option.getD_some]
  exact (List.max?_eq_some_iff.mp hm).2 x hx

theorem minOr_le {xs : List ℚ} {x : ℚ} (hx : x ∈ xs) : minOr xs ≤ x := by
  obtain ⟨m, hm⟩ := Option.isSome_iff_exists.mp (List.isSome_min?_of_mem hx)
  rw [minOr, hm, Option.getD_some]
  exact (List.min?_eq_some_iff.mp hm).2 x hx

/-- The average of the wins is between zero and the largest one. -/
theorem averageOr_wins {pnls : List ℚ} {n : ℕ} (hn : (pnls.filter (0 < ·)).length ≤ n) :
    0 ≤ averageOr A (pnls.filter (0 < ·)) ∧
      averageOr A (pnls.filter (0 < ·)) ≤
        (1 + A.drift (n + 1)) * maxOr (pnls.filter (0 < ·)) := by
  have hpos : ∀ p ∈ pnls.filter (0 < ·), 0 ≤ p := fun p hp => (pos_of_mem_wins hp).le
  generalize pnls.filter (0 < ·) = wins at hn hpos
  by_cases hnil : wins = []
  · simp [hnil, averageOr, maxOr]
  · have hlength : (0 : ℚ) < wins.length := by exact_mod_cast List.length_pos_iff.mpr hnil
    have hmean : wins.sum / wins.length ≤ maxOr wins := by
      rw [div_le_iff₀ hlength, mul_comm, ← nsmul_eq_mul]
      exact List.sum_le_card_nsmul _ _ fun p hp => le_maxOr hp
    have hnear := (averageOr_near hnil (sum_near_of_nonneg (A := A) hpos hn)).abs_computed_le
    refine ⟨?_, ?_⟩
    · rw [averageOr, if_neg hnil]
      exact A.div_nonneg (A.sum_nonneg hpos) hlength.le
    · exact (le_abs_self _).trans (hnear.trans (mul_le_mul_of_nonneg_left hmean
        (add_nonneg zero_le_one (A.drift_nonneg _))))

/-- The average of the losses is between the largest one and zero. -/
theorem averageOr_losses {pnls : List ℚ} {n : ℕ} (hn : (pnls.filter (· < 0)).length ≤ n) :
    (1 + A.drift (n + 1)) * minOr (pnls.filter (· < 0)) ≤ averageOr A (pnls.filter (· < 0)) ∧
      averageOr A (pnls.filter (· < 0)) ≤ 0 := by
  have hneg : ∀ p ∈ pnls.filter (· < 0), p ≤ 0 := fun p hp => (neg_of_mem_losses hp).le
  generalize pnls.filter (· < 0) = losses at hn hneg
  by_cases hnil : losses = []
  · simp [hnil, averageOr, minOr]
  · have hlength : (0 : ℚ) < losses.length := by exact_mod_cast List.length_pos_iff.mpr hnil
    have hmean : minOr losses ≤ losses.sum / losses.length := by
      rw [le_div_iff₀ hlength, mul_comm, ← nsmul_eq_mul]
      exact List.card_nsmul_le_sum _ _ fun p hp => minOr_le hp
    have hnear := (averageOr_near hnil (sum_near_of_nonpos (A := A) hneg hn)).abs_computed_le
    refine ⟨?_, ?_⟩
    · have hscaled := mul_le_mul_of_nonneg_left hmean
        (add_nonneg zero_le_one (A.drift_nonneg (n + 1)))
      rw [neg_div, mul_neg] at hnear
      linarith [neg_abs_le (averageOr A losses)]
    · rw [averageOr, if_neg hnil]
      exact A.round_nonpos (div_nonpos_of_nonpos_of_nonneg (A.sum_nonpos hneg) hlength.le)

/-! #### The profit factor -/

/-- `gross_profit / gross_loss if gross_loss > 0 else (... if gross_profit > 0 else ...)` -/
theorem lt_of_one_lt_profitFactor {profit loss : ℚ} (hloss : 0 ≤ loss)
    (h : 1 < if 0 < loss then A.div profit loss else if 0 < profit then 999999 else 0) :
    loss < profit := by
  split at h
  · rename_i hpos
    by_contra hle
    have hone := A.round_mono ((div_le_one hpos).mpr (not_lt.mp hle))
    rw [A.round_one] at hone
    exact absurd h (not_lt.mpr hone)
  · rename_i hzero
    have hloss : loss = 0 := le_antisymm (not_lt.mp hzero) hloss
    split at h
    · rwa [hloss]
    · norm_num at h

theorem profit_le_of_profitFactor_le {profit loss : ℚ} (hloss : 0 ≤ loss)
    (h : ¬ 1 < if 0 < loss then A.div profit loss else if 0 < profit then 999999 else 0) :
    profit ≤ (1 + A.drift 2) * loss := by
  split at h
  · rename_i hpos
    have hquotient := A.le_of_round_le (not_lt.mp h)
    rwa [abs_one, mul_one, div_le_iff₀ hpos] at hquotient
  · rename_i hzero
    have hloss : loss = 0 := le_antisymm (not_lt.mp hzero) hloss
    split at h
    · norm_num at h
    · rw [hloss, mul_zero]
      exact not_lt.mp ‹_›

/-- The quotient of what is won and what is lost is above one exactly if more is won, but for
rounding. -/
theorem profitFactor_iff {wins losses : List ℚ} {n : ℕ} (hwins : ∀ p ∈ wins, 0 ≤ p)
    (hlosses : ∀ p ∈ losses, p ≤ 0) (hn : wins.length ≤ n) (hn' : losses.length ≤ n) :
    let factor := if 0 < |A.sum losses| then A.div (A.sum wins) |A.sum losses|
      else if 0 < A.sum wins then 999999 else 0
    (1 < factor → -(A.drift n * (wins.sum - losses.sum)) < wins.sum + losses.sum) ∧
      (A.drift (n + 2) * (wins.sum - losses.sum) < wins.sum + losses.sum → 1 < factor) := by
  have hwon := abs_le.mp (sum_near_of_nonneg (A := A) hwins hn).near
  have hlost := sum_near_of_nonpos (A := A) hlosses hn'
  have hlost' := abs_le.mp hlost.near
  have hsign : |A.sum losses| = -A.sum losses := abs_of_nonpos (A.sum_nonpos hlosses)
  refine ⟨fun h => ?_, fun h => ?_⟩
  · have hless := lt_of_one_lt_profitFactor (abs_nonneg _) h
    rw [hsign] at hless
    linarith [hwon.2, hlost'.1]
  · by_contra hle
    have hmore := profit_le_of_profitFactor_le (abs_nonneg _) hle
    have hscaled := mul_le_mul_of_nonneg_left hlost.abs_computed_le
      (add_nonneg zero_le_one (A.drift_nonneg 2))
    have hgrow := mul_le_mul_of_nonneg_right (A.drift_mono (Nat.le_add_right n 2))
      (List.sum_nonneg hwins)
    rw [Nat.add_comm n 2, drift_add] at h hgrow
    linarith [hwon.1]

/-- The rates and the averages give the sum. -/
theorem expectancy {pnls : List ℚ} {count : ℕ} (hcount : pnls.length = count) :
    |pnls.sum - count *
      ((if count = 0 then 0 else A.div (pnls.filter (0 < ·)).length count) *
          averageOr A (pnls.filter (0 < ·)) +
        (if count = 0 then 0 else A.div (pnls.filter (· < 0)).length count) *
          averageOr A (pnls.filter (· < 0)))| ≤ A.drift (count + 2) * (pnls.map (|·|)).sum := by
  by_cases hzero : count = 0
  · have hnil : pnls = [] := List.eq_nil_of_length_eq_zero (hcount.trans hzero)
    simp [hnil, hzero]
  · have hwins := share_mul_average_near (A := A) hzero
      (sum_near_of_nonneg (fun p hp => (pos_of_mem_wins hp).le)
        ((List.length_filter_le _ pnls).trans hcount.le))
    have hlosses := share_mul_average_near (A := A) hzero
      (sum_near_of_nonpos (fun p hp => (neg_of_mem_losses hp).le)
        ((List.length_filter_le _ pnls).trans hcount.le))
    rw [if_neg hzero, if_neg hzero, ← sum_filter_pos_add_neg pnls, ← sum_filter_pos_sub_neg pnls,
      abs_sub_comm]
    set won := (count : ℚ) * (A.div (pnls.filter (0 < ·)).length count *
      averageOr A (pnls.filter (0 < ·)))
    set lost := (count : ℚ) * (A.div (pnls.filter (· < 0)).length count *
      averageOr A (pnls.filter (· < 0)))
    rw [mul_add]
    calc |won + lost - ((pnls.filter (0 < ·)).sum + (pnls.filter (· < 0)).sum)|
        = |(won - (pnls.filter (0 < ·)).sum) + (lost - (pnls.filter (· < 0)).sum)| := by
          rw [add_sub_add_comm]
      _ ≤ A.drift (count + 2) * (pnls.filter (0 < ·)).sum +
          A.drift (count + 2) * -(pnls.filter (· < 0)).sum :=
          (abs_add_le _ _).trans (add_le_add hwins hlosses)
      _ = A.drift (count + 2) * ((pnls.filter (0 < ·)).sum - (pnls.filter (· < 0)).sum) := by ring

/-- The rates are the shares of different trades. -/
theorem rates_le_one {pnls : List ℚ} {count : ℕ} (hcount : pnls.length = count) :
    (if count = 0 then 0 else A.div (pnls.filter (0 < ·)).length count) +
      (if count = 0 then 0 else A.div (pnls.filter (· < 0)).length count) ≤ 1 + A.error := by
  by_cases hzero : count = 0
  · simpa [hzero] using add_nonneg zero_le_one A.error_nonneg
  · have hpos : (0 : ℚ) < count := by exact_mod_cast Nat.pos_of_ne_zero hzero
    have hshare (k : ℕ) : A.div k count ≤ (1 + A.error) * (k / count) := by
      have h := (A.approx_round ((k : ℚ) / count)).abs_computed_le
      rw [drift, pow_one, add_sub_cancel,
        abs_of_nonneg (div_nonneg (Nat.cast_nonneg k) hpos.le)] at h
      exact (le_abs_self _).trans h
    have hall : ((pnls.filter (0 < ·)).length : ℚ) / count +
        (pnls.filter (· < 0)).length / count ≤ 1 := by
      rw [← add_div, div_le_one hpos, ← hcount]
      exact_mod_cast length_wins_add_length_losses pnls
    rw [if_neg hzero, if_neg hzero]
    calc A.div (pnls.filter (0 < ·)).length count + A.div (pnls.filter (· < 0)).length count
        ≤ (1 + A.error) * ((pnls.filter (0 < ·)).length / count) +
            (1 + A.error) * ((pnls.filter (· < 0)).length / count) :=
          add_le_add (hshare _) (hshare _)
      _ = (1 + A.error) * ((pnls.filter (0 < ·)).length / count +
            (pnls.filter (· < 0)).length / count) := by ring
      _ ≤ 1 + A.error :=
          mul_le_of_le_one_right (add_nonneg zero_le_one A.error_nonneg) hall

/-- **The metrics explain the profit.**  Its average is what the rates and the averages of wins
and losses give; the profit factor is above one exactly if it is positive; and no streak of wins
or losses is longer than the longest one.  What is computed with decimals holds but for their
rounding. -/
theorem compute_explains {startingBalance currentBalance unrealisedPnl : ℚ}
    {trades : List ClosedTrade} {realisedPnl : Option ℚ} {equityCurve : Option (List EquityPoint)}
    {openPositionCount : ℕ} {now : Time} {s : PerformanceSnapshot}
    (h : compute A startingBalance trades currentBalance unrealisedPnl realisedPnl equityCurve
      openPositionCount now = some s) :
    let pnls := trades.map ClosedTrade.netPnl
    let turnover := (pnls.map (|·|)).sum
    |pnls.sum - s.tradeCount * (s.winRate * s.averageWin + s.lossRate * s.averageLoss)| ≤
        A.drift (trades.length + 2) * turnover ∧
      (1 < s.profitFactor → -(A.drift trades.length * turnover) < pnls.sum) ∧
      (A.drift (trades.length + 2) * turnover < pnls.sum → 1 < s.profitFactor) ∧
      s.winRate + s.lossRate ≤ 1 + A.error ∧
      (0 ≤ s.averageWin ∧ s.averageWin ≤ (1 + A.drift (trades.length + 1)) * s.largestWin) ∧
      ((1 + A.drift (trades.length + 1)) * s.largestLoss ≤ s.averageLoss ∧ s.averageLoss ≤ 0) ∧
      IsGreatest (blockLengths (0 < ·) pnls) s.consecutiveWins ∧
      IsGreatest (blockLengths (· < 0) pnls) s.consecutiveLosses := by
  simp only [compute, Option.bind_eq_bind, Option.bind_eq_some_iff, Option.some.injEq] at h
  obtain ⟨_, -, _, -, _, -, rfl⟩ := h
  intro pnls turnover
  have hlength : pnls.length = trades.length := List.length_map ..
  have hcount (P : ℚ → Prop) [DecidablePred P] : (pnls.filter P).length ≤ trades.length :=
    (List.length_filter_le _ pnls).trans hlength.le
  obtain ⟨hfactor, hfactor'⟩ := profitFactor_iff (A := A)
    (fun p hp => (pos_of_mem_wins hp).le) (fun p hp => (neg_of_mem_losses hp).le)
    (hcount (0 < ·)) (hcount (· < 0))
  rw [sum_filter_pos_add_neg, sum_filter_pos_sub_neg] at hfactor hfactor'
  exact ⟨expectancy hlength, hfactor, hfactor', rates_le_one hlength,
    averageOr_wins (hcount _), averageOr_losses (hcount _), isGreatest_longest pnls,
    isGreatest_longest pnls⟩

/-- A trade with a profit. -/
def ClosedTrade.ofNetPnl (netPnl : ℚ) : ClosedTrade := { (default : ClosedTrade) with netPnl }

/-- A win of three, a loss of one and a win of two. -/
theorem compute_explains_three :
    ∃ s, compute decimal28 100 ([3, -1, 2].map ClosedTrade.ofNetPnl) 104 0 none none 0 0 = some s ∧
      |4 - s.tradeCount * (s.winRate * s.averageWin + s.lossRate * s.averageLoss)| ≤ 1 / 10 ^ 25 ∧
        1 < s.profitFactor := by
  have hsum : (([3, -1, 2].map ClosedTrade.ofNetPnl).map ClosedTrade.netPnl).sum = 4 := by
    norm_num [ClosedTrade.ofNetPnl]
  have hturnover : ((([3, -1, 2].map ClosedTrade.ofNetPnl).map ClosedTrade.netPnl).map
      (|·|)).sum = 6 := by
    norm_num [ClosedTrade.ofNetPnl]
  have hdrift : decimal28.drift 5 * 6 ≤ 1 / 10 ^ 25 := by decide +kernel
  have hsome : (compute decimal28 100 ([3, -1, 2].map ClosedTrade.ofNetPnl) 104 0 none none 0
      0).isSome := by
    decide +kernel
  obtain ⟨s, hs⟩ := Option.isSome_iff_exists.mp hsome
  obtain ⟨hexplained, -, hfactor, -⟩ := compute_explains hs
  rw [hsum, hturnover] at hexplained hfactor
  exact ⟨s, hs, hexplained.trans hdrift,
    hfactor (lt_of_le_of_lt hdrift (by norm_num))⟩

/-! ### The charts agree with the curve -/

theorem length_returnsFrom (prevEq : ℚ) (eqs : List ℚ) :
    (returnsFrom A prevEq eqs).length = eqs.length := by
  induction eqs generalizing prevEq with
  | nil => rfl
  | cons eq eqs ih => rw [returnsFrom, List.length_cons, List.length_cons, ih]

/-- Returns compound to the last equity. -/
theorem prod_returnsFrom {prevEq : ℚ} (hprev : 0 < prevEq) {eqs : List ℚ}
    (hpos : ∀ eq ∈ eqs, 0 < eq) :
    prevEq * ((returnsFrom exact prevEq eqs).map (1 + ·)).prod = eqs.getLastD prevEq := by
  induction eqs generalizing prevEq with
  | nil => simp [returnsFrom]
  | cons eq eqs ih =>
    have heq : 0 < eq := hpos eq (List.mem_cons_self ..)
    have hstep : prevEq * (1 + (eq - prevEq) / prevEq) = eq := by
      field_simp
      ring
    rw [returnsFrom, if_pos hprev, exact_sub, exact_div, List.map_cons, List.prod_cons,
      ← mul_assoc, hstep, ih heq fun x hx => hpos x (List.mem_cons_of_mem _ hx), List.getLastD_cons]

/-- The percentage that a rounded arithmetic gives for a return. -/
theorem percentage_near (eq prevEq : ℚ) :
    |A.mul (A.div (A.sub eq prevEq) prevEq) 100 - (eq - prevEq) / prevEq * 100| ≤
      A.drift 3 * |(eq - prevEq) / prevEq * 100| := by
  have h := (((A.approx_round (eq - prevEq)).div_const prevEq).round.mul
    (Approx.refl (A := A) (le_refl |(100 : ℚ)|))).round
  rw [← abs_div, ← abs_mul] at h
  exact h.near

/-- The returns of a rounded arithmetic are next to the exact ones. -/
theorem returnsFrom_near {prevEq : ℚ} (hprev : 0 < prevEq) {eqs : List ℚ}
    (hpos : ∀ eq ∈ eqs, 0 < eq) :
    List.Forall₂ (fun ret ret' => |A.mul ret 100 - ret' * 100| ≤ A.drift 3 * |ret' * 100|)
      (returnsFrom A prevEq eqs) (returnsFrom exact prevEq eqs) := by
  induction eqs generalizing prevEq with
  | nil => exact .nil
  | cons eq eqs ih =>
    rw [returnsFrom, returnsFrom, if_pos hprev, if_pos hprev, exact_sub, exact_div]
    exact .cons (percentage_near eq prevEq)
      (ih (hpos eq (List.mem_cons_self ..)) fun x hx => hpos x (List.mem_cons_of_mem _ hx))

theorem dayClose_concat (points : List EquityPoint) {point : EquityPoint} (h : point.day ≠ []) :
    dayClose (points ++ [point]) = (dayClose points).set point.day point.value := by
  rw [dayClose, List.foldl_append]
  exact if_neg h

/-- The close of a day is the equity of one of its points. -/
theorem get?_dayClose {points : List EquityPoint} {day : List Char} {eq : ℚ}
    (h : (dayClose points).get? day = some eq) :
    ∃ point ∈ points, point.day = day ∧ point.value = eq ∧ day ≠ [] := by
  induction points using List.reverseRecOn with
  | nil => cases h
  | append_singleton points point ih =>
    by_cases hday : point.day = []
    · rw [dayClose, List.foldl_append, List.foldl_cons, List.foldl_nil, if_pos hday] at h
      obtain ⟨point', hpoint', hsame⟩ := ih h
      exact ⟨point', List.mem_append_left _ hpoint', hsame⟩
    · rw [dayClose_concat points hday, Dict.get?_set] at h
      split at h
      · rename_i hsame
        exact ⟨point, by simp, hsame, Option.some.inj h, hsame ▸ hday⟩
      · obtain ⟨point', hpoint', hsame⟩ := ih h
        exact ⟨point', List.mem_append_left _ hpoint', hsame⟩

/-- Each day of a point has a close. -/
theorem isSome_dayClose {points : List EquityPoint} {p : EquityPoint} (hp : p ∈ points)
    (hday : p.day ≠ []) : ((dayClose points).get? p.day).isSome := by
  induction points using List.reverseRecOn with
  | nil => cases hp
  | append_singleton points point ih =>
    by_cases hlast : point.day = []
    · rw [dayClose, List.foldl_append, List.foldl_cons, List.foldl_nil, if_pos hlast]
      rcases List.mem_append.mp hp with hp | hp
      · exact ih hp
      · rw [List.mem_singleton.mp hp] at hday
        exact absurd hlast hday
    · rw [dayClose_concat points hlast, Dict.get?_set]
      split
      · rfl
      · rename_i hother
        rcases List.mem_append.mp hp with hp | hp
        · exact ih hp
        · rw [List.mem_singleton.mp hp] at hother
          exact absurd rfl hother

theorem mem_closeDays {points : List EquityPoint} {day : List Char} :
    day ∈ closeDays points ↔ ∃ eq, (dayClose points).get? day = some eq := by
  rw [closeDays, List.mem_mergeSort, Dict.keys, List.mem_map]
  constructor
  · rintro ⟨⟨day, eq⟩, hentry, rfl⟩
    exact ⟨eq, Dict.mem_entries_iff.mp hentry⟩
  · rintro ⟨eq, heq⟩
    exact ⟨(day, eq), Dict.mem_entries_iff.mpr heq, rfl⟩

/-- The days with a close are those of the points. -/
theorem mem_closeDays_iff {points : List EquityPoint} {day : List Char} :
    day ∈ closeDays points ↔ day ≠ [] ∧ ∃ p ∈ points, p.day = day := by
  rw [mem_closeDays]
  constructor
  · rintro ⟨eq, heq⟩
    obtain ⟨p, hp, rfl, -, hday⟩ := get?_dayClose heq
    exact ⟨hday, p, hp, rfl⟩
  · rintro ⟨hday, p, hp, rfl⟩
    exact Option.isSome_iff_exists.mp (isSome_dayClose hp hday)

/-- Each close is the equity of a point. -/
theorem exists_of_mem_closes {points : List EquityPoint} {eq : ℚ} (h : eq ∈ closes points) :
    ∃ point ∈ points, point.value = eq := by
  obtain ⟨day, hday, rfl⟩ := List.mem_map.mp h
  obtain ⟨eq, heq⟩ := mem_closeDays.mp hday
  obtain ⟨point, hpoint, -, hvalue, -⟩ := get?_dayClose heq
  exact ⟨point, hpoint, by rw [heq, Option.getD_some, hvalue]⟩

/-- The last close is that of the last point, if the days of the points are in order. -/
theorem getLastD_closes {points : List EquityPoint} {point : EquityPoint} (hday : point.day ≠ [])
    (hordered : ∀ p ∈ points, p.day ≤ point.day) (startingBalance : ℚ) :
    (closes (points ++ [point])).getLastD startingBalance = point.value := by
  have hlast : IsGreatest {day | day ∈ (dayClose (points ++ [point])).keys} point.day := by
    have hkeys : ∀ day, day ∈ (dayClose (points ++ [point])).keys ↔
        day ∈ closeDays (points ++ [point]) := fun day => List.mem_mergeSort.symm
    refine ⟨?_, fun day hmem => ?_⟩
    · rw [Set.mem_ofPred_eq, hkeys, mem_closeDays, dayClose_concat points hday]
      exact ⟨point.value, Dict.get?_set_self ..⟩
    · rw [Set.mem_ofPred_eq, hkeys, mem_closeDays] at hmem
      obtain ⟨eq, heq⟩ := hmem
      obtain ⟨p, hp, rfl, -⟩ := get?_dayClose heq
      rcases List.mem_append.mp hp with hp | hp
      · exact hordered p hp
      · rw [List.mem_singleton.mp hp]
  rw [List.getLastD_eq_getLast?, closes, List.getLast?_map, closeDays, getLast?_mergeSort hlast,
    Option.map_some, Option.getD_some, dayClose_concat points hday, Dict.get?_set_self,
    Option.getD_some]

theorem length_returns (points : List EquityPoint) (startingBalance : ℚ) :
    ((returnsFrom A startingBalance (closes points)).map fun ret =>
      Quantize.quantize (1 / 10000) (A.mul ret 100)).length = (closeDays points).length := by
  rw [List.length_map, length_returnsFrom, closes, List.length_map]

theorem map_fst_dailyReturnHistory (points : List EquityPoint) (startingBalance : ℚ) :
    (buildEquitySeries A points startingBalance).dailyReturnHistory.map Prod.fst =
      closeDays points :=
  List.map_fst_zip (length_returns points startingBalance).ge

theorem map_snd_dailyReturnHistory (points : List EquityPoint) (startingBalance : ℚ) :
    (buildEquitySeries A points startingBalance).dailyReturnHistory.map Prod.snd =
      (returnsFrom A startingBalance (closes points)).map fun ret =>
        Quantize.quantize (1 / 10000) (A.mul ret 100) :=
  List.map_snd_zip (length_returns points startingBalance).le

/-- Each day is there once, after the days before it. -/
theorem pairwise_closeDays (points : List EquityPoint) : (closeDays points).Pairwise (· < ·) := by
  have hsorted : (closeDays points).Pairwise (· ≤ ·) := pairwise_mergeSort_le id _
  have hnodup : (closeDays points).Nodup :=
    (List.mergeSort_perm _ _).nodup_iff.mpr (dayClose points).nodup
  exact (hsorted.and hnodup).imp fun h => lt_of_le_of_ne h.1 h.2

/-- **The daily returns compound to the last equity**, if the points are in the order of their
days and all equities are positive: the days of the chart follow each other and are all those of
the points, each has one rounded percentage, and the returns that these are percentages of, but
for rounding, take the starting balance to the equity of the last point. -/
theorem dailyReturns_compound {points : List EquityPoint} {point : EquityPoint}
    {startingBalance : ℚ} (hstart : 0 < startingBalance)
    (hpos : ∀ p ∈ points ++ [point], 0 < p.value) (hday : point.day ≠ [])
    (hordered : ∀ p ∈ points, p.day ≤ point.day) :
    let history := (buildEquitySeries A (points ++ [point]) startingBalance).dailyReturnHistory
    (history.map Prod.fst).Pairwise (· < ·) ∧
      (∀ day, day ∈ history.map Prod.fst ↔ day ≠ [] ∧ ∃ p ∈ points ++ [point], p.day = day) ∧
      ∃ returns : List ℚ,
        List.Forall₂ (fun entry ret => ∃ percentage,
            |percentage - ret * 100| ≤ A.drift 3 * |ret * 100| ∧
              entry = Quantize.quantize (1 / 10000) percentage)
          (history.map Prod.snd) returns ∧
          startingBalance * (returns.map (1 + ·)).prod = point.value := by
  have hcloses : ∀ eq ∈ closes (points ++ [point]), 0 < eq := by
    intro eq heq
    obtain ⟨p, hp, rfl⟩ := exists_of_mem_closes heq
    exact hpos p hp
  intro history
  refine ⟨?_, fun day => ?_, returnsFrom exact startingBalance (closes (points ++ [point])), ?_, ?_⟩
  · rw [map_fst_dailyReturnHistory]
    exact pairwise_closeDays _
  · rw [map_fst_dailyReturnHistory, mem_closeDays_iff]
  · rw [map_snd_dailyReturnHistory, List.forall₂_map_left_iff]
    exact (returnsFrom_near hstart hcloses).imp fun ret ret' hnear => ⟨_, hnear, rfl⟩
  · rw [prod_returnsFrom hstart hcloses, getLastD_closes hday hordered]

/-- Two days of the curve, and a gain of a tenth on the second. -/
theorem dailyReturns_compound_tenth :
    ∃ returns : List ℚ,
      List.Forall₂ (fun entry ret => ∃ percentage,
          |percentage - ret * 100| ≤ decimal28.drift 3 * |ret * 100| ∧
            entry = Quantize.quantize (1 / 10000) percentage)
        ((buildEquitySeries decimal28 [{ equity := some 100, time := some "2024-01-01T00:00:00" },
          { equity := some 110, time := some "2024-01-02T00:00:00" }] 100).dailyReturnHistory.map
            Prod.snd) returns ∧
        100 * (returns.map (1 + ·)).prod = 110 :=
  (@dailyReturns_compound decimal28 [{ equity := some 100, time := some "2024-01-01T00:00:00" }]
    { equity := some 110, time := some "2024-01-02T00:00:00" } 100 (by norm_num)
    (by decide +kernel) (by decide +kernel) (by decide +kernel)).2.2

/-! ### The greatest drawdown of the chart -/

theorem isGreatest_foldl_max (l : List ℚ) (a : ℚ) :
    IsGreatest {x | x = a ∨ x ∈ l} (l.foldl max a) := by
  induction l generalizing a with
  | nil => simp [isGreatest_singleton]
  | cons b l ih =>
    obtain ⟨hmem, hle⟩ := ih (max a b)
    refine ⟨?_, ?_⟩
    · rcases hmem with hmem | hmem
      · rcases max_choice a b with h | h
        · exact .inl (hmem.trans h)
        · exact .inr (List.mem_cons.mpr (.inl (hmem.trans h)))
      · exact .inr (List.mem_cons_of_mem b hmem)
    · have hmax : max a b ≤ l.foldl max (max a b) := hle (.inl rfl)
      rintro x (rfl | hx)
      · exact (le_max_left x b).trans hmax
      · rcases List.mem_cons.mp hx with rfl | hx
        · exact (le_max_right a x).trans hmax
        · exact hle (.inr hx)

/-- One pass over the curve finds the greatest of the drawdowns of its points. -/
theorem foldl_step_eq {peak dd : ℚ} (hpeak : 0 < peak) {points : List EquityPoint}
    (hnone : ∀ p ∈ points, p.drawdown = none) :
    ((points.map fun p => p.value).foldl (Backtest.drawdownStep A) (peak, dd)).2 =
      (drawdownsFrom A peak points).foldl max dd := by
  induction points generalizing peak dd with
  | nil => rfl
  | cons point points ih =>
    have hhigh : 0 < max peak point.value := lt_max_of_lt_left hpeak
    rw [List.map_cons, List.foldl_cons, drawdownsFrom, List.foldl_cons,
      hnone point (List.mem_cons_self ..), Option.getD_none, if_pos hhigh, Backtest.drawdownStep,
      if_pos hhigh]
    exact ih hhigh fun p hp => hnone p (List.mem_cons_of_mem _ hp)

theorem drawdownsFrom_nonneg {peak : ℚ} (hpeak : 0 < peak) {points : List EquityPoint}
    (hnone : ∀ p ∈ points, p.drawdown = none) : ∀ d ∈ drawdownsFrom A peak points, 0 ≤ d := by
  induction points generalizing peak with
  | nil => nofun
  | cons point points ih =>
    have hhigh : 0 < max peak point.value := lt_max_of_lt_left hpeak
    rw [drawdownsFrom, hnone point (List.mem_cons_self ..), Option.getD_none, if_pos hhigh]
    intro d hd
    rcases List.mem_cons.mp hd with rfl | hd
    · exact A.div_nonneg (A.sub_nonneg (le_max_right _ _)) hhigh.le
    · exact ih hhigh (fun p hp => hnone p (List.mem_cons_of_mem _ hp)) d hd

theorem length_drawdownsFrom (peak : ℚ) (points : List EquityPoint) :
    (drawdownsFrom A peak points).length = points.length := by
  induction points generalizing peak with
  | nil => rfl
  | cons point points ih => rw [drawdownsFrom, List.length_cons, List.length_cons, ih]

/-- To look at the last value again changes nothing. -/
theorem step_step (acc : ℚ × ℚ) (v : ℚ) :
    Backtest.drawdownStep A (Backtest.drawdownStep A acc v) v = Backtest.drawdownStep A acc v := by
  simp only [Backtest.drawdownStep, max_eq_left (le_max_right acc.1 v)]
  split
  · rw [max_eq_left (le_max_right _ _)]
  · rfl

/-- The greatest drawdown of a curve up to its last value is the greatest of its points. -/
theorem maxDrawdown_eq {points : List EquityPoint} {point : EquityPoint} {startingBalance : ℚ}
    (hstart : 0 < startingBalance) (hnone : ∀ p ∈ points ++ [point], p.drawdown = none) :
    maxDrawdown A (some ((points ++ [point]).map EquityPoint.toCurvePoint)) startingBalance
        point.value = (drawdownsFrom A startingBalance (points ++ [point])).foldl max 0 := by
  have hcurve : ((points ++ [point]).map EquityPoint.toCurvePoint).map CurvePoint.value =
      (points ++ [point]).map fun p => p.value := List.map_map ..
  have hagain (acc : ℚ × ℚ) :
      (Backtest.drawdownStep A (((points ++ [point]).map fun p => p.value).foldl
          (Backtest.drawdownStep A) acc) point.value).2 =
        (((points ++ [point]).map fun p => p.value).foldl (Backtest.drawdownStep A) acc).2 := by
    rw [List.map_append, List.foldl_append]
    exact congrArg Prod.snd (step_step _ _)
  rw [← foldl_step_eq hstart hnone, ← hagain, ← hcurve]
  rfl

/-- The greatest of the drawdowns of the points. -/
theorem isGreatest_drawdownsFrom {points : List EquityPoint} {point : EquityPoint}
    {startingBalance : ℚ} (hstart : 0 < startingBalance)
    (hnone : ∀ p ∈ points ++ [point], p.drawdown = none) :
    IsGreatest {d | d ∈ drawdownsFrom A startingBalance (points ++ [point])}
      ((drawdownsFrom A startingBalance (points ++ [point])).foldl max 0) := by
  have hnonneg := @drawdownsFrom_nonneg A startingBalance hstart (points ++ [point]) hnone
  have hlength := @length_drawdownsFrom A startingBalance (points ++ [point])
  generalize drawdownsFrom A startingBalance (points ++ [point]) = dds at hnonneg hlength ⊢
  obtain ⟨hmem, hle⟩ := isGreatest_foldl_max dds 0
  refine ⟨?_, fun d hd => hle (.inr hd)⟩
  rcases hmem with hzero | hmem
  · -- no drawdown is above zero, so the first one is zero
    have hpos : 0 < dds.length := by simp [hlength]
    have hfirst : dds[0] ∈ dds := List.getElem_mem hpos
    have hfirstle : dds[0] ≤ 0 := (hle (.inr hfirst)).trans_eq hzero
    rw [Set.mem_ofPred_eq, hzero, ← le_antisymm hfirstle (hnonneg _ hfirst)]
    exact hfirst
  · exact hmem

theorem map_snd_drawdownHistory (points : List EquityPoint) (startingBalance : ℚ) :
    (buildEquitySeries A points startingBalance).drawdownHistory.map Prod.snd =
      (drawdownsFrom A startingBalance points).map (Quantize.quantize (1 / 10000)) := by
  refine List.map_snd_zip ?_
  rw [List.length_map, List.length_map, length_drawdownsFrom]

/-- **The greatest drawdown of the metrics is the greatest one of the chart**: for a curve that
gives no drawdowns itself and ends at the current balance, the rounded drawdown of the metrics is
the greatest of the rounded ones that the chart shows. -/
theorem maximumDrawdown_charted {points : List EquityPoint} {point : EquityPoint}
    {startingBalance unrealisedPnl : ℚ} {trades : List ClosedTrade} {realisedPnl : Option ℚ}
    {openPositionCount : ℕ} {now : Time} {s : PerformanceSnapshot}
    (hstart : 0 < startingBalance) (hnone : ∀ p ∈ points ++ [point], p.drawdown = none)
    (h : compute A startingBalance trades point.value unrealisedPnl realisedPnl
      (some (points ++ [point])) openPositionCount now = some s) :
    IsGreatest
      {d | d ∈ (buildEquitySeries A (points ++ [point]) startingBalance).drawdownHistory.map
        Prod.snd}
      (Quantize.quantize (1 / 10000) s.maximumDrawdown) := by
  simp only [compute, Option.bind_eq_bind, Option.bind_eq_some_iff, Option.some.injEq] at h
  obtain ⟨_, -, _, -, _, -, rfl⟩ := h
  have hmono : Monotone (Quantize.quantize (1 / 10000 : ℚ)) := fun x y hle =>
    Quantize.quantize_mono (by norm_num) hle
  have himage : ∀ dds : List ℚ, {d | d ∈ dds.map (Quantize.quantize (1 / 10000))} =
      Set.image (Quantize.quantize (1 / 10000)) {d | d ∈ dds} :=
    fun dds => Set.ext fun d => List.mem_map
  rw [map_snd_drawdownHistory, himage]
  simp only [Option.map_some, maxDrawdown_eq hstart hnone]
  exact hmono.map_isGreatest (isGreatest_drawdownsFrom hstart hnone)

/-- A fall by a tenth, and a rise by half of it. -/
theorem maximumDrawdown_charted_tenth :
    IsGreatest
      {d | d ∈ (buildEquitySeries decimal28 [{ equity := some 90 }, { equity := some 95 }]
        100).drawdownHistory.map Prod.snd}
      (1 / 10) := by
  have hsome : (compute decimal28 100 [] 95 0 none
      (some [{ equity := some 90 }, { equity := some 95 }]) 0 0).map PerformanceSnapshot.maximumDrawdown = some (1 / 10) := by decide +kernel
  obtain ⟨s, hs, hdrawdown⟩ := Option.map_eq_some_iff.mp hsome
  have h := @maximumDrawdown_charted decimal28 [{ equity := some 90 }] { equity := some 95 } 100 0
    [] none 0 0 s (by norm_num) (by decide +kernel) hs
  have hround : Quantize.quantize (1 / 10000 : ℚ) (1 / 10) = 1 / 10 := by decide +kernel
  rwa [hdrawdown, hround] at h

end Analytics

end Atlas
