import Atlas.Lib.Arithmetic
import Atlas.Lib.Result
import Atlas.Trading

/-!
# The metrics of a backtest

What `compute_metrics` reports on the trades and the equity curve of a backtest, in any
arithmetic.  The square and the square root of a `Decimal` are parameters, and so is the
annualised growth, which the source computes in floating point.

## Main definitions

* `BacktestTrade` — a trade, open while it has no exit.
* `Numerics` — the functions that are parameters.
* `PerformanceMetrics`, `computeMetrics` — the report, unless it raises.

## Main results

* `computeMetrics_isOk_iff` — when there is a report.

## References

`app/backtesting/metrics.py`.
-/

namespace Atlas

structure BacktestTrade where
  symbol : String
  side : String
  entryTime : Time
  exitTime : Option Time
  entryPrice : ℚ
  exitPrice : Option ℚ
  quantity : ℚ
  pnl : ℚ := 0
  fees : ℚ := 0
  slippageCost : ℚ := 0
  reason : String := ""
  deriving DecidableEq, Repr, Inhabited

structure PerformanceMetrics where
  totalReturn : ℚ
  netReturn : ℚ
  grossProfit : ℚ
  grossLoss : ℚ
  winRate : ℚ
  profitFactor : ℚ
  expectancy : ℚ
  maxDrawdown : ℚ
  sharpe : ℚ
  sortino : ℚ
  avgWin : ℚ
  avgLoss : ℚ
  riskRewardRatio : ℚ
  tradeCount : ℕ
  exposureTime : ℚ
  consecutiveWins : ℕ
  consecutiveLosses : ℕ
  feesPaid : ℚ
  slippageCost : ℚ
  cagr : ℚ
  averageTrade : ℚ
  deriving DecidableEq, Repr, Inhabited

namespace Backtest

/-- What a backtest raises: the error of `run`, or that of `quantize`. -/
inductive BacktestError
  | valueError (message : String)
  | invalidOperation
  deriving DecidableEq, Repr

/-- A floating point growth: none where the power raises, and the number of its text
otherwise, unless it is infinite. -/
inductive Growth
  | raised
  | infinite
  | finite (rate : ℚ)
  deriving DecidableEq, Repr

/-- The functions of the libraries: the square and the root of a decimal, and
`ratio ** (1.0 / years) - 1.0` of a time and a ratio. -/
structure Numerics where
  square : ℚ → ℚ
  sqrt : ℚ → ℚ
  growth : Time → ℚ → Growth

variable (A : Arithmetic ℚ) (numerics : Numerics)

/-- The mean of some numbers, zero of none. -/
def mean (xs : List ℚ) : ℚ := if xs = [] then 0 else A.div (A.sum xs) xs.length

/-- `_bar_returns`: the relative changes from one point to the next, from a positive one. -/
def barReturns (equityCurve : List (Time × ℚ)) : List ℚ :=
  (equityCurve.zip equityCurve.tail).filterMap fun (prev, cur) =>
    if 0 < prev.2 then some (A.div (A.sub cur.2 prev.2) prev.2) else none

/-- `_sharpe`. -/
def sharpe (returns : List ℚ) : ℚ :=
  if returns.length < 2 then 0
  else
    let squares := returns.map fun r => numerics.square (A.sub r (mean A returns))
    let std := numerics.sqrt (A.div (A.sum squares) (returns.length - 1 : ℕ))
    if std = 0 then 0 else A.div (mean A returns) std

/-- `_sortino`. -/
def sortino (returns : List ℚ) : ℚ :=
  if returns.length < 2 then 0
  else
    let downside := returns.filter (· < 0)
    if downside = [] then 0
    else
      let std := numerics.sqrt (A.div (A.sum (downside.map numerics.square)) downside.length)
      if std = 0 then 0 else A.div (mean A returns) std

/-- `_max_streak`: the longest run of profits, or of losses. -/
def maxStreak (pnls : List ℚ) (winning : Bool) : ℕ :=
  (pnls.foldl (fun (best, cur) p =>
    if (if winning then 0 < p else p < 0) then (max best (cur + 1), cur + 1) else (best, 0))
    (0, 0)).1

/-- One point of the loop over the equity curve: the peak and the deepest fall below it. -/
def drawdownStep (acc : ℚ × ℚ) (equity : ℚ) : ℚ × ℚ :=
  let peak := max acc.1 equity
  (peak, if 0 < peak then max acc.2 (A.div (A.sub peak equity) peak) else acc.2)

/-- `max_dd`. -/
def maxDrawdown (initialCash : ℚ) (equityCurve : List (Time × ℚ)) : ℚ :=
  ((equityCurve.map Prod.snd).foldl (drawdownStep A) (initialCash, 0)).2

/-- The bars within the closed trades, over all bars. -/
def exposureTime (trades : List BacktestTrade) (equityCurve : List (Time × ℚ)) : ℚ :=
  if equityCurve = [] ∨ trades = [] then 0
  else
    let within (t : BacktestTrade) : ℕ :=
      t.exitTime.elim 0 fun exit =>
        (equityCurve.map Prod.fst).countP fun ts => t.entryTime ≤ ts ∧ ts ≤ exit
    A.div ((trades.map within).sum : ℕ) equityCurve.length

/-- The growth that `_cagr` computes, where it computes one. -/
def annualGrowth (equityCurve : List (Time × ℚ)) (initialCash finalEquity : ℚ) : Option Growth :=
  match equityCurve.head?, equityCurve.getLast? with
  | some first, some last =>
      if equityCurve.length < 2 ∨ initialCash ≤ 0 ∨ finalEquity ≤ 0 then none
      else some (numerics.growth (last.1 - first.1) (A.div finalEquity initialCash))
  | _, _ => none

/-- `_cagr`: what the power raises is caught, and what `quantize` raises is not. -/
def cagr (equityCurve : List (Time × ℚ)) (initialCash finalEquity : ℚ) :
    Except BacktestError ℚ :=
  match annualGrowth A numerics equityCurve initialCash finalEquity with
  | none | some .raised => .ok 0
  | some .infinite => .error .invalidOperation
  | some (.finite rate) =>
      match A.quantize (1 / 10000) rate with
      | some x => .ok x
      | none => .error .invalidOperation

/-- The numbers of the report, given its annualised growth. -/
def metricsOf (trades : List BacktestTrade) (equityCurve : List (Time × ℚ))
    (initialCash finalEquity cagr : ℚ) : PerformanceMetrics :=
  let pnls := trades.map BacktestTrade.pnl
  let wins := pnls.filter (0 < ·)
  let losses := pnls.filter (· < 0)
  let grossProfit := A.sum wins
  let grossLoss := |A.sum losses|
  let avgLoss := mean A losses
  let returns := barReturns A equityCurve
  { totalReturn := if initialCash ≠ 0 then A.sub (A.div finalEquity initialCash) 1 else 0
    netReturn := A.sub finalEquity initialCash
    grossProfit := grossProfit
    grossLoss := grossLoss
    winRate := if trades = [] then 0 else A.div wins.length trades.length
    -- an infinite factor is reported as 999999
    profitFactor :=
      if 0 < grossLoss then A.div grossProfit grossLoss
      else if 0 < grossProfit then 999999 else 0
    expectancy := mean A pnls
    maxDrawdown := maxDrawdown A initialCash equityCurve
    sharpe := sharpe A numerics returns
    sortino := sortino A numerics returns
    avgWin := mean A wins
    avgLoss := avgLoss
    riskRewardRatio := if avgLoss ≠ 0 then A.div (mean A wins) |avgLoss| else 0
    tradeCount := trades.length
    exposureTime := exposureTime A trades equityCurve
    consecutiveWins := maxStreak pnls true
    consecutiveLosses := maxStreak pnls false
    feesPaid := A.sum (trades.map BacktestTrade.fees)
    slippageCost := A.sum (trades.map BacktestTrade.slippageCost)
    cagr := cagr
    averageTrade := mean A pnls }

/-- `compute_metrics`. -/
def computeMetrics (trades : List BacktestTrade) (equityCurve : List (Time × ℚ))
    (initialCash finalEquity : ℚ) : Except BacktestError PerformanceMetrics := do
  let growth ← cagr A numerics equityCurve initialCash finalEquity
  .ok (metricsOf A numerics trades equityCurve initialCash finalEquity growth)

/-! ### The report and its growth -/

/-- Whether the growth of a curve can be quantized to four decimals. -/
def Quantizable (equityCurve : List (Time × ℚ)) (initialCash finalEquity : ℚ) : Prop :=
  ∀ g ∈ annualGrowth A numerics equityCurve initialCash finalEquity, g ≠ .infinite ∧
    ∀ rate, g = .finite rate → A.Holds (Quantize.roundHalfEven (rate / (1 / 10000)))

variable {A numerics} {trades : List BacktestTrade} {equityCurve : List (Time × ℚ)}
  {initialCash finalEquity : ℚ} {m : PerformanceMetrics}

theorem cagr_isOk_iff :
    (∃ x, cagr A numerics equityCurve initialCash finalEquity = .ok x) ↔
      Quantizable A numerics equityCurve initialCash finalEquity := by
  rw [cagr, Quantizable]
  rcases annualGrowth A numerics equityCurve initialCash finalEquity with
    _ | (_ | _ | rate)
  · simp
  · simp
  · simp
  · simp only [Option.mem_def, Option.some.injEq, forall_eq', ne_eq, reduceCtorEq, not_false_eq_true,
      true_and, Growth.finite.injEq, Arithmetic.quantize]
    split_ifs with h
    · exact iff_of_true ⟨_, rfl⟩ h
    · exact iff_of_false (fun ⟨x, hx⟩ => by cases hx) h

/-- **The report** is there exactly if the growth can be quantized. -/
theorem computeMetrics_isOk_iff :
    (∃ m, computeMetrics A numerics trades equityCurve initialCash finalEquity = .ok m) ↔
      Quantizable A numerics equityCurve initialCash finalEquity := by
  rw [← cagr_isOk_iff, computeMetrics]
  cases cagr A numerics equityCurve initialCash finalEquity with
  | error e => exact iff_of_false (fun ⟨m, hm⟩ => by cases hm) (fun ⟨x, hx⟩ => by cases hx)
  | ok x => exact iff_of_true ⟨_, rfl⟩ ⟨x, rfl⟩

/-- Growths that can all be quantized. -/
theorem quantizable_of_growth (h : ∀ time ratio, ∃ rate, numerics.growth time ratio = .finite rate ∧
    A.Holds (Quantize.roundHalfEven (rate / (1 / 10000)))) :
    Quantizable A numerics equityCurve initialCash finalEquity := by
  intro g hg
  unfold annualGrowth at hg
  split at hg
  · split_ifs at hg
    · cases hg
    · next first last _ _ _ =>
      obtain ⟨rate, hrate, hholds⟩ := h (last.1 - first.1) (A.div finalEquity initialCash)
      rw [← Option.some.inj hg, hrate]
      refine ⟨nofun, fun rate' hrate' => ?_⟩
      rwa [← Growth.finite.inj hrate']
  · cases hg

theorem computeMetrics_eq_ok
    (h : computeMetrics A numerics trades equityCurve initialCash finalEquity = .ok m) :
    ∃ x, m = metricsOf A numerics trades equityCurve initialCash finalEquity x := by
  obtain ⟨x, -, hm⟩ := Except.bind_eq_ok.mp h
  exact ⟨x, (Except.ok.inj hm).symm⟩

end Backtest

end Atlas
