import Atlas.Strategies.Registered

/-!
# The strategies and their parameters

A strategy takes its periods, thresholds and multiples from the configuration of the
context, and its defaults where the configuration says nothing.  Here each strategy is
written with the parameters it reads; the cycles pass the defaults.

Periods are positive, a warm-up margin is at least 1, and the multiples of stop and target
are positive.  The code does not check that, but only then is an index one of the series.

## Main definitions

* `EMACrossover.Params`, `EMARSI.Params`, `EMATrend.Params`, `RSIMeanReversion.Params`,
  `Breakout.Params` — what the strategies are configured with.
* `readingWith`, `evaluateWith` — what each reads and answers.
* `Configured` — a registered strategy with its parameters; `Configured.need` is the history
  that it asks for.

## Main results

* `Configured.evaluate_registered` — **with the defaults, these are the strategies of the
  cycles**.

## References

`app/strategies/ema_crossover.py`, `app/strategies/ema_rsi.py`,
`app/strategies/ema_trend.py`, `app/strategies/rsi_mean_reversion.py`,
`app/strategies/breakout.py`.
-/

namespace Atlas

namespace Strategies

open Indicators

/-! ### EMA crossover -/

namespace EMACrossover

/-- The parameters of `EMACrossoverStrategy`. -/
structure Params where
  fastEma : ℤ := 9
  slowEma : ℤ := 21
  warmupMargin : ℤ := 5
  useRsiFilter : Bool := false
  rsiPeriod : ℤ := 14
  rsiBuyMin : ℚ := 45
  useAtrStop : Bool := true
  atrPeriod : ℤ := 14
  atrStopMult : ℚ := 3 / 2
  rewardRisk : ℚ := 2
  fastEma_pos : 0 < fastEma := by decide
  slowEma_pos : 0 < slowEma := by decide
  one_le_warmupMargin : 1 ≤ warmupMargin := by decide
  rsiPeriod_pos : 0 < rsiPeriod := by decide
  atrPeriod_pos : 0 < atrPeriod := by decide
  atrStopMult_pos : 0 < atrStopMult := by decide +kernel
  rewardRisk_pos : 0 < rewardRisk := by decide +kernel

/-- `min_history`. -/
def Params.need (params : Params) : ℤ := params.slowEma + params.warmupMargin

/-- What `EMACrossoverStrategy` reads. -/
def readingWith (params : Params) (candles : List Candle) :
    Except IndicatorError (Option Reading) :=
  if candles.length < params.need then .ok none
  else if ¬(candles.map Candle.openTime).Nodup then .ok none
  else if ¬(candles.map Candle.openTime).IsChain (· < ·) then .ok none
  else do
    let closes := candles.map Candle.close
    let fast ← ema .exact closes params.fastEma
    let slow ← ema .exact closes params.slowEma
    let i := closes.length - 1
    match crossing fast slow i with
    | none => .ok none
    | some (fastCur, fastPrev, slowCur, slowPrev) =>
        let rsiSeries ← rsi .exact closes params.rsiPeriod
        let atrSeries ← atr .exact (candles.map Candle.high) (candles.map Candle.low) closes
          params.atrPeriod
        let close := closes.getD i 0
        let rsiCur := rsiSeries.getD i none
        let atrCur := (atrSeries.getD i none).filter fun a => params.useAtrStop ∧ 0 < a
        .ok <| some
          { enters := (fastPrev ≤ slowPrev ∧ slowCur < fastCur) ∧
              ¬(params.useRsiFilter ∧ rsiCur.any (· < params.rsiBuyMin))
            leaves := slowPrev ≤ fastPrev ∧ fastCur < slowCur
            close := close
            stop := atrCur.map fun a => close - a * params.atrStopMult
            target := atrCur.map fun a => close + a * params.atrStopMult * params.rewardRisk }

/-- `EMACrossoverStrategy.evaluate`. -/
def evaluateWith (params : Params) : StrategyContext → Except IndicatorError TradeSignal :=
  longOnly (readingWith params)

end EMACrossover

/-! ### EMA crossover with RSI -/

namespace EMARSI

/-- The parameters of `EMARSIStrategy`. -/
structure Params where
  fastEma : ℤ := 9
  slowEma : ℤ := 21
  rsiPeriod : ℤ := 14
  rsiBuyMin : ℚ := 50
  warmupMargin : ℤ := 5
  stopLossPercent : ℚ := 1
  takeProfitPercent : ℚ := 2
  fastEma_pos : 0 < fastEma := by decide
  slowEma_pos : 0 < slowEma := by decide
  rsiPeriod_pos : 0 < rsiPeriod := by decide
  one_le_warmupMargin : 1 ≤ warmupMargin := by decide
  stopLossPercent_pos : 0 < stopLossPercent := by decide +kernel
  takeProfitPercent_pos : 0 < takeProfitPercent := by decide +kernel

/-- The history it needs. -/
def Params.need (params : Params) : ℤ :=
  max params.slowEma params.rsiPeriod + params.warmupMargin + 1

/-- The defaults, which come from the settings; these are validated to be positive. -/
def Params.ofSettings (settings : BaselineSettings) (hstop : 0 < settings.stopLossPercent)
    (htake : 0 < settings.takeProfitPercent) : Params where
  fastEma := settings.fastEmaPeriod
  slowEma := settings.slowEmaPeriod
  rsiPeriod := settings.rsiPeriod
  stopLossPercent := settings.stopLossPercent
  takeProfitPercent := settings.takeProfitPercent
  fastEma_pos := Int.lt_of_lt_of_le (by decide) settings.one_le_fast
  slowEma_pos := Int.lt_of_lt_of_le (by decide) settings.two_le_slow
  rsiPeriod_pos := Int.lt_of_lt_of_le (by decide) settings.two_le_rsi
  stopLossPercent_pos := hstop
  takeProfitPercent_pos := htake

/-- What `EMARSIStrategy` reads. -/
def readingWith (params : Params) (candles : List Candle) :
    Except IndicatorError (Option Reading) :=
  if candles.length < params.need then .ok none
  else do
    let closes := candles.map Candle.close
    let fast ← ema .exact closes params.fastEma
    let slow ← ema .exact closes params.slowEma
    let rsiSeries ← rsi .exact closes params.rsiPeriod
    let i := closes.length - 1
    match crossing fast slow i, rsiSeries.getD i none with
    | some (fastCur, fastPrev, slowCur, slowPrev), some rsiCur =>
        let close := closes.getD i 0
        .ok <| some
          { enters := (fastPrev ≤ slowPrev ∧ slowCur < fastCur) ∧ params.rsiBuyMin < rsiCur
            leaves := slowPrev ≤ fastPrev ∧ fastCur < slowCur
            close := close
            stop := some (close * (1 - params.stopLossPercent / 100))
            target := some (close * (1 + params.takeProfitPercent / 100)) }
    | _, _ => .ok none

/-- `EMARSIStrategy.evaluate`. -/
def evaluateWith (params : Params) : StrategyContext → Except IndicatorError TradeSignal :=
  longOnly (readingWith params)

end EMARSI

/-! ### RSI mean reversion -/

namespace RSIMeanReversion

/-- The parameters of `RSIMeanReversionStrategy`. -/
structure Params where
  rsiPeriod : ℤ := 14
  oversold : ℚ := 30
  overbought : ℚ := 70
  warmupMargin : ℤ := 5
  rsiPeriod_pos : 0 < rsiPeriod := by decide
  one_le_warmupMargin : 1 ≤ warmupMargin := by decide

/-- The history it needs. -/
def Params.need (params : Params) : ℤ := params.rsiPeriod + params.warmupMargin + 1

/-- What `RSIMeanReversionStrategy` reads. -/
def readingWith (params : Params) (candles : List Candle) :
    Except IndicatorError (Option Reading) :=
  if candles.length < params.need then .ok none
  else do
    let closes := candles.map Candle.close
    let series ← rsi .exact closes params.rsiPeriod
    let i := closes.length - 1
    match series.getD i none, series.getD (i - 1) none with
    | some cur, some prev =>
        .ok <| some
          { enters := prev ≤ params.oversold ∧ params.oversold < cur
            leaves := params.overbought ≤ prev ∧ cur < params.overbought
            close := closes.getD i 0 }
    | _, _ => .ok none

/-- `RSIMeanReversionStrategy.evaluate`. -/
def evaluateWith (params : Params) : StrategyContext → Except IndicatorError TradeSignal :=
  longOnly (readingWith params)

end RSIMeanReversion

/-! ### Breakout -/

namespace Breakout

/-- The parameters of `BreakoutStrategy`. -/
structure Params where
  lookback : ℤ := 20
  atrPeriod : ℤ := 14
  atrStopMult : ℚ := 3 / 2
  warmupMargin : ℤ := 2
  lookback_pos : 0 < lookback := by decide
  atrPeriod_pos : 0 < atrPeriod := by decide
  atrStopMult_pos : 0 < atrStopMult := by decide +kernel
  one_le_warmupMargin : 1 ≤ warmupMargin := by decide

/-- The history it needs. -/
def Params.need (params : Params) : ℤ := params.lookback + params.warmupMargin + 1

/-- What `BreakoutStrategy` reads: the bars before the last one. -/
def readingWith (params : Params) (candles : List Candle) :
    Except IndicatorError (Option Reading) :=
  if candles.length < params.need then .ok none
  else do
    let highs := candles.map Candle.high
    let lows := candles.map Candle.low
    let closes := candles.map Candle.close
    let i := closes.length - 1
    let priorHigh := (((highs.take i).drop (i - params.lookback.toNat)).max?).getD 0
    let priorLow := (((lows.take i).drop (i - params.lookback.toNat)).min?).getD 0
    let atrSeries ← atr .exact highs lows closes params.atrPeriod
    let close := closes.getD i 0
    .ok <| some
      { enters := priorHigh < close
        leaves := close < priorLow
        close := close
        stop := ((atrSeries.getD i none).filter (0 < ·)).map fun a =>
          close - a * params.atrStopMult }

/-- `BreakoutStrategy.evaluate`. -/
def evaluateWith (params : Params) : StrategyContext → Except IndicatorError TradeSignal :=
  longOnly (readingWith params)

end Breakout

/-! ### EMA trend -/

namespace EMATrend

/-- The parameters of `EMATrendStrategy`. -/
structure Params where
  fastEma : ℤ := 12
  slowEma : ℤ := 26
  rsiPeriod : ℤ := 14
  rsiMin : ℚ := 40
  rsiMax : ℚ := 70
  atrPeriod : ℤ := 14
  minAtr : ℚ := 1 / 2
  volumeMaPeriod : ℤ := 20
  stopAtrMultiple : ℚ := 3 / 2
  targetAtrMultiple : ℚ := 3
  maxHoldingBars : ℤ := 48
  fastEma_pos : 0 < fastEma := by decide
  slowEma_pos : 0 < slowEma := by decide
  rsiPeriod_pos : 0 < rsiPeriod := by decide
  atrPeriod_pos : 0 < atrPeriod := by decide
  minAtr_pos : 0 < minAtr := by decide +kernel
  volumeMaPeriod_pos : 0 < volumeMaPeriod := by decide
  stopAtrMultiple_pos : 0 < stopAtrMultiple := by decide +kernel
  targetAtrMultiple_pos : 0 < targetAtrMultiple := by decide +kernel

/-- The history it needs. -/
def Params.need (params : Params) : ℤ := params.slowEma + 2

/-- What `EMATrendStrategy` reads. -/
def readingWith (params : Params) (candles : List Candle) :
    Except IndicatorError (Option Reading) :=
  if candles.length < params.need then .ok none
  else do
    let closes := candles.map Candle.close
    let volumes := candles.map Candle.volume
    let fast ← ema .exact closes params.fastEma
    let slow ← ema .exact closes params.slowEma
    let r ← rsi .exact closes params.rsiPeriod
    let a ← atr .exact (candles.map Candle.high) (candles.map Candle.low) closes params.atrPeriod
    let vma ← sma .exact volumes params.volumeMaPeriod
    let i := closes.length - 1
    match crossing fast slow i, r.getD i none, a.getD i none, vma.getD i none with
    | some (fastCur, fastPrev, slowCur, slowPrev), some rsiCur, some atrVal, some vmaCur =>
        let price := closes.getD i 0
        .ok <| some
          { enters := (slowCur < fastCur ∧ slowCur < price) ∧
              (params.rsiMin ≤ rsiCur ∧ rsiCur ≤ params.rsiMax) ∧
              params.minAtr ≤ atrVal ∧ vmaCur < volumes.getD i 0
            leaves := slowPrev ≤ fastPrev ∧ fastCur < slowCur
            close := price
            stop := some (price - atrVal * params.stopAtrMultiple)
            target := some (price + atrVal * params.targetAtrMultiple) }
    | _, _, _, _ => .ok none

/-- A position is left at a setup, at its stop, at its target, or when it is held for too
long. -/
def exitsWith (params : Params) (r : Reading) (p : Position) (barsHeld : ℕ) : Bool :=
  r.leaves ∨ p.stopLoss.any (r.close ≤ ·) ∨ p.takeProfit.any (· ≤ r.close) ∨
    params.maxHoldingBars ≤ barsHeld

/-- `EMATrendStrategy.evaluate`. -/
def evaluateWith (params : Params) (context : StrategyContext) :
    Except IndicatorError TradeSignal := do
  match ← readingWith params context.candles with
  | none => .ok hold
  | some r =>
      match context.position.filter fun p => 0 < p.quantity with
      | some p =>
          if exitsWith params r p context.barsHeld then
            .ok { direction := .exit, suggestedStop := r.stop, suggestedTarget := r.target }
          else .ok hold
      | none =>
          if r.enters then
            .ok { direction := .buy, suggestedStop := r.stop, suggestedTarget := r.target }
          else .ok hold

end EMATrend

/-! ### With the defaults -/

theorem EMACrossover.readingWith_default (candles : List Candle) :
    EMACrossover.readingWith {} candles = EMACrossover.reading candles := by
  unfold EMACrossover.readingWith EMACrossover.reading
  have hneed : ((candles.length : ℤ) < EMACrossover.Params.need {}) ↔ candles.length < 21 + 5 := by
    simp only [EMACrossover.Params.need]
    omega
  simp only [hneed]
  split_ifs with hshort hnodup hchain
  · rfl
  · obtain ⟨series, hseries⟩ : ∃ series, rsi .exact (candles.map Candle.close) 14 = .ok series :=
      StrategyKind.rsi_ok (by omega) (by decide)
    -- the RSI is read, but its filter is off
    simp only [hseries, false_and, not_false_eq_true, and_true, true_and]
    rfl
  · rfl
  · rfl

theorem RSIMeanReversion.readingWith_default (candles : List Candle) :
    RSIMeanReversion.readingWith {} candles = RSIMeanReversion.reading candles := by
  unfold RSIMeanReversion.readingWith RSIMeanReversion.reading
  have hneed : ((candles.length : ℤ) < RSIMeanReversion.Params.need {}) ↔
      candles.length < 14 + 5 + 1 := by
    simp only [RSIMeanReversion.Params.need]
    omega
  exact if_congr hneed rfl rfl

theorem Breakout.readingWith_default (candles : List Candle) :
    Breakout.readingWith {} candles = Breakout.reading candles := by
  unfold Breakout.readingWith Breakout.reading
  have hneed : ((candles.length : ℤ) < Breakout.Params.need {}) ↔
      candles.length < 20 + 2 + 1 := by
    simp only [Breakout.Params.need]
    omega
  exact if_congr hneed rfl rfl

theorem EMATrend.readingWith_default (candles : List Candle) :
    EMATrend.readingWith {} candles = EMATrend.reading candles := by
  unfold EMATrend.readingWith EMATrend.reading
  have hneed : ((candles.length : ℤ) < EMATrend.Params.need {}) ↔ candles.length < 26 + 2 := by
    simp only [EMATrend.Params.need]
    omega
  exact if_congr hneed rfl rfl

theorem EMATrend.exitsWith_default (r : Reading) (p : Position) (barsHeld : ℕ) :
    EMATrend.exitsWith {} r p barsHeld = EMATrend.exits r p barsHeld := by
  unfold EMATrend.exitsWith EMATrend.exits
  have hbars : ((48 : ℤ) ≤ (barsHeld : ℤ)) ↔ 48 ≤ barsHeld := by omega
  simp only [hbars]

theorem EMATrend.evaluateWith_default (context : StrategyContext) :
    EMATrend.evaluateWith {} context = EMATrend.evaluate context := by
  unfold EMATrend.evaluateWith
  simp only [EMATrend.readingWith_default, EMATrend.exitsWith_default]
  rfl

/-! ### The configured strategies -/

/-- A registered strategy with its parameters. -/
inductive Configured
  | emaCrossover (params : EMACrossover.Params)
  | emaRsi (params : EMARSI.Params)
  | emaTrend (params : EMATrend.Params)
  | rsiMeanReversion (params : RSIMeanReversion.Params)
  | breakout (params : Breakout.Params)

namespace Configured

/-- What the strategy answers. -/
def evaluate : Configured → StrategyContext → Except IndicatorError TradeSignal
  | .emaCrossover params => EMACrossover.evaluateWith params
  | .emaRsi params => EMARSI.evaluateWith params
  | .emaTrend params => EMATrend.evaluateWith params
  | .rsiMeanReversion params => RSIMeanReversion.evaluateWith params
  | .breakout params => Breakout.evaluateWith params

/-- The history that the strategy needs. -/
def need : Configured → ℤ
  | .emaCrossover params => params.need
  | .emaRsi params => params.need
  | .emaTrend params => params.need
  | .rsiMeanReversion params => params.need
  | .breakout params => params.need

/-- The strategies as they are registered, with their defaults. -/
def registered (settings : BaselineSettings) (hstop : 0 < settings.stopLossPercent)
    (htake : 0 < settings.takeProfitPercent) : StrategyKind → Configured
  | .emaCrossover => .emaCrossover {}
  | .emaRsi => .emaRsi (.ofSettings settings hstop htake)
  | .emaTrend => .emaTrend {}
  | .rsiMeanReversion => .rsiMeanReversion {}
  | .breakout => .breakout {}

/-- **With the defaults these are the strategies of the cycles.** -/
theorem evaluate_registered (settings : BaselineSettings) (hstop : 0 < settings.stopLossPercent)
    (htake : 0 < settings.takeProfitPercent) (kind : StrategyKind) :
    (registered settings hstop htake kind).evaluate = kind.evaluate settings := by
  funext context
  cases kind with
  | emaCrossover =>
    exact congrFun (congrArg longOnly (funext EMACrossover.readingWith_default)) context
  | emaRsi => rfl
  | emaTrend => exact EMATrend.evaluateWith_default context
  | rsiMeanReversion =>
    exact congrFun (congrArg longOnly (funext RSIMeanReversion.readingWith_default)) context
  | breakout => exact congrFun (congrArg longOnly (funext Breakout.readingWith_default)) context

end Configured

end Strategies

end Atlas
