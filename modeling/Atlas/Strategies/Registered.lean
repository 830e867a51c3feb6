import Atlas.Indicators.Momentum
import Atlas.Indicators.Volatility
import Atlas.Session.Orchestrator

/-!
# The registered strategies

The registry has five strategies, for long positions only.  Each reads the candles for a
setup to enter and a setup to leave.  Four of them ask only whether there is a long
position: without one they buy at the first setup, with one they sell at the second.  The
EMA trend strategy leaves a position also at its stop, at its target, and when it has been
held for `max_holding_bars`.

None of them reads the portfolio, and what each reads of the candles does not depend on the
position.  They never raise: an indicator is only asked about a history that is long enough.

The parameters are the defaults, as the cycles pass them; those of the strategy with the
RSI confirmation come from the settings.  Confidence, texts and metadata are left out.

## Main definitions

* `Reading` — what a strategy reads of the candles.
* `longOnly`, `EMATrend.evaluate` — what it answers.
* `StrategyKind` — the registered strategies.

## Main results

* `StrategyKind.evaluate_ok` — **they do not raise**.
* `StrategyKind.direction_eq` — **the direction of a signal**, by the reading.
* `StrategyKind.directionOf_eq_iff` — when two positions make no difference.

## References

`app/strategies/registry.py`, `app/strategies/base.py`, `app/strategies/ema_crossover.py`,
`app/strategies/ema_rsi.py`, `app/strategies/ema_trend.py`,
`app/strategies/rsi_mean_reversion.py`, `app/strategies/breakout.py`, `app/core/config.py`.
-/

namespace Atlas

namespace Strategies

open Indicators

/-- What a strategy reads of the candles: the setups to enter and to leave, the last close,
and the stop and the target that it suggests. -/
structure Reading where
  enters : Bool
  leaves : Bool
  close : ℚ
  stop : Option ℚ := none
  target : Option ℚ := none
  deriving DecidableEq, Repr, Inhabited

/-- There is a long position. -/
def hasLong (context : StrategyContext) : Bool := context.position.any fun p => 0 < p.quantity

/-- A signal to hold. -/
def hold : TradeSignal := { direction := .hold }

/-- Buy at the setup to enter while flat, sell at the setup to leave while long. -/
def longOnly (reading : List Candle → Except IndicatorError (Option Reading))
    (context : StrategyContext) : Except IndicatorError TradeSignal := do
  match ← reading context.candles with
  | none => .ok hold
  | some r =>
      if r.enters ∧ ¬hasLong context then
        .ok { direction := .buy, suggestedStop := r.stop, suggestedTarget := r.target }
      else if r.leaves ∧ hasLong context then .ok { direction := .sell }
      else .ok hold

/-! ### EMA crossover -/

/-- The values of two lines at an index and at the one before: the current and the previous
value of the first, then those of the second. -/
def crossing (fast slow : List (Option ℚ)) (i : ℕ) : Option (ℚ × ℚ × ℚ × ℚ) := do
  let fastCur ← fast.getD i none
  let slowCur ← slow.getD i none
  let fastPrev ← fast.getD (i - 1) none
  let slowPrev ← slow.getD (i - 1) none
  return (fastCur, fastPrev, slowCur, slowPrev)

namespace EMACrossover

/-- What `EMACrossoverStrategy` reads; its RSI filter is off. -/
def reading (candles : List Candle) : Except IndicatorError (Option Reading) :=
  if candles.length < 21 + 5 then .ok none
  else if ¬(candles.map Candle.openTime).Nodup then .ok none
  else if ¬(candles.map Candle.openTime).IsChain (· < ·) then .ok none
  else do
    let closes := candles.map Candle.close
    let fast ← ema .exact closes 9
    let slow ← ema .exact closes 21
    let i := closes.length - 1
    match crossing fast slow i with
    | none => .ok none
    | some (fastCur, fastPrev, slowCur, slowPrev) =>
        let atrSeries ← atr .exact (candles.map Candle.high) (candles.map Candle.low) closes 14
        let close := closes.getD i 0
        let atrCur := (atrSeries.getD i none).filter (0 < ·)
        .ok <| some
          { enters := fastPrev ≤ slowPrev ∧ slowCur < fastCur
            leaves := slowPrev ≤ fastPrev ∧ fastCur < slowCur
            close := close
            stop := atrCur.map fun a => close - a * (3 / 2)
            target := atrCur.map fun a => close + a * (3 / 2) * 2 }

/-- `EMACrossoverStrategy.evaluate`. -/
def evaluate : StrategyContext → Except IndicatorError TradeSignal := longOnly reading

end EMACrossover

/-! ### EMA crossover with RSI -/

/-- The settings of the baseline strategy, as they are validated. -/
structure BaselineSettings where
  fastEmaPeriod : ℤ := 9
  slowEmaPeriod : ℤ := 21
  rsiPeriod : ℤ := 14
  stopLossPercent : ℚ := 1
  takeProfitPercent : ℚ := 2
  one_le_fast : 1 ≤ fastEmaPeriod := by decide
  two_le_slow : 2 ≤ slowEmaPeriod := by decide
  two_le_rsi : 2 ≤ rsiPeriod := by decide
  fast_lt_slow : fastEmaPeriod < slowEmaPeriod := by decide

namespace EMARSI

/-- What `EMARSIStrategy` reads. -/
def reading (settings : BaselineSettings) (candles : List Candle) :
    Except IndicatorError (Option Reading) :=
  if candles.length < max settings.slowEmaPeriod settings.rsiPeriod + 5 + 1 then .ok none
  else do
    let closes := candles.map Candle.close
    let fast ← ema .exact closes settings.fastEmaPeriod
    let slow ← ema .exact closes settings.slowEmaPeriod
    let rsiSeries ← rsi .exact closes settings.rsiPeriod
    let i := closes.length - 1
    match crossing fast slow i, rsiSeries.getD i none with
    | some (fastCur, fastPrev, slowCur, slowPrev), some rsiCur =>
        let close := closes.getD i 0
        .ok <| some
          { enters := (fastPrev ≤ slowPrev ∧ slowCur < fastCur) ∧ 50 < rsiCur
            leaves := slowPrev ≤ fastPrev ∧ fastCur < slowCur
            close := close
            stop := some (close * (1 - settings.stopLossPercent / 100))
            target := some (close * (1 + settings.takeProfitPercent / 100)) }
    | _, _ => .ok none

/-- `EMARSIStrategy.evaluate`. -/
def evaluate (settings : BaselineSettings) : StrategyContext → Except IndicatorError TradeSignal :=
  longOnly (reading settings)

end EMARSI

/-! ### RSI mean reversion -/

namespace RSIMeanReversion

/-- What `RSIMeanReversionStrategy` reads. -/
def reading (candles : List Candle) : Except IndicatorError (Option Reading) :=
  if candles.length < 14 + 5 + 1 then .ok none
  else do
    let closes := candles.map Candle.close
    let series ← rsi .exact closes 14
    let i := closes.length - 1
    match series.getD i none, series.getD (i - 1) none with
    | some cur, some prev =>
        .ok <| some
          { enters := prev ≤ 30 ∧ 30 < cur
            leaves := 70 ≤ prev ∧ cur < 70
            close := closes.getD i 0 }
    | _, _ => .ok none

/-- `RSIMeanReversionStrategy.evaluate`. -/
def evaluate : StrategyContext → Except IndicatorError TradeSignal := longOnly reading

end RSIMeanReversion

/-! ### Breakout -/

namespace Breakout

/-- What `BreakoutStrategy` reads: the bars before the last one. -/
def reading (candles : List Candle) : Except IndicatorError (Option Reading) :=
  if candles.length < 20 + 2 + 1 then .ok none
  else do
    let highs := candles.map Candle.high
    let lows := candles.map Candle.low
    let closes := candles.map Candle.close
    let i := closes.length - 1
    let priorHigh := (((highs.take i).drop (i - 20)).max?).getD 0
    let priorLow := (((lows.take i).drop (i - 20)).min?).getD 0
    let atrSeries ← atr .exact highs lows closes 14
    let close := closes.getD i 0
    .ok <| some
      { enters := priorHigh < close
        leaves := close < priorLow
        close := close
        stop := ((atrSeries.getD i none).filter (0 < ·)).map fun a => close - a * (3 / 2) }

/-- `BreakoutStrategy.evaluate`. -/
def evaluate : StrategyContext → Except IndicatorError TradeSignal := longOnly reading

end Breakout

/-! ### EMA trend -/

namespace EMATrend

/-- What `EMATrendStrategy` reads. -/
def reading (candles : List Candle) : Except IndicatorError (Option Reading) :=
  if candles.length < 26 + 2 then .ok none
  else do
    let closes := candles.map Candle.close
    let volumes := candles.map Candle.volume
    let fast ← ema .exact closes 12
    let slow ← ema .exact closes 26
    let r ← rsi .exact closes 14
    let a ← atr .exact (candles.map Candle.high) (candles.map Candle.low) closes 14
    let vma ← sma .exact volumes 20
    let i := closes.length - 1
    match crossing fast slow i, r.getD i none, a.getD i none, vma.getD i none with
    | some (fastCur, fastPrev, slowCur, slowPrev), some rsiCur, some atrVal, some vmaCur =>
        let price := closes.getD i 0
        .ok <| some
          { enters := (slowCur < fastCur ∧ slowCur < price) ∧ (40 ≤ rsiCur ∧ rsiCur ≤ 70) ∧
              1 / 2 ≤ atrVal ∧ vmaCur < volumes.getD i 0
            leaves := slowPrev ≤ fastPrev ∧ fastCur < slowCur
            close := price
            stop := some (price - atrVal * (3 / 2))
            target := some (price + atrVal * 3) }
    | _, _, _, _ => .ok none

/-- A position is left at a setup, at its stop, at its target, or when it is held for too
long. -/
def exits (r : Reading) (p : Position) (barsHeld : ℕ) : Bool :=
  r.leaves ∨ p.stopLoss.any (r.close ≤ ·) ∨ p.takeProfit.any (· ≤ r.close) ∨ 48 ≤ barsHeld

/-- `EMATrendStrategy.evaluate`. -/
def evaluate (context : StrategyContext) : Except IndicatorError TradeSignal := do
  match ← reading context.candles with
  | none => .ok hold
  | some r =>
      match context.position.filter fun p => 0 < p.quantity with
      | some p =>
          if exits r p context.barsHeld then
            .ok { direction := .exit, suggestedStop := r.stop, suggestedTarget := r.target }
          else .ok hold
      | none =>
          if r.enters then
            .ok { direction := .buy, suggestedStop := r.stop, suggestedTarget := r.target }
          else .ok hold

end EMATrend

end Strategies

/-! ### The registry -/

open Strategies Indicators

/-- The registered strategies. -/
inductive StrategyKind
  | emaCrossover
  | emaRsi
  | emaTrend
  | rsiMeanReversion
  | breakout
  deriving DecidableEq, Repr, Inhabited

namespace StrategyKind

def strategyId : StrategyKind → String
  | .emaCrossover => "ema_crossover"
  | .emaRsi => "ema_rsi"
  | .emaTrend => "ema_trend"
  | .rsiMeanReversion => "rsi_mean_reversion"
  | .breakout => "breakout"

def name : StrategyKind → String
  | .emaCrossover => "EMA Crossover"
  | .emaRsi => "EMA Crossover + RSI"
  | .emaTrend => "EMA Trend Strategy"
  | .rsiMeanReversion => "RSI Mean Reversion"
  | .breakout => "Donchian Breakout"

def version : StrategyKind → String
  | .emaCrossover => "1.1.0"
  | .emaRsi | .emaTrend | .rsiMeanReversion | .breakout => "1.0.0"

variable (settings : BaselineSettings) (kind : StrategyKind)

/-- What the strategy reads of the candles. -/
def reading : List Candle → Except IndicatorError (Option Reading) :=
  match kind with
  | .emaCrossover => EMACrossover.reading
  | .emaRsi => EMARSI.reading settings
  | .emaTrend => EMATrend.reading
  | .rsiMeanReversion => RSIMeanReversion.reading
  | .breakout => Breakout.reading

/-- What the strategy answers. -/
def evaluate : StrategyContext → Except IndicatorError TradeSignal :=
  match kind with
  | .emaCrossover => EMACrossover.evaluate
  | .emaRsi => EMARSI.evaluate settings
  | .emaTrend => EMATrend.evaluate
  | .rsiMeanReversion => RSIMeanReversion.evaluate
  | .breakout => Breakout.evaluate

/-- The signal of the strategy, which does not raise. -/
def signal (context : StrategyContext) : TradeSignal :=
  match kind.evaluate settings context with
  | .ok signal => signal
  | .error _ => hold

/-- The strategy as it is registered; the text of the fingerprint comes from outside. -/
def strategy (fingerprint : List Candle → String) : Strategy where
  name := kind.name
  version := kind.version
  evaluate context :=
    { signal := kind.signal settings context, fingerprint := fingerprint context.candles }

/-! ### What the strategies answer -/

variable {settings} {kind} {candles : List Candle}

section

variable {period : ℤ} (hsome : 0 < candles.length) (hperiod : 0 < period)
include hsome hperiod

theorem ema_ok : ∃ series, ema .exact (candles.map Candle.close) period = .ok series :=
  ⟨_, ema_eq (by simpa using List.length_pos_iff.mp hsome) hperiod⟩

theorem rsi_ok : ∃ series, rsi .exact (candles.map Candle.close) period = .ok series :=
  ⟨_, rsi_eq (by simpa using List.length_pos_iff.mp hsome) hperiod⟩

theorem sma_ok : ∃ series, sma .exact (candles.map Candle.volume) period = .ok series :=
  ⟨_, sma_eq (by simpa using List.length_pos_iff.mp hsome) hperiod⟩

theorem atr_ok : ∃ series, atr .exact (candles.map Candle.high) (candles.map Candle.low)
    (candles.map Candle.close) period = .ok series := by
  have hbars : candles.map (fun c => (c.high, c.low, c.close)) ≠ [] := by
    simpa using List.length_pos_iff.mp hsome
  have heq := @atr_eq .exact _ _ hbars hperiod
  simp only [List.map_map, Function.comp_def] at heq
  exact ⟨_, heq⟩

end

theorem emaCrossover_ok (candles : List Candle) : ∃ r, EMACrossover.reading candles = .ok r := by
  unfold EMACrossover.reading
  split
  · exact ⟨_, rfl⟩
  split
  · exact ⟨_, rfl⟩
  split
  · exact ⟨_, rfl⟩
  have hsome : 0 < candles.length := by omega
  refine Except.exists_bind_ok (ema_ok hsome (by norm_num)) fun fast => ?_
  refine Except.exists_bind_ok (ema_ok hsome (by norm_num)) fun slow => ?_
  dsimp only
  split
  · exact ⟨_, rfl⟩
  · exact Except.exists_bind_ok (atr_ok hsome (by norm_num)) fun series => ⟨_, rfl⟩

theorem emaRsi_ok (candles : List Candle) : ∃ r, EMARSI.reading settings candles = .ok r := by
  have hfast : 1 ≤ settings.fastEmaPeriod := settings.one_le_fast
  have hslow : 2 ≤ settings.slowEmaPeriod := settings.two_le_slow
  have hrsi : 2 ≤ settings.rsiPeriod := settings.two_le_rsi
  unfold EMARSI.reading
  split
  · exact ⟨_, rfl⟩
  have hsome : 0 < candles.length := by omega
  refine Except.exists_bind_ok (ema_ok hsome (by omega)) fun fast => ?_
  refine Except.exists_bind_ok (ema_ok hsome (by omega)) fun slow => ?_
  refine Except.exists_bind_ok (rsi_ok hsome (by omega)) fun series => ?_
  dsimp only
  split <;> exact ⟨_, rfl⟩

theorem rsiMeanReversion_ok (candles : List Candle) :
    ∃ r, RSIMeanReversion.reading candles = .ok r := by
  unfold RSIMeanReversion.reading
  split
  · exact ⟨_, rfl⟩
  have hsome : 0 < candles.length := by omega
  refine Except.exists_bind_ok (rsi_ok hsome (by norm_num)) fun series => ?_
  dsimp only
  split <;> exact ⟨_, rfl⟩

theorem breakout_ok (candles : List Candle) : ∃ r, Breakout.reading candles = .ok r := by
  unfold Breakout.reading
  split
  · exact ⟨_, rfl⟩
  have hsome : 0 < candles.length := by omega
  exact Except.exists_bind_ok (atr_ok hsome (by norm_num)) fun series => ⟨_, rfl⟩

theorem emaTrend_ok (candles : List Candle) : ∃ r, EMATrend.reading candles = .ok r := by
  unfold EMATrend.reading
  split
  · exact ⟨_, rfl⟩
  have hsome : 0 < candles.length := by omega
  refine Except.exists_bind_ok (ema_ok hsome (by norm_num)) fun fast => ?_
  refine Except.exists_bind_ok (ema_ok hsome (by norm_num)) fun slow => ?_
  refine Except.exists_bind_ok (rsi_ok hsome (by norm_num)) fun r => ?_
  refine Except.exists_bind_ok (atr_ok hsome (by norm_num)) fun a => ?_
  refine Except.exists_bind_ok (sma_ok hsome (by norm_num)) fun vma => ?_
  dsimp only
  split <;> exact ⟨_, rfl⟩

/-- No strategy raises when it reads the candles. -/
theorem reading_ok (candles : List Candle) : ∃ r, kind.reading settings candles = .ok r := by
  cases kind with
  | emaCrossover => exact emaCrossover_ok candles
  | emaRsi => exact emaRsi_ok candles
  | emaTrend => exact emaTrend_ok candles
  | rsiMeanReversion => exact rsiMeanReversion_ok candles
  | breakout => exact breakout_ok candles

/-- The signal a strategy exits with. -/
def exitDirection : StrategyKind → SignalDirection
  | .emaTrend => .exit
  | .emaCrossover | .emaRsi | .rsiMeanReversion | .breakout => .sell

/-- Whether the strategy leaves a long position, by its reading. -/
def leavesPosition (kind : StrategyKind) (r : Reading) (p : Position) (barsHeld : ℕ) : Bool :=
  match kind with
  | .emaTrend => EMATrend.exits r p barsHeld
  | .emaCrossover | .emaRsi | .rsiMeanReversion | .breakout => r.leaves

/-- The direction of the strategy, by its reading and the long position. -/
def directionOf (kind : StrategyKind) (r : Option Reading) (long : Option Position)
    (barsHeld : ℕ) : SignalDirection :=
  match r, long with
  | none, _ => .hold
  | some r, none => if r.enters then .buy else .hold
  | some r, some p => if kind.leavesPosition r p barsHeld then kind.exitDirection else .hold

/-- The long position of a context. -/
def longPosition (context : StrategyContext) : Option Position :=
  context.position.filter fun p => 0 < p.quantity

theorem longOnly_eq {reading : List Candle → Except IndicatorError (Option Reading)}
    {context : StrategyContext} {r : Option Reading} (hread : reading context.candles = .ok r)
    (hkind : kind ≠ .emaTrend) : ∃ signal, longOnly reading context = .ok signal ∧
      signal.direction = kind.directionOf r (longPosition context) context.barsHeld := by
  have hleaves : ∀ r p bars, kind.leavesPosition r p bars = r.leaves := by
    intro r p bars
    cases kind <;> first | rfl | exact absurd rfl hkind
  have hexit : kind.exitDirection = .sell := by
    cases kind <;> first | rfl | exact absurd rfl hkind
  -- a short or empty position counts as none
  have hlong : hasLong context = (longPosition context).isSome := by
    unfold hasLong longPosition
    cases context.position with
    | none => rfl
    | some p => by_cases hp : 0 < p.quantity <;> simp [hp]
  unfold longOnly
  rw [hread, hlong]
  cases r with
  | none => exact ⟨hold, rfl, rfl⟩
  | some r =>
    cases hp : longPosition context with
    | none =>
      by_cases henters : r.enters = true
      · refine ⟨{ direction := .buy, suggestedStop := r.stop, suggestedTarget := r.target }, ?_, ?_⟩
        · simp [bind, Except.bind, henters]
        · simp [directionOf, henters]
      · exact ⟨hold, by simp [bind, Except.bind, henters], by simp [directionOf, henters, hold]⟩
    | some p =>
      by_cases hleave : r.leaves = true
      · refine ⟨{ direction := .sell }, by simp [bind, Except.bind, hleave], ?_⟩
        simp [directionOf, hleaves, hexit, hleave]
      · refine ⟨hold, by simp [bind, Except.bind, hleave], ?_⟩
        simp [directionOf, hleaves, hleave, hold]

theorem emaTrend_eq {context : StrategyContext} {r : Option Reading}
    (hread : EMATrend.reading context.candles = .ok r) :
    ∃ signal, EMATrend.evaluate context = .ok signal ∧
      signal.direction =
        StrategyKind.emaTrend.directionOf r (longPosition context) context.barsHeld := by
  unfold EMATrend.evaluate
  rw [hread]
  cases r with
  | none => exact ⟨hold, rfl, rfl⟩
  | some r =>
    rw [← longPosition]
    cases hp : longPosition context with
    | none =>
      by_cases henters : r.enters = true
      · refine ⟨{ direction := .buy, suggestedStop := r.stop, suggestedTarget := r.target }, ?_, ?_⟩
        · simp [bind, Except.bind, henters]
        · simp [directionOf, henters]
      · exact ⟨hold, by simp [bind, Except.bind, henters], by simp [directionOf, henters, hold]⟩
    | some p =>
      by_cases hexits : EMATrend.exits r p context.barsHeld = true
      · refine ⟨{ direction := .exit, suggestedStop := r.stop, suggestedTarget := r.target }, ?_, ?_⟩
        · simp [bind, Except.bind, hexits]
        · simp [directionOf, leavesPosition, exitDirection, hexits]
      · refine ⟨hold, by simp [bind, Except.bind, hexits], ?_⟩
        simp [directionOf, leavesPosition, hexits, hold]

/-- **No strategy raises**, and the direction of its signal is that of its reading and the
long position. -/
theorem evaluate_ok {context : StrategyContext} {r : Option Reading}
    (hread : kind.reading settings context.candles = .ok r) :
    ∃ signal, kind.evaluate settings context = .ok signal ∧
      signal.direction = kind.directionOf r (longPosition context) context.barsHeld := by
  cases kind with
  | emaCrossover => exact longOnly_eq hread (by decide)
  | emaRsi => exact longOnly_eq hread (by decide)
  | emaTrend => exact emaTrend_eq hread
  | rsiMeanReversion => exact longOnly_eq hread (by decide)
  | breakout => exact longOnly_eq hread (by decide)

/-- **The direction of a signal**, by what the strategy reads of the candles and the long
position. -/
theorem direction_eq {context : StrategyContext} {r : Option Reading}
    (hread : kind.reading settings context.candles = .ok r) :
    (kind.signal settings context).direction =
      kind.directionOf r (longPosition context) context.barsHeld := by
  obtain ⟨answer, heval, hdirection⟩ := evaluate_ok hread
  rw [signal, heval]
  exact hdirection

/-! ### Two positions -/

/-- The strategy answers the same with one long position and with the other, after the bars
that each has been held. -/
def Indifferent (kind : StrategyKind) (r : Reading) :
    Option Position × ℕ → Option Position × ℕ → Prop
  | (none, _), (none, _) => True
  | (some p, bars), (some p', bars') =>
      kind.leavesPosition r p bars = kind.leavesPosition r p' bars'
  | (some p, bars), (none, _) => ¬kind.leavesPosition r p bars ∧ ¬r.enters
  | (none, _), (some p, bars) => ¬r.enters ∧ ¬kind.leavesPosition r p bars

theorem directionOf_eq_iff (r : Reading) (long long' : Option Position) (bars bars' : ℕ) :
    kind.directionOf (some r) long bars = kind.directionOf (some r) long' bars' ↔
      kind.Indifferent r (long, bars) (long', bars') := by
  -- the direction of an exit tells it from an entry and from holding
  have hbuy : kind.exitDirection ≠ .buy := by cases kind <;> decide
  have hhold : kind.exitDirection ≠ .hold := by cases kind <;> decide
  cases long with
  | none =>
    cases long' with
    | none => simp [Indifferent, directionOf]
    | some p =>
      simp only [Indifferent, directionOf]
      split_ifs with henters hleaves hleaves <;> simp_all [hbuy.symm, hhold.symm]
  | some p =>
    cases long' with
    | none =>
      simp only [Indifferent, directionOf]
      split_ifs with hleaves henters henters <;> simp_all
    | some p' =>
      simp only [Indifferent, directionOf]
      split_ifs with hleaves hleaves' hleaves' <;> simp_all [hhold.symm]

end StrategyKind

end Atlas
