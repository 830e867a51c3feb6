import Atlas.Session.Orchestrator
import Atlas.Backtest.Metrics

/-!
# The backtesting engine

`BacktestEngine.run` goes over a list of candles with one long position at most.  A bar
first checks the stop and the target of a position from an earlier bar, then marks the
position, then asks the strategy, and last opens or closes the position at the close.  What
is still open after the last bar is closed there.  All of it is in an arithmetic, and a size
that cannot be quantized makes the run raise.

The three places that close a position repeat one block of the source; they are
`exitAt` with their price and reason.  A strategy that keeps a state of its own is covered:
within one run the number of candles it is shown tells the calls apart.  The reports that
are written to disk, and the run's random identifier, are left out.

## Main definitions

* `BacktestConfig`, `BacktestStrategy` — what a run is given.
* `LoopState` — the local variables of the loop.
* `checkStops`, `markToMarket`, `act`, `step` — a bar.
* `after`, `run` — the bars of a list, and the whole run, unless they raise.

## Main results

* `after_induction` — **the rule of the loop**: an invariant is kept by the stop check, the
  mark and the action of each bar.
* `run_eq_ok` — what a run that returns has done.

## References

`app/backtesting/engine.py`.
-/

namespace Atlas

structure BacktestConfig where
  initialCash : ℚ := 10000
  feeRate : ℚ := 1 / 1000
  slippageRate : ℚ := 5 / 10000
  spreadRate : ℚ := 2 / 10000
  positionSizeFraction : ℚ := 1 / 10
  deriving DecidableEq, Repr, Inhabited

/-- A strategy, with the rationale that its signals carry. -/
structure BacktestStrategy extends Strategy where
  strategyId : String
  entryRationale : StrategyContext → String

/-- The signal of a strategy in a context. -/
def Strategy.signal (strategy : Strategy) (ctx : StrategyContext) : TradeSignal :=
  (strategy.evaluate ctx).signal

structure BacktestResult where
  metrics : PerformanceMetrics
  trades : List BacktestTrade
  equityCurve : List (Time × ℚ)
  config : BacktestConfig
  strategyId : String
  deriving DecidableEq, Repr, Inhabited

namespace Backtest

/-! ### Costs, stops and size -/

/-- The price of a fill with its costs for one unit. -/
structure Costs where
  price : ℚ
  fee : ℚ
  slippageCost : ℚ
  deriving DecidableEq, Repr

variable (A : Arithmetic ℚ) (config : BacktestConfig)

/-- `_apply_costs`. -/
def applyCosts (price : ℚ) (side : OrderSide) : Costs :=
  let halfSpread := A.div (A.mul price config.spreadRate) 2
  let slip := A.mul price config.slippageRate
  let fillPrice :=
    match side with
    | .buy => A.add (A.add price halfSpread) slip
    | .sell => A.sub (A.sub price halfSpread) slip
  { price := fillPrice
    fee := A.mul fillPrice config.feeRate
    slippageCost := slip }

/-- `_check_stop_take`: the price and the reason of an exit, the stop first. -/
def checkStopTake (position : Position) (bar : Candle) : Option (ℚ × String) :=
  if position.stopLoss.any (bar.low ≤ ·) then position.stopLoss.map (·, "stop-loss")
  else if position.takeProfit.any (· ≤ bar.high) then position.takeProfit.map (·, "take-profit")
  else none

/-- `_size_position`; `quantize` raises for a size of too many digits. -/
def sizePosition (cash price : ℚ) : Except BacktestError ℚ :=
  let notional := A.mul cash config.positionSizeFraction
  if price ≤ 0 then .ok 0
  else
    match A.quantize quantum8 (A.div notional price) with
    | some qty => .ok qty
    | none => .error .invalidOperation

/-! ### A bar -/

/-- The local variables of the loop. -/
structure LoopState where
  cash : ℚ
  position : Option Position := none
  trades : List BacktestTrade := []
  equityCurve : List (Time × ℚ) := []
  openTrade : Option BacktestTrade := none
  barsHeld : ℕ := 0
  peak : ℚ
  deriving DecidableEq, Repr

/-- The variables before the loop. -/
def start : LoopState := { cash := config.initialCash, peak := config.initialCash }

/-- The trade of a position that is sold at a price. -/
def closed (trade : BacktestTrade) (position : Position) (price : ℚ) (time : Time)
    (reason : String) : BacktestTrade :=
  let fill := applyCosts A config price .sell
  let fees := A.mul fill.fee position.quantity
  { trade with
    exitTime := some time
    exitPrice := some fill.price
    pnl := A.sub (A.mul (A.sub fill.price position.entryPrice) position.quantity) fees
    fees := A.add trade.fees fees
    slippageCost := A.add trade.slippageCost (A.mul fill.slippageCost position.quantity)
    reason := reason }

/-- Sell the position at a price: the block of a stop or target, of an exit signal, and of
the end of the data. -/
def exitAt (position : Position) (price : ℚ) (time : Time) (reason : String) (s : LoopState) :
    LoopState :=
  let fill := applyCosts A config price .sell
  let proceeds := A.mul fill.price position.quantity
  let fees := A.mul fill.fee position.quantity
  { s with
    cash := A.add s.cash (A.sub proceeds fees)
    position := none
    trades :=
      s.trades ++ (s.openTrade.map fun t => closed A config t position price time reason).toList
    openTrade := none
    barsHeld := 0 }

/-- The stop and the target of a position from an earlier bar. -/
def checkStops (bar : Candle) (s : LoopState) : LoopState :=
  match s.position with
  | some position =>
      if position.openedAt < bar.openTime then
        match checkStopTake position bar with
        | some (price, reason) => exitAt A config position price bar.openTime reason s
        | none => s
      else s
  | none => s

/-- The equity at a mark. -/
def LoopState.equity (s : LoopState) (mark : ℚ) : ℚ :=
  A.add s.cash (s.position.elim 0 fun p => A.mul p.quantity mark)

/-- Mark the position at the close, and record the equity. -/
def markToMarket (bar : Candle) (s : LoopState) : LoopState :=
  { s with
    position := s.position.map fun p =>
      { p with
        currentPrice := bar.close
        unrealizedPnl := A.mul (A.sub bar.close p.entryPrice) p.quantity }
    barsHeld := if s.position.isSome then s.barsHeld + 1 else s.barsHeld
    peak := max s.peak (s.equity A bar.close)
    equityCurve := s.equityCurve ++ [(bar.openTime, s.equity A bar.close)] }

/-- What the strategy is shown. -/
def context (window : List Candle) (bar : Candle) (s : LoopState) : StrategyContext :=
  let equity := s.equity A bar.close
  { candles := window
    portfolio :=
      { cashBalance := s.cash
        equity := equity
        unrealizedPnl := s.position.elim 0 Position.unrealizedPnl
        peakEquity := s.peak
        drawdown := if 0 < s.peak then A.div (A.sub s.peak equity) s.peak else 0
        openPositions := s.position.toList }
    position := s.position
    barsHeld := s.barsHeld }

/-- The variables after a buy of a quantity at the close. -/
def opened (strategyName : String) (bar : Candle) (signal : TradeSignal) (rationale : String)
    (qty : ℚ) (s : LoopState) : LoopState :=
  let fill := applyCosts A config bar.close .buy
  let cost := A.mul fill.price qty
  let fees := A.mul fill.fee qty
  { s with
    cash := A.sub s.cash (A.add cost fees)
    position := some
      { symbol := bar.symbol
        quantity := qty
        entryPrice := fill.price
        currentPrice := bar.close
        unrealizedPnl := 0
        openedAt := bar.openTime
        strategyName := some strategyName
        stopLoss := signal.suggestedStop
        takeProfit := signal.suggestedTarget }
    openTrade := some
      { symbol := bar.symbol
        side := "buy"
        entryTime := bar.openTime
        exitTime := none
        entryPrice := fill.price
        exitPrice := none
        quantity := qty
        fees := fees
        slippageCost := A.mul fill.slippageCost qty
        reason := rationale }
    barsHeld := 0 }

/-- What a buy of a quantity takes from the cash. -/
def entryCost (price qty : ℚ) : ℚ :=
  let fill := applyCosts A config price .buy
  A.add (A.mul fill.price qty) (A.mul fill.fee qty)

/-- Open a position at the close, if its size is positive and the cash covers it. -/
def enter (strategyName : String) (bar : Candle) (signal : TradeSignal) (rationale : String)
    (s : LoopState) : Except BacktestError LoopState := do
  let qty ← sizePosition A config s.cash bar.close
  if 0 < qty ∧ entryCost A config bar.close qty ≤ s.cash then
    .ok (opened A config strategyName bar signal rationale qty s)
  else .ok s

variable (strategy : BacktestStrategy)

/-- Act on the signal of the strategy. -/
def act (window : List Candle) (bar : Candle) (s : LoopState) : Except BacktestError LoopState :=
  let ctx := context A window bar s
  let signal := strategy.signal ctx
  let rationale := strategy.entryRationale ctx
  match signal.direction, s.position with
  | .buy, none => enter A config strategy.name bar signal rationale s
  | .exit, some p | .sell, some p => .ok (exitAt A config p bar.close bar.openTime rationale s)
  | _, _ => .ok s

/-- One iteration of the loop: the bar at index `i`, of which the strategy sees
`candles[: i+1]`. -/
def step (candles : List Candle) (s : LoopState) (i : ℕ) : Except BacktestError LoopState :=
  let window := candles.take (i + 1)
  match window.getLast? with
  | some bar => act A config strategy window bar (markToMarket A bar (checkStops A config bar s))
  | none => .ok s

/-! ### A run -/

/-- The variables after the first `k` iterations. -/
def after (candles : List Candle) (k : ℕ) : Except BacktestError LoopState :=
  ((List.range candles.length).take k).foldlM (step A config strategy candles) (start config)

/-- Close what is open after the last bar. -/
def forceClose (candles : List Candle) (s : LoopState) : LoopState :=
  match s.position, candles.getLast? with
  | some position, some bar => exitAt A config position bar.close bar.openTime "end-of-data" s
  | _, _ => s

/-- The variables at the end of a run. -/
def final (candles : List Candle) : Except BacktestError LoopState := do
  let s ← after A config strategy candles candles.length
  .ok (forceClose A config candles s)

/-- `run`; it raises on an empty list. -/
def run (numerics : Numerics) (candles : List Candle) : Except BacktestError BacktestResult :=
  if candles = [] then .error (.valueError "candles must not be empty")
  else do
    let s ← final A config strategy candles
    let metrics ← computeMetrics A numerics s.trades s.equityCurve config.initialCash s.cash
    .ok
      { metrics := metrics
        trades := s.trades
        equityCurve := s.equityCurve
        config := config
        strategyId := strategy.strategyId }

/-! ### What a bar does -/

variable {A config strategy} {candles window : List Candle} {bar : Candle} {s s' : LoopState}

variable (A config) in
/-- What a stop or target check does. -/
inductive Checks (bar : Candle) (s : LoopState) : LoopState → Prop
  | kept : Checks bar s s
  | exited (position : Position) (price : ℚ) (reason : String)
      (hposition : s.position = some position) (hearlier : position.openedAt < bar.openTime)
      (htouched : checkStopTake position bar = some (price, reason)) :
      Checks bar s (exitAt A config position price bar.openTime reason s)

variable (A config strategy) in
/-- What acting on a signal does. -/
inductive Acts (window : List Candle) (bar : Candle) (s : LoopState) : LoopState → Prop
  | kept : Acts window bar s s
  | opened (rationale : String) (qty : ℚ) (hflat : s.position = none)
      (hsize : sizePosition A config s.cash bar.close = .ok qty) (hqty : 0 < qty)
      (hcash : entryCost A config bar.close qty ≤ s.cash) :
      Acts window bar s
        (opened A config strategy.name bar (strategy.signal (context A window bar s)) rationale qty
          s)
  | exited (position : Position) (rationale : String) (hposition : s.position = some position) :
      Acts window bar s (exitAt A config position bar.close bar.openTime rationale s)

theorem checkStops_checks (A : Arithmetic ℚ) (config : BacktestConfig) (bar : Candle)
    (s : LoopState) : Checks A config bar s (checkStops A config bar s) := by
  unfold checkStops
  split
  · next position hposition =>
    split_ifs with hearlier
    · split
      · next price reason htouched => exact .exited position price reason hposition hearlier htouched
      · exact .kept
    · exact .kept
  · exact .kept

theorem act_acts (h : act A config strategy window bar s = .ok s') :
    Acts A config strategy window bar s s' := by
  unfold act at h
  dsimp only at h
  split at h
  · next hflat =>
    obtain ⟨qty, hsize, h⟩ := Except.bind_eq_ok.mp h
    split_ifs at h with henters
    · rw [← Except.ok.inj h]
      exact .opened _ qty hflat hsize henters.1 henters.2
    · rw [← Except.ok.inj h]
      exact .kept
  · next position _ hposition =>
    rw [← Except.ok.inj h]
    exact .exited position _ hposition
  · next position _ hposition =>
    rw [← Except.ok.inj h]
    exact .exited position _ hposition
  · rw [← Except.ok.inj h]
    exact .kept

/-- The bar of an iteration. -/
theorem getLast?_take {i : ℕ} (hi : i < candles.length) :
    (candles.take (i + 1)).getLast? = some candles[i] := by
  rw [List.take_succ_eq_append_getElem hi, List.getLast?_concat]

theorem step_eq {i : ℕ} (hi : i < candles.length) :
    step A config strategy candles s i =
      act A config strategy (candles.take (i + 1)) candles[i]
        (markToMarket A candles[i] (checkStops A config candles[i] s)) := by
  simp only [step, getLast?_take hi]

/-! ### What a run does -/

theorem after_succ {k : ℕ} (hk : k < candles.length) :
    after A config strategy candles (k + 1) =
      after A config strategy candles k >>= fun s => step A config strategy candles s k := by
  have hrange : (List.range candles.length).take (k + 1) =
      (List.range candles.length).take k ++ [k] := by
    rw [List.take_succ_eq_append_getElem (by simpa using hk), List.getElem_range]
  rw [after, hrange, List.foldlM_append, after]
  simp only [List.foldlM_cons, List.foldlM_nil, bind_pure]

/-- A loop that is through `k + 1` bars was through `k` of them. -/
theorem after_succ_eq_ok {k : ℕ} (hk : k < candles.length)
    (h : after A config strategy candles (k + 1) = .ok s') :
    ∃ s, after A config strategy candles k = .ok s ∧
      act A config strategy (candles.take (k + 1)) candles[k]
        (markToMarket A candles[k] (checkStops A config candles[k] s)) = .ok s' := by
  rw [after_succ hk] at h
  obtain ⟨s, hs, hstep⟩ := Except.bind_eq_ok.mp h
  exact ⟨s, hs, by rwa [step_eq hk] at hstep⟩

theorem after_of_le {k : ℕ} (hk : candles.length ≤ k) :
    after A config strategy candles k = after A config strategy candles candles.length := by
  rw [after, after, List.take_of_length_le (by simpa using hk), List.take_of_length_le (by simp)]

/-- **The rule of the loop**: what holds before it and is kept by every bar holds after any
number of bars that it gets through. -/
theorem after_induction {P : ℕ → LoopState → Prop} (hstart : P 0 (start config))
    (hstep : ∀ k (hk : k < candles.length) s s', P k s →
      Checks A config candles[k] s s' →
      ∀ s'', Acts A config strategy (candles.take (k + 1)) candles[k]
        (markToMarket A candles[k] s') s'' → P (k + 1) s'')
    {k : ℕ} (hk : k ≤ candles.length) (h : after A config strategy candles k = .ok s) : P k s := by
  induction k generalizing s with
  | zero =>
    rw [← Except.ok.inj h]
    exact hstart
  | succ k ih =>
    obtain ⟨s₀, hs₀, hact⟩ := after_succ_eq_ok hk h
    exact hstep k hk s₀ _ (ih (Nat.le_of_succ_le hk) hs₀) (checkStops_checks ..) s (act_acts hact)

/-- The loop gets through the first bars of what it gets through. -/
theorem after_of_succ {j k : ℕ} (hjk : j ≤ k) (h : after A config strategy candles k = .ok s) :
    ∃ s, after A config strategy candles j = .ok s := by
  induction k, hjk using Nat.le_induction generalizing s with
  | base => exact ⟨s, h⟩
  | succ k _ ih =>
    by_cases hk : k < candles.length
    · obtain ⟨s₀, hs₀, -⟩ := after_succ_eq_ok hk h
      exact ih hs₀
    · -- there are no more bars
      have hend : candles.length ≤ k := not_lt.mp hk
      rw [after_of_le (Nat.le_succ_of_le hend), ← after_of_le hend] at h
      exact ih h

theorem final_eq_ok (h : final A config strategy candles = .ok s') :
    ∃ s, after A config strategy candles candles.length = .ok s ∧
      s' = forceClose A config candles s := by
  obtain ⟨s, hs, hs'⟩ := Except.bind_eq_ok.mp h
  exact ⟨s, hs, (Except.ok.inj hs').symm⟩

/-- **What a run that returns has done**: the bars and the end of the data, and then the
metrics. -/
theorem run_eq_ok {numerics : Numerics} {r : BacktestResult}
    (h : run A config strategy numerics candles = .ok r) :
    candles ≠ [] ∧ ∃ s x, final A config strategy candles = .ok s ∧
      r =
        { metrics := metricsOf A numerics s.trades s.equityCurve config.initialCash s.cash x
          trades := s.trades
          equityCurve := s.equityCurve
          config := config
          strategyId := strategy.strategyId } := by
  rw [run] at h
  split_ifs at h with hne
  obtain ⟨s, hs, h⟩ := Except.bind_eq_ok.mp h
  obtain ⟨m, hm, h⟩ := Except.bind_eq_ok.mp h
  obtain ⟨x, rfl⟩ := computeMetrics_eq_ok hm
  exact ⟨hne, s, x, hs, (Except.ok.inj h).symm⟩

/-- A run of some candles returns exactly if its bars do and the growth can be quantized. -/
theorem run_isOk_iff {numerics : Numerics} (hne : candles ≠ []) :
    (∃ r, run A config strategy numerics candles = .ok r) ↔
      ∃ s, final A config strategy candles = .ok s ∧
        Quantizable A numerics s.equityCurve config.initialCash s.cash := by
  rw [run, if_neg hne]
  constructor
  · rintro ⟨r, hr⟩
    obtain ⟨s, hs, hr⟩ := Except.bind_eq_ok.mp hr
    obtain ⟨m, hm, -⟩ := Except.bind_eq_ok.mp hr
    exact ⟨s, hs, computeMetrics_isOk_iff.mp ⟨m, hm⟩⟩
  · rintro ⟨s, hs, hgrowth⟩
    obtain ⟨m, hm⟩ := (@computeMetrics_isOk_iff A numerics s.trades _ _ _).mpr hgrowth
    exact ⟨_, Except.bind_eq_ok.mpr ⟨s, hs, Except.bind_eq_ok.mpr ⟨m, hm, rfl⟩⟩⟩

variable (A config) in
/-- What the end of the data does to a state. -/
inductive Ends (candles : List Candle) (s : LoopState) : LoopState → Prop
  | flat (hflat : s.position = none) : Ends candles s s
  | exited (position : Position) (bar : Candle) (hposition : s.position = some position)
      (hbar : candles.getLast? = some bar) :
      Ends candles s (exitAt A config position bar.close bar.openTime "end-of-data" s)

theorem forceClose_ends (hne : candles ≠ []) (s : LoopState) :
    Ends A config candles s (forceClose A config candles s) := by
  unfold forceClose
  split
  · next position bar hposition hbar => exact .exited position bar hposition hbar
  · next hnone =>
    cases hposition : s.position with
    | none => exact .flat hposition
    | some position =>
      exact absurd (List.getLast?_eq_some_getLast hne) (hnone position _ hposition)

/-- **The rule of a run**: the end of the data comes after all bars. -/
theorem final_ends (hne : candles ≠ []) (h : final A config strategy candles = .ok s') :
    ∃ s, after A config strategy candles candles.length = .ok s ∧ Ends A config candles s s' := by
  obtain ⟨s, hs, rfl⟩ := final_eq_ok h
  exact ⟨s, hs, forceClose_ends hne s⟩

/-! ### Examples -/

/-- Buys whenever it is flat, and exits at the fourth bar. -/
def everyBar : BacktestStrategy where
  name := "every bar"
  version := "1.0.0"
  strategyId := "every_bar"
  evaluate := fun ctx =>
    { signal :=
        match ctx.position with
        | none => { direction := .buy, suggestedStop := some 95, suggestedTarget := some 110 }
        | some _ => { direction := if ctx.candles.length = 4 then .exit else .hold }
      fingerprint := "" }
  entryRationale := fun ctx => if ctx.position.isNone then "flat" else "fourth bar"

/-- Buys whenever it is flat, and never exits. -/
def buyWhenFlat : BacktestStrategy where
  name := "buy when flat"
  version := "1.0.0"
  strategyId := "buy_when_flat"
  evaluate := fun ctx =>
    { signal := { direction := if ctx.position.isNone then .buy else .hold }, fingerprint := "" }
  entryRationale := fun _ => "flat"

/-- Hourly candles that stay at one price. -/
def hourly (closes : List ℚ) : List Candle :=
  closes.mapIdx fun i close =>
    { symbol := "BTC/USDT", timeframe := "1h", openTime := 3600000000 * i, openPrice := close
      high := close, low := close, close := close, volume := 100 }

/-- The functions of the libraries where the growth has a known value. -/
def Numerics.growing (rate : ℚ) : Numerics where
  square x := Arithmetic.decimal28.mul x x
  sqrt x := Arithmetic.decimal28.round (Nat.sqrt (x * 10 ^ 80).floor.toNat / 10 ^ 40)
  growth _ _ := .finite rate

/-- An hour of candles around 100: the second touches 95, the third touches 110. -/
def touchingBars : List Candle :=
  [(99, 101), (94, 101), (99, 111), (99, 101), (99, 101)].mapIdx fun i (low, high) =>
    { symbol := "BTC/USDT", timeframe := "1h", openTime := 3600000000 * i, openPrice := 100
      high := high, low := low, close := 100, volume := 100 }

end Backtest

end Atlas
