import Mathlib.Data.List.Basic
import Atlas.Session.Cycle

/-!
# The orchestrators of the paper cycles

`run_paper_trading_cycle` finds the orchestrator of its strategy and symbol, or creates
it.  An orchestrator keeps the candles it has taken: a window for each symbol, the
candles it has seen, and the time of the last one.  A call loads closed candles, takes
all but the last one into the window without trading (`prime_candles`), skips the last
one if its key has been processed, and otherwise gives it to the strategy and to the
runtime.

Here the inputs of the runtime's cycle come from the orchestrator: whether the candle is
accepted, the signal, the peak of the equity, and the copy of the kill switch.  The
candles of a call come from outside, and so do the strategies; a strategy is
deterministic and does not raise.

## Main definitions

* `Candle`, `Strategy`, `Registry` — what a cycle works on.
* `toUnixMs` — `to_unix_ms`, which goes through floating-point seconds.
* `Orchestrator` — the state of an orchestrator.
* `rejectReason`, `take`, `primeCandles` — the intake of candles.
* `Service`, `CycleCall`, `runCycle` — `run_paper_trading_cycle`.

## References

`app/services/trading_orchestrator.py`, `app/services/paper_cycle.py`,
`app/strategies/base.py`, `app/models/domain/market.py`, `app/core/time.py`.
-/

namespace Atlas

open Session Quantize

structure Candle where
  symbol : String
  timeframe : String
  openTime : Time
  openPrice : ℚ
  high : ℚ
  low : ℚ
  close : ℚ
  volume : ℚ
  isClosed : Bool := true
  deriving DecidableEq, Repr, Inhabited

/-! ### Milliseconds -/

/-- `to_unix_ms`: `timestamp()` is the floating-point number of seconds. -/
def toUnixMs (t : Time) : ℤ := roundDown (nearestFloat (nearestFloat (t / 1000000) * 1000))

/-- A whole number of at most 53 bits is a floating-point number. -/
theorem nearestFloat_intCast {n : ℤ} (hn : |n| < 2 ^ 53) : nearestFloat (n : ℚ) = n := by
  unfold nearestFloat
  split_ifs with hzero
  · exact hzero.symm
  have hlog : Int.log 2 |(n : ℚ)| ≤ 52 := by
    refine Int.lt_add_one_iff.mp ((Int.lt_zpow_iff_log_lt (by norm_num) (abs_pos.mpr hzero)).mp ?_)
    exact_mod_cast hn
  obtain ⟨j, hj⟩ : ∃ j : ℕ, Int.log 2 |(n : ℚ)| - 52 = -(j : ℤ) :=
    ⟨(52 - Int.log 2 |(n : ℚ)|).toNat, by omega⟩
  have hgrid : (n : ℚ) = ((n * 2 ^ j : ℤ) : ℚ) * 2 ^ (-(j : ℤ)) := by
    push_cast
    rw [zpow_neg, zpow_natCast, mul_assoc, mul_inv_cancel₀ (by positivity), mul_one]
  rw [hj]
  conv_lhs => rw [hgrid]
  rw [quantize_intCast_mul (zpow_ne_zero _ two_ne_zero), ← hgrid]

/-- On whole seconds the milliseconds are exact. -/
theorem toUnixMs_seconds {n : ℤ} (hn : |n * 1000| < 2 ^ 53) :
    toUnixMs (n * 1000000) = n * 1000 := by
  have hsmall : |n| < 2 ^ 53 := by
    rw [abs_mul] at hn
    have hpos : 0 ≤ |n| := abs_nonneg n
    norm_num at hn
    omega
  have hseconds : (((n * 1000000 : ℤ) : ℚ)) / 1000000 = n := by
    push_cast
    field_simp
  unfold toUnixMs
  rw [hseconds, nearestFloat_intCast hsmall]
  have hms : (n : ℚ) * 1000 = ((n * 1000 : ℤ) : ℚ) := by push_cast; ring
  rw [hms, nearestFloat_intCast hn, roundDown_intCast]

/-- What a strategy is shown; `barsHeld` is its one indicator. -/
structure StrategyContext where
  candles : List Candle
  portfolio : PortfolioState
  position : Option Position
  barsHeld : ℕ

/-- What a strategy answers: a signal, and the fingerprint of what it has read. -/
structure StrategyDecision where
  signal : TradeSignal
  fingerprint : String
  deriving DecidableEq, Repr, Inhabited

/-- A registered strategy, with its default parameters. -/
structure Strategy where
  name : String
  version : String
  evaluate : StrategyContext → StrategyDecision

/-- The strategies by their identifiers. -/
abbrev Registry := String → Strategy

def SignalDirection.value : SignalDirection → String
  | .buy => "buy"
  | .sell => "sell"
  | .exit => "exit"
  | .hold => "hold"

/-- The state of an orchestrator that shares the ledger of the session. -/
structure Orchestrator where
  sessionId : String
  seenCandles : List (String × Time) := []
  lastOpenTime : Dict String Time := ∅
  window : Dict String (List Candle) := ∅
  seenSignalFps : List String := []
  journaledFillIds : List Ident := []
  barsHeld : Dict String ℕ := ∅
  peakEquity : ℚ
  consecutiveLosses : ℕ := 0
  killSwitchEnabled : Bool := false
  maxCandleAge : Option Time := none
  deriving DecidableEq, Repr, Inhabited

namespace Orchestrator

/-! ### Intake -/

/-- `_reject_reason`. -/
def rejectReason (o : Orchestrator) (candle : Candle) (now : Time) : Option String :=
  if ¬candle.isClosed then some "INCOMPLETE_CANDLE"
  else if (candle.symbol, candle.openTime) ∈ o.seenCandles then some "DUPLICATE_CANDLE"
  else if (o.lastOpenTime.get? candle.symbol).any fun last => candle.openTime ≤ last then
    some "OUT_OF_ORDER_CANDLE"
  else if o.maxCandleAge.any fun age => age < now - candle.openTime then some "STALE_CANDLE"
  else none

/-- The window of a symbol. -/
def windowOf (o : Orchestrator) (symbol : String) : List Candle := (o.window.get? symbol).getD []

/-- Take a candle into the window of its symbol. -/
def take (o : Orchestrator) (candle : Candle) : Orchestrator :=
  { o with
    seenCandles := (candle.symbol, candle.openTime) :: o.seenCandles
    lastOpenTime := o.lastOpenTime.set candle.symbol candle.openTime
    window := o.window.set candle.symbol (o.windowOf candle.symbol ++ [candle]) }

/-- Orchestrator, ledger and count after some candles are primed. -/
structure Primed where
  orchestrator : Orchestrator
  paper : PaperState
  count : ℕ := 0
  deriving DecidableEq, Repr

/-- One candle of the loop of `prime_candles`. -/
def primeCandle (cfg : PaperConfig) (now : Time) (p : Primed) (candle : Candle) : Primed :=
  if ¬candle.isClosed then p
  else if (p.orchestrator.rejectReason candle now).isSome then p
  else
    { orchestrator := p.orchestrator.take candle
      paper := Paper.setMarkPrice cfg p.paper candle.symbol candle.close now
      count := p.count + 1 }

/-- `prime_candles`. -/
def primeCandles (cfg : PaperConfig) (now : Time) (o : Orchestrator) (paper : PaperState)
    (candles : List Candle) : Primed :=
  candles.foldl (primeCandle cfg now) { orchestrator := o, paper := paper }

/-! ### Evaluation -/

/-- `_portfolio_state`. -/
def portfolioState (initialCash : ℚ) (o : Orchestrator) (paper : PaperState) :
    PortfolioState × Orchestrator :=
  let equity := paper.equity
  let peak := max o.peakEquity equity
  ({ cashBalance := paper.cash
     equity := equity
     realizedPnl := paper.realizedPnl
     unrealizedPnl := paper.positions.sum Position.unrealizedPnl
     dailyPnl := equity - initialCash
     peakEquity := peak
     drawdown := Session.drawdown peak equity
     openPositions := paper.positions.values
     consecutiveLosses := o.consecutiveLosses }, { o with peakEquity := peak })

/-- `_evaluate`. -/
def evaluate (strategy : Strategy) (initialCash : ℚ) (o : Orchestrator) (paper : PaperState)
    (symbol : String) (window : List Candle) : StrategyDecision × Orchestrator :=
  let portfolio := o.portfolioState initialCash paper
  (strategy.evaluate
    { candles := window
      portfolio := portfolio.1
      position := paper.positions.get? symbol
      barsHeld := (o.barsHeld.get? symbol).getD 0 }, portfolio.2)

/-- `_client_order_id`: the time is in milliseconds. -/
def clientOrderId (o : Orchestrator) (candle : Candle) (direction : SignalDirection) : String :=
  (o.sessionId.take 8).toString ++ "-" ++ candle.symbol.replace "/" "" ++ "-" ++
    toString (toUnixMs candle.openTime) ++ "-" ++ direction.value

/-- A candle with an open position counts as one more bar held. -/
def countBar (o : Orchestrator) (paper : PaperState) (symbol : String) : Orchestrator :=
  if (paper.positions.get? symbol).isSome then
    { o with barsHeld := o.barsHeld.set symbol ((o.barsHeld.get? symbol).getD 0 + 1) }
  else o

/-- What an order that was let through leaves behind: its fills are journaled, a
purchase starts to count bars, and a sale counts as a win or a loss. -/
def afterOrder (o : Orchestrator) (symbol : String) (order : Option Order) (fills : List Fill)
    (realizedDelta : ℚ) : Orchestrator :=
  let o := { o with journaledFillIds := fills.map Fill.id ++ o.journaledFillIds }
  match order with
  | none => o
  | some order =>
      if order.status = .filled ∨ order.status = .partiallyFilled then
        match order.side with
        | .buy => { o with barsHeld := o.barsHeld.set symbol 0 }
        | .sell =>
            { o with
              consecutiveLosses := lossesAfter o.consecutiveLosses realizedDelta
              barsHeld := o.barsHeld.erase symbol }
      else o

end Orchestrator

/-! ### Calls -/

/-- What the lock section of a call answers. -/
inductive LockAnswer
  | acquired
  | held
  | unavailable
  deriving DecidableEq, Repr, Inhabited

/-- A call of `run_paper_trading_cycle`, with what it loads and reads from outside. -/
structure CycleCall where
  strategyId : String
  symbol : String
  timeframe : String
  /-- What `load_closed_candles` returns. -/
  candles : List Candle
  lock : LockAnswer := .acquired
  tradingPaused : Bool := false
  /-- The identifier of the orchestrator's session, if the call creates it. -/
  sessionId : String := ""
  invariantsHold : Bool := true
  around : Surroundings
  deriving DecidableEq, Repr, Inhabited

/-- How a call ends. -/
inductive CycleEnd
  | reconciliationHalt
  | noCandles
  | idempotentReplay
  | lockHeld
  | lockUnavailable
  | complete
  deriving DecidableEq, Repr, Inhabited

/-- What a call returns, with the signal its candle was acted on with. -/
structure CycleResult where
  ending : CycleEnd
  /-- The tip was accepted by the orchestrator. -/
  accepted : Bool := false
  /-- `_LAST_SIGNAL`, evaluated before the candle is processed. -/
  lastSignal : Option StrategyDecision := none
  /-- The signal of `process_candle`. -/
  signal : Option StrategyDecision := none
  order : Option Order := none
  deriving DecidableEq, Repr

/-- The runtime and the cached orchestrators. -/
structure Service where
  runtime : Runtime
  orchestrators : Dict String Orchestrator := ∅
  deriving DecidableEq, Repr, Inhabited

/-- `_session_key`. -/
def sessionKey (symbol strategyId : String) : String := strategyId ++ ":" ++ symbol

namespace Service

/-- The ledger of the session. -/
def paper (svc : Service) : PaperState := svc.runtime.session.paper

/-- `get_or_create_orchestrator`. -/
def orchestratorOf (initialCash : ℚ) (svc : Service) (call : CycleCall) : Orchestrator :=
  (svc.orchestrators.get? (sessionKey call.symbol call.strategyId)).getD
    { sessionId := call.sessionId
      peakEquity := initialCash
      killSwitchEnabled := svc.runtime.session.killSwitchEnabled }

/-- Cache an orchestrator, and replace the ledger. -/
def store (svc : Service) (call : CycleCall) (o : Orchestrator) (paper : PaperState) : Service where
  runtime :=
    { svc.runtime with session := { svc.runtime.session with paper := paper } }
  orchestrators := svc.orchestrators.set (sessionKey call.symbol call.strategyId) o

end Service

variable (d : Deployment) (registry : Registry) (failClosed : Bool)

/-- The key of the cycle for a candle. -/
def CycleCall.key (call : CycleCall) (target : Candle) : CycleKey where
  symbol := call.symbol
  strategyVersion := (registry call.strategyId).version
  timeframe := call.timeframe
  openTime := target.openTime

/-- The candle is given to the strategy, and the cycle to the runtime: `o` is the
orchestrator after priming, in the service that has stored it. -/
def evaluateCandle (svc : Service) (call : CycleCall) (o : Orchestrator) (target : Candle) :
    CycleResult × Service :=
  let strategy := registry call.strategyId
  let cash := d.paper.initialCash
  let paper := svc.paper
  let last := o.evaluate strategy cash paper call.symbol (o.windowOf call.symbol ++ [target])
  let accepted := (last.2.rejectReason target call.around.now).isNone
  if accepted then
    let o := last.2.take target
    -- the close is a mark before the strategy sees it: resting orders may fill here
    let marked := Paper.setMarkPrice d.paper paper call.symbol target.close call.around.now
    let o := o.countBar marked call.symbol
    let signal := o.evaluate strategy cash marked call.symbol (o.windowOf call.symbol)
    let o := signal.2
    let input : CycleInput :=
      { key := call.key registry target
        close := target.close
        signal := some signal.1.signal
        seen := signal.1.fingerprint ∈ o.seenSignalFps
        tradingPaused := call.tradingPaused
        strategyName := some strategy.name
        clientOrderId := o.clientOrderId target signal.1.signal.direction
        peakEquity := o.peakEquity
        consecutiveLosses := o.consecutiveLosses
        journaledFillIds := o.journaledFillIds
        killSwitchEnabled := o.killSwitchEnabled
        invariantsHold := call.invariantsHold
        around := call.around }
    let outcome := Runtime.processCandle d svc.runtime.session input
    -- the fingerprint is remembered as soon as the signal is acted on, whatever the gate says
    let o :=
      if (Runtime.actingRequest marked input).isSome then
        { o with seenSignalFps := signal.1.fingerprint :: o.seenSignalFps }
      else o
    let o := o.afterOrder call.symbol outcome.order outcome.fills
      (outcome.session.paper.realizedPnl - marked.realizedPnl)
    let o := (o.portfolioState cash outcome.session.paper).2
    ({ ending := .complete
       accepted := true
       lastSignal := some last.1
       signal := some signal.1
       order := outcome.order },
      { runtime := Runtime.cycle d svc.runtime input
        orchestrators := svc.orchestrators.set (sessionKey call.symbol call.strategyId) o })
  else
    -- a rejected candle leaves behind only the peak equity that the first evaluation saw
    let input : CycleInput :=
      { key := call.key registry target
        close := target.close
        accepted := false
        signal := none
        clientOrderId := ""
        peakEquity := last.2.peakEquity
        invariantsHold := call.invariantsHold
        around := call.around }
    ({ ending := .complete, lastSignal := some last.1 },
      { runtime := Runtime.cycle d svc.runtime input
        orchestrators := svc.orchestrators.set (sessionKey call.symbol call.strategyId) last.2 })

/-- What the warm-up of a call leads to: all candles but the last are primed. -/
def Service.primed (svc : Service) (call : CycleCall) : Orchestrator.Primed :=
  (svc.orchestratorOf d.paper.initialCash call).primeCandles d.paper call.around.now svc.paper
    call.candles.dropLast

/-- The service after the warm-up of a call. -/
def Service.warmed (svc : Service) (call : CycleCall) : Service :=
  svc.store call (svc.primed d call).orchestrator (svc.primed d call).paper

/-- The reconciliation halts the call. -/
def CycleCall.Halted (call : CycleCall) : Prop :=
  d.enableReconciliation = true ∧ ¬call.around.reconciled = true

instance (call : CycleCall) : Decidable (call.Halted d) :=
  inferInstanceAs (Decidable (_ ∧ ¬_))

/-- `run_paper_trading_cycle`. -/
def runCycle (svc : Service) (call : CycleCall) : CycleResult × Service :=
  if call.Halted d then
    ({ ending := .reconciliationHalt },
      svc.store call (svc.orchestratorOf d.paper.initialCash call) svc.paper)
  else
    match call.candles.getLast? with
    | none =>
        ({ ending := .noCandles },
          svc.store call (svc.orchestratorOf d.paper.initialCash call) svc.paper)
    | some target =>
        let primed := svc.primed d call
        if call.key registry target ∈ svc.runtime.processed then
          -- the result of a replay carries a snapshot, which reads the portfolio
          let seen := (primed.orchestrator.portfolioState d.paper.initialCash primed.paper).2
          ({ ending := .idempotentReplay, accepted := true }, svc.store call seen primed.paper)
        else if call.lock = .held then ({ ending := .lockHeld }, svc.warmed d call)
        else if call.lock = .unavailable ∧ failClosed then
          ({ ending := .lockUnavailable }, svc.warmed d call)
        else evaluateCandle d registry (svc.warmed d call) call primed.orchestrator target

/-! ### How a call goes -/

/-- The ways a call can go. -/
inductive CycleCall.Goes (svc : Service) (call : CycleCall) : CycleResult × Service → Prop
  | halted (hhalt : call.Halted d) :
      Goes svc call ({ ending := .reconciliationHalt },
        svc.store call (svc.orchestratorOf d.paper.initialCash call) svc.paper)
  | noCandles (hopen : ¬call.Halted d) (hnone : call.candles = []) :
      Goes svc call ({ ending := .noCandles },
        svc.store call (svc.orchestratorOf d.paper.initialCash call) svc.paper)
  | replayed (target : Candle) (hopen : ¬call.Halted d)
      (hlast : call.candles.getLast? = some target)
      (hkey : call.key registry target ∈ svc.runtime.processed) :
      Goes svc call ({ ending := .idempotentReplay, accepted := true },
        svc.store call ((svc.primed d call).orchestrator.portfolioState d.paper.initialCash
          (svc.primed d call).paper).2 (svc.primed d call).paper)
  | locked (target : Candle) (ending : CycleEnd) (hopen : ¬call.Halted d)
      (hlast : call.candles.getLast? = some target)
      (hkey : call.key registry target ∉ svc.runtime.processed)
      (hending : ending = .lockHeld ∨ ending = .lockUnavailable) (hlock : call.lock ≠ .acquired) :
      Goes svc call ({ ending := ending }, svc.warmed d call)
  | evaluated (target : Candle) (hopen : ¬call.Halted d)
      (hlast : call.candles.getLast? = some target)
      (hkey : call.key registry target ∉ svc.runtime.processed) :
      Goes svc call
        (evaluateCandle d registry (svc.warmed d call) call (svc.primed d call).orchestrator target)

/-- **How a call goes**: it goes in one of these ways. -/
theorem runCycle_goes (svc : Service) (call : CycleCall) :
    call.Goes d registry svc (runCycle d registry failClosed svc call) := by
  unfold runCycle
  by_cases hhalt : call.Halted d
  · rw [if_pos hhalt]
    exact .halted hhalt
  rw [if_neg hhalt]
  cases hlast : call.candles.getLast? with
  | none => exact .noCandles hhalt (List.getLast?_eq_none_iff.mp hlast)
  | some target =>
    dsimp only
    split_ifs with hkey hheld hunavailable
    · exact .replayed target hhalt hlast hkey
    · exact .locked target _ hhalt hlast hkey (.inl rfl) (by rw [hheld]; decide)
    · exact .locked target _ hhalt hlast hkey (.inr rfl) (by rw [hunavailable.1]; decide)
    · exact .evaluated target hhalt hlast hkey

/-- An evaluated call is complete. -/
theorem evaluateCandle_ending (svc : Service) (call : CycleCall) (o : Orchestrator)
    (target : Candle) : (evaluateCandle d registry svc call o target).1.ending = .complete := by
  unfold evaluateCandle
  dsimp only
  split_ifs <;> rfl

/-- An evaluated call is a cycle of the runtime, under the key of the call. -/
theorem evaluateCandle_runtime (svc : Service) (call : CycleCall) (o : Orchestrator)
    (target : Candle) : ∃ input : CycleInput, input.key = call.key registry target ∧
      (evaluateCandle d registry svc call o target).2.runtime = Runtime.cycle d svc.runtime input := by
  unfold evaluateCandle
  dsimp only
  split_ifs <;> exact ⟨_, rfl, rfl⟩

/-- **When a call is skipped**: it is not halted, and its candle has been processed. -/
theorem runCycle_replay_iff (svc : Service) (call : CycleCall) :
    (runCycle d registry failClosed svc call).1.ending = .idempotentReplay ↔
      ¬call.Halted d ∧ ∃ target, call.candles.getLast? = some target ∧
        call.key registry target ∈ svc.runtime.processed := by
  constructor
  · intro hreplay
    have hgoes : call.Goes d registry svc (runCycle d registry failClosed svc call) :=
      runCycle_goes ..
    generalize runCycle d registry failClosed svc call = r at hreplay hgoes
    cases hgoes with
    | halted _ => cases hreplay
    | noCandles _ _ => cases hreplay
    | replayed target hopen hlast hkey => exact ⟨hopen, target, hlast, hkey⟩
    | locked target ending _ _ _ hending _ => rcases hending with rfl | rfl <;> cases hreplay
    | evaluated target _ _ _ =>
      rw [evaluateCandle_ending] at hreplay
      cases hreplay
  · rintro ⟨hopen, target, hlast, hkey⟩
    rw [runCycle, if_neg hopen, hlast]
    dsimp only
    rw [if_pos hkey]

end Atlas
