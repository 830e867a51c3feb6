import Atlas.Lib.Commits
import Atlas.Session.Database
import Atlas.Session.Reconcile

/-!
# The paper runtime: manual orders and cycles

A runtime is a session, the keys of the cycles it has processed, and its database.  A
manual order or the closing of a position ends with one commit, the checkpoint.  A
cycle marks the symbol at the closes of its candles, lets the strategy's signal send an
order, and makes its commits one after another: the risk decision, the order and the
fills in the journal, the signal and the run, the keys of the cycles, the checkpoint,
and the verdict of the reconciliation.

The journal writes are guarded: a write that a constraint refuses is dropped, and the
session of the journal takes no more of this cycle.  Rows that nothing reads back are
the commit `log`.

The strategy, the candles, the state that belongs to the orchestrator alone and the
check of the accounting invariants come from outside (`CycleInput`).  A cycle is taken
from where it holds its lock; one that returns before it evaluates its candle has only
marked the symbol (`RuntimeAction.prime`).

## Main definitions

* `Deployment`, `Runtime` — what is fixed, and what changes.
* `CycleInput`, `processCandle` — one candle, up to the order.
* `Commit`, `cycleCommits` — the durable commits of a cycle, in their order.
* `placeOrder`, `closePosition` — the manual orders.
* `Runtime.step` — the steps of the runtime.

## References

`app/services/paper_cycle.py`, `app/services/trading_orchestrator.py`,
`app/services/paper_session.py`, `app/journal/store.py`.
-/

namespace Atlas

open Quantize Session

/-! ### The cycle -/

inductive SignalDirection
  | buy
  | sell
  | exit
  | hold
  deriving DecidableEq, Repr, Inhabited

structure TradeSignal where
  direction : SignalDirection
  suggestedStop : Option ℚ := none
  suggestedTarget : Option ℚ := none
  deriving DecidableEq, Repr, Inhabited

/-- What is fixed for a runtime, with what a numeric column of its database gives back. -/
structure Deployment where
  settings : RiskSettings
  paper : PaperConfig
  enableReconciliation : Bool := true
  column : ℚ → ℚ

/-- What a cycle reads from outside. -/
structure CycleInput where
  key : CycleKey
  /-- The closes of the earlier candles that are new to the window. -/
  primed : List ℚ := []
  /-- The close of the candle. -/
  close : ℚ
  /-- `_reject_reason` has nothing against the candle. -/
  accepted : Bool := true
  /-- What the strategy answers; nothing if it raises. -/
  signal : Option TradeSignal
  /-- The fingerprint of the signal has been acted on. -/
  seen : Bool := false
  tradingPaused : Bool := false
  strategyName : Option String := none
  clientOrderId : String
  entrySizeFraction : ℚ := 1 / 10
  /-- The orchestrator's highest equity, losses and fills. -/
  peakEquity : ℚ
  consecutiveLosses : ℕ := 0
  journaledFillIds : List Ident := []
  killSwitchEnabled : Bool := false
  /-- The accounting invariants hold after the cycle. -/
  invariantsHold : Bool := true
  around : Surroundings
  deriving DecidableEq, Repr, Inhabited

/-- The symbol of a cycle. -/
def CycleInput.symbol (input : CycleInput) : String := input.key.symbol

namespace Runtime

/-- `_entry_quantity`. -/
def entryQuantity (paper : PaperState) (fraction price : ℚ) : ℚ :=
  if price ≤ 0 then 0 else quantize8 (paper.cash * fraction / price)

/-- The market order of a cycle: its key is also its client order id. -/
def marketRequest (input : CycleInput) (side : OrderSide) (quantity : ℚ) (stopLoss takeProfit : Option ℚ)
    (reduceOnly : Bool) : OrderRequest where
  symbol := input.symbol
  side := side
  orderType := .market
  quantity := quantity
  stopLoss := stopLoss
  takeProfit := takeProfit
  strategyName := input.strategyName
  idempotencyKey := input.clientOrderId
  clientOrderId := some input.clientOrderId
  reduceOnly := reduceOnly

/-- The order a signal asks for: an entry without a position, an exit with one. -/
def signalRequest (paper : PaperState) (input : CycleInput) (signal : TradeSignal) :
    Option OrderRequest :=
  let exit (p : Position) :=
    marketRequest input .sell p.quantity
      (some (quantize (1 / 100) (input.close * (999 / 1000)))) none true
  match signal.direction, paper.positions.get? input.symbol with
  | .buy, none =>
      some (marketRequest input .buy (entryQuantity paper input.entrySizeFraction input.close)
        signal.suggestedStop signal.suggestedTarget false)
  | .sell, some p => some (exit p)
  | .exit, some p => some (exit p)
  | _, _ => none

/-- The order `_act_on_signal` sends. -/
def actingRequest (paper : PaperState) (input : CycleInput) : Option OrderRequest :=
  if input.accepted ∧ ¬input.seen ∧ ¬input.tradingPaused then
    (input.signal.bind (signalRequest paper input)).filter fun r => 0 < r.quantity
  else none

variable (d : Deployment)

/-- The orchestrator's `_risk_context`. -/
def cycleContext (paper : PaperState) (input : CycleInput) : RiskContext :=
  let equity := paper.equity
  let peak := max input.peakEquity equity
  { portfolio :=
      { cashBalance := paper.cash
        equity := equity
        realizedPnl := paper.realizedPnl
        unrealizedPnl := paper.positions.sum Position.unrealizedPnl
        dailyPnl := equity - d.paper.initialCash
        peakEquity := peak
        drawdown := drawdown peak equity
        openPositions := paper.positions.values
        consecutiveLosses := input.consecutiveLosses }
    markPrice := some input.close
    marketDataTs := some input.around.now
    tradingMode := d.settings.tradingMode
    liveTradingEnabled := d.settings.liveTradingEnabled
    killSwitchEnabled := input.killSwitchEnabled
    hasExchangeCredentials := d.settings.hasExchangeCredentials }

/-- `_rejected_order`: an order of the journal only, under its key. -/
def rejectedOrder (request : OrderRequest) (evaluation : RiskEvaluation) (now : Time) : Order where
  id := .text request.idempotencyKey
  clientOrderId := .text (request.clientOrderId.getD request.idempotencyKey)
  idempotencyKey := request.idempotencyKey
  symbol := request.symbol
  side := request.side
  orderType := request.orderType
  quantity := request.quantity
  price := request.price
  status := .rejected
  strategyName := request.strategyName
  riskDecision := some evaluation.decision
  riskReasonCode := some evaluation.reasonCode
  createdAt := now
  updatedAt := now

/-- The session marked at a close. -/
def marked (s : Session) (input : CycleInput) (close : ℚ) : Session :=
  { s with paper := Paper.setMarkPrice d.paper s.paper input.symbol close input.around.now }

/-- `prime_candles`. -/
def primed (s : Session) (input : CycleInput) : Session :=
  input.primed.foldl (fun s close => marked d s input close) s

/-- The session in which the strategy is asked. -/
def opened (s : Session) (input : CycleInput) : Session :=
  if input.accepted then marked d (primed d s input) input input.close else primed d s input

/-- What a candle has led to: the order for the journal, with its new fills. -/
structure Outcome where
  session : Session
  order : Option Order := none
  fills : List Fill := []
  deriving DecidableEq, Repr

/-- The fills `_journal_new_fills` writes. -/
def newFills (paper : PaperState) (input : CycleInput) (order : Order) : List Fill :=
  paper.fills.filter fun f => f.orderId = order.id ∧ f.id ∉ input.journaledFillIds

/-- The order of a cycle, through the gateway. -/
def sendOrder (s : Session) (input : CycleInput) (request : OrderRequest) : Outcome :=
  let r := gatewaySubmit d.settings d.paper s request (cycleContext d s.paper input) input.around
  if r.1.decision = .rejected ∨ r.1.decision = .halted then
    { session := r.2.2, order := some (rejectedOrder request r.1 input.around.now) }
  else
    { session := r.2.2
      order := r.2.1
      fills := r.2.1.elim [] (newFills r.2.2.paper input) }

/-- `process_candle`, with the candles before it. -/
def processCandle (s : Session) (input : CycleInput) : Outcome :=
  let s := opened d s input
  (actingRequest s.paper input).elim { session := s } (sendOrder d s input)

end Runtime

/-! ### Commits -/

/-- A durable commit of a cycle. -/
inductive Commit
  /-- Rows that nothing reads back. -/
  | log
  | order (o : Order)
  | fill (f : Fill)
  | cycleKeys (keys : List CycleKey)
  | checkpoint (s : Session)
  | reconciliationHalt (halted : Bool)
  deriving DecidableEq, Repr

/-- The database after a commit. -/
def Database.commit (column : ℚ → ℚ) (db : Database) : Commit → Database
  | .log => db
  | .order o => db.recordOrder column o
  | .fill f => db.recordFill column f
  | .cycleKeys keys => { db with cycleKeys := keys }
  | .checkpoint s => s.persist column db
  | .reconciliationHalt halted => { db with reconciliationHalt := some halted }

/-- The constraints of the tables allow the commit. -/
def Database.accepts (db : Database) : Commit → Bool
  | .order o => db.acceptsOrder o
  | .fill f => db.acceptsFill f
  | _ => true

/-- A session, the keys of the processed cycles, and the database. -/
structure Runtime where
  session : Session
  processed : List CycleKey := []
  db : Database := {}
  deriving DecidableEq, Repr, Inhabited

namespace Runtime

variable (d : Deployment)

/-- The commits of a candle to the journal, where none is refused: the risk decision,
the order and its fills, the signal, and the run. -/
def journalEntries (outcome : Outcome) : List Commit :=
  (outcome.order.elim [] fun o => .log :: .order o :: outcome.fills.map .fill) ++ [.log, .log]

/-- The commits of a cycle to the journal. -/
def journalCommits (r : Runtime) (input : CycleInput) : List Commit :=
  Commits.written Database.accepts (Database.commit d.column) r.db
    (journalEntries (processCandle d r.session input))

/-- `_fail_closed_persistence`. -/
def failClosed (s : Session) : Session :=
  { s with risk := { s.risk with databaseHealthy := false, reconciliationHealthy := false } }

/-- The session a cycle persists. -/
def cycleSession (r : Runtime) (input : CycleInput) : Session :=
  let s := (processCandle d r.session input).session
  if input.invariantsHold then s else failClosed s

/-- The verdict of the reconciliation. -/
abbrev Healthy (paper : PaperState) : Prop :=
  Reconciliation.Healthy d.enableReconciliation d.paper.initialCash paper

/-- What the reconciliation after a cycle commits. -/
def verdictCommits (paper : PaperState) : List Commit :=
  if d.enableReconciliation then [.log, .reconciliationHalt (decide ¬Healthy d paper), .log] else []

/-- The commits after those to the journal: the keys, the run, the checkpoint, the
audit event, and the verdict. -/
def closingCommits (r : Runtime) (input : CycleInput) : List Commit :=
  [.cycleKeys (input.key :: r.processed), .log, .checkpoint (cycleSession d r input), .log] ++
    verdictCommits d (cycleSession d r input).paper

/-- **The durable commits of a cycle**, in their order. -/
def cycleCommits (r : Runtime) (input : CycleInput) : List Commit :=
  journalCommits d r input ++ closingCommits d r input

/-- The session after the reconciliation. -/
def reconciledSession (s : Session) : Session :=
  if d.enableReconciliation then
    { s with risk := { s.risk with reconciliationHealthy := decide (Healthy d s.paper) } }
  else s

/-- `run_paper_trading_cycle`, for a candle that is not processed. -/
def cycle (r : Runtime) (input : CycleInput) : Runtime where
  session := reconciledSession d (cycleSession d r input)
  processed := input.key :: r.processed
  db := (cycleCommits d r input).foldl (Database.commit d.column) r.db

/-! ### Manual orders -/

/-- `place_order`, up to the checkpoint. -/
def placeOrder (s : Session) (args : OrderArgs) (key : String) (around : Surroundings) : Session :=
  (submit d.settings d.paper (mark d.paper s args.symbol around).2 args key around).2.2

/-- The reduce-only SELL of `_close_symbol`. -/
def closeArgs (symbol : String) (quantity mark : ℚ) : OrderArgs where
  symbol := symbol
  side := .sell
  orderType := .market
  quantity := quantity
  stopLoss := some (quantize (1 / 100) (mark * (999 / 1000)))
  strategyName := some "manual"
  reduceOnly := true

/-- `_close_symbol`: passes are made while the position shrinks. -/
def closeSymbol (symbol : String) : List (String × Surroundings) → Session → Session
  | [], s => s
  | (key, around) :: passes, s =>
      let quantity := (s.paper.positions.get? symbol).elim 0 Position.quantity
      let m := mark d.paper s symbol around
      if quantity ≤ 0 then m.2
      else
        let s := (submit d.settings d.paper m.2 (closeArgs symbol quantity m.1) key around).2.2
        if (s.paper.positions.get? symbol).any fun p => quantity ≤ p.quantity then s
        else closeSymbol symbol passes s

/-- The runtime with its session in the checkpoint. -/
def persisted (r : Runtime) (s : Session) : Runtime :=
  { r with session := s, db := s.persist d.column r.db }

/-! ### Steps -/

/-- What can happen to a runtime.  A closing makes at most four passes. -/
inductive RuntimeAction
  | placeOrder (args : OrderArgs) (key : String) (around : Surroundings)
  | closePosition (symbol : String) (passes : List (String × Surroundings))
  | prime (input : CycleInput)
  | cycle (input : CycleInput)
  deriving DecidableEq, Repr

/-- A new runtime with an empty database. -/
def initial : Runtime where
  session := fresh d.settings d.paper

/-- A step of the runtime.  A processed candle has no second cycle, and under a
reconciliation halt there is none. -/
def step (r : Runtime) : RuntimeAction → Option Runtime
  | .placeOrder args key around => some (persisted d r (placeOrder d r.session args key around))
  | .closePosition symbol passes =>
      some (persisted d r (closeSymbol d symbol (passes.take 4) r.session))
  | .prime input => some { r with session := primed d r.session input }
  | .cycle input =>
      if input.key ∈ r.processed ∨ (d.enableReconciliation ∧ ¬input.around.reconciled) then none
      else some (cycle d r input)

/-- The runtimes that are reached from a new one. -/
abbrev Reached : Runtime → Prop :=
  Transition.Reachable (step d) (fun _ _ => True) (initial d)

end Runtime

end Atlas
