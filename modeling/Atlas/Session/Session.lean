import Atlas.Paper.Operation
import Atlas.Risk.Exposure

/-!
# The paper session

The session owns the paper engine and the risk engine.  For every order it reads the
ledger into a risk context, sends the order through the gateway, and keeps the count
of consecutive losses and the highest equity.

The clock, the time of the last market data, the health of the reconciliation, the
mark of the generated series and the draw of the engine come from outside
(`Surroundings`).  The session's own logs and its display data are left out.

## Main definitions

* `PaperState.equity` — available cash, reserved cash and the positions.
* `Session` — the state of the session.
* `portfolioState`, `riskContext` — what the risk engine is shown of the ledger.
* `gatewaySubmit` — evaluation, and submission of an order that is let through.
* `submit` — the way every order of the session takes.

## References

`app/services/paper_session.py`, `app/execution/gateway.py`.
-/

namespace Atlas

/-- `_equity`: available and reserved cash, and the positions at their prices. -/
def PaperState.equity (s : PaperState) : ℚ :=
  s.cash + s.reservedCash + s.positions.sum fun p => p.quantity * p.currentPrice

structure Session where
  paper : PaperState
  risk : RiskEngineState := {}
  killSwitchEnabled : Bool := false
  peakEquity : ℚ
  dailyStartEquity : ℚ
  consecutiveLosses : ℕ := 0
  deriving DecidableEq, Repr, Inhabited

/-- What the session reads from outside while it handles an order. -/
structure Surroundings where
  now : Time
  /-- `last_market_data_ts()`. -/
  lastMarketDataTs : Option Time := none
  /-- `is_reconciliation_healthy()`. -/
  reconciled : Bool := true
  /-- The last close of the generated series, the mark of a symbol without one. -/
  seriesMark : ℚ
  /-- The draw of the paper engine. -/
  roll : ℚ := 1
  deriving DecidableEq, Repr, Inhabited

/-- The arguments of `_submit`. -/
structure OrderArgs where
  symbol : String
  side : OrderSide
  orderType : OrderType
  quantity : ℚ
  price : Option ℚ := none
  stopLoss : Option ℚ := none
  takeProfit : Option ℚ := none
  strategyName : Option String := none
  signalId : Option String := none
  reduceOnly : Bool := false
  deriving DecidableEq, Repr, Inhabited

/-- The request `_submit` builds, with the key it draws. -/
def OrderArgs.request (args : OrderArgs) (idempotencyKey : String) : OrderRequest where
  symbol := args.symbol
  side := args.side
  orderType := args.orderType
  quantity := args.quantity
  price := args.price
  stopLoss := args.stopLoss
  takeProfit := args.takeProfit
  strategyName := args.strategyName
  signalId := args.signalId
  idempotencyKey := idempotencyKey
  reduceOnly := args.reduceOnly

namespace Session

variable (settings : RiskSettings) (cfg : PaperConfig)

/-- A new session. -/
def fresh : Session where
  paper := Paper.fresh cfg ∅
  killSwitchEnabled := settings.killSwitchEnabled
  peakEquity := cfg.initialCash
  dailyStartEquity := cfg.initialCash

/-- The drawdown from the highest equity. -/
def drawdown (peak equity : ℚ) : ℚ := if 0 < peak then (peak - equity) / peak else 0

/-- The highest equity is brought up to date. -/
def raisePeak (s : Session) : Session :=
  { s with peakEquity := max s.peakEquity s.paper.equity }

/-- `_portfolio_state`. -/
def portfolioState (s : Session) : PortfolioState × Session :=
  let equity := s.paper.equity
  let s := s.raisePeak
  ({ cashBalance := s.paper.cash
     equity := equity
     realizedPnl := s.paper.realizedPnl
     unrealizedPnl := s.paper.positions.sum Position.unrealizedPnl
     dailyPnl := equity - s.dailyStartEquity
     peakEquity := s.peakEquity
     drawdown := drawdown s.peakEquity equity
     openPositions := s.paper.positions.values
     consecutiveLosses := s.consecutiveLosses }, s)

/-- `_mark`: the mark of the symbol; a symbol without one is given that of the
generated series. -/
def mark (s : Session) (symbol : String) (around : Surroundings) : ℚ × Session :=
  match s.paper.markPrices.get? symbol with
  | some mark => (mark, s)
  | none =>
      (around.seriesMark,
        { s with paper := Paper.setMarkPrice cfg s.paper symbol around.seriesMark around.now })

/-- `_risk_context`: the portfolio is read before the mark. -/
def riskContext (s : Session) (symbol : String) (around : Surroundings) :
    RiskContext × Session :=
  let mdTs := around.lastMarketDataTs.getD around.now
  let s :=
    { s with
      risk := { s.risk with
        lastMarketDataTs := some mdTs
        reconciliationHealthy := around.reconciled } }
  let portfolio := portfolioState s
  let mark := mark cfg portfolio.2 symbol around
  ({ portfolio := portfolio.1
     markPrice := some mark.1
     marketDataTs := some mdTs
     tradingMode := settings.tradingMode
     liveTradingEnabled := settings.liveTradingEnabled
     killSwitchEnabled := s.killSwitchEnabled
     hasExchangeCredentials := settings.hasExchangeCredentials }, mark.2)

/-- The request the gateway sends on: a reduced one has the approved quantity. -/
def approvedRequest (request : OrderRequest) (evaluation : RiskEvaluation) : OrderRequest :=
  match evaluation.decision, evaluation.approvedQuantity with
  | .reduced, some quantity => { request with quantity := quantity }
  | _, _ => request

/-- The risk outcome the gateway puts on the order it returns. -/
def tagged (order : Order) (evaluation : RiskEvaluation) : Order :=
  { order with
    riskDecision := some evaluation.decision
    riskReasonCode := some evaluation.reasonCode
    status := if order.status = .created then .approved else order.status }

/-- `OrderGateway.submit`: no order when the evaluation blocks it. -/
def gatewaySubmit (s : Session) (request : OrderRequest) (context : RiskContext)
    (around : Surroundings) : RiskEvaluation × Option Order × Session :=
  let r := Risk.evaluate settings s.risk request context around.now
  let s := { s with risk := r.2 }
  if r.1.decision = .rejected ∨ r.1.decision = .halted then (r.1, none, s)
  else
    let submitted := Paper.submit cfg s.paper (approvedRequest request r.1) r.1 around.roll around.now
    (r.1, submitted.1.map (tagged · r.1), { s with paper := submitted.2 })

/-- The count of consecutive losses after a SELL that realized `delta`. -/
def lossesAfter (losses : ℕ) (delta : ℚ) : ℕ :=
  if delta < 0 then losses + 1 else if 0 < delta then 0 else losses

/-- A SELL that filled counts as a win or a loss. -/
def countSale (s : Session) (order : Option Order) (realizedBefore : ℚ) : Session :=
  if order.any fun o =>
      o.side = .sell ∧ (o.status = .filled ∨ o.status = .partiallyFilled) then
    { s with
      consecutiveLosses := lossesAfter s.consecutiveLosses (s.paper.realizedPnl - realizedBefore) }
  else s

/-- `_submit`. -/
def submit (s : Session) (args : OrderArgs) (key : String) (around : Surroundings) :
    RiskEvaluation × Option Order × Session :=
  let context := riskContext settings cfg s args.symbol around
  let r := gatewaySubmit settings cfg context.2 (args.request key) context.1 around
  (r.1, r.2.1, (countSale r.2.2 r.2.1 context.2.paper.realizedPnl).raisePeak)

end Session

end Atlas
