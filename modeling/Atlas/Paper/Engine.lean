import Atlas.Trading

/-!
# The paper trading engine

Simulated execution with fees, slippage, reservations and partial fills, in the
source's order of effects.  The state is passed explicitly; `config.mark_prices`,
the one part of the configuration that changes, is part of it.  The clock is
read once for each operation (`now`), and the draw of the engine's random
generator is an argument (`roll`).

`submit` suspends once, at the simulated latency, between the lookup of the
idempotency key and the rest; the rest is `submitAfterLatency`.

## Main definitions

* `PaperConfig`, `PaperState` — configuration and ledger.
* `reserveBuy`, `releaseBuyReservation` — the reservation of a BUY order.
* `applyFill` — one fill on the ledger.
* `prepare`, `executeFill`, `submit` — submission.
* `tryTriggerResting`, `setMarkPrice` — mark updates and resting orders.
* `cancel`, `expire` — the two ways to end an open order.

## References

`app/execution/paper/engine.py`.
-/

namespace Atlas

/-- The configuration, without the mark prices. -/
structure PaperConfig where
  initialCash : ℚ := 10000
  feeRate : ℚ := 1 / 1000
  makerFeeRate : Option ℚ := none
  takerFeeRate : Option ℚ := none
  slippageRate : ℚ := 5 / 10000
  spreadRate : ℚ := 2 / 10000
  partialFillFraction : ℚ := 1
  latencyMs : ℕ := 0
  rejectProbability : ℚ := 0
  deriving DecidableEq, Repr, Inhabited

/-- The paper ledger: `cash` is the available buying power, `reservedCash` the
capital locked for open BUY orders.  `nextUuid` numbers the draws of `uuid4`. -/
structure PaperState where
  cash : ℚ
  reservedCash : ℚ := 0
  positions : Dict String Position := ∅
  orders : Dict Ident Order := ∅
  fills : List Fill := []
  idempotencyIndex : Dict String Ident := ∅
  realizedPnl : ℚ := 0
  markPrices : Dict String ℚ := ∅
  nextUuid : ℕ := 0
  deriving DecidableEq, Repr, Inhabited

/-- What is left of a reservation: `meta.get("reserved_remaining",
meta.get("reserved_notional", "0"))`. -/
def Metadata.remaining (m : Metadata) : ℚ := m.reservedRemaining.getD (m.reservedNotional.getD 0)

/-- The metadata after `release` of a reservation with `remaining` left. -/
def Metadata.afterRelease (m : Metadata) (remaining release : ℚ) : Metadata :=
  if remaining - release ≤ 0 then
    { m with reservedRemaining := some 0, reservationOpen := some false }
  else { m with reservedRemaining := some (remaining - release) }

namespace Paper

variable (cfg : PaperConfig)

/-- The state of a new engine, with the mark prices it is configured with. -/
def fresh (marks : Dict String ℚ) : PaperState :=
  { cash := cfg.initialCash, markPrices := marks }

/-! ### Prices and fees -/

/-- `_fee_rate`. -/
def feeRateFor (isMaker : Bool) : ℚ :=
  if isMaker then cfg.makerFeeRate.getD cfg.feeRate else cfg.takerFeeRate.getD cfg.feeRate

/-- `_reserve_price`: the reference price that locks BUY notional. -/
def reservePrice (request : OrderRequest) (mark : Option ℚ) : Option ℚ :=
  match request.orderType with
  | .limit => request.price.orElse fun _ => mark
  | .stopLoss | .takeProfit =>
      pyOr (pyOr (pyOr request.price request.stopLoss) request.takeProfit) mark
  | .market => mark

/-- `_fill_price`. -/
def fillPrice (mark : ℚ) (orderType : OrderType) (side : OrderSide) (price : Option ℚ) : ℚ :=
  let halfSpread := mark * cfg.spreadRate / 2
  let slip := mark * cfg.slippageRate
  match orderType, price with
  | .limit, some p => p
  | _, _ =>
      match side with
      | .buy => mark + halfSpread + slip
      | .sell => mark - halfSpread - slip

/-- The fee of a fill. -/
def fillFee (qty price : ℚ) (isMaker : Bool) : ℚ := quantize8 (price * qty * feeRateFor cfg isMaker)

/-! ### Orders and their reservations -/

/-- `_update`: set the status and the risk outcome of an order and store it. -/
def update (s : PaperState) (order : Order) (status : OrderStatus) (risk : RiskEvaluation)
    (error : Option String) (now : Time) : Order × PaperState :=
  let updated :=
    { order with
      status := status
      riskDecision := some risk.decision
      riskReasonCode := some risk.reasonCode
      updatedAt := now
      metadata := order.metadata.withError error }
  (updated, { s with orders := s.orders.set updated.id updated })

/-- `_reserve_buy`: move `qty * price` from available cash to reserved cash, once.
The flag is false when the cash does not cover it. -/
def reserveBuy (s : PaperState) (order : Order) (qty price : ℚ) (risk : RiskEvaluation)
    (now : Time) : (Order × Bool) × PaperState :=
  let amount := quantize8 (qty * price)
  -- the notional is locked once; the fee is not part of it
  if order.metadata.reservationOpen = some true then ((order, true), s)
  else if amount ≤ 0 then ((order, true), s)
  else if s.cash < amount then
    let failed := update s order .failed risk (some "insufficient_for_reserve") now
    ((failed.1, false), failed.2)
  else
    let updated :=
      { order with
        metadata :=
          { order.metadata with
            reservedNotional := some amount
            reservedRemaining := some amount
            reservationOpen := some true }
        updatedAt := now }
    ((updated, true),
      { s with
        cash := s.cash - amount
        reservedCash := s.reservedCash + amount
        orders := s.orders.set updated.id updated })

/-- `_release_buy_reservation`: return reserved capital to available cash; an
absent amount releases all that remains.  A closed reservation is left alone. -/
def releaseBuyReservation (s : PaperState) (order : Order) (amount : Option ℚ) (now : Time) :
    Order × PaperState :=
  if order.metadata.reservationOpen ≠ some true then (order, s)
  else
    let remaining := order.metadata.remaining
    if remaining ≤ 0 then
      let updated :=
        { order with
          metadata :=
            { order.metadata with reservationOpen := some false, reservedRemaining := some 0 }
          updatedAt := now }
      (updated, { s with orders := s.orders.set updated.id updated })
    else
      let wanted := amount.elim remaining fun a => min a remaining
      -- no more is released than is reserved in all
      let release := if s.reservedCash < wanted then s.reservedCash else wanted
      let updated :=
        { order with
          metadata := order.metadata.afterRelease remaining release
          updatedAt := now }
      (updated,
        { s with
          reservedCash := s.reservedCash - release
          cash := s.cash + release
          orders := s.orders.set updated.id updated })

/-! ### Fills -/

/-- The part of a BUY fill that precedes the debit: release the share of the
reservation that belongs to `qty`. -/
def releaseForFill (s : PaperState) (order : Order) (qty : ℚ) (now : Time) : Order × PaperState :=
  let totalReserved := order.metadata.reservedNotional.getD 0
  if 0 < totalReserved ∧ order.metadata.reservationOpen = some true ∧ 0 < order.quantity then
    releaseBuyReservation s order (some (quantize8 (totalReserved * qty / order.quantity))) now
  else (order, s)

/-- The position after a bought fill. -/
def boughtPosition (existing : Option Position) (order : Order) (qty price : ℚ) (now : Time) :
    Position :=
  match existing with
  | some p =>
      let newQty := p.quantity + qty
      let newEntry := (p.entryPrice * p.quantity + price * qty) / newQty
      { p with
        quantity := newQty
        entryPrice := newEntry
        currentPrice := price
        unrealizedPnl := (price - newEntry) * newQty }
  | none =>
      { symbol := order.symbol
        quantity := qty
        entryPrice := price
        currentPrice := price
        unrealizedPnl := 0
        openedAt := now
        strategyName := order.strategyName }

/-- The profit a sold fill realizes. -/
def realizedBy (p : Position) (qty price fee : ℚ) : ℚ := (price - p.entryPrice) * qty - fee

/-- The positions after a sold fill of the position `p`. -/
def soldPositions (positions : Dict String Position) (symbol : String) (p : Position)
    (qty price fee : ℚ) : Dict String Position :=
  let remaining := p.quantity - qty
  if remaining = 0 then positions.erase symbol
  else
    -- the entry price of what is left stays
    positions.set symbol
      { p with
        quantity := remaining
        currentPrice := price
        unrealizedPnl := (price - p.entryPrice) * remaining
        realizedPnl := p.realizedPnl + realizedBy p qty price fee }

/-- The order after a fill; the caller stores it. -/
def filledOrder (order : Order) (qty price fee : ℚ) (now : Time) : Order :=
  let filled := order.filledQuantity + qty
  { order with
    filledQuantity := filled
    averageFillPrice :=
      some (match order.averageFillPrice with
        | none => price
        | some a => (a * order.filledQuantity + price * qty) / filled)
    fees := order.fees + fee
    updatedAt := now }

/-- `_apply_fill`: record the fill, then move cash and position.  The fill is
recorded before the cash or the position is checked, so a failed fill stays in
the list. -/
def applyFill (s : PaperState) (order : Order) (qty price : ℚ) (risk : RiskEvaluation)
    (isMaker : Bool) (now : Time) : Order × PaperState :=
  let fee := fillFee cfg qty price isMaker
  let fill : Fill :=
    { id := .uuid4 s.nextUuid
      orderId := order.id
      symbol := order.symbol
      side := order.side
      quantity := qty
      price := price
      fee := fee
      timestamp := now }
  let s := { s with fills := s.fills ++ [fill], nextUuid := s.nextUuid + 1 }
  match order.side with
  | .buy =>
      -- the share is freed first, so that the debit can use it
      let r := releaseForFill s order qty now
      let cost := price * qty + fee
      if r.2.cash < cost then
        let r := releaseBuyReservation r.2 r.1 none now
        update r.2 r.1 .failed risk (some "insufficient") now
      else
        (filledOrder r.1 qty price fee now,
          { r.2 with
            cash := r.2.cash - cost
            positions := r.2.positions.set r.1.symbol
              (boughtPosition (r.2.positions.get? r.1.symbol) r.1 qty price now) })
  | .sell =>
      match s.positions.get? order.symbol with
      | none => update s order .failed risk (some "no position") now
      | some p =>
          if p.quantity < qty then update s order .failed risk (some "no position") now
          else
            (filledOrder order qty price fee now,
              { s with
                cash := s.cash + (price * qty - fee)
                realizedPnl := s.realizedPnl + realizedBy p qty price fee
                positions := soldPositions s.positions order.symbol p qty price fee })

/-- The end of a fill of `fillQty` out of `total`: a failed fill is left as it
is, a partial one marks the order, a complete one releases the rest of the
reservation and closes the order. -/
def settleFill (s : PaperState) (order : Order) (fillQty total price : ℚ) (risk : RiskEvaluation)
    (isMaker : Bool) (now : Time) : Order × PaperState :=
  let r := applyFill cfg s order fillQty price risk isMaker now
  if r.1.status = .failed then r
  else if fillQty < total then update r.2 r.1 .partiallyFilled risk none now
  else
    let r := releaseBuyReservation r.2 r.1 none now
    update r.2 r.1 .filled risk none now

/-! ### Submission -/

/-- The quantity an immediate execution fills. -/
def immediateQty (request : OrderRequest) : ℚ :=
  quantizeDown8 (request.quantity * cfg.partialFillFraction)

/-- `_execute_fill`. -/
def executeFill (s : PaperState) (order : Order) (request : OrderRequest) (risk : RiskEvaluation)
    (mark : ℚ) (now : Time) : Order × PaperState :=
  let fillQty := immediateQty cfg request
  if fillQty ≤ 0 then update s order .failed risk none now
  else
    settleFill cfg s order fillQty request.quantity
      (fillPrice cfg mark request.orderType request.side request.price) risk
      (request.orderType = .limit) now

/-- What `submit` has decided when it reaches the immediate execution. -/
inductive Prepared
  /-- The submission ends here: rejected, failed or resting. -/
  | done (order : Order) (s : PaperState)
  /-- The order goes to immediate execution at `mark`. -/
  | execute (order : Order) (s : PaperState) (mark : ℚ)
  deriving DecidableEq, Repr

/-- The order `submit` creates. -/
def newOrder (s : PaperState) (request : OrderRequest) (now : Time) : Order :=
  { id := .uuid4 s.nextUuid
    clientOrderId :=
      match request.clientOrderId with
      | some c => if c = "" then .uuid4Prefix "paper-" 12 s.nextUuid else .text c
      | none => .uuid4Prefix "paper-" 12 s.nextUuid
    idempotencyKey := request.idempotencyKey
    symbol := request.symbol
    side := request.side
    orderType := request.orderType
    quantity := request.quantity
    price := request.price
    status := .riskPending
    strategyName := request.strategyName
    signalId := request.signalId
    createdAt := now
    updatedAt := now
    metadata := request.metadata }

/-- `risk.approved_quantity or request.quantity`. -/
def reserveQty (request : OrderRequest) (risk : RiskEvaluation) : ℚ :=
  match risk.approvedQuantity with
  | some q => if q = 0 then request.quantity else q
  | none => request.quantity

/-- Reserve for a BUY request where a reference price is known. -/
def reserveFor (s : PaperState) (order : Order) (request : OrderRequest) (risk : RiskEvaluation)
    (mark : Option ℚ) (now : Time) : (Order × Bool) × PaperState :=
  match request.side, reservePrice request mark with
  | .buy, some px => reserveBuy s order (reserveQty request risk) px risk now
  | _, _ => ((order, true), s)

/-- Release the reservation and reject, for an order without a trigger. -/
def rejectUntriggered (s : PaperState) (order : Order) (risk : RiskEvaluation) (error : String)
    (now : Time) : Prepared :=
  let r := releaseBuyReservation s order none now
  let r := update r.2 r.1 .rejected risk (some error) now
  .done r.1 r.2

/-- The tests that leave an order resting at `mark`, one order type at a time. -/
def marketable (s : PaperState) (order : Order) (request : OrderRequest) (risk : RiskEvaluation)
    (mark : ℚ) (now : Time) : Prepared :=
  match request.orderType with
  | .market => .execute order s mark
  | .limit =>
      match request.price with
      | none => .execute order s mark
      | some price =>
          if request.side = .buy ∧ price < mark then .done order s
          else if request.side = .sell ∧ mark < price then .done order s
          else .execute order s mark
  | .stopLoss =>
      -- the price of the request is the trigger, if it has one
      match pyOr request.price request.stopLoss with
      | none => rejectUntriggered s order risk "no_stop_trigger" now
      | some trigger =>
          if request.side = .sell ∧ trigger < mark then .done order s
          else if request.side = .buy ∧ mark < trigger then .done order s
          else .execute order s mark
  | .takeProfit =>
      match pyOr request.price request.takeProfit with
      | none => rejectUntriggered s order risk "no_tp_trigger" now
      | some trigger =>
          if request.side = .sell ∧ mark < trigger then .done order s
          else if request.side = .buy ∧ trigger < mark then .done order s
          else .execute order s mark

/-- The part of `submit` between the approval and the immediate execution: find
the mark, lock the BUY notional, and test whether the order rests. -/
def placeOrder (s : PaperState) (order : Order) (request : OrderRequest) (risk : RiskEvaluation)
    (now : Time) : Prepared :=
  let mark := s.markPrices.get? request.symbol
  let mark := if mark.isNone ∧ request.orderType = .limit then request.price else mark
  let reserved := reserveFor s order request risk mark now
  match mark with
  | none =>
      if request.orderType = .stopLoss ∨ request.orderType = .takeProfit then
        .done reserved.1.1 reserved.2
      else
        let failed := update s order .failed risk (some "no mark") now
        .done failed.1 failed.2
  | some mark =>
      if reserved.1.2 then marketable reserved.2 reserved.1.1 request risk mark now
      else .done reserved.1.1 reserved.2

/-- The part of `submit` before the immediate execution, for a request whose key
is new: create the order, record the risk outcome, then place it. -/
def prepare (s : PaperState) (request : OrderRequest) (risk : RiskEvaluation) (roll : ℚ)
    (now : Time) : Prepared :=
  let order := newOrder s request now
  let s :=
    { s with
      orders := s.orders.set order.id order
      idempotencyIndex := s.idempotencyIndex.set request.idempotencyKey order.id
      nextUuid := s.nextUuid + 1 }
  if risk.decision = .rejected ∨ risk.decision = .halted then
    let r := update s order .rejected risk none now
    .done r.1 r.2
  else
    let r := update s order .approved risk none now
    let r := update r.2 r.1 .submitted risk none now
    if 0 < cfg.rejectProbability ∧ roll < cfg.rejectProbability then
      let r := update r.2 r.1 .rejected risk (some "insufficient_liquidity") now
      .done r.1 r.2
    else placeOrder r.2 r.1 request risk now

/-- `submit` from the simulated latency on. -/
def submitAfterLatency (s : PaperState) (request : OrderRequest) (risk : RiskEvaluation) (roll : ℚ)
    (now : Time) : Order × PaperState :=
  match prepare cfg s request risk roll now with
  | .done order s => (order, s)
  | .execute order s mark => executeFill cfg s order request risk mark now

/-- `submit` without suspension: a known key returns the order it names (and
fails with a `KeyError` when that order does not exist). -/
def submit (s : PaperState) (request : OrderRequest) (risk : RiskEvaluation) (roll : ℚ)
    (now : Time) : Option Order × PaperState :=
  match s.idempotencyIndex.get? request.idempotencyKey with
  | some id => (s.orders.get? id, s)
  | none =>
      let r := submitAfterLatency cfg s request risk roll now
      (some r.1, r.2)

/-! ### Marks and resting orders -/

/-- Whether a resting order of this type, side and limit is crossed by `mark`. -/
def crosses (order : Order) (mark : ℚ) : Bool :=
  match order.orderType, order.price with
  | .limit, some price =>
      match order.side with
      | .buy => mark ≤ price
      | .sell => price ≤ mark
  | .stopLoss, some price =>
      match order.side with
      | .sell => mark ≤ price
      | .buy => price ≤ mark
  | .takeProfit, some price =>
      match order.side with
      | .sell => price ≤ mark
      | .buy => mark ≤ price
  | _, _ => false

/-- The quantity a triggered resting order fills. -/
def restingQty (remaining : ℚ) : ℚ :=
  if cfg.partialFillFraction < 1 then quantizeDown8 (remaining * cfg.partialFillFraction)
  else remaining

/-- The quantity the mark fills of a resting order, if it triggers it. -/
def restingFill (order : Order) (symbol : String) (mark : ℚ) : Option ℚ :=
  let remaining := order.quantity - order.filledQuantity
  if order.symbol = symbol ∧ (order.status = .submitted ∨ order.status = .partiallyFilled) ∧
      0 < remaining ∧ crosses order mark = true ∧ 0 < restingQty cfg remaining then
    some (restingQty cfg remaining)
  else none

/-- The risk outcome a resting order is filled under. -/
def restingRisk (order : Order) : RiskEvaluation :=
  { decision := order.riskDecision.getD .approved
    reasonCode := order.riskReasonCode.getD .ok
    approvedQuantity := some (order.quantity - order.filledQuantity)
    message := "resting_trigger" }

/-- One order of the loop of `_try_trigger_resting`. -/
def triggerOne (symbol : String) (mark : ℚ) (now : Time) (s : PaperState) (order : Order) :
    PaperState :=
  match restingFill cfg order symbol mark with
  | none => s
  | some fillQty =>
      (settleFill cfg s order fillQty (order.quantity - order.filledQuantity)
        (fillPrice cfg mark order.orderType order.side order.price) (restingRisk order)
        (order.orderType = .limit) now).2

/-- `_try_trigger_resting`: the loop runs over the orders as they were when it
began. -/
def tryTriggerResting (s : PaperState) (symbol : String) (mark : ℚ) (now : Time) : PaperState :=
  s.orders.values.foldl (triggerOne cfg symbol mark now) s

/-- The positions after a mark update. -/
def markPositions (positions : Dict String Position) (symbol : String) (price : ℚ) :
    Dict String Position :=
  match positions.get? symbol with
  | none => positions
  | some p =>
      positions.set symbol
        { p with currentPrice := price, unrealizedPnl := (price - p.entryPrice) * p.quantity }

/-- `set_mark_price`. -/
def setMarkPrice (s : PaperState) (symbol : String) (price : ℚ) (now : Time) : PaperState :=
  tryTriggerResting cfg
    { s with
      markPrices := s.markPrices.set symbol price
      positions := markPositions s.positions symbol price }
    symbol price now

/-! ### Cancel and expire -/

/-- Release the reservation of an order and store it with a final status. -/
def closeOrder (s : PaperState) (order : Order) (status : OrderStatus) (now : Time) :
    Order × PaperState :=
  let r := releaseBuyReservation s order none now
  let updated := { r.1 with status := status, updatedAt := now }
  (updated, { r.2 with orders := r.2.orders.set updated.id updated })

/-- `cancel`; an unknown order raises a `KeyError` (`none`). -/
def cancel (s : PaperState) (orderId : Ident) (now : Time) : Option Order × PaperState :=
  match s.orders.get? orderId with
  | none => (none, s)
  | some order =>
      if order.status ∈ [.created, .riskPending, .approved, .submitted, .partiallyFilled] then
        let r := closeOrder s order .cancelled now
        (some r.1, r.2)
      else (some order, s)

/-- `expire`; an unknown order raises a `KeyError` (`none`). -/
def expire (s : PaperState) (orderId : Ident) (now : Time) : Option Order × PaperState :=
  match s.orders.get? orderId with
  | none => (none, s)
  | some order =>
      if order.status ∈ [.submitted, .partiallyFilled, .approved] then
        let r := closeOrder s order .expired now
        (some r.1, r.2)
      else (some order, s)

/-! ### Runs -/

/-- An operation on the engine. -/
inductive Op
  | submit (request : OrderRequest) (risk : RiskEvaluation) (roll : ℚ) (now : Time)
  | setMarkPrice (symbol : String) (price : ℚ) (now : Time)
  | cancel (orderId : Ident) (now : Time)
  | expire (orderId : Ident) (now : Time)
  deriving DecidableEq, Repr

/-- The state after an operation. -/
def step (s : PaperState) : Op → PaperState
  | .submit request risk roll now => (submit cfg s request risk roll now).2
  | .setMarkPrice symbol price now => setMarkPrice cfg s symbol price now
  | .cancel orderId now => (cancel s orderId now).2
  | .expire orderId now => (expire s orderId now).2

end Paper

end Atlas
