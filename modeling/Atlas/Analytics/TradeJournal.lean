import Atlas.Paper.Ledger
import Atlas.Paper.Engine

/-!
# The journal of closed trades

A sale against a position closes a trade.  The record of a trade takes its identifier
from the fill, and the journal keeps one record for each identifier: a second one is
dropped.

Writes to the database are taken to succeed.

## Main definitions

* `ClosedTrade` — the record of a closed trade.
* `tradeId` — its identifier.
* `buildClosedTradeFromExit`, `maybeBuildClosedTrade` — the records of an order.
* `record`, `persistClosedTrades` — the journal.

## Main results

* `buildClosedTradeFromExit_netPnl` — what is rounded in the net profit of a record.
* `persistClosedTrades_new` — a trade with a new identifier is added.

## References

`app/analytics/trade_journal.py`, `app/analytics/recorder.py`.
-/

namespace Atlas

open Quantize

/-- `f"{pre}{identifier}"`; all of `uuid4().hex` has 32 digits. -/
def Ident.prefixed (pre : String) : Ident → Ident
  | .uuid4 n => .uuid4Prefix pre 32 n
  | .uuid4Prefix pre' len n => .uuid4Prefix (pre ++ pre') len n
  | .text s => .text (pre ++ s)

/-- Python's `a or b` on texts: `None` and the empty text are falsy. -/
def textOr (a : Option String) (b : String) : String :=
  match a with
  | some text => if text = "" then b else text
  | none => b

namespace Analytics

/-- The payload of a closed trade. -/
structure TradePayload where
  entryFeeEst : ℚ
  exitFee : ℚ
  reduceOnly : Bool
  deriving DecidableEq, Repr, Inhabited

structure ClosedTrade where
  id : Ident
  strategyName : String
  symbol : String
  side : OrderSide
  entryTime : Time
  exitTime : Time
  entryPrice : ℚ
  exitPrice : ℚ
  quantity : ℚ
  fees : ℚ
  slippage : ℚ
  grossPnl : ℚ
  netPnl : ℚ
  roiPct : ℚ
  durationSeconds : ℕ
  exitReason : String
  riskScore : ℚ
  marketRegime : String
  paperSessionId : String
  orderId : Ident
  fillId : Ident
  correlationId : Option String := none
  payload : TradePayload
  deriving DecidableEq, Repr, Inhabited

/-- `classify_market_regime`. -/
def classifyMarketRegime (rsi atrPct : Option ℚ) : String :=
  if rsi = none ∧ atrPct = none then "unclassified"
  else if rsi.any fun x => 70 ≤ x then "overbought"
  else if rsi.any fun x => x ≤ 30 then "oversold"
  else if atrPct.any fun x => 3 / 100 ≤ x then "high_volatility"
  else if atrPct.any fun x => x ≤ 5 / 1000 then "low_volatility"
  else "ranging"

/-- `risk_score_from_context`. -/
def riskScoreFromContext (drawdown : ℚ) (consecutiveLosses : ℕ) (killSwitch : Bool) : ℚ :=
  if killSwitch then 100
  else
    let score := 10 + min 40 (drawdown * 100) + (min consecutiveLosses 10 : ℕ) * 5
    min 100 (quantize (1 / 100) score)

/-- What a record says beside its position, order and fill. -/
structure Exit where
  feeRate : ℚ
  slippageRate : ℚ
  paperSessionId : String
  exitReason : String := "signal_exit"
  drawdown : ℚ := 0
  consecutiveLosses : ℕ := 0
  killSwitch : Bool := false
  marketRegime : Option String := none
  correlationId : Option String := none
  rsi : Option ℚ := none
  deriving DecidableEq, Repr, Inhabited

/-- `f"ct-{fill.id}"`. -/
def tradeId (fillId : Ident) : Ident := fillId.prefixed "ct-"

/-- `build_closed_trade_from_exit`. -/
def buildClosedTradeFromExit (position : Position) (order : Order) (fill : Fill) (exit : Exit)
    (riskScore : ℚ) (marketRegime : String) : ClosedTrade :=
  let entryFee := quantize8 (position.entryPrice * fill.quantity * exit.feeRate)
  let fees := quantize8 (entryFee + fill.fee)
  let gross := quantize8 ((fill.price - position.entryPrice) * fill.quantity)
  let net := quantize8 (gross - fees)
  let notional := position.entryPrice * fill.quantity
  { id := tradeId fill.id
    strategyName := textOr order.strategyName (textOr position.strategyName "unknown")
    symbol := order.symbol
    side := order.side
    entryTime := position.openedAt
    exitTime := fill.timestamp
    entryPrice := position.entryPrice
    exitPrice := fill.price
    quantity := fill.quantity
    fees := fees
    slippage := quantize8 (fill.price * fill.quantity * exit.slippageRate)
    grossPnl := gross
    netPnl := net
    roiPct := if 0 < notional then quantize (1 / 10000) (net / notional * 100) else 0
    durationSeconds := ((fill.timestamp - position.openedAt) / 1000000).toNat
    exitReason := exit.exitReason
    riskScore := riskScore
    marketRegime := marketRegime
    paperSessionId := exit.paperSessionId
    orderId := order.id
    fillId := fill.id
    correlationId := exit.correlationId
    payload :=
      { entryFeeEst := entryFee
        exitFee := quantize8 fill.fee
        reduceOnly := (order.metadata.other.lookup "reduce_only").any (· ≠ "") } }

/-- **The net profit of a record**: only the gross profit and the entry fee are rounded, if
the fee of the fill is a rounded one. -/
theorem buildClosedTradeFromExit_netPnl (position : Position) (order : Order) (fill : Fill)
    (exit : Exit) (riskScore : ℚ) (marketRegime : String) {exact : ℚ}
    (hfee : fill.fee = quantize8 exact) :
    (buildClosedTradeFromExit position order fill exit riskScore marketRegime).netPnl =
      quantize8 ((fill.price - position.entryPrice) * fill.quantity) -
        quantize8 (position.entryPrice * fill.quantity * exit.feeRate) - fill.fee := by
  have hfees : quantize8 (quantize8 (position.entryPrice * fill.quantity * exit.feeRate) + fill.fee) =
      quantize8 (position.entryPrice * fill.quantity * exit.feeRate) + fill.fee := by
    rw [hfee]
    exact quantize_add_quantize quantum8_pos.ne' _ _
  simp only [buildClosedTradeFromExit]
  rw [show ∀ x y, quantize8 (quantize8 x - quantize8 y) = quantize8 x - quantize8 y from
    fun x y => quantize_sub_quantize quantum8_pos.ne' x y, hfees, sub_sub]

/-- `maybe_build_closed_trade`: a record for each fill of a SELL that has filled. -/
def maybeBuildClosedTrade (positionBefore : Option Position) (order : Order) (fills : List Fill)
    (exit : Exit) : List ClosedTrade :=
  match positionBefore with
  | none => []
  | some position =>
      if order.side ≠ .sell then []
      else if ¬(order.status = .filled ∨ order.status = .partiallyFilled) then []
      else
        let regime := textOr exit.marketRegime (classifyMarketRegime exit.rsi none)
        let score := riskScoreFromContext exit.drawdown exit.consecutiveLosses exit.killSwitch
        (fillsOf fills order.id).map fun fill =>
          buildClosedTradeFromExit position order fill exit score regime

/-- A SELL that has filled once leaves one record. -/
theorem maybeBuildClosedTrade_one {position : Position} {order : Order} {fills : List Fill}
    {fill : Fill} {exit : Exit} (hside : order.side = .sell)
    (hfilled : order.status = .filled ∨ order.status = .partiallyFilled)
    (hown : fillsOf fills order.id = [fill]) :
    ∃ riskScore marketRegime, maybeBuildClosedTrade (some position) order fills exit =
      [buildClosedTradeFromExit position order fill exit riskScore marketRegime] := by
  simp only [maybeBuildClosedTrade]
  rw [if_neg (not_not.mpr hside), if_neg (not_not.mpr hfilled), hown, List.map_singleton]
  exact ⟨_, _, rfl⟩

/-- `TradeJournalService.record`, and whether the trade is new. -/
def record (journal : List ClosedTrade) (trade : ClosedTrade) : List ClosedTrade × Bool :=
  if journal.any fun t => t.id = trade.id then (journal, false) else (journal ++ [trade], true)

/-- `persist_closed_trades`, and the number of trades that are new. -/
def persistClosedTrades (journal : List ClosedTrade) (trades : List ClosedTrade) :
    List ClosedTrade × ℕ :=
  trades.foldl
    (fun r trade =>
      let recorded := record r.1 trade
      (recorded.1, if recorded.2 then r.2 + 1 else r.2))
    (journal, 0)

/-- The journal only grows. -/
theorem persistClosedTrades_extends (journal trades : List ClosedTrade) :
    journal <+: (persistClosedTrades journal trades).1 := by
  unfold persistClosedTrades
  suffices hall : ∀ r : List ClosedTrade × ℕ, r.1 <+: (trades.foldl (fun r trade =>
      let recorded := record r.1 trade
      (recorded.1, if recorded.2 then r.2 + 1 else r.2)) r).1 from hall (journal, 0)
  induction trades with
  | nil => exact fun _ => List.prefix_rfl
  | cons trade trades ih =>
    intro r
    have hfirst : r.1 <+: (record r.1 trade).1 := by
      unfold record
      split_ifs
      · exact List.prefix_rfl
      · exact List.prefix_append ..
    rw [List.foldl_cons]
    exact hfirst.trans (ih (_, _))

/-- **A trade with a new identifier is added to the journal.** -/
theorem persistClosedTrades_new {journal : List ClosedTrade} {trade : ClosedTrade}
    (h : ∀ t ∈ journal, t.id ≠ trade.id) :
    (persistClosedTrades journal [trade]).1 = journal ++ [trade] := by
  have hnew : ¬(journal.any fun t => decide (t.id = trade.id)) = true := by
    simp only [List.any_eq_true, decide_eq_true_eq, not_exists, not_and]
    exact h
  simp only [persistClosedTrades, List.foldl, record, if_neg hnew]

/-- The identifiers of the trades of two fills with identifiers of their own differ. -/
theorem tradeId_uuid4_inj {n m : ℕ} (h : tradeId (.uuid4 n) = tradeId (.uuid4 m)) : n = m := by
  simpa [tradeId, Ident.prefixed] using h

end Analytics

end Atlas
