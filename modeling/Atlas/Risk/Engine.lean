import Mathlib.Data.Int.Log
import Mathlib.Data.List.MinMax
import Atlas.Lib.Result
import Atlas.Trading

/-!
# The risk engine

Every order passes `evaluate` before it reaches an execution engine.  The body of
`evaluate` is a sequence of early returns, and after them a sequence of caps on the
size; both are kept in the source's order.  An early return is a `Gate`, and the
first gate that fails answers.  The gates are in four lists, since between them
`evaluate` fixes the reference price and drops the old order times.

The clock is read once for each evaluation (`now`).  The record of `checks` that an
evaluation carries for the audit is left out.

## Main definitions

* `RiskSettings`, `RiskEngineState`, `RiskContext` — what the engine reads.
* `Gate`, `firstRefusal` — the early returns.
* `capByRisk`, `capByPosition`, `capByPortfolio` — the caps on the size.
* `evaluate` — the evaluation of a request.

## Main results

* `evaluate_accepted` — **what an accepted request has passed**, with the bounds on
  the approved quantity.
* `evaluate_evaluates` — what an evaluation leads to, for the answer and for the state.

## References

`app/risk/engine.py`, `app/core/config.py`.
-/

namespace Atlas

open Quantize

inductive TradingMode
  | paper
  | live
  deriving DecidableEq, Repr, Inhabited

/-- The settings the risk engine reads. -/
structure RiskSettings where
  tradingMode : TradingMode := .paper
  liveTradingEnabled : Bool := false
  killSwitchEnabled : Bool := false
  hasExchangeCredentials : Bool := false
  allowedSymbols : List String := ["BTC/USDT"]
  defaultLeverage : ℚ := 1
  marketDataStaleSeconds : ℤ := 30
  orderCooldownSeconds : ℤ := 0
  maxRiskPerTrade : ℚ := 1 / 100
  maxPositionExposure : ℚ := 1 / 5
  maxPortfolioExposure : ℚ := 4 / 5
  maxOpenPositions : ℤ := 3
  maxDailyLoss : ℚ := 3 / 100
  maxDrawdown : ℚ := 1 / 10
  maxConsecutiveLosses : ℤ := 5
  maxOrdersPerMinute : ℤ := 10
  minOrderNotional : ℚ := 10
  deriving DecidableEq, Repr, Inhabited

/-- The mutable state of the risk engine. -/
structure RiskEngineState where
  recentOrderTimes : List Time := []
  seenIdempotencyKeys : List String := []
  circuitBreakerOpen : Bool := false
  circuitBreakerReason : String := ""
  riskEngineHealthy : Bool := true
  marketDataHealthy : Bool := true
  databaseHealthy : Bool := true
  reconciliationHealthy : Bool := true
  lastMarketDataTs : Option Time := none
  deriving DecidableEq, Repr, Inhabited

/-- The trading rules of a symbol, as far as the risk engine reads them. -/
structure SymbolInfo where
  minQuantity : ℚ
  minNotional : ℚ
  tickSize : ℚ
  stepSize : ℚ
  deriving DecidableEq, Repr, Inhabited

structure RiskContext where
  portfolio : PortfolioState
  symbolInfo : Option SymbolInfo := none
  markPrice : Option ℚ := none
  marketDataTs : Option Time := none
  tradingMode : TradingMode := .paper
  liveTradingEnabled : Bool := false
  killSwitchEnabled : Bool := false
  hasExchangeCredentials : Bool := false
  liveApprovalValid : Bool := false
  deriving DecidableEq, Repr, Inhabited

/-- `timedelta(seconds=n)`. -/
def seconds (n : ℤ) : Time := n * 1000000

/-! ### Texts -/

def OrderType.value : OrderType → String
  | .market => "market"
  | .limit => "limit"
  | .stopLoss => "stop_loss"
  | .takeProfit => "take_profit"

/-- The floating-point number next to `x`: 53 significant bits, ties to even. -/
def nearestFloat (x : ℚ) : ℚ := if x = 0 then 0 else quantize (2 ^ (Int.log 2 |x| - 52)) x

/-- `f"{x:.1f}"`. -/
def fixedOne (x : ℚ) : String :=
  let tenths := (roundHalfEven (|x| * 10)).toNat
  (if x < 0 then "-" else "") ++ toString (tenths / 10) ++ "." ++ toString (tenths % 10)

/-- The evaluation lets the order through. -/
def RiskEvaluation.Accepts (e : RiskEvaluation) : Prop :=
  e.decision = .approved ∨ e.decision = .reduced

instance (e : RiskEvaluation) : Decidable e.Accepts := inferInstanceAs (Decidable (_ ∨ _))

/-- What the callers of the engine test: a refusal rejects or halts. -/
theorem RiskEvaluation.not_accepts_iff {e : RiskEvaluation} :
    ¬e.Accepts ↔ e.decision = .rejected ∨ e.decision = .halted := by
  unfold RiskEvaluation.Accepts
  cases e.decision <;> simp

/-- The portfolio holds a long position in the symbol. -/
def PortfolioState.holds (portfolio : PortfolioState) (symbol : String) : Bool :=
  portfolio.openPositions.any fun p => p.symbol = symbol ∧ 0 < p.quantity

namespace Risk

/-! ### Gates -/

/-- `_reject`. -/
def reject (code : RiskReasonCode) (message : String) : RiskEvaluation :=
  { decision := .rejected, reasonCode := code, message := message }

/-- `_halt`. -/
def halt (code : RiskReasonCode) (message : String) : RiskEvaluation :=
  { decision := .halted, reasonCode := code, message := message }

/-- An early return: when it fails, it answers, and never lets the order through. -/
structure Gate where
  fails : Bool
  answer : RiskEvaluation
  refuses : ¬ answer.Accepts

/-- An early return with `_reject`. -/
def rejectIf (fails : Prop) [Decidable fails] (code : RiskReasonCode) (message : String) : Gate :=
  ⟨decide fails, reject code message, by simp [reject, RiskEvaluation.Accepts]⟩

/-- An early return with `_halt`. -/
def haltIf (fails : Prop) [Decidable fails] (code : RiskReasonCode) (message : String) : Gate :=
  ⟨decide fails, halt code message, by simp [halt, RiskEvaluation.Accepts]⟩

@[simp] theorem rejectIf_fails (fails : Prop) {_ : Decidable fails} (code : RiskReasonCode)
    (message : String) : (rejectIf fails code message).fails = decide fails := rfl

@[simp] theorem haltIf_fails (fails : Prop) {_ : Decidable fails} (code : RiskReasonCode)
    (message : String) : (haltIf fails code message).fails = decide fails := rfl

/-- The answer of the first gate that fails. -/
def firstRefusal (gates : List Gate) : Option RiskEvaluation :=
  (gates.find? Gate.fails).map Gate.answer

theorem firstRefusal_eq_none {gates : List Gate} :
    firstRefusal gates = none ↔ ∀ g ∈ gates, g.fails = false := by
  simp [firstRefusal]

theorem firstRefusal_refuses {gates : List Gate} {e : RiskEvaluation}
    (h : firstRefusal gates = some e) : ¬ e.Accepts := by
  obtain ⟨g, -, rfl⟩ := Option.map_eq_some_iff.mp h
  exact g.refuses

variable (settings : RiskSettings) (state : RiskEngineState) (request : OrderRequest)
  (context : RiskContext) (now : Time)

/-- `_check_live_gating`. -/
def liveGates : List Gate :=
  [rejectIf (¬(context.liveTradingEnabled ∨ settings.liveTradingEnabled))
      .liveTradingDisabled "Live trading disabled",
    haltIf (context.killSwitchEnabled ∨ settings.killSwitchEnabled)
      .killSwitchActive "Kill switch active",
    rejectIf (¬(context.hasExchangeCredentials ∨ settings.hasExchangeCredentials))
      .invalidCredentials "Missing credentials",
    rejectIf (¬state.riskEngineHealthy) .riskEngineUnhealthy "Risk unhealthy",
    rejectIf (¬state.marketDataHealthy) .marketDataUnhealthy "MD unhealthy",
    rejectIf (¬state.databaseHealthy) .databaseUnhealthy "DB unhealthy",
    rejectIf (¬state.reconciliationHealthy) .reconciliationUnhealthy "Reconciliation unhealthy",
    rejectIf (¬context.liveApprovalValid) .invalidLiveApproval "Live approval token invalid"]

/-- The gates on the state of the engine, the venue and the symbol. -/
def venueGates : List Gate :=
  [haltIf (¬state.riskEngineHealthy) .riskEngineUnhealthy "Risk engine unhealthy",
    haltIf (settings.killSwitchEnabled ∨ context.killSwitchEnabled)
      .killSwitchActive "Kill switch active",
    haltIf state.circuitBreakerOpen .circuitBreakerOpen
      (if state.circuitBreakerReason = "" then "Circuit breaker open"
        else state.circuitBreakerReason)] ++
  (if context.tradingMode = .live ∨ settings.tradingMode = .live then
    liveGates settings state context else []) ++
  [rejectIf (settings.allowedSymbols ≠ [] ∧ request.symbol ∉ settings.allowedSymbols)
      .symbolNotAllowed ("Symbol " ++ request.symbol ++ " not in ALLOWED_SYMBOLS"),
    rejectIf (request.side = .sell ∧ ¬request.reduceOnly ∧ ¬context.portfolio.holds request.symbol)
      .shortSellingDisabled "Short selling is disabled (long-only spot)",
    rejectIf (settings.defaultLeverage ≠ 1) .leverageNotAllowed "Leverage is not allowed",
    rejectIf (¬state.marketDataHealthy) .marketDataUnhealthy "Market data unhealthy",
    rejectIf (¬state.databaseHealthy) .databaseUnhealthy "Database unhealthy",
    rejectIf (¬state.reconciliationHealthy) .reconciliationUnhealthy "Reconciliation unhealthy"]

/-- `now - (context.market_data_ts or state.last_market_data_ts)` exceeds the limit. -/
def stale : Prop :=
  (context.marketDataTs.or state.lastMarketDataTs).any fun ts =>
    seconds settings.marketDataStaleSeconds < now - ts

instance : Decidable (stale settings state context now) := inferInstanceAs (Decidable (_ = true))

/-- `request.price or request.stop_loss or request.take_profit`. -/
def triggerPrice : Option ℚ := pyOr (pyOr request.price request.stopLoss) request.takeProfit

/-- A price that is absent or not positive. -/
def badPrice (price : Option ℚ) : Bool := price.all (· ≤ 0)

/-- The gates on the age of the data and on the request's own values. -/
def requestGates : List Gate :=
  [rejectIf (stale settings state context now) .dataStale "Market data stale",
    rejectIf (request.idempotencyKey ∈ state.seenIdempotencyKeys)
      .duplicateOrder "Duplicate idempotency key",
    rejectIf (request.quantity ≤ 0) .invalidQuantity "Quantity must be > 0",
    rejectIf (request.orderType = .limit ∧ badPrice request.price)
      .invalidPrice "Limit price required",
    rejectIf ((request.orderType = .stopLoss ∨ request.orderType = .takeProfit) ∧
        badPrice (triggerPrice request))
      .invalidPrice (request.orderType.value ++ " trigger price required"),
    rejectIf (context.markPrice.any (· ≤ 0)) .invalidPrice "Mark price invalid"]

/-- The reference price: `request.price if request.price is not None else mark`. -/
def referencePrice : Option ℚ := request.price.or context.markPrice

/-- The gates on precision and size. -/
def sizeGates (price : ℚ) : List Gate :=
  match context.symbolInfo with
  | some info =>
      [rejectIf (0 < info.stepSize ∧ quantizeDown info.stepSize request.quantity ≠ request.quantity)
          .precisionInvalid "Quantity precision invalid",
        rejectIf (request.quantity < info.minQuantity) .minOrderSize "Below min quantity",
        rejectIf (request.quantity * price < max info.minNotional settings.minOrderNotional)
          .minOrderSize "Below min notional",
        rejectIf (0 < info.tickSize ∧ request.price.any fun p =>
            roundDown (p / info.tickSize) ≠ p / info.tickSize)
          .precisionInvalid "Price tick invalid"]
  | none =>
      [rejectIf (request.quantity * price < settings.minOrderNotional)
        .minOrderSize "Below min notional"]

/-- `evaluate` drops the order times older than a minute. -/
def trimmed : RiskEngineState :=
  { state with
    recentOrderTimes := state.recentOrderTimes.filter fun t => now - seconds 60 ≤ t }

/-- The time since the last accepted order. -/
def elapsed : Option Time := state.recentOrderTimes.max?.map (now - ·)

/-- The gates on the order frequency and on the account. -/
def accountGates : List Gate :=
  let portfolio := context.portfolio
  [rejectIf (settings.maxOrdersPerMinute ≤ state.recentOrderTimes.length)
      .maxOrderFrequency "Order frequency exceeded",
    rejectIf (0 < settings.orderCooldownSeconds ∧
        (elapsed state now).any (· < seconds settings.orderCooldownSeconds))
      .orderCooldown
      ("Order cooldown active (" ++
        fixedOne (nearestFloat ((elapsed state now).getD 0 / 1000000)) ++ "s < " ++
        toString settings.orderCooldownSeconds ++ "s)"),
    rejectIf (0 < portfolio.peakEquity ∧ settings.maxDailyLoss ≤
        if portfolio.dailyPnl < 0 then -portfolio.dailyPnl / portfolio.peakEquity else 0)
      .dailyLossLimitReached "Daily loss limit",
    rejectIf (0 < portfolio.peakEquity ∧ settings.maxDrawdown ≤ portfolio.drawdown)
      .maxDrawdownReached "Max drawdown reached",
    rejectIf (settings.maxConsecutiveLosses ≤ portfolio.consecutiveLosses)
      .maxConsecutiveLosses "Max consecutive losses",
    rejectIf (¬(request.reduceOnly ∨ portfolio.holds request.symbol) ∧
        settings.maxOpenPositions ≤ portfolio.openPositions.length)
      .maxOpenPositions "Max open positions"]

/-! ### Size -/

/-- The equity the size is measured by: `portfolio.equity if portfolio.equity > 0 else
portfolio.cash_balance`. -/
def sizingEquity (portfolio : PortfolioState) : ℚ :=
  if 0 < portfolio.equity then portfolio.equity else portfolio.cashBalance

/-- The notional of the open positions: every position at the mark of the request's
symbol, or at its own price where there is no mark. -/
def currentNotional : ℚ :=
  (context.portfolio.openPositions.map fun p =>
    p.quantity * (pyOr context.markPrice (some p.currentPrice)).getD 0).sum

/-- A size: the quantity, and whether a limit has reduced it. -/
structure Sized where
  quantity : ℚ
  reduced : Bool
  deriving DecidableEq, Repr

/-- Reduce to the notional `limit`, rounded down. -/
def reduceTo (limit price : ℚ) (code : RiskReasonCode) (message : String) :
    Except RiskEvaluation Sized :=
  let reduced := quantizeDown8 (limit / price)
  if reduced ≤ 0 then .error (reject code message) else .ok ⟨reduced, true⟩

/-- The loss of one unit at the stop, where the request has a stop. -/
def perUnitRisk (price : ℚ) : Option ℚ :=
  match request.stopLoss with
  | some stop => if 0 < stop then some |price - stop| else none
  | none => none

/-- The risk budget of a trade: stop based, else a fixed fraction as notional. -/
def capByRisk (price : ℚ) (z : Sized) : Except RiskEvaluation Sized :=
  let riskBudget := sizingEquity context.portfolio * settings.maxRiskPerTrade
  match perUnitRisk request price with
  | some unit =>
      if 0 < unit then
        let maxQty := quantizeDown8 (riskBudget / unit)
        if maxQty ≤ 0 then .error (reject .maxRiskPerTrade "Risk per trade too high")
        else if maxQty < z.quantity then .ok ⟨maxQty, true⟩ else .ok z
      else .ok z
  | none =>
      let maxQty := quantizeDown8 (riskBudget / price)
      if maxQty < z.quantity then .ok ⟨maxQty, true⟩ else .ok z

/-- The cap on the notional of the order. -/
def capByPosition (price : ℚ) (z : Sized) : Except RiskEvaluation Sized :=
  let maxPosNotional := sizingEquity context.portfolio * settings.maxPositionExposure
  if maxPosNotional < z.quantity * price then
    reduceTo maxPosNotional price .maxPositionExposure "Position exposure too high"
  else .ok z

/-- The cap on the notional of the order and of the open positions. -/
def capByPortfolio (price : ℚ) (z : Sized) : Except RiskEvaluation Sized :=
  let maxPortNotional := sizingEquity context.portfolio * settings.maxPortfolioExposure
  if maxPortNotional < currentNotional context + z.quantity * price then
    let room := maxPortNotional - currentNotional context
    if room ≤ 0 then .error (reject .maxPortfolioExposure "Portfolio exposure too high")
    else reduceTo room price .maxPortfolioExposure "Portfolio exposure too high"
  else .ok z

/-- The last checks on the approved size. -/
def checkSize (price : ℚ) (z : Sized) : Except RiskEvaluation Sized :=
  if z.quantity ≤ 0 then .error (reject .invalidQuantity "Approved qty is zero")
  else if request.side = .buy ∧ ¬request.reduceOnly ∧
      context.portfolio.cashBalance < z.quantity * price then
    .error (reject .insufficientBalance "Insufficient cash for approved order notional")
  else .ok z

/-- The approved size. -/
def approvedSize (price : ℚ) : Except RiskEvaluation Sized := do
  let z ← capByRisk settings request context price ⟨request.quantity, false⟩
  let z ← capByPosition settings context price z
  let z ← capByPortfolio settings context price z
  checkSize request context price z

/-- The evaluation of an order that is let through. -/
def accept (z : Sized) : RiskEvaluation :=
  if z.reduced then
    { decision := .reduced, reasonCode := .sizeReducedByRisk, approvedQuantity := some z.quantity,
      message := "Size reduced by risk limits" }
  else
    { decision := .approved, reasonCode := .ok, approvedQuantity := some z.quantity,
      message := "OK" }

/-- The state after an order is let through. -/
def recorded : RiskEngineState :=
  { state with
    seenIdempotencyKeys := request.idempotencyKey :: state.seenIdempotencyKeys
    recentOrderTimes := state.recentOrderTimes ++ [now] }

/-- `evaluate`. -/
def evaluate : RiskEvaluation × RiskEngineState :=
  match firstRefusal (venueGates settings state request context ++
      requestGates settings state request context now) with
  | some answer => (answer, state)
  | none =>
      match referencePrice request context with
      | none => (reject .invalidPrice "No valid price", state)
      | some price =>
          if price ≤ 0 then (reject .invalidPrice "No valid price", state)
          else
            match firstRefusal (sizeGates settings request context price) with
            | some answer => (answer, state)
            | none =>
                -- the old order times are dropped also when a later check refuses
                let state := trimmed state now
                match firstRefusal (accountGates settings state request context now) with
                | some answer => (answer, state)
                | none =>
                    match approvedSize settings request context price with
                    | .error answer => (answer, state)
                    | .ok z => (accept z, recorded state request now)

/-! ### What an accepted request has passed -/

variable {settings state request context now} {price : ℚ} {z z' : Sized}

/-- The quantity the risk budget allows, where it is a limit. -/
def riskLimit (settings : RiskSettings) (request : OrderRequest) (context : RiskContext)
    (price : ℚ) : Option ℚ :=
  let riskBudget := sizingEquity context.portfolio * settings.maxRiskPerTrade
  match perUnitRisk request price with
  | some unit => if 0 < unit then some (quantizeDown8 (riskBudget / unit)) else none
  | none => some (quantizeDown8 (riskBudget / price))

theorem reduceTo_ok {limit : ℚ} {code : RiskReasonCode} {message : String} (hprice : 0 < price)
    (h : reduceTo limit price code message = .ok z) :
    z = ⟨quantizeDown8 (limit / price), true⟩ ∧ z.quantity * price ≤ limit := by
  simp only [reduceTo] at h
  split_ifs at h with hpos
  rw [Except.ok.injEq] at h
  refine ⟨h.symm, ?_⟩
  have hlimit : 0 ≤ limit / price := by
    by_contra hneg
    exact hpos (quantizeDown8_nonpos (not_le.mp hneg).le)
  calc z.quantity * price = quantizeDown8 (limit / price) * price := by rw [← h]
    _ ≤ limit / price * price := mul_le_mul_of_nonneg_right (quantizeDown8_le hlimit) hprice.le
    _ = limit := div_mul_cancel₀ _ hprice.ne'

theorem capByRisk_ok (h : capByRisk settings request context price z = .ok z') :
    z'.quantity ≤ z.quantity ∧
      ∀ m, riskLimit settings request context price = some m → z'.quantity ≤ m := by
  simp only [capByRisk] at h
  simp only [riskLimit]
  cases hunit : perUnitRisk request price with
  | none =>
    simp only [hunit] at h
    split_ifs at h with hlt <;> rw [Except.ok.injEq] at h <;> subst h
    · exact ⟨hlt.le, fun m hm => (Option.some.inj hm).le⟩
    · exact ⟨le_rfl, fun m hm => Option.some.inj hm ▸ not_lt.mp hlt⟩
  | some unit =>
    simp only [hunit] at h
    split_ifs at h with hunit' hzero hlt <;> rw [Except.ok.injEq] at h <;> subst h
    · exact ⟨hlt.le, fun m hm => by simp only [if_pos hunit', Option.some.injEq] at hm; exact hm.le⟩
    · refine ⟨le_rfl, fun m hm => ?_⟩
      simp only [if_pos hunit', Option.some.injEq] at hm
      exact hm ▸ not_lt.mp hlt
    · exact ⟨le_rfl, fun m hm => by simp [hunit'] at hm⟩

/-- A cap that either keeps the size or reduces it below a notional. -/
theorem le_of_reduced {limit : ℚ} (hprice : 0 < price) (hz : limit < z.quantity * price)
    (hz' : z'.quantity * price ≤ limit) : z'.quantity ≤ z.quantity :=
  le_of_mul_le_mul_right (hz'.trans hz.le) hprice

theorem capByPosition_ok (hprice : 0 < price) (h : capByPosition settings context price z = .ok z') :
    z'.quantity ≤ z.quantity ∧
      z'.quantity * price ≤ sizingEquity context.portfolio * settings.maxPositionExposure := by
  simp only [capByPosition] at h
  split_ifs at h with hlt
  · obtain ⟨-, hle⟩ := reduceTo_ok hprice h
    exact ⟨le_of_reduced hprice hlt hle, hle⟩
  · rw [Except.ok.injEq] at h
    exact h ▸ ⟨le_rfl, not_lt.mp hlt⟩

theorem capByPortfolio_ok (hprice : 0 < price)
    (h : capByPortfolio settings context price z = .ok z') :
    z'.quantity ≤ z.quantity ∧
      currentNotional context + z'.quantity * price ≤
        sizingEquity context.portfolio * settings.maxPortfolioExposure := by
  simp only [capByPortfolio] at h
  split_ifs at h with hlt hroom
  · obtain ⟨-, hle⟩ := reduceTo_ok hprice h
    exact ⟨le_of_reduced hprice (by linarith) hle, by linarith⟩
  · rw [Except.ok.injEq] at h
    exact h ▸ ⟨le_rfl, not_lt.mp hlt⟩

theorem reduceTo_reduced {limit : ℚ} {code : RiskReasonCode} {message : String}
    (h : reduceTo limit price code message = .ok z) : ∃ x, z.quantity = quantizeDown8 x := by
  simp only [reduceTo] at h
  split_ifs at h
  rw [Except.ok.injEq] at h
  exact ⟨limit / price, by rw [← h]⟩

/-! A cap keeps the size, or rounds another one down. -/

theorem capByRisk_reduced (h : capByRisk settings request context price z = .ok z') :
    z' = z ∨ ∃ x, z'.quantity = quantizeDown8 x := by
  simp only [capByRisk] at h
  split at h <;> split_ifs at h <;> rw [Except.ok.injEq] at h <;> subst h
  all_goals first | exact .inl rfl | exact .inr ⟨_, rfl⟩

theorem capByPosition_reduced (h : capByPosition settings context price z = .ok z') :
    z' = z ∨ ∃ x, z'.quantity = quantizeDown8 x := by
  simp only [capByPosition] at h
  split_ifs at h
  · exact .inr (reduceTo_reduced h)
  · exact .inl (Except.ok.inj h).symm

theorem capByPortfolio_reduced (h : capByPortfolio settings context price z = .ok z') :
    z' = z ∨ ∃ x, z'.quantity = quantizeDown8 x := by
  simp only [capByPortfolio] at h
  split_ifs at h
  · exact .inr (reduceTo_reduced h)
  · exact .inl (Except.ok.inj h).symm

theorem checkSize_ok (h : checkSize request context price z = .ok z') :
    z' = z ∧ 0 < z.quantity ∧ (request.side = .buy → request.reduceOnly = false →
      z.quantity * price ≤ context.portfolio.cashBalance) := by
  simp only [checkSize] at h
  split_ifs at h with hpos hcash
  rw [Except.ok.injEq] at h
  refine ⟨h.symm, not_le.mp hpos, fun hside hreduce => not_lt.mp fun hlt => hcash ?_⟩
  exact ⟨hside, by simp [hreduce], hlt⟩

/-- The bounds on a quantity approved at a price. -/
structure Bounded (settings : RiskSettings) (request : OrderRequest) (context : RiskContext)
    (price quantity : ℚ) : Prop where
  price_pos : 0 < price
  quantity_pos : 0 < quantity
  le_requested : quantity ≤ request.quantity
  within_risk : ∀ m, riskLimit settings request context price = some m → quantity ≤ m
  within_position :
    quantity * price ≤ sizingEquity context.portfolio * settings.maxPositionExposure
  within_portfolio :
    currentNotional context + quantity * price ≤
      sizingEquity context.portfolio * settings.maxPortfolioExposure
  within_cash : request.side = .buy → request.reduceOnly = false →
    quantity * price ≤ context.portfolio.cashBalance

/-- Each cap lowers the size and leaves the bounds of the caps before it. -/
theorem approvedSize_bounded (hprice : 0 < price)
    (h : approvedSize settings request context price = .ok z) :
    Bounded settings request context price z.quantity := by
  simp only [approvedSize, Except.bind_eq_ok] at h
  obtain ⟨z₁, h₁, z₂, h₂, z₃, h₃, h₄⟩ := h
  obtain ⟨hle₁, hrisk⟩ := capByRisk_ok h₁
  obtain ⟨hle₂, hpos⟩ := capByPosition_ok hprice h₂
  obtain ⟨hle₃, hport⟩ := capByPortfolio_ok hprice h₃
  obtain ⟨rfl, hqty, hcash⟩ := checkSize_ok h₄
  have hle : z.quantity * price ≤ z₂.quantity * price := mul_le_mul_of_nonneg_right hle₃ hprice.le
  exact
    { price_pos := hprice
      quantity_pos := hqty
      le_requested := hle₃.trans (hle₂.trans hle₁)
      within_risk := fun m hm => (hle₃.trans hle₂).trans (hrisk m hm)
      within_position := hle.trans hpos
      within_portfolio := hport
      within_cash := hcash }

/-- The gates an accepted request has passed. -/
structure Passed (settings : RiskSettings) (state : RiskEngineState) (request : OrderRequest)
    (context : RiskContext) (now : Time) (price : ℚ) : Prop where
  venue : firstRefusal (venueGates settings state request context) = none
  values : firstRefusal (requestGates settings state request context now) = none
  price_eq : referencePrice request context = some price
  price_pos : 0 < price
  size : firstRefusal (sizeGates settings request context price) = none
  account : firstRefusal (accountGates settings (trimmed state now) request context now) = none

/-- What the gates on the values of a request say of it, once it has passed them. -/
theorem requestGates_pass (h : firstRefusal (requestGates settings state request context now) = none) :
    request.idempotencyKey ∉ state.seenIdempotencyKeys ∧ 0 < request.quantity ∧
      ∀ m, context.markPrice = some m → 0 < m := by
  have hgates : ∀ g ∈ requestGates settings state request context now, g.fails = false :=
    firstRefusal_eq_none.mp h
  simp only [requestGates, List.forall_mem_cons, rejectIf_fails, decide_eq_false_iff_not] at hgates
  obtain ⟨-, hunseen, hquantity, -, -, hmark, -⟩ := hgates
  refine ⟨hunseen, not_le.mp hquantity, fun m hm => ?_⟩
  simpa [hm] using hmark

/-- An accepted request has a new key. -/
theorem Passed.unseen (h : Passed settings state request context now price) :
    request.idempotencyKey ∉ state.seenIdempotencyKeys := (requestGates_pass h.values).1

theorem accept_accepts (z : Sized) : (accept z).Accepts := by
  unfold accept
  split_ifs
  · exact .inr rfl
  · exact .inl rfl

theorem accept_quantity (z : Sized) : (accept z).approvedQuantity = some z.quantity := by
  unfold accept
  split_ifs <;> rfl

theorem reject_refuses (code : RiskReasonCode) (message : String) :
    ¬ (reject code message).Accepts := by
  simp [reject, RiskEvaluation.Accepts]

/-- The codes with which a size is refused. -/
def sizeCodes : List RiskReasonCode :=
  [.maxRiskPerTrade, .maxPositionExposure, .maxPortfolioExposure, .invalidQuantity,
    .insufficientBalance]

/-- A rejection of a size. -/
def RefusesSize (e : RiskEvaluation) : Prop := ∃ code ∈ sizeCodes, ∃ message, e = reject code message

theorem RefusesSize.refuses {e : RiskEvaluation} (h : RefusesSize e) : ¬ e.Accepts := by
  obtain ⟨code, -, message, rfl⟩ := h
  exact reject_refuses code message

theorem capByRisk_error {e : RiskEvaluation}
    (h : capByRisk settings request context price z = .error e) : RefusesSize e := by
  simp only [capByRisk] at h
  split at h <;> split_ifs at h
  rw [Except.error.injEq] at h
  exact ⟨.maxRiskPerTrade, by decide, _, h.symm⟩

theorem reduceTo_error {limit : ℚ} {code : RiskReasonCode} {message : String} {e : RiskEvaluation}
    (hcode : code ∈ sizeCodes) (h : reduceTo limit price code message = .error e) :
    RefusesSize e := by
  simp only [reduceTo] at h
  split_ifs at h
  rw [Except.error.injEq] at h
  exact ⟨code, hcode, message, h.symm⟩

/-- A size is refused by a rejection, with one of its codes. -/
theorem approvedSize_error {e : RiskEvaluation}
    (h : approvedSize settings request context price = .error e) : RefusesSize e := by
  simp only [approvedSize] at h
  rcases Except.bind_eq_error.mp h with h | ⟨z₁, -, h⟩
  · exact capByRisk_error h
  rcases Except.bind_eq_error.mp h with h | ⟨z₂, -, h⟩
  · simp only [capByPosition] at h
    split_ifs at h
    exact reduceTo_error (by decide) h
  rcases Except.bind_eq_error.mp h with h | ⟨z₃, -, h⟩
  · simp only [capByPortfolio] at h
    split_ifs at h with _ hroom
    · rw [Except.error.injEq] at h
      exact ⟨.maxPortfolioExposure, by decide, _, h.symm⟩
    · exact reduceTo_error (by decide) h
  · simp only [checkSize] at h
    split_ifs at h <;> rw [Except.error.injEq] at h
    · exact ⟨.invalidQuantity, by decide, _, h.symm⟩
    · exact ⟨.insufficientBalance, by decide, _, h.symm⟩

theorem firstRefusal_append {gates gates' : List Gate} :
    firstRefusal (gates ++ gates') = none ↔
      firstRefusal gates = none ∧ firstRefusal gates' = none := by
  simp only [firstRefusal_eq_none, List.mem_append, or_imp, forall_and]

/-- A request that passes the gates and has a size is accepted, and recorded. -/
theorem evaluate_of_passed (h : Passed settings state request context now price)
    (hz : approvedSize settings request context price = .ok z) :
    evaluate settings state request context now =
      (accept z, recorded (trimmed state now) request now) := by
  simp only [evaluate, firstRefusal_append.mpr ⟨h.venue, h.values⟩, h.price_eq,
    if_neg (not_le.mpr h.price_pos), h.size, h.account, hz]

/-- **What an accepted request has passed.** -/
theorem evaluate_accepted (h : (evaluate settings state request context now).1.Accepts) :
    ∃ price z, Passed settings state request context now price ∧
      approvedSize settings request context price = .ok z ∧
      evaluate settings state request context now =
        (accept z, recorded (trimmed state now) request now) := by
  -- the stages in the order of the source: each ends the evaluation, or is passed
  simp only [evaluate] at h
  split at h
  · next hrefusal => exact absurd h (firstRefusal_refuses hrefusal)
  next hearly =>
  split at h
  · exact absurd h (reject_refuses .invalidPrice "No valid price")
  next price hprice =>
  split_ifs at h with hpos
  · exact absurd h (reject_refuses .invalidPrice "No valid price")
  split at h
  · next hrefusal => exact absurd h (firstRefusal_refuses hrefusal)
  next hsize =>
  split at h
  · next hrefusal => exact absurd h (firstRefusal_refuses hrefusal)
  next haccount =>
  split at h
  · next hz => exact absurd h (approvedSize_error hz).refuses
  next z hz =>
  obtain ⟨hvenue, hrequest⟩ := firstRefusal_append.mp hearly
  have hp : Passed settings state request context now price :=
    ⟨hvenue, hrequest, hprice, not_le.mp hpos, hsize, haccount⟩
  exact ⟨price, z, hp, hz, evaluate_of_passed hp hz⟩

variable (settings state request context now) in
/-- What an evaluation can lead to. -/
inductive Evaluates : RiskEvaluation × RiskEngineState → Prop
  /-- A check before the one of the order frequency refuses. -/
  | refused (answer : RiskEvaluation) (hrefuses : ¬answer.Accepts) : Evaluates (answer, state)
  /-- A later check refuses, when the old order times have been dropped. -/
  | refusedLate (answer : RiskEvaluation) (hrefuses : ¬answer.Accepts) :
      Evaluates (answer, trimmed state now)
  | accepted (price : ℚ) (z : Sized)
      (hpassed : Passed settings state request context now price)
      (hsize : approvedSize settings request context price = .ok z) :
      Evaluates (accept z, recorded (trimmed state now) request now)

/-- **What an evaluation leads to**: one of these. -/
theorem evaluate_evaluates :
    Evaluates settings state request context now (evaluate settings state request context now) := by
  by_cases haccepts : (evaluate settings state request context now).1.Accepts
  · obtain ⟨price, z, hpassed, hsize, heq⟩ := evaluate_accepted haccepts
    rw [heq]
    exact .accepted price z hpassed hsize
  -- a refusal leaves the state, or the state without the old order times
  have hstate : (evaluate settings state request context now).2 = state ∨
      (evaluate settings state request context now).2 = trimmed state now ∨
      (evaluate settings state request context now).1.Accepts := by
    simp only [evaluate]
    split
    · exact .inl rfl
    split
    · exact .inl rfl
    split_ifs
    · exact .inl rfl
    split
    · exact .inl rfl
    split
    · exact .inr (.inl rfl)
    split
    · exact .inr (.inl rfl)
    · exact .inr (.inr (accept_accepts _))
  generalize evaluate settings state request context now = r at haccepts hstate
  obtain ⟨answer, after⟩ := r
  rcases hstate with rfl | rfl | haccepted
  · exact .refused answer haccepts
  · exact .refusedLate answer haccepts
  · exact absurd haccepted haccepts

end Risk

end Atlas
