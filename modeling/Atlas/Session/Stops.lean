import Atlas.Backtest.Engine
import Atlas.Lib.Unwinding
import Atlas.Paper.Twins
import Atlas.Session.Account
import Atlas.Session.Intake
import Atlas.Session.SaleJournal
import Atlas.Session.Twins

/-!
# Stops and targets on the paper path

A BUY signal may suggest a stop loss and a take profit.  The orchestrator writes both into
the request, where the risk engine reads the stop to size the order, and nothing reads them
later: the position that the fill opens has neither, and no candle is compared with them.
The backtester keeps both in its position and closes it on the first later bar that touches
one of them.

Here several orchestrators trade on one session, and every run has a record of what the
code forgets: for each position that was opened, the candle and the suggestions of its BUY
signal.  A candle is missed if the backtester would have closed the position on it, the
closing order would have passed the risk engine in full, and the position is still there
after the cycle.

## Main definitions

* `FillsWhole` — the simulated venue executes an order in one piece.
* `Entry`, `Entry.TouchedBy` — what a BUY signal suggests, and the candles that touch it.
* `StopRun`, `StopRun.after` — the runs, with their records.
* `StopRun.Due`, `StopRun.Sold` — the position should be closed; the strategy sells it.

## Main results

* `submitAfterLatency_flat_iff` — when a SELL of a whole position closes it.
* `StopRun.flat_iff` — **a touched position is closed if and only if the strategy sells it**.
* `stops_kept_iff` — **a run misses no candle if and only if the strategies sell on all of
  those that are due**.

## References

`app/services/trading_orchestrator.py`, `app/execution/paper/engine.py`,
`app/backtesting/engine.py`.
-/

namespace Atlas

open Quantize Session Unwinding

/-! ### The sale of a whole position -/

namespace Paper

variable {cfg : PaperConfig} {s : PaperState} {request : OrderRequest} {risk : RiskEvaluation}
  {p : Position} {mark roll : ℚ} {now : Time}

/-- The simulated venue executes a market order in one piece: it is not drawn to be
rejected, and no part of it is left. -/
def FillsWhole (cfg : PaperConfig) (quantity roll : ℚ) : Prop :=
  ¬(0 < cfg.rejectProbability ∧ roll < cfg.rejectProbability) ∧
    quantizeDown8 (quantity * cfg.partialFillFraction) = quantity

instance (quantity roll : ℚ) : Decidable (FillsWhole cfg quantity roll) :=
  inferInstanceAs (Decidable (¬_ ∧ _))

theorem soldPositions_eq_none (positions : Dict String Position) (symbol : String)
    (qty price fee : ℚ) :
    (soldPositions positions symbol p qty price fee).get? symbol = none ↔ qty = p.quantity := by
  unfold soldPositions
  dsimp only
  split_ifs with hrest
  · rw [Dict.get?_erase, if_pos rfl]
    simp only [true_iff]
    linarith
  · rw [Dict.get?_set_self]
    simp only [reduceCtorEq, false_iff]
    intro heq
    exact hrest (by rw [heq, sub_self])

/-- The execution of a SELL leaves no position if it is of the whole one. -/
theorem immediate_flat_iff (hside : request.side = .sell)
    (hp : s.positions.get? request.symbol = some p) (hpos : 0 < p.quantity) :
    ((immediateAttempt cfg (submitted s request risk now).2 (submitted s request risk now).1
        request risk mark now).apply cfg).2.positions.get? request.symbol = none ↔
      immediateQty cfg request = p.quantity := by
  have hlive : (submitted s request risk now).1.status ≠ .failed := by
    rw [show (submitted s request risk now).1.status = .submitted from rfl]
    decide
  have hbooked : (immediateAttempt cfg (submitted s request risk now).2
      (submitted s request risk now).1 request risk mark now).Booked cfg _ :=
    Attempt.apply_booked hlive
  generalize Attempt.apply cfg _ = r at hbooked ⊢
  cases hbooked with
  | refused books hfail =>
    have hpositions : r.2.positions = s.positions := books.positions
    rw [hpositions, hp]
    refine iff_of_false (Option.some_ne_none p) fun hall => ?_
    -- an order in one piece is covered by the position
    rcases hfail with hle | hno
    · exact absurd hpos (not_lt.mpr (hall ▸ hle))
    · refine hno (.inr ?_)
      simp only [immediateAttempt, submitted, update, newOrder, created, hside, held, hp]
      exact hall.le
  | bought _ hbuy =>
    have hbuy : request.side = .buy := hbuy
    rw [hside] at hbuy
    cases hbuy
  | sold q _ _ hq _ _ _ hpositions =>
    have hq : s.positions.get? request.symbol = some q := hq
    obtain rfl : p = q := Option.some.inj (hp.symm.trans hq)
    have hpositions : r.2.positions = soldPositions s.positions request.symbol p
        (immediateQty cfg request) _ _ := hpositions
    rw [hpositions, soldPositions_eq_none]

/-- **When a SELL of the whole position closes it**: the venue executes it in one piece. -/
theorem submitAfterLatency_flat_iff (htype : request.orderType = .market)
    (hside : request.side = .sell) (hmark : s.markPrices.get? request.symbol = some mark)
    (hopen : ¬(risk.decision = .rejected ∨ risk.decision = .halted))
    (hp : s.positions.get? request.symbol = some p) (hqty : request.quantity = p.quantity)
    (hpos : 0 < p.quantity) :
    (submitAfterLatency cfg s request risk roll now).2.positions.get? request.symbol = none ↔
      FillsWhole cfg p.quantity roll := by
  rw [submitAfterLatency_market htype hmark, if_neg hopen]
  dsimp only
  by_cases hdrawn : 0 < cfg.rejectProbability ∧ roll < cfg.rejectProbability
  · have hheld : s.positions.get? request.symbol ≠ none := by
      rw [hp]
      exact Option.some_ne_none p
    rw [if_pos hdrawn]
    exact iff_of_false hheld fun hwhole => hwhole.1 hdrawn
  have hreserve : reserveFor (submitted s request risk now).2 (submitted s request risk now).1
      request risk (some mark) now =
        (((submitted s request risk now).1, true), (submitted s request risk now).2) := by
    simp only [reserveFor, hside]
  rw [if_neg hdrawn, hreserve]
  simp only [if_true]
  rw [executeFill_eq, immediate_flat_iff hside hp hpos, immediateQty, hqty]
  exact ⟨fun hall => ⟨hdrawn, hall⟩, And.right⟩

end Paper

/-! ### Sessions with market orders only -/

namespace Session

/-- The ledger has market orders only, and the risk engine has seen their keys. -/
structure MarketOnly (s : Session) : Prop where
  ledger : Paper.MarketLedger s.paper
  indexed : ∀ k j, s.paper.idempotencyIndex.get? k = some j → k ∈ s.risk.seenIdempotencyKeys

variable {settings : RiskSettings} {cfg : PaperConfig} {s : Session} {request : OrderRequest}
  {context : RiskContext} {around : Surroundings}

theorem MarketOnly.fresh : MarketOnly (fresh settings cfg) where
  ledger := .fresh ∅
  indexed := fun _ _ hget => by cases hget

/-- Marks do not change that. -/
theorem MarketOnly.markedAll {now : Time} (h : s.MarketOnly) (marks : List (String × ℚ)) :
    MarketOnly { s with paper := Paper.markAll cfg now s.paper marks } := by
  obtain ⟨prices, positions, heq, -⟩ := h.ledger.markAll_eq cfg now marks
  refine ⟨h.ledger.markedAll marks, ?_⟩
  rw [heq]
  exact h.indexed

theorem MarketOnly.marked {now : Time} (h : s.MarketOnly) (symbol : String) (price : ℚ) :
    MarketOnly { s with paper := Paper.setMarkPrice cfg s.paper symbol price now } :=
  h.markedAll [(symbol, price)]

/-- **A market order through the gateway does not change that either.** -/
theorem MarketOnly.gateway (h : s.MarketOnly) (htype : request.orderType = .market) :
    MarketOnly (gatewaySubmit settings cfg s request context around).2.2 := by
  have hsends := @gatewaySubmit_sends settings cfg s request context around
  generalize gatewaySubmit settings cfg s request context around = r at hsends ⊢
  generalize gatewayOps settings s request context around = ops at hsends
  cases hsends with
  | refused _ _ hpaper hseen =>
    refine ⟨hpaper ▸ h.ledger, ?_⟩
    rw [hpaper, hseen]
    exact h.indexed
  | sent _ e hunseen _ hpaper hseen =>
    obtain ⟨hkey, -, hsame⟩ := approvedRequest_same request e
    -- the risk engine has not seen the key, so the ledger does not know it
    have hnew :
        s.paper.idempotencyIndex.get? (approvedRequest request e).idempotencyKey = none := by
      rw [hkey, Option.eq_none_iff_forall_not_mem]
      exact fun j hj => hunseen (h.indexed _ j hj)
    have hsubmit : r.2.2.paper = (Paper.submitAfterLatency cfg s.paper (approvedRequest request e)
        e around.roll around.now).2 := by
      rw [hpaper, Paper.submit, hnew]
    refine ⟨hsubmit ▸ h.ledger.submit (hsame.trans htype), fun k j hget => ?_⟩
    obtain ⟨-, -, -, -, -, hindex⟩ := @Paper.submitAfterLatency_stores cfg s.paper e around.now
      (approvedRequest request e) around.roll
    rw [hsubmit, hindex, Dict.get?_set, hkey] at hget
    rw [hseen]
    split_ifs at hget with hk
    · exact hk ▸ List.mem_cons_self ..
    · exact List.mem_cons_of_mem _ (h.indexed k j hget)

end Session

/-! ### What a BUY signal suggests -/

/-- The candle whose BUY signal opened a position, and the stop and the target that the
signal suggested. -/
structure Entry where
  openTime : Time
  stop : Option ℚ
  target : Option ℚ
  deriving DecidableEq, Repr, Inhabited

/-- A later candle touches the stop or the target. -/
def Entry.TouchedBy (entry : Entry) (candle : Candle) : Prop :=
  entry.openTime < candle.openTime ∧
    (entry.stop.any (candle.low ≤ ·) = true ∨ entry.target.any (· ≤ candle.high) = true)

instance (entry : Entry) (candle : Candle) : Decidable (entry.TouchedBy candle) :=
  inferInstanceAs (Decidable (_ ∧ _))

/-- The position as the backtester holds it. -/
def Entry.backtested (entry : Entry) (p : Position) : Position :=
  { p with openedAt := entry.openTime, stopLoss := entry.stop, takeProfit := entry.target }

theorem checkStopTake_eq_none {p : Position} {candle : Candle} :
    Backtest.checkStopTake p candle = none ↔
      ¬(p.stopLoss.any (candle.low ≤ ·) = true ∨ p.takeProfit.any (· ≤ candle.high) = true) := by
  unfold Backtest.checkStopTake
  split_ifs with hlow hhigh
  · cases hstop : p.stopLoss with
    | none =>
      rw [hstop] at hlow
      cases hlow
    | some stop =>
      rw [hstop] at hlow
      simp [hlow]
  · cases htarget : p.takeProfit with
    | none =>
      rw [htarget] at hhigh
      cases hhigh
    | some target =>
      rw [htarget] at hhigh
      simp [hhigh]
  · simp [hlow, hhigh]

/-- **The backtester closes a position on the candles that touch its entry**, and on no
other. -/
theorem Entry.checkStops_flat_iff {A : Arithmetic ℚ} {entry : Entry} {p : Position}
    {config : BacktestConfig} {candle : Candle} {s : Backtest.LoopState}
    (hp : s.position = some (entry.backtested p)) :
    (Backtest.checkStops A config candle s).position = none ↔ entry.TouchedBy candle := by
  have hheld : s.position ≠ none := by
    rw [hp]
    exact Option.some_ne_none _
  unfold Backtest.checkStops
  rw [hp]
  dsimp only
  by_cases hlater : entry.openTime < candle.openTime
  swap
  · rw [if_neg (by exact hlater)]
    exact iff_of_false hheld fun htouched => hlater htouched.1
  rw [if_pos (by exact hlater)]
  cases htaken : Backtest.checkStopTake (entry.backtested p) candle with
  | none => exact iff_of_false hheld fun htouched => checkStopTake_eq_none.mp htaken htouched.2
  | some exit =>
    refine iff_of_true rfl ⟨hlater, ?_⟩
    by_contra hno
    rw [checkStopTake_eq_none.mpr hno] at htaken
    cases htaken

/-! ### The sale of a signal -/

/-- The order that a SELL or EXIT signal sends for a position. -/
def exitOrder (input : CycleInput) (p : Position) : OrderRequest :=
  Runtime.marketRequest input .sell p.quantity
    (some (quantize (1 / 100) (input.close * (999 / 1000)))) none true

/-- With a position, SELL and EXIT send its sale, and the other signals nothing. -/
theorem actingRequest_held {paper : PaperState} {input : CycleInput} {p : Position}
    {signal : TradeSignal} (hp : paper.positions.get? input.symbol = some p)
    (hpos : 0 < p.quantity) (haccepted : input.accepted = true)
    (hpaused : ¬input.tradingPaused = true) (hsignal : input.signal = some signal) :
    Runtime.actingRequest paper input =
      if (signal.direction = .sell ∨ signal.direction = .exit) ∧ ¬input.seen = true then
        some (exitOrder input p)
      else none := by
  have hsend : Runtime.signalRequest paper input signal =
      if signal.direction = .sell ∨ signal.direction = .exit then some (exitOrder input p)
      else none := by
    unfold Runtime.signalRequest
    rw [hp]
    cases signal.direction <;> rfl
  have hquantity : (exitOrder input p).quantity = p.quantity := rfl
  unfold Runtime.actingRequest
  rw [hsignal, Option.bind_some, hsend]
  by_cases hseen : input.seen = true
  · simp [hseen]
  · rw [if_pos ⟨haccepted, hseen, hpaused⟩]
    split_ifs with hsells hboth hboth
    · simp [Option.filter, hquantity, hpos]
    · exact absurd ⟨hsells, hseen⟩ hboth
    · exact absurd hboth.1 hsells
    · rfl

/-- An accepted request has a positive quantity. -/
theorem Risk.Passed.quantity_pos {settings : RiskSettings} {state : RiskEngineState}
    {request : OrderRequest} {context : RiskContext} {now : Time} {price : ℚ}
    (h : Passed settings state request context now price) : 0 < request.quantity :=
  (requestGates_pass h.values).2.1

/-- **When an approved sale closes its position.** -/
theorem Session.gatewaySubmit_flat_iff {settings : RiskSettings} {cfg : PaperConfig} {s : Session}
    {request : OrderRequest} {context : RiskContext} {around : Surroundings} {p : Position} {mark : ℚ}
    (h : s.MarketOnly) (htype : request.orderType = .market) (hside : request.side = .sell)
    (hmark : s.paper.markPrices.get? request.symbol = some mark)
    (hp : s.paper.positions.get? request.symbol = some p) (hqty : request.quantity = p.quantity)
    (happroved :
      (Risk.evaluate settings s.risk request context around.now).1.decision = .approved) :
    (gatewaySubmit settings cfg s request context around).2.2.paper.positions.get? request.symbol =
        none ↔ Paper.FillsWhole cfg p.quantity around.roll := by
  obtain ⟨price, z, hpassed, -, -⟩ := Risk.evaluate_accepted (.inl happroved)
  have hnew : s.paper.idempotencyIndex.get? request.idempotencyKey = none := by
    rw [Option.eq_none_iff_forall_not_mem]
    exact fun j hj => hpassed.unseen (h.indexed _ j hj)
  unfold gatewaySubmit
  dsimp only
  generalize Risk.evaluate settings s.risk request context around.now = r at happroved ⊢
  have hopen : ¬(r.1.decision = .rejected ∨ r.1.decision = .halted) := by
    rw [happroved]
    decide
  have hsame : approvedRequest request r.1 = request := by
    unfold approvedRequest
    rw [happroved]
  rw [if_neg hopen, hsame, Paper.submit, hnew]
  exact Paper.submitAfterLatency_flat_iff htype hside hmark hopen hp hqty
    (hqty ▸ hpassed.quantity_pos)

/-! ### A candle and a position -/

theorem gatewaySubmit_risk {settings : RiskSettings} {cfg : PaperConfig} {s : Session}
    {request : OrderRequest} {context : RiskContext} {around : Surroundings} :
    (gatewaySubmit settings cfg s request context around).2.2.risk =
      (Risk.evaluate settings s.risk request context around.now).2 := by
  simp only [gatewaySubmit]
  split_ifs <;> rfl

/-- A signal of a direction and nothing else. -/
def plainDecision (direction : SignalDirection) : StrategyDecision where
  signal := { direction := direction }
  fingerprint := ""

namespace TradingOrchestrator

variable (d : Deployment) (t : TradingOrchestrator) (feed : CandleFeed)

/-- The gates are open for the sale of the position: trading is not paused, and under the
key of either direction the risk engine approves the sale in full. -/
def GatesOpen (p : Position) : Prop :=
  ¬feed.tradingPaused = true ∧
    ∀ direction ∈ [SignalDirection.sell, .exit],
      let t := taken d t feed
      let input := t.cycleInput feed (plainDecision direction)
      (Risk.evaluate d.settings t.session.risk (exitOrder input p)
        (Runtime.cycleContext d t.session.paper input) feed.around.now).1.decision = .approved

instance (p : Position) : Decidable (GatesOpen d t feed p) := inferInstanceAs (Decidable (_ ∧ _))

/-- The strategy sells: it answers SELL or EXIT, and has not been acted on for the same
data before. -/
def Sells : Prop :=
  (feed.evaluate (strategyContext d t feed)).any (fun decision =>
    (decision.signal.direction = .sell ∨ decision.signal.direction = .exit) ∧
      decision.fingerprint ∉ t.state.seenSignalFps) = true

instance : Decidable (Sells d t feed) := inferInstanceAs (Decidable (_ = true))

variable {d t feed} {p : Position}

/-- The session after the strategy has answered. -/
theorem act_session (decision : StrategyDecision) :
    (act d t feed decision).trader.session =
      (Runtime.actingRequest t.session.paper (t.cycleInput feed decision)).elim t.session
        fun request => (gatewaySubmit d.settings d.paper t.session request
          (Runtime.cycleContext d t.session.paper (t.cycleInput feed decision)) feed.around).2.2 := by
  have hsame : (t.counted decision).cycleInput feed decision = t.cycleInput feed decision := rfl
  have hsession : (t.counted decision).session = t.session := rfl
  unfold act
  dsimp only
  rw [hsame, hsession]
  cases Runtime.actingRequest t.session.paper (t.cycleInput feed decision) with
  | none => rfl
  | some request =>
    have hsend : (send d (t.counted decision) feed decision request).2.session =
        (gatewaySubmit d.settings d.paper t.session request
          (Runtime.cycleContext d t.session.paper (t.cycleInput feed decision)) feed.around).2.2 := by
      unfold send
      dsimp only
      rw [hsame, hsession]
      split_ifs
      · rfl
      · split <;> rfl
    rw [Option.elim_some, ← hsend]
    dsimp only
    generalize send d (t.counted decision) feed decision request = sent
    obtain ⟨order, after⟩ := sent
    cases order <;> rfl

/-- **The session after a candle that is taken.** -/
theorem processCandle_session (htakes : t.Takes feed) :
    (processCandle d t feed).trader.session =
      (feed.evaluate (strategyContext d t feed)).elim (taken d t feed).session fun decision =>
        (Runtime.actingRequest (taken d t feed).session.paper
            ((taken d t feed).cycleInput feed decision)).elim (taken d t feed).session fun request =>
          (gatewaySubmit d.settings d.paper (taken d t feed).session request
            (Runtime.cycleContext d (taken d t feed).session.paper
              ((taken d t feed).cycleInput feed decision)) feed.around).2.2 := by
  rw [processCandle_of_none htakes]
  unfold processTaken
  dsimp only
  rw [show strategyContext d t.received feed = strategyContext d t feed from rfl]
  cases feed.evaluate (strategyContext d t feed) with
  | none => rfl
  | some decision => exact act_session decision

theorem taken_seenSignalFps : (taken d t feed).state.seenSignalFps = t.state.seenSignalFps := by
  simp only [taken, Orchestrator.portfolioState, Orchestrator.countBar]
  split_ifs <;> rfl

theorem taken_sessionId : (taken d t feed).state.sessionId = t.state.sessionId := by
  simp only [taken, Orchestrator.portfolioState, Orchestrator.countBar]
  split_ifs <;> rfl

/-- A candle sends no order but market orders. -/
theorem processCandle_marketOnly (h : t.session.MarketOnly) :
    (processCandle d t feed).trader.session.MarketOnly := by
  cases hreason : t.state.rejectReason feed.candle feed.around.now with
  | some reason =>
    rw [processCandle_rejected hreason]
    exact h
  | none =>
    have hmarked : (taken d t feed).session.MarketOnly := h.marked feed.candle.symbol feed.candle.close
    rw [processCandle_session hreason]
    cases feed.evaluate (strategyContext d t feed) with
    | none => exact hmarked
    | some decision =>
      rw [Option.elim_some]
      cases hrequest : Runtime.actingRequest (taken d t feed).session.paper
          ((taken d t feed).cycleInput feed decision) with
      | none => exact hmarked
      | some request => exact hmarked.gateway (Runtime.actingRequest_market hrequest).1

/-- A candle shows the risk engine the keys of its own orders only. -/
theorem processCandle_keys {k : String}
    (hk : k ∈ (processCandle d t feed).trader.session.risk.seenIdempotencyKeys) :
    k ∈ t.session.risk.seenIdempotencyKeys ∨ ∃ (o : Orchestrator) (direction : SignalDirection),
      o.sessionId = t.state.sessionId ∧ k = o.clientOrderId feed.candle direction := by
  cases hreason : t.state.rejectReason feed.candle feed.around.now with
  | some reason =>
    rw [processCandle_rejected hreason] at hk
    exact .inl hk
  | none =>
    rw [processCandle_session hreason] at hk
    cases hanswer : feed.evaluate (strategyContext d t feed) with
    | none =>
      rw [hanswer] at hk
      exact .inl hk
    | some decision =>
      rw [hanswer, Option.elim_some] at hk
      cases hrequest : Runtime.actingRequest (taken d t feed).session.paper
          ((taken d t feed).cycleInput feed decision) with
      | none =>
        rw [hrequest] at hk
        exact .inl hk
      | some request =>
        rw [hrequest, Option.elim_some, gatewaySubmit_risk] at hk
        rcases Risk.evaluate_seen hk with hown | hold
        · refine .inr ⟨(taken d t feed).state, decision.signal.direction, taken_sessionId, ?_⟩
          exact hown.trans (Runtime.actingRequest_market hrequest).2.2.1
        · exact .inl hold

/-- The gates are open for both directions if the keys are new, and the sale is approved
under some other key by an engine that has seen none. -/
theorem gatesOpen_of_unseen (hpaused : ¬feed.tradingPaused = true)
    (hnew : ∀ direction, (taken d t feed).state.clientOrderId feed.candle direction ∉
      t.session.risk.seenIdempotencyKeys)
    (happroved : let input := (taken d t feed).cycleInput feed (plainDecision .sell)
      (Risk.evaluate d.settings { t.session.risk with seenIdempotencyKeys := [] }
        { exitOrder input p with idempotencyKey := "", clientOrderId := none }
        (Runtime.cycleContext d (taken d t feed).session.paper input)
        feed.around.now).1.decision = .approved) :
    GatesOpen d t feed p := by
  refine ⟨hpaused, fun direction _ => ?_⟩
  have hengine : Risk.SameEngine (fun _ => False) t.session.risk
      { t.session.risk with seenIdempotencyKeys := [] } :=
    ⟨t.session.risk.recentOrderTimes, [], t.session.risk.lastMarketDataTs, rfl, [], rfl,
      fun _ hno => (List.not_mem_nil hno).elim⟩
  have hrequest : Paper.SameRequest
      (exitOrder ((taken d t feed).cycleInput feed (plainDecision direction)) p)
      { exitOrder ((taken d t feed).cycleInput feed (plainDecision direction)) p with
        idempotencyKey := "", clientOrderId := none } := ⟨"", none, rfl⟩
  obtain ⟨hsame, -⟩ := @Risk.evaluate_twin d.settings _ _ _ _
    (Runtime.cycleContext d (taken d t feed).session.paper
      ((taken d t feed).cycleInput feed (plainDecision direction)))
    feed.around.now _ hengine hrequest rfl (fun _ hno => hno.elim) (hnew direction) List.not_mem_nil
  exact (congrArg RiskEvaluation.decision hsame).trans happroved

/-- A candle marks the position of its symbol, and no order rests that the mark could
trigger. -/
theorem taken_position (h : t.session.MarketOnly)
    (hp : t.session.paper.positions.get? feed.candle.symbol = some p) :
    ∃ q, (taken d t feed).session.paper.positions.get? feed.candle.symbol = some q ∧
      q.quantity = p.quantity := by
  have hmarked : (taken d t feed).session.paper =
      Paper.markState t.session.paper feed.candle.symbol feed.candle.close :=
    (h.ledger.quiet _ _).setMarkPrice_eq _
  rw [hmarked, Paper.markState, Paper.markPositions, hp]
  exact ⟨_, Dict.get?_set_self .., rfl⟩

/-- **When a candle closes a position whose sale the gates are open for**: if and only if
the strategy sells, and the venue executes the sale in one piece. -/
theorem processCandle_flat_iff (h : t.session.MarketOnly) (htakes : t.Takes feed)
    (hp : t.session.paper.positions.get? feed.candle.symbol = some p)
    (hgates : GatesOpen d t feed p) :
    (processCandle d t feed).trader.session.paper.positions.get? feed.candle.symbol = none ↔
      Sells d t feed ∧ Paper.FillsWhole d.paper p.quantity feed.around.roll := by
  obtain ⟨hpaused, happroved⟩ := hgates
  obtain ⟨q, hq, hqty⟩ := @taken_position d t feed p h hp
  have hheld : (taken d t feed).session.paper.positions.get? feed.candle.symbol ≠ none := by
    rw [hq]
    exact Option.some_ne_none q
  have hmarked : (taken d t feed).session.MarketOnly := h.marked feed.candle.symbol feed.candle.close
  have hmark : (taken d t feed).session.paper.markPrices.get? feed.candle.symbol =
      some feed.candle.close := h.ledger.markPrices feed.candle.symbol feed.candle.close
  have hpos : 0 < q.quantity := by
    obtain ⟨price, z, hpassed, -, -⟩ := Risk.evaluate_accepted (.inl (happroved .sell (by simp)))
    exact hqty ▸ hpassed.quantity_pos
  rw [processCandle_session htakes, Sells]
  cases feed.evaluate (strategyContext d t feed) with
  | none => exact iff_of_false hheld fun hno => by cases hno.1
  | some decision =>
    have hacts := @actingRequest_held _ ((taken d t feed).cycleInput feed decision) q _ hq hpos rfl
      hpaused rfl
    have hseen : ((taken d t feed).cycleInput feed decision).seen = true ↔
        decision.fingerprint ∈ t.state.seenSignalFps := by
      rw [← @taken_seenSignalFps d t feed]
      exact decide_eq_true_iff
    simp only [hseen] at hacts
    simp only [Option.elim_some, Option.any_some, decide_eq_true_eq]
    rw [hacts]
    split_ifs with hsells
    · -- the sale is the one that the gates are open for
      have hevaluated := happroved decision.signal.direction (by rcases hsells.1 with h | h <;> simp [h])
      have hsale : exitOrder ((taken d t feed).cycleInput feed decision) q =
          exitOrder ((taken d t feed).cycleInput feed (plainDecision decision.signal.direction)) p := by
        unfold exitOrder
        rw [hqty]
        rfl
      rw [Option.elim_some, hsale, ← hqty, and_iff_right hsells]
      exact Session.gatewaySubmit_flat_iff hmarked rfl rfl hmark hq hqty.symm hevaluated
    · exact iff_of_false hheld fun hboth => hsells hboth.1

end TradingOrchestrator

/-! ### Runs -/

/-- What happens to an account while strategies trade on it. -/
inductive StrategyAction (ι : Type*)
  | prime (i : ι) (candles : List Candle) (now : Time)
  | processCandle (i : ι) (feed : CandleFeed)
  /-- An orchestrator is created, or its settings are written. -/
  | replace (i : ι) (t : TradingOrchestrator)
  /-- The breaker, the flags of health and the time of the data are written from outside;
  the order times and the keys are not. -/
  | assign (fields : RiskEngineState)

/-- An account, the entries of its positions, and the candles it has missed. -/
structure StopRun (ι : Type*) where
  account : Account ι
  entries : Dict String Entry := ∅
  missed : List Candle := []

/-- The entries after a candle: a position that the BUY signal of the candle opened has one,
and keeps it until it is closed. -/
def entriesAfter (entries : Dict String Entry) (candle : Candle) (answer : Option StrategyDecision)
    (before after : Option Position) : Dict String Entry :=
  match before, after, answer with
  | _, none, _ => entries.erase candle.symbol
  | none, some _, some { signal := { direction := .buy, suggestedStop, suggestedTarget }, .. } =>
      entries.set candle.symbol
        { openTime := candle.openTime, stop := suggestedStop, target := suggestedTarget }
  | _, _, _ => entries

namespace StopRun

variable {ι : Type*} [DecidableEq ι] (d : Deployment) (run : StopRun ι)

/-- The position of a symbol. -/
def positionOf (symbol : String) : Option Position :=
  run.account.session.paper.positions.get? symbol

/-- The position should be closed on the candle: it is accepted, it touches the stop or the
target of the position, and the gates are open. -/
def Due (i : ι) (feed : CandleFeed) : Prop :=
  (run.account.trader i).Takes feed ∧
    (run.entries.get? feed.candle.symbol).any (fun entry => entry.TouchedBy feed.candle) = true ∧
    (run.positionOf feed.candle.symbol).any
      (fun p => (run.account.trader i).GatesOpen d feed p) = true

instance (i : ι) (feed : CandleFeed) : Decidable (run.Due d i feed) :=
  inferInstanceAs (Decidable (_ ∧ _ ∧ _))

/-- The strategy sells the position, and the venue executes the sale in one piece. -/
def Sold (i : ι) (feed : CandleFeed) : Prop :=
  (run.account.trader i).Sells d feed ∧
    (run.positionOf feed.candle.symbol).any
      (fun p => Paper.FillsWhole d.paper p.quantity feed.around.roll) = true

instance (i : ι) (feed : CandleFeed) : Decidable (run.Sold d i feed) :=
  inferInstanceAs (Decidable (_ ∧ _))

/-- The run after an action. -/
def after : StrategyAction ι → StopRun ι
  | .prime i candles now => { run with account := run.account.step d (.prime i candles now) }
  | .processCandle i feed =>
      let account := run.account.step d (.processCandle i feed)
      let position := account.session.paper.positions.get? feed.candle.symbol
      { account := account
        entries := entriesAfter run.entries feed.candle
          (feed.evaluate ((run.account.trader i).strategyContext d feed))
          (run.positionOf feed.candle.symbol) position
        missed :=
          if run.Due d i feed ∧ position.isSome = true then feed.candle :: run.missed
          else run.missed }
  | .replace i t => { run with account := run.account.called i { t with session := run.account.session } }
  | .assign fields =>
      let risk := run.account.session.risk
      { run with
        account := { run.account with
          session := { run.account.session with
            risk := { fields with
              recentOrderTimes := risk.recentOrderTimes
              seenIdempotencyKeys := risk.seenIdempotencyKeys } } } }

/-- A new session, with some orchestrators. -/
def start (traders : ι → TradingOrchestrator) : StopRun ι where
  account := { session := fresh d.settings d.paper, traders := traders }

/-- Where the position should be closed, its strategy sells it. -/
def Meets : StrategyAction ι → Prop
  | .processCandle i feed => run.Due d i feed → run.Sold d i feed
  | _ => True

instance (action : StrategyAction ι) : Decidable (run.Meets d action) :=
  match action with
  | .prime _ _ _ => inferInstanceAs (Decidable True)
  | .processCandle _ _ => inferInstanceAs (Decidable (_ → _))
  | .replace _ _ => inferInstanceAs (Decidable True)
  | .assign _ => inferInstanceAs (Decidable True)

variable {d run}

/-- **A position that should be closed is closed if and only if its strategy sells it.** -/
theorem flat_iff {i : ι} {feed : CandleFeed} (h : run.account.session.MarketOnly)
    (hdue : run.Due d i feed) :
    (run.account.step d (.processCandle i feed)).session.paper.positions.get? feed.candle.symbol =
      none ↔ run.Sold d i feed := by
  obtain ⟨htakes, -, hgates⟩ := hdue
  obtain ⟨p, hp, hopen⟩ := (Option.any_eq_true ..).mp hgates
  have hflat := TradingOrchestrator.processCandle_flat_iff (t := run.account.trader i) h htakes hp
    (of_decide_eq_true hopen)
  have hwhole : (run.positionOf feed.candle.symbol).any
      (fun p => Paper.FillsWhole d.paper p.quantity feed.around.roll) = true ↔
        Paper.FillsWhole d.paper p.quantity feed.around.roll := by
    rw [hp, Option.any_some, decide_eq_true_eq]
  rw [Sold, hwhole]
  exact hflat

/-- **What an action keeps**: no action sends any order but market orders. -/
theorem after_marketOnly (h : run.account.session.MarketOnly) (action : StrategyAction ι) :
    (run.after d action).account.session.MarketOnly := by
  cases action with
  | prime i candles now =>
    show MarketOnly { run.account.session with
      paper := ((run.account.trader i).state.primeCandles d.paper now run.account.session.paper
        candles).paper }
    rw [Orchestrator.primeCandles_paper]
    exact h.markedAll _
  | processCandle i feed =>
    exact TradingOrchestrator.processCandle_marketOnly (t := run.account.trader i) h
  | replace i t => exact h
  | assign fields => exact ⟨h.ledger, h.indexed⟩

/-- **A run misses a candle on an action that does not meet the condition**, and on no
other. -/
theorem after_missed (h : run.account.session.MarketOnly) (action : StrategyAction ι) :
    (run.after d action).missed = [] ↔ run.missed = [] ∧ run.Meets d action := by
  cases action with
  | prime i candles now => exact (and_iff_left trivial).symm
  | replace i t => exact (and_iff_left trivial).symm
  | assign fields => exact (and_iff_left trivial).symm
  | processCandle i feed =>
    simp only [after, Meets]
    by_cases hdue : run.Due d i feed
    · have hflat := flat_iff h hdue
      rw [← hflat]
      cases (run.account.step d (.processCandle i feed)).session.paper.positions.get?
          feed.candle.symbol with
      | none => simp
      | some p => simp [hdue]
    · simp [hdue]

/-- **When a run misses no candle**, from a session with market orders only: exactly when
all its actions meet the condition. -/
theorem foldl_missed (actions : List (StrategyAction ι)) : ∀ {run : StopRun ι},
    run.account.session.MarketOnly →
    ((actions.foldl (after d) run).missed = [] ↔
      run.missed = [] ∧ Guarded (after d) (Meets d) run actions) := by
  induction actions with
  | nil => exact fun _ => (and_iff_left trivial).symm
  | cons action actions ih =>
    intro run h
    rw [List.foldl_cons, ih (after_marketOnly h action), after_missed h action, and_assoc]
    rfl

end StopRun

/-- **Stops and targets are not kept by the paper path, but by the strategies.**  In a run
of cycles on a new session, each position that was opened by a BUY signal is closed on every
later candle that touches its stop or its target while the gates are open, if and only if on
each such candle the strategy itself sells the position and the venue executes the sale in
one piece.  The candles that touch a stop or a target are those on which the backtester
closes the position. -/
theorem stops_kept_iff {ι : Type*} [DecidableEq ι] (d : Deployment)
    (traders : ι → TradingOrchestrator) (actions : List (StrategyAction ι)) :
    ((actions.foldl (StopRun.after d) (.start d traders)).missed = [] ↔
      Guarded (StopRun.after d) (StopRun.Meets d) (.start d traders) actions) ∧
      ∀ (A : Arithmetic ℚ) (entry : Entry) (p : Position) (config : BacktestConfig)
        (candle : Candle) (s : Backtest.LoopState), s.position = some (entry.backtested p) →
          ((Backtest.checkStops A config candle s).position = none ↔ entry.TouchedBy candle) := by
  refine ⟨?_, fun A entry p config candle s hp => Entry.checkStops_flat_iff hp⟩
  rw [StopRun.foldl_missed actions MarketOnly.fresh]
  exact and_iff_right rfl

/-! ### A stop that is touched -/

namespace StopRun

/-- A candle that opens at a minute and closes at 100, above a low. -/
def dippingCandle (minute : ℤ) (low : ℚ) : Candle where
  symbol := "BTC/USDT"
  timeframe := "1m"
  openTime := seconds (60 * minute)
  openPrice := 100
  high := 100
  low := low
  close := 100
  volume := 1

/-- The first candle is bought with a stop at 95, and then the strategy holds. -/
def stopStrategy : BacktestStrategy where
  name := "stop"
  version := "1"
  strategyId := "stop"
  evaluate := fun ctx =>
    { signal :=
        if ctx.candles.length = 1 then { direction := .buy, suggestedStop := some 95 }
        else { direction := .hold }
      fingerprint := toString ctx.candles.length }
  entryRationale := fun _ => "first"

/-- A candle at its minute. -/
def stopFeed (candle : Candle) : CandleFeed where
  candle := candle
  strategyName := stopStrategy.name
  evaluate := fun ctx => some (stopStrategy.evaluate ctx)
  around := { now := candle.openTime, seriesMark := candle.close }

/-- A new account with one orchestrator. -/
def idle : StopRun Unit :=
  start FeedRun.defaultDeployment fun _ =>
    .fresh FeedRun.defaultDeployment "session1" false none (1 / 10)
      (Session.fresh {} FeedRun.defaultDeployment.paper)

/-- The account after the candle that is bought. -/
def bought : StopRun Unit :=
  idle.after FeedRun.defaultDeployment (.processCandle () (stopFeed (dippingCandle 1 99)))

/-- The position should be closed on the second candle. -/
theorem bought_due : bought.Due FeedRun.defaultDeployment () (stopFeed (dippingCandle 2 90)) := by
  refine ⟨by decide +kernel, by decide +kernel, ?_⟩
  have happroved : ((bought.positionOf "BTC/USDT").any fun p =>
      let t := TradingOrchestrator.taken FeedRun.defaultDeployment (bought.account.trader ())
        (stopFeed (dippingCandle 2 90))
      let input := t.cycleInput (stopFeed (dippingCandle 2 90)) (plainDecision .sell)
      (Risk.evaluate {} { bought.account.session.risk with seenIdempotencyKeys := [] }
        { exitOrder input p with idempotencyKey := "", clientOrderId := none }
        (Runtime.cycleContext FeedRun.defaultDeployment t.session.paper input)
        (seconds 120)).1.decision = .approved) = true := by
    decide +kernel
  obtain ⟨p, hp, hsale⟩ := (Option.any_eq_true ..).mp happroved
  refine (Option.any_eq_true ..).mpr ⟨p, hp, decide_eq_true ?_⟩
  refine TradingOrchestrator.gatesOpen_of_unseen (by decide) (fun direction hseen => ?_)
    (of_decide_eq_true hsale)
  -- the only key that the risk engine has seen is that of the first candle
  rcases TradingOrchestrator.processCandle_keys hseen with hno | ⟨o, earlier, ho, hkey⟩
  · exact List.not_mem_nil hno
  · have hlength : 8 ≤ o.sessionId.length := by
      rw [ho]
      decide +kernel
    have hlength' : 8 ≤ (TradingOrchestrator.taken FeedRun.defaultDeployment
        (bought.account.trader ()) (stopFeed (dippingCandle 2 90))).state.sessionId.length := by
      decide +kernel
    have htime : toUnixMs (120 * 1000000) = toUnixMs (60 * 1000000) :=
      @clientOrderId_openTime _ o (dippingCandle 2 90) (dippingCandle 1 99) direction earlier
        hlength' hlength rfl hkey
    rw [toUnixMs_seconds (by norm_num), toUnixMs_seconds (by norm_num)] at htime
    cases htime

end StopRun

/-- **A stop that is ignored.**  The second of two candles falls below the stop, the gates
are open, and the strategy holds: the backtester closes the position at the stop, and the
paper position stays open. -/
theorem stop_ignored :
    let candles := [StopRun.dippingCandle 1 99, StopRun.dippingCandle 2 90]
    let run := (candles.map fun c => .processCandle () (StopRun.stopFeed c)).foldl
      (StopRun.after FeedRun.defaultDeployment) StopRun.idle
    run.missed ≠ [] ∧ run.positionOf "BTC/USDT" ≠ none ∧
      ∃ s, Backtest.after Arithmetic.decimal28 {} StopRun.stopStrategy candles 2 = .ok s ∧
        s.position = none ∧ s.trades.map BacktestTrade.reason = ["stop-loss"] := by
  intro candles run
  have hmarket : StopRun.bought.account.session.MarketOnly :=
    StopRun.after_marketOnly MarketOnly.fresh _
  have hkept : ¬StopRun.bought.Sold FeedRun.defaultDeployment ()
      (StopRun.stopFeed (StopRun.dippingCandle 2 90)) := by decide +kernel
  have hmissed := StopRun.after_missed (d := FeedRun.defaultDeployment) hmarket
    (.processCandle () (StopRun.stopFeed (StopRun.dippingCandle 2 90)))
  have hstops : (Backtest.after Arithmetic.decimal28 {} StopRun.stopStrategy candles
      2).toOption.any fun s => s.position = none ∧
        s.trades.map BacktestTrade.reason = ["stop-loss"] := by decide +kernel
  obtain ⟨s, hs, hstopped⟩ := Except.exists_of_any_toOption hstops
  refine ⟨fun hnone => ?_, fun hflat => ?_, s, hs, of_decide_eq_true hstopped⟩
  · exact hkept ((hmissed.mp hnone).2 StopRun.bought_due)
  · exact hkept ((StopRun.flat_iff hmarket StopRun.bought_due).mp hflat)

end Atlas
