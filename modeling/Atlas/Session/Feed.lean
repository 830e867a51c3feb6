import Atlas.Lib.Transition
import Atlas.Session.Warmup

/-!
# The candles an orchestrator is fed

An orchestrator on its own: candles are primed or processed, in any order and with
repeats.  Priming takes the closed candles that are new and later than the last one into
the window of their symbol.  Processing a candle takes it in the same way, marks the
ledger, asks the strategy, and may send one order through the gateway.  A candle that is
not taken is counted and journaled as rejected.

The ledger and the risk engine are those of a session, which others may act on between
two calls.  The strategy is any function of what it is shown, another one at every call;
it may raise.  A journal is attached and its writes succeed: a write that fails would
only be counted.  The record of performance trades is left out.

## Main definitions

* `TradingOrchestrator` — an orchestrator with its engines, statistics and journal.
* `prime`, `processCandle` — `prime_candles`, `process_candle`.
* `FeedAction`, `FeedRun` — a run, with the orders submitted for candles.
* `Disciplined` — what every call keeps.

## Main results

* `Disciplined.step` — **what a call does to the windows and to the submissions**.
* `candle_discipline` — **windows are increasing, a seen candle changes nothing but
  statistics and journal, and no candle has two submissions**.

## References

`app/services/trading_orchestrator.py`.
-/

namespace Atlas

open Session Transition

/-! ### The orchestrator -/

structure OrchestratorStats where
  candlesReceived : ℕ := 0
  candlesRejected : ℕ := 0
  signalsGenerated : ℕ := 0
  holdDecisions : ℕ := 0
  riskApprovals : ℕ := 0
  riskRejections : ℕ := 0
  paperOrders : ℕ := 0
  fills : ℕ := 0
  fees : ℚ := 0
  errors : ℕ := 0
  deriving DecidableEq, Repr, Inhabited

/-- What the orchestrator writes to its journal. -/
inductive JournalEntry
  /-- The event `CANDLE_REJECTED`. -/
  | candleRejected (reasonCode : String) (symbol : String) (openTime : Time)
  /-- The event `STRATEGY_ERROR`. -/
  | strategyError (symbol : String)
  | riskDecision (idempotencyKey : String) (evaluation : RiskEvaluation)
  | order (o : Order)
  | fill (f : Fill)
  | signal (s : StrategyDecision) (orderId : Option Ident)
  deriving DecidableEq, Repr

structure CandleOutcome where
  accepted : Bool
  rejectReason : Option String := none
  signalDirection : Option String := none
  orderId : Option Ident := none
  orderStatus : Option OrderStatus := none
  riskDecision : Option RiskDecision := none
  riskReasonCode : Option RiskReasonCode := none
  deriving DecidableEq, Repr, Inhabited

/-- An orchestrator, and the session whose ledger and risk engine it trades on. -/
structure TradingOrchestrator where
  state : Orchestrator
  session : Session
  entrySizeFraction : ℚ := 1 / 10
  maxDrawdown : ℚ := 0
  stats : OrchestratorStats := {}
  journal : List JournalEntry := []
  deriving DecidableEq, Repr, Inhabited

/-- A call of `process_candle`, with what it reads from outside. -/
structure CandleFeed where
  candle : Candle
  strategyName : String
  /-- The strategy; nothing if it raises. -/
  evaluate : StrategyContext → Option StrategyDecision
  tradingPaused : Bool := false
  around : Surroundings

/-- How a call of `process_candle` ends: there is no outcome if the backend raises. -/
structure Processed where
  outcome : Option CandleOutcome
  /-- The request given to the gateway. -/
  submitted : Option OrderRequest := none
  trader : TradingOrchestrator
  deriving DecidableEq, Repr

namespace TradingOrchestrator

variable (d : Deployment) (t : TradingOrchestrator)

/-- `prime_candles`. -/
def prime (candles : List Candle) (now : Time) : TradingOrchestrator :=
  let primed := t.state.primeCandles d.paper now t.session.paper candles
  { t with state := primed.orchestrator, session := { t.session with paper := primed.paper } }

/-- `_update_drawdown`. -/
def updateDrawdown : TradingOrchestrator :=
  let portfolio := t.state.portfolioState d.paper.initialCash t.session.paper
  { t with
    state := portfolio.2
    maxDrawdown :=
      if 0 < portfolio.2.peakEquity then max t.maxDrawdown portfolio.1.drawdown else t.maxDrawdown }

/-- What `_act_on_signal` reads. -/
def cycleInput (feed : CandleFeed) (decision : StrategyDecision) : CycleInput where
  key :=
    { symbol := feed.candle.symbol
      strategyVersion := ""
      timeframe := feed.candle.timeframe
      openTime := feed.candle.openTime }
  close := feed.candle.close
  signal := some decision.signal
  seen := decision.fingerprint ∈ t.state.seenSignalFps
  tradingPaused := feed.tradingPaused
  strategyName := some feed.strategyName
  clientOrderId := t.state.clientOrderId feed.candle decision.signal.direction
  entrySizeFraction := t.entrySizeFraction
  peakEquity := t.state.peakEquity
  consecutiveLosses := t.state.consecutiveLosses
  journaledFillIds := t.state.journaledFillIds
  killSwitchEnabled := t.state.killSwitchEnabled
  around := feed.around

/-- The approval `_act_on_signal` writes to the journal, from the order. -/
def approval (order : Order) : RiskEvaluation where
  decision := order.riskDecision.getD .approved
  reasonCode := order.riskReasonCode.getD .ok
  approvedQuantity := some order.quantity
  message := "approved"

/-- `_act_on_signal`, from where the request is built; no order if the backend raises. -/
def send (feed : CandleFeed) (decision : StrategyDecision) (request : OrderRequest) :
    Option Order × TradingOrchestrator :=
  let input := t.cycleInput feed decision
  let realizedBefore := t.session.paper.realizedPnl
  let r := gatewaySubmit d.settings d.paper t.session request
    (Runtime.cycleContext d t.session.paper input) feed.around
  -- the fingerprint is remembered before the gateway is asked
  let t :=
    { t with
      session := r.2.2
      state := { t.state with seenSignalFps := decision.fingerprint :: t.state.seenSignalFps } }
  if r.1.decision = .rejected ∨ r.1.decision = .halted then
    let rejected := Runtime.rejectedOrder request r.1 feed.around.now
    (some rejected,
      { t with
        stats := { t.stats with riskRejections := t.stats.riskRejections + 1 }
        journal := t.journal ++ [.riskDecision request.idempotencyKey r.1, .order rejected] })
  else
    match r.2.1 with
    | none => (none, t)
    | some order =>
        let fills := Runtime.newFills r.2.2.paper input order
        (some order,
          { t with
            state := t.state.afterOrder feed.candle.symbol (some order) fills
              (r.2.2.paper.realizedPnl - realizedBefore)
            stats := { t.stats with
              riskApprovals := t.stats.riskApprovals + 1
              paperOrders := t.stats.paperOrders + 1
              fills := t.stats.fills + fills.length
              fees := t.stats.fees + (fills.map Fill.fee).sum }
            journal := t.journal ++
              [.riskDecision request.idempotencyKey (approval order), .order order] ++
              fills.map .fill })

/-- The end of `process_candle`: the decision is journaled, with its order. -/
def decided (decision : StrategyDecision) (order : Option Order) (submitted : Option OrderRequest) :
    Processed where
  outcome := some
    { accepted := true
      signalDirection := some decision.signal.direction.value
      orderId := order.map Order.id
      orderStatus := order.map Order.status
      riskDecision := order.bind Order.riskDecision
      riskReasonCode := order.bind Order.riskReasonCode }
  submitted := submitted
  trader := updateDrawdown d
    { t with journal := t.journal ++ [.signal decision (order.map Order.id)] }

/-- The answer of the strategy is counted. -/
def counted (decision : StrategyDecision) : TradingOrchestrator :=
  { t with
    stats := { t.stats with
      signalsGenerated := t.stats.signalsGenerated + 1
      holdDecisions := t.stats.holdDecisions +
        (if decision.signal.direction = .hold then 1 else 0) } }

/-- `process_candle`, from where the strategy has answered. -/
def act (feed : CandleFeed) (decision : StrategyDecision) : Processed :=
  let t := counted t decision
  match Runtime.actingRequest t.session.paper (t.cycleInput feed decision) with
  | none => decided d t decision none none
  | some request =>
      match send d t feed decision request with
      | (none, t) => { outcome := none, submitted := some request, trader := t }
      | (some order, t) => decided d t decision (some order) (some request)

/-- The orchestrator when the strategy is asked: the candle is taken and marked, and the
portfolio has been read. -/
def taken (feed : CandleFeed) : TradingOrchestrator :=
  let symbol := feed.candle.symbol
  let paper := Paper.setMarkPrice d.paper t.session.paper symbol feed.candle.close feed.around.now
  let o := (t.state.take feed.candle).countBar paper symbol
  { t with
    state := (o.portfolioState d.paper.initialCash paper).2
    session := { t.session with paper := paper } }

/-- What the strategy is shown. -/
def strategyContext (feed : CandleFeed) : StrategyContext :=
  let symbol := feed.candle.symbol
  let paper := Paper.setMarkPrice d.paper t.session.paper symbol feed.candle.close feed.around.now
  let o := (t.state.take feed.candle).countBar paper symbol
  { candles := o.windowOf symbol
    portfolio := (o.portfolioState d.paper.initialCash paper).1
    position := paper.positions.get? symbol
    barsHeld := (o.barsHeld.get? symbol).getD 0 }

/-- `process_candle`, for a candle that is taken. -/
def processTaken (feed : CandleFeed) : Processed :=
  let answer := feed.evaluate (strategyContext d t feed)
  let t := taken d t feed
  match answer with
  | none =>
      { outcome := some { accepted := true, rejectReason := some "STRATEGY_ERROR" }
        trader := { t with
          stats := { t.stats with errors := t.stats.errors + 1 }
          journal := t.journal ++ [.strategyError feed.candle.symbol] } }
  | some decision => act d t feed decision

/-- The candle is counted. -/
def received : TradingOrchestrator :=
  { t with stats := { t.stats with candlesReceived := t.stats.candlesReceived + 1 } }

/-- `process_candle`. -/
def processCandle (feed : CandleFeed) : Processed :=
  let candle := feed.candle
  let t := t.received
  match t.state.rejectReason candle feed.around.now with
  | some reason =>
      { outcome := some { accepted := false, rejectReason := some reason }
        trader := { t with
          stats := { t.stats with candlesRejected := t.stats.candlesRejected + 1 }
          journal := t.journal ++ [.candleRejected reason candle.symbol candle.openTime] } }
  | none => processTaken d t feed

end TradingOrchestrator

/-! ### Runs -/

/-- What happens to an orchestrator. -/
inductive FeedAction
  | prime (candles : List Candle) (now : Time)
  | processCandle (feed : CandleFeed)
  /-- Others act on the ledger and the risk engine. -/
  | outside (session : Session)

/-- An orchestrator, with the candles it has submitted an order for: symbol and open
time, one entry for each submission. -/
structure FeedRun where
  trader : TradingOrchestrator
  submissions : List (String × Time) := []
  deriving DecidableEq, Repr

namespace FeedRun

/-- A call of the orchestrator, or an action of others. -/
def step (d : Deployment) (run : FeedRun) : FeedAction → Option FeedRun
  | .prime candles now => some { run with trader := run.trader.prime d candles now }
  | .processCandle feed =>
      let r := run.trader.processCandle d feed
      some
        { trader := r.trader
          submissions :=
            r.submitted.elim run.submissions fun _ =>
              (feed.candle.symbol, feed.candle.openTime) :: run.submissions }
  | .outside session => some { run with trader := { run.trader with session := session } }

end FeedRun

/-- A new orchestrator on the engines of a session. -/
def TradingOrchestrator.fresh (d : Deployment) (sessionId : String) (killSwitchEnabled : Bool)
    (maxCandleAge : Option Time) (entrySizeFraction : ℚ) (session : Session) :
    TradingOrchestrator where
  state :=
    { sessionId := sessionId
      peakEquity := d.paper.initialCash
      killSwitchEnabled := killSwitchEnabled
      maxCandleAge := maxCandleAge }
  session := session
  entrySizeFraction := entrySizeFraction

/-! ### Intake -/

namespace Orchestrator

variable {o o' : Orchestrator} {candle : Candle} {now : Time}

/-- What the intake of candles works on. -/
def intake (o : Orchestrator) : List (String × Time) × Dict String Time × Dict String (List Candle) :=
  (o.seenCandles, o.lastOpenTime, o.window)

/-- Every window is increasing, and ends no later than the last candle. -/
structure Ordered (o : Orchestrator) : Prop where
  increasing : ∀ symbol, (o.windowOf symbol).Pairwise fun a b => a.openTime < b.openTime
  bounded : ∀ symbol, ∀ c ∈ o.windowOf symbol, ∃ last,
    o.lastOpenTime.get? symbol = some last ∧ c.openTime ≤ last

theorem Ordered.of_intake (h : o.Ordered) (heq : o'.intake = o.intake) : o'.Ordered := by
  simp only [intake, Prod.mk.injEq] at heq
  obtain ⟨-, hlast, hwindow⟩ := heq
  have hof : ∀ symbol, o'.windowOf symbol = o.windowOf symbol := by
    intro symbol
    rw [windowOf, windowOf, hwindow]
  refine ⟨fun symbol => ?_, fun symbol c hc => ?_⟩
  · rw [hof]
    exact h.increasing symbol
  · rw [hof] at hc
    rw [hlast]
    exact h.bounded symbol c hc

/-- A candle that is not rejected is new, and later than the last one. -/
theorem rejectReason_eq_none (h : o.rejectReason candle now = none) :
    candle.isClosed = true ∧ (candle.symbol, candle.openTime) ∉ o.seenCandles ∧
      ∀ last, o.lastOpenTime.get? candle.symbol = some last → last < candle.openTime := by
  unfold rejectReason at h
  split_ifs at h with hopen hseen hlast
  refine ⟨hopen, hseen, fun last heq => ?_⟩
  rw [heq] at hlast
  simpa using hlast

/-- A seen candle is rejected. -/
theorem rejectReason_of_seen (h : (candle.symbol, candle.openTime) ∈ o.seenCandles) :
    ∃ reason, o.rejectReason candle now = some reason := by
  unfold rejectReason
  split_ifs with hopen
  · exact ⟨_, rfl⟩
  · exact ⟨_, rfl⟩

theorem windowOf_take (o : Orchestrator) (candle : Candle) (symbol : String) :
    (o.take candle).windowOf symbol =
      if candle.symbol = symbol then o.windowOf symbol ++ [candle] else o.windowOf symbol := by
  simp only [windowOf, take, Dict.get?_set]
  split_ifs with hsymbol
  · subst hsymbol
    rfl
  · rfl

/-- **A candle that is not rejected keeps its window increasing.** -/
theorem Ordered.take (h : o.Ordered) (hreason : o.rejectReason candle now = none) :
    (o.take candle).Ordered := by
  obtain ⟨-, -, hlater⟩ := rejectReason_eq_none hreason
  have hbefore : ∀ c ∈ o.windowOf candle.symbol, c.openTime < candle.openTime := by
    intro c hc
    obtain ⟨last, hlast, hle⟩ := h.bounded candle.symbol c hc
    exact hle.trans_lt (hlater last hlast)
  refine ⟨fun symbol => ?_, fun symbol c hc => ?_⟩
  · rw [windowOf_take]
    split_ifs with hsymbol
    · subst hsymbol
      rw [List.pairwise_append]
      refine ⟨h.increasing _, List.pairwise_singleton .., fun a ha b hb => ?_⟩
      rw [List.mem_singleton.mp hb]
      exact hbefore a ha
    · exact h.increasing symbol
  · rw [windowOf_take] at hc
    simp only [Orchestrator.take, Dict.get?_set]
    split_ifs at hc ⊢ with hsymbol
    · subst hsymbol
      refine ⟨candle.openTime, rfl, ?_⟩
      rcases List.mem_append.mp hc with hc | hc
      · exact (hbefore c hc).le
      · rw [List.mem_singleton.mp hc]
    · exact h.bounded symbol c hc

/-- A seen candle is not primed. -/
theorem primeCandle_of_seen {cfg : PaperConfig} {p : Primed}
    (h : (candle.symbol, candle.openTime) ∈ p.orchestrator.seenCandles) :
    primeCandle cfg now p candle = p := by
  obtain ⟨reason, hreason⟩ : ∃ reason, p.orchestrator.rejectReason candle now = some reason :=
    rejectReason_of_seen h
  rw [primeCandle_eq, hreason]
  exact if_neg (by simp)

/-- Priming keeps the windows increasing, and forgets no candle. -/
theorem Ordered.primeCandles {cfg : PaperConfig} {paper : PaperState} {candles : List Candle}
    (h : o.Ordered) :
    (o.primeCandles cfg now paper candles).orchestrator.Ordered ∧
      ∀ k ∈ o.seenCandles, k ∈ (o.primeCandles cfg now paper candles).orchestrator.seenCandles := by
  have hfold : ∀ (candles : List Candle) (p : Primed), p.orchestrator.Ordered →
      (candles.foldl (primeCandle cfg now) p).orchestrator.Ordered ∧
        ∀ k ∈ p.orchestrator.seenCandles,
          k ∈ (candles.foldl (primeCandle cfg now) p).orchestrator.seenCandles := by
    intro candles
    induction candles with
    | nil => exact fun p hp => ⟨hp, fun k hk => hk⟩
    | cons candle candles ih =>
      intro p hp
      rw [List.foldl_cons, primeCandle_eq]
      split_ifs with htaken
      · obtain ⟨hordered, hseen⟩ := ih
          { orchestrator := p.orchestrator.take candle
            paper := Paper.setMarkPrice cfg p.paper candle.symbol candle.close now
            count := p.count + 1 } (hp.take htaken.2)
        exact ⟨hordered, fun k hk => hseen k (List.mem_cons_of_mem _ hk)⟩
      · exact ih p hp
  exact hfold candles _ h

theorem countBar_intake (o : Orchestrator) (paper : PaperState) (symbol : String) :
    (o.countBar paper symbol).intake = o.intake := by
  unfold countBar
  split_ifs <;> rfl

theorem afterOrder_intake (o : Orchestrator) (symbol : String) (order : Option Order)
    (fills : List Fill) (realizedDelta : ℚ) :
    (o.afterOrder symbol order fills realizedDelta).intake = o.intake := by
  cases order with
  | none => rfl
  | some order =>
    simp only [afterOrder]
    split_ifs
    · cases order.side <;> rfl
    · rfl

end Orchestrator

/-! ### What a call does -/

namespace TradingOrchestrator

variable {d : Deployment} {t : TradingOrchestrator} {feed : CandleFeed}

theorem send_intake (decision : StrategyDecision) (request : OrderRequest) :
    (send d t feed decision request).2.state.intake = t.state.intake := by
  unfold send
  dsimp only
  split_ifs
  · rfl
  split
  · rfl
  · exact Orchestrator.afterOrder_intake ..

theorem act_intake (decision : StrategyDecision) :
    (act d t feed decision).trader.state.intake = t.state.intake := by
  unfold act
  dsimp only
  split
  · rfl
  · next request hrequest =>
    have hsend := @send_intake d (t.counted decision) feed decision request
    split
    · next sent hsent =>
      rw [hsent] at hsend
      exact hsend
    · next order sent hsent =>
      rw [hsent] at hsend
      exact hsend

theorem processCandle_of_none (h : t.state.rejectReason feed.candle feed.around.now = none) :
    processCandle d t feed = processTaken d t.received feed := by
  unfold processCandle
  dsimp only
  rw [show t.received.state.rejectReason feed.candle feed.around.now = none from h]

/-- A candle that is not rejected is taken. -/
theorem processCandle_taken (h : t.state.rejectReason feed.candle feed.around.now = none) :
    (processCandle d t feed).trader.state.intake = (t.state.take feed.candle).intake := by
  rw [processCandle_of_none h]
  dsimp only [processTaken]
  split
  · exact Orchestrator.countBar_intake ..
  · exact (act_intake _).trans (Orchestrator.countBar_intake ..)

/-- A candle that is rejected changes statistics and journal alone. -/
theorem processCandle_rejected {reason : String}
    (h : t.state.rejectReason feed.candle feed.around.now = some reason) :
    processCandle d t feed =
      { outcome := some { accepted := false, rejectReason := some reason }
        trader := { t with
          stats := { t.stats with
            candlesReceived := t.stats.candlesReceived + 1
            candlesRejected := t.stats.candlesRejected + 1 }
          journal := t.journal ++
            [.candleRejected reason feed.candle.symbol feed.candle.openTime] } } := by
  unfold processCandle
  dsimp only
  rw [show t.received.state.rejectReason feed.candle feed.around.now = some reason from h]
  rfl

/-- A seen candle in a list to prime is passed over. -/
theorem prime_of_seen {earlier later : List Candle} {candle : Candle} {now : Time}
    (h : (candle.symbol, candle.openTime) ∈ (t.prime d earlier now).state.seenCandles) :
    t.prime d (earlier ++ candle :: later) now = t.prime d (earlier ++ later) now := by
  have hsame : t.state.primeCandles d.paper now t.session.paper (earlier ++ candle :: later) =
      t.state.primeCandles d.paper now t.session.paper (earlier ++ later) := by
    simp only [Orchestrator.primeCandles, List.foldl_append, List.foldl_cons]
    rw [prime, Orchestrator.primeCandles] at h
    rw [Orchestrator.primeCandle_of_seen h]
  simp only [prime, hsame]

end TradingOrchestrator

/-! ### Discipline -/

/-- The windows are increasing, and the candles with a submission are seen ones, each
with one. -/
structure FeedRun.Disciplined (run : FeedRun) : Prop where
  ordered : run.trader.state.Ordered
  submitted_seen : ∀ k ∈ run.submissions, k ∈ run.trader.state.seenCandles
  nodup : run.submissions.Nodup

variable {d : Deployment}

/-- **What a call does to the windows and to the submissions.** -/
theorem FeedRun.Disciplined.step {run run' : FeedRun} {a : FeedAction} (h : run.Disciplined)
    (hstep : run.step d a = some run') : run'.Disciplined := by
  cases a with
  | prime candles now =>
    simp only [FeedRun.step, Option.some.injEq] at hstep
    subst hstep
    obtain ⟨hordered, hseen⟩ := @Orchestrator.Ordered.primeCandles _ now d.paper
      run.trader.session.paper candles h.ordered
    exact ⟨hordered, fun k hk => hseen k (h.submitted_seen k hk), h.nodup⟩
  | outside session =>
    simp only [FeedRun.step, Option.some.injEq] at hstep
    subst hstep
    exact ⟨h.ordered, h.submitted_seen, h.nodup⟩
  | processCandle feed =>
    simp only [FeedRun.step, Option.some.injEq] at hstep
    subst hstep
    cases hreason : run.trader.state.rejectReason feed.candle feed.around.now with
    | some reason =>
      rw [TradingOrchestrator.processCandle_rejected hreason]
      exact ⟨h.ordered, h.submitted_seen, h.nodup⟩
    | none =>
      have hintake := @TradingOrchestrator.processCandle_taken d _ _ hreason
      have hordered := (h.ordered.take hreason).of_intake hintake
      generalize run.trader.processCandle d feed = r at hintake hordered
      obtain ⟨-, hnew, -⟩ := Orchestrator.rejectReason_eq_none hreason
      have hseen : r.trader.state.seenCandles =
          (feed.candle.symbol, feed.candle.openTime) :: run.trader.state.seenCandles :=
        congrArg Prod.fst hintake
      -- an order is submitted for the candle just taken, so for none before
      cases r.submitted with
      | none =>
        refine ⟨hordered, fun k hk => ?_, h.nodup⟩
        rw [hseen]
        exact List.mem_cons_of_mem _ (h.submitted_seen k hk)
      | some request =>
        refine ⟨hordered, fun k hk => ?_, ?_⟩
        · rw [hseen]
          rcases List.mem_cons.mp hk with rfl | hk
          · exact List.mem_cons_self ..
          · exact List.mem_cons_of_mem _ (h.submitted_seen k hk)
        · exact List.nodup_cons.mpr ⟨fun hmem => hnew (h.submitted_seen _ hmem), h.nodup⟩

/-- A new orchestrator has no window and no submission. -/
theorem FeedRun.disciplined_fresh (sessionId : String) (killSwitchEnabled : Bool)
    (maxCandleAge : Option Time) (entrySizeFraction : ℚ) (session : Session) :
    FeedRun.Disciplined
      ⟨.fresh d sessionId killSwitchEnabled maxCandleAge entrySizeFraction session, []⟩ where
  ordered := ⟨fun _ => List.Pairwise.nil, fun _ _ hc => absurd hc List.not_mem_nil⟩
  submitted_seen := fun _ hk => absurd hk List.not_mem_nil
  nodup := List.nodup_nil

/-- **The candle discipline of an orchestrator**, in every state that a new one reaches by
priming and processing candles, whatever the strategies answer and others do to its
engines: every window is increasing, a seen candle changes nothing but statistics and
journal, and no candle has two submissions. -/
theorem candle_discipline {sessionId : String} {killSwitchEnabled : Bool}
    {maxCandleAge : Option Time} {entrySizeFraction : ℚ} {session : Session} {run : FeedRun}
    (h : Reachable (FeedRun.step d) (fun _ _ => True)
      ⟨.fresh d sessionId killSwitchEnabled maxCandleAge entrySizeFraction session, []⟩ run) :
    (∀ symbol, (run.trader.state.windowOf symbol).Pairwise fun a b => a.openTime < b.openTime) ∧
      (∀ feed : CandleFeed,
        (feed.candle.symbol, feed.candle.openTime) ∈ run.trader.state.seenCandles →
          ∃ stats journal, (run.trader.processCandle d feed).trader =
              { run.trader with stats := stats, journal := journal } ∧
            (run.trader.processCandle d feed).submitted = none) ∧
      (∀ earlier candle later now,
        (candle.symbol, candle.openTime) ∈ (run.trader.prime d earlier now).state.seenCandles →
          run.trader.prime d (earlier ++ candle :: later) now =
            run.trader.prime d (earlier ++ later) now) ∧
      run.submissions.Nodup := by
  have hdisciplined : run.Disciplined :=
    h.invariant (FeedRun.disciplined_fresh ..) fun _ _ _ hs _ hstep => hs.step hstep
  refine ⟨hdisciplined.ordered.increasing, fun feed hseen => ?_,
    fun earlier candle later now hseen => TradingOrchestrator.prime_of_seen hseen,
    hdisciplined.nodup⟩
  obtain ⟨reason, hreason⟩ :
      ∃ reason, run.trader.state.rejectReason feed.candle feed.around.now = some reason :=
    Orchestrator.rejectReason_of_seen hseen
  rw [TradingOrchestrator.processCandle_rejected hreason]
  exact ⟨_, _, rfl, rfl⟩

/-! ### A feed with repeats -/

namespace FeedRun

/-- A closed candle that opens at a minute. -/
def minuteCandle (minute : ℤ) (close : ℚ) : Candle where
  symbol := "BTC/USDT"
  timeframe := "1m"
  openTime := seconds (60 * minute)
  openPrice := close
  high := close
  low := close
  close := close
  volume := 1

/-- A strategy that buys, with a fingerprint for each length of its window. -/
def eagerFeed (minute : ℤ) (close : ℚ) : CandleFeed where
  candle := minuteCandle minute close
  strategyName := "eager"
  evaluate := fun ctx =>
    some { signal := { direction := .buy }, fingerprint := toString ctx.candles.length }
  around := { now := seconds (60 * minute), seriesMark := close }

def defaultDeployment : Deployment where
  settings := {}
  paper := {}
  column := id

end FeedRun

/-- Two candles are primed, one of them again, and the third is processed twice and then
fed as late: one order, and three candles in the window. -/
theorem candle_discipline_repeated_feed :
    ∃ run, Reachable (FeedRun.step FeedRun.defaultDeployment) (fun _ _ => True)
        ⟨.fresh FeedRun.defaultDeployment "session" false none (1 / 10)
          (Session.fresh {} FeedRun.defaultDeployment.paper), []⟩ run ∧
      run.submissions = [("BTC/USDT", seconds 180)] ∧
      (run.trader.state.windowOf "BTC/USDT").length = 3 ∧
      (∀ symbol, (run.trader.state.windowOf symbol).Pairwise fun a b => a.openTime < b.openTime) ∧
      run.submissions.Nodup := by
  obtain ⟨run, hreach, hsubmissions, hlength⟩ :
      ∃ run, Reachable (FeedRun.step FeedRun.defaultDeployment) (fun _ _ => True)
          ⟨.fresh FeedRun.defaultDeployment "session" false none (1 / 10)
            (Session.fresh {} FeedRun.defaultDeployment.paper), []⟩ run ∧
        run.submissions = [("BTC/USDT", seconds 180)] ∧
        (run.trader.state.windowOf "BTC/USDT").length = 3 :=
    exists_reachable
      [.prime [FeedRun.minuteCandle 1 100, FeedRun.minuteCandle 2 101, FeedRun.minuteCandle 1 100] 0,
        .processCandle (FeedRun.eagerFeed 3 102), .processCandle (FeedRun.eagerFeed 3 102),
        .processCandle (FeedRun.eagerFeed 2 101)]
      (by decide +kernel) (by decide +kernel)
  obtain ⟨hincreasing, -, -, hnodup⟩ := candle_discipline hreach
  exact ⟨run, hreach, hsubmissions, hlength, hincreasing, hnodup⟩

end Atlas
