import Atlas.Risk.Limits
import Atlas.Session.Feed
import Atlas.Session.Trace

/-!
# Manual orders and strategies on one account

A session and the orchestrators that share its engines make up an account.  Orders come
by two kinds of path: from the session, or from an orchestrator that is fed a candle.
Every path shows the risk engine a portfolio of its own: the ledger is one, but each
keeps its own highest equity and its own count of losses in a row.

What a path keeps depends only on what it has seen itself: the equities it has read, and
the sales among its own orders.

## Main definitions

* `Account`, `AccountAction`, `Account.step` — an account, and what happens to it.
* `Account.portfolio` — what a path shows the risk engine.
* `Account.reads`, `Account.saleOf` — what a path sees in a step.

## Main results

* `submit_seen`, `processCandle_seen` — what an order or a candle leaves of what a path
  keeps.
* `Account.step_seen` — **what a path keeps after a step**.

## References

`app/services/paper_session.py`, `app/services/trading_orchestrator.py`.
-/

namespace Atlas

open Session Transition

/-! ### What a path sees -/

/-- The highest of some equities, from a highest one before. -/
def highest (peak : ℚ) (equities : List ℚ) : ℚ := equities.foldl max peak

/-- The losses in a row after some sales, from a count before. -/
def losingStreak (losses : ℕ) (profits : List ℚ) : ℕ := profits.foldl lossesAfter losses

theorem le_highest (equities : List ℚ) : ∀ peak, peak ≤ highest peak equities := by
  induction equities with
  | nil => exact fun peak => le_rfl
  | cons equity equities ih => exact fun peak => (le_max_left ..).trans (ih _)

/-- The profit of the order a call returns, if it is a SELL that has filled. -/
def filledSale (order : Option Order) (before after : ℚ) : List ℚ :=
  if order.any fun o =>
      o.side = .sell ∧ (o.status = .filled ∨ o.status = .partiallyFilled) then [after - before]
  else []

/-- The order was rejected with the code. -/
def Order.RejectedWith (o : Order) (code : RiskReasonCode) : Prop :=
  o.riskDecision = some .rejected ∧ o.riskReasonCode = some code

instance (o : Order) (code : RiskReasonCode) : Decidable (o.RejectedWith code) :=
  inferInstanceAs (Decidable (_ ∧ _))

namespace Session

variable (settings : RiskSettings) (cfg : PaperConfig)

/-- The sale of `_submit`. -/
def saleOf (s : Session) (args : OrderArgs) (key : String) (around : Surroundings) : List ℚ :=
  let context := riskContext settings cfg s args.symbol around
  let r := gatewaySubmit settings cfg context.2 (args.request key) context.1 around
  filledSale r.2.1 context.2.paper.realizedPnl r.2.2.paper.realizedPnl

variable {settings cfg} {s : Session} {args : OrderArgs} {key : String} {around : Surroundings}

/-- An order of the session is evaluated as its risk context says. -/
theorem submit_evaluation :
    (submit settings cfg s args key around).1 =
      (Risk.evaluate settings (riskContext settings cfg s args.symbol around).2.risk
        (args.request key) (riskContext settings cfg s args.symbol around).1 around.now).1 := by
  simp only [submit, gatewaySubmit]
  split_ifs <;> rfl

theorem countSale_losses (order : Option Order) (before : ℚ) :
    (countSale s order before).consecutiveLosses =
      losingStreak s.consecutiveLosses (filledSale order before s.paper.realizedPnl) := by
  unfold countSale filledSale
  split_ifs <;> rfl

theorem countSale_peak (order : Option Order) (before : ℚ) :
    (countSale s order before).peakEquity = s.peakEquity ∧
      (countSale s order before).dailyStartEquity = s.dailyStartEquity := by
  unfold countSale
  split_ifs <;> exact ⟨rfl, rfl⟩

/-- What the session keeps beside the ledger and the risk engine. -/
def kept (s : Session) : ℚ × ℚ × ℕ := (s.peakEquity, s.dailyStartEquity, s.consecutiveLosses)

theorem mark_kept (symbol : String) : (mark cfg s symbol around).2.kept = s.kept := by
  unfold mark
  split <;> rfl

theorem gatewaySubmit_kept (request : OrderRequest) (context : RiskContext) :
    (gatewaySubmit settings cfg s request context around).2.2.kept = s.kept := by
  simp only [gatewaySubmit]
  split_ifs <;> rfl

/-- Reading the portfolio raises the highest equity. -/
theorem riskContext_kept (symbol : String) :
    (riskContext settings cfg s symbol around).2.kept = s.raisePeak.kept := by
  simp only [riskContext, portfolioState]
  exact mark_kept symbol

/-- **What an order leaves of what the session keeps.** -/
theorem submit_seen :
    (submit settings cfg s args key around).2.2.dailyStartEquity = s.dailyStartEquity ∧
      (submit settings cfg s args key around).2.2.peakEquity =
        highest s.peakEquity
          [s.paper.equity, (submit settings cfg s args key around).2.2.paper.equity] ∧
      (submit settings cfg s args key around).2.2.consecutiveLosses =
        losingStreak s.consecutiveLosses (saleOf settings cfg s args key around) := by
  have hkept : (gatewaySubmit settings cfg (riskContext settings cfg s args.symbol around).2
      (args.request key) (riskContext settings cfg s args.symbol around).1 around).2.2.kept =
        s.raisePeak.kept := (gatewaySubmit_kept ..).trans (riskContext_kept _)
  simp only [kept, Prod.mk.injEq, raisePeak] at hkept
  obtain ⟨hpeak, hstart, hlosses⟩ := hkept
  refine ⟨(countSale_peak ..).2.trans hstart, ?_, ?_⟩
  · simp only [submit, raisePeak, countSale_paper, (countSale_peak ..).1, highest, List.foldl]
    rw [hpeak]
  · refine (countSale_losses ..).trans ?_
    rw [hlosses]
    rfl

end Session

namespace TradingOrchestrator

variable (d : Deployment) (t : TradingOrchestrator) (feed : CandleFeed)

/-- The decision a candle that is taken is acted on with, and the request it leads to. -/
def acted : Option (StrategyDecision × OrderRequest) :=
  (feed.evaluate (strategyContext d t feed)).bind fun decision =>
    let asked := (taken d t feed).counted decision
    (Runtime.actingRequest asked.session.paper (asked.cycleInput feed decision)).map (decision, ·)

/-- What the gateway makes of the request. -/
def sent (a : StrategyDecision × OrderRequest) : Option Order × TradingOrchestrator :=
  send d ((taken d t feed).counted a.1) feed a.1 a.2

/-- The sale of a candle that is taken. -/
def takenSale : List ℚ :=
  (acted d t feed).elim [] fun a =>
    filledSale (sent d t feed a).1 (taken d t feed).session.paper.realizedPnl
      (sent d t feed a).2.session.paper.realizedPnl

/-- The equities read with a candle that is taken, without repeats. -/
def takenReads : List ℚ :=
  (taken d t feed).session.paper.equity ::
    (acted d t feed).elim [] fun a =>
      (sent d t feed a).1.elim [] fun _ => [(sent d t feed a).2.session.paper.equity]

/-- The candle is not rejected. -/
def Takes : Prop := t.state.rejectReason feed.candle feed.around.now = none

instance : Decidable (Takes t feed) := inferInstanceAs (Decidable (_ = none))

/-- The operations of `prime_candles` on the ledger. -/
def primeOps (candles : List Candle) (now : Time) : List Paper.Op :=
  (t.state.primedMarks now candles).map fun m => .setMarkPrice m.1 m.2 now

/-- The operations of `process_candle` on the ledger. -/
def candleOps : List Paper.Op :=
  if t.Takes feed then
    .setMarkPrice feed.candle.symbol feed.candle.close feed.around.now ::
      (acted d t.received feed).elim [] fun a =>
        let asked := (taken d t.received feed).counted a.1
        gatewayOps d.settings asked.session a.2
          (Runtime.cycleContext d asked.session.paper (asked.cycleInput feed a.1)) feed.around
  else []

/-- The sale of `process_candle`. -/
def saleOf : List ℚ := if t.Takes feed then takenSale d t.received feed else []

/-- The equities `process_candle` reads. -/
def reads : List ℚ := if t.Takes feed then takenReads d t.received feed else []

variable {d t feed}

theorem not_takes {reason : String}
    (hreason : t.state.rejectReason feed.candle feed.around.now = some reason) :
    ¬t.Takes feed := by
  intro htakes
  rw [Takes, hreason] at htakes
  cases htakes

/-- The highest equity, and the count of losses. -/
def kept (t : TradingOrchestrator) : ℚ × ℕ := (t.state.peakEquity, t.state.consecutiveLosses)

theorem taken_kept :
    (taken d t feed).kept =
      (max t.state.peakEquity (taken d t feed).session.paper.equity, t.state.consecutiveLosses) := by
  simp only [kept, taken, Orchestrator.portfolioState, Orchestrator.countBar]
  split_ifs <;> rfl

/-- The gateway moves the ledger by its operations. -/
theorem send_traced {decision : StrategyDecision} {request : OrderRequest}
    (hmeta : request.metadata = {}) :
    Traced d.paper t.session.paper
      (gatewayOps d.settings t.session request
        (Runtime.cycleContext d t.session.paper (t.cycleInput feed decision)) feed.around)
      (send d t feed decision request).2.session.paper := by
  have hgateway := @gatewaySubmit_traced d.settings d.paper request hmeta t.session
    (Runtime.cycleContext d t.session.paper (t.cycleInput feed decision)) feed.around
  unfold send
  dsimp only
  split_ifs
  · exact hgateway
  split <;> exact hgateway

theorem processCandle_traced (t : TradingOrchestrator) :
    Traced d.paper t.session.paper (candleOps d t feed)
      (processCandle d t feed).trader.session.paper := by
  unfold candleOps
  cases hreason : t.state.rejectReason feed.candle feed.around.now with
  | some reason =>
    have hnot : ¬t.Takes feed := not_takes hreason
    rw [processCandle_rejected hreason, if_neg hnot]
    exact .nil _
  | none =>
    have htakes : t.Takes feed := hreason
    rw [processCandle_of_none hreason, if_pos htakes]
    have hmark := @Traced.mark d.paper t.session.paper feed.candle.symbol feed.candle.close
      feed.around.now
    refine hmark.append ?_
    unfold acted processTaken
    dsimp only
    cases feed.evaluate (strategyContext d t.received feed) with
    | none => exact .nil _
    | some decision =>
      simp only [act, Option.bind_some]
      cases hrequest : Runtime.actingRequest
          ((taken d t.received feed).counted decision).session.paper
          (((taken d t.received feed).counted decision).cycleInput feed decision) with
      | none => exact .nil _
      | some request =>
        have hsend := @send_traced d ((taken d t.received feed).counted decision) feed decision
          request (Runtime.actingRequest_market hrequest).2.2.2
        simp only [Option.map_some]
        split
        · next hsent =>
          rw [hsent] at hsend
          exact hsend
        · next hsent =>
          rw [hsent] at hsend
          exact hsend

theorem prime_traced (t : TradingOrchestrator) (candles : List Candle) (now : Time) :
    Traced d.paper t.session.paper (primeOps t candles now)
      (t.prime d candles now).session.paper := by
  have hmarks : ∀ (marks : List (String × ℚ)) (paper : PaperState),
      Traced d.paper paper (marks.map fun m => .setMarkPrice m.1 m.2 now)
        (Paper.markAll d.paper now paper marks) := by
    intro marks
    induction marks with
    | nil => exact fun paper => .nil paper
    | cons m marks ih => exact fun paper => (Traced.mark ..).append (ih _)
  have hpaper : (t.prime d candles now).session.paper = _ :=
    Orchestrator.primeCandles_paper t.state t.session.paper candles
  rw [hpaper]
  exact hmarks _ _

/-- Priming leaves both. -/
theorem prime_kept {candles : List Candle} {now : Time} :
    (t.prime d candles now).kept = t.kept := by
  have htake : ∀ (candles : List Candle) (o : Orchestrator),
      let o' := candles.foldl Orchestrator.take o
      (o'.peakEquity, o'.consecutiveLosses) = (o.peakEquity, o.consecutiveLosses) := by
    intro candles
    induction candles with
    | nil => exact fun o => rfl
    | cons candle candles ih => exact fun o => ih _
  have hstate : (t.prime d candles now).state = _ :=
    (Orchestrator.primeCandles_orchestrator t.state t.session.paper candles).1
  rw [kept, hstate]
  exact htake _ _

/-- A sale that filled counts as a win or a loss. -/
theorem afterOrder_seen (o : Orchestrator) (symbol : String) (order : Order) (fills : List Fill)
    (before after : ℚ) :
    (o.afterOrder symbol (some order) fills (after - before)).peakEquity = o.peakEquity ∧
      (o.afterOrder symbol (some order) fills (after - before)).consecutiveLosses =
        losingStreak o.consecutiveLosses (filledSale (some order) before after) := by
  simp only [Orchestrator.afterOrder, filledSale, Option.any, decide_eq_true_eq]
  by_cases hfilled : order.status = .filled ∨ order.status = .partiallyFilled
  · rw [if_pos hfilled]
    cases hside : order.side with
    | buy => simp [losingStreak]
    | sell => simp [losingStreak, hfilled]
  · rw [if_neg hfilled]
    simp [losingStreak, hfilled]

/-- The gateway leaves what the session keeps, and the highest equity. -/
theorem send_seen (decision : StrategyDecision) (request : OrderRequest) :
    (send d t feed decision request).2.session.kept = t.session.kept ∧
      (send d t feed decision request).2.kept =
        (t.state.peakEquity,
          losingStreak t.state.consecutiveLosses
            (filledSale (send d t feed decision request).1 t.session.paper.realizedPnl
              (send d t feed decision request).2.session.paper.realizedPnl)) := by
  have hkept := @gatewaySubmit_kept d.settings d.paper t.session feed.around request
    (Runtime.cycleContext d t.session.paper (t.cycleInput feed decision))
  unfold send
  dsimp only
  split_ifs
  · refine ⟨hkept, ?_⟩
    simp [kept, filledSale, losingStreak, Runtime.rejectedOrder]
  split
  · exact ⟨hkept, rfl⟩
  · exact ⟨hkept, Prod.ext (afterOrder_seen ..).1 (afterOrder_seen ..).2⟩

/-- An order of a candle is rejected as the evaluation says. -/
theorem send_rejectedWith (decision : StrategyDecision) (request : OrderRequest)
    (code : RiskReasonCode) :
    (∃ o, (send d t feed decision request).1 = some o ∧ o.RejectedWith code) ↔
      (Risk.evaluate d.settings t.session.risk request
        (Runtime.cycleContext d t.session.paper (t.cycleInput feed decision))
        feed.around.now).1.RejectedWith code := by
  unfold send gatewaySubmit
  dsimp only
  generalize Risk.evaluate d.settings t.session.risk request
    (Runtime.cycleContext d t.session.paper (t.cycleInput feed decision)) feed.around.now = r
  by_cases hblocked : r.1.decision = .rejected ∨ r.1.decision = .halted
  · simp [hblocked, Runtime.rejectedOrder, Order.RejectedWith, RiskEvaluation.RejectedWith]
  · -- the order that is let through carries the decision of the evaluation
    have hopen : r.1.decision ≠ .rejected := fun h => hblocked (.inl h)
    simp only [if_neg hblocked]
    cases (Paper.submit d.paper t.session.paper (approvedRequest request r.1) r.1 feed.around.roll
      feed.around.now).1 <;>
    simp [tagged, Order.RejectedWith, RiskEvaluation.RejectedWith, hopen]

/-- What a candle that is taken leaves of what the two keep. -/
theorem processTaken_seen :
    (processTaken d t feed).trader.session.kept = t.session.kept ∧
      (processTaken d t feed).trader.kept =
        (highest t.state.peakEquity (takenReads d t feed),
          losingStreak t.state.consecutiveLosses (takenSale d t feed)) := by
  have htaken : (taken d t feed).kept = _ := taken_kept
  simp only [kept, Prod.mk.injEq] at htaken
  obtain ⟨hpeak, hlosses⟩ := htaken
  unfold processTaken takenReads takenSale acted
  dsimp only
  cases feed.evaluate (strategyContext d t feed) with
  | none => exact ⟨rfl, Prod.ext hpeak hlosses⟩
  | some decision =>
    simp only [act, Option.bind_some]
    cases Runtime.actingRequest ((taken d t feed).counted decision).session.paper
        (((taken d t feed).counted decision).cycleInput feed decision) with
    | none =>
      -- the portfolio is read again, and has not changed
      refine ⟨rfl, Prod.ext ?_ hlosses⟩
      show max (taken d t feed).state.peakEquity (taken d t feed).session.paper.equity = _
      rw [hpeak]
      exact max_eq_left (le_max_right ..)
    | some request =>
      have hsend := @send_seen d ((taken d t feed).counted decision) feed decision request
      obtain ⟨hsession, hsent⟩ := hsend
      simp only [Option.map_some, Option.elim, sent]
      generalize send d ((taken d t feed).counted decision) feed decision request = r
        at hsession hsent
      obtain ⟨order, after⟩ := r
      simp only [kept, Prod.mk.injEq] at hsent
      obtain ⟨hafter, hsold⟩ := hsent
      rw [show ((taken d t feed).counted decision).state.peakEquity = _ from hpeak] at hafter
      rw [show ((taken d t feed).counted decision).state.consecutiveLosses = _ from hlosses] at hsold
      cases order with
      | none => exact ⟨hsession, Prod.ext hafter hsold⟩
      | some order =>
        refine ⟨hsession, Prod.ext ?_ hsold⟩
        show max after.state.peakEquity after.session.paper.equity = _
        rw [hafter]
        rfl

/-- **What a candle leaves of what the two keep.** -/
theorem processCandle_seen :
    (processCandle d t feed).trader.session.kept = t.session.kept ∧
      (processCandle d t feed).trader.kept =
        (highest t.state.peakEquity (reads d t feed),
          losingStreak t.state.consecutiveLosses (saleOf d t feed)) := by
  unfold reads saleOf
  cases hreason : t.state.rejectReason feed.candle feed.around.now with
  | some reason =>
    have hnot : ¬t.Takes feed := not_takes hreason
    rw [processCandle_rejected hreason, if_neg hnot, if_neg hnot]
    exact ⟨rfl, rfl⟩
  | none =>
    have htakes : t.Takes feed := hreason
    rw [processCandle_of_none hreason, if_pos htakes, if_pos htakes]
    exact processTaken_seen

end TradingOrchestrator

/-! ### The account -/

/-- A session and the orchestrators that trade on its engines.  The session in the record
of an orchestrator is replaced by that of the account when it is called. -/
structure Account (ι : Type*) where
  session : Session
  traders : ι → TradingOrchestrator

/-- What happens to an account. -/
inductive AccountAction (ι : Type*)
  /-- An order of the session, a mark, a cancel or an expiry. -/
  | session (action : Session.Action)
  /-- The portfolio of the session is read. -/
  | portfolio (now : Time)
  | prime (i : ι) (candles : List Candle) (now : Time)
  | processCandle (i : ι) (feed : CandleFeed)
  /-- The portfolio of an orchestrator is read. -/
  | snapshot (i : ι) (now : Time)

/-- The path of an action: the session, or an orchestrator. -/
def AccountAction.path {ι : Type*} : AccountAction ι → Option ι
  | .session _ => none
  | .portfolio _ => none
  | .prime i _ _ => some i
  | .processCandle i _ => some i
  | .snapshot i _ => some i

namespace Account

variable {ι : Type*} [DecidableEq ι] (d : Deployment) (a : Account ι)

/-- An orchestrator with the session of the account. -/
def trader (i : ι) : TradingOrchestrator := { a.traders i with session := a.session }

/-- The account after a call of an orchestrator. -/
def called (i : ι) (t : TradingOrchestrator) : Account ι where
  session := t.session
  traders := Function.update a.traders i t

/-- The account after an action. -/
def step : AccountAction ι → Account ι
  | .session action => { a with session := Session.step d.settings d.paper a.session action }
  | .portfolio _ => { a with session := a.session.portfolioState.2 }
  | .prime i candles now => a.called i ((a.trader i).prime d candles now)
  | .processCandle i feed => a.called i ((a.trader i).processCandle d feed).trader
  | .snapshot i _ =>
      a.called i
        { a.trader i with
          state := ((a.traders i).state.portfolioState d.paper.initialCash a.session.paper).2 }

/-- What a path shows the risk engine: the session, or an orchestrator. -/
def portfolio : Option ι → PortfolioState
  | none => a.session.portfolioState.1
  | some i => ((a.traders i).state.portfolioState d.paper.initialCash a.session.paper).1

/-- The equities that the path of an action reads in it. -/
def readsOf : AccountAction ι → List ℚ
  | .session (.submit args key around) =>
      [a.session.paper.equity,
        (submit d.settings d.paper a.session args key around).2.2.paper.equity]
  | .portfolio _ => [a.session.paper.equity]
  | .processCandle i feed => (a.trader i).reads d feed
  | .snapshot _ _ => [a.session.paper.equity]
  | _ => []

/-- The sale of the path of an action. -/
def saleOf : AccountAction ι → List ℚ
  | .session (.submit args key around) =>
      Session.saleOf d.settings d.paper a.session args key around
  | .processCandle i feed => (a.trader i).saleOf d feed
  | _ => []

/-- The operations of an action on the ledger. -/
def ops : AccountAction ι → List Paper.Op
  | .session (.submit args key around) => submitOps d.settings d.paper a.session args key around
  | .session (.setMarkPrice symbol price now) => [.setMarkPrice symbol price now]
  | .session (.cancel orderId now) => [.cancel orderId now]
  | .session (.expire orderId now) => [.expire orderId now]
  | .prime i candles now => (a.trader i).primeOps candles now
  | .processCandle i feed => (a.trader i).candleOps d feed
  | _ => []

/-- The highest equity that a path keeps. -/
def peak : Option ι → ℚ
  | none => a.session.peakEquity
  | some i => (a.traders i).state.peakEquity

/-- The losses in a row that a path keeps. -/
def losses : Option ι → ℕ
  | none => a.session.consecutiveLosses
  | some i => (a.traders i).state.consecutiveLosses

variable {d a}

/-- What a path keeps, after a step in which it has read and sold. -/
def Seen (d : Deployment) (a : Account ι) (action : AccountAction ι) (a' : Account ι)
    (p : Option ι) : Prop :=
  a'.peak p = highest (a.peak p) (if action.path = p then a.readsOf d action else []) ∧
    a'.losses p =
      losingStreak (a.losses p) (if action.path = p then a.saleOf d action else [])

/-- A step of the session, for every path. -/
theorem session_seen {action : AccountAction ι} {s : Session} (hpath : action.path = none)
    (hpeak : s.peakEquity = highest a.session.peakEquity (a.readsOf d action))
    (hlosses : s.consecutiveLosses =
      losingStreak a.session.consecutiveLosses (a.saleOf d action))
    (p : Option ι) : Seen d a action { a with session := s } p := by
  rw [Seen, hpath]
  cases p with
  | none => exact ⟨hpeak, hlosses⟩
  | some i => exact ⟨rfl, rfl⟩

/-- A call of an orchestrator that leaves what the session keeps, for every path. -/
theorem called_seen {action : AccountAction ι} {i : ι} {t : TradingOrchestrator}
    (hpath : action.path = some i) (hsession : t.session.kept = a.session.kept)
    (hkept : t.kept =
      (highest (a.traders i).state.peakEquity (a.readsOf d action),
        losingStreak (a.traders i).state.consecutiveLosses (a.saleOf d action)))
    (p : Option ι) : Seen d a action (a.called i t) p := by
  simp only [Session.kept, TradingOrchestrator.kept, Prod.mk.injEq] at hsession hkept
  rw [Seen, hpath]
  cases p with
  | none => exact ⟨hsession.1, hsession.2.2⟩
  | some j =>
    simp only [called, peak, losses]
    by_cases hij : i = j
    · subst hij
      rw [Function.update_self, if_pos rfl, if_pos rfl]
      exact hkept
    · have hne : ¬some i = some j := by simpa using hij
      rw [Function.update_of_ne (Ne.symm hij), if_neg hne, if_neg hne]
      exact ⟨rfl, rfl⟩

/-- **What a path keeps after a step.** -/
theorem step_seen (action : AccountAction ι) (p : Option ι) :
    Seen d a action (a.step d action) p := by
  cases action with
  | session action =>
    refine session_seen rfl ?_ ?_ p <;> cases action with
    | submit args key around => first | exact submit_seen.2.1 | exact submit_seen.2.2
    | _ => rfl
  | portfolio now => exact session_seen rfl rfl rfl p
  | prime i candles now => exact called_seen rfl rfl TradingOrchestrator.prime_kept p
  | processCandle i feed =>
    exact called_seen rfl TradingOrchestrator.processCandle_seen.1
      TradingOrchestrator.processCandle_seen.2 p
  | snapshot i now => exact called_seen rfl rfl rfl p

/-- **A step leads the ledger where its operations lead.** -/
theorem step_traced (action : AccountAction ι) :
    Traced d.paper a.session.paper (a.ops d action) (a.step d action).session.paper := by
  cases action with
  | session action =>
    cases action with
    | submit args key around => exact submit_traced a.session args key around
    | setMarkPrice symbol price now => exact .mark ..
    | cancel orderId now => exact .one trivial
    | expire orderId now => exact .one trivial
  | portfolio now => exact .nil _
  | prime i candles now => exact (a.trader i).prime_traced candles now
  | processCandle i feed => exact (a.trader i).processCandle_traced
  | snapshot i now => exact .nil _

/-- No step moves the equity that the session measures the day from. -/
theorem step_dailyStartEquity (action : AccountAction ι) :
    (a.step d action).session.dailyStartEquity = a.session.dailyStartEquity := by
  have hcalled : ∀ {i : ι} {t : TradingOrchestrator}, t.session.kept = a.session.kept →
      (a.called i t).session.dailyStartEquity = a.session.dailyStartEquity :=
    fun h => congrArg (fun k => k.2.1) h
  cases action with
  | session action =>
    cases action with
    | submit args key around => exact submit_seen.1
    | _ => rfl
  | processCandle i feed => exact hcalled TradingOrchestrator.processCandle_seen.1
  | _ => rfl

end Account

end Atlas
