import Atlas.Paper.Twins
import Atlas.Session.Intake

/-!
# Sessions that decide alike

Two sessions have the same funds, the same flags and the same kill switch.  Their recorded
orders differ, and so do the keys each has seen.  An order under a key that is new to both
comes to the same in both: the risk engine answers the same, the paper engine does the
same, and the two sessions are alike again.  The first engine may remember more order
times, older ones that no longer count.

The keys are those of an orchestrator, for the candles of a window; a key for a later
candle is new.

## Main definitions

* `Risk.SameEngine`, `SameSession` — what two risk engines, and two sessions, agree in.
* `OrderKey`, `Regular` — the keys of a window, and a session that has seen no others.
* `Runtime.rekeyed` — the same cycle, whose orders have another key.

## Main results

* `Risk.evaluate_twin` — **an evaluation comes to the same in both engines**.
* `gateway_twin` — **and so does what the gateway does**.
* `Runtime.processCandle_twin`, `Runtime.cycle_twin` — a candle, and what follows it.
* `Runtime.processCandle_regular` — a candle keeps a session to the keys of the window.

## References

`app/risk/engine.py`, `app/execution/gateway.py`, `app/services/trading_orchestrator.py`,
`app/services/paper_cycle.py`.
-/

namespace Atlas

open Paper Session

/-! ### Risk engines -/

namespace Risk

variable {settings : RiskSettings} {state state' : RiskEngineState}
  {request request' : OrderRequest} {context : RiskContext} {now : Time} {P : Time → Prop}

/-- The same flags.  The first engine may have more order times, older ones that satisfy
`P`; the seen keys are any. -/
def SameEngine (P : Time → Prop) (state state' : RiskEngineState) : Prop :=
  ∃ times keys ts,
    state' = { state with
      recentOrderTimes := times, seenIdempotencyKeys := keys, lastMarketDataTs := ts } ∧
    ∃ old, state.recentOrderTimes = old ++ times ∧ ∀ t ∈ old, P t

/-- Old order times make no difference once they are dropped. -/
theorem trimmed_twin (h : SameEngine P state state') (hold : ∀ t, P t → t < now - seconds 60) :
    (trimmed state now).recentOrderTimes = (trimmed state' now).recentOrderTimes ∧
      SameEngine P (trimmed state now) (trimmed state' now) := by
  obtain ⟨times, keys, ts, rfl, old, htimes, hP⟩ := h
  have hdrop : old.filter (fun t => now - seconds 60 ≤ t) = [] :=
    List.filter_eq_nil_iff.mpr fun t ht => by
      simp only [decide_eq_true_eq, not_le]
      exact hold t (hP t ht)
  have hsame : (trimmed state now).recentOrderTimes =
      times.filter fun t => now - seconds 60 ≤ t := by
    rw [trimmed, htimes, List.filter_append, hdrop, List.nil_append]
  exact ⟨hsame, _, keys, ts, rfl, [], hsame, fun _ ht => (List.not_mem_nil ht).elim⟩

theorem venueGates_twin (h : SameEngine P state state') (hr : SameRequest request request') :
    venueGates settings state' request' context = venueGates settings state request context := by
  obtain ⟨times, keys, ts, rfl, -⟩ := h
  obtain ⟨key, clientOrderId, rfl⟩ := hr
  rfl

/-- The gates on the request pass keys that are new, and data that has a time of its own. -/
theorem requestGates_twin (h : SameEngine P state state') (hr : SameRequest request request')
    (hts : context.marketDataTs.isSome) (hnew : request.idempotencyKey ∉ state.seenIdempotencyKeys)
    (hnew' : request'.idempotencyKey ∉ state'.seenIdempotencyKeys) :
    requestGates settings state' request' context now =
      requestGates settings state request context now := by
  obtain ⟨times, keys, ts, rfl, -⟩ := h
  obtain ⟨key, clientOrderId, rfl⟩ := hr
  obtain ⟨mdTs, hmdTs⟩ := Option.isSome_iff_exists.mp hts
  simp only [requestGates, stale, hmdTs, hnew, hnew']
  rfl

/-- The gates on the account go by the order times that are left. -/
theorem accountGates_twin (hr : SameRequest request request')
    (htrimmed : (trimmed state now).recentOrderTimes = (trimmed state' now).recentOrderTimes) :
    accountGates settings (trimmed state' now) request' context now =
      accountGates settings (trimmed state now) request context now := by
  obtain ⟨key, clientOrderId, rfl⟩ := hr
  simp only [accountGates, elapsed, htrimmed]
  rfl

/-- The sizing does not go by the key of the request. -/
theorem sizing_twin (hr : SameRequest request request') :
    referencePrice request' context = referencePrice request context ∧
      (∀ price, sizeGates settings request' context price =
        sizeGates settings request context price) ∧
      ∀ price, approvedSize settings request' context price =
        approvedSize settings request context price := by
  obtain ⟨key, clientOrderId, rfl⟩ := hr
  exact ⟨rfl, fun _ => rfl, fun _ => rfl⟩

/-- **An evaluation comes to the same in both engines**, of a request whose key is new to
each, with market data of its own. -/
theorem evaluate_twin (h : SameEngine P state state') (hr : SameRequest request request')
    (hts : context.marketDataTs.isSome) (hold : ∀ t, P t → t < now - seconds 60)
    (hnew : request.idempotencyKey ∉ state.seenIdempotencyKeys)
    (hnew' : request'.idempotencyKey ∉ state'.seenIdempotencyKeys) :
    (evaluate settings state request context now).1 =
        (evaluate settings state' request' context now).1 ∧
      SameEngine P (evaluate settings state request context now).2
        (evaluate settings state' request' context now).2 := by
  obtain ⟨htrimmed, hlate⟩ := trimmed_twin h hold
  have hvenue : venueGates settings state' request' context =
      venueGates settings state request context := venueGates_twin h hr
  have hvalues : requestGates settings state' request' context now =
      requestGates settings state request context now := requestGates_twin h hr hts hnew hnew'
  have haccount : accountGates settings (trimmed state' now) request' context now =
      accountGates settings (trimmed state now) request context now :=
    accountGates_twin hr htrimmed
  obtain ⟨hreference, hsize, happroved⟩ := @sizing_twin settings request request' context hr
  simp only [evaluate, hvenue, hvalues, haccount, hreference, hsize, happroved]
  cases firstRefusal (venueGates settings state request context ++
    requestGates settings state request context now) with
  | some answer => exact ⟨rfl, h⟩
  | none =>
    cases referencePrice request context with
    | none => exact ⟨rfl, h⟩
    | some price =>
      dsimp only
      split_ifs
      · exact ⟨rfl, h⟩
      cases firstRefusal (sizeGates settings request context price) with
      | some answer => exact ⟨rfl, h⟩
      | none =>
        cases firstRefusal (accountGates settings (trimmed state now) request context now) with
        | some answer => exact ⟨rfl, hlate⟩
        | none =>
          cases approvedSize settings request context price with
          | error answer => exact ⟨rfl, hlate⟩
          | ok z =>
            refine ⟨rfl, ?_⟩
            obtain ⟨times, keys, ts, heq, old, htimes, hP⟩ := hlate
            refine ⟨times ++ [now], request'.idempotencyKey :: keys, ts, ?_, old, ?_, hP⟩
            · simp only [recorded, heq]
            · simp only [recorded, htimes, List.append_assoc]

/-- An evaluation sees the key of its request, and no other. -/
theorem evaluate_seen {k : String}
    (h : k ∈ (evaluate settings state request context now).2.seenIdempotencyKeys) :
    k = request.idempotencyKey ∨ k ∈ state.seenIdempotencyKeys := by
  have hevaluates : Evaluates settings state request context now
      (evaluate settings state request context now) := evaluate_evaluates
  generalize evaluate settings state request context now = r at h hevaluates
  cases hevaluates with
  | refused _ _ => exact .inr h
  | refusedLate _ _ => exact .inr h
  | accepted _ _ _ _ => exact List.mem_cons.mp h

end Risk

/-! ### Sessions -/

/-- The key of an order for a candle of the window. -/
def OrderKey (window : List Candle) (key : String) : Prop :=
  ∃ (o : Orchestrator) (candle : Candle) (direction : SignalDirection),
    8 ≤ o.sessionId.length ∧ candle ∈ window ∧ key = o.clientOrderId candle direction

theorem OrderKey.mono {window window' : List Candle} {key : String} (h : OrderKey window key)
    (hsub : window ⊆ window') : OrderKey window' key := by
  obtain ⟨o, candle, direction, hlength, hmem, heq⟩ := h
  exact ⟨o, candle, direction, hlength, hsub hmem, heq⟩

/-- A session that has only seen orders of an orchestrator, for candles of the window. -/
structure Regular (window : List Candle) (s : Session) : Prop where
  ledger : MarketLedger s.paper
  indexed : ∀ k j, s.paper.idempotencyIndex.get? k = some j → OrderKey window k
  seen : ∀ k ∈ s.risk.seenIdempotencyKeys, OrderKey window k

/-- The two sessions have the same funds, flags and kill switch; with the reconciliation
their filled quantities are equally good. -/
structure SameSession (d : Deployment) (P : Time → Prop) (s s' : Session) : Prop where
  funds : SameFunds (d.enableReconciliation = true) s.paper s'.paper
  within : d.enableReconciliation = true →
    (Reconciliation.FillsOk s.paper ↔ Reconciliation.FillsOk s'.paper)
  engine : Risk.SameEngine P s.risk s'.risk
  killSwitch : s'.killSwitchEnabled = s.killSwitchEnabled

variable {d : Deployment} {P : Time → Prop} {window : List Candle} {s s' : Session}
  {request request' : OrderRequest} {context : RiskContext} {around : Surroundings}

theorem Regular.mono {window' : List Candle} (h : Regular window s) (hsub : window ⊆ window') :
    Regular window' s :=
  ⟨h.ledger, fun k j hget => (h.indexed k j hget).mono hsub, fun k hk => (h.seen k hk).mono hsub⟩

theorem Regular.marked (h : Regular window s) (symbol : String) (price : ℚ) (now : Time) :
    Regular window { s with paper := setMarkPrice d.paper s.paper symbol price now } := by
  refine ⟨h.ledger.marked symbol price, fun k j hget => ?_, h.seen⟩
  rw [(h.ledger.quiet symbol price).setMarkPrice_eq] at hget
  exact h.indexed k j hget

theorem Regular.markedAll (h : Regular window s) (marks : List (String × ℚ)) (now : Time) :
    Regular window { s with paper := markAll d.paper now s.paper marks } := by
  obtain ⟨prices, positions, heq, -⟩ := h.ledger.markAll_eq d.paper now marks
  refine ⟨h.ledger.markedAll marks, fun k j hget => ?_, h.seen⟩
  rw [heq] at hget
  exact h.indexed k j hget

/-- The gateway submits a request of the same type, under the same key. -/
theorem approvedRequest_key (request : OrderRequest) (e : RiskEvaluation) :
    (approvedRequest request e).idempotencyKey = request.idempotencyKey ∧
      (approvedRequest request e).orderType = request.orderType := by
  unfold approvedRequest
  split <;> exact ⟨rfl, rfl⟩

theorem Regular.submit (h : Regular window s) (hkey : OrderKey window request.idempotencyKey)
    (htype : request.orderType = .market) (risk : RiskEvaluation) (roll : ℚ) (now : Time) :
    MarketLedger (Paper.submit d.paper s.paper request risk roll now).2 ∧
      ∀ k j, (Paper.submit d.paper s.paper request risk roll now).2.idempotencyIndex.get? k =
        some j → OrderKey window k := by
  unfold Paper.submit
  cases hindex : s.paper.idempotencyIndex.get? request.idempotencyKey with
  | some j => exact ⟨h.ledger, h.indexed⟩
  | none =>
    refine ⟨h.ledger.submit htype, fun k j hget => ?_⟩
    obtain ⟨-, -, -, -, -, hnew⟩ :=
      @submitAfterLatency_stores d.paper s.paper risk now request roll
    rw [hnew, Dict.get?_set] at hget
    split_ifs at hget with hk
    · exact hk ▸ hkey
    · exact h.indexed k j hget

/-- A session keeps to the keys of the window when one of them is sent to the gateway. -/
theorem Regular.gateway (h : Regular window s) (hkey : OrderKey window request.idempotencyKey)
    (htype : request.orderType = .market) :
    Regular window (gatewaySubmit d.settings d.paper s request context around).2.2 := by
  have hseen : ∀ k ∈ (Risk.evaluate d.settings s.risk request context
      around.now).2.seenIdempotencyKeys, OrderKey window k := by
    intro k hk
    rcases Risk.evaluate_seen hk with rfl | hk
    · exact hkey
    · exact h.seen k hk
  simp only [gatewaySubmit]
  generalize Risk.evaluate d.settings s.risk request context around.now = r at hseen ⊢
  split_ifs
  · exact ⟨h.ledger, h.indexed, hseen⟩
  · obtain ⟨hsame, htypes⟩ := approvedRequest_key request r.1
    obtain ⟨hledger, hindexed⟩ := @Regular.submit d window s (approvedRequest request r.1) h
      (hsame ▸ hkey) (htypes.trans htype) r.1 around.roll around.now
    exact ⟨hledger, hindexed, hseen⟩

/-- What an order has come to, whatever its keys and its identifier. -/
def Order.outcome (o : Order) :
    OrderSide × OrderStatus × ℚ × Option RiskDecision × Option RiskReasonCode :=
  (o.side, o.status, o.quantity, o.riskDecision, o.riskReasonCode)

theorem tagged_outcome {order order' : Order} (h : SameOrder order order') (e : RiskEvaluation) :
    (tagged order' e).outcome = (tagged order e).outcome := by
  obtain ⟨key, clientOrderId, rfl⟩ := h
  rfl

theorem approvedRequest_same_request (h : SameRequest request request') (e : RiskEvaluation) :
    SameRequest (approvedRequest request e) (approvedRequest request' e) := by
  obtain ⟨key, clientOrderId, rfl⟩ := h
  unfold approvedRequest
  split <;> exact ⟨key, clientOrderId, rfl⟩

/-- A key that is not of the window is new to the ledger. -/
theorem Regular.unindexed {key : String} (h : Regular window s) (hnew : ¬OrderKey window key) :
    s.paper.idempotencyIndex.get? key = none := by
  cases hget : s.paper.idempotencyIndex.get? key with
  | none => rfl
  | some j => exact absurd (h.indexed key j hget) hnew

/-- **The gateway does the same to both sessions**, with a market order whose keys are new
and whose symbol has the same mark in both ledgers. -/
theorem gateway_twin {mark : ℚ} (h : SameSession d P s s') (hr : SameRequest request request')
    (htype : request.orderType = .market) (hs : Regular window s) (hs' : Regular window s')
    (hts : context.marketDataTs.isSome) (hold : ∀ t, P t → t < around.now - seconds 60)
    (hnew : ¬OrderKey window request.idempotencyKey)
    (hnew' : ¬OrderKey window request'.idempotencyKey)
    (hmark : s.paper.markPrices.get? request.symbol = some mark)
    (hmark' : s'.paper.markPrices.get? request.symbol = some mark) :
    let r := gatewaySubmit d.settings d.paper s request context around
    let r' := gatewaySubmit d.settings d.paper s' request' context around
    r'.1 = r.1 ∧ r'.2.1.map Order.outcome = r.2.1.map Order.outcome ∧
      SameSession d P r.2.2 r'.2.2 := by
  obtain ⟨hsame, hengine⟩ := @Risk.evaluate_twin d.settings s.risk s'.risk request request' context
    around.now P h.engine hr hts hold (fun hk => hnew (hs.seen _ hk)) fun hk => hnew' (hs'.seen _ hk)
  simp only [gatewaySubmit]
  generalize Risk.evaluate d.settings s.risk request context around.now = r at hsame hengine ⊢
  generalize Risk.evaluate d.settings s'.risk request' context around.now = r' at hsame hengine ⊢
  rw [← hsame]
  split_ifs
  · exact ⟨rfl, rfl, h.funds, h.within, hengine, h.killSwitch⟩
  · obtain ⟨hkey, htype'⟩ := approvedRequest_key request r.1
    obtain ⟨hkey', -⟩ := approvedRequest_key request' r.1
    have hrequest : SameRequest (approvedRequest request r.1) (approvedRequest request' r.1) :=
      approvedRequest_same_request hr r.1
    have hsymbol : (approvedRequest request r.1).symbol = request.symbol :=
      (approvedRequest_symbol request r.1).1
    have hnone := hs.unindexed (hkey ▸ hnew)
    have hnone' := hs'.unindexed (hkey' ▸ hnew')
    have htwin : Twin (d.enableReconciliation = true)
        (submitAfterLatency d.paper s.paper (approvedRequest request r.1) r.1 around.roll around.now)
        (submitAfterLatency d.paper s'.paper (approvedRequest request' r.1) r.1 around.roll
          around.now) :=
      submitAfterLatency_twin h.funds hrequest (htype'.trans htype) (hsymbol ▸ hmark)
        (hsymbol ▸ hmark')
    simp only [Paper.submit, hnone, hnone', Option.map_some, Option.some.injEq, true_and]
    refine ⟨tagged_outcome htwin.order r.1, htwin.funds, fun henabled => ?_, hengine, h.killSwitch⟩
    have hfunds : SameFunds True s.paper s'.paper := by
      obtain ⟨orders, index, marks, fills, heq, hfills⟩ := h.funds
      exact ⟨orders, index, marks, fills, heq, fun _ => hfills henabled⟩
    exact fillsOk_twin hfunds hrequest (htype'.trans htype) (hsymbol ▸ hmark) (hsymbol ▸ hmark')
      hs.ledger hs'.ledger (h.within henabled)

theorem SameSession.marked (h : SameSession d P s s') (hs : Regular window s)
    (hs' : Regular window s') (symbol : String) (price : ℚ) (now : Time) :
    SameSession d P { s with paper := setMarkPrice d.paper s.paper symbol price now }
      { s' with paper := setMarkPrice d.paper s'.paper symbol price now } where
  funds := h.funds.marked hs.ledger hs'.ledger symbol price
  within := fun henabled =>
    (hs.ledger.fillsOk_marked symbol price).trans
      ((h.within henabled).trans (hs'.ledger.fillsOk_marked symbol price).symm)
  engine := h.engine
  killSwitch := h.killSwitch

/-! ### Cycles -/

namespace Runtime

variable {input : CycleInput} {key : String} {ids : List Ident}

/-- The cycle of the other orchestrator: its orders have another key, and it has
journaled other fills. -/
def rekeyed (input : CycleInput) (key : String) (ids : List Ident) : CycleInput :=
  { input with clientOrderId := key, journaledFillIds := ids }

/-- The request under the other key. -/
def rekeyedRequest (key : String) (request : OrderRequest) : OrderRequest :=
  { request with idempotencyKey := key, clientOrderId := some key }

theorem signalRequest_rekeyed {paper paper' : PaperState} {books : Prop}
    (h : SameFunds books paper paper') (signal : TradeSignal) :
    signalRequest paper' (rekeyed input key ids) signal =
      (signalRequest paper input signal).map (rekeyedRequest key) := by
  obtain ⟨orders, index, marks, fills, rfl, -⟩ := h
  have hsymbol : (rekeyed input key ids).symbol = input.symbol := rfl
  simp only [signalRequest, hsymbol]
  cases signal.direction <;> cases paper.positions.get? input.symbol <;> rfl

/-- The signal asks the same of both ledgers. -/
theorem actingRequest_rekeyed {paper paper' : PaperState} {books : Prop}
    (h : SameFunds books paper paper') :
    actingRequest paper' (rekeyed input key ids) =
      (actingRequest paper input).map (rekeyedRequest key) := by
  have hfields : (rekeyed input key ids).accepted = input.accepted ∧
      (rekeyed input key ids).seen = input.seen ∧
      (rekeyed input key ids).tradingPaused = input.tradingPaused ∧
      (rekeyed input key ids).signal = input.signal := ⟨rfl, rfl, rfl, rfl⟩
  obtain ⟨haccepted, hseen, hpaused, hsignal⟩ := hfields
  simp only [actingRequest, haccepted, hseen, hpaused, hsignal]
  split_ifs
  · cases input.signal with
    | none => rfl
    | some signal =>
      simp only [Option.bind_some, signalRequest_rekeyed h]
      cases signalRequest paper input signal with
      | none => rfl
      | some request =>
        by_cases hpos : 0 < request.quantity
        · have hpos' : 0 < (rekeyedRequest key request).quantity := hpos
          simp [Option.filter, hpos, hpos']
        · have hpos' : ¬0 < (rekeyedRequest key request).quantity := hpos
          simp only [Option.filter, Option.map_some, hpos, hpos', decide_false]
          rfl
  · rfl

theorem sendOrder_regular {request : OrderRequest} (h : Regular window s)
    (hkey : OrderKey window request.idempotencyKey) (htype : request.orderType = .market) :
    Regular window (sendOrder d s input request).session := by
  have hgateway : Regular window (gatewaySubmit d.settings d.paper s request
      (cycleContext d s.paper input) input.around).2.2 := h.gateway hkey htype
  simp only [sendOrder]
  split_ifs <;> exact hgateway

theorem opened_regular (h : Regular window s) (hprimed : input.primed = []) :
    Regular window (opened d s input) := by
  have hsame : primed d s input = s := by rw [primed, hprimed, List.foldl_nil]
  rw [opened, hsame]
  split_ifs
  · exact h.marked input.symbol input.close input.around.now
  · exact h

/-- **A candle keeps a session to the keys of a window** that has the candle. -/
theorem processCandle_regular (h : Regular window s) (hprimed : input.primed = [])
    (hkey : OrderKey window input.clientOrderId) :
    Regular window (processCandle d s input).session := by
  have hopened : Regular window (opened d s input) := opened_regular h hprimed
  simp only [processCandle]
  cases hrequest : actingRequest (opened d s input).paper input with
  | none => exact hopened
  | some request =>
    obtain ⟨htype, -, hsame, -⟩ := actingRequest_market hrequest
    exact sendOrder_regular hopened (hsame ▸ hkey) htype

/-- The risk context of a cycle is read off the funds. -/
theorem cycleContext_rekeyed {paper paper' : PaperState} {books : Prop}
    (h : SameFunds books paper paper') :
    cycleContext d paper' (rekeyed input key ids) = cycleContext d paper input := by
  obtain ⟨orders, index, marks, fills, rfl, -⟩ := h
  rfl

theorem sendOrder_twin {request : OrderRequest} (mark : ℚ) (h : SameSession d P s s')
    (hs : Regular window s) (hs' : Regular window s') (htype : request.orderType = .market)
    (hold : ∀ t, P t → t < input.around.now - seconds 60)
    (hnew : ¬OrderKey window request.idempotencyKey) (hnew' : ¬OrderKey window key)
    (hmark : s.paper.markPrices.get? request.symbol = some mark)
    (hmark' : s'.paper.markPrices.get? request.symbol = some mark) :
    let r := sendOrder d s input request
    let r' := sendOrder d s' (rekeyed input key ids) (rekeyedRequest key request)
    r'.order.map Order.outcome = r.order.map Order.outcome ∧
      SameSession d P r.session r'.session := by
  obtain ⟨hsame, horder, hsession⟩ := @gateway_twin d P window s s' request
    (rekeyedRequest key request) (cycleContext d s.paper input) input.around mark h
    ⟨key, some key, rfl⟩ htype hs hs' rfl hold hnew hnew' hmark hmark'
  simp only [sendOrder, cycleContext_rekeyed h.funds]
  rw [show (rekeyed input key ids).around = input.around from rfl, hsame]
  split_ifs
  · exact ⟨rfl, hsession⟩
  · exact ⟨horder, hsession⟩

/-- **A candle comes to the same in both sessions**, when the key of its orders is new to
each. -/
theorem processCandle_twin (h : SameSession d P s s') (hs : Regular window s)
    (hs' : Regular window s') (haccepted : input.accepted = true) (hprimed : input.primed = [])
    (hold : ∀ t, P t → t < input.around.now - seconds 60)
    (hnew : ¬OrderKey window input.clientOrderId) (hnew' : ¬OrderKey window key) :
    let r := processCandle d s input
    let r' := processCandle d s' (rekeyed input key ids)
    r'.order.map Order.outcome = r.order.map Order.outcome ∧
      SameSession d P r.session r'.session := by
  have hopened : opened d s input =
      { s with paper := setMarkPrice d.paper s.paper input.symbol input.close input.around.now } := by
    simp only [opened, haccepted, primed, hprimed, List.foldl_nil, if_true, marked]
  have hopened' : opened d s' (rekeyed input key ids) =
      { s' with paper := setMarkPrice d.paper s'.paper input.symbol input.close input.around.now } := by
    have hfields : (rekeyed input key ids).accepted = input.accepted ∧
        (rekeyed input key ids).primed = input.primed := ⟨rfl, rfl⟩
    simp only [opened, hfields.1, haccepted, primed, hfields.2, hprimed, List.foldl_nil, if_true,
      marked]
    rfl
  have hmarked := h.marked hs hs' input.symbol input.close input.around.now
  have hregular := hs.marked (d := d) input.symbol input.close input.around.now
  have hregular' := hs'.marked (d := d) input.symbol input.close input.around.now
  have hmark := @MarketLedger.markPrices d.paper s.paper input.around.now hs.ledger input.symbol
    input.close
  have hmark' := @MarketLedger.markPrices d.paper s'.paper input.around.now hs'.ledger input.symbol
    input.close
  simp only [processCandle, hopened, hopened', actingRequest_rekeyed hmarked.funds]
  cases hrequest : actingRequest _ input with
  | none => exact ⟨rfl, hmarked⟩
  | some request =>
    obtain ⟨htype, hsymbol, hkey, -⟩ := actingRequest_market hrequest
    exact sendOrder_twin input.close hmarked hregular hregular' htype hold (hkey ▸ hnew) hnew'
      (by rw [hsymbol]; exact hmark) (by rw [hsymbol]; exact hmark')

/-- A candle that is not accepted leaves the session. -/
theorem processCandle_unaccepted (haccepted : input.accepted = false) (hprimed : input.primed = []) :
    processCandle d s input = { session := s } := by
  have hopened : opened d s input = s := by
    simp [opened, haccepted, primed, hprimed]
  have hnone : actingRequest s.paper input = none := by
    simp [actingRequest, haccepted]
  rw [processCandle, hopened, hnone]
  rfl

/-- **What follows the candle comes to the same**: the check of the invariants, and the
verdict of the reconciliation. -/
theorem cycle_twin {r r' : Runtime} {input' : CycleInput}
    (hinvariants : input'.invariantsHold = input.invariantsHold)
    (h : SameSession d P (processCandle d r.session input).session
      (processCandle d r'.session input').session) :
    SameSession d P (cycle d r input).session (cycle d r' input').session := by
  have hcycle : SameSession d P (cycleSession d r input) (cycleSession d r' input') := by
    simp only [cycleSession, hinvariants]
    split_ifs
    · exact h
    · obtain ⟨times, keys, ts, heq, hold⟩ := h.engine
      exact ⟨h.funds, h.within, ⟨times, keys, ts, by simp only [failClosed, heq], hold⟩, h.killSwitch⟩
  have hverdict : Healthy d (cycleSession d r input).paper ↔
      Healthy d (cycleSession d r' input').paper := hcycle.funds.healthy_iff hcycle.within
  simp only [cycle, reconciledSession]
  split_ifs
  · obtain ⟨times, keys, ts, heq, hold⟩ := hcycle.engine
    exact ⟨hcycle.funds, hcycle.within, ⟨times, keys, ts, by simp only [heq, hverdict], hold⟩,
      hcycle.killSwitch⟩
  · exact hcycle

theorem cycle_regular {r : Runtime}
    (h : Regular window (processCandle d r.session input).session) :
    Regular window (cycle d r input).session := by
  have hcycle : Regular window (cycleSession d r input) := by
    simp only [cycleSession]
    split_ifs
    · exact h
    · exact ⟨h.ledger, h.indexed, h.seen⟩
  simp only [cycle, reconciledSession]
  split_ifs
  · exact ⟨hcycle.ledger, hcycle.indexed, hcycle.seen⟩
  · exact hcycle

end Runtime

end Atlas
