import Atlas.Analytics.TradeJournal
import Atlas.Paper.Sales
import Atlas.Session.Trace

/-!
# The sales of a session and its journal

`_submit` journals the fills of a SELL that has filled when the engine returns it.  The
fills a mark makes later, of an order that rests, are journaled by nobody.

So the journal has one trade for each sale as long as no mark sells.  An order takes the
key, the identifier and the fills no other order has, which is why one call of the journal
tells of one sale and never of an old one.

## Main definitions

* `Session.closedTrades` — the trades `_submit` builds.
* `JournalRun` — a session with its journal, beside the sales the engine has made.
* `JournalRun.Journaled` — one trade for each sale, and no other.
* `JournalRun.MarksSellNothing` — the marks of an action fill no resting SELL.

## Main results

* `gatewaySubmit_sends` — what the gateway does to ledger and keys.
* `closedTrades_sales` — the trades of an order are those of its sales.
* `sales_journaled` — **every sale is journaled once, while no mark sells**.
* `resting_sale_not_journaled` — **a sale a mark makes is not**.

## References

`app/services/paper_session.py`, `app/analytics/recorder.py`, `app/execution/paper/engine.py`.
-/

namespace Atlas

open Paper Session Transition Analytics

/-! ### What a ledger keeps -/

namespace Paper

variable {cfg : PaperConfig} {s s' : PaperState} {keys : List String} {fills : List Fill}
  {risk : RiskEvaluation} {now : Time}

/-- A ledger whose index holds some keys only, and that has recorded some fills. -/
structure Kept (keys : List String) (fills : List Fill) (s : PaperState) : Prop where
  keyed : Keyed s
  drawn : FillsDrawn s
  known : ∀ f ∈ fills, f ∈ s.fills
  indexed : ∀ k j, s.idempotencyIndex.get? k = some j → k ∈ keys

theorem Kept.mono {keys' : List String} (h : Kept keys fills s) (hkeys : ∀ k ∈ keys, k ∈ keys') :
    Kept keys' fills s :=
  ⟨h.keyed, h.drawn, h.known, fun k j hget => hkeys k (h.indexed k j hget)⟩

/-- The terms on which only requests with some keys open orders. -/
def withKeys (keys : List String) : Terms where
  request _ request := request.idempotencyKey ∈ keys

theorem Booking.kept (h : Booking cfg (withKeys keys) s s') (hkeep : Kept keys fills s) :
    Kept keys fills s' := by
  refine ⟨h.keyed hkeep.keyed, h.fillsDrawn hkeep.drawn, ?_, ?_⟩
  · intro f hf
    have hold : f ∈ s.fills := hkeep.known f hf
    cases h with
    | create _ _ _ _ _ => exact hold
    | mark _ _ _ _ => exact hold
    | idle _ _ _ _ _ hidle => exact hidle.fills ▸ hold
    | attempt a hp _ =>
      have hw : Works a.state a.order (a.apply cfg) := Attempt.apply_works hp.live_ne
      obtain ⟨fs, hfs, -⟩ := hw.frame.fills
      rw [hfs]
      exact List.mem_append_left fs hold
  · cases h with
    | create _ request _ _ hreq =>
      intro k j hget
      simp only [created, Dict.get?_set] at hget
      split_ifs at hget with hk
      · exact hk ▸ hreq
      · exact hkeep.indexed k j hget
    | mark _ _ _ _ => exact hkeep.indexed
    | idle _ _ _ _ _ hidle =>
      rw [hidle.frame.index]
      exact hkeep.indexed
    | attempt a hp _ =>
      have hw : Works a.state a.order (a.apply cfg) := Attempt.apply_works hp.live_ne
      rw [hw.frame.index]
      exact hkeep.indexed

/-- The key of a submission is among the keys. -/
def Op.KeyIn (keys : List String) : Op → Prop
  | .submit request _ _ _ => request.idempotencyKey ∈ keys
  | _ => True

theorem Kept.step {op : Op} (h : Kept keys fills s) (hop : op.KeyIn keys) :
    Kept keys fills (step cfg s op) := by
  have hmeets : (withKeys keys).Meets cfg s op := by
    refine ⟨?_, fun _ _ => trivial⟩
    cases op with
    | submit request risk roll now => exact fun _ => hop
    | setMarkPrice symbol price now => trivial
    | cancel id now => trivial
    | expire id now => trivial
  have hb : Bookings cfg (withKeys keys) s (Paper.step cfg s op) := step_bookings h.keyed hmeets
  exact hb.invariant (fun _ hb hkeep => hb.kept hkeep) h.keyed h

theorem Kept.steps {ops : List Op} (hops : ∀ op ∈ ops, op.KeyIn keys) :
    ∀ {s : PaperState}, Kept keys fills s → Kept keys fills (ops.foldl (Paper.step cfg) s) := by
  induction ops with
  | nil => exact fun h => h
  | cons op ops ih =>
    intro s h
    exact ih (fun o ho => hops o (List.mem_cons_of_mem _ ho)) (h.step (hops op (List.mem_cons_self ..)))

/-! ### The order of a submission -/

/-- The order a submission returns is the one it has made. -/
theorem submitAfterLatency_same (request : OrderRequest) (roll : ℚ) :
    (submitAfterLatency cfg s request risk roll now).1.id = .uuid4 s.nextUuid ∧
      (submitAfterLatency cfg s request risk roll now).1.side = request.side := by
  have hw : Works (created s request now) (newOrder s request now)
      (submitAfterLatency cfg s request risk roll now) :=
    submitAfterLatency_works s request risk roll now
  exact ⟨hw.same.id, hw.same.side⟩

/-- What sells at its submission sells from a position. -/
theorem submitAttempts_position {request : OrderRequest} {roll : ℚ}
    (h : salesOf cfg (submitAttempts cfg s request risk roll now) ≠ []) :
    ∃ p, s.positions.get? request.symbol = some p := by
  have hprep : Idle (created s request now) (newOrder s request now)
      (prepare cfg s request risk roll now).result := prepare_idle s request risk roll now
  cases hprepared : prepare cfg s request risk roll now with
  | done o s' =>
    rw [submitAttempts, hprepared] at h
    exact absurd rfl h
  | execute o s' mark =>
    rw [hprepared] at hprep
    rw [submitAttempts, hprepared] at h
    have hsells : (immediateAttempt cfg s' o request risk mark now).Sells cfg := by
      by_contra hno
      exact h (by simp [salesOf, hno])
    obtain ⟨hside, hq, hcov⟩ := hsells
    have hheld : (immediateAttempt cfg s' o request risk mark now).fillQty ≤ held s' o.symbol := by
      have hqty := hcov.resolve_left (not_le.mpr hq)
      simp only [hside] at hqty
      exact hqty
    have hpositions : s'.positions = s.positions := hprep.books.positions
    have hsymbol : o.symbol = request.symbol := hprep.same.symbol
    rw [hsymbol, held, hpositions] at hheld
    cases hget : s.positions.get? request.symbol with
    | some p => exact ⟨p, rfl⟩
    | none =>
      rw [hget] at hheld
      exact absurd hheld (not_le.mpr hq)

/-- Two recorded fills with one trade are one fill. -/
theorem FillsDrawn.id_eq {f g : Fill} (h : FillsDrawn s) (hf : f ∈ s.fills) (hg : g ∈ s.fills)
    (heq : tradeId f.id = tradeId g.id) : f.id = g.id := by
  obtain ⟨n, -, hn⟩ := h.drawn f hf
  obtain ⟨m, -, hm⟩ := h.drawn g hg
  rw [hn, hm] at heq ⊢
  rw [tradeId_uuid4_inj heq]

/-- The sale of a submission, with what the journal reads of it. -/
inductive OneSale (fills : List Fill) (s : PaperState) (request : OrderRequest)
    (r : Order × PaperState) : List Sale → Prop
  | unsold (hno : ¬(request.side = .sell ∧ Order.HasFilled r.1)) : OneSale fills s request r []
  /-- The fill of the sale is a new one, and the only one of the order. -/
  | sold (sale : Sale) (p : Position) (hrequest : request.side = .sell) (hside : r.1.side = .sell)
      (hfilled : Order.HasFilled r.1) (hposition : s.positions.get? request.symbol = some p)
      (hown : fillsOf r.2.fills r.1.id = [sale.fill]) (hknown : sale.fill ∈ r.2.fills)
      (hnew : ∀ f ∈ fills, f.id ≠ sale.fill.id) : OneSale fills s request r [sale]

/-- **The submission of a new key makes one sale, or none**, and its order says which. -/
theorem submit_oneSale {request : OrderRequest} {roll : ℚ} (hkept : Kept keys fills s)
    (hnone : s.idempotencyIndex.get? request.idempotencyKey = none) :
    OneSale fills s request (submitAfterLatency cfg s request risk roll now)
      (salesOf cfg (submitAttempts cfg s request risk roll now)) := by
  have hstep : Kept (request.idempotencyKey :: keys) fills
      (step cfg s (.submit request risk roll now)) :=
    (hkept.mono fun k hk => List.mem_cons_of_mem _ hk).step (List.mem_cons_self ..)
  have hdrawn : FillsDrawn (submitAfterLatency cfg s request risk roll now).2 := by
    simpa only [step, submit, hnone] using hstep.drawn
  have hposition : _ → ∃ p, s.positions.get? request.symbol = some p :=
    @submitAttempts_position cfg s risk now request roll
  obtain ⟨hid, hside⟩ := @submitAfterLatency_same cfg s risk now request roll
  have hsells := @submit_sales cfg s risk now request roll
  generalize submitAfterLatency cfg s request risk roll now = r at hdrawn hid hside hsells ⊢
  generalize submitAttempts cfg s request risk roll now = as at hposition hsells ⊢
  cases hsells with
  | unsold hno hsold =>
    rw [hsold]
    exact .unsold (hside ▸ hno)
  | sold a hselling hfilled hsold hmade hfills =>
    obtain ⟨p, hp⟩ := hposition (hsold ▸ List.cons_ne_nil _ _)
    rw [hsold]
    refine .sold _ p (hside.symm.trans hselling) hselling hfilled hp ?_ ?_ fun f hf heq => ?_
    · -- the order is new, so the fill of this call is its only one
      rw [hfills, hid, fillsOf_append, hkept.keyed.fillsOf_next, List.nil_append, ← hid, ← hmade]
      simp [fillsOf, Attempt.fill]
    · rw [hfills]
      exact List.mem_append_right _ (List.mem_singleton_self _)
    · have hnodup : ((s.fills ++ [a.fill cfg]).map Fill.id).Nodup := hfills ▸ hdrawn.distinct
      rw [List.map_append, List.map_singleton] at hnodup
      exact (List.nodup_append.mp hnodup).2.2 _ (List.mem_map_of_mem (hkept.known f hf)) _
        (List.mem_singleton_self _) heq

end Paper

/-! ### Orders and their trades -/

namespace Session

variable (settings : RiskSettings) (cfg : PaperConfig) (paperSessionId : String)

/-- The trades `_submit` builds: `position_before` is read before the gateway, what the
record says of the risk after the order is counted. -/
def closedTrades (s : Session) (args : OrderArgs) (key : String) (around : Surroundings) :
    List ClosedTrade :=
  let context := riskContext settings cfg s args.symbol around
  let positionBefore :=
    if args.side = .sell then context.2.paper.positions.get? args.symbol else none
  let r := gatewaySubmit settings cfg context.2 (args.request key) context.1 around
  let s := countSale r.2.2 r.2.1 context.2.paper.realizedPnl
  r.2.1.elim [] fun order =>
    if args.side = .sell ∧ (order.status = .filled ∨ order.status = .partiallyFilled) then
      maybeBuildClosedTrade positionBefore order (fillsOf s.paper.fills order.id)
        { feeRate := cfg.feeRate
          slippageRate := cfg.slippageRate
          paperSessionId := paperSessionId
          exitReason := if textOr args.strategyName "manual" = "manual" then "manual" else "signal_exit"
          drawdown := drawdown s.peakEquity s.paper.equity
          consecutiveLosses := s.consecutiveLosses
          killSwitch := s.killSwitchEnabled }
    else []

/-- The operations of an action. -/
def actionOps (s : Session) : Action → List Op
  | .submit args key around => submitOps settings cfg s args key around
  | .setMarkPrice symbol price now => [.setMarkPrice symbol price now]
  | .cancel orderId now => [.cancel orderId now]
  | .expire orderId now => [.expire orderId now]

variable {settings cfg paperSessionId} {s : Session} {args : OrderArgs} {key : String}
  {around : Surroundings}

/-- What the gateway does to the ledger and to the seen keys. -/
inductive GatewaySends (cfg : PaperConfig) (s : Session) (request : OrderRequest)
    (around : Surroundings) : List Op → RiskEvaluation × Option Order × Session → Prop
  | refused (r : RiskEvaluation × Option Order × Session) (horder : r.2.1 = none)
      (hpaper : r.2.2.paper = s.paper)
      (hseen : r.2.2.risk.seenIdempotencyKeys = s.risk.seenIdempotencyKeys) :
      GatewaySends cfg s request around [] r
  /-- The key is new to the risk engine, and seen from then on. -/
  | sent (r : RiskEvaluation × Option Order × Session) (e : RiskEvaluation)
      (hunseen : request.idempotencyKey ∉ s.risk.seenIdempotencyKeys)
      (horder : r.2.1 = (Paper.submit cfg s.paper (approvedRequest request e) e around.roll
        around.now).1.map (tagged · e))
      (hpaper : r.2.2.paper = (Paper.submit cfg s.paper (approvedRequest request e) e around.roll
        around.now).2)
      (hseen : r.2.2.risk.seenIdempotencyKeys =
        request.idempotencyKey :: s.risk.seenIdempotencyKeys) :
      GatewaySends cfg s request around
        [.submit (approvedRequest request e) e around.roll around.now] r

theorem gatewaySubmit_sends (s : Session) (request : OrderRequest) (context : RiskContext)
    (around : Surroundings) :
    GatewaySends cfg s request around (gatewayOps settings s request context around)
      (gatewaySubmit settings cfg s request context around) := by
  have hevaluates : Risk.Evaluates settings s.risk request context around.now
      (Risk.evaluate settings s.risk request context around.now) := Risk.evaluate_evaluates
  simp only [gatewayOps, gatewaySubmit]
  generalize Risk.evaluate settings s.risk request context around.now = r at hevaluates ⊢
  cases hevaluates with
  | refused answer hno =>
    simp only [if_pos (RiskEvaluation.not_accepts_iff.mp hno)]
    exact .refused _ rfl rfl rfl
  | refusedLate answer hno =>
    simp only [if_pos (RiskEvaluation.not_accepts_iff.mp hno)]
    exact .refused _ rfl rfl rfl
  | accepted price z hpassed hsize =>
    have hopen : ¬((Risk.accept z).decision = .rejected ∨ (Risk.accept z).decision = .halted) :=
      fun hno => RiskEvaluation.not_accepts_iff.mpr hno (Risk.accept_accepts z)
    simp only [if_neg hopen]
    exact .sent _ (Risk.accept z) hpassed.unseen rfl rfl rfl

theorem approvedRequest_same (request : OrderRequest) (e : RiskEvaluation) :
    (approvedRequest request e).idempotencyKey = request.idempotencyKey ∧
      (approvedRequest request e).side = request.side ∧
      (approvedRequest request e).orderType = request.orderType := by
  unfold approvedRequest
  split <;> exact ⟨rfl, rfl, rfl⟩

/-- What an action says of the sale it makes, if it makes one. -/
inductive SaleTold (s s' : PaperState) : List Sale → List ClosedTrade → Prop
  | none : SaleTold s s' [] []
  | one (sale : Sale) (trade : ClosedTrade) (hid : trade.id = tradeId sale.fill.id)
      (hknown : sale.fill ∈ s'.fills) (hnew : ∀ f ∈ s.fills, f.id ≠ sale.fill.id) :
      SaleTold s s' [sale] [trade]

theorem tagged_hasFilled (order : Order) (e : RiskEvaluation) :
    ((tagged order e).status = .filled ∨ (tagged order e).status = .partiallyFilled) ↔
      Order.HasFilled order := by
  unfold tagged Order.HasFilled
  dsimp only
  split_ifs with h
  · simp [h]
  · rfl

theorem fillsOf_fillsOf (fills : List Fill) (id : Ident) :
    fillsOf (fillsOf fills id) id = fillsOf fills id := by
  simp [fillsOf, List.filter_filter]

/-- The ledger an order is evaluated on is the one after its mark. -/
theorem riskContext_paper (s : Session) (args : OrderArgs) (around : Surroundings) :
    (riskContext settings cfg s args.symbol around).2.paper =
      (markOps s.paper args.symbol around).foldl (Paper.step cfg) s.paper := by
  have hmark : Traced cfg s.paper (markOps s.paper args.symbol around)
      (riskContext settings cfg s args.symbol around).2.paper := by
    simp only [riskContext, portfolioState, raisePeak]
    refine mark_traced ?_ args.symbol around
    rfl
  exact hmark.after

/-- A mark opens no order. -/
theorem markOps_keyIn (keys : List String) (paper : PaperState) (symbol : String)
    (around : Surroundings) : ∀ op ∈ markOps paper symbol around, op.KeyIn keys := by
  intro op hop
  unfold markOps at hop
  split at hop
  · cases hop
  · rw [List.mem_singleton.mp hop]
    trivial

theorem riskContext_seen (s : Session) (symbol : String) (around : Surroundings) :
    (riskContext settings cfg s symbol around).2.risk.seenIdempotencyKeys =
      s.risk.seenIdempotencyKeys := by
  simp only [riskContext, portfolioState, raisePeak, mark]
  split <;> rfl

/-- The keys of an order are seen before the ledger gets them. -/
theorem submit_kept {fills : List Fill} (h : Kept s.risk.seenIdempotencyKeys fills s.paper) :
    Kept (submit settings cfg s args key around).2.2.risk.seenIdempotencyKeys fills
      (submit settings cfg s args key around).2.2.paper := by
  have hafter : (submit settings cfg s args key around).2.2.paper = _ :=
    (submit_traced s args key around).after
  have hrisk : (submit settings cfg s args key around).2.2.risk =
      (gatewaySubmit settings cfg (riskContext settings cfg s args.symbol around).2
        (args.request key) (riskContext settings cfg s args.symbol around).1 around).2.2.risk := by
    simp only [submit, raisePeak, countSale]
    split_ifs <;> rfl
  have hsends := @gatewaySubmit_sends settings cfg (riskContext settings cfg s args.symbol around).2
    (args.request key) (riskContext settings cfg s args.symbol around).1 around
  have hseen : (riskContext settings cfg s args.symbol around).2.risk.seenIdempotencyKeys = _ :=
    riskContext_seen s args.symbol around
  rw [hafter, hrisk, submitOps]
  have hmark : Kept s.risk.seenIdempotencyKeys fills
      ((markOps s.paper args.symbol around).foldl (Paper.step cfg) s.paper) :=
    h.steps (markOps_keyIn _ s.paper args.symbol around)
  rw [List.foldl_append]
  generalize riskContext settings cfg s args.symbol around = context at hsends hseen ⊢
  generalize gatewayOps settings context.2 (args.request key) context.1 around = ops at hsends ⊢
  generalize gatewaySubmit settings cfg context.2 (args.request key) context.1 around = r
    at hsends ⊢
  cases hsends with
  | refused _ _ _ hsame =>
    rw [hsame, hseen]
    exact hmark
  | sent _ e _ _ _ hnew =>
    rw [hnew, hseen]
    have hmono : Kept ((args.request key).idempotencyKey :: s.risk.seenIdempotencyKeys) fills _ :=
      hmark.mono fun k hk => List.mem_cons_of_mem _ hk
    have hop : (Op.submit (approvedRequest (args.request key) e) e around.roll around.now).KeyIn
        ((args.request key).idempotencyKey :: s.risk.seenIdempotencyKeys) :=
      (approvedRequest_same (args.request key) e).1 ▸ List.mem_cons_self ..
    exact hmono.step hop

/-- **An action keeps the keys of the ledger among the seen ones**, and its fills. -/
theorem step_kept {fills : List Fill} (h : Kept s.risk.seenIdempotencyKeys fills s.paper)
    (action : Action) :
    Kept (Session.step settings cfg s action).risk.seenIdempotencyKeys fills
      (Session.step settings cfg s action).paper := by
  cases action with
  | submit args key around => exact submit_kept h
  | setMarkPrice symbol price now =>
    have hop : (Op.setMarkPrice symbol price now).KeyIn s.risk.seenIdempotencyKeys := trivial
    exact h.step hop
  | cancel orderId now =>
    have hop : (Op.cancel orderId now).KeyIn s.risk.seenIdempotencyKeys := trivial
    exact @Kept.step cfg _ _ _ _ h hop
  | expire orderId now =>
    have hop : (Op.expire orderId now).KeyIn s.risk.seenIdempotencyKeys := trivial
    exact @Kept.step cfg _ _ _ _ h hop

/-- What `_submit` sends from the ledger after its mark, and the trades it builds. -/
inductive Sends (cfg : PaperConfig) (paper : PaperState) (fills : List Fill) (args : OrderArgs) :
    PaperState → List Sale → List ClosedTrade → Prop
  | refused : Sends cfg paper fills args paper [] []
  | unsold (request : OrderRequest) (e : RiskEvaluation) (roll : ℚ) (now : Time)
      (hside : request.side = args.side) (htype : request.orderType = args.orderType)
      (hsold : salesOf cfg (submitAttempts cfg paper request e roll now) = []) :
      Sends cfg paper fills args (submitAfterLatency cfg paper request e roll now).2 [] []
  | sold (request : OrderRequest) (e : RiskEvaluation) (roll : ℚ) (now : Time) (sale : Sale)
      (p : Position) (order : Order) (exit : Exit) (riskScore : ℚ) (marketRegime : String)
      (hside : request.side = args.side) (htype : request.orderType = args.orderType)
      (hsold : salesOf cfg (submitAttempts cfg paper request e roll now) = [sale])
      (hposition : paper.positions.get? request.symbol = some p)
      (hrate : exit.feeRate = cfg.feeRate)
      (hknown : sale.fill ∈ (submitAfterLatency cfg paper request e roll now).2.fills)
      (hnew : ∀ f ∈ fills, f.id ≠ sale.fill.id) :
      Sends cfg paper fills args (submitAfterLatency cfg paper request e roll now).2 [sale]
        [buildClosedTradeFromExit p order sale.fill exit riskScore marketRegime]

/-- What is sent is journaled if it sells, with its position from before. -/
theorem sends_of_oneSale {paper : PaperState} {fills : List Fill} {request : OrderRequest}
    {e : RiskEvaluation} {roll : ℚ} {now : Time} {exit : Exit}
    (hone : OneSale fills paper request (submitAfterLatency cfg paper request e roll now)
      (salesOf cfg (submitAttempts cfg paper request e roll now)))
    (hside : request.side = args.side) (htype : request.orderType = args.orderType)
    (hsymbol : request.symbol = args.symbol) (hrate : exit.feeRate = cfg.feeRate) :
    let r := submitAfterLatency cfg paper request e roll now
    let order := tagged r.1 e
    Sends cfg paper fills args r.2 (salesOf cfg (submitAttempts cfg paper request e roll now))
      (if args.side = .sell ∧ (order.status = .filled ∨ order.status = .partiallyFilled) then
        maybeBuildClosedTrade (if args.side = .sell then paper.positions.get? args.symbol else none)
          order (fillsOf r.2.fills order.id) exit
      else []) := by
  intro r order
  obtain ⟨sold, hsold⟩ : ∃ sold,
      salesOf cfg (submitAttempts cfg paper request e roll now) = sold := ⟨_, rfl⟩
  rw [hsold] at hone ⊢
  cases hone with
  | unsold hno =>
    have hnot : ¬(args.side = .sell ∧
        (order.status = .filled ∨ order.status = .partiallyFilled)) := by
      rw [tagged_hasFilled, ← hside]
      exact hno
    rw [if_neg hnot]
    exact .unsold request e roll now hside htype hsold
  | sold sale p hrequest hselling hfilled hposition hown hknown hnew =>
    have hargs : args.side = .sell := hside.symm.trans hrequest
    obtain ⟨riskScore, marketRegime, htrade⟩ : ∃ riskScore marketRegime,
        maybeBuildClosedTrade (some p) order (fillsOf r.2.fills r.1.id) exit =
          [buildClosedTradeFromExit p _ sale.fill exit riskScore marketRegime] :=
      maybeBuildClosedTrade_one hselling ((tagged_hasFilled ..).mpr hfilled)
        ((fillsOf_fillsOf ..).trans hown)
    rw [if_pos ⟨hargs, (tagged_hasFilled ..).mpr hfilled⟩, if_pos hargs, ← hsymbol, hposition]
    rw [show order.id = r.1.id from rfl, htrade]
    exact .sold request e roll now sale p _ exit riskScore marketRegime hside htype hsold hposition
      hrate hknown hnew

/-- **What an order journals**: the trade of its sale, if it sells. -/
theorem closedTrades_sends (hkept : Kept s.risk.seenIdempotencyKeys s.paper.fills s.paper) :
    Sends cfg (riskContext settings cfg s args.symbol around).2.paper s.paper.fills args
      (submit settings cfg s args key around).2.2.paper
      (salesAlong cfg (riskContext settings cfg s args.symbol around).2.paper
        (gatewayOps settings (riskContext settings cfg s args.symbol around).2 (args.request key)
          (riskContext settings cfg s args.symbol around).1 around))
      (closedTrades settings cfg paperSessionId s args key around) := by
  have hpaper : (riskContext settings cfg s args.symbol around).2.paper = _ :=
    riskContext_paper s args around
  have hseen : (riskContext settings cfg s args.symbol around).2.risk.seenIdempotencyKeys = _ :=
    riskContext_seen s args.symbol around
  simp only [submit, closedTrades, raisePeak, countSale_paper]
  have hkept' : Kept s.risk.seenIdempotencyKeys s.paper.fills
      (riskContext settings cfg s args.symbol around).2.paper := by
    rw [hpaper]
    exact hkept.steps (markOps_keyIn _ s.paper args.symbol around)
  generalize riskContext settings cfg s args.symbol around = context at hkept' hseen ⊢
  have hsends : GatewaySends cfg context.2 (args.request key) around
      (gatewayOps settings context.2 (args.request key) context.1 around)
      (gatewaySubmit settings cfg context.2 (args.request key) context.1 around) :=
    gatewaySubmit_sends context.2 (args.request key) context.1 around
  generalize gatewayOps settings context.2 (args.request key) context.1 around = ops at hsends
  generalize gatewaySubmit settings cfg context.2 (args.request key) context.1 around = r at hsends
  cases hsends with
  | refused _ horder hafter _ =>
    rw [horder, hafter]
    exact .refused
  | sent _ e hunseen horder hafter _ =>
    obtain ⟨hkey, hside, htype⟩ := approvedRequest_same (args.request key) e
    have hsymbol : (approvedRequest (args.request key) e).symbol = args.symbol :=
      (approvedRequest_symbol (args.request key) e).1
    generalize approvedRequest (args.request key) e = request
      at horder hafter hkey hside htype hsymbol ⊢
    generalize context.2.paper = paper at hkept' horder hafter ⊢
    -- a key that is new to the risk engine is new to the ledger
    have hnone : paper.idempotencyIndex.get? request.idempotencyKey = none := by
      cases hget : paper.idempotencyIndex.get? request.idempotencyKey with
      | none => rfl
      | some j =>
        rw [hkey] at hget
        exact absurd (hkept'.indexed _ j hget) (hseen ▸ hunseen)
    have hone : OneSale s.paper.fills paper request
        (submitAfterLatency cfg paper request e around.roll around.now)
        (salesOf cfg (submitAttempts cfg paper request e around.roll around.now)) :=
      submit_oneSale hkept' hnone
    simp only [Paper.submit, hnone, Option.map_some] at horder hafter
    rw [horder, hafter, Option.elim_some]
    simp only [salesAlong, sales, attempts, hnone, List.append_nil]
    exact sends_of_oneSale hone hside htype hsymbol rfl

/-- **The trades of an order are those of its sales**, if its mark sells nothing. -/
theorem closedTrades_told (hkept : Kept s.risk.seenIdempotencyKeys s.paper.fills s.paper)
    (hmarks : salesAlong cfg s.paper (markOps s.paper args.symbol around) = []) :
    SaleTold s.paper (submit settings cfg s args key around).2.2.paper
      (salesAlong cfg s.paper (submitOps settings cfg s args key around))
      (closedTrades settings cfg paperSessionId s args key around) := by
  have hsends : Sends cfg (riskContext settings cfg s args.symbol around).2.paper s.paper.fills args
      (submit settings cfg s args key around).2.2.paper _
      (closedTrades settings cfg paperSessionId s args key around) := closedTrades_sends hkept
  rw [submitOps, salesAlong_append, hmarks, List.nil_append,
    ← @riskContext_paper settings cfg s args around]
  generalize salesAlong cfg (riskContext settings cfg s args.symbol around).2.paper _ = sold
    at hsends ⊢
  generalize closedTrades settings cfg paperSessionId s args key around = trades at hsends ⊢
  generalize (submit settings cfg s args key around).2.2.paper = after at hsends ⊢
  cases hsends with
  | refused => exact .none
  | unsold => exact .none
  | sold _ _ _ _ sale p order exit riskScore marketRegime _ _ _ _ _ hknown hnew =>
    exact .one sale _ rfl hknown hnew

end Session

/-- A session with its journal, and the SELL fills the engine has applied to a position. -/
structure JournalRun where
  session : Session
  trades : List ClosedTrade := []
  sold : List Sale := []
  deriving DecidableEq, Repr

namespace JournalRun

variable (settings : RiskSettings) (cfg : PaperConfig) (paperSessionId : String)

/-- The trades an action journals. -/
def journaled (run : JournalRun) : Action → List ClosedTrade
  | .submit args key around => closedTrades settings cfg paperSessionId run.session args key around
  | _ => []

/-- A manual order and each pass of a close are submissions, after a mark for a symbol
without one. -/
def step (run : JournalRun) (action : Action) : Option JournalRun :=
  some
    { session := Session.step settings cfg run.session action
      trades :=
        (persistClosedTrades run.trades (run.journaled settings cfg paperSessionId action)).1
      sold := run.sold ++
        salesAlong cfg run.session.paper (actionOps settings cfg run.session action) }

/-- The marks of an action fill no resting SELL against a position. -/
def MarksSellNothing (run : JournalRun) : Action → Prop
  | .submit args _ around =>
      salesAlong cfg run.session.paper (markOps run.session.paper args.symbol around) = []
  | .setMarkPrice symbol price now => sales cfg run.session.paper (.setMarkPrice symbol price now) = []
  | _ => True

instance (run : JournalRun) : (action : Action) → Decidable (run.MarksSellNothing cfg action)
  | .submit .. => inferInstanceAs (Decidable (salesAlong _ _ _ = []))
  | .setMarkPrice .. => inferInstanceAs (Decidable (sales _ _ _ = []))
  | .cancel .. | .expire .. => inferInstanceAs (Decidable True)

/-- There is exactly one trade for each sale, under the identifier of its fill, and no
trade without a sale. -/
structure Journaled (run : JournalRun) : Prop where
  once : ∀ sale ∈ run.sold, (run.trades.filter fun t => t.id = tradeId sale.fill.id).length = 1
  backed : ∀ t ∈ run.trades, ∃ sale ∈ run.sold, t.id = tradeId sale.fill.id

/-- What the steps keep: the trades are those of the sales, whose fills are recorded. -/
structure Told (run : JournalRun) : Prop where
  kept : Kept run.session.risk.seenIdempotencyKeys (run.sold.map Sale.fill) run.session.paper
  ids : run.trades.map ClosedTrade.id = run.sold.map fun sale => tradeId sale.fill.id
  distinct : (run.sold.map fun sale => tradeId sale.fill.id).Nodup

variable {settings cfg paperSessionId} {run run' : JournalRun} {action : Action}

theorem Told.journaled (h : run.Told) : run.Journaled where
  once := by
    intro sale hsale
    have hmem : tradeId sale.fill.id ∈ run.trades.map ClosedTrade.id := by
      rw [h.ids]
      exact List.mem_map_of_mem hsale
    have hnodup : (run.trades.map ClosedTrade.id).Nodup := h.ids ▸ h.distinct
    have hcount : (run.trades.map ClosedTrade.id).count (tradeId sale.fill.id) = 1 :=
      List.count_eq_one_of_mem hnodup hmem
    rw [List.count, List.countP_map, List.countP_eq_length_filter] at hcount
    exact hcount
  backed := by
    intro t ht
    have hmem : t.id ∈ run.sold.map fun sale => tradeId sale.fill.id := by
      rw [← h.ids]
      exact List.mem_map_of_mem ht
    obtain ⟨sale, hsale, hid⟩ := List.mem_map.mp hmem
    exact ⟨sale, hsale, hid.symm⟩

/-- **An action tells the journal of its sales**, if its marks sell nothing. -/
theorem action_told (hkept : Kept run.session.risk.seenIdempotencyKeys run.session.paper.fills
    run.session.paper) (hmarks : run.MarksSellNothing cfg action) :
    SaleTold run.session.paper (Session.step settings cfg run.session action).paper
      (salesAlong cfg run.session.paper (actionOps settings cfg run.session action))
      (run.journaled settings cfg paperSessionId action) := by
  cases action with
  | submit args key around => exact closedTrades_told hkept hmarks
  | setMarkPrice symbol price now =>
    have hnone : sales cfg run.session.paper (.setMarkPrice symbol price now) = [] := hmarks
    simp only [actionOps, salesAlong, hnone, List.append_nil]
    exact .none
  | cancel orderId now => exact .none
  | expire orderId now => exact .none

theorem Told.step (h : run.Told) (hmarks : run.MarksSellNothing cfg action)
    (hstep : run.step settings cfg paperSessionId action = some run') : run'.Told := by
  have hown : Kept run.session.risk.seenIdempotencyKeys run.session.paper.fills run.session.paper :=
    ⟨h.kept.keyed, h.kept.drawn, fun _ hf => hf, h.kept.indexed⟩
  have htold : SaleTold run.session.paper (Session.step settings cfg run.session action).paper
      (salesAlong cfg run.session.paper (actionOps settings cfg run.session action))
      (run.journaled settings cfg paperSessionId action) := action_told hown hmarks
  have hkept : Kept (Session.step settings cfg run.session action).risk.seenIdempotencyKeys
      run.session.paper.fills (Session.step settings cfg run.session action).paper :=
    step_kept hown action
  rw [JournalRun.step, Option.some.injEq] at hstep
  subst hstep
  generalize Session.step settings cfg run.session action = session at htold hkept ⊢
  generalize run.journaled settings cfg paperSessionId action = trades at htold ⊢
  generalize salesAlong cfg run.session.paper _ = sold at htold ⊢
  have hold : ∀ sale ∈ run.sold, sale.fill ∈ session.paper.fills := fun sale hsale =>
    hkept.known _ (h.kept.known _ (List.mem_map_of_mem hsale))
  cases htold with
  | none =>
    rw [List.append_nil]
    refine ⟨⟨hkept.keyed, hkept.drawn, fun f hf => ?_, hkept.indexed⟩, h.ids, h.distinct⟩
    obtain ⟨sale, hsale, rfl⟩ := List.mem_map.mp hf
    exact hold sale hsale
  | one sale trade hid hknown hnew =>
    have hfresh : ∀ old ∈ run.sold, tradeId old.fill.id ≠ tradeId sale.fill.id := by
      intro old hmem heq
      have hrecorded : old.fill ∈ run.session.paper.fills := h.kept.known _ (List.mem_map_of_mem hmem)
      exact hnew old.fill hrecorded (hkept.drawn.id_eq (hold old hmem) hknown heq)
    have hadded : (persistClosedTrades run.trades [trade]).1 = run.trades ++ [trade] := by
      refine persistClosedTrades_new fun t ht heq => ?_
      obtain ⟨old, hmem, htrade⟩ := h.journaled.backed t ht
      exact hfresh old hmem (htrade.symm.trans (heq.trans hid))
    refine ⟨⟨hkept.keyed, hkept.drawn, fun f hf => ?_, hkept.indexed⟩, ?_, ?_⟩
    · obtain ⟨made, hmade, rfl⟩ := List.mem_map.mp hf
      rcases List.mem_append.mp hmade with hmem | hmem
      · exact hold made hmem
      · rw [List.mem_singleton.mp hmem]
        exact hknown
    · rw [hadded, List.map_append, List.map_append, h.ids, List.map_singleton, List.map_singleton,
        hid]
    · rw [List.map_append, List.map_singleton]
      refine List.nodup_append.mpr ⟨h.distinct, List.nodup_singleton _, ?_⟩
      rintro i hi _ hj rfl
      obtain ⟨old, hmem, hold⟩ := List.mem_map.mp hi
      exact hfresh old hmem (hold.trans (List.mem_singleton.mp hj))

end JournalRun

/-- **Every sale is journaled once**, in every run of a new session whose marks fill no
resting SELL against a position. -/
theorem sales_journaled {settings : RiskSettings} {cfg : PaperConfig} {paperSessionId : String}
    {run : JournalRun}
    (h : Reachable (JournalRun.step settings cfg paperSessionId)
      (JournalRun.MarksSellNothing cfg) ⟨Session.fresh settings cfg, [], []⟩ run) :
    run.Journaled := by
  have hfresh : JournalRun.Told ⟨Session.fresh settings cfg, [], []⟩ :=
    ⟨⟨.fresh ∅, .fresh ∅, fun _ hf => (List.not_mem_nil hf).elim, fun _ _ hget => by cases hget⟩, rfl,
      List.nodup_nil⟩
  have htold : run.Told := h.invariant hfresh fun _ _ _ hs hmarks hstep => hs.step hmarks hstep
  exact htold.journaled

/-! ### A sale of a resting order -/

/-- A purchase at the market. -/
def marketBuy : Action :=
  .submit
    { symbol := "BTC/USDT", side := .buy, orderType := .market, quantity := 1 / 50,
      stopLoss := some 49950 }
    "a" { now := 0, seriesMark := 50000 }

/-- A sale of what was bought, at the market. -/
def marketSale : Action :=
  .submit (Runtime.closeArgs "BTC/USDT" (1 / 50) 50000) "b" { now := 1, seriesMark := 50000 }

/-- A sale of what was bought, at a limit above the mark. -/
def limitSale : Action :=
  .submit
    { symbol := "BTC/USDT", side := .sell, orderType := .limit, quantity := 1 / 50,
      price := some 51000, stopLoss := some 50949, reduceOnly := true }
    "b" { now := 1, seriesMark := 50000 }

theorem sales_journaled_market_sale :
    ∃ run, Reachable (JournalRun.step {} {} "session") (JournalRun.MarksSellNothing {})
        ⟨Session.fresh {} {}, [], []⟩ run ∧
      run.sold.length = 1 ∧ run.Journaled := by
  obtain ⟨run, hreach, hsold⟩ : ∃ run,
      Reachable (JournalRun.step {} {} "session") (JournalRun.MarksSellNothing {})
          ⟨Session.fresh {} {}, [], []⟩ run ∧ run.sold.length = 1 :=
    exists_reachable [marketBuy, marketSale] (by decide +kernel) (by decide +kernel)
  exact ⟨run, hreach, hsold, sales_journaled hreach⟩

/-- **A sale a mark makes is not journaled**: the mark rises to the limit of an order that
rests. -/
theorem resting_sale_not_journaled :
    ∃ run, Reachable (JournalRun.step {} {} "session") (fun _ _ => True)
        ⟨Session.fresh {} {}, [], []⟩ run ∧ ¬run.Journaled := by
  obtain ⟨run, hreach, hsold, htrades⟩ : ∃ run,
      Reachable (JournalRun.step {} {} "session") (fun _ _ => True) ⟨Session.fresh {} {}, [], []⟩ run ∧
        run.sold ≠ [] ∧ run.trades = [] :=
    exists_reachable [marketBuy, limitSale, .setMarkPrice "BTC/USDT" 51000 2] (by decide +kernel)
      (by decide +kernel)
  obtain ⟨sale, hsale⟩ := List.exists_mem_of_ne_nil _ hsold
  refine ⟨run, hreach, fun hjournaled => ?_⟩
  have honce : (run.trades.filter fun t => t.id = tradeId sale.fill.id).length = 1 :=
    hjournaled.once sale hsale
  rw [htrades] at honce
  cases honce

end Atlas
