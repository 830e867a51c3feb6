import Atlas.Paper.Checked
import Atlas.Session.Exposure
import Atlas.Session.Restart

/-!
# The operations a session makes on its ledger

What `Moves` says to exist is listed here: the operations of the paper engine that an
action of the session makes, in their order.  A condition on the fills a session
attempts is then a condition on the operations in its list.  The requests among them are
plain: the session sends no metadata, and the gateway lets no empty order through.

## Main definitions

* `Traced cfg s ops s'` — plain operations that lead from one ledger to another.
* `submitOps`, `placeOrderOps`, `closeSymbolOps`, `candleOps` — the operations of the
  parts of a session.
* `DeskAction`, `deskStep`, `deskOps` — all that can happen to a runtime and its engine.

## Main results

* `deskStep_traced` — **an action leads where its operations lead**.

## References

`app/services/paper_session.py`, `app/services/trading_orchestrator.py`,
`app/execution/gateway.py`.
-/

namespace Atlas

open Paper Session Transition

/-- Plain operations that lead from one ledger to another. -/
structure Traced (cfg : PaperConfig) (s : PaperState) (ops : List Op) (s' : PaperState) : Prop where
  after : s' = ops.foldl (step cfg) s
  plain : ∀ op ∈ ops, op.Plain

section

variable {cfg : PaperConfig} {s s' s'' : PaperState} {ops ops' : List Op}

theorem Traced.nil (s : PaperState) : Traced cfg s [] s := ⟨rfl, fun _ h => (List.not_mem_nil h).elim⟩

theorem Traced.one {op : Op} (h : op.Plain) : Traced cfg s [op] (Paper.step cfg s op) :=
  ⟨rfl, fun _ ho => List.mem_singleton.mp ho ▸ h⟩

theorem Traced.mark (s : PaperState) (symbol : String) (price : ℚ) (now : Time) :
    Traced cfg s [.setMarkPrice symbol price now] (setMarkPrice cfg s symbol price now) :=
  .one trivial

theorem Traced.append (h : Traced cfg s ops s') (h' : Traced cfg s' ops' s'') :
    Traced cfg s (ops ++ ops') s'' where
  after := by rw [List.foldl_append, ← h.after, h'.after]
  plain := fun op hop => (List.mem_append.mp hop).elim (h.plain op) (h'.plain op)

/-- **Operations whose fills are clean keep a ledger checked.** -/
theorem Traced.checked {C : ℚ} (h : Traced cfg s ops s') (hfrac : cfg.partialFillFraction ≤ 1)
    (hok : Along (engineStep cfg) ((careful cfg).Meets cfg) s ops) (hs : Checked C s) :
    Checked C s' := by
  rw [h.after]
  have hplain : ∀ op ∈ ops, op.Plain := h.plain
  clear h
  induction ops generalizing s with
  | nil => exact hs
  | cons op ops ih =>
    obtain ⟨hfirst, hrest⟩ := hok
    have hstep : Checked C (step cfg s op) :=
      hs.step (hplain op (List.mem_cons_self ..)) hfrac hfirst
    exact ih hrest hstep fun o ho => hplain o (List.mem_cons_of_mem _ ho)

end

/-! ### Orders -/

namespace Session

variable (settings : RiskSettings) (cfg : PaperConfig)

/-- The operations of `_mark`. -/
def markOps (s : PaperState) (symbol : String) (around : Surroundings) : List Op :=
  match s.markPrices.get? symbol with
  | some _ => []
  | none => [.setMarkPrice symbol around.seriesMark around.now]

/-- The operations of the gateway. -/
def gatewayOps (s : Session) (request : OrderRequest) (context : RiskContext)
    (around : Surroundings) : List Op :=
  let e := (Risk.evaluate settings s.risk request context around.now).1
  if e.decision = .rejected ∨ e.decision = .halted then []
  else [.submit (approvedRequest request e) e around.roll around.now]

/-- The operations of `_submit`. -/
def submitOps (s : Session) (args : OrderArgs) (key : String) (around : Surroundings) : List Op :=
  let context := riskContext settings cfg s args.symbol around
  markOps s.paper args.symbol around ++ gatewayOps settings context.2 (args.request key) context.1 around

variable {settings cfg}

theorem mark_traced {s : Session} {paper : PaperState} (hs : s.paper = paper) (symbol : String)
    (around : Surroundings) :
    Traced cfg paper (markOps paper symbol around) (mark cfg s symbol around).2.paper := by
  subst hs
  unfold markOps mark
  cases s.paper.markPrices.get? symbol with
  | some mark => exact .nil s.paper
  | none => exact .mark ..

/-- A request that is let through is for a positive quantity. -/
theorem approvedRequest_quantity {state : RiskEngineState} {request : OrderRequest}
    {context : RiskContext} {now : Time}
    (h : (Risk.evaluate settings state request context now).1.Accepts) :
    0 < (approvedRequest request (Risk.evaluate settings state request context now).1).quantity := by
  obtain ⟨price, z, hp, hz, heq⟩ := Risk.evaluate_accepted h
  have hb : Risk.Bounded settings request context price z.quantity :=
    Risk.approvedSize_bounded hp.price_pos hz
  rw [heq]
  unfold approvedRequest
  rw [Risk.accept_quantity]
  split
  · next hq =>
    rw [← Option.some.inj hq]
    exact hb.quantity_pos
  · exact hb.quantity_pos.trans_le hb.le_requested

theorem gatewaySubmit_traced {request : OrderRequest} (hmeta : request.metadata = {}) (s : Session)
    (context : RiskContext) (around : Surroundings) :
    Traced cfg s.paper (gatewayOps settings s request context around)
      (gatewaySubmit settings cfg s request context around).2.2.paper := by
  simp only [gatewayOps, gatewaySubmit]
  split_ifs with hrefused
  · exact .nil s.paper
  · have haccepts : (Risk.evaluate settings s.risk request context around.now).1.Accepts := by
      by_contra hno
      exact hrefused (RiskEvaluation.not_accepts_iff.mp hno)
    refine .one ⟨(approvedRequest_quantity haccepts).le, ?_⟩
    rw [(approvedRequest_symbol request _).2, hmeta]

theorem submit_traced (s : Session) (args : OrderArgs) (key : String) (around : Surroundings) :
    Traced cfg s.paper (submitOps settings cfg s args key around)
      (submit settings cfg s args key around).2.2.paper := by
  have hcontext : Traced cfg s.paper (markOps s.paper args.symbol around)
      (riskContext settings cfg s args.symbol around).2.paper := by
    simp only [riskContext, portfolioState, raisePeak]
    refine mark_traced ?_ args.symbol around
    rfl
  simp only [submitOps, submit, raisePeak, countSale_paper]
  exact hcontext.append (gatewaySubmit_traced rfl _ _ around)

end Session

/-! ### Runtimes -/

namespace Runtime

variable (d : Deployment)

/-- The operations of `place_order`. -/
def placeOrderOps (s : Session) (args : OrderArgs) (key : String) (around : Surroundings) : List Op :=
  markOps s.paper args.symbol around ++
    submitOps d.settings d.paper (mark d.paper s args.symbol around).2 args key around

/-- The operations of `_close_symbol`. -/
def closeSymbolOps (symbol : String) : List (String × Surroundings) → Session → List Op
  | [], _ => []
  | (key, around) :: passes, s =>
      let quantity := (s.paper.positions.get? symbol).elim 0 Position.quantity
      let m := mark d.paper s symbol around
      if quantity ≤ 0 then markOps s.paper symbol around
      else
        let args := closeArgs symbol quantity m.1
        let s' := (submit d.settings d.paper m.2 args key around).2.2
        let ops := markOps s.paper symbol around ++ submitOps d.settings d.paper m.2 args key around
        if (s'.paper.positions.get? symbol).any fun p => quantity ≤ p.quantity then ops
        else ops ++ closeSymbolOps symbol passes s'

/-- The marks at which a cycle opens. -/
def openedOps (input : CycleInput) : List Op :=
  (input.primed ++ if input.accepted then [input.close] else []).map fun close =>
    .setMarkPrice input.symbol close input.around.now

/-- The operations of `process_candle`, with the candles before it. -/
def candleOps (s : Session) (input : CycleInput) : List Op :=
  let s := opened d s input
  openedOps input ++ (actingRequest s.paper input).elim [] fun request =>
    gatewayOps d.settings s request (cycleContext d s.paper input) input.around

variable {d} {r r' : Runtime} {input : CycleInput}

theorem marks_traced (symbol : String) (now : Time) (closes : List ℚ) : ∀ s : Session,
    Traced d.paper s.paper (closes.map fun close => .setMarkPrice symbol close now)
      (closes.foldl (fun s close =>
        { s with paper := setMarkPrice d.paper s.paper symbol close now }) s).paper := by
  induction closes with
  | nil => exact fun s => .nil s.paper
  | cons close closes ih =>
    intro s
    exact (Traced.mark ..).append (ih { s with paper := setMarkPrice d.paper s.paper symbol close now })

theorem opened_traced (s : Session) (input : CycleInput) :
    Traced d.paper s.paper (openedOps input) (opened d s input).paper := by
  have hprimed : Traced d.paper s.paper _ (primed d s input).paper :=
    marks_traced input.symbol input.around.now input.primed s
  unfold openedOps opened
  rw [List.map_append]
  refine hprimed.append ?_
  split_ifs
  · exact .mark ..
  · exact .nil _

theorem processCandle_traced (s : Session) (input : CycleInput) :
    Traced d.paper s.paper (candleOps d s input) (processCandle d s input).session.paper := by
  have hopened : Traced d.paper s.paper (openedOps input) (opened d s input).paper :=
    opened_traced s input
  simp only [candleOps, processCandle]
  refine hopened.append ?_
  cases h : actingRequest (opened d s input).paper input with
  | none => exact .nil _
  | some request =>
    have hsent : Traced d.paper (opened d s input).paper _
        (gatewaySubmit d.settings d.paper (opened d s input) request
          (cycleContext d (opened d s input).paper input) input.around).2.2.paper :=
      gatewaySubmit_traced (actingRequest_market h).2.2.2 ..
    simp only [Option.elim, sendOrder]
    split_ifs <;> exact hsent

theorem placeOrder_traced (s : Session) (args : OrderArgs) (key : String) (around : Surroundings) :
    Traced d.paper s.paper (placeOrderOps d s args key around)
      (placeOrder d s args key around).paper :=
  (mark_traced rfl args.symbol around).append (submit_traced _ args key around)

theorem closeSymbol_traced (symbol : String) (passes : List (String × Surroundings)) :
    ∀ s : Session, Traced d.paper s.paper (closeSymbolOps d symbol passes s)
      (closeSymbol d symbol passes s).paper := by
  induction passes with
  | nil => exact fun s => .nil s.paper
  | cons pass passes ih =>
    intro s
    have hmark : Traced d.paper s.paper (markOps s.paper symbol pass.2) _ :=
      mark_traced rfl symbol pass.2
    simp only [closeSymbolOps, closeSymbol]
    -- nothing is held, or a sale ends the closing, or the next pass follows
    split_ifs
    · exact hmark
    · exact hmark.append (submit_traced _ _ pass.1 pass.2)
    · exact (hmark.append (submit_traced _ _ pass.1 pass.2)).append (ih _)

/-! ### Actions -/

/-- What can happen to a runtime, and to the engine behind its session. -/
inductive DeskAction
  | runtime (action : RuntimeAction)
  | session (action : Session.Action)
  deriving DecidableEq, Repr

/-- The runtime after an action. -/
def deskStep (d : Deployment) (r : Runtime) : DeskAction → Option Runtime
  | .runtime action => Runtime.step d r action
  | .session action => some { r with session := Session.step d.settings d.paper r.session action }

/-- The operations of an action. -/
def deskOps (d : Deployment) (r : Runtime) : DeskAction → List Op
  | .runtime (.placeOrder args key around) => placeOrderOps d r.session args key around
  | .runtime (.closePosition symbol passes) => closeSymbolOps d symbol (passes.take 4) r.session
  | .runtime (.prime input) =>
      input.primed.map fun close => .setMarkPrice input.symbol close input.around.now
  | .runtime (.cycle input) => candleOps d r.session input
  | .session (.submit args key around) => submitOps d.settings d.paper r.session args key around
  | .session (.setMarkPrice symbol price now) => [.setMarkPrice symbol price now]
  | .session (.cancel orderId now) => [.cancel orderId now]
  | .session (.expire orderId now) => [.expire orderId now]

theorem cycle_paper (r : Runtime) (input : CycleInput) :
    (cycle d r input).session.paper = (processCandle d r.session input).session.paper :=
  (reconciledSession_paper _).trans (cycleSession_paper r input)

/-- **An action leads where its operations lead.** -/
theorem deskStep_traced {action : DeskAction} (h : deskStep d r action = some r') :
    Traced d.paper r.session.paper (deskOps d r action) r'.session.paper := by
  cases action with
  | runtime action =>
    cases action with
    | placeOrder args key around =>
      rw [← Option.some.inj h]
      exact placeOrder_traced r.session args key around
    | closePosition symbol passes =>
      rw [← Option.some.inj h]
      exact closeSymbol_traced symbol (passes.take 4) r.session
    | prime input =>
      rw [← Option.some.inj h]
      exact marks_traced input.symbol input.around.now input.primed r.session
    | cycle input =>
      simp only [deskStep, Runtime.step] at h
      split_ifs at h
      rw [← Option.some.inj h, cycle_paper]
      exact processCandle_traced r.session input
  | session action =>
    rw [← Option.some.inj h]
    cases action with
    | submit args key around => exact submit_traced r.session args key around
    | setMarkPrice symbol price now => exact .one trivial
    | cancel orderId now => exact .one trivial
    | expire orderId now => exact .one trivial

end Runtime

end Atlas
