import Atlas.Session.Trace

/-!
# Orders that are refused

The risk engine refuses every order while the kill switch of its context is on, and while
its reconciliation flag is down.  An action of the session that is barred in this way
makes no submission: its operations on the ledger are marks.  The session reads both
conditions at every order; no order changes the kill switch, and after an order the flag
is what the reconciliation has said.

## Main definitions

* `NoOrder` — no submission is among some operations.
* `Session.Barred` — an order of the session is refused.

## Main results

* `Risk.evaluate_barred` — **what is barred is not let through**.
* `placeOrderOps_noOrder`, `closePassOps_noOrder`, `candleOps_noOrder` — the parts of a
  session submit nothing where they are barred.

## References

`app/risk/engine.py`, `app/services/paper_session.py`,
`app/services/trading_orchestrator.py`.
-/

namespace Atlas

open Paper Session

/-- The operation submits an order. -/
def Paper.Op.Submits : Op → Prop
  | .submit .. => True
  | _ => False

/-- No submission is among the operations. -/
def NoOrder (ops : List Op) : Prop := ∀ op ∈ ops, ¬op.Submits

instance : (op : Op) → Decidable op.Submits
  | .submit .. => inferInstanceAs (Decidable True)
  | .setMarkPrice .. | .cancel .. | .expire .. => inferInstanceAs (Decidable False)

instance (ops : List Op) : Decidable (NoOrder ops) := inferInstanceAs (Decidable (∀ op ∈ ops, _))

theorem NoOrder.nil : NoOrder [] := fun _ h => (List.not_mem_nil h).elim

theorem NoOrder.append {ops ops' : List Op} (h : NoOrder ops) (h' : NoOrder ops') :
    NoOrder (ops ++ ops') := fun op hop => (List.mem_append.mp hop).elim (h op) (h' op)

theorem NoOrder.marks {α : Type*} (l : List α) (symbol : α → String) (price : α → ℚ) (now : Time) :
    NoOrder (l.map fun x => .setMarkPrice (symbol x) (price x) now) := by
  intro op hop
  obtain ⟨x, -, rfl⟩ := List.mem_map.mp hop
  exact id

/-! ### The risk engine -/

namespace Risk

variable {settings : RiskSettings} {state : RiskEngineState} {request : OrderRequest}
  {context : RiskContext} {now : Time}

/-- The kill switch of the context is on, or the reconciliation flag is down. -/
def Barred (state : RiskEngineState) (context : RiskContext) : Prop :=
  context.killSwitchEnabled = true ∨ state.reconciliationHealthy = false

/-- **What is barred is not let through**, whatever is requested. -/
theorem evaluate_barred (h : Barred state context) :
    ¬(evaluate settings state request context now).1.Accepts := by
  intro haccepts
  obtain ⟨price, z, hp, -⟩ := evaluate_accepted haccepts
  have hgates : ∀ g ∈ venueGates settings state request context, g.fails = false :=
    firstRefusal_eq_none.mp hp.venue
  simp only [venueGates, List.forall_mem_append, List.forall_mem_cons, haltIf_fails, rejectIf_fails,
    decide_eq_false_iff_not, not_or, not_not] at hgates
  obtain ⟨⟨⟨-, ⟨-, hkill⟩, -⟩, -⟩, -, -, -, -, -, hrecon, -⟩ := hgates
  rcases h with h | h
  · exact hkill h
  · rw [h] at hrecon
    cases hrecon

/-- The engine does not write its reconciliation flag. -/
theorem evaluate_reconciliationHealthy :
    (evaluate settings state request context now).2.reconciliationHealthy =
      state.reconciliationHealthy := by
  have hevaluates : Evaluates settings state request context now
      (evaluate settings state request context now) := evaluate_evaluates
  generalize evaluate settings state request context now = r at hevaluates ⊢
  cases hevaluates with
  | refused answer _ => rfl
  | refusedLate answer _ => rfl
  | accepted price z _ _ => rfl

end Risk

/-! ### The session -/

namespace Session

variable {settings : RiskSettings} {cfg : PaperConfig} {s : Session} {args : OrderArgs}
  {request : OrderRequest} {context : RiskContext} {key symbol : String} {around : Surroundings}

/-- An order of the session is refused. -/
def Barred (s : Session) (around : Surroundings) : Prop :=
  s.killSwitchEnabled = true ∨ around.reconciled = false

theorem mark_killSwitch : (mark cfg s symbol around).2.killSwitchEnabled = s.killSwitchEnabled := by
  unfold mark
  split <;> rfl

theorem riskContext_controls :
    (riskContext settings cfg s symbol around).1.killSwitchEnabled = s.killSwitchEnabled ∧
      (riskContext settings cfg s symbol around).2.killSwitchEnabled = s.killSwitchEnabled ∧
      (riskContext settings cfg s symbol around).2.risk.reconciliationHealthy = around.reconciled := by
  refine ⟨rfl, mark_killSwitch, ?_⟩
  simp only [riskContext, portfolioState, raisePeak, mark]
  split <;> rfl

theorem gatewaySubmit_controls :
    (gatewaySubmit settings cfg s request context around).2.2.killSwitchEnabled =
        s.killSwitchEnabled ∧
      (gatewaySubmit settings cfg s request context around).2.2.risk.reconciliationHealthy =
        s.risk.reconciliationHealthy := by
  unfold gatewaySubmit
  dsimp only
  split_ifs <;> exact ⟨rfl, Risk.evaluate_reconciliationHealthy⟩

theorem countSale_controls {order : Option Order} {realizedBefore : ℚ} :
    (countSale s order realizedBefore).killSwitchEnabled = s.killSwitchEnabled ∧
      (countSale s order realizedBefore).risk = s.risk := by
  unfold countSale
  split_ifs <;> exact ⟨rfl, rfl⟩

/-- An order leaves the kill switch, and the flag as the reconciliation has said. -/
theorem submit_controls :
    (submit settings cfg s args key around).2.2.killSwitchEnabled = s.killSwitchEnabled ∧
      (submit settings cfg s args key around).2.2.risk.reconciliationHealthy =
        around.reconciled := by
  obtain ⟨-, hkill, hrecon⟩ :
      (riskContext settings cfg s args.symbol around).1.killSwitchEnabled = _ ∧ _ :=
    riskContext_controls
  simp only [submit, raisePeak, countSale_controls.1, countSale_controls.2,
    gatewaySubmit_controls.1, gatewaySubmit_controls.2]
  exact ⟨hkill, hrecon⟩

theorem markOps_noOrder {paper : PaperState} : NoOrder (markOps paper symbol around) := by
  unfold markOps
  split
  · exact .nil
  · intro op hop
    rw [List.mem_singleton.mp hop]
    exact id

theorem gatewayOps_barred (h : Risk.Barred s.risk context) :
    gatewayOps settings s request context around = [] := by
  have hno : ¬(Risk.evaluate settings s.risk request context around.now).1.Accepts :=
    Risk.evaluate_barred h
  exact if_pos (RiskEvaluation.not_accepts_iff.mp hno)

/-- **A barred order submits nothing.** -/
theorem submitOps_noOrder (h : s.Barred around) :
    NoOrder (submitOps settings cfg s args key around) := by
  obtain ⟨hcontext, -, hrecon⟩ :
      (riskContext settings cfg s args.symbol around).1.killSwitchEnabled = _ ∧ _ :=
    riskContext_controls
  simp only [submitOps]
  rw [gatewayOps_barred (h.imp hcontext.trans hrecon.trans), List.append_nil]
  exact markOps_noOrder

end Session

/-! ### The runtime -/

namespace Runtime

variable {d : Deployment} {s : Session} {args : OrderArgs} {key symbol : String}
  {around : Surroundings} {input : CycleInput}

theorem placeOrderOps_noOrder (h : s.Barred around) :
    NoOrder (placeOrderOps d s args key around) :=
  markOps_noOrder.append (submitOps_noOrder (h.imp mark_killSwitch.trans id))

theorem closePassOps_noOrder (h : s.Barred around) :
    NoOrder (closeSymbolOps d symbol [(key, around)] s) := by
  have hsubmit : ∀ {args : OrderArgs}, NoOrder (markOps s.paper symbol around ++
      submitOps d.settings d.paper (mark d.paper s symbol around).2 args key around) :=
    markOps_noOrder.append (submitOps_noOrder (h.imp mark_killSwitch.trans id))
  simp only [closeSymbolOps, List.append_nil]
  split_ifs
  · exact markOps_noOrder
  · exact hsubmit
  · exact hsubmit

theorem primed_controls (s : Session) (input : CycleInput) :
    (primed d s input).killSwitchEnabled = s.killSwitchEnabled ∧
      (primed d s input).risk = s.risk := by
  unfold primed
  induction input.primed generalizing s with
  | nil => exact ⟨rfl, rfl⟩
  | cons close closes ih => exact ih (marked d s input close)

theorem opened_controls (s : Session) (input : CycleInput) :
    (opened d s input).killSwitchEnabled = s.killSwitchEnabled ∧
      (opened d s input).risk = s.risk := by
  unfold opened
  split_ifs <;> exact primed_controls s input

/-- **A barred candle submits nothing.** -/
theorem candleOps_noOrder
    (h : input.killSwitchEnabled = true ∨ s.risk.reconciliationHealthy = false) :
    NoOrder (candleOps d s input) := by
  have hopened : NoOrder (openedOps input) := NoOrder.marks _ (fun _ => input.symbol) id _
  simp only [candleOps]
  refine hopened.append ?_
  cases actingRequest (opened d s input).paper input with
  | none => exact .nil
  | some request =>
    have hbarred : Risk.Barred (opened d s input).risk
        (cycleContext d (opened d s input).paper input) := by
      rw [(opened_controls s input).2]
      exact h
    rw [Option.elim, gatewayOps_barred hbarred]
    exact .nil

theorem placeOrder_controls :
    (placeOrder d s args key around).killSwitchEnabled = s.killSwitchEnabled ∧
      (placeOrder d s args key around).risk.reconciliationHealthy = around.reconciled :=
  ⟨submit_controls.1.trans mark_killSwitch, submit_controls.2⟩

/-- A pass of a closing leaves the kill switch, and the flag as it was or as the
reconciliation has said. -/
theorem closePass_controls :
    (closeSymbol d symbol [(key, around)] s).killSwitchEnabled = s.killSwitchEnabled ∧
      ((closeSymbol d symbol [(key, around)] s).risk.reconciliationHealthy =
          s.risk.reconciliationHealthy ∨
        (closeSymbol d symbol [(key, around)] s).risk.reconciliationHealthy =
          around.reconciled) := by
  have hmark : (mark d.paper s symbol around).2.risk = s.risk := by
    unfold mark
    split <;> rfl
  simp only [closeSymbol]
  split_ifs
  · exact ⟨mark_killSwitch, .inl (congrArg _ hmark)⟩
  · exact ⟨submit_controls.1.trans mark_killSwitch, .inr submit_controls.2⟩
  · exact ⟨submit_controls.1.trans mark_killSwitch, .inr submit_controls.2⟩

theorem processCandle_controls :
    (processCandle d s input).session.killSwitchEnabled = s.killSwitchEnabled ∧
      (processCandle d s input).session.risk.reconciliationHealthy =
        s.risk.reconciliationHealthy := by
  obtain ⟨hkill, hrisk⟩ := @opened_controls d s input
  simp only [processCandle]
  cases actingRequest (opened d s input).paper input with
  | none => exact ⟨hkill, congrArg _ hrisk⟩
  | some request =>
    simp only [Option.elim, sendOrder]
    rw [← hkill, ← congrArg RiskEngineState.reconciliationHealthy hrisk]
    split_ifs <;> exact gatewaySubmit_controls

end Runtime

end Atlas
