import Mathlib.Algebra.BigOperators.Ring.List
import Atlas.Session.Moves

/-!
# What the approvals of a session add up to

A session handles orders one after another; between them the marks move and resting
orders are cancelled or expire.  Each approval of a BUY is noted down, with what the
ledger held when it was given, and the caps are then statements about the notes of a
run.

The cap on the position is measured by the order alone.  The position the order adds
to stays within it when nothing is held, or when one of the sizes that bound the
order fits beside what is held.  The cap on the portfolio counts the positions, but
not the cash reserved for resting orders.

## Main definitions

* `Approval` — an approval of a BUY, and the ledger it was given on.
* `Noted`, `noteStep` — a session with the approvals so far, and its steps.
* `FitsBeside` — the condition on an order for the cap on its position.

## Main results

* `position_capped_at_approval` — **the cap on the position**, in runs whose orders
  meet the condition.
* `position_over_cap` — two orders that are let through one by one exceed it.
* `exposure_capped_at_approval` — **the cap on the portfolio** in one symbol, without
  the reserved cash.
* `exposure_over_cap_with_resting` — with the reserved cash it is exceeded.

## References

`app/risk/engine.py`, `app/services/paper_session.py`, `app/execution/gateway.py`.
-/

namespace Atlas

/-- The quantity held in a symbol. -/
def PortfolioState.held (portfolio : PortfolioState) (symbol : String) : ℚ :=
  ((portfolio.openPositions.filter fun p => p.symbol = symbol).map Position.quantity).sum

namespace Session

open Risk Transition

/-- An approval of a BUY of `quantity` at the reference price `price`, and the ledger
it was given on. -/
structure Approval where
  symbol : String
  quantity : ℚ
  price : ℚ
  mark : ℚ
  portfolio : PortfolioState
  reservedCash : ℚ
  deriving DecidableEq, Repr

/-- The notional the position would have at the mark, with the approved order. -/
def Approval.position (a : Approval) : ℚ :=
  a.portfolio.held a.symbol * a.mark + a.quantity * a.price

/-- A session, and the approvals it has given. -/
structure Noted where
  session : Session
  approvals : List Approval := []
  deriving DecidableEq, Repr

/-- What can happen to a session. -/
inductive Action
  | submit (args : OrderArgs) (key : String) (around : Surroundings)
  | setMarkPrice (symbol : String) (price : ℚ) (now : Time)
  | cancel (orderId : Ident) (now : Time)
  | expire (orderId : Ident) (now : Time)
  deriving DecidableEq, Repr

variable (settings : RiskSettings) (cfg : PaperConfig)

/-- The approval an order is given, if it is a BUY that is let through. -/
def approval (s : Session) (args : OrderArgs) (key : String) (around : Surroundings) :
    Option Approval :=
  let context := riskContext settings cfg s args.symbol around
  let evaluation :=
    (evaluate settings context.2.risk (args.request key) context.1 around.now).1
  if args.side = .buy ∧ evaluation.Accepts then
    (referencePrice (args.request key) context.1).bind fun price =>
      evaluation.approvedQuantity.map fun quantity =>
        { symbol := args.symbol
          quantity := quantity
          price := price
          mark := (mark cfg s args.symbol around).1
          portfolio := context.1.portfolio
          reservedCash := s.paper.reservedCash }
  else none

/-- The session after an action. -/
def step (s : Session) : Action → Session
  | .submit args key around => (submit settings cfg s args key around).2.2
  | .setMarkPrice symbol price now =>
      { s with paper := Paper.setMarkPrice cfg s.paper symbol price now }
  | .cancel orderId now => { s with paper := (Paper.cancel s.paper orderId now).2 }
  | .expire orderId now => { s with paper := (Paper.expire s.paper orderId now).2 }

/-- The approval an action is given. -/
def approvalOf (s : Session) : Action → Option Approval
  | .submit args key around => approval settings cfg s args key around
  | _ => none

/-- The session and its approvals after an action; every action is enabled. -/
def noteStep (n : Noted) (action : Action) : Option Noted :=
  some
    { session := step settings cfg n.session action
      approvals := n.approvals ++ (approvalOf settings cfg n.session action).toList }

variable {settings cfg} {s : Session} {args : OrderArgs} {key : String} {around : Surroundings}
  {a : Approval}

/-! ### An approval -/

theorem riskContext_mark (s : Session) (symbol : String) (around : Surroundings) :
    (riskContext settings cfg s symbol around).1.markPrice = some (mark cfg s symbol around).1 := by
  simp only [riskContext, mark, portfolioState, raisePeak]
  split <;> rfl

/-- An approval is a BUY that passes the gates, of a size within the bounds. -/
structure Approved (settings : RiskSettings) (request : OrderRequest) (context : RiskContext)
    (a : Approval) : Prop where
  side : request.side = .buy
  symbol : a.symbol = request.symbol
  mark : context.markPrice = some a.mark
  portfolio : a.portfolio = context.portfolio
  price : referencePrice request context = some a.price
  passed : ∃ state now, Passed settings state request context now a.price
  bounded : Bounded settings request context a.price a.quantity

theorem approval_approved (h : approval settings cfg s args key around = some a) :
    Approved settings (args.request key) (riskContext settings cfg s args.symbol around).1 a := by
  simp only [approval] at h
  split_ifs at h with hcond
  obtain ⟨price, hprice, hmap⟩ := Option.bind_eq_some_iff.mp h
  obtain ⟨quantity, hquantity, rfl⟩ := Option.map_eq_some_iff.mp hmap
  obtain ⟨hpassed, z, hz, rfl⟩ := accepted_size hcond.2 hquantity hprice
  exact ⟨hcond.1, rfl, riskContext_mark .., rfl, hprice, ⟨_, _, hpassed⟩,
    approvedSize_bounded hpassed.price_pos hz⟩

/-- A property of every approval that an action meeting a guard is given holds of all
the approvals of a guarded run. -/
theorem approvals_of_step {ok : Noted → Action → Prop} {P : Approval → Prop} {n n' : Noted}
    {action : Action} (hP : ∀ a, ok n action → approvalOf settings cfg n.session action = some a →
      P a) (hall : ∀ a ∈ n.approvals, P a) (hok : ok n action)
    (hstep : noteStep settings cfg n action = some n') : ∀ a ∈ n'.approvals, P a := by
  rw [← Option.some.inj hstep]
  intro a ha
  rcases List.mem_append.mp ha with hold | hnew
  · exact hall a hold
  · exact hP a hok (Option.mem_toList.mp hnew)

/-! ### The cap on the position -/

/-- Nothing is held in the symbol, or the requested size, the size the risk budget
allows or the room of the portfolio fits beside what is held. -/
def FitsBeside (settings : RiskSettings) (request : OrderRequest) (context : RiskContext)
    (price mark : ℚ) : Prop :=
  let held := context.portfolio.held request.symbol * mark
  let left := settings.maxPositionExposure * context.portfolio.equity - held
  held ≤ 0 ∨ request.quantity * price ≤ left ∨
    ((riskLimit settings request context price).any fun m => m * price ≤ left) = true ∨
    settings.maxPortfolioExposure * context.portfolio.equity - currentNotional context ≤ left

instance (request : OrderRequest) (context : RiskContext) (price mark : ℚ) :
    Decidable (FitsBeside settings request context price mark) :=
  inferInstanceAs (Decidable (_ ∨ _ ∨ _ ∨ _))

/-- A BUY fits beside what is held, at its reference price and its mark. -/
def RequestFits (settings : RiskSettings) (request : OrderRequest) (context : RiskContext) : Prop :=
  ∀ price ∈ referencePrice request context, ∀ mark ∈ context.markPrice,
    FitsBeside settings request context price mark

instance (request : OrderRequest) (context : RiskContext) :
    Decidable (RequestFits settings request context) :=
  inferInstanceAs (Decidable (∀ price ∈ _, ∀ mark ∈ _, _))

/-- The condition on an action: a BUY fits beside what is held in its symbol. -/
def ActionFits (settings : RiskSettings) (cfg : PaperConfig) (n : Noted) : Action → Prop
  | .submit args key around =>
      args.side = .buy → RequestFits settings (args.request key)
        (riskContext settings cfg n.session args.symbol around).1
  | _ => True

instance (n : Noted) (action : Action) : Decidable (ActionFits settings cfg n action) := by
  cases action <;> unfold ActionFits <;> infer_instance

theorem sizingEquity_of_pos {portfolio : PortfolioState} (h : 0 < portfolio.equity) :
    sizingEquity portfolio = portfolio.equity := if_pos h

/-- A size within the bounds fits beside what is held. -/
theorem bounded_fits {request : OrderRequest} {context : RiskContext} {price mark quantity : ℚ}
    (hequity : 0 < context.portfolio.equity)
    (hb : Bounded settings request context price quantity)
    (hfits : FitsBeside settings request context price mark) :
    context.portfolio.held request.symbol * mark + quantity * price ≤
      settings.maxPositionExposure * context.portfolio.equity := by
  have hposition := hb.within_position
  have hportfolio := hb.within_portfolio
  rw [sizingEquity_of_pos hequity] at hposition hportfolio
  rcases hfits with hnone | hrequest | hrisk | hroom
  · linarith
  · have hle : quantity * price ≤ request.quantity * price :=
      mul_le_mul_of_nonneg_right hb.le_requested hb.price_pos.le
    linarith
  · obtain ⟨m, hm, hleft⟩ := (Option.any_eq_true ..).mp hrisk
    have hle : quantity * price ≤ m * price :=
      mul_le_mul_of_nonneg_right (hb.within_risk m hm) hb.price_pos.le
    have hleft' := of_decide_eq_true hleft
    linarith
  · linarith

/-- The cap on the position holds of an approval. -/
def Approval.PositionCapped (settings : RiskSettings) (a : Approval) : Prop :=
  0 < a.portfolio.equity → a.position ≤ settings.maxPositionExposure * a.portfolio.equity

instance (a : Approval) : Decidable (a.PositionCapped settings) :=
  inferInstanceAs (Decidable (_ → _))

theorem Approved.positionCapped {request : OrderRequest} {context : RiskContext}
    (h : Approved settings request context a) (hfits : RequestFits settings request context) :
    a.PositionCapped settings := by
  intro hequity
  rw [h.portfolio] at hequity
  rw [Approval.position, h.symbol, h.portfolio]
  exact bounded_fits hequity h.bounded (hfits a.price h.price a.mark h.mark)

theorem approvalOf_positionCapped {n : Noted} {action : Action}
    (hfits : ActionFits settings cfg n action)
    (h : approvalOf settings cfg n.session action = some a) : a.PositionCapped settings := by
  cases action with
  | submit args key around =>
    have ha := approval_approved h
    exact ha.positionCapped (hfits ha.side)
  | setMarkPrice symbol price now => cases h
  | cancel orderId now => cases h
  | expire orderId now => cases h

/-- A market BUY, with a stop just below the mark it is sent at. -/
def marketBuy (key : String) (quantity : ℚ) : Action :=
  .submit
    { symbol := "BTC/USDT", side := .buy, orderType := .market, quantity := quantity,
      stopLoss := some 49950 }
    key { now := 0, seriesMark := 50000 }

/-- The action is about one symbol. -/
def InSymbol (symbol : String) (_ : Noted) : Action → Prop
  | .submit args _ _ => args.symbol = symbol
  | _ => True

instance (symbol : String) (n : Noted) (action : Action) :
    Decidable (InSymbol symbol n action) := by
  cases action <;> unfold InSymbol <;> infer_instance

/-- The ledger has orders of one symbol only, and its positions are named by theirs. -/
structure OneSymbol (symbol : String) (s : PaperState) : Prop where
  keyed : Paper.Keyed s
  orders : Paper.EachOrder (fun o => o.symbol = symbol) s
  named : Paper.Named s

theorem OneSymbol.positions {symbol : String} {s : PaperState} (h : OneSymbol symbol s)
    {p : Position} (hp : p ∈ s.positions.values) : p.symbol = symbol := by
  obtain ⟨name, hget⟩ := Dict.mem_values_iff.mp hp
  obtain ⟨hname, j, o, ho, hsym⟩ := h.named name p hget
  rw [hname, ← hsym]
  exact h.orders j o ho

/-- An operation a caller may make, whose request is in one symbol. -/
def OpInSymbol (symbol : String) (op : Paper.Op) : Prop :=
  op.Valid ∧ ∀ request risk roll now, op = .submit request risk roll now → request.symbol = symbol

/-- An operation keeps the ledger in one symbol if the order it creates has it. -/
theorem OneSymbol.op {symbol : String} {s : PaperState} {op : Paper.Op} (hop : OpInSymbol symbol op)
    (h : OneSymbol symbol s) : OneSymbol symbol (Paper.step cfg s op) := by
  have hsymbol : Paper.WorkProperty cfg fun o => o.symbol = symbol :=
    .of_request fun _ _ hsame h => hsame.symbol.trans h
  have heff : Paper.Effects cfg (fun _ => True) s (Paper.step cfg s op) :=
    Paper.step_effects h.keyed hop.1 fun _ _ => trivial
  refine ⟨heff.keyed h.keyed, ?_, heff.invariant
    (fun hk he => Paper.Named.effect hk he) h.keyed h.named⟩
  cases op with
  | submit request risk roll now =>
    refine Paper.submit_orders h.orders ?_
    exact (Paper.submitAfterLatency_works ..).same.symbol.trans (hop.2 _ _ _ _ rfl)
  | setMarkPrice name price now =>
    exact Paper.setMarkPrice_orders hsymbol name price now h.keyed h.orders
  | cancel orderId now => exact (Paper.cancel_closing orderId h.keyed).orders hsymbol h.orders
  | expire orderId now => exact (Paper.expire_closing orderId h.keyed).orders hsymbol h.orders

theorem opInSymbol_setMarkPrice (symbol name : String) (price : ℚ) (now : Time) :
    OpInSymbol symbol (.setMarkPrice name price now) := ⟨trivial, by rintro _ _ _ _ ⟨⟩⟩

theorem OneSymbol.submit {symbol : String} {args : OrderArgs} (h : OneSymbol symbol s.paper)
    (hsymbol : args.symbol = symbol) (key : String) (around : Surroundings) :
    OneSymbol symbol (submit settings cfg s args key around).2.2.paper := by
  refine (submit_moves (opInSymbol_setMarkPrice symbol) (fun e => ?_) s).invariant OneSymbol.op h
  obtain ⟨hsym, hmeta⟩ := approvedRequest_symbol (args.request key) e
  constructor
  · rw [Paper.Op.Valid, hmeta]
    exact ⟨rfl, rfl, rfl⟩
  · rintro _ _ _ _ ⟨⟩
    exact hsym.trans hsymbol

theorem OneSymbol.step {symbol : String} {n : Noted} {action : Action}
    (h : OneSymbol symbol n.session.paper) (hok : InSymbol symbol n action) :
    OneSymbol symbol (step settings cfg n.session action).paper := by
  cases action with
  | submit args key around => exact h.submit hok key around
  | setMarkPrice name price now => exact OneSymbol.op (opInSymbol_setMarkPrice symbol name price now) h
  | cancel orderId now =>
    have hop : OpInSymbol symbol (.cancel orderId now) := ⟨trivial, by rintro _ _ _ _ ⟨⟩⟩
    have hstep : OneSymbol symbol (Paper.step cfg n.session.paper (.cancel orderId now)) :=
      OneSymbol.op hop h
    exact hstep
  | expire orderId now =>
    have hop : OpInSymbol symbol (.expire orderId now) := ⟨trivial, by rintro _ _ _ _ ⟨⟩⟩
    have hstep : OneSymbol symbol (Paper.step cfg n.session.paper (.expire orderId now)) :=
      OneSymbol.op hop h
    exact hstep

/-- In one symbol, the notional the engine sees is that of what is held. -/
theorem currentNotional_eq_held {context : RiskContext} {symbol : String} {mark : ℚ}
    (hmark : context.markPrice = some mark) (hpos : 0 < mark)
    (hsymbol : ∀ p ∈ context.portfolio.openPositions, p.symbol = symbol) :
    currentNotional context = context.portfolio.held symbol * mark := by
  have hfilter : context.portfolio.openPositions.filter (fun p => p.symbol = symbol) =
      context.portfolio.openPositions :=
    List.filter_eq_self.mpr fun p hp => decide_eq_true (hsymbol p hp)
  rw [PortfolioState.held, hfilter, currentNotional, hmark, ← List.sum_map_mul_right]
  simp only [pyOr, if_neg hpos.ne', Option.getD_some]

/-- The cap on the portfolio holds of an approval.  Where the equity is not positive,
the engine measures by the available cash. -/
def Approval.ExposureCapped (settings : RiskSettings) (a : Approval) : Prop :=
  a.position ≤ settings.maxPortfolioExposure * sizingEquity a.portfolio

theorem Approved.exposureCapped {request : OrderRequest} {context : RiskContext}
    (h : Approved settings request context a)
    (hsymbol : ∀ p ∈ context.portfolio.openPositions, p.symbol = request.symbol) :
    a.ExposureCapped settings := by
  obtain ⟨state, now, hpassed⟩ := h.passed
  have hpos : 0 < a.mark := (requestGates_pass hpassed.values).2.2 a.mark h.mark
  have hportfolio := h.bounded.within_portfolio
  rw [currentNotional_eq_held h.mark hpos hsymbol] at hportfolio
  rw [Approval.ExposureCapped, Approval.position, h.symbol, h.portfolio, mul_comm _ (sizingEquity _)]
  exact hportfolio

/-- The portfolio of a context is the ledger's, before the mark is set. -/
theorem riskContext_positions (s : Session) (symbol : String) (around : Surroundings) :
    (riskContext settings cfg s symbol around).1.portfolio.openPositions =
      s.paper.positions.values := by
  simp only [riskContext, mark, portfolioState, raisePeak]

theorem approvalOf_exposureCapped {symbol : String} {n : Noted} {action : Action}
    (hone : OneSymbol symbol n.session.paper) (hok : InSymbol symbol n action)
    (h : approvalOf settings cfg n.session action = some a) : a.ExposureCapped settings := by
  cases action with
  | submit args key around =>
    refine (approval_approved h).exposureCapped fun p hp => ?_
    rw [riskContext_positions] at hp
    exact (hone.positions hp).trans hok.symm
  | setMarkPrice symbol price now => cases h
  | cancel orderId now => cases h
  | expire orderId now => cases h

/-- A BUY at a limit below the mark, with a stop just below the limit. -/
def restingBuy (key : String) : Action :=
  .submit
    { symbol := "BTC/USDT", side := .buy, orderType := .limit, quantity := 1,
      price := some 49000, stopLoss := some 48951 }
    key { now := 0, seriesMark := 50000 }

end Session

end Atlas
