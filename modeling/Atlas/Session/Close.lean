import Atlas.Session.Approval
import Atlas.Session.Cycle

/-!
# Closing a position in passes

A position is closed by reduce-only SELLs of all that is left of it, in four passes at
most.  Each SELL goes through the risk engine, which caps it as it caps an entry: by the
exposure of a position, and by the exposure of the portfolio, where the SELL counts as if
it were added to the positions.  So a pass may sell a part, or be refused; the closing ends
where a pass is refused, and after four.

What the caps read of the ledger are five numbers, and each pass takes these to the next
ones.  The position is closed if the caps of the passes take all of it, and what each pass
leaves is worth an order.

## Main definitions

* `Exit` — what the caps on a closing SELL read.
* `Exit.ClosesIn` — the caps of a number of passes take the whole position.
* `PassOpen`, `GatesOpen` — the gates are open in each pass that is made.

## Main results

* `exit_caps` — the caps on a closing SELL are told by the numbers of the ledger.
* `Paper.sell_booked` — what a market SELL leaves.
* `pass_ends` — **what a pass comes to.**
* `close_flat_iff` — **when a closing leaves the symbol flat.**
* `close_refused` — a position worth nine tenths of the equity.

## References

`app/services/paper_session.py`, `app/risk/engine.py`.
-/

namespace Atlas

open Quantize Risk Session

/-- What the caps on a closing SELL read of a ledger. -/
structure Exit where
  /-- What is left of the position. -/
  quantity : ℚ
  /-- The price that the position is valued at. -/
  price : ℚ
  cash : ℚ
  /-- The reserved cash, and the other positions at their prices. -/
  rest : ℚ
  /-- What is held of other symbols, in units. -/
  others : ℚ
  deriving DecidableEq, Repr

namespace Exit

/-- The equity that the caps are fractions of. -/
def sizing (e : Exit) : ℚ :=
  if 0 < e.cash + e.rest + e.quantity * e.price then e.cash + e.rest + e.quantity * e.price
  else e.cash

/-- The protective stop of a closing SELL. -/
def stop (m : ℚ) : ℚ := quantize (1 / 100) (m * (999 / 1000))

/-- The quantity that the risk budget allows, with this stop. -/
def riskCap (settings : RiskSettings) (m : ℚ) (e : Exit) : Option ℚ :=
  let budget := e.sizing * settings.maxRiskPerTrade
  if 0 < stop m then
    if 0 < |m - stop m| then some (quantizeDown8 (budget / |m - stop m|)) else none
  else some (quantizeDown8 (budget / m))

/-- The notional that the exposure caps allow: all that is held is valued at the mark. -/
def room (settings : RiskSettings) (m : ℚ) (e : Exit) : ℚ :=
  min (e.sizing * settings.maxPositionExposure)
    (e.sizing * settings.maxPortfolioExposure - (e.others + e.quantity) * m)

/-- The caps let all that is left be sold. -/
def Fits (settings : RiskSettings) (m : ℚ) (e : Exit) : Prop :=
  (∀ l, e.riskCap settings m = some l → e.quantity ≤ l) ∧ e.quantity * m ≤ e.room settings m

/-- What the caps let be sold otherwise. -/
def cap (settings : RiskSettings) (m : ℚ) (e : Exit) : ℚ :=
  let byRoom := quantizeDown8 (e.room settings m / m)
  (e.riskCap settings m).elim byRoom (min byRoom)

/-- What a pass leaves that sells `q` at the mark `m`. -/
def sold (cfg : PaperConfig) (m q : ℚ) (e : Exit) : Exit :=
  let price := Paper.fillPrice cfg m .market .sell none
  { e with
    quantity := e.quantity - q
    price := price
    cash := e.cash + (price * q - Paper.fillFee cfg q price false) }

/-- The caps of `n` passes take the whole position, and what each of them finds is worth an
order. -/
def ClosesIn (settings : RiskSettings) (cfg : PaperConfig) (m : ℚ) : ℕ → Exit → Prop
  | 0, _ => False
  | n + 1, e => settings.minOrderNotional ≤ e.quantity * m ∧
      (e.Fits settings m ∨
        0 < e.cap settings m ∧ ClosesIn settings cfg m n (e.sold cfg m (e.cap settings m)))

end Exit

/-- The numbers of a ledger, for the position in a symbol. -/
def exitOf (paper : PaperState) (symbol : String) : Exit where
  quantity := Paper.held paper symbol
  price := (paper.positions.get? symbol).elim 0 Position.currentPrice
  cash := paper.cash
  rest := paper.reservedCash +
    (paper.positions.erase symbol).sum fun p => p.quantity * p.currentPrice
  others := (paper.positions.erase symbol).sum Position.quantity

/-! ### A market SELL -/

namespace Paper

variable {cfg : PaperConfig} {s : PaperState} {request : OrderRequest} {risk : RiskEvaluation}
  {p : Position} {m roll : ℚ} {now : Time}

/-- **What a market SELL leaves** that is executed in full, out of a position that covers
it: the position is smaller, and its price is that of the fill. -/
theorem sell_booked (hmarket : request.orderType = .market) (hside : request.side = .sell)
    (hmark : s.markPrices.get? request.symbol = some m)
    (hopen : ¬(risk.decision = .rejected ∨ risk.decision = .halted))
    (hdrawn : ¬(0 < cfg.rejectProbability ∧ roll < cfg.rejectProbability))
    (hmeta : request.metadata.NoReservation) (hone : cfg.partialFillFraction = 1)
    (hgrid : OnGrid quantum8 request.quantity)
    (hp : s.positions.get? request.symbol = some p) (hq : 0 < request.quantity)
    (hle : request.quantity ≤ p.quantity) :
    let r := (submitAfterLatency cfg s request risk roll now).2
    let price := fillPrice cfg m .market .sell none
    let fee := fillFee cfg request.quantity price false
    r.cash = s.cash + (price * request.quantity - fee) ∧ r.reservedCash = s.reservedCash ∧
      r.positions = soldPositions s.positions request.symbol p request.quantity price fee ∧
      r.markPrices = s.markPrices := by
  intro r price fee
  let a := immediateAttempt cfg (submitted s request risk now).2 (submitted s request risk now).1
    request risk m now
  -- a market SELL reserves nothing, so the submission comes down to its one attempt
  obtain ⟨hattempt, hlive⟩ : submitAfterLatency cfg s request risk roll now = a.apply cfg ∧ _ :=
    submitAfterLatency_sell hmarket hside hmark hopen hdrawn
  have hr : r = (a.apply cfg).2 := congrArg Prod.snd hattempt
  -- the fraction is one and the quantity on the grid: nothing is rounded off
  have hfill : a.fillQty = request.quantity := by
    show quantizeDown8 (request.quantity * cfg.partialFillFraction) = _
    rw [hone, mul_one]
    exact (onGrid_iff quantum8_pos.ne').mp hgrid
  have hprice : a.price = price := by
    show fillPrice cfg m request.orderType request.side request.price = _
    rw [hmarket, hside]
    rfl
  have hfee : a.fee cfg = fee := by
    rw [Attempt.fee, hfill, hprice, show a.isMaker = decide (request.orderType = .limit) from rfl,
      hmarket]
    rfl
  have houtcome : a.Outcome cfg (a.apply cfg) := Attempt.outcome hlive
  rw [hr]
  generalize a.apply cfg = result at houtcome
  -- of the ways an attempt ends only the sale fits a positive fill out of a position
  cases houtcome with
  | dust hdust => exact absurd hq (not_lt.mpr (hfill ▸ hdust))
  | bought _ hbuy _ => exact absurd (hside.symm.trans hbuy) (by decide)
  | insufficient _ hbuy _ => exact absurd (hside.symm.trans hbuy) (by decide)
  | noPosition _ _ hnone => exact absurd hle (not_le.mpr (hfill ▸ hnone p hp))
  | sold p' _ _ hp' _ =>
    have hp' : s.positions.get? request.symbol = some p' := hp'
    obtain rfl : p = p' := Option.some.inj (hp.symm.trans hp')
    have hwhole : ¬a.fillQty < a.total := by
      rw [hfill]
      exact lt_irrefl _
    -- and the order ends as filled, without a reservation to give back
    have hunlocked : ¬(a.sold cfg p).1.metadata.reservationOpen = some true := by
      show ¬request.metadata.reservationOpen = some true
      rw [hmeta.2.2]
      decide
    have hfinish : a.finish (a.sold cfg p) =
        update (a.sold cfg p).2 (a.sold cfg p).1 .filled a.risk none a.now := by
      rw [Attempt.finish, if_neg hwhole]
      simp only [releaseBuyReservation_eq, if_neg hunlocked]
    rw [hfinish]
    simp only [update, Attempt.sold, hfill, hprice, hfee]
    exact ⟨rfl, rfl, rfl, rfl⟩

/-- A position that is not in eight decimals is never sold off: what a market SELL fills
is. -/
theorem sell_offGrid (hmarket : request.orderType = .market) (hside : request.side = .sell)
    (hmark : s.markPrices.get? request.symbol = some m)
    (hopen : ¬(risk.decision = .rejected ∨ risk.decision = .halted))
    (hdrawn : ¬(0 < cfg.rejectProbability ∧ roll < cfg.rejectProbability))
    (hp : s.positions.get? request.symbol = some p) (hgrid : ¬OnGrid quantum8 p.quantity) :
    let r := (submitAfterLatency cfg s request risk roll now).2
    r.markPrices = s.markPrices ∧
      ∃ p', r.positions.get? request.symbol = some p' ∧ ¬OnGrid quantum8 p'.quantity := by
  intro r
  let a := immediateAttempt cfg (submitted s request risk now).2 (submitted s request risk now).1
    request risk m now
  obtain ⟨hattempt, hlive⟩ : submitAfterLatency cfg s request risk roll now = a.apply cfg ∧ _ :=
    submitAfterLatency_sell hmarket hside hmark hopen hdrawn
  have hr : r = (a.apply cfg).2 := congrArg Prod.snd hattempt
  have hframe : Frame a.order.id a.state (a.apply cfg).2 := Attempt.apply_frame hlive
  have hbooked : a.Booked cfg (a.apply cfg) := Attempt.apply_booked hlive
  rw [hr]
  refine ⟨hframe.marks, ?_⟩
  cases hbooked with
  | refused books _ => exact ⟨p, (congrArg (Dict.get? · _) books.positions).trans hp, hgrid⟩
  | bought _ hbuy => exact absurd (hside.symm.trans hbuy) (by decide)
  | sold p' _ _ hp' _ _ _ hpositions =>
    have hp' : s.positions.get? request.symbol = some p' := hp'
    obtain rfl : p = p' := Option.some.inj (hp.symm.trans hp')
    have hround : OnGrid quantum8 a.fillQty := quantizeDown_onGrid _ _
    have hrest : ¬OnGrid quantum8 (p.quantity - a.fillQty) := by
      intro hall
      have hback : OnGrid quantum8 (p.quantity - a.fillQty - (0 - a.fillQty)) :=
        hall.sub (OnGrid.sub ⟨0, by simp⟩ hround)
      exact hgrid (by simpa using hback)
    have hne : ¬p.quantity - a.fillQty = 0 := fun hzero => hrest (hzero ▸ ⟨0, by simp⟩)
    have hpositions : (a.apply cfg).2.positions = soldPositions s.positions request.symbol p
        a.fillQty a.price (a.fee cfg) := hpositions
    rw [hpositions, soldPositions]
    simp only [if_neg hne, Dict.get?_set_self]
    exact ⟨_, rfl, hrest⟩

end Paper

section Caps

variable {d : Deployment} {settings : RiskSettings} {cfg : PaperConfig} {s : Session}
  {symbol key : String} {around : Surroundings} {m : ℚ}

theorem exitOf_equity (paper : PaperState) (symbol : String) :
    (exitOf paper symbol).cash + (exitOf paper symbol).rest +
      (exitOf paper symbol).quantity * (exitOf paper symbol).price = paper.equity := by
  simp only [exitOf, PaperState.equity, Dict.sum_erase, Paper.held]
  cases paper.positions.get? symbol <;> simp [Option.elim] <;> ring

theorem exitOf_notional (paper : PaperState) (symbol : String) :
    (exitOf paper symbol).others + (exitOf paper symbol).quantity =
      paper.positions.sum Position.quantity := by
  simp only [exitOf, Dict.sum_erase, Paper.held]
  cases paper.positions.get? symbol <;> simp [Option.elim]

/-- What is held of a symbol with a position. -/
theorem held_position {paper : PaperState} {p : Position}
    (hp : paper.positions.get? symbol = some p) : Paper.held paper symbol = p.quantity := by
  rw [Paper.held, hp]
  rfl

/-- The mark of a symbol that has one. -/
theorem mark_known (hmark : s.paper.markPrices.get? symbol = some m) (around : Surroundings) :
    mark cfg s symbol around = (m, s) := by
  rw [mark, hmark]

/-- What an order of a symbol with a mark is evaluated on. -/
theorem riskContext_known (hmark : s.paper.markPrices.get? symbol = some m)
    (around : Surroundings) :
    let context := riskContext settings cfg s symbol around
    context.1.portfolio.cashBalance = s.paper.cash ∧
      context.1.portfolio.equity = s.paper.equity ∧
      context.1.portfolio.openPositions = s.paper.positions.values ∧
      context.1.markPrice = some m ∧ context.2.paper = s.paper := by
  intro context
  simp only [context, riskContext, portfolioState, raisePeak, mark, hmark, and_self]

/-- The request of a pass. -/
abbrev closeRequest (symbol : String) (quantity m : ℚ) (key : String) : OrderRequest :=
  (Runtime.closeArgs symbol quantity m).request key

/-- The caps on a closing SELL are told by the numbers of the ledger. -/
theorem exit_caps (hmark : s.paper.markPrices.get? symbol = some m) (hm : 0 < m)
    (settings : RiskSettings) (key : String) (around : Surroundings) :
    let context := (riskContext settings cfg s symbol around).1
    let e := exitOf s.paper symbol
    let request := closeRequest symbol e.quantity m key
    (FitsCaps settings request context m request.quantity ↔ e.Fits settings m) ∧
      capQuantity settings request context m = e.cap settings m := by
  intro context e request
  obtain ⟨hcash, hequity, hpositions, hcontext, -⟩ :=
    @riskContext_known settings cfg s symbol m hmark around
  have hsizing : sizingEquity context.portfolio = e.sizing := by
    rw [sizingEquity, Exit.sizing, exitOf_equity, hequity, hcash]
    rfl
  have hnotional : currentNotional context = (e.others + e.quantity) * m := by
    rw [exitOf_notional, currentNotional, hpositions, hcontext, Dict.sum]
    simp only [pyOr, if_neg hm.ne', Option.getD_some, List.sum_map_mul_right]
  have hroom : room settings context = e.room settings m := by
    rw [room, Exit.room, hsizing, hnotional]
  have hrisk : riskLimit settings request context m = e.riskCap settings m := by
    simp only [riskLimit, perUnitRisk, Exit.riskCap, hsizing, request,
      OrderArgs.request, Runtime.closeArgs, Exit.stop]
    split_ifs <;> simp_all
  refine ⟨?_, ?_⟩
  · rw [FitsCaps, Exit.Fits, hrisk, hroom]
    rfl
  · rw [capQuantity, Exit.cap, hrisk, hroom]

/-- What is left of a ledger's numbers after a part of the position is sold. -/
theorem exitOf_sold {paper paper' : PaperState} {p : Position} {q : ℚ}
    (hp : paper.positions.get? symbol = some p) (hlt : q < p.quantity)
    (hcash : paper'.cash = paper.cash + (Paper.fillPrice cfg m .market .sell none * q -
      Paper.fillFee cfg q (Paper.fillPrice cfg m .market .sell none) false))
    (hreserved : paper'.reservedCash = paper.reservedCash)
    (hpositions : paper'.positions = Paper.soldPositions paper.positions symbol p q
      (Paper.fillPrice cfg m .market .sell none)
      (Paper.fillFee cfg q (Paper.fillPrice cfg m .market .sell none) false)) :
    exitOf paper' symbol = (exitOf paper symbol).sold cfg m q ∧
      ∃ p', paper'.positions.get? symbol = some p' ∧ p'.quantity = p.quantity - q := by
  have hset : ∃ p', paper'.positions = paper.positions.set symbol p' ∧
      p'.quantity = p.quantity - q ∧
      p'.currentPrice = Paper.fillPrice cfg m .market .sell none := by
    rw [hpositions]
    unfold Paper.soldPositions
    simp only [if_neg (sub_pos.mpr hlt).ne']
    exact ⟨_, rfl, rfl, rfl⟩
  obtain ⟨p', hpositions, hquantity, hprice⟩ := hset
  have hothers : ∀ f : Position → ℚ,
      (paper'.positions.erase symbol).sum f = (paper.positions.erase symbol).sum f := by
    intro f
    rw [hpositions, Dict.sum_erase, Dict.sum_erase, Dict.sum_set, Dict.get?_set_self]
    simp only [Option.elim]
    ring
  have hget : paper'.positions.get? symbol = some p' := by rw [hpositions, Dict.get?_set_self]
  refine ⟨?_, p', hget, hquantity⟩
  simp only [exitOf, Exit.sold, Paper.held, hothers, hget, hp, Option.elim, hquantity, hprice,
    hcash, hreserved]

/-! ### A pass -/

/-- The gates on a request are open, the venue does not draw it to be rejected, and its key
is new. -/
structure PassOpen (settings : RiskSettings) (cfg : PaperConfig) (s : Session)
    (request : OrderRequest) (around : Surroundings) : Prop where
  venue : firstRefusal (venueGates settings
    (riskContext settings cfg s request.symbol around).2.risk request
    (riskContext settings cfg s request.symbol around).1) = none
  values : firstRefusal (requestGates settings
    (riskContext settings cfg s request.symbol around).2.risk request
    (riskContext settings cfg s request.symbol around).1 around.now) = none
  account : firstRefusal (accountGates settings
    (trimmed (riskContext settings cfg s request.symbol around).2.risk around.now) request
    (riskContext settings cfg s request.symbol around).1 around.now) = none
  drawn : ¬(0 < cfg.rejectProbability ∧ around.roll < cfg.rejectProbability)
  unseen : s.paper.idempotencyIndex.get? request.idempotencyKey = none

instance (request : OrderRequest) : Decidable (PassOpen settings cfg s request around) :=
  decidable_of_iff (_ ∧ _ ∧ _ ∧ _ ∧ _)
    ⟨fun ⟨h₁, h₂, h₃, h₄, h₅⟩ => ⟨h₁, h₂, h₃, h₄, h₅⟩,
      fun h => ⟨h.venue, h.values, h.account, h.drawn, h.unseen⟩⟩

/-- What a pass can come to, from one ledger to the next. -/
inductive PassEnds (settings : RiskSettings) (cfg : PaperConfig) (m : ℚ) (symbol : String)
    (paper paper' : PaperState) : Prop
  /-- The order is refused. -/
  | refused (hno : ¬(settings.minOrderNotional ≤ (exitOf paper symbol).quantity * m ∧
      ((exitOf paper symbol).Fits settings m ∨ 0 < (exitOf paper symbol).cap settings m)))
      (same : paper' = paper)
  /-- All that is left is sold. -/
  | whole (hmin : settings.minOrderNotional ≤ (exitOf paper symbol).quantity * m)
      (hfits : (exitOf paper symbol).Fits settings m)
      (marks : paper'.markPrices = paper.markPrices)
      (flat : paper'.positions.get? symbol = none)
  /-- The caps let a part be sold. -/
  | part (hmin : settings.minOrderNotional ≤ (exitOf paper symbol).quantity * m)
      (hover : ¬(exitOf paper symbol).Fits settings m)
      (hcap : 0 < (exitOf paper symbol).cap settings m)
      (marks : paper'.markPrices = paper.markPrices)
      (exit : exitOf paper' symbol =
        (exitOf paper symbol).sold cfg m ((exitOf paper symbol).cap settings m))
      (p' : Position) (hp' : paper'.positions.get? symbol = some p')
      (pos : 0 < p'.quantity) (lt : p'.quantity < (exitOf paper symbol).quantity)
      (grid : OnGrid quantum8 p'.quantity)

/-- A pass that is refused leaves the ledger. -/
theorem pass_refused {args : OrderArgs} (hmark : s.paper.markPrices.get? args.symbol = some m)
    (hno : ¬(submit settings cfg s args key around).1.Accepts) :
    (submit settings cfg s args key around).2.2.paper = s.paper := by
  obtain ⟨-, -, -, -, hpaper⟩ := @riskContext_known settings cfg s args.symbol m hmark around
  rw [submit_evaluation] at hno
  have hblocked := RiskEvaluation.not_accepts_iff.mp hno
  simp only [submit, raisePeak, countSale_paper, gatewaySubmit, if_pos hblocked, hpaper]

/-- A pass that is accepted submits the SELL of the approved size. -/
theorem pass_accepted {args : OrderArgs} {z : Sized}
    (hmark : s.paper.markPrices.get? args.symbol = some m)
    (hunseen : s.paper.idempotencyIndex.get? key = none)
    (haccept : (submit settings cfg s args key around).1 = accept z)
    (hz : z.reduced = true ∨ z.quantity = args.quantity) :
    (submit settings cfg s args key around).2.2.paper =
      (Paper.submitAfterLatency cfg s.paper { args.request key with quantity := z.quantity }
        (accept z) around.roll around.now).2 := by
  obtain ⟨-, -, -, -, hpaper⟩ := @riskContext_known settings cfg s args.symbol m hmark around
  rw [submit_evaluation] at haccept
  have hopen : ¬((accept z).decision = .rejected ∨ (accept z).decision = .halted) :=
    fun hno => RiskEvaluation.not_accepts_iff.mpr hno (accept_accepts z)
  have hsent : approvedRequest (args.request key) (accept z) =
      { args.request key with quantity := z.quantity } := by
    unfold approvedRequest accept
    rcases hz with hz | hz
    · rw [if_pos hz]
    · split_ifs
      · rfl
      · simp only [hz]
        rfl
  have hnew : s.paper.idempotencyIndex.get?
      ({ args.request key with quantity := z.quantity } : OrderRequest).idempotencyKey = none :=
    hunseen
  simp only [submit, raisePeak, countSale_paper, gatewaySubmit, haccept, if_neg hopen, hpaper,
    hsent, Paper.submit, hnew]

/-- What the open gates say of the mark. -/
theorem PassOpen.mark_pos {q : ℚ} (hmark : s.paper.markPrices.get? symbol = some m)
    (hopen : PassOpen settings cfg s (closeRequest symbol q m key) around) : 0 < m :=
  (requestGates_pass hopen.values).2.2 m
    (@riskContext_known settings cfg s symbol m hmark around).2.2.2.1

/-- The size gates ask for the minimum notional. -/
theorem sizeGates_closeRequest (q : ℚ) :
    firstRefusal (sizeGates settings (closeRequest symbol q m key)
      (riskContext settings cfg s symbol around).1 m) = none ↔
      settings.minOrderNotional ≤ q * m := by
  have hinfo : (riskContext settings cfg s symbol around).1.symbolInfo = none := rfl
  simp only [sizeGates, hinfo, firstRefusal_eq_none, List.forall_mem_singleton, rejectIf_fails,
    decide_eq_false_iff_not, not_lt]
  rfl

/-- A pass whose gates are open is sized, if what is left is worth an order. -/
theorem PassOpen.passed {q : ℚ} (hmark : s.paper.markPrices.get? symbol = some m)
    (hopen : PassOpen settings cfg s (closeRequest symbol q m key) around)
    (hmin : settings.minOrderNotional ≤ q * m) :
    Passed settings (riskContext settings cfg s symbol around).2.risk
      (closeRequest symbol q m key) (riskContext settings cfg s symbol around).1 around.now m := by
  have hcontext : (riskContext settings cfg s symbol around).1.markPrice = some m :=
    (@riskContext_known settings cfg s symbol m hmark around).2.2.2.1
  exact ⟨hopen.venue, hopen.values, hcontext, hopen.mark_pos hmark,
    (sizeGates_closeRequest q).mpr hmin, hopen.account⟩

/-- The evaluation that a pass acts on. -/
theorem pass_evaluation (q : ℚ) :
    (submit settings cfg s (Runtime.closeArgs symbol q m) key around).1 =
      (evaluate settings (riskContext settings cfg s symbol around).2.risk
        (closeRequest symbol q m key) (riskContext settings cfg s symbol around).1 around.now).1 :=
  submit_evaluation

/-- A pass that is worth less than an order is refused. -/
theorem pass_belowMin {q : ℚ} (hmark : s.paper.markPrices.get? symbol = some m)
    (hmin : ¬settings.minOrderNotional ≤ q * m) :
    (submit settings cfg s (Runtime.closeArgs symbol q m) key around).2.2.paper = s.paper := by
  refine pass_refused hmark fun haccepts => hmin ?_
  rw [pass_evaluation] at haccepts
  obtain ⟨price, z, hpassed, -, -⟩ := evaluate_accepted haccepts
  have hcontext : (riskContext settings cfg s symbol around).1.markPrice = some m :=
    (@riskContext_known settings cfg s symbol m hmark around).2.2.2.1
  obtain rfl : m = price := Option.some.inj (hcontext.symm.trans hpassed.price_eq)
  exact (sizeGates_closeRequest q).mp hpassed.size

/-- A pass sells the size that it is approved for. -/
theorem pass_sells {p : Position} {z : Sized} (hone : cfg.partialFillFraction = 1)
    (hmark : s.paper.markPrices.get? symbol = some m)
    (hp : s.paper.positions.get? symbol = some p)
    (hopen : PassOpen settings cfg s (closeRequest symbol p.quantity m key) around)
    (hmin : settings.minOrderNotional ≤ p.quantity * m)
    (hsized : approvedSize settings (closeRequest symbol p.quantity m key)
      (riskContext settings cfg s symbol around).1 m = .ok z)
    (hz : z.reduced = true ∨ z.quantity = p.quantity) (hgrid : OnGrid quantum8 z.quantity)
    (hpos : 0 < z.quantity) (hle : z.quantity ≤ p.quantity) :
    let paper :=
      (submit settings cfg s (Runtime.closeArgs symbol p.quantity m) key around).2.2.paper
    let price := Paper.fillPrice cfg m .market .sell none
    let fee := Paper.fillFee cfg z.quantity price false
    paper.cash = s.paper.cash + (price * z.quantity - fee) ∧
      paper.reservedCash = s.paper.reservedCash ∧
      paper.positions = Paper.soldPositions s.paper.positions symbol p z.quantity price fee ∧
      paper.markPrices = s.paper.markPrices := by
  have haccept : (submit settings cfg s (Runtime.closeArgs symbol p.quantity m) key around).1 =
      accept z := by
    rw [pass_evaluation, evaluate_of_passed (hopen.passed hmark hmin) hsized]
  have hunseen : s.paper.idempotencyIndex.get? key = none := hopen.unseen
  rw [pass_accepted hmark hunseen haccept hz]
  exact Paper.sell_booked rfl rfl hmark
    (fun hno => RiskEvaluation.not_accepts_iff.mpr hno (accept_accepts z)) hopen.drawn
    ⟨rfl, rfl, rfl⟩ hone hgrid hp hpos hle

/-- **What a pass comes to**, with the gates open. -/
theorem pass_ends {p : Position} (hone : cfg.partialFillFraction = 1)
    (hmark : s.paper.markPrices.get? symbol = some m)
    (hp : s.paper.positions.get? symbol = some p) (hpos : 0 < p.quantity)
    (hgrid : OnGrid quantum8 p.quantity)
    (hopen : PassOpen settings cfg s (closeRequest symbol p.quantity m key) around) :
    PassEnds settings cfg m symbol s.paper
      (submit settings cfg s (Runtime.closeArgs symbol p.quantity m) key around).2.2.paper := by
  let request := closeRequest symbol p.quantity m key
  let context := (riskContext settings cfg s symbol around).1
  have hm : 0 < m := hopen.mark_pos hmark
  have hquantity : (exitOf s.paper symbol).quantity = p.quantity := held_position hp
  by_cases hmin : settings.minOrderNotional ≤ p.quantity * m
  swap
  · exact .refused (fun h => hmin (hquantity ▸ h.1)) (pass_belowMin hmark hmin)
  have hmin' : settings.minOrderNotional ≤ (exitOf s.paper symbol).quantity * m := hquantity ▸ hmin
  obtain ⟨hfits, hcap⟩ := @exit_caps cfg s symbol m hmark hm settings key around
  rw [hquantity] at hfits hcap
  obtain ⟨hwhole, hpart, herror⟩ := @approvedSize_sell settings request context m rfl hm hpos
  by_cases hfit : FitsCaps settings request context m request.quantity
  · obtain ⟨-, -, hpositions, hmarks⟩ := pass_sells hone hmark hp hopen hmin (hwhole hfit)
      (.inr rfl) hgrid hpos le_rfl
    refine .whole hmin' (hfits.mp hfit) hmarks ?_
    have hnothing : p.quantity - request.quantity = 0 := sub_self p.quantity
    rw [hpositions]
    simp [Paper.soldPositions, hnothing, Dict.get?_erase]
  by_cases hcap_pos : 0 < capQuantity settings request context m
  · have hlt : capQuantity settings request context m < p.quantity :=
      capQuantity_lt hm hcap_pos hfit
    obtain ⟨hcash, hreserved, hpositions, hmarks⟩ := pass_sells hone hmark hp hopen hmin
      (hpart hfit hcap_pos) (.inl rfl) capQuantity_onGrid hcap_pos hlt.le
    obtain ⟨hexit, p', hp', hleft⟩ := exitOf_sold hp hlt hcash hreserved hpositions
    rw [hcap] at hexit
    refine .part hmin' (mt hfits.mpr hfit) (hcap ▸ hcap_pos) hmarks hexit p' hp' ?_ ?_ ?_
    · rw [hleft]
      exact sub_pos.mpr hlt
    · rw [hleft, hquantity]
      exact sub_lt_self _ hcap_pos
    · rw [hleft]
      exact hgrid.sub capQuantity_onGrid
  · refine .refused (fun h => ?_) (pass_refused hmark ?_)
    · exact h.2.elim (fun h => hfit (hfits.mpr h)) fun h => hcap_pos (hcap ▸ h)
    · obtain ⟨answer, hanswer⟩ := herror hfit hcap_pos
      rw [pass_evaluation, evaluate_of_refused (hopen.passed hmark hmin) hanswer]
      exact (approvedSize_error hanswer).refuses

/-- A pass does not sell off a position that is not in eight decimals. -/
theorem pass_offGrid {p : Position} (hmark : s.paper.markPrices.get? symbol = some m)
    (hp : s.paper.positions.get? symbol = some p) (hgrid : ¬OnGrid quantum8 p.quantity)
    (hopen : PassOpen settings cfg s (closeRequest symbol p.quantity m key) around) :
    let paper :=
      (submit settings cfg s (Runtime.closeArgs symbol p.quantity m) key around).2.2.paper
    paper.markPrices = s.paper.markPrices ∧
      ∃ p', paper.positions.get? symbol = some p' ∧ ¬OnGrid quantum8 p'.quantity := by
  intro paper
  by_cases haccepts :
      (submit settings cfg s (Runtime.closeArgs symbol p.quantity m) key around).1.Accepts
  · obtain ⟨-, z, hz, haccept⟩ := submit_accepted haccepts
    have hreduced : z.reduced = true ∨ z.quantity = p.quantity := by
      rcases cappedSize_cases (approvedSize_ok hz).1 with rfl | ⟨hreduced, -⟩
      · exact .inr rfl
      · exact .inl hreduced
    have hunseen : s.paper.idempotencyIndex.get? key = none := hopen.unseen
    have hpaper : paper = _ := pass_accepted hmark hunseen haccept hreduced
    rw [hpaper]
    exact Paper.sell_offGrid rfl rfl hmark
      (fun hno => RiskEvaluation.not_accepts_iff.mpr hno (accept_accepts z)) hopen.drawn hp hgrid
  · have hpaper : paper = s.paper := pass_refused hmark haccepts
    rw [hpaper]
    exact ⟨rfl, p, hp, hgrid⟩

end Caps

/-! ### The passes -/

section Passes

variable {d : Deployment} {s : Session} {symbol key : String} {around : Surroundings} {m : ℚ}

/-- The session after a pass. -/
def afterPass (d : Deployment) (s : Session) (symbol : String) (key : String)
    (around : Surroundings) : Session :=
  let m := mark d.paper s symbol around
  (submit d.settings d.paper m.2 (Runtime.closeArgs symbol (Paper.held s.paper symbol) m.1) key
    around).2.2

/-- The gates are open in each pass of a closing: while something is left, and the pass
before has sold something. -/
def GatesOpen (d : Deployment) (symbol : String) : List (String × Surroundings) → Session → Prop
  | [], _ => True
  | (key, around) :: passes, s =>
      Paper.held s.paper symbol ≤ 0 ∨
        PassOpen d.settings d.paper (mark d.paper s symbol around).2
            (closeRequest symbol (Paper.held s.paper symbol) (mark d.paper s symbol around).1 key)
            around ∧
          (Paper.held (afterPass d s symbol key around).paper symbol < Paper.held s.paper symbol →
            GatesOpen d symbol passes (afterPass d s symbol key around))

instance decidableGatesOpen (d : Deployment) (symbol : String) :
    ∀ (passes : List (String × Surroundings)) (s : Session),
      Decidable (GatesOpen d symbol passes s)
  | [], _ => .isTrue trivial
  | (key, around) :: passes, s =>
      have := decidableGatesOpen d symbol passes (afterPass d s symbol key around)
      inferInstanceAs (Decidable (_ ∨ _ ∧ (_ → _)))

/-- The pass of a symbol with a position and a mark. -/
theorem afterPass_known {p : Position} (hmark : s.paper.markPrices.get? symbol = some m)
    (hp : s.paper.positions.get? symbol = some p) (key : String) (around : Surroundings) :
    afterPass d s symbol key around =
      (submit d.settings d.paper s (Runtime.closeArgs symbol p.quantity m) key around).2.2 := by
  rw [afterPass, mark_known hmark, held_position hp]

/-- A closing makes one pass, and goes on if that has sold a part. -/
theorem closeSymbol_cons (symbol key : String) (around : Surroundings)
    (passes : List (String × Surroundings)) (s : Session) :
    Runtime.closeSymbol d symbol ((key, around) :: passes) s =
      if Paper.held s.paper symbol ≤ 0 then (mark d.paper s symbol around).2
      else if ((afterPass d s symbol key around).paper.positions.get? symbol).any
          fun p => Paper.held s.paper symbol ≤ p.quantity then afterPass d s symbol key around
      else Runtime.closeSymbol d symbol passes (afterPass d s symbol key around) := rfl

/-- Nothing is left to close. -/
theorem closeSymbol_flat (passes : List (String × Surroundings))
    (hmark : s.paper.markPrices.get? symbol = some m)
    (hflat : s.paper.positions.get? symbol = none) :
    (Runtime.closeSymbol d symbol passes s).paper.positions.get? symbol = none := by
  have hheld : Paper.held s.paper symbol ≤ 0 := by
    rw [Paper.held, hflat]
    exact le_rfl
  cases passes with
  | nil => exact hflat
  | cons pass passes =>
    obtain ⟨key, around⟩ := pass
    rw [closeSymbol_cons, if_pos hheld, mark_known hmark]
    exact hflat

/-- A position that is not in eight decimals stays open, however many passes are made. -/
theorem closeSymbol_offGrid (passes : List (String × Surroundings)) :
    ∀ {s : Session} {p : Position}, s.paper.markPrices.get? symbol = some m →
      s.paper.positions.get? symbol = some p → ¬OnGrid quantum8 p.quantity →
      GatesOpen d symbol passes s →
      (Runtime.closeSymbol d symbol passes s).paper.positions.get? symbol ≠ none := by
  induction passes with
  | nil =>
    intro s p _ hp _ _
    rw [Runtime.closeSymbol, hp]
    exact Option.some_ne_none p
  | cons pass passes ih =>
    obtain ⟨key, around⟩ := pass
    intro s p hmark hp hgrid hopen
    have hheld : Paper.held s.paper symbol = p.quantity := held_position hp
    have hafter : afterPass d s symbol key around = _ := afterPass_known hmark hp key around
    rw [closeSymbol_cons]
    split_ifs with hzero hstill
    · rw [mark_known hmark, hp]
      exact Option.some_ne_none p
    all_goals
      rw [GatesOpen, or_iff_right hzero, mark_known hmark, hheld] at hopen
      obtain ⟨hmarks, p', hp', hgrid'⟩ := pass_offGrid hmark hp hgrid hopen.1
    · rw [hafter, hp']
      exact Option.some_ne_none p'
    · rw [hafter] at hopen hstill ⊢
      refine ih (hmarks ▸ hmark) hp' hgrid' (hopen.2 ?_)
      rw [hp', Option.any_some, decide_eq_true_eq, not_le, hheld] at hstill
      rw [held_position hp']
      exact hstill

/-- **When a closing leaves the symbol flat**, for a position of eight decimals in a symbol
with a mark: by induction on the passes. -/
theorem closeSymbol_flat_iff (hone : d.paper.partialFillFraction = 1)
    (passes : List (String × Surroundings)) :
    ∀ {s : Session} {p : Position}, s.paper.markPrices.get? symbol = some m →
      s.paper.positions.get? symbol = some p → 0 < p.quantity → OnGrid quantum8 p.quantity →
      GatesOpen d symbol passes s →
      ((Runtime.closeSymbol d symbol passes s).paper.positions.get? symbol = none ↔
        (exitOf s.paper symbol).ClosesIn d.settings d.paper m passes.length) := by
  induction passes with
  | nil =>
    intro s p _ hp _ _ _
    rw [Runtime.closeSymbol, hp]
    exact iff_of_false (Option.some_ne_none p) id
  | cons pass passes ih =>
    obtain ⟨key, around⟩ := pass
    intro s p hmark hp hpos hgrid hopen
    have hheld : Paper.held s.paper symbol = p.quantity := held_position hp
    have hzero : ¬Paper.held s.paper symbol ≤ 0 := by
      rw [hheld]
      exact not_le.mpr hpos
    rw [closeSymbol_cons, if_neg hzero, List.length_cons, Exit.ClosesIn]
    rw [GatesOpen, or_iff_right hzero, mark_known hmark, hheld] at hopen
    have hends : PassEnds d.settings d.paper m symbol s.paper
        (afterPass d s symbol key around).paper := by
      rw [afterPass_known hmark hp]
      exact pass_ends hone hmark hp hpos hgrid hopen.1
    cases hends with
    | refused hno same =>
      -- nothing is sold, and the closing ends
      rw [same, hp, Option.any_some, hheld, if_pos (by simp), same, hp]
      refine iff_of_false (Option.some_ne_none p) fun h => hno ⟨h.1, h.2.imp_right And.left⟩
    | whole hmin hfits marks flat =>
      rw [flat, Option.any_none, if_neg Bool.false_ne_true]
      exact iff_of_true (closeSymbol_flat passes (marks ▸ hmark) flat) ⟨hmin, .inl hfits⟩
    | part hmin hover hcap marks exit p' hp' pos lt grid =>
      have hless : p'.quantity < p.quantity := lt.trans_eq hheld
      rw [hp', Option.any_some, hheld, if_neg (by simpa using hless)]
      have hheld' : Paper.held (afterPass d s symbol key around).paper symbol < p.quantity := by
        rw [held_position hp']
        exact hless
      rw [ih (marks ▸ hmark) hp' pos grid (hopen.2 hheld'), exit]
      exact ⟨fun h => ⟨hmin, .inr ⟨hcap, h⟩⟩, fun h => (h.2.resolve_left hover).2⟩

/-- What the first pass finds: a symbol without a mark is marked first, and the sweep of
this mark trades nothing. -/
theorem mark_quiet {p : Position} (hp : s.paper.positions.get? symbol = some p)
    (hquiet : s.paper.markPrices.get? symbol = none →
      Paper.Quiet d.paper s.paper symbol around.seriesMark) :
    let marked := mark d.paper s symbol around
    marked.2.paper.markPrices.get? symbol = some marked.1 ∧
      ∃ p', marked.2.paper.positions.get? symbol = some p' ∧ p'.quantity = p.quantity := by
  cases hmark : s.paper.markPrices.get? symbol with
  | some m =>
    rw [mark_known hmark]
    exact ⟨hmark, p, hp, rfl⟩
  | none =>
    simp only [mark, hmark, (hquiet hmark).setMarkPrice_eq, Paper.markState, Paper.markPositions,
      hp, Dict.get?_set_self]
    exact ⟨trivial, _, rfl, rfl⟩

end Passes

/-- The default deployment. -/
def plainDeployment : Deployment := { settings := {}, paper := {}, column := id }

/-- Four passes at a time, with keys of their own. -/
def fourPasses : List (String × Surroundings) :=
  ["a", "b", "c", "d"].map fun key => (key, { now := 0, seriesMark := 50 })

end Atlas
