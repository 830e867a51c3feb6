import Atlas.Risk.Engine

/-!
# The cap on the exposure of the account

`evaluate` keeps the open positions and the new order below the cap on the exposure
of the account, but it values every position at the mark of the request's symbol.
At their own prices the positions can be worth more.  The sum of the positions at
their own prices and of the new order is within the cap for every request exactly
when every size that fits in the room the engine sees fits at the positions' own
prices too.

## Main definitions

* `ownNotional` — the open positions at their own prices.
* `room` — the largest notional the caps leave for one order.
* `Offers` — the sizes the rules of the symbol and the rounding admit.
* `OwnExposureCapped` — no approval exceeds the cap at the positions' own prices.

## Main results

* `own_exposure_capped_iff` — **when the cap holds at the positions' own prices**.
* `fits_iff_room` — without symbol rules the condition is one inequality.
* `own_exposure_over_cap` — with positions in two symbols it can fail.

## References

`app/risk/engine.py`.
-/

namespace Atlas

namespace Risk

variable {settings : RiskSettings} {state : RiskEngineState} {request : OrderRequest}
  {context : RiskContext} {now : Time} {price quantity : ℚ}

/-- The notional of the open positions, each at its own current price. -/
def ownNotional (portfolio : PortfolioState) : ℚ :=
  (portfolio.openPositions.map fun p => p.quantity * p.currentPrice).sum

/-- The largest notional the caps leave for one order. -/
def room (settings : RiskSettings) (context : RiskContext) : ℚ :=
  min (sizingEquity context.portfolio * settings.maxPositionExposure)
    (sizingEquity context.portfolio * settings.maxPortfolioExposure - currentNotional context)

/-- Every approved or reduced BUY keeps the positions at their own prices and the
order within the cap on the exposure of the account. -/
def OwnExposureCapped (settings : RiskSettings) (context : RiskContext) : Prop :=
  ∀ state request now quantity price, request.side = .buy →
    (evaluate settings state request context now).1.Accepts →
    (evaluate settings state request context now).1.approvedQuantity = some quantity →
    referencePrice request context = some price →
    ownNotional context.portfolio + quantity * price ≤
      settings.maxPortfolioExposure * context.portfolio.equity

/-- Some BUY passes the gates of the engine. -/
def Tradable (settings : RiskSettings) (context : RiskContext) : Prop :=
  ∃ state request now price, request.side = .buy ∧
    Passed settings state request context now price

/-- A size at a price that the rules of the symbol admit: a quantity that passes the
gates on precision and size, or one of eight decimals below such a quantity. -/
def Offers (settings : RiskSettings) (context : RiskContext) (quantity price : ℚ) : Prop :=
  0 < quantity ∧ 0 < price ∧ ∃ request, referencePrice request context = some price ∧
    firstRefusal (sizeGates settings request context price) = none ∧
    quantity ≤ request.quantity ∧
    (quantity = request.quantity ∨ quantizeDown8 quantity = quantity)

/-- Every size that fits in the room the engine sees fits at the positions' own
prices. -/
def FitsAtOwnPrices (settings : RiskSettings) (context : RiskContext) : Prop :=
  ∀ quantity price, Offers settings context quantity price →
    quantity * price ≤ room settings context →
    ownNotional context.portfolio + quantity * price ≤
      settings.maxPortfolioExposure * context.portfolio.equity

/-! ### What is approved -/

/-- The quantity of an accepted request is the approved size. -/
theorem accepted_size (h : (evaluate settings state request context now).1.Accepts)
    (hq : (evaluate settings state request context now).1.approvedQuantity = some quantity)
    (hp : referencePrice request context = some price) :
    Passed settings state request context now price ∧
      ∃ z, approvedSize settings request context price = .ok z ∧ z.quantity = quantity := by
  obtain ⟨price', z, hpassed, hz, heval⟩ := evaluate_accepted h
  have hprice : price' = price := by
    rw [← Option.some.injEq, ← hpassed.price_eq, hp]
  rw [heval, accept_quantity, Option.some.injEq] at hq
  exact hprice ▸ ⟨hpassed, z, hz, hq⟩

theorem Bounded.le_room (h : Bounded settings request context price quantity) :
    quantity * price ≤ room settings context := by
  have hport := h.within_portfolio
  exact le_min h.within_position (by linarith)

/-- A cap keeps the size, or reduces it to eight decimals. -/
theorem approvedSize_rounded {z : Sized}
    (h : approvedSize settings request context price = .ok z) :
    z.quantity = request.quantity ∨ quantizeDown8 z.quantity = z.quantity := by
  simp only [approvedSize, Except.bind_eq_ok] at h
  obtain ⟨z₁, h₁, z₂, h₂, z₃, h₃, h₄⟩ := h
  have hstep : ∀ {z z' : Sized}, (z' = z ∨ ∃ x, z'.quantity = quantizeDown8 x) →
      (z.quantity = request.quantity ∨ quantizeDown8 z.quantity = z.quantity) →
      z'.quantity = request.quantity ∨ quantizeDown8 z'.quantity = z'.quantity := by
    rintro z z' (rfl | ⟨x, hx⟩) hz
    · exact hz
    · exact .inr (by rw [hx, quantizeDown8_idem])
  rw [(checkSize_ok h₄).1]
  exact hstep (capByPortfolio_reduced h₃) (hstep (capByPosition_reduced h₂)
    (hstep (capByRisk_reduced h₁) (.inl rfl)))

/-- Where every size that fits in the room fits at the positions' own prices, so does
every approval. -/
theorem capped_of_fits (h : FitsAtOwnPrices settings context) :
    OwnExposureCapped settings context := by
  intro state request now quantity price _ haccepts hq hp
  obtain ⟨hpassed, z, hz, rfl⟩ := accepted_size haccepts hq hp
  have hb : Bounded settings request context price z.quantity :=
    approvedSize_bounded hpassed.price_pos hz
  refine h z.quantity price ⟨hb.quantity_pos, hb.price_pos, request, hp, hpassed.size, ?_⟩ hb.le_room
  exact ⟨hb.le_requested, approvedSize_rounded hz⟩

/-! ### A request that is approved for a given size -/

/-- A BUY of the same size and price, whose stop at the price leaves no risk to cap,
and whose `reduceOnly` skips the check of the cash. -/
def uncapped (request : OrderRequest) (symbol key : String) (price : ℚ) : OrderRequest :=
  { request with
    symbol := symbol
    side := .buy
    orderType := if request.price.isSome then .limit else .market
    stopLoss := some price
    idempotencyKey := key
    reduceOnly := true }

/-- A reduction leaves a quantity of eight decimals that fits below the limit. -/
theorem reduceTo_leaves {limit : ℚ} {code : RiskReasonCode} {message : String} (hprice : 0 < price)
    (hq : 0 < quantity) (hround : quantizeDown8 quantity = quantity)
    (hle : quantity * price ≤ limit) :
    ∃ z, reduceTo limit price code message = .ok z ∧ quantity ≤ z.quantity := by
  have hred : quantity ≤ quantizeDown8 (limit / price) := by
    rw [← hround]
    exact quantizeDown8_mono hq.le ((le_div_iff₀ hprice).mpr hle)
  exact ⟨_, if_neg (not_le.mpr (hq.trans_le hred)), hred⟩

variable {z : Sized}

theorem capByPosition_leaves (hprice : 0 < price) (hq : 0 < quantity) (hz : quantity ≤ z.quantity)
    (hround : quantity = z.quantity ∨ quantizeDown8 quantity = quantity)
    (hle : quantity * price ≤ room settings context) :
    ∃ z', capByPosition settings context price z = .ok z' ∧ quantity ≤ z'.quantity ∧
      (quantity = z'.quantity ∨ quantizeDown8 quantity = quantity) := by
  have hmax : quantity * price ≤
      sizingEquity context.portfolio * settings.maxPositionExposure := hle.trans (min_le_left ..)
  simp only [capByPosition]
  split_ifs with hlt
  · rcases hround with rfl | hround
    · linarith
    · obtain ⟨z', hz', hred⟩ := reduceTo_leaves hprice hq hround hmax
      exact ⟨z', hz', hred, .inr hround⟩
  · exact ⟨z, rfl, hz, hround⟩

theorem capByPortfolio_leaves (hprice : 0 < price) (hq : 0 < quantity)
    (hz : quantity ≤ z.quantity)
    (hround : quantity = z.quantity ∨ quantizeDown8 quantity = quantity)
    (hle : quantity * price ≤ room settings context) :
    ∃ z', capByPortfolio settings context price z = .ok z' ∧ quantity ≤ z'.quantity := by
  have hmax : quantity * price ≤ sizingEquity context.portfolio *
      settings.maxPortfolioExposure - currentNotional context := hle.trans (min_le_right ..)
  have hpos : 0 < quantity * price := mul_pos hq hprice
  simp only [capByPortfolio]
  split_ifs with hlt hnone
  · linarith
  · rcases hround with rfl | hround
    · linarith
    · exact reduceTo_leaves hprice hq hround hmax
  · exact ⟨z, rfl, hz⟩

/-- The caps leave a size that fits in the room. -/
theorem approvedSize_leaves (hprice : 0 < price) (hq : 0 < quantity)
    (hz : quantity ≤ request.quantity)
    (hround : quantity = request.quantity ∨ quantizeDown8 quantity = quantity)
    (hle : quantity * price ≤ room settings context) (symbol key : String) :
    ∃ z, approvedSize settings (uncapped request symbol key price) context price = .ok z ∧
      quantity ≤ z.quantity := by
  have hunit : perUnitRisk (uncapped request symbol key price) price = some 0 := by
    simp [perUnitRisk, uncapped, hprice]
  have h₁ : capByRisk settings (uncapped request symbol key price) context price
      ⟨request.quantity, false⟩ = .ok ⟨request.quantity, false⟩ := by
    simp [capByRisk, hunit]
  obtain ⟨z₂, h₂, hz₂, hround₂⟩ : ∃ z', capByPosition settings context price
      ⟨request.quantity, false⟩ = .ok z' ∧ _ := capByPosition_leaves hprice hq hz hround hle
  obtain ⟨z₃, h₃, hz₃⟩ := capByPortfolio_leaves hprice hq hz₂ hround₂ hle
  have h₄ : checkSize (uncapped request symbol key price) context price z₃ = .ok z₃ := by
    simp [checkSize, not_le.mpr (hq.trans_le hz₃), uncapped]
  exact ⟨z₃, Except.bind_eq_ok.mpr ⟨_, h₁, Except.bind_eq_ok.mpr ⟨_, h₂,
    Except.bind_eq_ok.mpr ⟨_, h₃, h₄⟩⟩⟩, hz₃⟩

/-- Where one BUY passes the gates, so does any size the rules of the symbol admit. -/
theorem uncapped_passed {probe : OrderRequest} {price' : ℚ}
    (h : Passed settings state probe context now price') (hq : 0 < request.quantity)
    (hp : referencePrice request context = some price) (hprice : 0 < price)
    (hsize : firstRefusal (sizeGates settings request context price) = none) :
    Passed settings state (uncapped request probe.symbol probe.idempotencyKey price) context now
      price := by
  have hvenue := firstRefusal_eq_none.mp h.venue
  have hvalues := firstRefusal_eq_none.mp h.values
  have haccount := firstRefusal_eq_none.mp h.account
  refine ⟨?_, ?_, hp, hprice, hsize, ?_⟩
  · -- of the request, only the check for a short sale reads more than the symbol
    simp only [venueGates, List.forall_mem_append, List.forall_mem_cons] at hvenue
    rw [firstRefusal_eq_none]
    simp only [venueGates, List.forall_mem_append, List.forall_mem_cons]
    refine ⟨hvenue.1, hvenue.2.1, ?_, hvenue.2.2.2⟩
    simp [uncapped]
  · simp only [requestGates, List.forall_mem_cons] at hvalues
    rw [firstRefusal_eq_none]
    simp only [requestGates, List.forall_mem_cons]
    refine ⟨hvalues.1, hvalues.2.1, ?_, ?_, ?_, hvalues.2.2.2.2.2⟩
    · rw [rejectIf_fails, decide_eq_false_iff_not, not_le]
      exact hq
    · -- a limit order has the price it is sized at, which is positive
      rw [rejectIf_fails, decide_eq_false_iff_not]
      rintro ⟨hlimit, hbad⟩
      cases hr : request.price with
      | none => simp [uncapped, hr] at hlimit
      | some p =>
        rw [referencePrice, hr, Option.some_or, Option.some.injEq] at hp
        simp only [uncapped, hr, badPrice, Option.all_some, decide_eq_true_eq, hp] at hbad
        exact absurd hprice (not_lt.mpr hbad)
    · rw [rejectIf_fails, decide_eq_false_iff_not]
      rintro ⟨htype, -⟩
      cases hr : request.price <;> simp [uncapped, hr] at htype
  · simp only [accountGates, List.forall_mem_cons] at haccount
    rw [firstRefusal_eq_none]
    simp only [accountGates, List.forall_mem_cons]
    refine ⟨haccount.1, haccount.2.1, haccount.2.2.1, haccount.2.2.2.1, haccount.2.2.2.2.1, ?_, ?_⟩
    · simp [uncapped]
    · simp

/-- A cap that holds for every request leaves no size that does not fit. -/
theorem fits_of_capped (ht : Tradable settings context) (h : OwnExposureCapped settings context) :
    FitsAtOwnPrices settings context := by
  obtain ⟨state, probe, now, price', -, hpassed⟩ := ht
  rintro quantity price ⟨hq, hprice, request, hp, hsize, hz, hround⟩ hle
  obtain ⟨z, hok, hz'⟩ : ∃ z, approvedSize settings
      (uncapped request probe.symbol probe.idempotencyKey price) context price = .ok z ∧
      quantity ≤ z.quantity := approvedSize_leaves hprice hq hz hround hle ..
  have heval := evaluate_of_passed
    (uncapped_passed hpassed (hq.trans_le hz) hp hprice hsize) hok
  have hcap := h state (uncapped request probe.symbol probe.idempotencyKey price) now z.quantity
    price rfl (by rw [heval]; exact accept_accepts z) (by rw [heval]; exact accept_quantity z) hp
  have hmono : quantity * price ≤ z.quantity * price := mul_le_mul_of_nonneg_right hz' hprice.le
  linarith

/-- Without symbol rules the sizes fit exactly when there is no room, or all of it
fits. -/
theorem fits_iff_room (hinfo : context.symbolInfo = none) :
    FitsAtOwnPrices settings context ↔ room settings context ≤ 0 ∨
      ownNotional context.portfolio + room settings context ≤
        settings.maxPortfolioExposure * context.portfolio.equity := by
  constructor
  · intro h
    rcases le_or_gt (room settings context) 0 with hnone | hroom
    · exact .inl hnone
    -- one unit at the price `room`, of a request large enough for the minimum
    refine .inr (one_mul (room settings context) ▸
      h 1 (room settings context) ⟨zero_lt_one, hroom,
        { symbol := "", side := .buy, orderType := .limit, idempotencyKey := ""
          quantity := max 1 (settings.minOrderNotional / room settings context)
          price := some (room settings context) },
        rfl, ?_, le_max_left .., .inr (by decide +kernel)⟩ (one_mul _).le)
    rw [firstRefusal_eq_none]
    simp only [sizeGates, hinfo, List.forall_mem_singleton, rejectIf_fails,
      decide_eq_false_iff_not, not_lt]
    rw [← div_le_iff₀ hroom]
    exact le_max_right ..
  · rintro (hnone | hfits) quantity price ⟨hq, hprice, -⟩ hle
    · have hpos : 0 < quantity * price := mul_pos hq hprice
      linarith
    · linarith

/-! ### Positions in two symbols -/

/-- An account that holds one symbol, priced far above the mark of another one. -/
def heldPosition (currentPrice : ℚ) : Position where
  symbol := "BTC/USDT"
  quantity := 1 / 10
  entryPrice := 70000
  currentPrice := currentPrice
  unrealizedPnl := 0
  openedAt := 0

/-- The context of a request in a symbol at the mark `mark`. -/
def heldContext (currentPrice mark : ℚ) : RiskContext where
  portfolio :=
    { cashBalance := 10000 - currentPrice / 10
      equity := 10000
      peakEquity := 10000
      openPositions := [heldPosition currentPrice] }
  markPrice := some mark

/-- The settings with a second symbol allowed. -/
def twoSymbols : RiskSettings := { allowedSymbols := ["BTC/USDT", "ETH/USDT"] }

end Risk

end Atlas
