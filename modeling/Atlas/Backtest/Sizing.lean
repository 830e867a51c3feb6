import Atlas.Backtest.Engine
import Atlas.Risk.Rounding

/-!
# Sizes in a backtest and in the risk engine

A backtest buys a fixed fraction of its cash.  It has no `RiskEngine`: the caps that the
paper path puts on the same order are not looked at.  Here the size of an entry is compared
with what `evaluate` would approve for it, both in one arithmetic.

## Main definitions

* `Mirrors` — an order of the paper path in the situation of the entry.
* `WithinCaps` — the caps of the risk engine, for a size, moved by a share of themselves.
* `Approves` — the risk engine accepts a request with no less than a quantity.

## Main results

* `approvedSize_of_withinCaps`, `withinCaps_of_bounded` — without roundings the risk engine
  leaves a size as it is when it is within the caps, and only then.
* `withinCaps_of_approvedSizeIn`, `approvedSizeIn_of_withinCaps` — the same up to roundings.
* `entry_within_risk_iff` — **when an entry is within what the risk engine approves**.
-/

namespace Atlas.Backtest

open Quantize Risk Arithmetic

variable {A : Arithmetic ℚ} {settings : RiskSettings} {state : RiskEngineState}
  {request : OrderRequest} {riskContext : RiskContext} {now : Time} {config : BacktestConfig}
  {strategy : BacktestStrategy} {window : List Candle} {bar : Candle} {s s' : LoopState}
  {position : Position} {price cash qty : ℚ}

/-- What one unit may lose: its price, or the way to a positive stop. -/
def unitRisk (price : ℚ) (stop : Option ℚ) : ℚ :=
  match stop with
  | some x => if 0 < x then |price - x| else price
  | none => price

/-- The caps of the risk engine on a size, in a flat account, each moved by a share of it. -/
structure WithinCaps (settings : RiskSettings) (cash price : ℚ) (stop : Option ℚ) (e qty : ℚ) :
    Prop where
  risk : 0 < unitRisk price stop → qty * unitRisk price stop ≤
    cash * settings.maxRiskPerTrade + e * |cash * settings.maxRiskPerTrade|
  position : qty * price ≤
    cash * settings.maxPositionExposure + e * |cash * settings.maxPositionExposure|
  portfolio : qty * price ≤
    cash * settings.maxPortfolioExposure + e * |cash * settings.maxPortfolioExposure|
  cash : qty * price ≤ cash + e * |cash|

/-- A market buy of the entry's quantity on the paper path: the same cash and equity, no open
position, and the same mark and stop. -/
structure Mirrors (A : Arithmetic ℚ) (request : OrderRequest) (riskContext : RiskContext)
    (bar : Candle) (s : LoopState) (position : Position) : Prop where
  side : request.side = .buy
  orderType : request.orderType = .market
  quantity : request.quantity = position.quantity
  stop : request.stopLoss = position.stopLoss
  increasing : request.reduceOnly = false
  reference : referencePrice request riskContext = some bar.close
  mark : riskContext.markPrice = some bar.close
  cash : riskContext.portfolio.cashBalance = s.cash
  equity : riskContext.portfolio.equity = s.equity A bar.close
  flat : riskContext.portfolio.openPositions = []

/-- The limit of the risk budget, in the words of `unitRisk`. -/
theorem riskLimit_eq (hprice : 0 < price) :
    riskLimit settings request riskContext price =
      if 0 < unitRisk price request.stopLoss then
        some (quantizeDown8 (sizingEquity riskContext.portfolio * settings.maxRiskPerTrade /
          unitRisk price request.stopLoss))
      else none := by
  unfold riskLimit unitRisk perUnitRisk
  cases request.stopLoss with
  | none => simp [hprice]
  | some x =>
    by_cases hx : 0 < x
    · simp only [hx, if_true]
    · simp only [hx, if_false, hprice, if_true]

/-- A size on the grid that the risk budget admits is not reduced by it. -/
theorem capByRisk_eq (hprice : 0 < price) (hqty : 0 < quantize8 qty)
    (hrisk : 0 < unitRisk price request.stopLoss →
      quantize8 qty * unitRisk price request.stopLoss ≤
        sizingEquity riskContext.portfolio * settings.maxRiskPerTrade) :
    capByRisk settings request riskContext price ⟨quantize8 qty, false⟩ =
      .ok ⟨quantize8 qty, false⟩ := by
  have hle : ∀ m, riskLimit settings request riskContext price = some m → quantize8 qty ≤ m := by
    intro m hm
    rw [riskLimit_eq hprice] at hm
    split_ifs at hm with hunit
    rw [← Option.some.inj hm]
    refine (quantize_le_quantizeDown_iff quantum8_pos hqty).mpr ?_
    rw [le_div_iff₀ hunit]
    exact hrisk hunit
  unfold riskLimit at hle
  unfold capByRisk
  dsimp only at hle ⊢
  split at hle
  · split_ifs at hle with hunit
    · have hmax := hle _ rfl
      rw [if_pos hunit, if_neg (not_le.mpr (hqty.trans_le hmax)), if_neg (not_lt.mpr hmax)]
    · rw [if_neg hunit]
  · rw [if_neg (not_lt.mpr (hle _ rfl))]

/-- A flat account with all its equity in cash. -/
structure Flat (A : Arithmetic ℚ) (riskContext : RiskContext) (cash : ℚ) : Prop where
  positions : riskContext.portfolio.openPositions = []
  cashBalance : riskContext.portfolio.cashBalance = cash
  equity : riskContext.portfolio.equity = A.round cash

theorem Flat.sizingEquity (h : Flat exact riskContext cash) :
    sizingEquity riskContext.portfolio = cash := by
  rw [Risk.sizingEquity, h.cashBalance, h.equity, exact_round, ite_self]

theorem Flat.currentNotional (h : Flat A riskContext cash) : currentNotional riskContext = 0 := by
  simp [Risk.currentNotional, h.positions]

theorem Flat.grossNotional (h : Flat A riskContext cash) : grossNotional riskContext = 0 := by
  simp [Risk.grossNotional, h.positions]

theorem Flat.roundings (h : Flat A riskContext cash) : roundings riskContext = 8 := by
  simp [Risk.roundings, h.positions]

/-! ### Without roundings -/

/-- The bounds on an approved quantity, for one on the grid. -/
theorem withinCaps_of_bounded (h : Flat exact riskContext cash) (hside : request.side = .buy)
    (hincreasing : request.reduceOnly = false) (hqty : 0 < quantize8 qty)
    (hbounded : Bounded settings request riskContext price (quantize8 qty)) :
    WithinCaps settings cash price request.stopLoss 0 (quantize8 qty) := by
  have hlimit := @riskLimit_eq settings request riskContext _ hbounded.price_pos
  have hposition := hbounded.within_position
  have hportfolio := hbounded.within_portfolio
  rw [h.sizingEquity] at hlimit hposition hportfolio
  rw [h.currentNotional, zero_add] at hportfolio
  have hcash := h.cashBalance ▸ hbounded.within_cash hside hincreasing
  refine ⟨fun hunit => ?_, ?_, ?_, ?_⟩ <;> rw [zero_mul, add_zero]
  · rw [if_pos hunit] at hlimit
    rw [← le_div_iff₀ hunit]
    exact (quantize_le_quantizeDown_iff quantum8_pos hqty).mp (hbounded.within_risk _ hlimit)
  · exact hposition
  · exact hportfolio
  · exact hcash

/-- A size within the caps is approved as it is. -/
theorem approvedSize_of_withinCaps (h : Flat exact riskContext cash) (hprice : 0 < price)
    (hqty : 0 < quantize8 qty) (hrequest : request.quantity = quantize8 qty)
    (hcaps : WithinCaps settings cash price request.stopLoss 0 (quantize8 qty)) :
    approvedSize settings request riskContext price = .ok ⟨quantize8 qty, false⟩ := by
  obtain ⟨hrisk, hposition, hportfolio, hcash⟩ := hcaps
  simp only [zero_mul, add_zero] at hrisk hposition hportfolio hcash
  have hrisk : capByRisk settings request riskContext price ⟨quantize8 qty, false⟩ =
      .ok ⟨quantize8 qty, false⟩ := capByRisk_eq hprice hqty (h.sizingEquity ▸ hrisk)
  have hposition : capByPosition settings riskContext price ⟨quantize8 qty, false⟩ =
      .ok ⟨quantize8 qty, false⟩ := by
    simp only [capByPosition, h.sizingEquity]
    exact if_neg (not_lt.mpr hposition)
  have hportfolio : capByPortfolio settings riskContext price ⟨quantize8 qty, false⟩ =
      .ok ⟨quantize8 qty, false⟩ := by
    simp only [capByPortfolio, h.sizingEquity, h.currentNotional, zero_add]
    exact if_neg (not_lt.mpr hportfolio)
  have hcheck : checkSize request riskContext price ⟨quantize8 qty, false⟩ =
      .ok ⟨quantize8 qty, false⟩ := by
    have hcovered : ¬cash < quantize8 qty * price := not_lt.mpr hcash
    simp [checkSize, not_le.mpr hqty, h.cashBalance, hcovered]
  simp only [approvedSize, hrequest, Except.bind_eq_ok]
  exact ⟨_, hrisk, _, hposition, _, hportfolio, hcheck⟩

/-! ### Up to roundings -/

theorem unitRisk_eq : (perUnitRisk request price).getD price = unitRisk price request.stopLoss := by
  unfold perUnitRisk unitRisk
  cases request.stopLoss with
  | none => rfl
  | some x =>
    dsimp only
    split_ifs <;> rfl

theorem unitRisk_nonneg (hprice : 0 < price) : 0 ≤ unitRisk price request.stopLoss := by
  unfold unitRisk
  split
  · split_ifs
    · exact abs_nonneg _
    · exact hprice.le
  · exact hprice.le

/-- A share of the equity of a flat account is that share of its cash, but for one rounding. -/
theorem Flat.approx (h : Flat A riskContext cash) (share : ℚ) :
    A.Approx 1 |cash * share| (share * riskContext.portfolio.equity) (cash * share) := by
  have hproduct := (A.approx_round cash).mul (Approx.refl (le_refl |share|))
  rw [← abs_mul, mul_comm (A.round cash), ← h.equity] at hproduct
  exact hproduct

theorem withinCaps_of_fits (h : Flat A riskContext cash)
    (hfits : FitsWithin settings request riskContext price (A.drift 8) qty)
    (hcash : qty * price ≤ cash + A.drift 9 * |cash|) :
    WithinCaps settings cash price request.stopLoss (A.drift 9) qty := by
  obtain ⟨hrisk, hposition, hportfolio⟩ := hfits
  simp only [WithinRisk, lossOf, unitRisk_eq, WithinPosition, WithinPortfolio, h.currentNotional,
    h.grossNotional, sub_zero, add_zero] at hrisk hposition hportfolio
  exact ⟨fun _ => (h.approx _).le_of_le_add (n := 8) hrisk,
    (h.approx _).le_of_le_add (n := 8) hposition, (h.approx _).le_of_le_add (n := 8) hportfolio,
    hcash⟩

/-- A bound on a share of the cash, tightened by all roundings, is one on that of the equity. -/
theorem Flat.le_of_le_sub (h : Flat A riskContext cash) {share x : ℚ}
    (hx : x ≤ cash * share + -A.drift 9 * |cash * share|) :
    x ≤ share * riskContext.portfolio.equity +
      -A.drift 8 * |share * riskContext.portfolio.equity| := by
  rw [neg_mul, ← sub_eq_add_neg] at hx ⊢
  exact (h.approx share).le_sub_of_le (n := 8) hx

theorem fits_of_withinCaps (h : Flat A riskContext cash)
    (hrisk : WithinRisk settings request riskContext price (-A.drift 8) qty)
    (hcaps : WithinCaps settings cash price request.stopLoss (-A.drift 9) qty) :
    FitsWithin settings request riskContext price (-A.drift 8) qty := by
  refine ⟨hrisk, h.le_of_le_sub hcaps.position, ?_⟩
  simp only [WithinPortfolio, h.currentNotional, h.grossNotional, sub_zero, add_zero]
  exact h.le_of_le_sub hcaps.portfolio

theorem WithinCaps.mono {stop : Option ℚ} {e q q' : ℚ} (h : WithinCaps settings cash price stop e q')
    (hprice : 0 < price) (hle : q ≤ q') : WithinCaps settings cash price stop e q where
  risk := fun hunit => (mul_le_mul_of_nonneg_right hle hunit.le).trans (h.risk hunit)
  position := (mul_le_mul_of_nonneg_right hle hprice.le).trans h.position
  portfolio := (mul_le_mul_of_nonneg_right hle hprice.le).trans h.portfolio
  cash := (mul_le_mul_of_nonneg_right hle hprice.le).trans h.cash

/-- With a stop at the price the risk budget is not looked at. -/
theorem approvedSizeIn_of_no_unit (hprice : 0 < price) (hunit : unitRisk price request.stopLoss = 0) :
    approvedSizeIn A settings request riskContext price =
      approvedSizeIn A { settings with maxRiskPerTrade := 0 } request riskContext price := by
  have hnone : perUnitRisk request price = some 0 := by
    rw [← unitRisk_eq] at hunit
    cases hrisk : perUnitRisk request price with
    | none =>
      rw [hrisk, Option.getD_none] at hunit
      exact absurd hunit hprice.ne'
    | some unit => rw [← hunit, hrisk, Option.getD_some]
  have hkept (settings : RiskSettings) (z : Sized) :
      capByRiskIn A settings request riskContext price z = .ok z := by
    simp only [capByRiskIn, perUnitRiskIn_eq, hnone, Option.map_some, A.round_zero, lt_irrefl,
      if_false]
  simp only [approvedSizeIn, cappedSizeIn, hkept]
  rfl

/-- What is approved is within the caps, but for roundings. -/
theorem withinCaps_of_approvedSizeIn (h : Flat A riskContext cash) (hside : request.side = .buy)
    (hincreasing : request.reduceOnly = false) (hprice : 0 < price)
    (hgrid : OnGrid quantum8 request.quantity) {z : Sized}
    (hz : approvedSizeIn A settings request riskContext price = .ok z) :
    WithinCaps settings cash price request.stopLoss (A.drift 9) z.quantity := by
  have hbuy : request.side = .buy ∧ ¬request.reduceOnly := ⟨hside, by simp [hincreasing]⟩
  have hcaps : ∀ settings : RiskSettings,
      0 < (perUnitRisk request price).getD price ∨ 0 ≤ settings.maxRiskPerTrade →
      approvedSizeIn A settings request riskContext price = .ok z →
      WithinCaps settings cash price request.stopLoss (A.drift 9) z.quantity := by
    intro settings hrisk hz
    obtain ⟨z', hcapped, hcheck⟩ := Except.bind_eq_ok.mp hz
    obtain ⟨rfl, hpos⟩ := checkSizeIn_ok hcheck
    have hpaid : A.round (z.quantity * price) ≤ cash := by
      rw [checkSizeIn, if_neg (not_le.mpr hpos), h.cashBalance] at hcheck
      split_ifs at hcheck with hcovered
      exact not_lt.mp fun hlt => hcovered ⟨hbuy.1, hbuy.2, hlt⟩
    have hcash : 0 < cash := (A.round_pos (mul_pos hpos hprice)).trans_le hpaid
    have hequity : 0 < riskContext.portfolio.equity := h.equity ▸ A.round_pos hcash
    have hfits := ((cappedSizeIn_spec hgrid hprice hequity hrisk).kept z hcapped hpos).2.2.1
    rw [h.roundings] at hfits
    refine withinCaps_of_fits h hfits ((A.le_of_round_le hpaid).trans ?_)
    have hmono : A.drift 2 ≤ A.drift 9 := A.drift_mono (by norm_num)
    have hscaled := mul_le_mul_of_nonneg_right hmono (abs_nonneg cash)
    linarith
  rcases (unitRisk_nonneg hprice).eq_or_lt with hnone | hunit
  · have hfree := hcaps { settings with maxRiskPerTrade := 0 } (.inr le_rfl)
      (approvedSizeIn_of_no_unit hprice hnone.symm ▸ hz)
    exact ⟨fun hunit => absurd hnone hunit.ne, hfree.position, hfree.portfolio, hfree.cash⟩
  · exact hcaps settings (.inl (unitRisk_eq ▸ hunit)) hz

/-- And what is within the caps but for roundings is approved, unless `quantize` raises. -/
theorem approvedSizeIn_of_withinCaps (h : Flat A riskContext cash) (hprice : 0 < price)
    (hgrid : OnGrid quantum8 request.quantity) (hqty : 0 < request.quantity)
    (hcaps : WithinCaps settings cash price request.stopLoss (-A.drift 9) request.quantity) :
    (∃ z, approvedSizeIn A settings request riskContext price = .ok z ∧
        request.quantity ≤ z.quantity) ∨
      approvedSizeIn A settings request riskContext price = .error .invalidOperation := by
  have hnotional := mul_pos hqty hprice
  have hcovered := hcaps.cash
  have hcash : 0 < cash := by
    have hslack := mul_nonneg (A.drift_nonneg 9) (abs_nonneg cash)
    linarith
  have hequity : 0 < riskContext.portfolio.equity := h.equity ▸ A.round_pos hcash
  have hleaves : ∀ settings : RiskSettings,
      0 < (perUnitRisk request price).getD price ∨ 0 ≤ settings.maxRiskPerTrade →
      FitsWithin settings request riskContext price (-A.drift 8) request.quantity →
      (∃ z, approvedSizeIn A settings request riskContext price = .ok z ∧
          request.quantity ≤ z.quantity) ∨
        approvedSizeIn A settings request riskContext price = .error .invalidOperation := by
    intro settings hrisk hfits
    have hspec := @cappedSizeIn_spec A settings request riskContext price hgrid hprice hequity hrisk
    refine approvedSizeIn_leaves hprice hgrid hequity hrisk (fun _ _ z hz => ?_)
      ⟨hqty, hgrid, ?_, h.roundings ▸ hfits⟩
    · rw [h.cashBalance]
      by_cases hpos : 0 < z.quantity
      · -- what the caps leave is larger than requested by four roundings at most
        have hle := mul_le_mul_of_nonneg_right (hspec.kept z hz hpos).2.1 hprice.le
        have hround := (A.approx_round (z.quantity * price)).abs_computed_le
        rw [abs_of_pos (mul_pos hpos hprice)] at hround
        have hmono : A.drift 5 ≤ A.drift 9 := A.drift_mono (by norm_num)
        have hfive := A.drift_nonneg 5
        rw [abs_of_pos hcash] at hcovered
        calc A.mul z.quantity price ≤ (1 + A.drift 1) * (z.quantity * price) :=
              (le_abs_self _).trans hround
          _ ≤ (1 + A.drift 1) * ((1 + A.drift 4) * request.quantity * price) :=
            mul_le_mul_of_nonneg_left hle (add_nonneg zero_le_one (A.drift_nonneg 1))
          _ = (1 + A.drift 5) * (request.quantity * price) := by
            rw [show (5 : ℕ) = 4 + 1 from rfl, drift_add]
            ring
          _ ≤ (1 + A.drift 5) * (cash + -A.drift 9 * cash) :=
            mul_le_mul_of_nonneg_left hcovered (add_nonneg zero_le_one hfive)
          _ ≤ cash := by
            have hslack := mul_nonneg (mul_nonneg hfive (A.drift_nonneg 9)) hcash.le
            have hscaled := mul_le_mul_of_nonneg_right hmono hcash.le
            linarith
      · have hnone : A.mul z.quantity price ≤ 0 :=
          A.round_nonpos (mul_nonpos_of_nonpos_of_nonneg (not_lt.mp hpos) hprice.le)
        exact hnone.trans hcash.le
    · rw [max_eq_right (neg_nonpos.mpr (A.drift_nonneg _)), add_zero, one_mul]
  rcases (unitRisk_nonneg hprice).eq_or_lt with hnone | hunit
  · rw [approvedSizeIn_of_no_unit hprice hnone.symm]
    have hfree : WithinCaps { settings with maxRiskPerTrade := 0 } cash price request.stopLoss
        (-A.drift 9) request.quantity :=
      ⟨fun hunit => absurd hnone hunit.ne, hcaps.position, hcaps.portfolio, hcaps.cash⟩
    refine hleaves _ (.inr le_rfl) (fits_of_withinCaps h ?_ hfree)
    simp [WithinRisk, lossOf, unitRisk_eq, ← hnone]
  · refine hleaves settings (.inl (unitRisk_eq ▸ hunit)) (fits_of_withinCaps h ?_ hcaps)
    rw [WithinRisk, lossOf, unitRisk_eq]
    exact h.le_of_le_sub (hcaps.risk hunit)

/-! ### The entry -/

/-- The size of an entry at a positive price. -/
theorem sizePosition_exact (hprice : 0 < price) :
    sizePosition exact config cash price =
      .ok (quantize8 (cash * config.positionSizeFraction / price)) := by
  rw [sizePosition, if_neg (not_le.mpr hprice), exact_mul, exact_div, exact_quantize]
  rfl

/-- The position that an entry opens. -/
theorem act_entry (hflat : s.position = none) (hact : act A config strategy window bar s = .ok s')
    (hentry : s'.position = some position) :
    0 < bar.close ∧ 0 < position.quantity ∧
      sizePosition A config s.cash bar.close = .ok position.quantity ∧
      position.stopLoss = (strategy.signal (context A window bar s)).suggestedStop := by
  cases act_acts hact with
  | kept => simp [hflat] at hentry
  | opened rationale qty _ hsize hqty _ =>
    obtain rfl : _ = position := Option.some.inj hentry
    have hprice : 0 < bar.close := by
      by_contra hprice
      rw [sizePosition, if_pos (not_lt.mp hprice)] at hsize
      exact hqty.ne (Except.ok.inj hsize)
    exact ⟨hprice, hqty, hsize, rfl⟩
  | exited p rationale hposition => simp [hflat] at hposition

/-- A size is of eight decimals. -/
theorem sizePosition_onGrid (h : sizePosition A config cash price = .ok qty) :
    OnGrid quantum8 qty := by
  rw [sizePosition] at h
  split_ifs at h
  · rw [← Except.ok.inj h]
    exact ⟨0, by simp⟩
  · rw [Arithmetic.quantize] at h
    split_ifs at h
    rw [← Except.ok.inj h]
    exact ⟨_, rfl⟩

/-- The risk engine accepts the request, with no less than a quantity. -/
def Approves (A : Arithmetic ℚ) (settings : RiskSettings) (state : RiskEngineState)
    (request : OrderRequest) (riskContext : RiskContext) (now : Time) (quantity : ℚ) : Prop :=
  ∃ answer approved, (evaluateIn A settings state request riskContext now).1 = some answer ∧
    answer.Accepts ∧ answer.approvedQuantity = some approved ∧ quantity ≤ approved

theorem approves_of_passed {z : Sized} (h : Passed settings state request riskContext now price)
    (hz : approvedSizeIn A settings request riskContext price = .ok z) (hle : qty ≤ z.quantity) :
    Approves A settings state request riskContext now qty := by
  refine ⟨accept z, z.quantity, ?_, accept_accepts z, accept_quantity z, hle⟩
  rw [evaluateIn_of_passed h, hz]

/-- What is approved has passed the gates, at the price of the mark. -/
theorem Approves.passed (h : Approves A settings state request riskContext now qty)
    (hreference : referencePrice request riskContext = some price) :
    ∃ z, Passed settings state request riskContext now price ∧
      approvedSizeIn A settings request riskContext price = .ok z ∧ qty ≤ z.quantity := by
  obtain ⟨answer, approved, hanswer, haccepts, happroved, hle⟩ := h
  obtain ⟨price', z, hpassed, hz, rfl⟩ := evaluateIn_accepted hanswer haccepts
  obtain rfl : price' = price := Option.some.inj (hpassed.price_eq.symm.trans hreference)
  rw [accept_quantity, Option.some.injEq] at happroved
  exact ⟨z, hpassed, hz, happroved ▸ hle⟩

/-- Without roundings the risk engine approves the quantity of an entry exactly if it is within
the caps. -/
theorem approves_exact_iff (hflat : Flat exact riskContext cash)
    (hside : request.side = .buy) (hincreasing : request.reduceOnly = false) (hprice : 0 < price)
    (hreference : referencePrice request riskContext = some price)
    (hqty : 0 < quantize8 qty) (hrequest : request.quantity = quantize8 qty) :
    Approves exact settings state request riskContext now (quantize8 qty) ↔
      Passed settings state request riskContext now price ∧
        WithinCaps settings cash price request.stopLoss 0 (quantize8 qty) := by
  have hsizes (z : Sized) : approvedSizeIn exact settings request riskContext price = .ok z ↔
      approvedSize settings request riskContext price = .ok z := by
    rw [approvedSizeIn_exact]
    cases approvedSize settings request riskContext price <;> simp [Except.mapError]
  constructor
  · intro happroves
    obtain ⟨z, hpassed, hz, hle⟩ := happroves.passed hreference
    -- the approved size is the requested one, so that its bounds are the caps
    have hbounded := approvedSize_bounded hprice ((hsizes z).mp hz)
    have hsame : z.quantity = quantize8 qty := le_antisymm (hrequest ▸ hbounded.le_requested) hle
    rw [hsame] at hbounded
    exact ⟨hpassed, withinCaps_of_bounded hflat hside hincreasing hqty hbounded⟩
  · rintro ⟨hpassed, hcaps⟩
    have hz := approvedSize_of_withinCaps hflat hprice hqty hrequest hcaps
    exact approves_of_passed hpassed ((hsizes _).mpr hz) le_rfl

/-- **When an entry is within paper risk.**  If the risk engine approves the entry's quantity, the
order passes its gates and the size is within its caps, loosened by nine roundings; if the size is
within them tightened as much, it is approved, unless a quotient has too many digits.  Without
roundings it is approved exactly if it is within the caps. -/
theorem entry_within_risk_iff (A : Arithmetic ℚ) (hflat : s.position = none)
    (hact : act A config strategy window bar s = .ok s') (hentry : s'.position = some position)
    (hmirrors : Mirrors A request riskContext bar s position) :
    let stop := (strategy.signal (context A window bar s)).suggestedStop
    let within (e : ℚ) := Passed settings state request riskContext now bar.close ∧
      WithinCaps settings s.cash bar.close stop e position.quantity
    (Approves A settings state request riskContext now position.quantity → within (A.drift 9)) ∧
      (within (-A.drift 9) →
        Approves A settings state request riskContext now position.quantity ∨
          ∃ x ∈ sizingQuotients A settings request riskContext bar.close,
            ¬A.Holds (roundDown (x / quantum8))) ∧
      (A = exact →
        (Approves A settings state request riskContext now position.quantity ↔ within 0)) := by
  obtain ⟨hprice, hqty, hsize, hstop⟩ := act_entry hflat hact hentry
  have hflat' : Flat A riskContext s.cash := by
    refine ⟨hmirrors.flat, hmirrors.cash, ?_⟩
    rw [hmirrors.equity, LoopState.equity, hflat, Option.elim_none, Arithmetic.add, add_zero]
  have hgrid : OnGrid quantum8 request.quantity := hmirrors.quantity ▸ sizePosition_onGrid hsize
  rw [← hstop, ← hmirrors.stop]
  intro stop within
  refine ⟨fun happroves => ?_, fun hwithin => ?_, ?_⟩
  · obtain ⟨z, hpassed, hz, hle⟩ := happroves.passed hmirrors.reference
    exact ⟨hpassed, (withinCaps_of_approvedSizeIn hflat' hmirrors.side hmirrors.increasing hprice
      hgrid hz).mono hprice hle⟩
  · obtain ⟨hpassed, hcaps⟩ := hwithin
    rw [← hmirrors.quantity] at hqty hcaps ⊢
    rcases approvedSizeIn_of_withinCaps hflat' hprice hgrid hqty hcaps with ⟨z, hz, hle⟩ | hraised
    · exact .inl (approves_of_passed hpassed hz hle)
    · have hstops := @approvedSizeIn_stops A settings request riskContext bar.close
      rw [hraised] at hstops
      exact .inr hstops
  · rintro rfl
    rw [sizePosition_exact hprice] at hsize
    have hsize := (Except.ok.inj hsize).symm
    have hrequest := hmirrors.quantity.trans hsize
    rw [hsize] at hqty
    simp only [within, hsize]
    exact approves_exact_iff hflat' hmirrors.side hmirrors.increasing hprice hmirrors.reference hqty
      hrequest

/-- The market buy of a position. -/
def entryRequest (position : Position) : OrderRequest :=
  { symbol := position.symbol
    side := .buy
    orderType := .market
    quantity := position.quantity
    stopLoss := position.stopLoss
    takeProfit := position.takeProfit
    idempotencyKey := "entry" }

/-- A flat account at a mark. -/
def entryContext (cash mark : ℚ) : RiskContext :=
  { portfolio := { cashBalance := cash, equity := cash, peakEquity := cash }
    markPrice := some mark }

theorem mirrors_entry (position : Position) (bar : Candle) (hflat : s.position = none)
    (hcash : A.round s.cash = s.cash) :
    Mirrors A (entryRequest position) (entryContext s.cash bar.close) bar s position where
  side := rfl
  orderType := rfl
  quantity := rfl
  stop := rfl
  increasing := rfl
  reference := rfl
  mark := rfl
  cash := rfl
  equity := by
    rw [LoopState.equity, hflat, Option.elim_none, Arithmetic.add, add_zero, hcash]
    rfl
  flat := rfl

/-- One bar at a close of 100. -/
def firstBar : Candle :=
  { symbol := "BTC/USDT", timeframe := "1h", openTime := 0, openPrice := 100, high := 101
    low := 99, close := 100, volume := 100 }

/-- Ten units bought at that bar by a strategy. -/
def tenUnits (strategyName : String) (stop target : Option ℚ) : Position :=
  { symbol := "BTC/USDT", quantity := 10, entryPrice := 10006 / 100, currentPrice := 100
    unrealizedPnl := 0, openedAt := 0, strategyName := some strategyName, stopLoss := stop
    takeProfit := target }

/-- With a stop at 95, an entry of ten units is within the default limits. -/
theorem entry_within_risk_stopped :
    ∃ s position, act decimal28 {} everyBar [firstBar] firstBar (start {}) = .ok s ∧
      s.position = some position ∧ position.quantity = 10 ∧
      Approves decimal28 {} {} (entryRequest position) (entryContext 10000 100) 0
        position.quantity := by
  have hflat : (start {}).position = none := rfl
  have hacts : (act decimal28 {} everyBar [firstBar] firstBar (start {})).toOption.any fun s =>
      s.position = some (tenUnits "every bar" (some 95) (some 110)) := by decide +kernel
  obtain ⟨s, hact, hposition⟩ := Except.exists_of_any_toOption hacts
  have hentry := of_decide_eq_true hposition
  have hmirrors : Mirrors decimal28 (entryRequest (tenUnits "every bar" (some 95) (some 110)))
      (entryContext 10000 100) firstBar (start {}) (tenUnits "every bar" (some 95) (some 110)) :=
    mirrors_entry _ firstBar hflat (by decide +kernel)
  refine ⟨s, _, hact, hentry, rfl, ((entry_within_risk_iff decimal28 hflat hact hentry
    hmirrors).2.1 ⟨?_, ?_⟩).resolve_right ?_⟩
  · exact ⟨by decide +kernel, by decide +kernel, rfl, by decide +kernel, by decide +kernel,
      by decide +kernel⟩
  · exact ⟨by decide +kernel, by decide +kernel, by decide +kernel, by decide +kernel⟩
  · decide +kernel

/-- **An entry looser than paper risk**: without a stop a tenth of the cash is bought, ten
units, of which the risk engine approves one; here both are in decimals. -/
theorem entry_looser_than_risk :
    ∃ s position, act decimal28 {} buyWhenFlat [firstBar] firstBar (start {}) = .ok s ∧
      s.position = some position ∧ position.quantity = 10 ∧
      Mirrors decimal28 (entryRequest position) (entryContext 10000 100) firstBar (start {})
        position ∧
      (evaluateIn decimal28 {} {} (entryRequest position) (entryContext 10000 100) 0).1.map
        (fun answer => (answer.decision, answer.approvedQuantity)) = some (.reduced, some 1) := by
  have hacts : (act decimal28 {} buyWhenFlat [firstBar] firstBar (start {})).toOption.any fun s =>
      s.position = some (tenUnits "buy when flat" none none) := by decide +kernel
  obtain ⟨s, hact, hposition⟩ := Except.exists_of_any_toOption hacts
  exact ⟨s, _, hact, of_decide_eq_true hposition, rfl,
    @mirrors_entry decimal28 (start {}) _ firstBar rfl (by decide +kernel), by decide +kernel⟩

end Atlas.Backtest
