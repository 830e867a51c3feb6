import Atlas.Risk.Exposure
import Atlas.Risk.Frequency

/-!
# What the caps leave

`evaluate` takes a request through three caps, each of which divides a notional and
rounds down.  What they leave is the requested quantity where it fits the caps, and
otherwise the least of the caps in units; so nothing larger of eight decimals would fit.

## Main definitions

* `FitsCaps` — the caps leave a quantity as it is.
* `capQuantity` — the least of the caps, in units.

## Main results

* `cappedSize_eq` — what the caps leave: the requested quantity, or the least cap.
* `cappedSize_of_fits` — a quantity within the caps is left as it is.
* `approvedSize_sell` — **the size of a SELL**.

## References

`app/risk/engine.py`.
-/

namespace Atlas

open Quantize

namespace Risk

variable {settings : RiskSettings} {state : RiskEngineState} {request : OrderRequest}
  {context : RiskContext} {now : Time} {price quantity : ℚ} {z : Sized}

/-! ### The caps as one -/

/-- The caps leave the quantity as it is. -/
def FitsCaps (settings : RiskSettings) (request : OrderRequest) (context : RiskContext)
    (price quantity : ℚ) : Prop :=
  (∀ m, riskLimit settings request context price = some m → quantity ≤ m) ∧
    quantity * price ≤ room settings context

/-- The least of the caps in units, each rounded down to eight decimals. -/
def capQuantity (settings : RiskSettings) (request : OrderRequest) (context : RiskContext)
    (price : ℚ) : ℚ :=
  let byRoom := quantizeDown8 (room settings context / price)
  (riskLimit settings request context price).elim byRoom (min byRoom)

/-- The size after the three caps, before the last checks. -/
def cappedSize (settings : RiskSettings) (request : OrderRequest) (context : RiskContext)
    (price : ℚ) : Except RiskEvaluation Sized := do
  let z ← capByRisk settings request context price ⟨request.quantity, false⟩
  let z ← capByPosition settings context price z
  capByPortfolio settings context price z

theorem approvedSize_eq :
    approvedSize settings request context price =
      cappedSize settings request context price >>= checkSize request context price := by
  simp only [approvedSize, cappedSize, bind_assoc]

theorem riskLimit_rounded {m : ℚ} (h : riskLimit settings request context price = some m) :
    OnGrid quantum8 m := by
  simp only [riskLimit] at h
  split at h
  · split_ifs at h
    rw [Option.some.injEq] at h
    exact h ▸ quantizeDown_onGrid _ _
  · rw [Option.some.injEq] at h
    exact h ▸ quantizeDown_onGrid _ _

theorem capQuantity_onGrid : OnGrid quantum8 (capQuantity settings request context price) := by
  simp only [capQuantity]
  cases hm : riskLimit settings request context price with
  | none => exact quantizeDown_onGrid _ _
  | some m =>
    simp only [Option.elim]
    rcases min_choice (quantizeDown8 (room settings context / price)) m with h | h <;> rw [h]
    · exact quantizeDown_onGrid _ _
    · exact riskLimit_rounded hm

/-- A quantity of eight decimals that fits the caps is within the least of them. -/
theorem FitsCaps.le_capQuantity (hprice : 0 < price) (hgrid : OnGrid quantum8 quantity)
    (h : FitsCaps settings request context price quantity) :
    quantity ≤ capQuantity settings request context price := by
  have hroom : quantity ≤ quantizeDown8 (room settings context / price) :=
    hgrid.le_quantizeDown quantum8_pos ((le_div_iff₀ hprice).mpr h.2)
  simp only [capQuantity]
  cases hm : riskLimit settings request context price with
  | none => exact hroom
  | some m => exact le_min hroom (h.1 m hm)

/-- A positive least cap fits the caps. -/
theorem capQuantity_fits (hprice : 0 < price)
    (hpos : 0 < capQuantity settings request context price) :
    FitsCaps settings request context price (capQuantity settings request context price) := by
  have hle : capQuantity settings request context price ≤
      quantizeDown8 (room settings context / price) := by
    simp only [capQuantity]
    cases riskLimit settings request context price with
    | none => exact le_rfl
    | some m => exact min_le_left _ _
  refine ⟨fun m hm => ?_, ?_⟩
  · simp only [capQuantity, hm, Option.elim]
    exact min_le_right _ _
  · -- a cap that is positive rounds a positive room
    have hroom : 0 ≤ room settings context / price := by
      by_contra hneg
      exact absurd (hpos.trans_le hle) (not_lt.mpr (quantizeDown8_nonpos (not_le.mp hneg).le))
    calc capQuantity settings request context price * price
        ≤ room settings context / price * price :=
          mul_le_mul_of_nonneg_right (hle.trans (quantizeDown8_le hroom)) hprice.le
      _ = room settings context := div_mul_cancel₀ _ hprice.ne'

/-- A request over the caps is over the least of them. -/
theorem capQuantity_lt (hprice : 0 < price)
    (hpos : 0 < capQuantity settings request context price)
    (h : ¬FitsCaps settings request context price quantity) :
    capQuantity settings request context price < quantity := by
  obtain ⟨hrisk, hroom⟩ := capQuantity_fits hprice hpos
  by_contra hle
  rw [not_lt] at hle
  exact h ⟨fun m hm => hle.trans (hrisk m hm),
    (mul_le_mul_of_nonneg_right hle hprice.le).trans hroom⟩

theorem Bounded.fits (h : Bounded settings request context price quantity) :
    FitsCaps settings request context price quantity := ⟨h.within_risk, h.le_room⟩

/-! ### What the caps leave -/

theorem capByRisk_leaves (hq : 0 < quantity) (hz : quantity ≤ z.quantity)
    (hle : ∀ m, riskLimit settings request context price = some m → quantity ≤ m) :
    ∃ z', capByRisk settings request context price z = .ok z' ∧ quantity ≤ z'.quantity ∧
      (quantity = z.quantity → z' = z) := by
  simp only [riskLimit] at hle
  simp only [capByRisk]
  cases hunit : perUnitRisk request price with
  | none =>
    have hmax := hle _ (by rw [hunit])
    split_ifs with hlt
    · exact ⟨_, rfl, hmax, fun heq => absurd (heq ▸ hmax) (not_le.mpr hlt)⟩
    · exact ⟨z, rfl, hz, fun _ => rfl⟩
  | some unit =>
    by_cases hpos : 0 < unit
    · have hmax := hle _ (by rw [hunit]; exact if_pos hpos)
      simp only [if_pos hpos, if_neg (not_le.mpr (hq.trans_le hmax))]
      split_ifs with hlt
      · exact ⟨_, rfl, hmax, fun heq => absurd (heq ▸ hmax) (not_le.mpr hlt)⟩
      · exact ⟨z, rfl, hz, fun _ => rfl⟩
    · simp only [if_neg hpos]
      exact ⟨z, rfl, hz, fun _ => rfl⟩

/-- The caps leave a size that fits them. -/
theorem cappedSize_leaves (hprice : 0 < price) (hq : 0 < quantity)
    (hz : quantity ≤ request.quantity) (hgrid : OnGrid quantum8 quantity)
    (hfits : FitsCaps settings request context price quantity) :
    ∃ z, cappedSize settings request context price = .ok z ∧ quantity ≤ z.quantity := by
  have hround : quantizeDown8 quantity = quantity := (onGrid_iff quantum8_pos.ne').mp hgrid
  obtain ⟨z₁, h₁, hz₁, -⟩ : ∃ z', capByRisk settings request context price
      ⟨request.quantity, false⟩ = .ok z' ∧ _ := capByRisk_leaves hq hz hfits.1
  obtain ⟨z₂, h₂, hz₂, -⟩ := capByPosition_leaves hprice hq hz₁ (.inr hround) hfits.2
  obtain ⟨z₃, h₃, hz₃⟩ := capByPortfolio_leaves hprice hq hz₂ (.inr hround) hfits.2
  exact ⟨z₃, Except.bind_eq_ok.mpr ⟨_, h₁, Except.bind_eq_ok.mpr ⟨_, h₂, h₃⟩⟩, hz₃⟩

/-- A requested quantity within the caps is left as it is. -/
theorem cappedSize_of_fits (hprice : 0 < price) (hq : 0 < request.quantity)
    (hfits : FitsCaps settings request context price request.quantity) :
    cappedSize settings request context price = .ok ⟨request.quantity, false⟩ := by
  have hpos : 0 < request.quantity * price := mul_pos hq hprice
  obtain ⟨z₁, h₁, -, hsame⟩ : ∃ z', capByRisk settings request context price
      ⟨request.quantity, false⟩ = .ok z' ∧ _ := capByRisk_leaves hq le_rfl hfits.1
  rw [hsame rfl] at h₁
  have h₂ : capByPosition settings context price ⟨request.quantity, false⟩ =
      .ok ⟨request.quantity, false⟩ := by
    simp only [capByPosition]
    exact if_neg (not_lt.mpr (hfits.2.trans (min_le_left _ _)))
  have h₃ : capByPortfolio settings context price ⟨request.quantity, false⟩ =
      .ok ⟨request.quantity, false⟩ := by
    have hroom := hfits.2.trans (min_le_right _ _)
    simp only [capByPortfolio]
    exact if_neg (by linarith)
  exact Except.bind_eq_ok.mpr ⟨_, h₁, Except.bind_eq_ok.mpr ⟨_, h₂, h₃⟩⟩

/-- A size is the requested one, or a reduced one of eight decimals. -/
theorem cappedSize_cases (h : cappedSize settings request context price = .ok z) :
    z = ⟨request.quantity, false⟩ ∨ z.reduced = true ∧ OnGrid quantum8 z.quantity := by
  have hstep : ∀ {z z' : Sized}, (z' = z ∨ z'.reduced = true ∧ OnGrid quantum8 z'.quantity) →
      (z = ⟨request.quantity, false⟩ ∨ z.reduced = true ∧ OnGrid quantum8 z.quantity) →
      z' = ⟨request.quantity, false⟩ ∨ z'.reduced = true ∧ OnGrid quantum8 z'.quantity := by
    rintro z z' (rfl | hred) hz
    · exact hz
    · exact .inr hred
  have hreduce : ∀ {limit : ℚ} {code : RiskReasonCode} {message : String} {z' : Sized},
      reduceTo limit price code message = .ok z' →
      z'.reduced = true ∧ OnGrid quantum8 z'.quantity := by
    intro limit code message z' hz'
    simp only [reduceTo] at hz'
    split_ifs at hz'
    rw [Except.ok.injEq] at hz'
    exact hz' ▸ ⟨rfl, quantizeDown_onGrid _ _⟩
  simp only [cappedSize, Except.bind_eq_ok] at h
  obtain ⟨z₁, h₁, z₂, h₂, h₃⟩ := h
  -- one cap after the other: each keeps the size, or rounds another one
  have hz₁ : z₁ = ⟨request.quantity, false⟩ ∨ z₁.reduced = true ∧ OnGrid quantum8 z₁.quantity := by
    simp only [capByRisk] at h₁
    split at h₁ <;> split_ifs at h₁ <;> rw [Except.ok.injEq] at h₁ <;> subst h₁
    all_goals first | exact .inl rfl | exact .inr ⟨rfl, quantizeDown_onGrid _ _⟩
  have hz₂ : z₂ = z₁ ∨ z₂.reduced = true ∧ OnGrid quantum8 z₂.quantity := by
    simp only [capByPosition] at h₂
    split_ifs at h₂
    · exact .inr (hreduce h₂)
    · exact .inl (Except.ok.inj h₂).symm
  have hz₃ : z = z₂ ∨ z.reduced = true ∧ OnGrid quantum8 z.quantity := by
    simp only [capByPortfolio] at h₃
    split_ifs at h₃
    · exact .inr (hreduce h₃)
    · exact .inl (Except.ok.inj h₃).symm
  exact hstep hz₃ (hstep hz₂ hz₁)

/-- What the caps leave is within the request and fits them. -/
theorem cappedSize_fits (hprice : 0 < price)
    (h : cappedSize settings request context price = .ok z) :
    z.quantity ≤ request.quantity ∧ FitsCaps settings request context price z.quantity := by
  simp only [cappedSize, Except.bind_eq_ok] at h
  obtain ⟨z₁, h₁, z₂, h₂, h₃⟩ := h
  obtain ⟨hle₁, hrisk⟩ := capByRisk_ok h₁
  obtain ⟨hle₂, hpos⟩ := capByPosition_ok hprice h₂
  obtain ⟨hle₃, hport⟩ := capByPortfolio_ok hprice h₃
  have hle : z.quantity * price ≤ z₂.quantity * price := mul_le_mul_of_nonneg_right hle₃ hprice.le
  exact ⟨hle₃.trans (hle₂.trans hle₁), fun m hm => (hle₃.trans hle₂).trans (hrisk m hm),
    le_min (hle.trans hpos) (by linarith)⟩

/-- **What the caps leave**: the requested quantity where it fits them, and otherwise the
least of them. -/
theorem cappedSize_eq (hprice : 0 < price) (hq : 0 < z.quantity)
    (h : cappedSize settings request context price = .ok z) :
    FitsCaps settings request context price request.quantity ∧ z = ⟨request.quantity, false⟩ ∨
      ¬FitsCaps settings request context price request.quantity ∧
        z = ⟨capQuantity settings request context price, true⟩ ∧
        z.quantity < request.quantity := by
  obtain ⟨hle, hz⟩ := cappedSize_fits hprice h
  by_cases hfits : FitsCaps settings request context price request.quantity
  · left
    rw [cappedSize_of_fits hprice (hq.trans_le hle) hfits, Except.ok.injEq] at h
    exact ⟨hfits, h.symm⟩
  · right
    obtain ⟨hred, hgrid⟩ : z.reduced = true ∧ OnGrid quantum8 z.quantity := by
      rcases cappedSize_cases h with heq | hred
      · exact absurd hz (by rw [heq]; exact hfits)
      · exact hred
    -- the size is within the least cap, and the caps leave at least that
    have hle : z.quantity ≤ capQuantity settings request context price :=
      hz.le_capQuantity hprice hgrid
    have hpos := hq.trans_le hle
    have hlt := capQuantity_lt hprice hpos hfits
    obtain ⟨z', hz', hge⟩ := cappedSize_leaves hprice hpos hlt.le capQuantity_onGrid
      (capQuantity_fits hprice hpos)
    rw [h, Except.ok.injEq] at hz'
    have heq : z.quantity = capQuantity settings request context price :=
      le_antisymm hle (hz' ▸ hge)
    refine ⟨hfits, ?_, heq ▸ hlt⟩
    rw [← heq, ← hred]

theorem approvedSize_ok (h : approvedSize settings request context price = .ok z) :
    cappedSize settings request context price = .ok z ∧ 0 < z.quantity := by
  rw [approvedSize_eq] at h
  obtain ⟨z', hz', hcheck⟩ := Except.bind_eq_ok.mp h
  obtain ⟨rfl, hq, -⟩ := checkSize_ok hcheck
  exact ⟨hz', hq⟩

/-! ### The evaluation of a size -/

/-- What the caps leave passes the last checks where the cash covers it. -/
theorem approvedSize_of_capped (hq : 0 < z.quantity)
    (hcash : request.side = .buy → request.reduceOnly = false →
      z.quantity * price ≤ context.portfolio.cashBalance)
    (h : cappedSize settings request context price = .ok z) :
    approvedSize settings request context price = .ok z := by
  have hcheck : checkSize request context price z = .ok z := by
    simp only [checkSize, if_neg (not_le.mpr hq)]
    refine if_neg ?_
    rintro ⟨hside, hreduce, hlt⟩
    exact absurd (hcash hside (by simpa using hreduce)) (not_le.mpr hlt)
  rw [approvedSize_eq, h]
  exact hcheck

/-- The size of a SELL: what is requested where it fits the caps, and otherwise the least of
them, if there is anything left of it. -/
theorem approvedSize_sell (hside : request.side = .sell) (hprice : 0 < price)
    (hq : 0 < request.quantity) :
    (FitsCaps settings request context price request.quantity →
      approvedSize settings request context price = .ok ⟨request.quantity, false⟩) ∧
    (¬FitsCaps settings request context price request.quantity →
      0 < capQuantity settings request context price →
      approvedSize settings request context price =
        .ok ⟨capQuantity settings request context price, true⟩) ∧
    (¬FitsCaps settings request context price request.quantity →
      ¬0 < capQuantity settings request context price →
      ∃ answer, approvedSize settings request context price = .error answer) := by
  have hsell : ∀ {x : ℚ}, request.side = .buy → request.reduceOnly = false →
      x * price ≤ context.portfolio.cashBalance := by
    intro x hbuy
    rw [hside] at hbuy
    cases hbuy
  refine ⟨fun hfits => ?_, fun hover hpos => ?_, fun hover hnone => ?_⟩
  · exact approvedSize_of_capped hq hsell (cappedSize_of_fits hprice hq hfits)
  · -- the caps leave at least the least of them, so they leave just that
    obtain ⟨z, hz, hle⟩ := cappedSize_leaves hprice hpos (capQuantity_lt hprice hpos hover).le
      capQuantity_onGrid (capQuantity_fits hprice hpos)
    have hz_pos : 0 < z.quantity := hpos.trans_le hle
    rcases cappedSize_eq hprice hz_pos hz with ⟨hfits, -⟩ | ⟨-, rfl, -⟩
    · exact absurd hfits hover
    · exact approvedSize_of_capped hpos hsell hz
  · cases hsize : approvedSize settings request context price with
    | error answer => exact ⟨answer, rfl⟩
    | ok z =>
      obtain ⟨hcapped, hz_pos⟩ := approvedSize_ok hsize
      rcases cappedSize_eq hprice hz_pos hcapped with ⟨hfits, -⟩ | ⟨-, rfl, -⟩
      · exact absurd hfits hover
      · exact absurd hz_pos hnone

/-- The decision on a request that has passed the gates and whose size is refused. -/
theorem evaluate_of_refused (h : Passed settings state request context now price)
    {answer : RiskEvaluation}
    (hz : approvedSize settings request context price = .error answer) :
    (evaluate settings state request context now).1 = answer := by
  simp only [evaluate, firstRefusal_append.mpr ⟨h.venue, h.values⟩, h.price_eq,
    if_neg (not_le.mpr h.price_pos), h.size, h.account, hz]

theorem accept_decision (z : Sized) :
    (accept z).decision = if z.reduced then .reduced else .approved := by
  unfold accept
  split_ifs <;> rfl

end Risk

end Atlas
