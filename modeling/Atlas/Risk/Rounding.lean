import Atlas.Lib.Arithmetic
import Atlas.Risk.Sizing

/-!
# The approved size in decimals

The sizing of `evaluate` multiplies, divides and adds decimals, and each result is rounded to
28 digits before a cap is rounded down.  So a cap can come out a unit too large, and a quotient
that has more than 28 digits at eight decimals makes `quantize` raise.

Here the sizing is written for any arithmetic.  The size that it approves is admissible with the
caps a little loosened, and no smaller than any size that is admissible with them a little
tightened; in the exact arithmetic, which is that of `approvedSize`, it is the greatest
admissible one.

## Main definitions

* `approvedSizeIn A`, `evaluateIn A` — the sizing and the evaluation in an arithmetic.
* `CapSpec` — what a cap makes of a size.
* `AdmissibleWithin e` — a quantity of eight decimals within the request and the caps, each
  moved by the share `e` of what it is computed from.

## Main results

* `evaluateIn_exact` — in the exact arithmetic the evaluation is `evaluate`.
* `capByRiskIn_spec`, `capByPositionIn_spec`, `capByPortfolioIn_spec` — the three caps, and
  `cappedSizeIn_spec` — the caps as one.
* `approved_quantity_greatest` — **the approved quantity is the greatest admissible one**, but
  for rounding.

## References

`app/risk/engine.py`.
-/

namespace Atlas

open Quantize Arithmetic

namespace Risk

/-! ### Sizing -/

/-- What ends the sizing without a size: an answer, or the exception of `quantize`. -/
inductive SizingStop
  | answer (e : RiskEvaluation)
  | invalidOperation
  deriving DecidableEq, Repr

section Definitions

variable (A : Arithmetic ℚ) (settings : RiskSettings) (state : RiskEngineState)
  (request : OrderRequest) (context : RiskContext) (now : Time)

/-- `quantize(Decimal("0.00000001"), rounding=ROUND_DOWN)`. -/
def quantizeDown8In (x : ℚ) : Except SizingStop ℚ :=
  match A.quantizeDown quantum8 x with
  | some q => .ok q
  | none => .error .invalidOperation

/-- The notional of the open positions. -/
def currentNotionalIn : ℚ :=
  A.sum (context.portfolio.openPositions.map fun p =>
    A.mul p.quantity ((pyOr context.markPrice (some p.currentPrice)).getD 0))

/-- Reduce to the notional `limit`, rounded down. -/
def reduceToIn (limit price : ℚ) (code : RiskReasonCode) (message : String) :
    Except SizingStop Sized := do
  let reduced ← quantizeDown8In A (A.div limit price)
  if reduced ≤ 0 then .error (.answer (reject code message)) else .ok ⟨reduced, true⟩

/-- The loss of one unit at the stop, where the request has a stop. -/
def perUnitRiskIn (price : ℚ) : Option ℚ :=
  match request.stopLoss with
  | some stop => if 0 < stop then some |A.sub price stop| else none
  | none => none

/-- The risk budget of a trade: stop based, else a fixed fraction as notional. -/
def capByRiskIn (price : ℚ) (z : Sized) : Except SizingStop Sized :=
  let riskBudget := A.mul (sizingEquity context.portfolio) settings.maxRiskPerTrade
  match perUnitRiskIn A request price with
  | some unit =>
      if 0 < unit then do
        let maxQty ← quantizeDown8In A (A.div riskBudget unit)
        if maxQty ≤ 0 then .error (.answer (reject .maxRiskPerTrade "Risk per trade too high"))
        else if maxQty < z.quantity then .ok ⟨maxQty, true⟩ else .ok z
      else .ok z
  | none => do
      let maxQty ← quantizeDown8In A (A.div riskBudget price)
      if maxQty < z.quantity then .ok ⟨maxQty, true⟩ else .ok z

/-- The cap on the notional of the order. -/
def capByPositionIn (price : ℚ) (z : Sized) : Except SizingStop Sized :=
  let maxPosNotional := A.mul (sizingEquity context.portfolio) settings.maxPositionExposure
  if maxPosNotional < A.mul z.quantity price then
    reduceToIn A maxPosNotional price .maxPositionExposure "Position exposure too high"
  else .ok z

/-- The cap on the notional of the order and of the open positions. -/
def capByPortfolioIn (price : ℚ) (z : Sized) : Except SizingStop Sized :=
  let maxPortNotional := A.mul (sizingEquity context.portfolio) settings.maxPortfolioExposure
  if maxPortNotional < A.add (currentNotionalIn A context) (A.mul z.quantity price) then
    let room := A.sub maxPortNotional (currentNotionalIn A context)
    if room ≤ 0 then
      .error (.answer (reject .maxPortfolioExposure "Portfolio exposure too high"))
    else reduceToIn A room price .maxPortfolioExposure "Portfolio exposure too high"
  else .ok z

/-- The last checks on the approved size. -/
def checkSizeIn (price : ℚ) (z : Sized) : Except SizingStop Sized :=
  if z.quantity ≤ 0 then .error (.answer (reject .invalidQuantity "Approved qty is zero"))
  else if request.side = .buy ∧ ¬request.reduceOnly ∧
      context.portfolio.cashBalance < A.mul z.quantity price then
    .error (.answer
      (reject .insufficientBalance "Insufficient cash for approved order notional"))
  else .ok z

/-- The size after the three caps, before the last checks. -/
def cappedSizeIn (price : ℚ) : Except SizingStop Sized := do
  let z ← capByRiskIn A settings request context price ⟨request.quantity, false⟩
  let z ← capByPositionIn A settings context price z
  capByPortfolioIn A settings context price z

/-- The approved size. -/
def approvedSizeIn (price : ℚ) : Except SizingStop Sized := do
  let z ← cappedSizeIn A settings request context price
  checkSizeIn A request context price z

/-- `evaluate`, with the exception of `quantize` as no answer. -/
def evaluateIn : Option RiskEvaluation × RiskEngineState :=
  match firstRefusal (venueGates settings state request context ++
      requestGates settings state request context now) with
  | some answer => (some answer, state)
  | none =>
      match referencePrice request context with
      | none => (some (reject .invalidPrice "No valid price"), state)
      | some price =>
          if price ≤ 0 then (some (reject .invalidPrice "No valid price"), state)
          else
            match firstRefusal (sizeGates settings request context price) with
            | some answer => (some answer, state)
            | none =>
                let state := trimmed state now
                match firstRefusal (accountGates settings state request context now) with
                | some answer => (some answer, state)
                | none =>
                    match approvedSizeIn A settings request context price with
                    | .error (.answer answer) => (some answer, state)
                    | .error .invalidOperation => (none, state)
                    | .ok z => (some (accept z), recorded state request now)

end Definitions

variable {A : Arithmetic ℚ} {settings : RiskSettings} {state : RiskEngineState}
  {request : OrderRequest} {context : RiskContext} {now : Time} {price quantity e : ℚ}
  {z z' : Sized}

/-! ### The exact arithmetic -/

theorem quantizeDown8In_exact (x : ℚ) : quantizeDown8In .exact x = .ok (quantizeDown8 x) := by
  rw [quantizeDown8In, exact_quantizeDown]
  rfl

theorem currentNotionalIn_exact : currentNotionalIn .exact context = currentNotional context := by
  rw [currentNotionalIn, exact_sum]
  rfl

theorem reduceToIn_exact (limit price : ℚ) (code : RiskReasonCode) (message : String) :
    reduceToIn .exact limit price code message =
      (reduceTo limit price code message).mapError .answer := by
  simp only [reduceToIn, exact_div, quantizeDown8In_exact, reduceTo, bind, Except.bind]
  split_ifs <;> rfl

/-- **In the exact arithmetic** the sizing is that of `evaluate`. -/
theorem approvedSizeIn_exact :
    approvedSizeIn .exact settings request context price =
      (approvedSize settings request context price).mapError .answer := by
  have hrisk : ∀ z, capByRiskIn .exact settings request context price z =
      (capByRisk settings request context price z).mapError .answer := by
    intro z
    have hunit : perUnitRiskIn .exact request price = perUnitRisk request price := rfl
    simp only [capByRiskIn, capByRisk, hunit, exact_mul, exact_div, quantizeDown8In_exact, bind,
      Except.bind]
    cases perUnitRisk request price with
    | none =>
      dsimp only
      split_ifs <;> rfl
    | some unit =>
      dsimp only
      split_ifs <;> rfl
  have hposition : ∀ z, capByPositionIn .exact settings context price z =
      (capByPosition settings context price z).mapError .answer := by
    intro z
    simp only [capByPositionIn, capByPosition, exact_mul, reduceToIn_exact]
    split_ifs <;> rfl
  have hportfolio : ∀ z, capByPortfolioIn .exact settings context price z =
      (capByPortfolio settings context price z).mapError .answer := by
    intro z
    simp only [capByPortfolioIn, capByPortfolio, exact_mul, exact_add, exact_sub,
      currentNotionalIn_exact, reduceToIn_exact]
    split_ifs <;> rfl
  have hcheck : ∀ z, checkSizeIn .exact request context price z =
      (checkSize request context price z).mapError .answer := by
    intro z
    rw [checkSizeIn, checkSize]
    by_cases hq : z.quantity ≤ 0
    · rw [if_pos hq, if_pos hq]
      rfl
    · by_cases hcash : request.side = .buy ∧ ¬request.reduceOnly ∧
          context.portfolio.cashBalance < z.quantity * price
      · rw [if_neg hq, if_neg hq, if_pos hcash]
        exact if_pos hcash
      · rw [if_neg hq, if_neg hq, if_neg hcash]
        exact if_neg hcash
  have hbind : ∀ {α β : Type} (x : Except RiskEvaluation α) (f : α → Except RiskEvaluation β),
      (x.mapError SizingStop.answer >>= fun a => (f a).mapError .answer) =
        (x >>= f).mapError .answer := by
    intro α β x f
    cases x <;> rfl
  simp only [approvedSizeIn, cappedSizeIn, approvedSize, hrisk, hposition, hportfolio, hcheck,
    hbind, bind_assoc]

/-- **In the exact arithmetic** the evaluation is `evaluate`. -/
theorem evaluateIn_exact :
    evaluateIn .exact settings state request context now =
      (some (evaluate settings state request context now).1,
        (evaluate settings state request context now).2) := by
  simp only [evaluateIn, evaluate, approvedSizeIn_exact]
  cases firstRefusal (venueGates settings state request context ++
      requestGates settings state request context now) with
  | some answer => rfl
  | none =>
    dsimp only
    cases referencePrice request context with
    | none => rfl
    | some price =>
      dsimp only
      by_cases hprice : price ≤ 0
      · simp only [if_pos hprice]
      · simp only [if_neg hprice]
        cases firstRefusal (sizeGates settings request context price) with
        | some answer => rfl
        | none =>
          dsimp only
          cases firstRefusal (accountGates settings (trimmed state now) request context now) with
          | some answer => rfl
          | none =>
            dsimp only
            cases approvedSize settings request context price <;> rfl

/-! ### What a cap makes of a size -/

/-- What a cap makes of a size of eight decimals: what it leaves is within `loose` and no larger
but for `m` roundings, it leaves at least what is within `tight`, unless it raises, and it
reduces no size that is. -/
structure CapSpec (A : Arithmetic ℚ) (m : ℕ) (loose tight : ℚ → Prop) (z : Sized)
    (r : Except SizingStop Sized) : Prop where
  grid : ∀ z', r = .ok z' → OnGrid quantum8 z'.quantity
  kept : ∀ z', r = .ok z' → 0 < z'.quantity →
    0 < z.quantity ∧ z'.quantity ≤ (1 + A.drift m) * z.quantity ∧ loose z'.quantity ∧
      (z' = z ∨ z'.reduced = true ∧ ¬tight z.quantity)
  leaves : ∀ q, 0 < q → OnGrid quantum8 q → q ≤ z.quantity → tight q →
    (∃ z', r = .ok z' ∧ q ≤ z'.quantity) ∨ r = .error .invalidOperation

/-- One cap after another.  What the first cap leaves is `loose` with it, and what the second
makes of that still is. -/
theorem CapSpec.bind {m m' : ℕ} {first loose tight loose' tight' : ℚ → Prop}
    {r : Except SizingStop Sized} {f : Sized → Except SizingStop Sized}
    (h : CapSpec A m first tight z r)
    (hf : ∀ z', OnGrid quantum8 z'.quantity → CapSpec A m' loose' tight' z' (f z'))
    (hfirst : ∀ q q', 0 < q → q' ≤ (1 + A.drift m') * q → first q → loose q') :
    CapSpec A (m + m') (fun q => loose q ∧ loose' q) (fun q => tight q ∧ tight' q) z
      (r >>= f) where
  grid := by
    intro z₂ h₂
    obtain ⟨z₁, h₁, h₂⟩ := Except.bind_eq_ok.mp h₂
    exact (hf z₁ (h.grid z₁ h₁)).grid z₂ h₂
  kept := by
    intro z₂ h₂ hpos₂
    obtain ⟨z₁, h₁, h₂⟩ := Except.bind_eq_ok.mp h₂
    obtain ⟨hpos₁, hle₂, hloose₂, hsame₂⟩ := (hf z₁ (h.grid z₁ h₁)).kept z₂ h₂ hpos₂
    obtain ⟨hpos, hle₁, hloose₁, hsame₁⟩ := h.kept z₁ h₁ hpos₁
    have hle : z₂.quantity ≤ (1 + A.drift (m + m')) * z.quantity := by
      calc z₂.quantity ≤ (1 + A.drift m') * z₁.quantity := hle₂
        _ ≤ (1 + A.drift m') * ((1 + A.drift m) * z.quantity) :=
          mul_le_mul_of_nonneg_left hle₁ (add_nonneg zero_le_one (A.drift_nonneg m'))
        _ = (1 + A.drift (m + m')) * z.quantity := by rw [drift_add]; ring
    refine ⟨hpos, hle, ⟨hfirst _ _ hpos₁ hle₂ hloose₁, hloose₂⟩, ?_⟩
    rcases hsame₁ with rfl | ⟨hred₁, hover₁⟩
    · exact hsame₂.imp_right fun h => ⟨h.1, fun htight => h.2 htight.2⟩
    · refine .inr ⟨?_, fun htight => hover₁ htight.1⟩
      rcases hsame₂ with rfl | ⟨hred₂, -⟩
      · exact hred₁
      · exact hred₂
  leaves := by
    intro q hq hqgrid hle htight
    rcases h.leaves q hq hqgrid hle htight.1 with ⟨z₁, h₁, hle₁⟩ | hraised
    · rcases (hf z₁ (h.grid z₁ h₁)).leaves q hq hqgrid hle₁ htight.2 with ⟨z₂, h₂, hle₂⟩ | hraised
      · exact .inl ⟨z₂, Except.bind_eq_ok.mpr ⟨z₁, h₁, h₂⟩, hle₂⟩
      · exact .inr (Except.bind_eq_error.mpr (.inr ⟨z₁, h₁, hraised⟩))
    · exact .inr (Except.bind_eq_error.mpr (.inl hraised))

/-- A size that is left as it is. -/
theorem capSpec_kept {loose tight : ℚ → Prop} {m : ℕ} (hgrid : OnGrid quantum8 z.quantity)
    (hloose : loose z.quantity) : CapSpec A m loose tight z (.ok z) where
  grid := by
    intro z' hz'
    rw [Except.ok.injEq] at hz'
    exact hz' ▸ hgrid
  kept := by
    intro z' hz' hpos
    rw [Except.ok.injEq] at hz'
    subst hz'
    have hdrift := A.drift_nonneg m
    exact ⟨hpos, by nlinarith, hloose, .inl rfl⟩
  leaves := fun _ _ _ hle _ => .inl ⟨z, rfl, hle⟩

/-! ### Caps in units -/

theorem quantizeDown8In_cases (x : ℚ) :
    quantizeDown8In A x = .ok (quantizeDown8 x) ∧ A.Holds (roundDown (x / quantum8)) ∨
      quantizeDown8In A x = .error .invalidOperation ∧ ¬A.Holds (roundDown (x / quantum8)) := by
  rw [quantizeDown8In, Arithmetic.quantizeDown]
  split_ifs with h
  · exact .inl ⟨rfl, h⟩
  · exact .inr ⟨rfl, h⟩

/-- A cap in units, from a limit on the notional that has been computed: it is within the limit,
and whatever is within the limit is within it, but for rounding. -/
theorem units_spec {n : ℕ} {M L x unit : ℚ} (hunit : 0 < unit)
    (hx : A.Approx n (M / unit) x (L / unit)) :
    (0 < quantizeDown8 x → quantizeDown8 x * unit ≤ L + A.drift n * M) ∧
      ∀ q, OnGrid quantum8 q → q * unit ≤ L - A.drift n * M → q ≤ quantizeDown8 x := by
  have hnear := abs_le.mp hx.near
  constructor
  · intro hpos
    have hx : 0 ≤ x := by
      by_contra hneg
      exact absurd hpos (not_lt.mpr (quantizeDown8_nonpos (not_le.mp hneg).le))
    calc quantizeDown8 x * unit ≤ (L / unit + A.drift n * (M / unit)) * unit :=
          mul_le_mul_of_nonneg_right ((quantizeDown8_le hx).trans (by linarith)) hunit.le
      _ = L + A.drift n * M := by field_simp
  · intro q hgrid hq
    refine hgrid.le_quantizeDown quantum8_pos ?_
    calc q ≤ (L - A.drift n * M) / unit := (le_div_iff₀ hunit).mpr hq
      _ = L / unit - A.drift n * (M / unit) := by ring
      _ ≤ x := by linarith

/-! ### The three caps -/

/-- The loss of a quantity: that at a positive stop, and without one all of its notional. -/
def lossOf (request : OrderRequest) (price quantity : ℚ) : ℚ :=
  quantity * (perUnitRisk request price).getD price

/-- The notional of the open positions, whatever their sides. -/
def grossNotional (context : RiskContext) : ℚ :=
  (context.portfolio.openPositions.map fun p =>
    |p.quantity * (pyOr context.markPrice (some p.currentPrice)).getD 0|).sum

/-- The loss is within the risk budget, moved by a share of it. -/
def WithinRisk (settings : RiskSettings) (request : OrderRequest) (context : RiskContext)
    (price e quantity : ℚ) : Prop :=
  let budget := settings.maxRiskPerTrade * context.portfolio.equity
  lossOf request price quantity ≤ budget + e * |budget|

/-- The notional is within the cap on the position, moved by a share of it. -/
def WithinPosition (settings : RiskSettings) (context : RiskContext) (price e quantity : ℚ) :
    Prop :=
  let cap := settings.maxPositionExposure * context.portfolio.equity
  quantity * price ≤ cap + e * |cap|

/-- The notional fits in the room of the portfolio, moved by a share of what it is computed
from. -/
def WithinPortfolio (settings : RiskSettings) (context : RiskContext) (price e quantity : ℚ) :
    Prop :=
  let cap := settings.maxPortfolioExposure * context.portfolio.equity
  quantity * price ≤ cap - currentNotional context + e * (|cap| + grossNotional context)

instance : Decidable (WithinRisk settings request context price e quantity) :=
  inferInstanceAs (Decidable (_ ≤ _))

instance : Decidable (WithinPosition settings context price e quantity) :=
  inferInstanceAs (Decidable (_ ≤ _))

instance : Decidable (WithinPortfolio settings context price e quantity) :=
  inferInstanceAs (Decidable (_ ≤ _))

variable {d : ℚ} {n : ℕ}

theorem perUnitRiskIn_eq :
    perUnitRiskIn A request price = (perUnitRisk request price).map A.round := by
  simp only [perUnitRiskIn, perUnitRisk]
  cases request.stopLoss with
  | none => rfl
  | some stop =>
    dsimp only
    split_ifs
    · rw [Arithmetic.sub, A.abs_round]
      rfl
    · rfl

/-- A cap that only rounds a quotient, and leaves a size that is not larger. -/
theorem units_capSpec {M L x unit : ℚ} (refuse : Bool) (answer : RiskEvaluation)
    (hgrid : OnGrid quantum8 z.quantity) (hunit : 0 < unit) (hM : 0 ≤ M)
    (hx : A.Approx n (M / unit) x (L / unit)) (hd : A.drift n ≤ d) :
    CapSpec A 0 (fun q => q * unit ≤ L + d * M) (fun q => q * unit ≤ L - d * M) z (do
      let maxQty ← quantizeDown8In A x
      if refuse ∧ maxQty ≤ 0 then .error (.answer answer)
      else if maxQty < z.quantity then .ok ⟨maxQty, true⟩ else .ok z) := by
  obtain ⟨hupper, hlower⟩ := units_spec hunit hx
  have hslack : A.drift n * M ≤ d * M := mul_le_mul_of_nonneg_right hd hM
  rcases quantizeDown8In_cases (A := A) x with ⟨hround, -⟩ | ⟨hraised, -⟩
  · rw [hround]
    simp only [bind, Except.bind]
    refine ⟨fun z' hz' => ?_, fun z' hz' hpos => ?_, ?_⟩
    · split_ifs at hz' <;> rw [Except.ok.injEq] at hz' <;> subst hz'
      · exact quantizeDown_onGrid _ _
      · exact hgrid
    · split_ifs at hz' with hrefused hlt <;> rw [Except.ok.injEq] at hz' <;> subst hz'
      · have hkept := hupper hpos
        refine ⟨hpos.trans hlt, by simpa using hlt.le, by linarith, .inr ⟨rfl, ?_⟩⟩
        intro htight
        exact absurd (hlower _ hgrid (by linarith)) (not_le.mpr hlt)
      · have hle : z.quantity ≤ quantizeDown8 x := not_lt.mp hlt
        have hkept := hupper (hpos.trans_le hle)
        have hscaled := mul_le_mul_of_nonneg_right hle hunit.le
        exact ⟨hpos, by simp, by linarith, .inl rfl⟩
    · intro q hq hqgrid hle htight
      have hcap : q ≤ quantizeDown8 x := hlower q hqgrid (by linarith)
      rw [if_neg fun h => absurd (hq.trans_le hcap) (not_lt.mpr h.2)]
      split_ifs
      · exact .inl ⟨_, rfl, hcap⟩
      · exact .inl ⟨_, rfl, hle⟩
  · rw [hraised]
    exact ⟨fun z' hz' => (by cases hz'), fun z' hz' _ => (by cases hz'), fun q _ _ _ _ => .inr rfl⟩

/-- **The cap by the risk budget.**  A stop at the price leaves no loss, which is within any budget
that is not negative. -/
theorem capByRiskIn_spec (hgrid : OnGrid quantum8 z.quantity) (hprice : 0 < price)
    (hequity : 0 < context.portfolio.equity)
    (hrisk : 0 < (perUnitRisk request price).getD price ∨ 0 ≤ settings.maxRiskPerTrade)
    (hd : A.drift 4 ≤ d) :
    CapSpec A 0 (WithinRisk settings request context price d)
      (WithinRisk settings request context price (-d)) z
      (capByRiskIn A settings request context price z) := by
  have hsizing : sizingEquity context.portfolio = context.portfolio.equity := if_pos hequity
  have hbudget : A.Approx 1 |settings.maxRiskPerTrade * context.portfolio.equity|
      (A.mul (sizingEquity context.portfolio) settings.maxRiskPerTrade)
      (settings.maxRiskPerTrade * context.portfolio.equity) := by
    rw [hsizing, mul_comm settings.maxRiskPerTrade]
    exact A.approx_round _
  have hwithin : ∀ d unit, (perUnitRisk request price).getD price = unit →
      WithinRisk settings request context price d = fun q =>
        q * unit ≤ settings.maxRiskPerTrade * context.portfolio.equity +
          d * |settings.maxRiskPerTrade * context.portfolio.equity| := by
    intro d unit hunit
    funext q
    rw [WithinRisk, lossOf, hunit]
  simp only [capByRiskIn, perUnitRiskIn_eq]
  cases hunit : perUnitRisk request price with
  | none =>
    have hx := (hbudget.div_const price).round
    rw [abs_of_pos hprice] at hx
    have hspec := units_capSpec false (reject .ok "") hgrid hprice (abs_nonneg _) hx
      ((A.drift_mono (by norm_num)).trans hd)
    rw [hwithin d price (by rw [hunit]; rfl), hwithin (-d) price (by rw [hunit]; rfl)]
    simp only [Bool.false_eq_true, false_and, if_false] at hspec
    simp only [neg_mul, ← sub_eq_add_neg]
    exact hspec
  | some unit =>
    simp only [Option.map_some, A.round_pos_iff]
    by_cases hpos : 0 < unit
    · have hspec := units_capSpec true (reject .maxRiskPerTrade "Risk per trade too high") hgrid
        hpos (abs_nonneg _) (hbudget.div_round hpos).round hd
      rw [hwithin d unit (by rw [hunit]; rfl), hwithin (-d) unit (by rw [hunit]; rfl), if_pos hpos]
      simp only [true_and] at hspec
      simp only [neg_mul, ← sub_eq_add_neg]
      exact hspec
    · -- a stop at the price leaves no loss, and no limit
      have hzero : unit = 0 := by
        refine le_antisymm (not_lt.mp hpos) ?_
        simp only [perUnitRisk] at hunit
        split at hunit
        · split_ifs at hunit
          rw [Option.some.injEq] at hunit
          exact hunit ▸ abs_nonneg _
        · cases hunit
      rw [if_neg hpos]
      have hrisk : 0 ≤ settings.maxRiskPerTrade := by
        refine hrisk.resolve_left ?_
        rwa [hunit, Option.getD_some]
      have hnone : ∀ q, WithinRisk settings request context price d q := by
        intro q
        have hdrift := (A.drift_nonneg 4).trans hd
        simp only [WithinRisk, lossOf, hunit, Option.getD_some, hzero, mul_zero]
        positivity
      exact capSpec_kept hgrid (hnone _)

/-- A reduction to a limit on the notional that has been computed. -/
theorem reduceToIn_spec {M L limit : ℚ} (code : RiskReasonCode) (message : String)
    (hprice : 0 < price) (hlimit : A.Approx n M limit L) (hd : A.drift (n + 1) ≤ d) :
    (∀ z', reduceToIn A limit price code message = .ok z' →
      0 < limit ∧ z'.reduced = true ∧ 0 < z'.quantity ∧ OnGrid quantum8 z'.quantity ∧
        z'.quantity * price ≤ L + d * M ∧
        ∀ q, 0 < q → limit ≤ A.round (q * price) → z'.quantity ≤ (1 + A.drift 2) * q) ∧
    ∀ q, 0 < q → OnGrid quantum8 q → q * price ≤ L - d * M →
      (∃ z', reduceToIn A limit price code message = .ok z' ∧ q ≤ z'.quantity) ∨
        reduceToIn A limit price code message = .error .invalidOperation := by
  have hx := (hlimit.div_const price).round
  rw [abs_of_pos hprice] at hx
  obtain ⟨hupper, hlower⟩ := units_spec hprice hx
  have hslack : A.drift (n + 1) * M ≤ d * M := mul_le_mul_of_nonneg_right hd hlimit.nonneg
  rw [reduceToIn, Arithmetic.div]
  rcases quantizeDown8In_cases (A := A) (A.round (limit / price)) with ⟨hround, -⟩ | ⟨hraised, -⟩
  · rw [hround]
    simp only [bind, Except.bind]
    constructor
    · intro z' hz'
      split_ifs at hz' with hnone
      rw [Except.ok.injEq] at hz'
      subst hz'
      rw [not_le] at hnone
      have hx : 0 ≤ A.round (limit / price) := by
        by_contra hneg
        exact absurd hnone (not_lt.mpr (quantizeDown8_nonpos (not_le.mp hneg).le))
      refine ⟨?_, rfl, hnone, quantizeDown_onGrid _ _, ?_, fun q hq hle => ?_⟩
      · by_contra hneg
        have hx : A.round (limit / price) ≤ 0 :=
          A.round_nonpos (div_nonpos_of_nonpos_of_nonneg (not_lt.mp hneg) hprice.le)
        exact absurd hnone (not_lt.mpr (quantizeDown8_nonpos hx))
      · have hkept := hupper hnone
        linarith
      · have hquotient := ((A.approx_round (q * price)).div_const price).round
        rw [abs_mul, abs_of_pos hprice, abs_of_pos hq, mul_div_cancel_right₀ q hprice.ne']
          at hquotient
        calc quantizeDown8 (A.round (limit / price)) ≤ A.round (limit / price) :=
              quantizeDown8_le hx
          _ ≤ A.round (A.round (q * price) / price) :=
              A.round_mono (div_le_div_of_nonneg_right hle hprice.le)
          _ ≤ (1 + A.drift 2) * q := (le_abs_self _).trans hquotient.abs_computed_le
    · intro q hq hqgrid htight
      have hcap := hlower q hqgrid (by linarith)
      rw [if_neg (not_le.mpr (hq.trans_le hcap))]
      exact .inl ⟨_, rfl, hcap⟩
  · rw [hraised]
    exact ⟨fun z' hz' => (by cases hz'), fun q _ _ _ => .inr rfl⟩

/-- What is over a rounded bound after rounding is over it before. -/
theorem lt_of_round_lt_round {x y : ℚ} (h : A.round x < A.round y) : x < y := by
  by_contra hle
  exact absurd h (not_lt.mpr (A.round_mono (not_lt.mp hle)))

/-- A size whose notional is over a computed limit is reduced to it. -/
theorem reduceToIn_capSpec {M L limit : ℚ} (code : RiskReasonCode) (message : String)
    (hprice : 0 < price) (hlimit : A.Approx n M limit L) (hd : A.drift (n + 1) ≤ d)
    (hle : limit ≤ A.round (z.quantity * price)) (hover : L - d * M < z.quantity * price) :
    CapSpec A 2 (fun q => q * price ≤ L + d * M) (fun q => q * price ≤ L - d * M) z
      (reduceToIn A limit price code message) where
  grid := fun z' hz' => ((reduceToIn_spec code message hprice hlimit hd).1 z' hz').2.2.2.1
  kept := by
    intro z' hz' _
    obtain ⟨hpos, hreduced, -, -, hin, hleast⟩ :=
      (reduceToIn_spec code message hprice hlimit hd).1 z' hz'
    have hq : 0 < z.quantity :=
      (mul_pos_iff_of_pos_right hprice).mp (A.round_pos_iff.mp (hpos.trans_le hle))
    exact ⟨hq, hleast _ hq hle, hin, .inr ⟨hreduced, not_le.mpr hover⟩⟩
  leaves := fun q hq hgrid _ htight =>
    (reduceToIn_spec code message hprice hlimit hd).2 q hq hgrid htight

/-- **The cap on the notional of the order.** -/
theorem capByPositionIn_spec (hgrid : OnGrid quantum8 z.quantity) (hprice : 0 < price)
    (hequity : 0 < context.portfolio.equity) (hd : A.drift 3 ≤ d) :
    CapSpec A 2 (WithinPosition settings context price d)
      (WithinPosition settings context price (-d)) z
      (capByPositionIn A settings context price z) := by
  have hsizing : sizingEquity context.portfolio = context.portfolio.equity := if_pos hequity
  have hcap : A.Approx 1 |settings.maxPositionExposure * context.portfolio.equity|
      (A.mul (sizingEquity context.portfolio) settings.maxPositionExposure)
      (settings.maxPositionExposure * context.portfolio.equity) := by
    rw [hsizing, mul_comm settings.maxPositionExposure]
    exact A.approx_round _
  have hslack := mul_le_mul_of_nonneg_right hd hcap.nonneg
  have htight : WithinPosition settings context price (-d) = fun q =>
      q * price ≤ settings.maxPositionExposure * context.portfolio.equity -
        d * |settings.maxPositionExposure * context.portfolio.equity| := by
    funext q
    rw [WithinPosition, neg_mul, sub_eq_add_neg]
  simp only [htight, capByPositionIn]
  by_cases hover : A.mul (sizingEquity context.portfolio) settings.maxPositionExposure <
      A.mul z.quantity price
  · have hlt := hcap.lt_of_lt_round hover
    rw [if_pos hover]
    exact reduceToIn_capSpec .maxPositionExposure "Position exposure too high" hprice hcap
      ((A.drift_mono (by norm_num)).trans hd) hover.le (by linarith)
  · have hle := hcap.le_of_round_le (not_lt.mp hover)
    rw [if_neg hover]
    exact capSpec_kept hgrid (hle.trans (by linarith))

/-- The computed notional of the open positions. -/
theorem currentNotionalIn_approx :
    A.Approx (1 + context.portfolio.openPositions.length) (grossNotional context)
      (currentNotionalIn A context) (currentNotional context) :=
  Approx.sum fun _ _ => A.approx_round _

/-- What is added to a computed total and stays within a computed cap is within the room, but
for the roundings of both. -/
theorem le_room_of_add_le {cap cap' total total' x M N : ℚ} {k : ℕ} (hcap : A.Approx 1 M cap' cap)
    (htotal : A.Approx (1 + k) N total' total) (hle : A.add total' (A.round x) ≤ cap') :
    x ≤ cap - total + A.drift (k + 5) * (M + N) := by
  have hsum := hcap.le_of_round_le hle
  have hnear := (abs_le.mp htotal.near).1
  have hM : A.drift (1 + 2) * M ≤ A.drift (k + 3) * M :=
    mul_le_mul_of_nonneg_right (A.drift_mono (by omega)) hcap.nonneg
  have hN : A.drift (1 + k) * N ≤ A.drift (k + 3) * N :=
    mul_le_mul_of_nonneg_right (A.drift_mono (by omega)) htotal.nonneg
  -- the room with the roundings so far, before that of `x` itself
  have hroom : A.Approx (k + 3) (M + N) (cap - total + A.drift (k + 3) * (M + N)) (cap - total) := by
    refine ⟨(abs_sub ..).trans (add_le_add hcap.size htotal.size), ?_⟩
    rw [add_sub_cancel_left,
      abs_of_nonneg (mul_nonneg (A.drift_nonneg _) (add_nonneg hcap.nonneg htotal.nonneg))]
  exact hroom.le_of_round_le (by linarith)

/-- **The cap on the notional of the order and of the open positions.** -/
theorem capByPortfolioIn_spec (hgrid : OnGrid quantum8 z.quantity) (hprice : 0 < price)
    (hequity : 0 < context.portfolio.equity)
    (hd : A.drift (context.portfolio.openPositions.length + 5) ≤ d) :
    CapSpec A 2 (WithinPortfolio settings context price d)
      (WithinPortfolio settings context price (-d)) z
      (capByPortfolioIn A settings context price z) := by
  set positions := context.portfolio.openPositions.length with hpositions
  set cap := settings.maxPortfolioExposure * context.portfolio.equity with hcap_eq
  set limit := A.mul (sizingEquity context.portfolio) settings.maxPortfolioExposure with hlimit
  set current := currentNotionalIn A context with hcurrent
  have hsizing : sizingEquity context.portfolio = context.portfolio.equity := if_pos hequity
  have hcap : A.Approx 1 |cap| limit cap := by
    rw [hlimit, hcap_eq, hsizing, mul_comm settings.maxPortfolioExposure]
    exact A.approx_round _
  have hroom : A.Approx (1 + positions) (|cap| + grossNotional context) (limit - current)
      (cap - currentNotional context) :=
    (hcap.mono (by omega) le_rfl).sub currentNotionalIn_approx
  have hslack : ∀ {k}, k ≤ positions + 5 →
      A.drift k * (|cap| + grossNotional context) ≤ d * (|cap| + grossNotional context) :=
    fun hk => mul_le_mul_of_nonneg_right ((A.drift_mono hk).trans hd) hroom.nonneg
  have htight : WithinPortfolio settings context price (-d) = fun q =>
      q * price ≤ cap - currentNotional context - d * (|cap| + grossNotional context) := by
    funext q
    rw [WithinPortfolio, neg_mul, sub_eq_add_neg (cap - _)]
  simp only [htight, capByPortfolioIn, ← hlimit, ← hcurrent]
  by_cases hover : limit < A.add current (A.mul z.quantity price)
  · -- the order takes more than the room, and so it does before it is rounded
    have hgap : limit - current < A.mul z.quantity price := by
      have hround : A.round limit = limit := A.round_idem _
      have hlt := lt_of_round_lt_round (A := A) (hround.trans_lt hover)
      linarith
    have hle : A.sub limit current ≤ A.round (z.quantity * price) :=
      (A.round_mono hgap.le).trans_eq (A.round_idem _)
    have hlt := hroom.lt_of_lt_round hgap
    have hthree := hslack (k := 1 + positions + 2) (by omega)
    rw [if_pos hover]
    by_cases hnone : A.sub limit current ≤ 0
    · rw [if_pos hnone]
      refine ⟨fun z' hz' => (by cases hz'), fun z' hz' _ => (by cases hz'), fun q hq _ _ hin => ?_⟩
      -- nothing fits where there is no room
      have hgone : limit - current ≤ 0 := by
        by_contra hpos
        exact absurd (A.round_pos (not_le.mp hpos)) (not_lt.mpr hnone)
      have hnear := (abs_le.mp hroom.near).1
      have hone := hslack (k := 1 + positions) (by omega)
      have hnotional := mul_pos hq hprice
      linarith
    · rw [if_neg hnone]
      exact reduceToIn_capSpec .maxPortfolioExposure "Portfolio exposure too high" hprice
        hroom.round ((A.drift_mono (by omega)).trans hd) hle (by linarith)
  · have hle := le_room_of_add_le hcap currentNotionalIn_approx (not_lt.mp hover)
    have hfive := hslack (k := positions + 5) le_rfl
    rw [if_neg hover]
    refine capSpec_kept hgrid ?_
    show z.quantity * price ≤ cap - currentNotional context + d * (|cap| + grossNotional context)
    linarith

/-! ### The three caps as one -/

/-- A quantity is within the three caps, each moved by a share of what it is computed from. -/
structure FitsWithin (settings : RiskSettings) (request : OrderRequest) (context : RiskContext)
    (price e quantity : ℚ) : Prop where
  risk : WithinRisk settings request context price e quantity
  position : WithinPosition settings context price e quantity
  portfolio : WithinPortfolio settings context price e quantity

/-- A bound moved by a larger share is a larger bound. -/
theorem bound_mono {L M d e : ℚ} (hM : 0 ≤ M) (h : d ≤ e) : L + d * M ≤ L + e * M :=
  add_le_add_right (mul_le_mul_of_nonneg_right h hM) L

/-- What grows by a share stays within a bound that is moved by both shares. -/
theorem bound_grow {L x x' : ℚ} {m n : ℕ} (hx : x ≤ L + A.drift m * |L|)
    (hx' : x' ≤ (1 + A.drift n) * x) : x' ≤ L + A.drift (m + n) * |L| := by
  have hm := A.drift_nonneg m
  have hn := A.drift_nonneg n
  calc x' ≤ (1 + A.drift n) * (L + A.drift m * |L|) :=
        hx'.trans (mul_le_mul_of_nonneg_left hx (by positivity))
    _ = L + A.drift n * L + A.drift m * (1 + A.drift n) * |L| := by ring
    _ ≤ L + A.drift n * |L| + A.drift m * (1 + A.drift n) * |L| := by
      have hscaled := mul_le_mul_of_nonneg_left (le_abs_self L) hn
      linarith
    _ = L + A.drift (m + n) * |L| := by rw [drift_add]; ring

theorem CapSpec.imp {m : ℕ} {loose tight loose' tight' : ℚ → Prop}
    {r : Except SizingStop Sized} (h : CapSpec A m loose tight z r)
    (hloose : ∀ q, loose q → loose' q) (htight : ∀ q, tight' q → tight q) :
    CapSpec A m loose' tight' z r where
  grid := h.grid
  kept := by
    intro z' hz' hpos
    obtain ⟨hq, hle, hin, hsame⟩ := h.kept z' hz' hpos
    exact ⟨hq, hle, hloose _ hin, hsame.imp_right fun h => ⟨h.1, fun ht => h.2 (htight _ ht)⟩⟩
  leaves := fun q hq hgrid hle ht => h.leaves q hq hgrid hle (htight q ht)

/-- The roundings of the sizing. -/
def roundings (context : RiskContext) : ℕ := context.portfolio.openPositions.length + 8

theorem lossOf_grow {q q' k : ℚ} (hprice : 0 < price) (h : q' ≤ k * q) :
    lossOf request price q' ≤ k * lossOf request price q := by
  have hunit : 0 ≤ (perUnitRisk request price).getD price := by
    simp only [perUnitRisk]
    split
    · split_ifs
      · exact abs_nonneg _
      · exact hprice.le
    · exact hprice.le
  rw [lossOf, lossOf, ← mul_assoc]
  exact mul_le_mul_of_nonneg_right h hunit

/-- **The caps on a requested size.** -/
theorem cappedSizeIn_spec (hgrid : OnGrid quantum8 request.quantity) (hprice : 0 < price)
    (hequity : 0 < context.portfolio.equity)
    (hrisk : 0 < (perUnitRisk request price).getD price ∨ 0 ≤ settings.maxRiskPerTrade) :
    CapSpec A 4 (FitsWithin settings request context price (A.drift (roundings context)))
      (FitsWithin settings request context price (-A.drift (roundings context)))
      ⟨request.quantity, false⟩ (cappedSizeIn A settings request context price) := by
  have hmono : ∀ {k}, k ≤ 8 → A.drift k ≤ A.drift (roundings context) := fun hk =>
    A.drift_mono (hk.trans (Nat.le_add_left 8 _))
  -- the cap on the position and the one on the portfolio, on what the risk leaves
  have hinner : ∀ z₁, OnGrid quantum8 z₁.quantity → CapSpec A (2 + 2)
      (fun q => WithinPosition settings context price (A.drift (3 + 2)) q ∧
        WithinPortfolio settings context price (A.drift (roundings context)) q)
      (fun q => WithinPosition settings context price (-A.drift 3) q ∧
        WithinPortfolio settings context price (-A.drift (roundings context)) q) z₁
      (capByPositionIn A settings context price z₁ >>= capByPortfolioIn A settings context price) := by
    intro z₁ hgrid₁
    refine (capByPositionIn_spec hgrid₁ hprice hequity le_rfl).bind (fun z₂ hgrid₂ =>
      capByPortfolioIn_spec hgrid₂ hprice hequity (A.drift_mono (by rw [roundings]; omega))) ?_
    intro q q' _ hle hin
    refine bound_grow hin ?_
    rw [← mul_assoc]
    exact mul_le_mul_of_nonneg_right hle hprice.le
  have hall : CapSpec A (0 + (2 + 2)) (fun q => WithinRisk settings request context price
      (A.drift (4 + (2 + 2))) q ∧ _) _ ⟨request.quantity, false⟩ _ :=
    (capByRiskIn_spec hgrid hprice hequity hrisk le_rfl).bind hinner fun q q' _ hle hin =>
      bound_grow hin (lossOf_grow hprice hle)
  refine hall.imp ?_ ?_
  · rintro q ⟨hrisk, hposition, hportfolio⟩
    exact ⟨hrisk.trans (bound_mono (abs_nonneg _) (hmono le_rfl)),
      hposition.trans (bound_mono (abs_nonneg _) (hmono (by norm_num))), hportfolio⟩
  · rintro q ⟨hrisk, hposition, hportfolio⟩
    exact ⟨hrisk.trans (bound_mono (abs_nonneg _) (neg_le_neg (hmono (by norm_num)))),
      hposition.trans (bound_mono (abs_nonneg _) (neg_le_neg (hmono (by norm_num)))), hportfolio⟩

/-! ### What ends the sizing -/

/-- The quotients that the sizing rounds down to eight decimals. -/
def sizingQuotients (A : Arithmetic ℚ) (settings : RiskSettings) (request : OrderRequest)
    (context : RiskContext) (price : ℚ) : List ℚ :=
  let equity := sizingEquity context.portfolio
  [A.div (A.mul equity settings.maxRiskPerTrade) ((perUnitRiskIn A request price).getD price),
    A.div (A.mul equity settings.maxPositionExposure) price,
    A.div (A.sub (A.mul equity settings.maxPortfolioExposure) (currentNotionalIn A context)) price]

/-- What ends a computation is a rejection, or a quotient of too many digits. -/
def StopsFor (A : Arithmetic ℚ) (quotients : List ℚ) {α : Type} : Except SizingStop α → Prop
  | .ok _ => True
  | .error (.answer answer) => answer.decision = .rejected
  | .error .invalidOperation => ∃ x ∈ quotients, ¬A.Holds (roundDown (x / quantum8))

theorem StopsFor.bind {α β : Type} {quotients : List ℚ} {r : Except SizingStop α}
    {f : α → Except SizingStop β} (h : StopsFor A quotients r) (hf : ∀ a, StopsFor A quotients (f a)) :
    StopsFor A quotients (r >>= f) := by
  rcases r with (answer | _) | a
  · exact h
  · exact h
  · exact hf a

theorem quantizeDown8In_stops {quotients : List ℚ} {x : ℚ} (hx : x ∈ quotients) :
    StopsFor A quotients (quantizeDown8In A x) := by
  rcases quantizeDown8In_cases (A := A) x with ⟨hround, -⟩ | ⟨hraised, hlarge⟩
  · rw [hround]
    trivial
  · rw [hraised]
    exact ⟨x, hx, hlarge⟩

theorem reduceToIn_stops {quotients : List ℚ} {limit : ℚ} {code : RiskReasonCode} {message : String}
    (hx : A.div limit price ∈ quotients) :
    StopsFor A quotients (reduceToIn A limit price code message) := by
  refine (quantizeDown8In_stops hx).bind fun reduced => ?_
  split_ifs
  · rfl
  · trivial

theorem approvedSizeIn_stops :
    StopsFor A (sizingQuotients A settings request context price)
      (approvedSizeIn A settings request context price) := by
  have hrisk : ∀ z, StopsFor A (sizingQuotients A settings request context price)
      (capByRiskIn A settings request context price z) := by
    intro z
    simp only [capByRiskIn]
    cases hunit : perUnitRiskIn A request price with
    | none =>
      refine (quantizeDown8In_stops (by simp [sizingQuotients, hunit])).bind fun maxQty => ?_
      split_ifs <;> trivial
    | some unit =>
      dsimp only
      split_ifs
      · refine (quantizeDown8In_stops (by simp [sizingQuotients, hunit])).bind fun maxQty => ?_
        split_ifs <;> trivial
      · trivial
  have hposition : ∀ z, StopsFor A (sizingQuotients A settings request context price)
      (capByPositionIn A settings context price z) := by
    intro z
    simp only [capByPositionIn]
    split_ifs
    · exact reduceToIn_stops (by simp [sizingQuotients])
    · trivial
  have hportfolio : ∀ z, StopsFor A (sizingQuotients A settings request context price)
      (capByPortfolioIn A settings context price z) := by
    intro z
    simp only [capByPortfolioIn]
    split_ifs
    · rfl
    · exact reduceToIn_stops (by simp [sizingQuotients])
    · trivial
  have hcheck : ∀ z, StopsFor A (sizingQuotients A settings request context price)
      (checkSizeIn A request context price z) := by
    intro z
    rw [checkSizeIn]
    split_ifs <;> trivial
  exact ((hrisk _).bind fun z => (hposition z).bind hportfolio).bind hcheck

/-! ### The approved quantity -/

/-- A quantity of eight decimals within the request and the caps, each moved by a share of what
it is computed from; the request is not moved down. -/
structure AdmissibleWithin (settings : RiskSettings) (request : OrderRequest)
    (context : RiskContext) (price e quantity : ℚ) : Prop where
  positive : 0 < quantity
  grid : OnGrid quantum8 quantity
  le_requested : quantity ≤ (1 + max e 0) * request.quantity
  fits : FitsWithin settings request context price e quantity

/-- Up to a size of `1 / e` units of eight decimals, nothing is larger than requested. -/
theorem AdmissibleWithin.le (h : AdmissibleWithin settings request context price e quantity)
    (hgrid : OnGrid quantum8 request.quantity) (he : 0 ≤ e)
    (hsmall : e * request.quantity < quantum8) : quantity ≤ request.quantity := by
  obtain ⟨k, hk⟩ := h.grid
  obtain ⟨n, hn⟩ := hgrid
  have hle := h.le_requested
  rw [max_eq_left he, one_add_mul] at hle
  have hlt : (k : ℚ) * quantum8 < (n + 1) * quantum8 := by
    rw [← hk, add_mul, ← hn, one_mul]
    linarith
  have hkn : (k : ℚ) < n + 1 := lt_of_mul_lt_mul_right hlt quantum8_pos.le
  have hkn : k ≤ n := Int.lt_add_one_iff.mp (by exact_mod_cast hkn)
  rw [hk, hn]
  exact mul_le_mul_of_nonneg_right (by exact_mod_cast hkn) quantum8_pos.le

theorem evaluateIn_of_passed (h : Passed settings state request context now price) :
    (evaluateIn A settings state request context now).1 =
      match approvedSizeIn A settings request context price with
      | .error (.answer answer) => some answer
      | .error .invalidOperation => none
      | .ok z => some (accept z) := by
  simp only [evaluateIn, firstRefusal_append.mpr ⟨h.venue, h.values⟩, h.price_eq,
    if_neg (not_le.mpr h.price_pos), h.size, h.account]
  rcases approvedSizeIn A settings request context price with (answer | _) | z <;> rfl

/-- **What an accepted request has passed**, in an arithmetic. -/
theorem evaluateIn_accepted {answer : RiskEvaluation}
    (h : (evaluateIn A settings state request context now).1 = some answer)
    (haccepts : answer.Accepts) :
    ∃ price z, Passed settings state request context now price ∧
      approvedSizeIn A settings request context price = .ok z ∧ answer = accept z := by
  -- the stages in the order of the source: each ends the evaluation, or is passed
  simp only [evaluateIn] at h
  split at h
  · next hrefusal => exact absurd (Option.some.inj h ▸ haccepts) (firstRefusal_refuses hrefusal)
  next hearly =>
  split at h
  · exact absurd (Option.some.inj h ▸ haccepts) (reject_refuses .invalidPrice "No valid price")
  next price hprice =>
  split_ifs at h with hpos
  · exact absurd (Option.some.inj h ▸ haccepts) (reject_refuses .invalidPrice "No valid price")
  split at h
  · next hrefusal => exact absurd (Option.some.inj h ▸ haccepts) (firstRefusal_refuses hrefusal)
  next hsize =>
  split at h
  · next hrefusal => exact absurd (Option.some.inj h ▸ haccepts) (firstRefusal_refuses hrefusal)
  next haccount =>
  have hstops := @approvedSizeIn_stops A settings request context price
  split at h
  · next hz =>
    rw [hz, Option.some.inj h] at hstops
    exact absurd haccepts (RiskEvaluation.not_accepts_iff.mpr (.inl hstops))
  · cases h
  next z hz =>
  obtain ⟨hvenue, hrequest⟩ := firstRefusal_append.mp hearly
  exact ⟨price, z, ⟨hvenue, hrequest, hprice, not_le.mp hpos, hsize, haccount⟩, hz,
    (Option.some.inj h).symm⟩

theorem checkSizeIn_ok (h : checkSizeIn A request context price z = .ok z') :
    z' = z ∧ 0 < z.quantity := by
  rw [checkSizeIn] at h
  split_ifs at h with hq hcash
  rw [Except.ok.injEq] at h
  exact ⟨h.symm, not_le.mp hq⟩

/-- What is admissible with the caps tightened is left by the caps, and passes the last
checks. -/
theorem approvedSizeIn_leaves (hprice : 0 < price) (hgrid : OnGrid quantum8 request.quantity)
    (hequity : 0 < context.portfolio.equity)
    (hrisk : 0 < (perUnitRisk request price).getD price ∨ 0 ≤ settings.maxRiskPerTrade)
    (hcash : request.side = .buy → request.reduceOnly = false →
      ∀ z, cappedSizeIn A settings request context price = .ok z →
        A.mul z.quantity price ≤ context.portfolio.cashBalance) {q : ℚ}
    (hq : AdmissibleWithin settings request context price (-A.drift (roundings context)) q) :
    (∃ z, approvedSizeIn A settings request context price = .ok z ∧ q ≤ z.quantity) ∨
      approvedSizeIn A settings request context price = .error .invalidOperation := by
  have hspec := @cappedSizeIn_spec A settings request context price hgrid hprice hequity hrisk
  have hle : q ≤ request.quantity := by
    simpa [max_eq_right (neg_nonpos.mpr (A.drift_nonneg (roundings context)))] using hq.le_requested
  rcases hspec.leaves q hq.positive hq.grid hle hq.fits with ⟨z, hz, hqz⟩ | hraised
  · refine .inl ⟨z, ?_, hqz⟩
    rw [approvedSizeIn, hz]
    show checkSizeIn A request context price z = .ok z
    rw [checkSizeIn, if_neg (not_le.mpr (hq.positive.trans_le hqz))]
    refine if_neg ?_
    rintro ⟨hside, hreduce, hlt⟩
    exact absurd (hcash hside (by simpa using hreduce) z hz) (not_le.mpr hlt)
  · exact .inr (Except.bind_eq_error.mpr (.inl hraised))

/-- **The approved quantity is the greatest admissible one, but for rounding.**  For a request
of eight decimals that passes the gates before the sizing, and the final cash check if it buys:
`quantize` raises only for a quotient of too many digits; otherwise the request is rejected and
nothing is admissible with the caps tightened, or the approved quantity is admissible with the
caps loosened and no less than any that is with the caps tightened; it is the requested one where
it is approved, and where it is reduced the requested one does not fit the tightened caps.  (The
settings refuse a negative risk per trade.) -/
theorem approved_quantity_greatest (A : Arithmetic ℚ)
    (hpassed : Passed settings state request context now price)
    (hgrid : OnGrid quantum8 request.quantity) (hequity : 0 < context.portfolio.equity)
    (hrisk : 0 ≤ settings.maxRiskPerTrade)
    (hcash : request.side = .buy → request.reduceOnly = false →
      ∀ z, cappedSizeIn A settings request context price = .ok z →
        A.mul z.quantity price ≤ context.portfolio.cashBalance) :
    let e := A.drift (roundings context)
    match (evaluateIn A settings state request context now).1 with
    | none => ∃ x ∈ sizingQuotients A settings request context price,
        ¬A.Holds (roundDown (x / quantum8))
    | some answer =>
        answer.decision = .rejected ∧
            (∀ q, ¬AdmissibleWithin settings request context price (-e) q) ∨
          ∃ q, answer.approvedQuantity = some q ∧
            AdmissibleWithin settings request context price e q ∧
            (e * request.quantity < quantum8 → q ≤ request.quantity) ∧
            (∀ q', AdmissibleWithin settings request context price (-e) q' → q' ≤ q) ∧
            (answer.decision = .approved ∧ q = request.quantity ∨
              answer.decision = .reduced ∧
                ¬FitsWithin settings request context price (-e) request.quantity) := by
  intro e
  have he : 0 ≤ e := A.drift_nonneg _
  have hprice := hpassed.price_pos
  have hspec := @cappedSizeIn_spec A settings request context price hgrid hprice hequity
    (.inr hrisk)
  have hleaves := @approvedSizeIn_leaves A settings request context price hprice hgrid hequity
    (.inr hrisk) hcash
  have hstops := @approvedSizeIn_stops A settings request context price
  rw [evaluateIn_of_passed hpassed]
  rcases hsize : approvedSizeIn A settings request context price with (answer | _) | z
  · rw [hsize] at hstops hleaves
    refine .inl ⟨hstops, fun q hq => ?_⟩
    rcases hleaves hq with ⟨z, hz, -⟩ | hraised
    · cases hz
    · cases hraised
  · rw [hsize] at hstops
    exact hstops
  · rw [hsize] at hleaves
    obtain ⟨z', hz', hcheck⟩ := Except.bind_eq_ok.mp hsize
    obtain ⟨rfl, hpos⟩ := checkSizeIn_ok hcheck
    obtain ⟨hrequested, hle, hfits, hsame⟩ := hspec.kept z hz' hpos
    have hadm : AdmissibleWithin settings request context price e z.quantity := by
      refine ⟨hpos, hspec.grid z hz', ?_, hfits⟩
      rw [max_eq_left he]
      have hfour : A.drift 4 ≤ e := A.drift_mono (by rw [roundings]; omega)
      exact hle.trans (mul_le_mul_of_nonneg_right (by linarith) hrequested.le)
    refine .inr ⟨z.quantity, accept_quantity z, hadm, hadm.le hgrid he, fun q hq => ?_, ?_⟩
    · rcases hleaves hq with ⟨z', hz', hqz⟩ | hraised
      · rw [Except.ok.injEq] at hz'
        exact hz' ▸ hqz
      · cases hraised
    · rw [accept_decision]
      rcases hsame with rfl | ⟨hreduced, hover⟩
      · exact .inl ⟨rfl, rfl⟩
      · exact .inr ⟨by rw [hreduced]; rfl, hover⟩

/-- A BUY of three units at 50, with a hundredth of 10000 to risk, is reduced to two. -/
theorem approved_quantity_greatest_reduced :
    let request := { smallBuy "a" with quantity := 3 }
    let e : ℚ := decimal28.drift 8
    AdmissibleWithin {} request smallBuyContext 50 e 2 ∧
      ¬FitsWithin {} request smallBuyContext 50 (-e) 3 ∧
      ∀ q, AdmissibleWithin {} request smallBuyContext 50 (-e) q → q ≤ 2 := by
  intro request e
  have hpassed : Passed {} {} request smallBuyContext 0 50 :=
    { venue := by decide +kernel
      values := by decide +kernel
      price_eq := rfl
      price_pos := by norm_num
      size := by decide +kernel
      account := by decide +kernel }
  have hsize : cappedSizeIn decimal28 {} request smallBuyContext 50 = .ok ⟨2, true⟩ := by
    decide +kernel
  have hanswer : (evaluateIn decimal28 {} {} request smallBuyContext 0).1 =
      some (accept ⟨2, true⟩) := by decide +kernel
  have hgreatest := approved_quantity_greatest decimal28 hpassed ⟨300000000, by decide +kernel⟩
    (by decide +kernel) (by decide +kernel) (by
      intro _ _ z hz
      rw [hsize, Except.ok.injEq] at hz
      exact hz ▸ by decide +kernel)
  rw [hanswer] at hgreatest
  rcases hgreatest with ⟨hrejected, -⟩ | ⟨q, hq, hadm, -, hmax, hdecision⟩
  · exact absurd hrejected (by decide)
  · obtain rfl : (2 : ℚ) = q := by
      rw [accept_quantity, Option.some.injEq] at hq
      exact hq
    rcases hdecision with ⟨happroved, -⟩ | ⟨-, hover⟩
    · exact absurd happroved (by decide)
    · exact ⟨hadm, hover, hmax⟩

/-- **The approved quantity is not the greatest admissible one**: with a stop of 28 digits at
33.33 a cap is rounded up to 1.5 units, which lose more at the stop than is to be risked; and
with a stop next to the price the quotient has too many digits, though one unit is admissible. -/
theorem approved_quantity_over_cap :
    let request : OrderRequest :=
      { smallBuy "a" with
        quantity := 2, stopLoss := some (3333333333333333333333333333 / 10 ^ 26) }
    let context := { smallBuyContext with markPrice := some 100 }
    let close : OrderRequest := { request with quantity := 1, stopLoss := some (100 - 1 / 10 ^ 18) }
    (evaluateIn decimal28 {} {} request context 0).1 = some (accept ⟨3 / 2, true⟩) ∧
      ¬WithinRisk {} request context 100 0 (3 / 2) ∧
      Passed {} {} close context 0 100 ∧ FitsWithin {} close context 100 0 1 ∧
      (evaluateIn decimal28 {} {} close context 0).1 = none := by
  intro request context close
  refine ⟨by decide +kernel, by decide +kernel, ?_,
    ⟨by decide +kernel, by decide +kernel, by decide +kernel⟩, by decide +kernel⟩
  exact
    { venue := by decide +kernel
      values := by decide +kernel
      price_eq := rfl
      price_pos := by norm_num
      size := by decide +kernel
      account := by decide +kernel }

end Risk

end Atlas
