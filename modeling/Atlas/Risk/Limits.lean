import Mathlib.Tactic.Linarith
import Atlas.Risk.Engine

/-!
# The limits on losses

Two of the gates on the account are limits on losses: on the loss of the day, and on the
number of losses in a row.  A request that comes as far as such a gate is refused by it
exactly when the gate fails, since what comes later answers with other codes.

## Main definitions

* `PassesUntil n` — all gates before the one at `n` of those on the account.
* `RejectedWith` — the answer of a gate.

## Main results

* `rejectedWith_iff` — **a gate that is reached answers exactly when it fails**.
* `dailyLoss_iff`, `consecutiveLosses_iff` — the two limits.

## References

`app/risk/engine.py`.
-/

namespace Atlas

/-- The request is rejected with the code. -/
def RiskEvaluation.RejectedWith (e : RiskEvaluation) (code : RiskReasonCode) : Prop :=
  e.decision = .rejected ∧ e.reasonCode = code

instance (e : RiskEvaluation) (code : RiskReasonCode) : Decidable (e.RejectedWith code) :=
  inferInstanceAs (Decidable (_ ∧ _))

namespace Risk

variable {settings : RiskSettings} {state : RiskEngineState} {request : OrderRequest}
  {context : RiskContext} {now : Time} {price : ℚ} {n : ℕ}

/-- The request passes every gate before the one at `n` of those on the account. -/
structure PassesUntil (n : ℕ) (settings : RiskSettings) (state : RiskEngineState)
    (request : OrderRequest) (context : RiskContext) (now : Time) (price : ℚ) : Prop where
  venue : firstRefusal (venueGates settings state request context) = none
  values : firstRefusal (requestGates settings state request context now) = none
  price_eq : referencePrice request context = some price
  price_pos : 0 < price
  size : firstRefusal (sizeGates settings request context price) = none
  account :
    firstRefusal ((accountGates settings (trimmed state now) request context now).take n) = none

instance : Decidable (PassesUntil n settings state request context now price) :=
  decidable_of_iff
    (firstRefusal (venueGates settings state request context) = none ∧
      firstRefusal (requestGates settings state request context now) = none ∧
      referencePrice request context = some price ∧ 0 < price ∧
      firstRefusal (sizeGates settings request context price) = none ∧
      firstRefusal ((accountGates settings (trimmed state now) request context now).take n) = none)
    ⟨fun ⟨hvenue, hvalues, hprice, hpos, hsize, haccount⟩ =>
      ⟨hvenue, hvalues, hprice, hpos, hsize, haccount⟩,
      fun h => ⟨h.venue, h.values, h.price_eq, h.price_pos, h.size, h.account⟩⟩

/-! ### The gate that is reached -/

theorem firstRefusal_cons (g : Gate) (gates : List Gate) :
    firstRefusal (g :: gates) = if g.fails then some g.answer else firstRefusal gates := by
  unfold firstRefusal
  rw [List.find?_cons]
  cases g.fails <;> rfl

theorem firstRefusal_mem {gates : List Gate} {e : RiskEvaluation}
    (h : firstRefusal gates = some e) : ∃ g ∈ gates, g.answer = e := by
  obtain ⟨g, hg, rfl⟩ := Option.map_eq_some_iff.mp h
  exact ⟨g, List.mem_of_find?_eq_some hg, rfl⟩

/-- Gates that are passed can be dropped. -/
theorem firstRefusal_drop {gates : List Gate} (h : firstRefusal (gates.take n) = none) :
    firstRefusal gates = firstRefusal (gates.drop n) := by
  have hpassed : ∀ g ∈ gates.take n, ¬g.fails = true := by
    intro g hg
    rw [firstRefusal_eq_none.mp h g hg]
    exact Bool.false_ne_true
  unfold firstRefusal
  conv_lhs => rw [← List.take_append_drop n gates]
  rw [List.find?_append, List.find?_eq_none.mpr hpassed, Option.none_or]

/-- An evaluation that comes as far as the gate at `n`. -/
theorem evaluate_of_passesUntil (h : PassesUntil n settings state request context now price) :
    (evaluate settings state request context now).1 =
      match firstRefusal
          ((accountGates settings (trimmed state now) request context now).drop n) with
      | some answer => answer
      | none =>
          match approvedSize settings request context price with
          | .error answer => answer
          | .ok z => accept z := by
  simp only [evaluate, firstRefusal_append.mpr ⟨h.venue, h.values⟩, h.price_eq,
    if_neg (not_le.mpr h.price_pos), h.size, firstRefusal_drop h.account]
  cases firstRefusal ((accountGates settings (trimmed state now) request context now).drop n) with
  | some answer => rfl
  | none => cases approvedSize settings request context price <;> rfl

theorem accept_reasonCode (z : Sized) :
    (accept z).reasonCode = .ok ∨ (accept z).reasonCode = .sizeReducedByRisk := by
  unfold accept
  split_ifs
  · exact .inr rfl
  · exact .inl rfl

/-- **A gate that is reached answers exactly when it fails**, if what comes later answers
with other codes. -/
theorem rejectedWith_iff {g : Gate} {later : List Gate} {code : RiskReasonCode} {message : String}
    (h : PassesUntil n settings state request context now price)
    (hgates :
      (accountGates settings (trimmed state now) request context now).drop n = g :: later)
    (hanswer : g.answer = reject code message)
    (hlater : ∀ g' ∈ later, g'.answer.reasonCode ≠ code)
    (hcode : code ∉ .ok :: .sizeReducedByRisk :: sizeCodes) :
    (evaluate settings state request context now).1.RejectedWith code ↔ g.fails = true := by
  rw [evaluate_of_passesUntil h, hgates, firstRefusal_cons]
  simp only [List.mem_cons, not_or] at hcode
  obtain ⟨hok, hreduced, hsize⟩ := hcode
  by_cases hfails : g.fails = true
  · rw [if_pos hfails, hanswer]
    exact ⟨fun _ => hfails, fun _ => ⟨rfl, rfl⟩⟩
  · rw [if_neg hfails]
    refine ⟨fun hrejected => absurd hrejected.2 ?_, fun hpos => absurd hpos hfails⟩
    -- the later gates, the sizes and the acceptance, in the order of the source
    split
    · next answer hrefusal =>
      obtain ⟨g', hmem, rfl⟩ := firstRefusal_mem hrefusal
      exact hlater g' hmem
    split
    · next answer herror =>
      obtain ⟨other, hmem, message, rfl⟩ := approvedSize_error herror
      intro heq
      exact hsize (heq ▸ hmem)
    · next z _ =>
      rcases accept_reasonCode z with hz | hz <;> rw [hz]
      · exact Ne.symm hok
      · exact Ne.symm hreduced

/-! ### The two limits -/

/-- The share of the highest equity that is lost, where the loss of the day is limited. -/
theorem dailyLossPct_eq (portfolio : PortfolioState) :
    (if portfolio.dailyPnl < 0 then -portfolio.dailyPnl / portfolio.peakEquity else 0) =
      max (-portfolio.dailyPnl) 0 / portfolio.peakEquity := by
  split_ifs with hneg
  · rw [max_eq_left (by linarith)]
  · rw [max_eq_right (by linarith), zero_div]

/-- The limit on the loss of the day. -/
theorem dailyLoss_iff (h : PassesUntil 2 settings state request context now price)
    (hpeak : 0 < context.portfolio.peakEquity) :
    (evaluate settings state request context now).1.RejectedWith .dailyLossLimitReached ↔
      settings.maxDailyLoss * context.portfolio.peakEquity ≤
        max (-context.portfolio.dailyPnl) 0 := by
  refine (rejectedWith_iff h rfl rfl ?_ (by decide)).trans ?_
  · simp [rejectIf, reject]
  · rw [rejectIf_fails, decide_eq_true_iff, dailyLossPct_eq, le_div_iff₀ hpeak]
    exact and_iff_right hpeak

/-- The limit on the losses in a row. -/
theorem consecutiveLosses_iff (h : PassesUntil 4 settings state request context now price) :
    (evaluate settings state request context now).1.RejectedWith .maxConsecutiveLosses ↔
      settings.maxConsecutiveLosses ≤ context.portfolio.consecutiveLosses := by
  refine (rejectedWith_iff h rfl rfl ?_ (by decide)).trans ?_
  · simp [rejectIf, reject]
  · rw [rejectIf_fails, decide_eq_true_iff]

end Risk

end Atlas
