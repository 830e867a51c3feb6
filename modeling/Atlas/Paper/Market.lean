import Mathlib.Tactic.FieldSimp
import Atlas.Paper.CostBasis
import Atlas.Paper.Lifecycle
import Atlas.Paper.Quiet
import Atlas.Paper.Sales

/-!
# Market orders, and what the account carries

A market order is executed when it is submitted, and no mark triggers it later.  While only
market orders are sent, the ledger changes by their fills alone.

What the account carries at a fee rate is its capital, and its positions at what they cost,
with the fees of their purchases.  A purchase changes it by the rounding of its fee only.  A
sale changes it by its profit less the fee of its purchase, which is what the journal of
closed trades reports, up to rounding.

## Main definitions

* `NoneRests` — no mark can trigger a stored order.
* `carried rate s` — capital, and positions at cost with their entry fees.
* `Deals` — what a submission does to the ledger and what it sells.

## Main results

* `NoneRests.step` — it stays so while only market orders are sent.
* `submitAfterLatency_deals` — **a market order deals at most once**.

## References

`app/execution/paper/engine.py`.
-/

namespace Atlas

namespace Paper

open Quantize

variable {cfg : PaperConfig} {s s' : PaperState} {order : Order} {risk : RiskEvaluation}
  {now : Time} {rate : ℚ}

/-! ### No order rests -/

/-- No mark can trigger a stored order. -/
def NoneRests (cfg : PaperConfig) (s : PaperState) : Prop :=
  ∀ id o, s.orders.get? id = some o → ∀ symbol mark, restingFill cfg o symbol mark = none

/-- The operation sends no order that could rest. -/
def Op.IsMarket : Op → Prop
  | .submit request _ _ _ => request.orderType = .market
  | _ => True

theorem NoneRests.fresh (marks : Dict String ℚ) : NoneRests cfg (fresh cfg marks) :=
  fun _ _ hget => by cases hget

theorem NoneRests.quiet (h : NoneRests cfg s) (symbol : String) (mark : ℚ) :
    Quiet cfg s symbol mark := by
  intro o ho
  obtain ⟨id, hget⟩ := Dict.mem_values_iff.mp ho
  exact h id o hget symbol mark

theorem restingFill_market (h : order.orderType = .market) (symbol : String) (mark : ℚ) :
    restingFill cfg order symbol mark = none := by
  simp [restingFill, crosses, h]

theorem restingFill_terminal (h : order.status.Terminal) (symbol : String) (mark : ℚ) :
    restingFill cfg order symbol mark = none := by
  have hclosed : ¬(order.status = .submitted ∨ order.status = .partiallyFilled) := by
    rcases h with h | h | h | h | h <;> simp [h]
  simp [restingFill, hclosed]

theorem NoneRests.submitAfterLatency {request : OrderRequest} {roll : ℚ}
    (hmarket : request.orderType = .market) (h : NoneRests cfg s) :
    NoneRests cfg (submitAfterLatency cfg s request risk roll now).2 := by
  have hworks : Works (created s request now) (newOrder s request now)
      (Paper.submitAfterLatency cfg s request risk roll now) :=
    submitAfterLatency_works s request risk roll now
  have hnew : (Paper.submitAfterLatency cfg s request risk roll now).1.orderType = .market :=
    hworks.same.orderType.trans hmarket
  intro id o hget
  refine hworks.each (P := fun o => ∀ symbol mark, restingFill cfg o symbol mark = none)
    (restingFill_market hnew) (fun hcreated => ?_) hget
  exact created_each (P := fun o => ∀ symbol mark, restingFill cfg o symbol mark = none)
    (restingFill_market hmarket) (h _ _) hcreated

theorem Closing.noneRests (hclosing : Closing s s') (h : NoneRests cfg s) : NoneRests cfg s' := by
  cases hclosing with
  | unchanged => exact h
  | closed order st now hs hopen hst =>
    intro id o hget
    exact (closeOrder_works st hs).each
      (P := fun o => ∀ symbol mark, restingFill cfg o symbol mark = none)
      (restingFill_terminal hst) (h _ _) hget

/-- **No order rests while only market orders are sent.** -/
theorem NoneRests.step {op : Op} (hk : Keyed s) (hop : op.IsMarket) (h : NoneRests cfg s) :
    NoneRests cfg (step cfg s op) := by
  cases op with
  | submit request risk roll now =>
    simp only [Paper.step, submit]
    cases s.idempotencyIndex.get? request.idempotencyKey with
    | some id => exact h
    | none => exact h.submitAfterLatency hop
  | setMarkPrice symbol price now =>
    rw [Paper.step, (h.quiet symbol price).setMarkPrice_eq now]
    exact h
  | cancel id now => exact (cancel_closing id hk).noneRests h
  | expire id now => exact (expire_closing id hk).noneRests h

/-- Whatever an operation does, positions stay positive. -/
theorem LongOnly.step (op : Op) (hk : Keyed s) (hl : LongOnly s) :
    Keyed (step cfg s op) ∧ LongOnly (step cfg s op) := by
  have hb : Bookings cfg anyTerms s (Paper.step cfg s op) := step_bookings hk (anyTerms_meets op)
  exact ⟨hb.keyed hk, hb.invariant (fun _ hb hl => hb.longOnly hl) hk hl⟩

/-! ### What the account carries -/

/-- The capital, and the positions at cost with the fees of their purchases at a rate. -/
def carried (rate : ℚ) (s : PaperState) : ℚ := s.cash + s.reservedCash + (1 + rate) * costBasis s

theorem SameBooks.carried {r : Order × PaperState} (h : SameBooks s order r) :
    carried rate r.2 = carried rate s := by
  unfold Paper.carried costBasis
  rw [h.capital, h.positions]

theorem carried_markState (symbol : String) (price : ℚ) :
    carried rate (markState s symbol price) = carried rate s := by
  have hcost : costBasis (markState s symbol price) = costBasis s := markPositions_cost ..
  unfold carried
  rw [hcost]
  rfl

theorem Closing.carried (h : Closing s s') : carried rate s' = carried rate s := by
  cases h with
  | unchanged => rfl
  | closed order st now hs _ _ => exact (closeOrder_idle st hs).books.carried

theorem Closing.fills (h : Closing s s') : s'.fills = s.fills := by
  cases h with
  | unchanged => rfl
  | closed order st now hs _ _ => exact (closeOrder_idle st hs).fills

/-- What a submission does to the ledger, with what it sells. -/
inductive Deals (rate : ℚ) (symbol : String) (s : PaperState) : PaperState → List Sale → Prop
  | nothing (s' : PaperState) (hcarried : carried rate s' = carried rate s)
      (hfills : s.fills.length ≤ s'.fills.length) : Deals rate symbol s s' []
  /-- A purchase, whose fee is rounded. -/
  | bought (s' : PaperState) (notional : ℚ)
      (hcarried : carried rate s' = carried rate s + (notional * rate - quantize8 (notional * rate)))
      (hfills : s'.fills.length = s.fills.length + 1) : Deals rate symbol s s' []
  /-- A sale out of a position, with the profit after both fees. -/
  | sold (s' : PaperState) (sale : Sale) (p : Position) (exact : ℚ)
      (hposition : s.positions.get? symbol = some p)
      (hfee : sale.fill.fee = quantize8 exact)
      (hcarried : carried rate s' = carried rate s +
        ((sale.fill.price - p.entryPrice) * sale.fill.quantity -
          p.entryPrice * sale.fill.quantity * rate - sale.fill.fee))
      (hfills : s'.fills.length = s.fills.length + 1) : Deals rate symbol s s' [sale]

/-- A refused attempt may still be recorded. -/
theorem Attempt.apply_fills_le {a : Attempt} (hlive : a.order.status ≠ .failed) :
    a.state.fills.length ≤ (a.apply cfg).2.fills.length := by
  have hworks : Works a.state a.order (a.apply cfg) := Attempt.apply_works hlive
  obtain ⟨fs, hfs, -⟩ := hworks.frame.fills
  rw [hfs, List.length_append]
  exact Nat.le_add_right ..

/-- **An attempt deals at most once.** -/
theorem Attempt.apply_deals {a : Attempt} (hp : a.Proper) (hl : LongOnly a.state)
    (hrate : feeRateFor cfg a.isMaker = rate) :
    Deals rate a.order.symbol a.state (a.apply cfg).2 (salesOf cfg [a]) := by
  have hfee : a.fee cfg = quantize8 (a.price * a.fillQty * rate) := by
    rw [Attempt.fee, fillFee, hrate]
  have hbooked : a.Booked cfg (a.apply cfg) := Attempt.apply_booked hp.live_ne
  have hle : a.state.fills.length ≤ (a.apply cfg).2.fills.length := apply_fills_le hp.live_ne
  have hrecords : 0 < a.fillQty → (a.apply cfg).2.fills = a.state.fills ++ [a.fill cfg] :=
    Attempt.apply_records hp.live_ne
  generalize a.apply cfg = r at hbooked hle hrecords ⊢
  cases hbooked with
  | refused books hfail =>
    have hunsold : salesOf cfg [a] = [] := by
      have hno : ¬a.Sells cfg := by
        rintro ⟨-, hq, hcov⟩
        exact hfail.elim (fun hle => absurd hq (not_lt.mpr hle)) fun hnot => hnot hcov
      simp [salesOf, hno]
    rw [hunsold]
    exact .nothing _ books.carried hle
  | bought hq hside _ hcapital hpositions _ _ _ =>
    have hunsold : salesOf cfg [a] = [] := by simp [salesOf, Attempt.Sells, hside]
    have hcost := boughtPosition_cost (a.state.positions.get? a.order.symbol) a.order a.price a.now
      hq fun p hget => hl _ p hget
    rw [hunsold]
    refine .bought _ (a.price * a.fillQty) ?_ (by rw [hrecords hq, List.length_append]; rfl)
    unfold carried costBasis
    rw [hcapital, hpositions, Dict.sum_set, hcost, Attempt.cost, hfee]
    ring
  | sold p hq hside hget hqty _ hcapital hpositions _ _ hcov =>
    have hsold : salesOf cfg [a] = [⟨a.fill cfg, a.profit cfg⟩] := by
      simp [salesOf, Attempt.Sells, hside, hq, hcov]
    rw [hsold]
    refine .sold _ _ p (a.price * a.fillQty * rate) hget hfee ?_
      (by rw [hrecords hq, List.length_append]; rfl)
    unfold carried costBasis
    rw [hcapital, hpositions, soldPositions_cost hget]
    simp only [Attempt.fill]
    ring

/-- **A market order deals at most once.** -/
theorem submitAfterLatency_deals {request : OrderRequest} {roll : ℚ} (hl : LongOnly s)
    (hmarket : request.orderType = .market) (hrate : feeRateFor cfg false = rate) :
    Deals rate request.symbol s (submitAfterLatency cfg s request risk roll now).2
      (salesOf cfg (submitAttempts cfg s request risk roll now)) := by
  have hprep : Idle (created s request now) (newOrder s request now)
      (prepare cfg s request risk roll now).result := prepare_idle s request risk roll now
  cases h : prepare cfg s request risk roll now with
  | done o s' =>
    rw [h] at hprep
    rw [submitAfterLatency, submitAttempts, h]
    exact .nothing _ hprep.books.carried (congrArg List.length hprep.fills).ge
  | execute o s' mark =>
    rw [h] at hprep
    rw [submitAfterLatency, submitAttempts, h]
    have hp := immediateAttempt_proper h
    have hpositions : s'.positions = s.positions := hprep.books.positions
    have hcarried : carried rate s' = carried rate s := hprep.books.carried
    have hfills : s'.fills = s.fills := hprep.fills
    have hsymbol : o.symbol = request.symbol := hprep.same.symbol
    have hdeals : Deals rate o.symbol s' _ _ := Attempt.apply_deals hp
      (fun name p hget => hl name p (hpositions ▸ hget)) (by simpa [immediateAttempt, hmarket])
    rw [hsymbol] at hdeals
    dsimp only
    rw [executeFill_eq]
    generalize (immediateAttempt cfg s' o request risk mark now).apply cfg = r at hdeals ⊢
    generalize salesOf cfg _ = sold at hdeals ⊢
    cases hdeals with
    | nothing hsame hle => exact .nothing _ (hsame.trans hcarried) (hfills ▸ hle)
    | bought notional hsame hone => exact .bought _ notional (hcarried ▸ hsame) (hfills ▸ hone)
    | sold sale p exact hposition hfee hsame hone =>
      exact .sold _ sale p exact (hpositions ▸ hposition) hfee (hcarried ▸ hsame) (hfills ▸ hone)

end Paper

end Atlas
