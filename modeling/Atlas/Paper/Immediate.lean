import Atlas.Paper.Sales
import Atlas.Paper.Twins

/-!
# When a market order fails

A market order is executed when it is submitted.  Before its fill a BUY locks its
notional at the mark, and the fill is paid from the available cash and the share of the
lock it frees; a SELL needs the position.  Either can end the order as failed, and so
can a quantity that rounds to nothing.

## Main definitions

* `spendable` — what the fill of a market BUY can spend.
* `Executable` — the ledger covers a market order at the mark.

## Main results

* `submitAfterLatency_market_failed_iff` — **a market order fails exactly when the ledger
  does not cover it.**
* `executable_whole_iff` — a whole fill of eight decimals needs its cost, or its position.

## References

`app/execution/paper/engine.py`.
-/

namespace Atlas

namespace Paper

open Quantize

variable {cfg : PaperConfig} {s : PaperState} {request : OrderRequest} {risk : RiskEvaluation}
  {roll mark : ℚ} {now : Time}

/-- What the fill of `fillQty` of a market BUY of `quantity` can spend: the available cash,
less the part of the lock that stays with the rest of the order. -/
def spendable (s : PaperState) (quantity fillQty mark : ℚ) : ℚ :=
  let amount := quantize8 (quantity * mark)
  if amount ≤ 0 then s.cash
  else
    s.cash - amount +
      min (min (quantize8 (amount * fillQty / quantity)) amount) (s.reservedCash + amount)

/-- The cost of a fill of a market BUY, with slippage, spread and fee. -/
def marketCost (cfg : PaperConfig) (fillQty mark : ℚ) : ℚ :=
  let price := fillPrice cfg mark .market .buy none
  price * fillQty + fillFee cfg fillQty price false

/-- The ledger covers a market order at the mark. -/
def Executable (cfg : PaperConfig) (s : PaperState) (side : OrderSide) (symbol : String)
    (quantity mark : ℚ) : Prop :=
  let fillQty := quantizeDown8 (quantity * cfg.partialFillFraction)
  0 < fillQty ∧
    match side with
    | .buy => (0 < quantize8 (quantity * mark) → quantize8 (quantity * mark) ≤ s.cash) ∧
        marketCost cfg fillQty mark ≤ spendable s quantity fillQty mark
    | .sell => fillQty ≤ held s symbol

instance (side : OrderSide) (symbol : String) (quantity mark : ℚ) :
    Decidable (Executable cfg s side symbol quantity mark) := by
  unfold Executable
  cases side <;> infer_instance

/-- The order a new market request is submitted as. -/
theorem submitted_fst :
    (submitted s request risk now).1 =
      { newOrder s request now with
        status := .submitted
        riskDecision := some risk.decision
        riskReasonCode := some risk.reasonCode } := rfl

/-- A market SELL is executed as it is. -/
theorem reserveFor_sell {order : Order} (hside : request.side = .sell) (m : Option ℚ) :
    reserveFor s order request risk m now = ((order, true), s) := by
  simp [reserveFor, hside]

/-- A market BUY locks its notional at the mark. -/
theorem reserveFor_buy {order : Order} (hmarket : request.orderType = .market)
    (hside : request.side = .buy) :
    reserveFor s order request risk (some mark) now =
      reserveBuy s order (reserveQty request risk) mark risk now := by
  simp [reserveFor, hside, reservePrice, hmarket]

/-- An order without a lock frees nothing. -/
theorem Attempt.freed_unlocked {a : Attempt} (h : a.order.metadata.reservedNotional = none) :
    a.freed = 0 := by
  simp [freed, h]

/-- An order that has just locked `amount` frees the share of its fill. -/
theorem Attempt.freed_locked {a : Attempt} {amount : ℚ} (hamount : 0 < amount)
    (hnotional : a.order.metadata.reservedNotional = some amount)
    (hremaining : a.order.metadata.reservedRemaining = some amount)
    (hopen : a.order.metadata.reservationOpen = some true) (hq : 0 < a.order.quantity) :
    a.freed = min (min (quantize8 (amount * a.fillQty / a.order.quantity)) amount)
      a.state.reservedCash := by
  have hrest : a.order.metadata.remaining = amount := by simp [Metadata.remaining, hremaining]
  simp [freed, hnotional, hopen, hq, hamount, releaseAmount, hrest, not_le.mpr hamount]

/-- The attempt on a market BUY is covered by what it can spend. -/
theorem Attempt.covered_market_iff {a : Attempt} {mark cash : ℚ} (hside : a.order.side = .buy)
    (hprice : a.price = fillPrice cfg mark .market .buy none) (hmaker : a.isMaker = false)
    (hpos : 0 < a.fillQty) (hcash : a.state.cash + a.freed = cash) :
    a.Covered cfg ↔ marketCost cfg a.fillQty mark ≤ cash := by
  simp only [Attempt.Covered, or_iff_right (not_le.mpr hpos), hside, Attempt.cost, Attempt.fee,
    hprice, hmaker, marketCost, hcash]

/-- A market SELL that is not refused is one attempt. -/
theorem submitAfterLatency_sell (hmarket : request.orderType = .market)
    (hside : request.side = .sell) (hmark : s.markPrices.get? request.symbol = some mark)
    (haccepts : ¬(risk.decision = .rejected ∨ risk.decision = .halted))
    (hroll : ¬(0 < cfg.rejectProbability ∧ roll < cfg.rejectProbability)) :
    let a := immediateAttempt cfg (submitted s request risk now).2
      (submitted s request risk now).1 request risk mark now
    submitAfterLatency cfg s request risk roll now = a.apply cfg ∧ a.order.status ≠ .failed := by
  intro a
  refine ⟨?_, by simp [a, immediateAttempt, submitted_fst]⟩
  rw [submitAfterLatency_market hmarket hmark, if_neg haccepts]
  simp only [if_neg hroll, reserveFor_sell hside, if_true, executeFill_eq]
  rfl

/-- **A market order fails exactly when the ledger does not cover it**: submitted under a
new key, for the quantity it is approved for, with no draw of the engine against it. -/
theorem submitAfterLatency_market_failed_iff (hmarket : request.orderType = .market)
    (hmark : s.markPrices.get? request.symbol = some mark)
    (hmeta : request.metadata.NoReservation) (hq : 0 < request.quantity)
    (happroved : risk.approvedQuantity = some request.quantity)
    (haccepts : ¬(risk.decision = .rejected ∨ risk.decision = .halted))
    (hroll : ¬(0 < cfg.rejectProbability ∧ roll < cfg.rejectProbability)) :
    (submitAfterLatency cfg s request risk roll now).1.status = .failed ↔
      ¬Executable cfg s request.side request.symbol request.quantity mark := by
  have hmaker : ¬request.orderType = .limit := by simp [hmarket]
  -- the lock of a BUY decides whether there is an attempt, and from what state
  cases hside : request.side with
  | sell =>
    obtain ⟨hattempt, hlive⟩ : submitAfterLatency cfg s request risk roll now = _ ∧ _ :=
      submitAfterLatency_sell hmarket hside hmark haccepts hroll
    rw [hattempt, Attempt.apply_failed_iff hlive, not_iff_not]
    have hfill : (immediateAttempt cfg (submitted s request risk now).2
        (submitted s request risk now).1 request risk mark now).fillQty =
        quantizeDown8 (request.quantity * cfg.partialFillFraction) := rfl
    refine and_congr_right fun hpos => ?_
    simp only [Attempt.Covered, or_iff_right (not_le.mpr hpos)]
    simp only [immediateAttempt, submitted_fst, newOrder, hside]
    exact Iff.rfl
  | buy =>
    rw [submitAfterLatency_market hmarket hmark, if_neg haccepts]
    simp only [if_neg hroll]
    rw [reserveFor_buy hmarket hside]
    have hreserve : reserveQty request risk = request.quantity := by
      simp [reserveQty, happroved, hq.ne']
    have hunlocked : ¬(submitted s request risk now).1.metadata.reservationOpen = some true := by
      rw [submitted_fst]
      simp [newOrder, hmeta.2.2]
    simp only [Executable, reserveBuy, hreserve, if_neg hunlocked, spendable]
    have hprice : fillPrice cfg mark request.orderType request.side request.price =
        fillPrice cfg mark .market .buy none := by simp [fillPrice, hmarket, hside]
    by_cases hamount : quantize8 (request.quantity * mark) ≤ 0
    · -- nothing to lock
      simp only [if_pos hamount, if_true, executeFill_eq]
      rw [Attempt.apply_failed_iff (by simp [immediateAttempt, submitted_fst]), not_iff_not]
      refine and_congr_right fun hpos => ?_
      have hfree : (immediateAttempt cfg (submitted s request risk now).2
          (submitted s request risk now).1 request risk mark now).freed = 0 :=
        Attempt.freed_unlocked hmeta.1
      rw [Attempt.covered_market_iff hside hprice (by simp [immediateAttempt, hmarket]) hpos
        (by rw [hfree, add_zero])]
      exact (and_iff_right fun hlt => absurd hlt (not_lt.mpr hamount)).symm
    · have hlock : 0 < quantize8 (request.quantity * mark) := not_le.mp hamount
      by_cases hcash : s.cash < quantize8 (request.quantity * mark)
      · -- the lock itself fails
        have hcash' : (submitted s request risk now).2.cash <
            quantize8 (request.quantity * mark) := hcash
        simp only [if_neg hamount, if_pos hcash', update, Bool.false_eq_true, if_false, true_iff]
        rintro ⟨-, hle, -⟩
        exact absurd (hle hlock) (not_le.mpr hcash)
      · have hcash' : ¬(submitted s request risk now).2.cash <
            quantize8 (request.quantity * mark) := hcash
        simp only [if_neg hamount, if_neg hcash', if_true, executeFill_eq]
        rw [Attempt.apply_failed_iff (by simp [immediateAttempt, submitted_fst]), not_iff_not]
        refine and_congr_right fun hpos => ?_
        rw [Attempt.covered_market_iff hside hprice (by simp [immediateAttempt, hmarket]) hpos
          (by rw [Attempt.freed_locked hlock rfl rfl rfl hq])]
        exact (and_iff_right fun _ => not_lt.mp hcash).symm

/-! ### The mark it is executed at -/

/-- A mark stays as it is set, and opens no order, whatever resting orders it triggers. -/
theorem setMarkPrice_keeps (s : PaperState) (symbol : String) (price : ℚ) (now : Time) :
    (setMarkPrice cfg s symbol price now).markPrices = s.markPrices.set symbol price ∧
      (setMarkPrice cfg s symbol price now).idempotencyIndex = s.idempotencyIndex := by
  have hloop : ∀ (orders : List Order) (s : PaperState),
      (orders.foldl (triggerOne cfg symbol price now) s).markPrices = s.markPrices ∧
        (orders.foldl (triggerOne cfg symbol price now) s).idempotencyIndex =
          s.idempotencyIndex := by
    intro orders
    induction orders with
    | nil => exact fun s => ⟨rfl, rfl⟩
    | cons order orders ih =>
      intro s
      rw [List.foldl_cons, (ih _).1, (ih _).2, triggerOne_eq]
      cases h : restingAttempt cfg symbol price now s order with
      | none => exact ⟨rfl, rfl⟩
      | some a =>
        obtain ⟨fillQty, hfill, ha⟩ := Option.map_eq_some_iff.mp h
        have hlive : a.order.status ≠ .failed := by
          rw [← ha]
          rcases (restingFill_eq_some cfg hfill).1 with h | h <;> simp [h]
        have hstate : a.state = s := by rw [← ha]
        have hframe : Frame a.order.id a.state (a.apply cfg).2 := Attempt.apply_frame hlive
        rw [hstate] at hframe
        exact ⟨hframe.marks, hframe.index⟩
  exact hloop _ _

/-- A market order is filled at the mark of its symbol, with half of the spread and the
slippage. -/
theorem submitAttempts_market (hmarket : request.orderType = .market)
    (hmark : s.markPrices.get? request.symbol = some mark) :
    ∀ a ∈ submitAttempts cfg s request risk roll now,
      a.price = fillPrice cfg mark .market request.side none := by
  intro a ha
  have hplace : placeOrder (submitted s request risk now).2 (submitted s request risk now).1
      request risk now = _ := placeOrder_market hmarket hmark
  rw [submitAttempts, prepare_eq] at ha
  dsimp only at ha
  rw [hplace] at ha
  split_ifs at ha <;> simp only [List.not_mem_nil, List.mem_singleton] at ha
  rw [ha]
  simp [immediateAttempt, fillPrice, hmarket]

end Paper

end Atlas
