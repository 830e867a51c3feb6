import Atlas.Paper.Immediate

/-!
# How a request is placed

A submission that is not refused locks the cash of a BUY, and then either rests or is
executed.  What it locks is priced at the trigger, where the request names one: so it is
the same at every mark, unless the trigger is zero, which the pricing takes for none.

## Main definitions

* `OrderRequest.trigger`, `triggered` — the trigger, and whether a mark crosses it.
* `lockAmount` — what the submission locks.
* `Refused`, `Unlocked` — the submission ends there.
* `placed` — the order with its lock, and the ledger.
* `Rests` — the order waits for a mark.

## Main results

* `prepare_refused`, `prepare_unlocked` — a submission that ends.
* `prepare_placed` — **a submission that rests, or is executed.**

## References

`app/execution/paper/engine.py`.
-/

namespace Atlas

/-- The trigger of a request, as `submit` chooses it. -/
def OrderRequest.trigger (request : OrderRequest) : Option ℚ :=
  match request.orderType with
  | .market => none
  | .limit => request.price
  | .stopLoss => pyOr request.price request.stopLoss
  | .takeProfit => pyOr request.price request.takeProfit

/-- The metadata of an order after `amount` is locked for it. -/
def Metadata.locked (m : Metadata) (amount : ℚ) : Metadata :=
  if 0 < amount then
    { m with
      reservedNotional := some amount
      reservedRemaining := some amount
      reservationOpen := some true }
  else m

namespace Paper

open Quantize

variable {cfg : PaperConfig} {s : PaperState} {request : OrderRequest} {risk : RiskEvaluation}
  {trigger mark roll amount : ℚ} {now now' : Time} {marks : Dict String ℚ}

/-! ### Triggers -/

/-- Whether a mark crosses the trigger of an order of this type and side. -/
def triggered (orderType : OrderType) (side : OrderSide) (trigger : Option ℚ) (mark : ℚ) : Bool :=
  match orderType, side, trigger with
  | .limit, .buy, some t | .takeProfit, .buy, some t | .stopLoss, .sell, some t => mark ≤ t
  | .limit, .sell, some t | .takeProfit, .sell, some t | .stopLoss, .buy, some t => t ≤ mark
  | _, _, _ => false

/-- The sweep tests the price of the stored order. -/
theorem crosses_eq (order : Order) (mark : ℚ) :
    crosses order mark = triggered order.orderType order.side order.price mark := by
  unfold crosses triggered
  cases order.orderType <;> cases order.side <;> cases order.price <;> rfl

/-- The submission tests the trigger of the request. -/
theorem marketable_eq {order : Order} (htrigger : request.trigger = some trigger) (mark : ℚ) :
    marketable s order request risk mark now =
      if triggered request.orderType request.side (some trigger) mark then .execute order s mark
      else .done order s := by
  unfold OrderRequest.trigger at htrigger
  unfold marketable triggered
  cases htype : request.orderType <;> simp only [htype] at htrigger
  · cases htrigger
  all_goals
    simp only [htrigger]
    cases hside : request.side <;> simp [← not_le]

/-! ### The submission -/

/-- What a submission at this mark locks. -/
def lockAmount (request : OrderRequest) (risk : RiskEvaluation) (mark : Option ℚ) : ℚ :=
  match request.side, reservePrice request mark with
  | .buy, some px => quantize8 (reserveQty request risk * px)
  | _, _ => 0

/-- The risk outcome or the draw of the engine is against the request. -/
def Refused (cfg : PaperConfig) (risk : RiskEvaluation) (roll : ℚ) : Prop :=
  (risk.decision = .rejected ∨ risk.decision = .halted) ∨
    (0 < cfg.rejectProbability ∧ roll < cfg.rejectProbability)

instance : Decidable (Refused cfg risk roll) := inferInstanceAs (Decidable (_ ∨ _))

/-- The cash does not cover the lock. -/
def Unlocked (cash amount : ℚ) : Prop := 0 < amount ∧ cash < amount

instance (cash : ℚ) : Decidable (Unlocked cash amount) := inferInstanceAs (Decidable (_ ∧ _))

/-- A number that is not zero is chosen. -/
theorem pyOr_some {x : ℚ} (hx : x ≠ 0) (b : Option ℚ) : pyOr (some x) b = some x := if_neg hx

/-- A first choice either stands, whatever the second, or gives way to it. -/
theorem pyOr_cases (a : Option ℚ) :
    (∃ y, y ≠ 0 ∧ ∀ b, pyOr a b = some y) ∨ ∀ b, pyOr a b = b := by
  cases a with
  | none => exact .inr fun _ => rfl
  | some y =>
    by_cases hy : y = 0
    · exact .inr fun _ => if_pos hy
    · exact .inl ⟨y, hy, pyOr_some hy⟩

/-- Another choice in between still finds a number that is not zero. -/
theorem pyOr_pyOr {a b c : Option ℚ} {x : ℚ} (h : pyOr a c = some x) (hx : x ≠ 0) :
    ∃ y, y ≠ 0 ∧ pyOr (pyOr a b) c = some y := by
  rcases pyOr_cases a with ⟨y, hy, ha⟩ | ha
  · exact ⟨y, hy, by rw [ha, pyOr_some hy]⟩
  · rw [ha] at h ⊢
    rcases pyOr_cases b with ⟨y, hy, hb⟩ | hb
    · exact ⟨y, hy, hb c⟩
    · exact ⟨x, hx, (hb c).trans h⟩

/-- The lock is priced at the trigger, whatever the mark: no cash is locked for a SELL, a
limit is a price whatever it is, and the trigger of a stop or a take profit is not zero. -/
theorem lockAmount_eq (htrigger : request.trigger = some trigger)
    (hne : request.side = .sell ∨ request.orderType = .limit ∨ trigger ≠ 0) (m m' : Option ℚ) :
    lockAmount request risk m = lockAmount request risk m' := by
  unfold lockAmount
  cases hside : request.side with
  | sell => rfl
  | buy =>
    have hpos : request.orderType ≠ .limit → trigger ≠ 0 := fun hlimit =>
      (hne.resolve_left (by simp [hside])).resolve_left hlimit
    have hprice : reservePrice request m = reservePrice request m' := by
      unfold OrderRequest.trigger at htrigger
      unfold reservePrice
      cases htype : request.orderType <;> simp only [htype] at htrigger hpos
      · cases htrigger
      · rw [htrigger]
        rfl
      · simp only [htrigger, pyOr_some (hpos (by decide))]
      · -- a take profit may name a stop as well, which is then what the lock is priced at
        obtain ⟨x, hx, hchain⟩ : ∃ x, x ≠ 0 ∧
            pyOr (pyOr request.price request.stopLoss) request.takeProfit = some x :=
          pyOr_pyOr htrigger (hpos (by decide))
        simp only [hchain, pyOr_some hx]
    rw [hprice]

/-- An order without a reservation is locked for, or fails where the cash does not cover
the lock. -/
theorem reserveFor_eq {order : Order} (hopen : order.metadata.reservationOpen ≠ some true)
    (m : Option ℚ) :
    reserveFor s order request risk m now =
      if lockAmount request risk m ≤ 0 then ((order, true), s)
      else if s.cash < lockAmount request risk m then
        let failed := update s order .failed risk (some "insufficient_for_reserve") now
        ((failed.1, false), failed.2)
      else
        ((reservedOrder order (lockAmount request risk m) now, true),
          reserved s order (lockAmount request risk m) now) := by
  unfold reserveFor lockAmount
  cases request.side with
  | sell => rfl
  | buy =>
    cases reservePrice request m with
    | none => rfl
    | some px => simp only [reserveBuy, if_neg hopen, reservedOrder, reserved]

/-- The order a request is placed as, with the lock, and its ledger. -/
def placed (s : PaperState) (request : OrderRequest) (risk : RiskEvaluation) (amount : ℚ)
    (now : Time) : Order × PaperState :=
  let r := submitted s request risk now
  if 0 < amount then (reservedOrder r.1 amount now, reserved r.2 r.1 amount now) else r

theorem placed_fst : (placed s request risk amount now).1 =
    { newOrder s request now with
      status := .submitted
      riskDecision := some risk.decision
      riskReasonCode := some risk.reasonCode
      metadata := request.metadata.locked amount } := by
  unfold placed Metadata.locked
  split_ifs <;> rfl

theorem placed_snd : (placed s request risk amount now).2 =
    { s with
      cash := s.cash - max amount 0
      reservedCash := s.reservedCash + max amount 0
      orders := s.orders.set (.uuid4 s.nextUuid) (placed s request risk amount now).1
      idempotencyIndex := s.idempotencyIndex.set request.idempotencyKey (.uuid4 s.nextUuid)
      nextUuid := s.nextUuid + 1 } := by
  unfold placed
  split_ifs with hpos
  · simp only [reserved, submitted, update, created, reservedOrder, newOrder, Dict.set_set,
      max_eq_left hpos.le]
  · simp only [submitted, update, created, newOrder, Dict.set_set,
      max_eq_right (not_lt.mp hpos), sub_zero, add_zero]

/-- An order that is refused later is refused all the same. -/
theorem update_submitted (st : OrderStatus) (error : Option String) :
    update (submitted s request risk now).2 (submitted s request risk now).1 st risk error now =
      update (created s request now) (newOrder s request now) st risk error now := by
  simp only [submitted, update, created, newOrder, Metadata.withError, Dict.set_set]

/-- What the submission of a request meets in a ledger: a mark, unless it can do without,
and the amount it locks. -/
structure Meets (s : PaperState) (request : OrderRequest) (risk : RiskEvaluation)
    (amount : ℚ) : Prop where
  marked : s.markPrices.get? request.symbol = none → request.orderType ≠ .limit
  lock : lockAmount request risk (s.markPrices.get? request.symbol) = amount

/-- The request rests in the ledger: its mark does not cross the trigger, or there is none,
and a limit order is not executed at its own price. -/
def Rests (s : PaperState) (request : OrderRequest) (trigger : ℚ) : Prop :=
  match s.markPrices.get? request.symbol with
  | none => request.orderType ≠ .limit
  | some m => triggered request.orderType request.side (some trigger) m = false

instance : Decidable (Rests s request trigger) := by
  unfold Rests
  cases s.markPrices.get? request.symbol <;> infer_instance

/-- The lock of the submitted order fails, or leaves the order as it is placed. -/
theorem reserveFor_submitted (hmeta : request.metadata.NoReservation)
    (h : Meets s request risk amount) :
    let r := submitted s request risk now
    let w := placed s request risk amount now
    let failed := update r.2 r.1 .failed risk (some "insufficient_for_reserve") now
    reserveFor r.2 r.1 request risk (s.markPrices.get? request.symbol) now =
      if Unlocked s.cash amount then ((failed.1, false), failed.2) else ((w.1, true), w.2) := by
  intro r w failed
  have hopen : r.1.metadata.reservationOpen ≠ some true := by
    rw [submitted_fst]
    simp [newOrder, hmeta.2.2]
  have hcash : r.2.cash = s.cash := rfl
  rw [reserveFor_eq hopen, h.lock, hcash]
  by_cases hpos : 0 < amount
  · simp only [if_neg (not_le.mpr hpos), Unlocked, hpos, true_and, w, placed, if_true, failed]
    rfl
  · simp only [not_lt.mp hpos, if_true, Unlocked, hpos, false_and, if_false, w, placed]
    rfl

/-- The mark that `submit` finds is that of the ledger. -/
theorem Meets.found (h : Meets s request risk amount) :
    (if (s.markPrices.get? request.symbol).isNone = true ∧ request.orderType = .limit then
      request.price else s.markPrices.get? request.symbol) = s.markPrices.get? request.symbol :=
  if_neg fun hown => h.marked (Option.isNone_iff_eq_none.mp hown.1) hown.2

/-- A stop or a take profit can wait for its first mark. -/
theorem trigger_waits (htrigger : request.trigger = some trigger)
    (hlimit : request.orderType ≠ .limit) :
    request.orderType = .stopLoss ∨ request.orderType = .takeProfit := by
  unfold OrderRequest.trigger at htrigger
  cases htype : request.orderType with
  | market => simp [htype] at htrigger
  | limit => exact absurd htype hlimit
  | stopLoss => exact .inl rfl
  | takeProfit => exact .inr rfl

/-- Past the risk outcome and the draw of the engine, an order rests or is executed as it
is placed. -/
theorem placeOrder_placed (hmeta : request.metadata.NoReservation)
    (htrigger : request.trigger = some trigger) (h : Meets s request risk amount)
    (hlock : ¬Unlocked s.cash amount) :
    let r := submitted s request risk now
    let w := placed s request risk amount now
    (Rests s request trigger → placeOrder r.2 r.1 request risk now = .done w.1 w.2) ∧
      (s.markPrices.get? request.symbol = some mark →
        triggered request.orderType request.side (some trigger) mark = true →
        placeOrder r.2 r.1 request risk now = .execute w.1 w.2 mark) := by
  intro r w
  have hreserve : reserveFor r.2 r.1 request risk (s.markPrices.get? request.symbol) now =
      ((w.1, true), w.2) := by
    rw [reserveFor_submitted hmeta h, if_neg hlock]
  have hmark : r.2.markPrices = s.markPrices := rfl
  simp only [placeOrder, hmark, h.found, hreserve, Rests]
  cases hm : s.markPrices.get? request.symbol with
  | none =>
    have hwaits := trigger_waits htrigger (h.marked hm)
    simp [hwaits]
  | some m =>
    simp only [if_true, marketable_eq htrigger, Option.some.injEq]
    refine ⟨fun hrests => if_neg (by simp [hrests]), ?_⟩
    rintro rfl hcross
    exact if_pos hcross

/-- Past the risk outcome and the draw of the engine, an order whose lock fails has failed. -/
theorem placeOrder_unlocked (hmeta : request.metadata.NoReservation)
    (htrigger : request.trigger = some trigger) (h : Meets s request risk amount)
    (hlock : Unlocked s.cash amount) :
    let r := submitted s request risk now
    let failed := update r.2 r.1 .failed risk (some "insufficient_for_reserve") now
    placeOrder r.2 r.1 request risk now = .done failed.1 failed.2 := by
  intro r failed
  have hreserve : reserveFor r.2 r.1 request risk (s.markPrices.get? request.symbol) now =
      ((failed.1, false), failed.2) := by
    rw [reserveFor_submitted hmeta h, if_pos hlock]
  have hmark : r.2.markPrices = s.markPrices := rfl
  simp only [placeOrder, hmark, h.found, hreserve]
  cases hm : s.markPrices.get? request.symbol with
  | none =>
    have hwaits := trigger_waits htrigger (h.marked hm)
    simp [hwaits]
  | some m => rfl

/-- What a request leaves that ends with its submission. -/
abbrev ended (s : PaperState) (request : OrderRequest) (risk : RiskEvaluation) (now : Time)
    (st : OrderStatus) (error : Option String) : Order × PaperState :=
  update (created s request now) (newOrder s request now) st risk error now

/-- A refused request is rejected. -/
theorem prepare_refused (hrefused : Refused cfg risk roll) :
    ∃ error, prepare cfg s request risk roll now =
      .done (ended s request risk now .rejected error).1
        (ended s request risk now .rejected error).2 := by
  by_cases hdecision : risk.decision = .rejected ∨ risk.decision = .halted
  · refine ⟨none, ?_⟩
    rw [prepare_eq]
    simp only [if_pos hdecision]
  · refine ⟨some "insufficient_liquidity", ?_⟩
    rw [prepare_eq]
    simp only [if_neg hdecision, if_pos (hrefused.resolve_left hdecision), update_submitted]

/-- A request whose lock fails has failed. -/
theorem prepare_unlocked (hmeta : request.metadata.NoReservation)
    (htrigger : request.trigger = some trigger) (hrefused : ¬Refused cfg risk roll)
    (h : Meets s request risk amount) (hlock : Unlocked s.cash amount) :
    let r := ended s request risk now .failed (some "insufficient_for_reserve")
    prepare cfg s request risk roll now = .done r.1 r.2 := by
  intro r
  obtain ⟨hdecision, hroll⟩ := not_or.mp hrefused
  rw [prepare_eq]
  simp only [if_neg hdecision, if_neg hroll]
  rw [placeOrder_unlocked hmeta htrigger h hlock, update_submitted]

/-- **A request that is not refused**, and whose lock succeeds, rests, or is executed at a
mark that crosses its trigger. -/
theorem prepare_placed (hmeta : request.metadata.NoReservation)
    (htrigger : request.trigger = some trigger) (hrefused : ¬Refused cfg risk roll)
    (h : Meets s request risk amount) (hlock : ¬Unlocked s.cash amount) :
    let w := placed s request risk amount now
    (Rests s request trigger → prepare cfg s request risk roll now = .done w.1 w.2) ∧
      (s.markPrices.get? request.symbol = some mark →
        triggered request.orderType request.side (some trigger) mark = true →
        prepare cfg s request risk roll now = .execute w.1 w.2 mark) := by
  intro w
  obtain ⟨hdecision, hroll⟩ := not_or.mp hrefused
  rw [prepare_eq]
  simp only [if_neg hdecision, if_neg hroll]
  exact placeOrder_placed hmeta htrigger h hlock

end Paper

end Atlas
