import Atlas.Paper.Booking

/-!
# The prices of fills

A fill is never better than the mark: a purchase is filled at the mark or above it and
a sale at the mark or below it.  A market order, a triggered stop and a triggered
take-profit pay the half spread and the slippage; a limit order is filled at its limit,
but only once the mark has crossed it.

## Main definitions

* `PaperConfig.Costly` — fees, spread and slippage are costs.
* `Order.Priced`, `OrderRequest.Priced` — the price, where there is one, is positive.
* `Attempt.Fair` — the fill is no better than the mark.

## Main results

* `fillPrice_buy`, `fillPrice_sell` — the price of a fill against the mark.
* `immediateAttempt_fair`, `restingAttempts_fair` — the attempts of a submission and of
  a mark are fair.

## References

`app/execution/paper/engine.py`.
-/

namespace Atlas

/-- Fees, spread and slippage are costs, and a sale keeps a part of its price. -/
structure PaperConfig.Costly (cfg : PaperConfig) : Prop where
  fee : ∀ isMaker, 0 ≤ Paper.feeRateFor cfg isMaker
  spread : 0 ≤ cfg.spreadRate
  slippage : 0 ≤ cfg.slippageRate
  kept : cfg.spreadRate / 2 + cfg.slippageRate ≤ 1

/-- The price of a request, where it has one, is positive. -/
def OrderRequest.Priced (request : OrderRequest) : Prop := ∀ p, request.price = some p → 0 < p

/-- The price of an order, where it has one, is positive. -/
def Order.Priced (order : Order) : Prop := ∀ p, order.price = some p → 0 < p

instance (request : OrderRequest) : Decidable request.Priced :=
  decidable_of_iff (∀ p ∈ request.price, 0 < p) Iff.rfl

namespace Paper

variable {cfg : PaperConfig} {s : PaperState} {order : Order} {risk : RiskEvaluation} {now : Time}

/-- The fill is no better than the mark of its symbol. -/
def Attempt.Fair (a : Attempt) : Prop :=
  ∃ mark, a.state.markPrices.get? a.order.symbol = some mark ∧
    match a.order.side with
    | .buy => 0 ≤ mark ∧ mark ≤ a.price
    | .sell => 0 ≤ a.price ∧ a.price ≤ mark

/-- A limit order that is filled at `mark` has been crossed by it. -/
def LimitCrossed (orderType : OrderType) (side : OrderSide) (price : Option ℚ) (mark : ℚ) : Prop :=
  orderType = .limit → ∀ p, price = some p →
    0 < p ∧ (side = .buy → mark ≤ p) ∧ (side = .sell → p ≤ mark)

/-! ### The price of a fill -/

/-- A price that is not a limit adds the half spread and the slippage to the mark, or
takes them from it. -/
theorem fillPrice_cases (cfg : PaperConfig) (mark : ℚ) (orderType : OrderType) (side : OrderSide)
    (price : Option ℚ) :
    (∃ p, orderType = .limit ∧ price = some p ∧
        fillPrice cfg mark orderType side price = p) ∨
      fillPrice cfg mark orderType side price =
        match side with
        | .buy => mark + mark * (cfg.spreadRate / 2 + cfg.slippageRate)
        | .sell => mark - mark * (cfg.spreadRate / 2 + cfg.slippageRate) := by
  cases orderType with
  | limit =>
    cases price with
    | some p => exact .inl ⟨p, rfl, rfl, rfl⟩
    | none => right; cases side <;> simp only [fillPrice] <;> ring
  | market => right; cases side <;> simp only [fillPrice] <;> ring
  | stopLoss => right; cases side <;> simp only [fillPrice] <;> ring
  | takeProfit => right; cases side <;> simp only [fillPrice] <;> ring

theorem fillPrice_buy {mark : ℚ} {orderType : OrderType} {price : Option ℚ} (hcfg : cfg.Costly)
    (hmark : 0 ≤ mark) (hlimit : LimitCrossed orderType .buy price mark) :
    mark ≤ fillPrice cfg mark orderType .buy price := by
  rcases fillPrice_cases cfg mark orderType .buy price with ⟨p, htype, hp, heq⟩ | heq
  · rw [heq]
    exact (hlimit htype p hp).2.1 rfl
  · have hcost : 0 ≤ mark * (cfg.spreadRate / 2 + cfg.slippageRate) :=
      mul_nonneg hmark (add_nonneg (div_nonneg hcfg.spread zero_le_two) hcfg.slippage)
    rw [heq]
    exact le_add_of_nonneg_right hcost

theorem fillPrice_sell {mark : ℚ} {orderType : OrderType} {price : Option ℚ} (hcfg : cfg.Costly)
    (hmark : 0 ≤ mark) (hlimit : LimitCrossed orderType .sell price mark) :
    0 ≤ fillPrice cfg mark orderType .sell price ∧
      fillPrice cfg mark orderType .sell price ≤ mark := by
  rcases fillPrice_cases cfg mark orderType .sell price with ⟨p, htype, hp, heq⟩ | heq
  · rw [heq]
    exact ⟨(hlimit htype p hp).1.le, (hlimit htype p hp).2.2 rfl⟩
  · have hcost : 0 ≤ mark * (cfg.spreadRate / 2 + cfg.slippageRate) :=
      mul_nonneg hmark (add_nonneg (div_nonneg hcfg.spread zero_le_two) hcfg.slippage)
    have hkept : mark * (cfg.spreadRate / 2 + cfg.slippageRate) ≤ mark :=
      mul_le_of_le_one_right hmark hcfg.kept
    rw [heq]
    exact ⟨sub_nonneg.mpr hkept, sub_le_self mark hcost⟩

/-- A fill at a mark that has crossed its limit is fair. -/
theorem Attempt.fair_of_mark {a : Attempt} {mark : ℚ} {orderType : OrderType} {price : Option ℚ}
    (hcfg : cfg.Costly) (hget : a.state.markPrices.get? a.order.symbol = some mark)
    (hmark : 0 ≤ mark) (hprice : a.price = fillPrice cfg mark orderType a.order.side price)
    (hlimit : LimitCrossed orderType a.order.side price mark) : a.Fair := by
  refine ⟨mark, hget, ?_⟩
  rw [hprice]
  cases hside : a.order.side with
  | buy =>
    rw [hside] at hlimit
    exact ⟨hmark, fillPrice_buy hcfg hmark hlimit⟩
  | sell =>
    rw [hside] at hlimit
    exact fillPrice_sell hcfg hmark hlimit

/-! ### The immediate execution -/

/-- An order that passes the trigger tests at `mark` is executed there. -/
theorem marketable_execute {request : OrderRequest} {mark m : ℚ} {o : Order} {s' : PaperState}
    (hpriced : request.Priced)
    (h : marketable s order request risk mark now = .execute o s' m) :
    m = mark ∧ LimitCrossed request.orderType request.side request.price mark := by
  have hother : request.orderType ≠ .limit →
      LimitCrossed request.orderType request.side request.price mark := fun hne htype =>
    absurd htype hne
  cases htype : request.orderType with
  | market =>
    simp only [marketable, htype, Prepared.execute.injEq] at h
    exact ⟨h.2.2.symm, htype ▸ hother (by simp [htype])⟩
  | limit =>
    simp only [marketable, htype] at h
    cases hp : request.price with
    | none =>
      simp only [hp, Prepared.execute.injEq] at h
      exact ⟨h.2.2.symm, by rintro - p ⟨⟩⟩
    | some price =>
      simp only [hp] at h
      split_ifs at h with hbuy hsell
      rw [Prepared.execute.injEq] at h
      refine ⟨h.2.2.symm, ?_⟩
      rintro - p ⟨⟩
      exact ⟨hpriced _ hp, fun hside => not_lt.mp fun hlt => hbuy ⟨hside, hlt⟩,
        fun hside => not_lt.mp fun hlt => hsell ⟨hside, hlt⟩⟩
  | stopLoss | takeProfit =>
    refine ⟨?_, htype ▸ hother (by simp [htype])⟩
    simp only [marketable, htype] at h
    split at h
    · simp [rejectUntriggered] at h
    · split_ifs at h
      rw [Prepared.execute.injEq] at h
      exact h.2.2.symm

/-- A submission whose symbol has a mark is executed at that mark. -/
theorem placeOrder_execute {request : OrderRequest} {mark m : ℚ} {o : Order} {s' : PaperState}
    (hpriced : request.Priced) (hget : s.markPrices.get? request.symbol = some mark)
    (h : placeOrder s order request risk now = .execute o s' m) :
    m = mark ∧ LimitCrossed request.orderType request.side request.price mark := by
  simp only [placeOrder, hget, Option.isNone_some, Bool.false_eq_true, false_and, if_false] at h
  split_ifs at h
  exact marketable_execute hpriced h

theorem prepare_execute {request : OrderRequest} {roll mark m : ℚ} {o : Order} {s' : PaperState}
    (hpriced : request.Priced) (hget : s.markPrices.get? request.symbol = some mark)
    (h : prepare cfg s request risk roll now = .execute o s' m) :
    m = mark ∧ LimitCrossed request.orderType request.side request.price mark := by
  simp only [prepare] at h
  split_ifs at h
  -- the statuses set on the way leave the marks alone
  refine placeOrder_execute hpriced ?_ h
  exact hget

/-- **The immediate execution is fair.** -/
theorem submitAttempts_fair {request : OrderRequest} {roll mark : ℚ} (hcfg : cfg.Costly)
    (hpriced : request.Priced) (hget : s.markPrices.get? request.symbol = some mark)
    (hmark : 0 ≤ mark) : ∀ a ∈ submitAttempts cfg s request risk roll now, a.Fair := by
  intro a ha
  cases h : prepare cfg s request risk roll now with
  | done o s' => simp [submitAttempts, h] at ha
  | execute o s' m =>
    simp only [submitAttempts, h, List.mem_singleton] at ha
    obtain ⟨rfl, hlimit⟩ := prepare_execute hpriced hget h
    obtain ⟨hworks, -⟩ : Works _ _ (prepare cfg s request risk roll now).result ∧ _ :=
      prepare_works s request risk roll now
    rw [h] at hworks
    have hsymbol : o.symbol = request.symbol := hworks.same.symbol
    have hside : o.side = request.side := hworks.same.side
    have hmarks : s'.markPrices = s.markPrices := hworks.frame.marks
    subst ha
    refine Attempt.fair_of_mark hcfg ?_ hmark ?_ (hside ▸ hlimit)
    · simp only [immediateAttempt, hsymbol, hmarks, hget]
    · simp only [immediateAttempt, hside]

/-! ### Resting orders -/

/-- A mark that triggers an order has crossed its limit. -/
theorem crosses_limit {mark : ℚ} (hpriced : order.Priced) (h : crosses order mark = true) :
    LimitCrossed order.orderType order.side order.price mark := by
  intro htype p hp
  refine ⟨hpriced p hp, fun hside => ?_, fun hside => ?_⟩ <;>
    simpa [crosses, htype, hp, hside] using h

theorem restingFill_crosses {symbol : String} {mark fillQty : ℚ}
    (h : restingFill cfg order symbol mark = some fillQty) :
    order.symbol = symbol ∧ crosses order mark = true := by
  simp only [restingFill] at h
  split at h
  · next hc => exact ⟨hc.1, hc.2.2.2.1⟩
  · cases h

/-- **The attempts of a mark are fair.**  The loop changes no mark, so each attempt is
made at the mark the loop was started for. -/
theorem restingAttempts_fair {symbol : String} {mark : ℚ} (hcfg : cfg.Costly) (hmark : 0 ≤ mark)
    {orders : List Order} : ∀ {s : PaperState}, (orders.map Order.id).Nodup →
      (∀ o ∈ orders, Stored s o) → (∀ o ∈ orders, o.Priced) →
      s.markPrices.get? symbol = some mark →
      ∀ a ∈ restingAttempts cfg symbol mark now s orders, a.Fair := by
  induction orders with
  | nil => exact fun _ _ _ _ _ ha => by cases ha
  | cons order orders ih =>
    intro s hids hs hpriced hget a ha
    have hso : Stored s order := hs order (List.mem_cons_self ..)
    rcases List.mem_append.mp ha with hnow | hlater
    · rw [Option.mem_toList] at hnow
      obtain ⟨fillQty, hfill, rfl⟩ := Option.map_eq_some_iff.mp hnow
      obtain ⟨hsymbol, hcross⟩ := restingFill_crosses hfill
      refine Attempt.fair_of_mark hcfg (hsymbol ▸ hget) hmark rfl ?_
      exact crosses_limit (hpriced order (List.mem_cons_self ..)) hcross
    · obtain ⟨o, hworks⟩ : ∃ o, Works s order (o, triggerOne cfg symbol mark now s order) :=
        triggerOne_works symbol mark hso
      obtain ⟨-, hrest⟩ : Effects cfg (fun _ => True) s _ ∧ _ :=
        triggerOne_carries hids hs fun _ _ => trivial
      refine ih (List.nodup_cons.mp hids).2 hrest
        (fun o ho => hpriced o (List.mem_cons_of_mem _ ho)) ?_ a hlater
      rw [hworks.frame.marks]
      exact hget

end Paper

end Atlas
