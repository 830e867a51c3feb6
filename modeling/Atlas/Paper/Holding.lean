import Atlas.Paper.Ledger

/-!
# Orders and positions under an effect

What an effect does to the orders and to the positions of the ledger, for the
invariants that are about these alone.  An order stays stored, and stays the same
request.  A position is marked, grows by a bought fill or shrinks by a sold one.

## Main definitions

* `PositionChange s name p` — `p` is what an effect on `s` can make of a position.
* `Named s` — positions carry their own symbol, which an order has.

## Main results

* `Effects.keeps_order` — orders stay stored.
* `Effect.position_change` — **what an effect can do to a position**.
* `submit_orders`, `setMarkPrice_orders`, `Closing.orders` — what
  holds of every stored order, and of the one a submission creates, holds of every
  order after an operation.

## References

`app/execution/paper/engine.py`.
-/

namespace Atlas

namespace Paper

variable {cfg : PaperConfig} {ok : Attempt → Prop} {s s' : PaperState} {order : Order}
  {now : Time}

/-! ### Orders -/

/-- An effect creates an order, sets a mark, or works on one stored order. -/
theorem Effect.works (h : Effect cfg ok s s') :
    (∃ request now, s.idempotencyIndex.get? request.idempotencyKey = none ∧
      s' = created s request now) ∨
    (∃ symbol price, s' = markState s symbol price) ∨
    ∃ order r, Stored s order ∧ Works s order r ∧ s' = r.2 := by
  cases h with
  | create _ request now hkey _ => exact .inl ⟨request, now, hkey, rfl⟩
  | mark _ symbol price => exact .inr (.inl ⟨symbol, price, rfl⟩)
  | status _ order st risk error now hs _ _ =>
    exact .inr (.inr ⟨order, _, hs, update_works st error, rfl⟩)
  | reserve _ order amount now hs _ _ _ _ _ =>
    exact .inr (.inr ⟨order, (reservedOrder order amount now, _), hs, reserved_works amount, rfl⟩)
  | untriggered _ order risk error now hs _ =>
    exact .inr (.inr ⟨order, _, hs, rejectUntriggered_works error hs, rfl⟩)
  | close _ order st now hs _ _ => exact .inr (.inr ⟨order, _, hs, closeOrder_works st hs, rfl⟩)
  | attempt a hp _ =>
    exact .inr (.inr ⟨a.order, a.apply cfg, hp.stored, Attempt.apply_works hp.live_ne, rfl⟩)

/-- Work on one order leaves every order stored as the same request. -/
theorem Works.keeps_order {r : Order × PaperState} {j : Ident} {o : Order} (h : Works s order r)
    (hs : Stored s order) (ho : s.orders.get? j = some o) :
    ∃ o', r.2.orders.get? j = some o' ∧ Order.SameRequest o o' := by
  by_cases hj : order.id = j
  · have horder : some order = some o := by rw [← ho, ← hj]; exact hs.symm
    refine ⟨r.1, ?_, Option.some.inj horder ▸ h.same⟩
    rw [← hj, ← h.same.id]
    exact h.stored
  · exact ⟨o, by rw [h.frame.orders hj, ho], .refl o⟩

/-- A new order takes no other order's place. -/
theorem created_get? {request : OrderRequest} {j : Ident} {o : Order} (hk : Keyed s)
    (ho : s.orders.get? j = some o) : (created s request now).orders.get? j = some o := by
  have hne : (.uuid4 s.nextUuid : Ident) ≠ j := by
    rintro rfl
    rw [hk.get?_next] at ho
    cases ho
  rw [created, Dict.get?_set_ne _ hne, ho]

theorem Effect.keeps_order {j : Ident} {o : Order} (h : Effect cfg ok s s') (hk : Keyed s)
    (ho : s.orders.get? j = some o) :
    ∃ o', s'.orders.get? j = some o' ∧ Order.SameRequest o o' := by
  rcases h.works with ⟨request, now, -, rfl⟩ | ⟨symbol, price, rfl⟩ | ⟨order, r, hs, hw, rfl⟩
  · exact ⟨o, created_get? hk ho, .refl o⟩
  · exact ⟨o, ho, .refl o⟩
  · exact hw.keeps_order hs ho

/-- Orders stay stored, each as the same request. -/
theorem Effects.keeps_order {j : Ident} {o : Order} (h : Effects cfg ok s s') (hk : Keyed s)
    (ho : s.orders.get? j = some o) :
    ∃ o', s'.orders.get? j = some o' ∧ Order.SameRequest o o' := by
  induction h with
  | refl => exact ⟨o, ho, .refl o⟩
  | tail hbefore heff ih =>
    obtain ⟨o₁, ho₁, hsame₁⟩ := ih
    obtain ⟨o₂, ho₂, hsame₂⟩ := heff.keeps_order (Effects.keyed hbefore hk) ho₁
    exact ⟨o₂, ho₂, hsame₁.trans hsame₂⟩

/-! ### Positions -/

/-- What an effect on `s` can make of the position held under `name`. -/
inductive PositionChange (s : PaperState) : String → Position → Prop
  | kept {name : String} {p : Position} (h : s.positions.get? name = some p) :
      PositionChange s name p
  | marked {name : String} {p : Position} (price : ℚ) (h : s.positions.get? name = some p) :
      PositionChange s name
        { p with currentPrice := price, unrealizedPnl := (price - p.entryPrice) * p.quantity }
  | bought (order : Order) (qty price : ℚ) (now : Time) (hs : Stored s order) (hq : 0 < qty) :
      PositionChange s order.symbol
        (boughtPosition (s.positions.get? order.symbol) order qty price now)
  | sold (order : Order) {p : Position} (qty price fee : ℚ) (hs : Stored s order)
      (h : s.positions.get? order.symbol = some p) (hq : qty < p.quantity) :
      PositionChange s order.symbol
        { p with
          quantity := p.quantity - qty
          currentPrice := price
          unrealizedPnl := (price - p.entryPrice) * (p.quantity - qty)
          realizedPnl := p.realizedPnl + realizedBy p qty price fee }

theorem positionChange_of_eq {positions : Dict String Position} {name : String} {p : Position}
    (heq : positions = s.positions) (h : positions.get? name = some p) : PositionChange s name p :=
  .kept (heq ▸ h)

theorem release_positions (amount : Option ℚ) :
    (releaseBuyReservation s order amount now).2.positions = s.positions := by
  rw [releaseBuyReservation_eq]
  split_ifs <;> rfl

theorem Attempt.finish_positions {a : Attempt} (r : Order × PaperState) :
    (a.finish r).2.positions = r.2.positions := by
  simp only [finish]
  split_ifs
  · rfl
  · exact release_positions none

theorem markState_positions {symbol name : String} {price : ℚ} {p : Position}
    (h : (markState s symbol price).positions.get? name = some p) : PositionChange s name p := by
  simp only [markState, markPositions] at h
  cases hold : s.positions.get? symbol with
  | none =>
    rw [hold] at h
    exact .kept h
  | some q =>
    rw [hold] at h
    simp only [Dict.get?_set] at h
    split_ifs at h with hname
    · rw [← Option.some.inj h]
      exact .marked price (hname ▸ hold)
    · exact .kept h

/-- A bought or a sold fill changes the position in the order's symbol. -/
theorem Attempt.apply_positions {a : Attempt} {name : String} {p : Position} (hp : a.Proper)
    (hget : (a.apply cfg).2.positions.get? name = some p) : PositionChange a.state name p := by
  have hfree : (_ ∧ (a.freeing cfg).2.positions = _) ∧ _ := freeing_snd
  have h : a.Outcome cfg (a.apply cfg) := outcome hp.live_ne
  generalize a.apply cfg = r at h hget
  cases h with
  | dust _ => exact .kept hget
  | bought hq _ _ =>
    obtain ⟨m, t, hfst⟩ : ∃ m t, (a.freeing cfg).1 =
        { a.order with metadata := m, updatedAt := t } := freeing_fst
    rw [finish_positions] at hget
    simp only [Attempt.bought, Dict.get?_set, hfree.1.2, hfst] at hget
    split_ifs at hget with hname
    · rw [← Option.some.inj hget, ← hname]
      exact .bought a.order a.fillQty a.price a.now hp.stored hq
    · exact .kept hget
  | insufficient _ _ _ => exact positionChange_of_eq ((release_positions none).trans hfree.1.2) hget
  | sold q hq _ hold hqty =>
    rw [finish_positions] at hget
    simp only [Attempt.sold, soldPositions] at hget
    split_ifs at hget with hzero
    · rw [Dict.get?_erase] at hget
      split_ifs at hget
      exact .kept hget
    · rw [Dict.get?_set] at hget
      split_ifs at hget with hname
      · rw [← Option.some.inj hget, ← hname]
        refine .sold a.order a.fillQty a.price (a.fee cfg) hp.stored hold ?_
        exact lt_of_le_of_ne hqty fun h => hzero (by rw [h, sub_self])
      · exact .kept hget
  | noPosition _ _ _ => exact .kept hget

/-- **What an effect can do to a position.** -/
theorem Effect.position_change {name : String} {p : Position} (h : Effect cfg ok s s')
    (hget : s'.positions.get? name = some p) : PositionChange s name p := by
  cases h with
  | create _ _ _ _ _ => exact .kept hget
  | mark _ symbol price => exact markState_positions hget
  | status _ _ _ _ _ _ _ _ _ => exact .kept hget
  | reserve _ _ _ _ _ _ _ _ _ _ => exact .kept hget
  | untriggered _ _ _ _ _ _ _ => exact positionChange_of_eq (release_positions none) hget
  | close _ _ _ _ _ _ _ => exact positionChange_of_eq (release_positions none) hget
  | attempt a hp _ => exact Attempt.apply_positions hp hget

/-- Positions carry their own symbol, and a stored order has it. -/
def Named (s : PaperState) : Prop :=
  ∀ name p, s.positions.get? name = some p →
    p.symbol = name ∧ ∃ j o, s.orders.get? j = some o ∧ o.symbol = name

/-- Orders that stay stored and positions that change as an effect changes them stay
named. -/
theorem Named.of_changes
    (hkeep : ∀ {j o}, s.orders.get? j = some o →
      ∃ o', s'.orders.get? j = some o' ∧ Order.SameRequest o o')
    (hchange : ∀ {name p}, s'.positions.get? name = some p → PositionChange s name p)
    (hn : Named s) : Named s' := by
  have hkept : ∀ {name}, (∃ j o, s.orders.get? j = some o ∧ o.symbol = name) →
      ∃ j o, s'.orders.get? j = some o ∧ o.symbol = name := by
    rintro name ⟨j, o, ho, hsym⟩
    obtain ⟨o', ho', hsame⟩ := hkeep ho
    exact ⟨j, o', ho', hsame.symbol.trans hsym⟩
  intro name p hget
  cases hchange hget with
  | kept hp => exact ⟨(hn name p hp).1, hkept (hn name p hp).2⟩
  | marked price hp => exact ⟨(hn name _ hp).1, hkept (hn name _ hp).2⟩
  | bought order qty price now hs _ =>
    refine ⟨?_, hkept ⟨order.id, order, hs, rfl⟩⟩
    cases hp : s.positions.get? order.symbol with
    | none => rfl
    | some q => exact (hn _ q hp).1
  | sold order qty price fee hs hp _ => exact ⟨(hn _ _ hp).1, hkept (hn _ _ hp).2⟩

theorem Named.effect (hk : Keyed s) (h : Effect cfg ok s s') (hn : Named s) : Named s' :=
  hn.of_changes (fun ho => h.keeps_order hk ho) fun hget => h.position_change hget

/-! ### Operations -/

/-- Every stored order has the property. -/
def EachOrder (P : Order → Prop) (s : PaperState) : Prop :=
  ∀ j o, s.orders.get? j = some o → P o

/-- A property of orders that a fill and the end of an order keep. -/
structure WorkProperty (cfg : PaperConfig) (P : Order → Prop) : Prop where
  attempt : ∀ a : Attempt, a.Proper → P a.order → P (a.apply cfg).1
  close : ∀ s o st now, P o → P (closeOrder s o st now).1

variable {P : Order → Prop}

/-- A property of the request an order was made from is kept. -/
theorem WorkProperty.of_request (hP : ∀ o o', Order.SameRequest o o' → P o → P o') :
    WorkProperty cfg P where
  attempt := fun _ hp h => hP _ _ (Attempt.apply_works hp.live_ne).same h
  close := fun _ _ _ _ h => hP _ _ ((releaseBuyReservation_sameRequest none).trans
    ⟨rfl, rfl, rfl, rfl, rfl, rfl, rfl⟩) h

theorem Works.orders {r : Order × PaperState} (h : Works s order r) (hnew : P r.1)
    (hall : EachOrder P s) : EachOrder P r.2 :=
  fun _ _ => h.each hnew fun ho => hall _ _ ho

/-- A mark keeps the property of the order it triggers. -/
theorem triggerOne_orders (hP : WorkProperty cfg P) (symbol : String) (mark : ℚ)
    (hs : Stored s order) (hall : EachOrder P s) :
    EachOrder P (triggerOne cfg symbol mark now s order) := by
  rw [triggerOne_eq]
  cases h : restingAttempt cfg symbol mark now s order with
  | none => exact hall
  | some a =>
    obtain ⟨rfl, rfl, hp⟩ := restingAttempt_proper hs h
    have hw : Works a.state a.order (a.apply cfg) := Attempt.apply_works hp.live_ne
    exact hw.orders (hP.attempt a hp (hall _ _ hs)) hall

theorem restingLoop_orders (hP : WorkProperty cfg P) {symbol : String} {mark : ℚ}
    {orders : List Order} : ∀ {s : PaperState}, (orders.map Order.id).Nodup →
      (∀ o ∈ orders, Stored s o) → EachOrder P s →
      EachOrder P (orders.foldl (triggerOne cfg symbol mark now) s) := by
  induction orders with
  | nil => exact fun _ _ hall => hall
  | cons order orders ih =>
    intro s hids hs hall
    obtain ⟨-, hrest⟩ : Effects cfg (fun _ => True) s _ ∧ _ :=
      triggerOne_carries hids hs fun _ _ => trivial
    exact ih (List.nodup_cons.mp hids).2 hrest
      (triggerOne_orders hP symbol mark (hs order (List.mem_cons_self ..)) hall)

theorem setMarkPrice_orders (hP : WorkProperty cfg P) (symbol : String) (price : ℚ) (now : Time)
    (hk : Keyed s) (hall : EachOrder P s) : EachOrder P (setMarkPrice cfg s symbol price now) := by
  have hs : ∀ o ∈ s.orders.values, Stored (markState s symbol price) o :=
    fun o ho => hk.stored_of_mem ho
  exact restingLoop_orders hP hk.values_nodup hs hall

theorem submit_orders {request : OrderRequest} {risk : RiskEvaluation} {roll : ℚ}
    (hall : EachOrder P s) (hnew : P (submitAfterLatency cfg s request risk roll now).1) :
    EachOrder P (submit cfg s request risk roll now).2 := by
  simp only [submit]
  cases hkey : s.idempotencyIndex.get? request.idempotencyKey with
  | some id => exact hall
  | none =>
    have hw : Works (created s request now) (newOrder s request now)
        (submitAfterLatency cfg s request risk roll now) := submitAfterLatency_works ..
    intro j o ho
    by_cases hj : (.uuid4 s.nextUuid : Ident) = j
    · have hid : (submitAfterLatency cfg s request risk roll now).1.id = .uuid4 s.nextUuid :=
        hw.same.id
      have hstored : (submitAfterLatency cfg s request risk roll now).2.orders.get?
          (submitAfterLatency cfg s request risk roll now).1.id = some _ := hw.stored
      rw [← hj, ← hid, hstored, Option.some.injEq] at ho
      exact ho ▸ hnew
    · rw [hw.frame.orders hj, created, Dict.get?_set_ne _ hj] at ho
      exact hall j o ho

theorem Closing.orders {s' : PaperState} (hP : WorkProperty cfg P) (h : Closing s s')
    (hall : EachOrder P s) : EachOrder P s' := by
  cases h with
  | unchanged => exact hall
  | closed order st now hs _ _ =>
    have hw : Works s order (closeOrder s order st now) := closeOrder_works st hs
    exact hw.orders (hP.close s order _ _ (hall _ _ hs)) hall

end Paper

end Atlas
