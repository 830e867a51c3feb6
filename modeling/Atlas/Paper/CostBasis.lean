import Atlas.Paper.Solvency

/-!
# Cost basis is conserved

What the account holds at cost is what it started with, what its sales realized, less
the fees of its purchases.  A purchase turns cash into a position at its price and pays
its fee beside it; a sale takes the position out at its entry price and counts the rest,
fee included, as profit.  The entry price of a position is the mean of what was paid,
weighted by quantity, so that a purchase adds exactly its notional to the cost.

## Main definitions

* `costBasis s` — the positions at their entry prices.
* `buyFees s` — the fees of the BUY orders.
* `CostConserved C s` — the balance of the two with cash, reservations and profit.

## Main results

* `boughtPosition_cost`, `soldPositions_cost` — what a fill does to the cost.
* `cost_basis_conserved` — **the balance holds in every state reached**.

## References

`app/execution/paper/engine.py`.
-/

namespace Atlas

/-- What a position cost. -/
def Position.cost (p : Position) : ℚ := p.entryPrice * p.quantity

/-- The fees an order has paid, if it buys. -/
def Order.buyFees (order : Order) : ℚ := if order.side = .buy then order.fees else 0

namespace Paper

variable {cfg : PaperConfig} {T : Terms} {s s' : PaperState} {order : Order} {C : ℚ}

/-- The positions at their entry prices. -/
def costBasis (s : PaperState) : ℚ := s.positions.sum Position.cost

/-- The fees of the BUY orders of the ledger. -/
def buyFees (s : PaperState) : ℚ := s.orders.sum Order.buyFees

/-- **What the account holds at cost** is the initial cash and the realized profit, less
the fees of the purchases. -/
def CostConserved (C : ℚ) (s : PaperState) : Prop :=
  s.cash + s.reservedCash + costBasis s = C + s.realizedPnl - buyFees s

/-! ### Positions -/

/-- A purchase adds its notional to the cost of the position. -/
theorem boughtPosition_cost (existing : Option Position) (order : Order) {qty : ℚ} (price : ℚ)
    (now : Time) (hq : 0 < qty) (hold : ∀ p, existing = some p → 0 < p.quantity) :
    (boughtPosition existing order qty price now).cost =
      existing.elim 0 Position.cost + price * qty := by
  cases existing with
  | none => simp [boughtPosition, Position.cost]
  | some p =>
    have hpos : p.quantity + qty ≠ 0 := (add_pos (hold p rfl) hq).ne'
    simp only [boughtPosition, Position.cost, Option.elim]
    rw [div_mul_cancel₀ _ hpos]

/-- A sale takes its quantity out at the entry price. -/
theorem soldPositions_cost {positions : Dict String Position} {symbol : String} {p : Position}
    (hp : positions.get? symbol = some p) (qty price fee : ℚ) :
    (soldPositions positions symbol p qty price fee).sum Position.cost =
      positions.sum Position.cost - p.entryPrice * qty := by
  simp only [soldPositions]
  split_ifs with hzero
  · have hall : p.quantity = qty := sub_eq_zero.mp hzero
    rw [Dict.sum_erase, hp, Option.elim, Position.cost, hall]
  · rw [Dict.sum_set, hp]
    simp only [Option.elim, Position.cost]
    ring

/-- A mark changes no cost. -/
theorem markPositions_cost (positions : Dict String Position) (symbol : String) (price : ℚ) :
    (markPositions positions symbol price).sum Position.cost = positions.sum Position.cost := by
  simp only [markPositions]
  cases hp : positions.get? symbol with
  | none => rfl
  | some p =>
    rw [Dict.sum_set, hp]
    simp [Position.cost]

/-! ### Bookings -/

/-- Work on one order changes the fees of the purchases by what its own change. -/
theorem Works.buyFees {r : Order × PaperState} (h : Works s order r) (hs : Stored s order) :
    buyFees r.2 = buyFees s - order.buyFees + r.1.buyFees := by
  have hstored : r.2.orders.get? order.id = some r.1 := h.same.id ▸ h.stored
  unfold Paper.buyFees
  rw [Dict.sum_of_ne Order.buyFees h.frame.orders hstored,
    show s.orders.get? order.id = some order from hs, Option.elim]

/-- The totals of an order fix the fees it counts. -/
theorem buyFees_of_totals {o o' : Order} {t : Totals} {x : ℚ} (hside : o'.side = o.side)
    (ht : o'.totals = t) (ho : o.totals.fees + x = t.fees) :
    o'.buyFees = o.buyFees + if o.side = .buy then x else 0 := by
  have hfees : o'.fees = o.fees + x := by
    rw [show o'.fees = o'.totals.fees from rfl, ht, ← ho]
    rfl
  unfold Order.buyFees
  rw [hside, hfees]
  split_ifs <;> simp

/-- A part of the engine that books nothing keeps the balance. -/
theorem CostConserved.sameBooks {r : Order × PaperState} (h : CostConserved C s)
    (hs : Stored s order) (hw : Works s order r) (hb : SameBooks s order r) :
    CostConserved C r.2 := by
  have hfees : r.1.buyFees = order.buyFees := by
    have heq := buyFees_of_totals (x := 0) hw.same.side hb.totals (add_zero _)
    simpa using heq
  unfold CostConserved costBasis at *
  rw [hb.capital, hb.positions, hb.realized, hw.buyFees hs, hfees, h]
  ring

/-- **An attempt keeps the balance**: what it takes from one term it adds to another. -/
theorem CostConserved.attempt {a : Attempt} (hp : a.Proper) (hl : LongOnly a.state)
    (h : CostConserved C a.state) : CostConserved C (a.apply cfg).2 := by
  have hw : Works a.state a.order (a.apply cfg) := Attempt.apply_works hp.live_ne
  have hbooked : a.Booked cfg (a.apply cfg) := Attempt.apply_booked hp.live_ne
  generalize a.apply cfg = r at hw hbooked ⊢
  cases hbooked with
  | refused books _ => exact h.sameBooks hp.stored hw books
  | bought hq hside _ hcapital hpositions hrealized htotals _ =>
    have hfees : r.1.buyFees = a.order.buyFees + a.fee cfg := by
      have heq := buyFees_of_totals (x := a.fee cfg) hw.same.side htotals rfl
      simpa [hside] using heq
    -- the price moves from the cash into the cost of the position, the fee into the fees
    have hcost := boughtPosition_cost (a.state.positions.get? a.order.symbol) a.order a.price a.now
      hq fun p hget => hl _ p hget
    unfold CostConserved costBasis at *
    rw [hcapital, hpositions, Dict.sum_set, hcost, hrealized, hw.buyFees hp.stored, hfees,
      Attempt.cost]
    linarith
  | sold p hq hside hget _ _ hcapital hpositions hrealized htotals _ =>
    -- a sale pays its fee from what it realizes
    have hfees : r.1.buyFees = a.order.buyFees := by
      have heq := buyFees_of_totals (x := a.fee cfg) hw.same.side htotals rfl
      simpa [hside] using heq
    unfold CostConserved costBasis at *
    rw [hcapital, hpositions, soldPositions_cost hget, hrealized, hw.buyFees hp.stored, hfees,
      realizedBy]
    linarith

/-- **One booking keeps the balance.** -/
theorem CostConserved.booking (hk : Keyed s) (hb : Booking cfg T s s')
    (h : CostConserved C s ∧ LongOnly s) : CostConserved C s' ∧ LongOnly s' := by
  refine ⟨?_, hb.longOnly h.2⟩
  cases hb with
  | create _ request now _ _ =>
    -- a new order has paid no fee
    have hnew : (newOrder s request now).buyFees = 0 := by
      unfold Order.buyFees
      split_ifs <;> rfl
    have hfees : buyFees (created s request now) = buyFees s := by
      simp only [buyFees, created, Dict.sum_set, hk.get?_next, Option.elim, hnew]
      ring
    have hold : s.cash + s.reservedCash + costBasis s = C + s.realizedPnl - buyFees s := h.1
    rw [← hfees] at hold
    exact hold
  | mark _ symbol price _ =>
    have hcost : costBasis (markState s symbol price) = costBasis s := markPositions_cost ..
    have hold : s.cash + s.reservedCash + costBasis s = C + s.realizedPnl - buyFees s := h.1
    rw [← hcost] at hold
    exact hold
  | idle _ order r hs _ hidle => exact h.1.sameBooks hs hidle.toWorks hidle.books
  | attempt a hp _ => exact h.1.attempt hp h.2

/-- **Cost basis is conserved.**  In every state a run reaches from the initial cash, with
any marks and requests, cash, reservations and the positions at cost make up the initial
cash and the realized profit, less the fees of the BUY orders. -/
theorem cost_basis_conserved {marks : Dict String ℚ} (h : Admitted cfg anyTerms marks s) :
    s.cash + s.reservedCash + (s.positions.sum fun p => p.entryPrice * p.quantity) =
      cfg.initialCash + s.realizedPnl -
        s.orders.sum fun o => if o.side = .buy then o.fees else 0 := by
  have hI : CostConserved cfg.initialCash s ∧ LongOnly s :=
    h.invariant ⟨by simp [CostConserved, costBasis, buyFees, Paper.fresh, EmptyCollection.emptyCollection],
      LongOnly.fresh marks⟩ CostConserved.booking
  exact hI.1

/-- Two purchases at different marks and a sale of part of the position. -/
theorem cost_basis_conserved_two_purchases :
    let ops : List Op :=
      [marketOrder .buy "a" 2, .setMarkPrice "BTC/USDT" 130 0, marketOrder .buy "b" 1,
        marketOrder .sell "c" 2]
    let s := run {} (markAt 100) ops
    s.fills.length = 3 ∧ s.realizedPnl ≠ 0 ∧
      s.cash + s.reservedCash + (s.positions.sum fun p => p.entryPrice * p.quantity) =
        10000 + s.realizedPnl - s.orders.sum fun o => if o.side = .buy then o.fees else 0 := by
  intro ops s
  have hok : RunMeets {} anyTerms (markAt 100) ops := by decide +kernel
  exact ⟨by decide +kernel, by decide +kernel, cost_basis_conserved (Admitted.run hok)⟩

end Paper

end Atlas
