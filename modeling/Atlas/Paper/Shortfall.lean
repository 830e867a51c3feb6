import Atlas.Paper.Balance
import Atlas.Paper.Pricing

/-!
# What a reservation leaves uncovered

A LIMIT BUY reserves its notional at the limit, and its fills are made at the limit.  A
fill frees its share of what was reserved, at most what remains of it, and costs its
notional and the fee.  The fee was never reserved, so a fill takes it, and whatever the
rounding of the shares leaves over, from the cash that is available when the sweep reaches
the order.  Where that is less the order fails, and its reservation with it.

## Main definitions

* `Order.shortfall` — what the fill costs beyond its share.

## Main results

* `shortfall_whole` — for an order filled at once, the fee and the rounding of its notional.
* `resting_buy_fails_iff` — **when a resting BUY ends as failed.**
* `reservation_insufficient` — one whose reservation has taken all the cash.

## References

`app/execution/paper/engine.py`, `docs/architecture/paper_trading_flow.md`.
-/

namespace Atlas

/-- What a fill of a resting limit order costs beyond its share of the reservation. -/
def Order.shortfall (cfg : PaperConfig) (order : Order) (fillQty price : ℚ) : ℚ :=
  price * fillQty + Paper.fillFee cfg fillQty price true - order.share fillQty

/-- The order holds the whole reservation that was made for its own quantity. -/
structure Order.HoldsWhole (order : Order) (price : ℚ) : Prop where
  quantity_pos : 0 < order.quantity
  price_nonneg : 0 ≤ price
  isOpen : order.Reserving
  notional : order.metadata.reservedNotional = some (quantize8 (order.quantity * price))
  remaining : order.metadata.reservedRemaining = some (quantize8 (order.quantity * price))

namespace Paper

open Quantize

variable {cfg : PaperConfig} {s : PaperState} {order : Order} {mark price : ℚ} {now : Time}
  {marks : Dict String ℚ}

/-- What is missing for an order that is filled at once, out of the reservation made for
its own quantity: the fee, and the rounding of its notional. -/
theorem shortfall_whole (h : order.HoldsWhole price) :
    order.shortfall cfg order.quantity price =
      fillFee cfg order.quantity price true +
        (order.quantity * price - quantize8 (order.quantity * price)) := by
  have hshare : order.share order.quantity = quantize8 (order.quantity * price) := by
    have hres : order.reservation = quantize8 (order.quantity * price) := by
      rw [Order.reservation, if_pos h.isOpen, h.remaining, Option.getD_some]
    have hnonneg : 0 ≤ quantize8 (order.quantity * price) :=
      quantize8_nonneg (mul_nonneg h.quantity_pos.le h.price_nonneg)
    have hagain : quantize8 (quantize8 (order.quantity * price)) =
        quantize8 (order.quantity * price) :=
      quantize_intCast_mul quantum8_pos.ne' _
    simp only [Order.share, h.notional, Option.getD_some, hres, h.quantity_pos, and_true]
    split_ifs with hpos
    · rw [mul_div_assoc, div_self h.quantity_pos.ne', mul_one, hagain, min_self]
    · exact le_antisymm hnonneg (not_lt.mp hpos)
  rw [Order.shortfall, hshare]
  ring

/-- **When a resting BUY ends as failed.**  In every state reached, a mark ends an open
LIMIT BUY as failed exactly when it crosses the limit and the cash available at the turn of
the order is less than what its fill costs beyond the share of its reservation that it
frees.  For an order filled at once, out of the reservation made for its own quantity, that
is the fee and the rounding of its notional. -/
theorem resting_buy_fails_iff (h : Reached cfg (fun _ => True) marks s) (hs : Stored s order)
    (hrests : order.Resting) (hside : order.side = .buy) (hlimit : order.orderType = .limit)
    (hprice : order.price = some price) (mark : ℚ) (now : Time) :
    let fillQty := restingQty cfg (order.quantity - order.filledQuantity)
    (∃ o, (setMarkPrice cfg s order.symbol mark now).orders.get? order.id = some o ∧
      (o.status = .failed ↔ mark ≤ price ∧
        ∃ a, turn cfg s order.symbol mark now order = some a ∧
          a.state.cash < order.shortfall cfg fillQty price)) ∧
      (fillQty = order.quantity → order.HoldsWhole price →
        order.shortfall cfg fillQty price = fillFee cfg order.quantity price true +
          (order.quantity * price - quantize8 (order.quantity * price))) := by
  intro fillQty
  refine ⟨?_, fun hall hwhole => by rw [hall, shortfall_whole hwhole]⟩
  have hk : Keyed s := h.keyed
  rcases turn_cases cfg hk hs order.symbol mark now with ⟨-, hnone, hkeep⟩ | ⟨a, ha, hturn⟩
  · -- the fraction rounds to nothing, and the order rests on
    refine ⟨order, hkeep, ?_⟩
    have hlive : order.status ≠ .failed := by
      rcases hrests.1 with h | h <;> simp [h]
    simp [hlive, hnone]
  · refine ⟨_, hturn.left, ?_⟩
    obtain ⟨horder, hfill, -, hfillPrice, hmaker⟩ := hturn.attempt
    have hcross : mark ≤ price := by
      have hcrosses : crosses order mark = true := (restingFill_crosses hfill).2
      simpa [crosses, hlimit, hprice, hside] using hcrosses
    obtain ⟨-, -, hpos, hq⟩ := restingFill_eq_some cfg hfill
    have hb : Backed a.state := hturn.reached.invariant Backed.effect hk h.backed
    have hfreed : a.freed = order.share a.fillQty := by
      rw [← horder]
      exact Attempt.freed_eq_share hb hturn.proper.stored hpos.le
    have hatLimit : a.price = price := by
      rw [hfillPrice, hlimit, hprice, fillPrice]
    have hcost : a.cost cfg = price * a.fillQty + fillFee cfg a.fillQty price true := by
      rw [Attempt.cost, Attempt.fee, hatLimit, hmaker, decide_eq_true hlimit]
    rw [Attempt.apply_failed_iff hturn.proper.live_ne]
    simp only [ha, Option.some.injEq, exists_eq_left', Attempt.Covered, horder, hside,
      or_iff_right (not_le.mpr hpos), hpos, true_and, not_le, hcost, hfreed, hcross, fillQty, ← hq]
    exact lt_sub_iff_add_lt.symm

/-- A mark of 90 does not fail a BUY of one unit at 100: the cash covers the fee. -/
theorem resting_buy_fails_iff_covered :
    ∃ order, (limitRests {}).orders.get? (.uuid4 0) = some order ∧
      ∃ o, (setMarkPrice {} (limitRests {}) order.symbol 90 0).orders.get? order.id = some o ∧
        o.status ≠ .failed := by
  let order := ((limitRests {}).orders.get? (.uuid4 0)).get (by decide +kernel)
  have hok : RunOk {} (fun _ => True) (markAt 110) [limitOrder .buy "a" 1 100] := by
    decide +kernel
  have hreached : Reached {} (fun _ => True) (markAt 110) (limitRests {}) := Reached.run hok
  have hs : Stored (limitRests {}) order := by unfold Stored; decide +kernel
  have hprice : order.price = some 100 := by decide +kernel
  obtain ⟨⟨o, ho, hiff⟩, -⟩ := resting_buy_fails_iff hreached hs (by decide +kernel)
    (by decide +kernel) (by decide +kernel) hprice 90 0
  refine ⟨order, (Option.some_get _).symm, o, ho, fun hfailed => ?_⟩
  obtain ⟨-, a, ha, hcash⟩ := hiff.mp hfailed
  have hcovered : (turn {} (limitRests {}) order.symbol 90 0 order).all
      (fun a => decide (order.shortfall {} 1 100 ≤ a.state.cash)) = true := by decide +kernel
  rw [ha, Option.all_some, decide_eq_true_eq] at hcovered
  have hwhole : restingQty {} (order.quantity - order.filledQuantity) = 1 := by decide +kernel
  rw [hwhole] at hcash
  exact absurd hcovered (not_le.mpr hcash)

/-- **A reservation that has taken all the cash.**  A LIMIT BUY of 100 units at 100 reserves
the 10000 there are; the mark falls to 90, and the fee of 10 ends the order as failed. -/
theorem reservation_insufficient :
    let s := run {} (markAt 110) [limitOrder .buy "a" 100 100]
    Reached {} (fun _ => True) (markAt 110) s ∧
      ∃ order, s.orders.get? (.uuid4 0) = some order ∧ order.Resting ∧ order.Reserving ∧
        order.side = .buy ∧ order.orderType = .limit ∧ order.price = some 100 ∧
        ((setMarkPrice {} s order.symbol 90 0).orders.get? order.id).map Order.status =
          some .failed := by
  intro s
  have hok : RunOk {} (fun _ => True) (markAt 110) [limitOrder .buy "a" 100 100] := by
    decide +kernel
  refine ⟨Reached.run hok, (s.orders.get? (.uuid4 0)).get (by decide +kernel),
    (Option.some_get _).symm, ?_⟩
  decide +kernel

end Paper

end Atlas
