import Atlas.Paper.Balance
import Atlas.Paper.Placement

/-!
# Orders that rest, and orders that do not

The engine tests in two places whether a mark crosses the trigger of an order: `submit`
tests the request, and the sweep tests the stored order.  The request names its trigger in
`price`, or for a stop or a take profit in a field of its own; the stored order keeps
`price` alone.  And `submit` rounds the quantity it fills to eight decimals, while the
sweep fills all that is left.

So an order that rests until the mark crosses its trigger comes to the same as one that is
submitted at that mark, if the mark crosses the price of the request itself, and the
quantity has eight decimals; or if both come to nothing.

An order that rests has locked its cash before the mark fills the earlier orders.  The two
ledgers still agree but for the lock, if none of these is paid for out of it.

## Main definitions

* `Agree` — what the two ledgers and the two orders agree in.
* `Covers` — the ledger covers a fill of the request.
* `BothFill`, `RestingFails`, `ImmediateFails` — what the two orders come to.
* `LockSpared` — the mark fills no earlier order out of the lock.

## Main results

* `resting_ends`, `immediate_ends` — what becomes of the order in each of the two ways.
* `resting_agrees_iff` — **when resting and immediate orders agree.**
* `stop_never_triggers` — a stop whose trigger is not its price.

## References

`app/execution/paper/engine.py`.
-/

namespace Atlas

namespace Paper

open Quantize

variable {cfg : PaperConfig} {s t : PaperState} {request : OrderRequest} {risk : RiskEvaluation}
  {trigger mark roll cash amount : ℚ} {now now' : Time} {marks : Dict String ℚ}

/-! ### The order and its ledger -/

/-- The order of a key. -/
def orderOf (s : PaperState) (key : String) : Option Order :=
  (s.idempotencyIndex.get? key).bind s.orders.get?

/-- What became of the order of a key: its status, what is filled of it, and at what price. -/
def resultOf (s : PaperState) (key : String) : Option (OrderStatus × ℚ × Option ℚ) :=
  (orderOf s key).map fun order => (order.status, order.filledQuantity, order.averageFillPrice)

/-- The order of the key came to the same in both ledgers, and so did the balance. -/
structure Agree (key : String) (s s' : PaperState) : Prop where
  result : resultOf s' key = resultOf s key
  balance : SameBalance s s'

/-- The order of the key in the two ledgers. -/
theorem agree_iff {key : String} {s s' : PaperState} {o o' : Order}
    (ho : orderOf s key = some o) (ho' : orderOf s' key = some o') :
    Agree key s s' ↔ (o'.status = o.status ∧ o'.filledQuantity = o.filledQuantity ∧
      o'.averageFillPrice = o.averageFillPrice) ∧ SameBalance s s' := by
  have hresult : resultOf s' key = resultOf s key ↔ o'.status = o.status ∧
      o'.filledQuantity = o.filledQuantity ∧ o'.averageFillPrice = o.averageFillPrice := by
    simp [resultOf, ho, ho']
  rw [← hresult]
  exact ⟨fun h => ⟨h.result, h.balance⟩, fun h => ⟨h.1, h.2⟩⟩

theorem orderOf_eq {key : String} {id : Ident} {o : Order}
    (hindex : s.idempotencyIndex.get? key = some id) (ho : s.orders.get? id = some o) :
    orderOf s key = some o := by
  rw [orderOf, hindex]
  exact ho

/-- The order has come to nothing: the balance is that of `t`. -/
structure Ends (st : OrderStatus) (t : PaperState) (o : Order) (w : PaperState) : Prop where
  status : o.status = st
  totals : o.totals = ⟨0, 0, none⟩
  balance : SameBalance t w

/-- Two orders that come to nothing agree. -/
theorem Ends.agree {key : String} {st : OrderStatus} {w w' : PaperState} {o o' : Order}
    (h : Ends st t o w) (h' : Ends st t o' w') (ho : orderOf w key = some o)
    (ho' : orderOf w' key = some o') : Agree key w w' := by
  have htotals : o'.totals = o.totals := h'.totals.trans h.totals.symm
  exact (agree_iff ho ho').mpr ⟨⟨h'.status.trans h.status.symm, congrArg Totals.filled htotals,
    congrArg Totals.average htotals⟩, h.balance.symm.trans h'.balance⟩

/-- A new order is the last one in the sweep. -/
theorem setMarkPrice_last {t : PaperState} {o : Order} (hk : Keyed s)
    (horders : t.orders = s.orders.set (.uuid4 s.nextUuid) o) (symbol : String) :
    setMarkPrice cfg t symbol mark now = triggerOne cfg symbol mark now
      (s.orders.values.foldl (triggerOne cfg symbol mark now) (markState t symbol mark)) o := by
  have hvalues : t.orders.values = s.orders.values ++ [o] := by
    rw [horders, Dict.values_set_of_get?_none hk.get?_next]
  show t.orders.values.foldl (triggerOne cfg symbol mark now) (markState t symbol mark) = _
  rw [hvalues, List.foldl_append]
  rfl

/-! ### The two fills -/

/-- The ledger covers a fill of the request: its cash pays for it, but for the part of the
lock that stays with the rest of the order, or its position delivers it. -/
def Covers (cfg : PaperConfig) (t : PaperState) (request : OrderRequest)
    (amount mark fillQty : ℚ) : Prop :=
  let price := fillPrice cfg mark request.orderType request.side request.price
  let freed :=
    if 0 < amount then min (quantize8 (amount * fillQty / request.quantity)) amount else 0
  match request.side with
  | .buy => price * fillQty + fillFee cfg fillQty price (request.orderType = .limit) ≤
      t.cash - max amount 0 + freed
  | .sell => fillQty ≤ held t request.symbol

instance (fillQty : ℚ) : Decidable (Covers cfg t request amount mark fillQty) := by
  unfold Covers
  cases request.side <;> infer_instance

/-- A fill of the request comes to nothing: it is not covered, or its quantity rounds to
nothing, and then no lock is left behind. -/
def Fails (cfg : PaperConfig) (t : PaperState) (request : OrderRequest)
    (amount mark fillQty : ℚ) : Prop :=
  if 0 < fillQty then ¬Covers cfg t request amount mark fillQty else amount ≤ 0

instance (fillQty : ℚ) : Decidable (Fails cfg t request amount mark fillQty) :=
  inferInstanceAs (Decidable (if 0 < fillQty then ¬_ else amount ≤ 0))

/-- The attempt is made on the order that the request is placed as, for the quantity that
was asked for or less, with what the ledger `t` has but for the lock. -/
structure Attempt.Places (cfg : PaperConfig) (t : PaperState) (request : OrderRequest)
    (amount mark : ℚ) (a : Attempt) : Prop where
  proper : a.Proper
  backed : Backed a.state
  balance : SameBut (max amount 0) t a.state
  symbol : a.order.symbol = request.symbol
  side : a.order.side = request.side
  quantity : a.order.quantity = request.quantity
  totals : a.order.totals = ⟨0, 0, none⟩
  metadata : a.order.metadata = request.metadata.locked amount
  total : a.total = request.quantity
  price : a.price = fillPrice cfg mark request.orderType request.side request.price
  isMaker : a.isMaker = decide (request.orderType = .limit)

namespace Attempt.Places

variable {a b : Attempt}

/-- Two such attempts for the same quantity are on the same terms. -/
theorem alike (ha : a.Places cfg t request amount mark) (hb : b.Places cfg t request amount mark)
    (h : b.fillQty = a.fillQty) : a.Alike 0 b where
  balance := by
    refine ⟨?_, ?_, fun symbol => ?_⟩
    · rw [hb.balance.cash, ha.balance.cash, sub_zero]
    · rw [hb.balance.reservedCash, ha.balance.reservedCash, add_zero]
    · rw [hb.balance.figures, ha.balance.figures]
  symbol := hb.symbol.trans ha.symbol.symm
  side := hb.side.trans ha.side.symm
  quantity := hb.quantity.trans ha.quantity.symm
  totals := hb.totals.trans ha.totals.symm
  metadata := hb.metadata.trans ha.metadata.symm
  fillQty := h
  total := hb.total.trans ha.total.symm
  price := hb.price.trans ha.price.symm
  isMaker := hb.isMaker.trans ha.isMaker.symm

/-- The order holds the lock. -/
theorem reservation (h : a.Places cfg t request amount mark)
    (hmeta : request.metadata.NoReservation) : a.order.reservation = max amount 0 := by
  simp only [Order.reservation, Order.Reserving, h.metadata, Metadata.locked]
  by_cases hpos : 0 < amount
  · simp [hpos, max_eq_left hpos.le]
  · simp [hpos, hmeta.2.2, max_eq_right (not_lt.mp hpos)]

/-- The attempt is covered as the request is. -/
theorem covered_iff (h : a.Places cfg t request amount mark)
    (hmeta : request.metadata.NoReservation) (hq : 0 < request.quantity) (hpos : 0 < a.fillQty) :
    a.Covered cfg ↔ Covers cfg t request amount mark a.fillQty := by
  have hshare : a.freed =
      if 0 < amount then min (quantize8 (amount * a.fillQty / request.quantity)) amount else 0 := by
    rw [freed_eq_share h.backed h.proper.stored hpos.le, Order.share, h.reservation hmeta,
      h.quantity, h.metadata, Metadata.locked]
    by_cases hamount : 0 < amount
    · simp [hamount, hq, max_eq_left hamount.le]
    · simp [hamount, hmeta.1]
  have hheld : held a.state request.symbol = held t request.symbol := h.balance.held _
  cases hside : request.side <;>
    simp only [Covered, or_iff_right (not_le.mpr hpos), h.side, Covers, cost, fee, hshare,
      h.balance.cash, h.price, h.isMaker, h.symbol, hheld, hside]

/-- An attempt that is not covered comes to nothing. -/
theorem refused (h : a.Places cfg t request amount mark) (hmeta : request.metadata.NoReservation)
    (hpos : 0 < a.fillQty) (hno : ¬a.Covered cfg) :
    Ends .failed t (a.apply cfg).1 (a.apply cfg).2 := by
  have hfailed : (a.apply cfg).1.status = .failed :=
    apply_refused h.proper.live_ne (mt And.left hno)
  obtain ⟨hreserved, hcash⟩ : (a.apply cfg).2.reservedCash = _ ∧ _ :=
    apply_ended_cash h.proper h.backed hpos (by simp [hfailed, OrderStatus.Terminal])
  rw [h.reservation hmeta] at hreserved hcash
  rw [if_neg hno] at hcash
  have hbooked : a.Booked cfg (a.apply cfg) := apply_booked h.proper.live_ne
  cases hbooked with
  | refused books _ =>
    refine ⟨hfailed, books.totals.trans h.totals, ?_, ?_, fun symbol => ?_⟩
    · rw [hcash, h.balance.cash]
      ring
    · rw [hreserved, h.balance.reservedCash]
      ring
    · rw [Paper.figures, books.positions]
      exact h.balance.figures symbol
  | bought _ _ _ _ _ _ _ hcov => exact absurd hcov hno
  | sold _ _ _ _ _ _ _ _ _ _ hcov => exact absurd hcov hno

/-- A quantity that rounds to nothing fails its order, and keeps the lock. -/
theorem dust (h : a.Places cfg t request amount mark) (hpos : a.fillQty ≤ 0) :
    (a.apply cfg).2.reservedCash = t.reservedCash + max amount 0 ∧
      (amount ≤ 0 → Ends .failed t (a.apply cfg).1 (a.apply cfg).2) := by
  have happly : a.apply cfg = update a.state a.order .failed a.risk none a.now := if_pos hpos
  rw [happly]
  refine ⟨h.balance.reservedCash, fun hzero => ⟨rfl, h.totals, ?_, ?_, h.balance.figures⟩⟩
  · exact h.balance.cash.trans (by rw [max_eq_right hzero, sub_zero])
  · exact h.balance.reservedCash.trans (by rw [max_eq_right hzero, add_zero])

/-- An attempt that fails comes to nothing. -/
theorem ends (h : a.Places cfg t request amount mark) (hmeta : request.metadata.NoReservation)
    (hq : 0 < a.fillQty → 0 < request.quantity)
    (hfails : Fails cfg t request amount mark a.fillQty) :
    Ends .failed t (a.apply cfg).1 (a.apply cfg).2 := by
  rw [Fails] at hfails
  split_ifs at hfails with hpos
  · exact h.refused hmeta hpos (mt (h.covered_iff hmeta (hq hpos) hpos).mp hfails)
  · exact (h.dust (not_lt.mp hpos)).2 hfails

/-- An attempt that comes to nothing has failed. -/
theorem fails (h : a.Places cfg t request amount mark) (hmeta : request.metadata.NoReservation)
    (hq : 0 < a.fillQty → 0 < request.quantity) (hstatus : (a.apply cfg).1.status = .failed)
    (hbalance : SameBalance t (a.apply cfg).2) : Fails cfg t request amount mark a.fillQty := by
  rw [Fails]
  split_ifs with hpos
  · intro hcov
    have hcovered : a.Covered cfg := (h.covered_iff hmeta (hq hpos) hpos).mpr hcov
    exact (apply_failed_iff h.proper.live_ne).mp hstatus ⟨hpos, hcovered⟩
  · -- the lock would be left behind
    obtain ⟨hkept, -⟩ := h.dust (not_lt.mp hpos)
    have hsame : t.reservedCash + max amount 0 = t.reservedCash :=
      hkept.symm.trans hbalance.reservedCash
    exact le_of_max_le_left (add_eq_left.mp hsame).le

/-- A quantity in eight decimals is filled alike by both. -/
theorem agree (ha : a.Places cfg t request amount mark) (hb : b.Places cfg t request amount mark)
    (hq : 0 < request.quantity) (hqa : a.fillQty = request.quantity)
    (hqb : b.fillQty = quantizeDown8 request.quantity) (hgrid : OnGrid quantum8 request.quantity) :
    SameBalance (a.apply cfg).2 (b.apply cfg).2 ∧
      (b.apply cfg).1.status = (a.apply cfg).1.status ∧
      (b.apply cfg).1.totals = (a.apply cfg).1.totals := by
  have hround : quantizeDown8 request.quantity = request.quantity :=
    (onGrid_iff quantum8_pos.ne').mp hgrid
  have hpos : 0 < a.fillQty := hqa ▸ hq
  have hwhole : a.total ≤ a.fillQty := by rw [ha.total, hqa]
  have halike : a.Alike 0 b := ha.alike hb (by rw [hqb, hqa, hround])
  obtain ⟨hbalance, horder⟩ := halike.apply le_rfl a.spares_zero ha.proper hb.proper ha.backed
    hb.backed hpos hwhole
  exact ⟨hbalance.sameBalance, horder⟩

/-- Another quantity is filled by the first in full, and by the second in part, so that they
agree only if neither fills. -/
theorem fails_of_offGrid (ha : a.Places cfg t request amount mark)
    (hb : b.Places cfg t request amount mark) (hmeta : request.metadata.NoReservation)
    (hq : 0 < request.quantity) (hqa : a.fillQty = request.quantity)
    (hqb : b.fillQty = quantizeDown8 request.quantity) (hgrid : ¬OnGrid quantum8 request.quantity)
    (hbalance : SameBalance (a.apply cfg).2 (b.apply cfg).2)
    (hstatus : (b.apply cfg).1.status = (a.apply cfg).1.status) :
    Fails cfg t request amount mark request.quantity ∧
      Fails cfg t request amount mark (quantizeDown8 request.quantity) := by
  have hpos : 0 < a.fillQty := hqa ▸ hq
  have hlt : quantizeDown8 request.quantity < request.quantity :=
    lt_of_le_of_ne (quantizeDown8_le hq.le) (mt (onGrid_iff quantum8_pos.ne').mpr hgrid)
  have hpartial : (b.apply cfg).1.status ≠ .filled :=
    apply_partial hb.proper.live_ne (by rw [hqb, hb.total]; exact hlt)
  obtain ⟨hwhole, -⟩ : (a.apply cfg).1.status = _ ∧ _ :=
    apply_whole_status ha.proper hpos (by rw [ha.total, hqa])
  have hno : ¬a.Covered cfg := by
    intro hcov
    rw [if_pos hcov] at hwhole
    exact hpartial (hstatus.trans hwhole)
  have hended : Ends .failed t (a.apply cfg).1 (a.apply cfg).2 := ha.refused hmeta hpos hno
  refine ⟨hqa ▸ ha.fails hmeta (fun _ => hq) hended.status hended.balance, hqb ▸ ?_⟩
  exact hb.fails hmeta (fun _ => hq) (hstatus.trans hended.status)
    (hended.balance.trans hbalance)

end Attempt.Places

/-- A mark fills all of the order that a request is placed as, or leaves it. -/
theorem restingFill_placed (hone : cfg.partialFillFraction = 1) :
    restingFill cfg (placed s request risk amount now).1 request.symbol mark =
      if 0 < request.quantity ∧
          triggered request.orderType request.side request.price mark = true then
        some request.quantity
      else none := by
  rw [placed_fst]
  by_cases hq : 0 < request.quantity
  · simp [restingFill, newOrder, crosses_eq, restingQty_one hone, hq]
  · simp [restingFill, newOrder, crosses_eq, restingQty_one hone, hq]

/-- The fill of the order that is executed when it is submitted. -/
theorem submit_places (hone : cfg.partialFillFraction = 1) (hk : Keyed t) (hb : Backed t)
    (hmeta : request.metadata.NoReservation)
    (hkey : t.idempotencyIndex.get? request.idempotencyKey = none)
    (htrigger : request.trigger = some trigger) (hrefused : ¬Refused cfg risk roll)
    (hmeets : Meets t request risk amount) (hlock : ¬Unlocked t.cash amount)
    (hmark : t.markPrices.get? request.symbol = some mark)
    (hcross : triggered request.orderType request.side (some trigger) mark = true) :
    ∃ b : Attempt, submitAfterLatency cfg t request risk roll now = b.apply cfg ∧
      b.Places cfg t request amount mark ∧ b.fillQty = quantizeDown8 request.quantity := by
  have hprep : prepare cfg t request risk roll now = _ :=
    (prepare_placed hmeta htrigger hrefused hmeets hlock).2 hmark hcross
  let b := immediateAttempt cfg (placed t request risk amount now).2
    (placed t request risk amount now).1 request risk mark now
  have hvalid : (Op.submit request risk roll now).Valid := hmeta
  have hmem : b ∈ attempts cfg t (.submit request risk roll now) := by
    simp only [attempts, hkey, submitAttempts, hprep, List.mem_singleton, b]
  obtain ⟨heff, hproper, -⟩ := attempt_effects hk hvalid hmem
  refine ⟨b, ?_, ?_, ?_⟩
  · rw [submitAfterLatency, hprep]
    exact executeFill_eq ..
  · refine ⟨hproper, heff.invariant Backed.effect hk hb, ⟨?_, ?_, fun symbol => ?_⟩, ?_, ?_, ?_, ?_,
      ?_, rfl, rfl, rfl⟩
    all_goals simp only [b, immediateAttempt, placed_snd, placed_fst, figures]
    all_goals rfl
  · simp only [b, immediateAttempt, immediateQty, hone, mul_one]

/-- The submission of a request has added the order `o` to those of `s`. -/
structure Adds (s t : PaperState) (o : Order) : Prop where
  orders : t.orders = s.orders.set (.uuid4 s.nextUuid) o
  id : o.id = .uuid4 s.nextUuid
  keyed : Keyed t
  backed : Backed t

/-- A submission that executes nothing has added its order. -/
theorem Adds.of_done {o : Order} (hk : Keyed s) (hb : Backed s)
    (hmeta : request.metadata.NoReservation)
    (hkey : s.idempotencyIndex.get? request.idempotencyKey = none)
    (hprep : prepare cfg s request risk roll now = .done o t)
    (horders : t.orders = s.orders.set (.uuid4 s.nextUuid) o) (hid : o.id = .uuid4 s.nextUuid) :
    Adds s t o := by
  have hvalid : (Op.submit request risk roll now).Valid := hmeta
  have heff : Effects cfg (fun _ => True) s (step cfg s (.submit request risk roll now)) :=
    step_effects hk hvalid fun _ _ => trivial
  have hstep : step cfg s (.submit request risk roll now) = t := by
    simp only [step, submit, hkey, submitAfterLatency, hprep]
  rw [hstep] at heff
  exact ⟨horders, hid, heff.keyed hk, heff.invariant Backed.effect hk hb⟩

/-- The sweep over the earlier orders, before it comes to the new one. -/
def sweptBefore (cfg : PaperConfig) (s t : PaperState) (symbol : String) (mark : ℚ) (now : Time) :
    PaperState :=
  s.orders.values.foldl (triggerOne cfg symbol mark now) (markState t symbol mark)

/-- The earlier orders have other identifiers. -/
theorem Adds.id_ne {o o' : Order} (h : Adds s t o) (hk : Keyed s) (ho' : o' ∈ s.orders.values) :
    o'.id ≠ o.id := by
  intro heq
  have hold : Stored s o' := hk.stored_of_mem ho'
  rw [Stored, heq, h.id, hk.get?_next] at hold
  cases hold

/-- The earlier orders are still there after the submission. -/
theorem Adds.stored {o o' : Order} (h : Adds s t o) (hk : Keyed s) (symbol : String)
    (ho' : o' ∈ s.orders.values) : Stored (markState t symbol mark) o' := by
  show t.orders.get? o'.id = some o'
  rw [h.orders, ← h.id, Dict.get?_set_ne _ (h.id_ne hk ho').symm]
  exact hk.stored_of_mem ho'

/-- When the sweep comes to the new order it is as it was. -/
theorem Adds.swept {o : Order} (h : Adds s t o) (hk : Keyed s) (symbol : String) :
    Backed (sweptBefore cfg s t symbol mark now) ∧
      Stored (sweptBefore cfg s t symbol mark now) o := by
  have heff : Effects cfg (fun _ => True) t (sweptBefore cfg s t symbol mark now) :=
    .head (.mark t symbol mark)
      (restingLoop_effects hk.values_nodup (fun _ => h.stored hk symbol) fun _ _ => trivial)
  refine ⟨heff.invariant Backed.effect h.keyed h.backed, ?_⟩
  show (sweptBefore cfg s t symbol mark now).orders.get? o.id = some o
  rw [sweptBefore, restingLoop_frame fun _ => h.id_ne hk]
  show t.orders.get? o.id = some o
  rw [h.orders, h.id, Dict.get?_set_self]

/-- The sweep leaves the same balance with and without the new order, but for its lock. -/
theorem Adds.swept_sameBut {o : Order} {lock : ℚ} (h : Adds s t o)
    (hone : cfg.partialFillFraction = 1) (hk : Keyed s) (hb : Backed s) (hlock : 0 ≤ lock)
    (hsame : SameBut lock s t) {symbol : String}
    (hspared : Spared cfg symbol mark now lock s.orders.values (markState s symbol mark)) :
    SameBut lock (setMarkPrice cfg s symbol mark now) (sweptBefore cfg s t symbol mark now') := by
  have hmark : Effects cfg (fun _ => True) s (markState s symbol mark) := .single (.mark ..)
  have hmark' : Effects cfg (fun _ => True) t (markState t symbol mark) := .single (.mark ..)
  exact restingLoop_sameBut hone hlock hk.values_nodup (fun _ ho => hk.stored_of_mem ho)
    (fun _ => h.stored hk symbol) (hmark.keyed hk) (hmark'.keyed h.keyed)
    (hmark.invariant Backed.effect hk hb) (hmark'.invariant Backed.effect h.keyed h.backed)
    hspared (markState_sameBut hsame symbol mark)

/-- The mark after the submission, where it does not trigger the new order. -/
theorem Adds.marked_none {o : Order} (h : Adds s t o) (hk : Keyed s) {symbol : String}
    (hnone : restingFill cfg o symbol mark = none) :
    setMarkPrice cfg t symbol mark now = sweptBefore cfg s t symbol mark now := by
  rw [setMarkPrice_last hk h.orders, triggerOne_eq, restingAttempt, hnone]
  rfl

/-- The mark after the submission, where it triggers the new order. -/
theorem Adds.marked_some {o : Order} {a : Attempt} (h : Adds s t o) (hk : Keyed s)
    {symbol : String}
    (ha : restingAttempt cfg symbol mark now (sweptBefore cfg s t symbol mark now) o = some a) :
    setMarkPrice cfg t symbol mark now = (a.apply cfg).2 := by
  rw [setMarkPrice_last hk h.orders, triggerOne_eq]
  show (restingAttempt cfg symbol mark now (sweptBefore cfg s t symbol mark now) o).elim _ _ = _
  rw [ha]
  rfl

/-- The mark fills no earlier order out of the cash that is locked for the request. -/
def LockSpared (cfg : PaperConfig) (s : PaperState) (request : OrderRequest) (amount mark : ℚ)
    (now : Time) : Prop :=
  0 < amount → amount ≤ s.cash →
    Spared cfg request.symbol mark now amount s.orders.values (markState s request.symbol mark)

instance : Decidable (LockSpared cfg s request amount mark now) :=
  inferInstanceAs (Decidable (_ → _ → _))

/-- The fill of the order that rests until the mark. -/
theorem mark_places {w : PaperState} {a : Attempt} (hone : cfg.partialFillFraction = 1)
    (hk : Keyed s) (hb : Backed s) (hspared : LockSpared cfg s request amount mark now)
    (hlock : ¬Unlocked s.cash amount) (h : Adds s w (placed s request risk amount now).1)
    (hw : w = (placed s request risk amount now).2)
    (ha : restingAttempt cfg request.symbol mark now'
      (sweptBefore cfg s w request.symbol mark now') (placed s request risk amount now).1 =
      some a) :
    a.Places cfg (setMarkPrice cfg s request.symbol mark now) request amount mark ∧
      a.order = (placed s request risk amount now).1 ∧ a.fillQty = request.quantity := by
  obtain ⟨hbacked, hstored⟩ : Backed (sweptBefore cfg s w request.symbol mark now') ∧ _ :=
    h.swept hk request.symbol
  have hsame : SameBut (max amount 0) s w := by
    rw [hw, placed_snd]
    exact ⟨rfl, rfl, fun _ => rfl⟩
  have hloop : Spared cfg request.symbol mark now (max amount 0) s.orders.values
      (markState s request.symbol mark) := by
    by_cases hpos : 0 < amount
    · rw [max_eq_left hpos.le]
      exact hspared hpos (not_lt.mp fun hlt => hlock ⟨hpos, hlt⟩)
    · rw [max_eq_right (not_lt.mp hpos)]
      exact spared_zero ..
  have hbalance : SameBut (max amount 0) (setMarkPrice cfg s request.symbol mark now)
      (sweptBefore cfg s w request.symbol mark now') :=
    h.swept_sameBut hone hk hb (le_max_right _ _) hsame hloop
  obtain ⟨-, -, hproper⟩ := restingAttempt_proper hstored ha
  obtain ⟨fillQty, hfill, rfl⟩ := Option.map_eq_some_iff.mp ha
  have hq : fillQty = request.quantity := by
    rw [restingFill_placed hone] at hfill
    split_ifs at hfill
    exact (Option.some.inj hfill).symm
  refine ⟨⟨hproper, hbacked, hbalance, ?_, ?_, ?_, ?_, ?_, ?_, ?_, ?_⟩, rfl, hq⟩
  all_goals simp [placed_fst, newOrder, Order.totals]

/-! ### What becomes of the order -/

/-- The order that rests until the mark comes to nothing: its lock fails, or the mark
crosses its price, and the fill fails. -/
def RestingFails (cfg : PaperConfig) (cash : ℚ) (t : PaperState) (request : OrderRequest)
    (amount mark : ℚ) : Prop :=
  Unlocked cash amount ∨
    (0 < request.quantity ∧
      triggered request.orderType request.side request.price mark = true ∧
      Fails cfg t request amount mark request.quantity)

/-- The order that is submitted at the mark comes to nothing: its lock fails, or the fill of
its rounded quantity does. -/
def ImmediateFails (cfg : PaperConfig) (t : PaperState) (request : OrderRequest)
    (amount mark : ℚ) : Prop :=
  Unlocked t.cash amount ∨ Fails cfg t request amount mark (quantizeDown8 request.quantity)

/-- Both orders are locked for, and both fill the same quantity. -/
def BothFill (cash cash' : ℚ) (request : OrderRequest) (amount mark : ℚ) : Prop :=
  ¬Unlocked cash amount ∧ ¬Unlocked cash' amount ∧ 0 < request.quantity ∧
    triggered request.orderType request.side request.price mark = true ∧
    OnGrid quantum8 request.quantity

/-- What becomes of the order that rests until the mark.  The ledger `t` is the one that the
mark leaves without it. -/
inductive RestingEnds (cfg : PaperConfig) (cash : ℚ) (t : PaperState) (request : OrderRequest)
    (amount mark : ℚ) : Order → PaperState → Prop
  | unlocked (o : Order) (w : PaperState) (hno : Unlocked cash amount)
      (h : Ends .failed t o w) : RestingEnds cfg cash t request amount mark o w
  /-- The mark does not cross the price of the request. -/
  | rests (o : Order) (w : PaperState) (hlock : ¬Unlocked cash amount)
      (hno : ¬(0 < request.quantity ∧
        triggered request.orderType request.side request.price mark = true))
      (h : o.status = .submitted) : RestingEnds cfg cash t request amount mark o w
  | fills (a : Attempt) (hlock : ¬Unlocked cash amount) (hq : 0 < request.quantity)
      (hcross : triggered request.orderType request.side request.price mark = true)
      (h : a.Places cfg t request amount mark) (hqa : a.fillQty = request.quantity) :
      RestingEnds cfg cash t request amount mark (a.apply cfg).1 (a.apply cfg).2

/-- What becomes of the order that is submitted at the mark. -/
inductive ImmediateEnds (cfg : PaperConfig) (t : PaperState) (request : OrderRequest)
    (amount mark : ℚ) : Order → PaperState → Prop
  | unlocked (o : Order) (w : PaperState) (hno : Unlocked t.cash amount)
      (h : Ends .failed t o w) : ImmediateEnds cfg t request amount mark o w
  | fills (b : Attempt) (hlock : ¬Unlocked t.cash amount)
      (h : b.Places cfg t request amount mark) (hqb : b.fillQty = quantizeDown8 request.quantity) :
      ImmediateEnds cfg t request amount mark (b.apply cfg).1 (b.apply cfg).2

/-- An order that ends with its submission has come to nothing after the mark. -/
theorem resting_ended (hone : cfg.partialFillFraction = 1) (hk : Keyed s) (hb : Backed s)
    (hmeta : request.metadata.NoReservation)
    (hkey : s.idempotencyIndex.get? request.idempotencyKey = none) {st : OrderStatus}
    {error : Option String} (hterm : st.Terminal)
    (hprep : prepare cfg s request risk roll now =
      .done (ended s request risk now st error).1 (ended s request risk now st error).2) :
    let w := setMarkPrice cfg (submitAfterLatency cfg s request risk roll now).2 request.symbol
      mark now'
    ∃ o, orderOf w request.idempotencyKey = some o ∧
      Ends st (setMarkPrice cfg s request.symbol mark now) o w := by
  intro w
  have hadds : Adds s _ _ := .of_done hk hb hmeta hkey hprep
    (by simp [update, created, newOrder, Dict.set_set]) rfl
  have hnone : restingFill cfg (ended s request risk now st error).1 request.symbol mark =
      none := by
    by_contra hsome
    obtain ⟨fillQty, hfill⟩ := Option.ne_none_iff_exists'.mp hsome
    obtain ⟨hopen, -⟩ := restingFill_eq_some cfg hfill
    rcases hopen with hopen | hopen
    all_goals
      simp only [update] at hopen
      simp [hopen, OrderStatus.Terminal] at hterm
  have hw : w = sweptBefore cfg s (ended s request risk now st error).2 request.symbol mark
      now' := by
    show setMarkPrice cfg (submitAfterLatency cfg s request risk roll now).2 _ _ _ = _
    rw [submitAfterLatency, hprep]
    exact hadds.marked_none hk hnone
  have hindex : w.idempotencyIndex.get? request.idempotencyKey = some (.uuid4 s.nextUuid) := by
    show (setMarkPrice cfg (submitAfterLatency cfg s request risk roll now).2 request.symbol mark
      now').idempotencyIndex.get? _ = _
    rw [(setMarkPrice_keeps ..).2, submitAfterLatency, hprep]
    exact Dict.get?_set_self ..
  obtain ⟨-, hstored⟩ : _ ∧ Stored (sweptBefore cfg s _ request.symbol mark now') _ :=
    hadds.swept hk request.symbol
  have hsame : SameBalance s (ended s request risk now st error).2 := ⟨rfl, rfl, fun _ => rfl⟩
  have hswept : SameBut 0 (setMarkPrice cfg s request.symbol mark now)
      (sweptBefore cfg s (ended s request risk now st error).2 request.symbol mark now') :=
    hadds.swept_sameBut hone hk hb le_rfl hsame.sameBut (spared_zero ..)
  refine ⟨_, orderOf_eq hindex (hw ▸ hstored), rfl, rfl, ?_⟩
  rw [hw]
  exact hswept.sameBalance

/-- **What becomes of the order that rests until the mark.** -/
theorem resting_ends (hone : cfg.partialFillFraction = 1) (hk : Keyed s) (hb : Backed s)
    (hmeta : request.metadata.NoReservation)
    (hkey : s.idempotencyIndex.get? request.idempotencyKey = none)
    (htrigger : request.trigger = some trigger) (hrests : Rests s request trigger)
    (hrefused : ¬Refused cfg risk roll) (hmeets : Meets s request risk amount)
    (hspared : LockSpared cfg s request amount mark now) :
    let w := setMarkPrice cfg (submitAfterLatency cfg s request risk roll now).2 request.symbol
      mark now'
    ∃ o, orderOf w request.idempotencyKey = some o ∧
      RestingEnds cfg s.cash (setMarkPrice cfg s request.symbol mark now) request amount mark o
        w := by
  intro w
  by_cases hlock : Unlocked s.cash amount
  · obtain ⟨o, ho, hends⟩ : ∃ o, orderOf w request.idempotencyKey = some o ∧
        Ends .failed (setMarkPrice cfg s request.symbol mark now) o w :=
      resting_ended hone hk hb hmeta hkey (by decide)
        (prepare_unlocked hmeta htrigger hrefused hmeets hlock)
    exact ⟨o, ho, .unlocked o w hlock hends⟩
  have hdone : prepare cfg s request risk roll now = _ :=
    (@prepare_placed cfg s request risk trigger 0 roll amount now hmeta htrigger hrefused hmeets
      hlock).1 hrests
  have horders : (placed s request risk amount now).2.orders =
      s.orders.set (.uuid4 s.nextUuid) (placed s request risk amount now).1 := by rw [placed_snd]
  have hid : (placed s request risk amount now).1.id = .uuid4 s.nextUuid := by
    rw [placed_fst]
    rfl
  have hadds : Adds s _ _ := .of_done hk hb hmeta hkey hdone horders hid
  have hw : w = setMarkPrice cfg (placed s request risk amount now).2 request.symbol mark
      now' := by
    show setMarkPrice cfg (submitAfterLatency cfg s request risk roll now).2 _ _ _ = _
    rw [submitAfterLatency, hdone]
  have hindex : w.idempotencyIndex.get? request.idempotencyKey = some (.uuid4 s.nextUuid) := by
    rw [hw, (setMarkPrice_keeps ..).2, placed_snd]
    exact Dict.get?_set_self ..
  cases ha : restingAttempt cfg request.symbol mark now'
      (sweptBefore cfg s (placed s request risk amount now).2 request.symbol mark now')
      (placed s request risk amount now).1 with
  | none =>
    have hnone : restingFill cfg (placed s request risk amount now).1 request.symbol mark = none :=
      Option.map_eq_none_iff.mp ha
    obtain ⟨-, hstored⟩ : _ ∧ Stored (sweptBefore cfg s _ request.symbol mark now') _ :=
      hadds.swept hk request.symbol
    rw [← hadds.marked_none hk hnone, ← hw, Stored, hid] at hstored
    refine ⟨_, orderOf_eq hindex hstored, .rests _ _ hlock (fun hfill => ?_) (by rw [placed_fst])⟩
    rw [restingFill_placed hone, if_pos hfill] at hnone
    cases hnone
  | some a =>
    obtain ⟨hplaces, horder, hqa⟩ := mark_places hone hk hb hspared hlock hadds rfl ha
    obtain ⟨hq, hcross⟩ : 0 < request.quantity ∧
        triggered request.orderType request.side request.price mark = true := by
      obtain ⟨fillQty, hfill, -⟩ := Option.map_eq_some_iff.mp ha
      rw [restingFill_placed hone] at hfill
      split_ifs at hfill with hcrossed
      exact hcrossed
    have hworks : Works a.state a.order (a.apply cfg) := Attempt.apply_works hplaces.proper.live_ne
    have hstored : (a.apply cfg).2.orders.get? (.uuid4 s.nextUuid) = some (a.apply cfg).1 := by
      have hown : (a.apply cfg).2.orders.get? (a.apply cfg).1.id = _ := hworks.stored
      rwa [hworks.same.id, horder, hid] at hown
    have hfinal : w = (a.apply cfg).2 := hw.trans (hadds.marked_some hk ha)
    rw [hfinal] at hindex ⊢
    exact ⟨_, orderOf_eq hindex hstored, .fills a hlock hq hcross hplaces hqa⟩

/-- **What becomes of the order that is submitted at the mark.** -/
theorem immediate_ends (hone : cfg.partialFillFraction = 1) (hk : Keyed t) (hb : Backed t)
    (hmeta : request.metadata.NoReservation)
    (hkey : t.idempotencyIndex.get? request.idempotencyKey = none)
    (htrigger : request.trigger = some trigger) (hrefused : ¬Refused cfg risk roll)
    (hmeets : Meets t request risk amount) (hmark : t.markPrices.get? request.symbol = some mark)
    (hcross : triggered request.orderType request.side (some trigger) mark = true) :
    let w := (submitAfterLatency cfg t request risk roll now).2
    ∃ o, orderOf w request.idempotencyKey = some o ∧
      ImmediateEnds cfg t request amount mark o w := by
  intro w
  obtain ⟨-, hstored, -, -, -, hindex⟩ := @submitAfterLatency_stores cfg t risk now request roll
  have hindex : w.idempotencyIndex.get? request.idempotencyKey = some (.uuid4 t.nextUuid) := by
    show (submitAfterLatency cfg t request risk roll now).2.idempotencyIndex.get? _ = _
    rw [hindex, Dict.get?_set_self]
  refine ⟨_, orderOf_eq hindex hstored, ?_⟩
  by_cases hlock : Unlocked t.cash amount
  · refine .unlocked _ _ hlock ?_
    have hdone : prepare cfg t request risk roll now = _ :=
      prepare_unlocked hmeta htrigger hrefused hmeets hlock
    show Ends .failed t _ (submitAfterLatency cfg t request risk roll now).2
    rw [submitAfterLatency, hdone]
    exact ⟨rfl, rfl, rfl, rfl, fun _ => rfl⟩
  · obtain ⟨b, happly, hplaces, hqb⟩ :
        ∃ b : Attempt, submitAfterLatency cfg t request risk roll now = b.apply cfg ∧ _ :=
      submit_places hone hk hb hmeta hkey htrigger hrefused hmeets hlock hmark hcross
    show ImmediateEnds cfg t request amount mark _
      (submitAfterLatency cfg t request risk roll now).2
    rw [happly]
    exact .fills b hlock hplaces hqb

/-! ### The agreement -/

/-- A fill is applied or it fails: no attempt leaves its order submitted. -/
theorem Attempt.apply_ne_submitted {a : Attempt} (hlive : a.order.status ≠ .failed) :
    (a.apply cfg).1.status ≠ .submitted := by
  intro hsubmitted
  by_cases hcov : 0 < a.fillQty ∧ a.Covered cfg
  · rcases (apply_hasFilled hlive).mpr hcov with h | h <;> simp [hsubmitted] at h
  · have hfailed : (a.apply cfg).1.status = .failed := (apply_failed_iff hlive).mpr hcov
    simp [hsubmitted] at hfailed

/-- No order that is submitted at the mark rests. -/
theorem ImmediateEnds.ne_submitted {o : Order} {w : PaperState}
    (h : ImmediateEnds cfg t request amount mark o w) : o.status ≠ .submitted := by
  cases h with
  | unlocked _ _ _ hends =>
    rw [hends.status]
    decide
  | fills b _ hplaces _ => exact Attempt.apply_ne_submitted hplaces.proper.live_ne

/-- **When the two ways agree**, one case for each end of the one and of the other. -/
theorem RestingEnds.agree_iff {key : String} {o o' : Order} {w w' : PaperState}
    (h : RestingEnds cfg cash t request amount mark o w)
    (h' : ImmediateEnds cfg t request amount mark o' w') (hmeta : request.metadata.NoReservation)
    (ho : orderOf w key = some o) (ho' : orderOf w' key = some o') :
    Agree key w w' ↔ BothFill cash t.cash request amount mark ∨
      (RestingFails cfg cash t request amount mark ∧
        ImmediateFails cfg t request amount mark) := by
  have hagree := Paper.agree_iff ho ho'
  cases h with
  | rests _ _ hlock hno hstatus =>
    refine iff_of_false (fun hsame => ?_) ?_
    · exact h'.ne_submitted ((hagree.mp hsame).1.1.trans hstatus)
    · rintro (⟨-, -, hq, hcross, -⟩ | ⟨hunlocked | ⟨hq, hcross, -⟩, -⟩)
      · exact hno ⟨hq, hcross⟩
      · exact hlock hunlocked
      · exact hno ⟨hq, hcross⟩
  | unlocked _ _ hunlocked hends =>
    have hno : ¬BothFill cash t.cash request amount mark := fun hboth => hboth.1 hunlocked
    rw [or_iff_right hno, and_iff_right (.inl hunlocked)]
    cases h' with
    | unlocked _ _ hunlocked' hends' =>
      exact iff_of_true (hends.agree hends' ho ho') (.inl hunlocked')
    | fills b hlock' hplaces hqb =>
      have hq : 0 < b.fillQty → 0 < request.quantity := fun hpos => by
        by_contra hle
        exact absurd hpos (not_lt.mpr (hqb ▸ quantizeDown8_nonpos (not_lt.mp hle)))
      rw [ImmediateFails, or_iff_right hlock', ← hqb]
      constructor
      · intro hsame
        exact hplaces.fails hmeta hq ((hagree.mp hsame).1.1.trans hends.status)
          (hends.balance.trans hsame.balance)
      · exact fun hfails => hends.agree (hplaces.ends hmeta hq hfails) ho ho'
  | fills a hlock hq hcross hplaces hqa =>
    have hresting : RestingFails cfg cash t request amount mark ↔
        Fails cfg t request amount mark request.quantity := by
      rw [RestingFails, or_iff_right hlock, and_iff_right hq, and_iff_right hcross]
    rw [hresting]
    cases h' with
    | unlocked _ _ hunlocked' hends' =>
      have hno : ¬BothFill cash t.cash request amount mark := fun hboth => hboth.2.1 hunlocked'
      rw [or_iff_right hno, and_iff_left (.inl hunlocked'), ← hqa]
      constructor
      · intro hsame
        exact hplaces.fails hmeta (fun _ => hq) ((hagree.mp hsame).1.1.symm.trans hends'.status)
          (hends'.balance.trans hsame.balance.symm)
      · exact fun hfails => (hplaces.ends hmeta (fun _ => hq) hfails).agree hends' ho ho'
    | fills b hlock' hplaces' hqb =>
      rw [ImmediateFails, or_iff_right hlock']
      by_cases hgrid : OnGrid quantum8 request.quantity
      · obtain ⟨hbalance, hstatus, htotals⟩ := hplaces.agree hplaces' hq hqa hqb hgrid
        exact iff_of_true (hagree.mpr ⟨⟨hstatus, congrArg Totals.filled htotals,
          congrArg Totals.average htotals⟩, hbalance⟩) (.inl ⟨hlock, hlock', hq, hcross, hgrid⟩)
      · have hno : ¬BothFill cash t.cash request amount mark := fun hboth => hgrid hboth.2.2.2.2
        rw [or_iff_right hno]
        constructor
        · intro hsame
          exact hplaces.fails_of_offGrid hplaces' hmeta hq hqa hqb hgrid hsame.balance
            (hagree.mp hsame).1.1
        · rintro ⟨hfails, hfails'⟩
          have hends' : Ends .failed t (b.apply cfg).1 (b.apply cfg).2 :=
            hplaces'.ends hmeta (fun _ => hq) (hqb ▸ hfails')
          exact (hplaces.ends hmeta (fun _ => hq) (hqa ▸ hfails)).agree hends' ho ho'

/-- A request that is refused is rejected before the mark and after it. -/
theorem agree_refused (hone : cfg.partialFillFraction = 1) (hk : Keyed s) (hb : Backed s)
    (hmeta : request.metadata.NoReservation)
    (hkey : s.idempotencyIndex.get? request.idempotencyKey = none)
    (hrefused : Refused cfg risk roll) :
    Agree request.idempotencyKey
      (setMarkPrice cfg (submitAfterLatency cfg s request risk roll now).2 request.symbol mark now')
      (submitAfterLatency cfg (setMarkPrice cfg s request.symbol mark now) request risk roll
        now').2 := by
  obtain ⟨error, hprep⟩ : ∃ error, prepare cfg s request risk roll now = _ :=
    prepare_refused hrefused
  obtain ⟨error', hprep'⟩ : ∃ error', prepare cfg (setMarkPrice cfg s request.symbol mark now)
      request risk roll now' = _ := prepare_refused hrefused
  obtain ⟨o, ho, hends⟩ : ∃ o, orderOf (setMarkPrice cfg (submitAfterLatency cfg s request risk roll
      now).2 request.symbol mark now') request.idempotencyKey = some o ∧ Ends .rejected _ o _ :=
    resting_ended hone hk hb hmeta hkey (by decide) hprep
  rw [submitAfterLatency.eq_def cfg (setMarkPrice cfg s request.symbol mark now), hprep']
  refine hends.agree ⟨rfl, rfl, rfl, rfl, fun _ => rfl⟩ ho
    (orderOf_eq (Dict.get?_set_self ..) (update_stored ..))

/-- **When resting and immediate orders agree.**  The mark that crosses the trigger comes
after the submission, or before it.  The order comes to the same, and so does the balance,
exactly when the request is refused in any case, or both orders fill the same quantity,
or both come to nothing. -/
theorem resting_agrees_iff (h : Reached cfg (fun _ => True) marks s)
    (hone : cfg.partialFillFraction = 1) (hmeta : request.metadata.NoReservation)
    (hkey : s.idempotencyIndex.get? request.idempotencyKey = none)
    (htrigger : request.trigger = some trigger) (hrests : Rests s request trigger)
    (hcross : triggered request.orderType request.side (some trigger) mark = true)
    (hpriced : request.side = .sell ∨ request.orderType = .limit ∨ trigger ≠ 0)
    (hspared : LockSpared cfg s request (lockAmount request risk (some mark)) mark now)
    (roll : ℚ) (now' : Time) :
    let amount := lockAmount request risk (some mark)
    let marked := setMarkPrice cfg s request.symbol mark now
    Agree request.idempotencyKey
        (setMarkPrice cfg (submit cfg s request risk roll now).2 request.symbol mark now')
        (submit cfg marked request risk roll now').2 ↔
      Refused cfg risk roll ∨ BothFill s.cash marked.cash request amount mark ∨
        (RestingFails cfg s.cash marked request amount mark ∧
          ImmediateFails cfg marked request amount mark) := by
  intro amount marked
  have hk : Keyed s := h.keyed
  have hb : Backed s := h.backed
  have hk' : Keyed marked := setMarkPrice_keyed hk request.symbol mark now
  have hb' : Backed marked := by
    have heff : Effects cfg (fun _ => True) s
        (step cfg s (.setMarkPrice request.symbol mark now)) :=
      step_effects hk trivial fun _ _ => trivial
    exact heff.invariant Backed.effect hk hb
  have hmark : marked.markPrices.get? request.symbol = some mark := by
    rw [(setMarkPrice_keeps ..).1, Dict.get?_set_self]
  have hkey' : marked.idempotencyIndex.get? request.idempotencyKey = none := by
    rw [(setMarkPrice_keeps ..).2, hkey]
  -- the trigger prices the lock, before the mark and after it
  have hmeets : Meets s request risk amount := by
    refine ⟨fun hnone => ?_, lockAmount_eq htrigger hpriced _ _⟩
    unfold Rests at hrests
    rwa [hnone] at hrests
  have hmeets' : Meets marked request risk amount := by
    refine ⟨fun hnone => ?_, lockAmount_eq htrigger hpriced _ _⟩
    rw [hmark] at hnone
    cases hnone
  simp only [submit, hkey, hkey']
  by_cases hrefused : Refused cfg risk roll
  · exact iff_of_true (agree_refused hone hk hb hmeta hkey hrefused) (.inl hrefused)
  · rw [or_iff_right hrefused]
    obtain ⟨o, ho, hends⟩ : ∃ o, orderOf (setMarkPrice cfg (submitAfterLatency cfg s request risk
        roll now).2 request.symbol mark now') request.idempotencyKey = some o ∧ _ :=
      resting_ends hone hk hb hmeta hkey htrigger hrests hrefused hmeets hspared
    obtain ⟨o', ho', hends'⟩ : ∃ o', orderOf (submitAfterLatency cfg marked request risk roll
        now').2 request.idempotencyKey = some o' ∧ _ :=
      immediate_ends hone hk' hb' hmeta hkey' htrigger hrefused hmeets' hmark hcross
    exact hends.agree_iff hends' hmeta ho ho'

/-- An engine that holds one unit, at a mark of 110. -/
def holdsOne : PaperState := run {} (markAt 110) [marketOrder .buy "a" 1]

theorem holdsOne_reached : Reached {} (fun _ => True) (markAt 110) holdsOne := by
  have hok : RunOk {} (fun _ => True) (markAt 110) [marketOrder .buy "a" 1] := by decide +kernel
  exact Reached.run hok

/-- The request for an order of one unit. -/
def unitRequest (orderType : OrderType) (side : OrderSide) (price stopLoss : Option ℚ) :
    OrderRequest where
  symbol := "BTC/USDT"
  side := side
  orderType := orderType
  quantity := 1
  price := price
  stopLoss := stopLoss
  idempotencyKey := "b"

/-- The risk outcome that approves it. -/
def unitRisk : RiskEvaluation where
  decision := .approved
  reasonCode := .ok
  approvedQuantity := some 1

/-- A LIMIT BUY at 100 comes to the same before a mark of 90 and after it. -/
theorem resting_agrees_iff_limit :
    let request := unitRequest .limit .buy (some 100) none
    Agree "b" (setMarkPrice {} (submit {} holdsOne request unitRisk 1 0).2 "BTC/USDT" 90 1)
      (submit {} (setMarkPrice {} holdsOne "BTC/USDT" 90 0) request unitRisk 1 1).2 := by
  intro request
  have hgrid : OnGrid quantum8 request.quantity :=
    ⟨10 ^ 8, by norm_num [request, unitRequest, quantum8]⟩
  have htrigger : request.trigger = some 100 := rfl
  exact (resting_agrees_iff holdsOne_reached rfl (by decide +kernel) (by decide +kernel) htrigger
    (by decide +kernel) (by decide +kernel) (.inr (.inl rfl)) (by decide +kernel) 1 1).mpr
    (.inr (.inl ⟨by decide +kernel, by decide +kernel, by decide +kernel, by decide +kernel,
      hgrid⟩))

/-- **A stop that never triggers.**  Its trigger is given in `stop_loss`, as the request
allows.  The order rests at 110, and a mark of 85 is below its stop of 90: submitted at
this mark it sells, but the order that rests stays submitted. -/
theorem stop_never_triggers :
    let request := unitRequest .stopLoss .sell none (some 90)
    let first := setMarkPrice {} (submit {} holdsOne request unitRisk 1 0).2 "BTC/USDT" 85 1
    let second := (submit {} (setMarkPrice {} holdsOne "BTC/USDT" 85 0) request unitRisk 1 1).2
    Reached {} (fun _ => True) (markAt 110) holdsOne ∧ request.trigger = some 90 ∧
      Rests holdsOne request 90 ∧
      triggered request.orderType request.side (some 90) 85 = true ∧
      (resultOf first "b").map Prod.fst = some .submitted ∧
      (resultOf second "b").map Prod.fst = some .filled ∧ ¬Agree "b" first second := by
  intro request first second
  have hfirst : (resultOf first "b").map Prod.fst = some .submitted := by decide +kernel
  have hsecond : (resultOf second "b").map Prod.fst = some .filled := by decide +kernel
  refine ⟨holdsOne_reached, rfl, by decide +kernel, by decide +kernel, hfirst, hsecond, fun h => ?_⟩
  rw [h.result, hfirst] at hsecond
  cases hsecond

end Paper

end Atlas
