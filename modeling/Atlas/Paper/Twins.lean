import Atlas.Paper.Quiet
import Atlas.Paper.Recorded
import Atlas.Session.Reconcile

/-!
# Ledgers with the same funds

What a market order does depends on little of the ledger: on the cash, the positions and
the mark of its symbol.  Two ledgers that agree in these, and in the next identifier to
be drawn, still agree when the same order has been submitted to both under two keys, and
so do the two orders, but for their keys.  The orders and the fills recorded before do
not matter, except to the reconciliation.

## Main definitions

* `SameFunds`, `SameOrder` — what the two ledgers, and the two orders, agree in.
* `MarketLedger` — no order can rest, and the identifiers still to be drawn name nothing.

## Main results

* `submitAfterLatency_twin` — **a market order does the same to both ledgers**.
* `submitAfterLatency_fillsOk` — what it changes of the check of the filled quantities.
* `SameFunds.markedAll`, `SameFunds.markedFlat`, `SameFunds.remarked` — when marks keep the
  funds the same.
* `SameFunds.healthy_iff` — the reconciliation finds the same of both.

## References

`app/execution/paper/engine.py`, `app/services/reconciliation.py`.
-/

namespace Atlas

namespace Paper

variable {cfg : PaperConfig} {books : Prop} {s s' : PaperState} {order order' : Order}
  {risk : RiskEvaluation} {now : Time}

/-- The same order, under other keys. -/
def SameOrder (order order' : Order) : Prop :=
  ∃ key clientOrderId,
    order' = { order with idempotencyKey := key, clientOrderId := clientOrderId }

/-- The same cash, positions and draws, and with `books` the same fills in any order. -/
def SameFunds (books : Prop) (s s' : PaperState) : Prop :=
  ∃ orders index marks fills,
    s' = { s with
      orders := orders, idempotencyIndex := index, markPrices := marks, fills := fills } ∧
    (books → s.fills.Perm fills)

/-- An order and its ledger agree with another order and ledger. -/
structure Twin (books : Prop) (r r' : Order × PaperState) : Prop where
  order : SameOrder r.1 r'.1
  funds : SameFunds books r.2 r'.2

theorem SameOrder.refl (order : Order) : SameOrder order order := ⟨_, _, rfl⟩

/-! ### The parts of a submission -/

theorem update_twin (h : SameFunds books s s') (ho : SameOrder order order') (st : OrderStatus)
    (error : Option String) :
    Twin books (update s order st risk error now) (update s' order' st risk error now) := by
  obtain ⟨orders, index, marks, fills, rfl, hfills⟩ := h
  obtain ⟨key, clientOrderId, rfl⟩ := ho
  exact ⟨⟨key, clientOrderId, rfl⟩, _, index, marks, fills, rfl, hfills⟩

theorem releaseBuyReservation_twin (h : SameFunds books s s') (ho : SameOrder order order')
    (amount : Option ℚ) :
    Twin books (releaseBuyReservation s order amount now)
      (releaseBuyReservation s' order' amount now) := by
  obtain ⟨orders, index, marks, fills, rfl, hfills⟩ := h
  obtain ⟨key, clientOrderId, rfl⟩ := ho
  simp only [releaseBuyReservation]
  split_ifs <;> exact ⟨⟨key, clientOrderId, rfl⟩, _, index, marks, fills, rfl, hfills⟩

theorem releaseForFill_twin (h : SameFunds books s s') (ho : SameOrder order order') (qty : ℚ) :
    Twin books (releaseForFill s order qty now) (releaseForFill s' order' qty now) := by
  have hrelease : ∀ amount, Twin books (releaseBuyReservation s order amount now)
      (releaseBuyReservation s' order' amount now) := releaseBuyReservation_twin h ho
  have hsame : Twin books (order, s) (order', s') := ⟨ho, h⟩
  obtain ⟨key, clientOrderId, rfl⟩ := ho
  simp only [releaseForFill]
  split_ifs
  · exact hrelease _
  · exact hsame

/-- A reservation is made in both ledgers, or in neither. -/
theorem reserveBuy_twin (h : SameFunds books s s') (ho : SameOrder order order') (qty price : ℚ) :
    (reserveBuy s order qty price risk now).1.2 = (reserveBuy s' order' qty price risk now).1.2 ∧
      Twin books
        ((reserveBuy s order qty price risk now).1.1, (reserveBuy s order qty price risk now).2)
        ((reserveBuy s' order' qty price risk now).1.1,
          (reserveBuy s' order' qty price risk now).2) := by
  obtain ⟨orders, index, marks, fills, rfl, hfills⟩ := h
  obtain ⟨key, clientOrderId, rfl⟩ := ho
  simp only [reserveBuy]
  split_ifs <;>
    exact ⟨rfl, ⟨key, clientOrderId, rfl⟩, _, index, marks, fills, rfl, hfills⟩

/-- Both ledgers pay the same. -/
theorem SameFunds.pay (h : SameFunds books s s') (cash : ℚ) (positions : Dict String Position) :
    SameFunds books { s with cash := cash, positions := positions }
      { s' with cash := cash, positions := positions } := by
  obtain ⟨orders, index, marks, fills, rfl, hfills⟩ := h
  exact ⟨orders, index, marks, fills, rfl, hfills⟩

/-- Both ledgers realize the same profit. -/
theorem SameFunds.realize (h : SameFunds books s s') (realizedPnl : ℚ) :
    SameFunds books { s with realizedPnl := realizedPnl } { s' with realizedPnl := realizedPnl } := by
  obtain ⟨orders, index, marks, fills, rfl, hfills⟩ := h
  exact ⟨orders, index, marks, fills, rfl, hfills⟩

/-- Both ledgers record the same fill. -/
theorem SameFunds.record (h : SameFunds books s s') (fill : Fill) :
    SameFunds books { s with fills := s.fills ++ [fill], nextUuid := s.nextUuid + 1 }
      { s' with fills := s'.fills ++ [fill], nextUuid := s'.nextUuid + 1 } := by
  obtain ⟨orders, index, marks, fills, rfl, hfills⟩ := h
  exact ⟨orders, index, marks, fills ++ [fill], rfl, fun hbooks => (hfills hbooks).append_right _⟩

theorem SameFunds.values (h : SameFunds books s s') :
    s'.cash = s.cash ∧ s'.reservedCash = s.reservedCash ∧ s'.positions = s.positions ∧
      s'.realizedPnl = s.realizedPnl ∧ s'.nextUuid = s.nextUuid := by
  obtain ⟨orders, index, marks, fills, rfl, -⟩ := h
  exact ⟨rfl, rfl, rfl, rfl, rfl⟩

theorem SameOrder.values (h : SameOrder order order') :
    order'.id = order.id ∧ order'.symbol = order.symbol ∧ order'.side = order.side ∧
      order'.status = order.status ∧ order'.quantity = order.quantity ∧
      order'.riskDecision = order.riskDecision ∧ order'.riskReasonCode = order.riskReasonCode := by
  obtain ⟨key, clientOrderId, rfl⟩ := h
  exact ⟨rfl, rfl, rfl, rfl, rfl, rfl, rfl⟩

theorem SameOrder.filled (h : SameOrder order order') (qty price fee : ℚ) :
    SameOrder (filledOrder order qty price fee now) (filledOrder order' qty price fee now) := by
  obtain ⟨key, clientOrderId, rfl⟩ := h
  exact ⟨key, clientOrderId, rfl⟩

theorem SameOrder.boughtPosition (h : SameOrder order order') (existing : Option Position)
    (qty price : ℚ) :
    boughtPosition existing order' qty price now = boughtPosition existing order qty price now := by
  obtain ⟨key, clientOrderId, rfl⟩ := h
  rfl

/-- A fill does the same to both: it is recorded, and it is covered in both or in neither. -/
theorem applyFill_twin (h : SameFunds books s s') (ho : SameOrder order order') (qty price : ℚ)
    (isMaker : Bool) :
    Twin books (applyFill cfg s order qty price risk isMaker now)
      (applyFill cfg s' order' qty price risk isMaker now) := by
  obtain ⟨hid, hsymbol, hside, -⟩ := ho.values
  obtain ⟨hcash, -, hpositions, hpnl, hnext⟩ := h.values
  simp only [applyFill, hid, hsymbol, hside, hnext]
  generalize fillFee cfg qty price isMaker = fee
  have hrecorded := h.record
    { id := .uuid4 s.nextUuid
      orderId := order.id
      symbol := order.symbol
      side := order.side
      quantity := qty
      price := price
      fee := fee
      timestamp := now }
  rw [hnext] at hrecorded
  cases horder : order.side with
  | buy =>
    simp only [horder] at hrecorded ⊢
    have hfree : Twin books (releaseForFill _ order qty now) (releaseForFill _ order' qty now) :=
      releaseForFill_twin hrecorded ho qty
    generalize releaseForFill _ order qty now = r at hfree ⊢
    generalize releaseForFill _ order' qty now = r' at hfree ⊢
    obtain ⟨hcash, -, hpositions, hpnl, -⟩ := hfree.funds.values
    obtain ⟨-, hsymbol, -⟩ := hfree.order.values
    simp only [hcash, hpositions, hsymbol, hfree.order.boughtPosition]
    split_ifs
    · have hrelease := @releaseBuyReservation_twin books r.2 r'.2 r.1 r'.1 now hfree.funds
        hfree.order none
      exact update_twin hrelease.funds hrelease.order _ _
    · exact ⟨hfree.order.filled .., hfree.funds.pay _ _⟩
  | sell =>
    simp only [horder] at hrecorded ⊢
    have hposition : s'.positions.get? order.symbol = s.positions.get? order.symbol := by
      rw [hpositions]
    cases hp : s.positions.get? order.symbol with
    | none =>
      rw [hp] at hposition
      simp only [hposition]
      exact update_twin hrecorded ho _ _
    | some p =>
      rw [hp] at hposition
      simp only [hposition]
      split_ifs
      · exact update_twin hrecorded ho _ _
      · rw [hcash, hpnl, hpositions]
        exact ⟨ho.filled .., (hrecorded.pay _ _).realize _⟩

theorem settleFill_twin (h : SameFunds books s s') (ho : SameOrder order order')
    (fillQty total price : ℚ) (isMaker : Bool) :
    Twin books (settleFill cfg s order fillQty total price risk isMaker now)
      (settleFill cfg s' order' fillQty total price risk isMaker now) := by
  have hfill : Twin books (applyFill cfg s order fillQty price risk isMaker now)
      (applyFill cfg s' order' fillQty price risk isMaker now) := applyFill_twin h ho ..
  simp only [settleFill]
  generalize applyFill cfg s order fillQty price risk isMaker now = r at hfill ⊢
  generalize applyFill cfg s' order' fillQty price risk isMaker now = r' at hfill ⊢
  rw [hfill.order.values.2.2.2.1]
  split_ifs
  · exact hfill
  · exact update_twin hfill.funds hfill.order _ _
  · have hrelease := @releaseBuyReservation_twin books r.2 r'.2 r.1 r'.1 now hfill.funds hfill.order
      none
    exact update_twin hrelease.funds hrelease.order _ _

/-! ### Submissions -/

/-- The same request, under other keys. -/
def SameRequest (request request' : OrderRequest) : Prop :=
  ∃ key clientOrderId,
    request' = { request with idempotencyKey := key, clientOrderId := clientOrderId }

theorem executeFill_twin {request request' : OrderRequest} (h : SameFunds books s s')
    (ho : SameOrder order order') (hr : SameRequest request request') (mark : ℚ) :
    Twin books (executeFill cfg s order request risk mark now)
      (executeFill cfg s' order' request' risk mark now) := by
  obtain ⟨key, clientOrderId, rfl⟩ := hr
  have hqty : immediateQty cfg
      { request with idempotencyKey := key, clientOrderId := clientOrderId } =
        immediateQty cfg request := rfl
  simp only [executeFill, hqty]
  split_ifs
  · exact update_twin h ho _ _
  · exact settleFill_twin h ho _ _ _ _

theorem reserveFor_twin {request request' : OrderRequest} (h : SameFunds books s s')
    (ho : SameOrder order order') (hr : SameRequest request request') (mark : Option ℚ) :
    (reserveFor s order request risk mark now).1.2 =
        (reserveFor s' order' request' risk mark now).1.2 ∧
      Twin books ((reserveFor s order request risk mark now).1.1,
          (reserveFor s order request risk mark now).2)
        ((reserveFor s' order' request' risk mark now).1.1,
          (reserveFor s' order' request' risk mark now).2) := by
  obtain ⟨key, clientOrderId, rfl⟩ := hr
  have hsame : reservePrice { request with idempotencyKey := key, clientOrderId := clientOrderId }
      mark = reservePrice request mark := rfl
  simp only [reserveFor, hsame]
  cases request.side with
  | buy =>
    cases reservePrice request mark with
    | none => exact ⟨rfl, ho, h⟩
    | some px => exact reserveBuy_twin h ho _ px
  | sell => exact ⟨rfl, ho, h⟩

/-- A market order does not rest: it is executed at the mark, or fails for want of cash. -/
theorem placeOrder_market {request : OrderRequest} {mark : ℚ} (htype : request.orderType = .market)
    (hmark : s.markPrices.get? request.symbol = some mark) :
    placeOrder s order request risk now =
      if (reserveFor s order request risk (some mark) now).1.2 then
        .execute (reserveFor s order request risk (some mark) now).1.1
          (reserveFor s order request risk (some mark) now).2 mark
      else .done (reserveFor s order request risk (some mark) now).1.1
        (reserveFor s order request risk (some mark) now).2 := by
  simp [placeOrder, hmark, htype, marketable]

/-- The orders of the two submissions, and the ledgers that hold them. -/
theorem created_twin {request request' : OrderRequest} (h : SameFunds books s s')
    (hr : SameRequest request request') :
    Twin books (newOrder s request now, created s request now)
      (newOrder s' request' now, created s' request' now) := by
  obtain ⟨orders, index, marks, fills, rfl, hfills⟩ := h
  obtain ⟨key, clientOrderId, rfl⟩ := hr
  exact ⟨⟨key, _, rfl⟩, _, _, marks, fills, rfl, hfills⟩

/-- The order as it is submitted, with its ledger. -/
def submitted (s : PaperState) (request : OrderRequest) (risk : RiskEvaluation) (now : Time) :
    Order × PaperState :=
  let r := update (created s request now) (newOrder s request now) .approved risk none now
  update r.2 r.1 .submitted risk none now

theorem prepare_eq (request : OrderRequest) (roll : ℚ) :
    prepare cfg s request risk roll now =
      let r := submitted s request risk now
      if risk.decision = .rejected ∨ risk.decision = .halted then
        let r := update (created s request now) (newOrder s request now) .rejected risk none now
        .done r.1 r.2
      else if 0 < cfg.rejectProbability ∧ roll < cfg.rejectProbability then
        let r := update r.2 r.1 .rejected risk (some "insufficient_liquidity") now
        .done r.1 r.2
      else placeOrder r.2 r.1 request risk now := rfl

/-- What a market order comes to when its key is new. -/
theorem submitAfterLatency_market {request : OrderRequest} {mark roll : ℚ}
    (htype : request.orderType = .market)
    (hmark : s.markPrices.get? request.symbol = some mark) :
    submitAfterLatency cfg s request risk roll now =
      if risk.decision = .rejected ∨ risk.decision = .halted then
        update (created s request now) (newOrder s request now) .rejected risk none now
      else
        let r := submitted s request risk now
        if 0 < cfg.rejectProbability ∧ roll < cfg.rejectProbability then
          update r.2 r.1 .rejected risk (some "insufficient_liquidity") now
        else
          let reserved := reserveFor r.2 r.1 request risk (some mark) now
          if reserved.1.2 then executeFill cfg reserved.2 reserved.1.1 request risk mark now
          else (reserved.1.1, reserved.2) := by
  have hplace : placeOrder (submitted s request risk now).2 (submitted s request risk now).1
      request risk now = _ := placeOrder_market htype hmark
  rw [submitAfterLatency, prepare_eq]
  dsimp only
  rw [hplace]
  split_ifs <;> rfl

/-- **A market order does the same to both ledgers.**  It is submitted under a key of its
own to each, and both have the same mark of its symbol. -/
theorem submitAfterLatency_twin {request request' : OrderRequest} {mark roll : ℚ}
    (h : SameFunds books s s') (hr : SameRequest request request')
    (htype : request.orderType = .market)
    (hmark : s.markPrices.get? request.symbol = some mark)
    (hmark' : s'.markPrices.get? request.symbol = some mark) :
    Twin books (submitAfterLatency cfg s request risk roll now)
      (submitAfterLatency cfg s' request' risk roll now) := by
  have hcreated : Twin books (newOrder s request now, created s request now)
      (newOrder s' request' now, created s' request' now) := created_twin h hr
  have hsubmitted : Twin books (submitted s request risk now) (submitted s' request' risk now) := by
    have happroved := @update_twin books _ _ _ _ risk now hcreated.funds hcreated.order .approved
      none
    exact update_twin happroved.funds happroved.order _ _
  have hsame : request'.orderType = request.orderType ∧ request'.symbol = request.symbol := by
    obtain ⟨key, clientOrderId, rfl⟩ := hr
    exact ⟨rfl, rfl⟩
  rw [submitAfterLatency_market htype hmark,
    submitAfterLatency_market (hsame.1.trans htype) (hsame.2 ▸ hmark')]
  dsimp only
  generalize submitted s request risk now = r at hsubmitted ⊢
  generalize submitted s' request' risk now = r' at hsubmitted ⊢
  obtain ⟨hflag, hreserved⟩ := @reserveFor_twin books r.2 r'.2 r.1 r'.1 risk now request request'
    hsubmitted.funds hsubmitted.order hr (some mark)
  rw [← hflag]
  split_ifs
  · exact update_twin hcreated.funds hcreated.order _ _
  · exact update_twin hsubmitted.funds hsubmitted.order _ _
  · exact executeFill_twin hreserved.funds hreserved.order hr mark
  · exact hreserved

/-! ### Ledgers of market orders -/

/-- Every order is a market order, stored under its own identifier, and the identifiers
that are still to be drawn name no order and no fill. -/
structure MarketLedger (s : PaperState) : Prop where
  id_eq : ∀ {j o}, s.orders.get? j = some o → o.id = j
  market : ∀ {j o}, s.orders.get? j = some o → o.orderType = .market
  orders : ∀ n, s.nextUuid ≤ n → s.orders.get? (.uuid4 n) = none
  fills : ∀ n, s.nextUuid ≤ n → fillsOf s.fills (.uuid4 n) = []

theorem MarketLedger.fresh (marks : Dict String ℚ) : MarketLedger (Paper.fresh cfg marks) where
  id_eq := fun h => by cases h
  market := fun h => by cases h
  orders := fun _ _ => rfl
  fills := fun _ _ => rfl

/-- A market order does not rest, so no mark triggers it. -/
theorem MarketLedger.quiet (h : MarketLedger s) (symbol : String) (mark : ℚ) :
    Quiet cfg s symbol mark := by
  intro o ho
  obtain ⟨j, hj⟩ := Dict.mem_values_iff.mp ho
  have hcrosses : crosses o mark = false := by
    unfold crosses
    rw [h.market hj]
  unfold restingFill
  dsimp only
  rw [if_neg]
  rintro ⟨-, -, -, htrue, -⟩
  rw [hcrosses] at htrue
  cases htrue

theorem MarketLedger.marked (h : MarketLedger s) (symbol : String) (price : ℚ) :
    MarketLedger (setMarkPrice cfg s symbol price now) := by
  rw [(h.quiet symbol price).setMarkPrice_eq]
  exact ⟨h.id_eq, h.market, h.orders, h.fills⟩

theorem MarketLedger.markPrices (h : MarketLedger s) (symbol : String) (price : ℚ) :
    (setMarkPrice cfg s symbol price now).markPrices.get? symbol = some price := by
  rw [(h.quiet symbol price).setMarkPrice_eq]
  exact Dict.get?_set_self ..

theorem MarketLedger.fillsOk_marked (h : MarketLedger s) (symbol : String) (price : ℚ) :
    Reconciliation.FillsOk (setMarkPrice cfg s symbol price now) ↔ Reconciliation.FillsOk s := by
  rw [(h.quiet symbol price).setMarkPrice_eq]
  exact Iff.rfl

/-- Both ledgers are marked the same. -/
theorem SameFunds.marked (h : SameFunds books s s') (hs : MarketLedger s) (hs' : MarketLedger s')
    (symbol : String) (price : ℚ) :
    SameFunds books (setMarkPrice cfg s symbol price now) (setMarkPrice cfg s' symbol price now) := by
  rw [(hs.quiet symbol price).setMarkPrice_eq, (hs'.quiet symbol price).setMarkPrice_eq]
  obtain ⟨orders, index, marks, fills, rfl, hfills⟩ := h
  exact ⟨orders, index, _, fills, rfl, hfills⟩

theorem MarketLedger.markedAll (marks : List (String × ℚ)) : ∀ {s : PaperState}, MarketLedger s →
    MarketLedger (markAll cfg now s marks) := by
  induction marks with
  | nil => exact fun h => h
  | cons m marks ih => exact fun h => ih (h.marked m.1 m.2)

/-- What marks leave of a ledger of market orders. -/
theorem MarketLedger.markAll_eq (cfg : PaperConfig) (now : Time) (marks : List (String × ℚ)) :
    ∀ {s : PaperState}, MarketLedger s → ∃ prices positions, markAll cfg now s marks =
        { s with markPrices := prices, positions := positions } ∧
      (s.positions = ∅ → positions = ∅) := by
  induction marks with
  | nil => exact fun _ => ⟨_, _, rfl, id⟩
  | cons m marks ih =>
    intro s h
    have hmarked : MarketLedger (setMarkPrice cfg s m.1 m.2 now) := h.marked m.1 m.2
    obtain ⟨prices, positions, heq, hflat⟩ := ih hmarked
    have hmark : setMarkPrice cfg s m.1 m.2 now = markState s m.1 m.2 :=
      (h.quiet m.1 m.2).setMarkPrice_eq now
    rw [hmark] at heq hflat
    refine ⟨prices, positions, ?_, fun hnone => hflat ?_⟩
    · show markAll cfg now (setMarkPrice cfg s m.1 m.2 now) marks = _
      rw [hmark, heq]
      rfl
    · rw [markState, hnone]
      rfl

theorem MarketLedger.fillsOk_markedAll (h : MarketLedger s) (marks : List (String × ℚ)) :
    Reconciliation.FillsOk (markAll cfg now s marks) ↔ Reconciliation.FillsOk s := by
  obtain ⟨prices, positions, heq, -⟩ := h.markAll_eq cfg now marks
  rw [heq]
  exact Iff.rfl

/-- Both ledgers are marked the same in turn. -/
theorem SameFunds.markedAll (marks : List (String × ℚ)) : ∀ {s s' : PaperState},
    SameFunds books s s' → MarketLedger s → MarketLedger s' →
    SameFunds books (markAll cfg now s marks) (markAll cfg now s' marks) := by
  induction marks with
  | nil => exact fun h _ _ => h
  | cons m marks ih =>
    exact fun h hs hs' => ih (h.marked hs hs' m.1 m.2) (hs.marked m.1 m.2) (hs'.marked m.1 m.2)

/-- Without positions, marks make no difference to the funds. -/
theorem SameFunds.markedFlat {marks marks' : List (String × ℚ)} (h : SameFunds books s s')
    (hs : MarketLedger s) (hs' : MarketLedger s') (hflat : s.positions = ∅) :
    SameFunds books (markAll cfg now s marks) (markAll cfg now s' marks') := by
  obtain ⟨prices, positions, heq, hnone⟩ := hs.markAll_eq cfg now marks
  obtain ⟨prices', positions', heq', hnone'⟩ := hs'.markAll_eq cfg now marks'
  have hflat' : s'.positions = ∅ := h.values.2.2.1.trans hflat
  rw [heq, heq', hnone hflat, hnone' hflat']
  obtain ⟨orders, index, _, fills, rfl, hfills⟩ := h
  exact ⟨orders, index, prices', fills, rfl, hfills⟩

/-- Of two marks of a symbol the last one stands. -/
theorem markPositions_markPositions (positions : Dict String Position) (symbol : String)
    (price price' : ℚ) :
    markPositions (markPositions positions symbol price) symbol price' =
      markPositions positions symbol price' := by
  unfold markPositions
  cases hp : positions.get? symbol with
  | none => simp only [hp]
  | some p => simp only [Dict.get?_set_self, Dict.set_set]

/-- Marks of one symbol leave the positions as the last one does. -/
theorem MarketLedger.markAll_positions {symbol : String} (price : ℚ) (prices : List ℚ) :
    ∀ {s : PaperState}, MarketLedger s →
    (markAll cfg now s ((prices ++ [price]).map fun x => (symbol, x))).positions =
      markPositions s.positions symbol price := by
  induction prices with
  | nil =>
    intro s h
    show (setMarkPrice cfg s symbol price now).positions = _
    rw [(h.quiet symbol price).setMarkPrice_eq]
    rfl
  | cons x prices ih =>
    intro s h
    have hmarked : MarketLedger (setMarkPrice cfg s symbol x now) := h.marked symbol x
    have hlast := ih hmarked
    rw [(h.quiet symbol x).setMarkPrice_eq] at hlast
    refine Eq.trans ?_ (hlast.trans (markPositions_markPositions ..))
    rw [← (h.quiet symbol x).setMarkPrice_eq now]
    rfl

/-- **Marks of one symbol that end at the price of its position** make no difference to the
funds. -/
theorem SameFunds.remarked {symbol : String} {prices : List ℚ} (h : SameFunds books s s')
    (hs' : MarketLedger s')
    (hlast : ∀ p, s'.positions.get? symbol = some p → prices.getLast? = some p.currentPrice ∧
      p.unrealizedPnl = (p.currentPrice - p.entryPrice) * p.quantity) :
    SameFunds books s (markAll cfg now s' (prices.map fun x => (symbol, x))) := by
  obtain ⟨marks, positions, heq, -⟩ := hs'.markAll_eq cfg now (prices.map fun x => (symbol, x))
  have hpositions : positions = s'.positions := by
    have hsame : (markAll cfg now s' (prices.map fun x => (symbol, x))).positions =
        s'.positions := by
      rcases List.eq_nil_or_concat prices with rfl | ⟨init, price, rfl⟩
      · rfl
      · rw [List.concat_eq_append, hs'.markAll_positions]
        refine markPositions_self fun p hp => ?_
        obtain ⟨hprice, hunrealized⟩ := hlast p hp
        rw [List.concat_eq_append, List.getLast?_concat, Option.some.injEq] at hprice
        rw [hprice]
        exact ⟨rfl, hunrealized⟩
    rw [heq] at hsame
    exact hsame
  rw [heq, hpositions]
  obtain ⟨orders, index, _, fills, rfl, hfills⟩ := h
  exact ⟨orders, index, marks, fills, rfl, hfills⟩

/-- What a submission leaves of the orders and the fills. -/
theorem submitAfterLatency_stores (request : OrderRequest) (roll : ℚ) :
    let r := submitAfterLatency cfg s request risk roll now
    (r.1.id = .uuid4 s.nextUuid ∧ r.1.orderType = request.orderType) ∧
      r.2.orders.get? (.uuid4 s.nextUuid) = some r.1 ∧
      (∀ {j}, .uuid4 s.nextUuid ≠ j → r.2.orders.get? j = s.orders.get? j) ∧
      (∃ fs, r.2.fills = s.fills ++ fs ∧ ∀ f ∈ fs, f.orderId = .uuid4 s.nextUuid) ∧
      s.nextUuid < r.2.nextUuid ∧
      r.2.idempotencyIndex = s.idempotencyIndex.set request.idempotencyKey (.uuid4 s.nextUuid) := by
  have hw : Works (created s request now) (newOrder s request now)
      (submitAfterLatency cfg s request risk roll now) :=
    submitAfterLatency_works s request risk roll now
  intro r
  have hid : r.1.id = .uuid4 s.nextUuid := hw.same.id
  refine ⟨⟨hid, hw.same.orderType⟩, hid ▸ hw.stored, fun {j} hj => ?_, hw.frame.fills, ?_,
    hw.frame.index⟩
  · exact (hw.frame.orders hj).trans (Dict.get?_set_ne _ hj _)
  · exact Nat.lt_of_succ_le hw.frame.next

theorem MarketLedger.submit {request : OrderRequest} {roll : ℚ} (h : MarketLedger s)
    (htype : request.orderType = .market) :
    MarketLedger (submitAfterLatency cfg s request risk roll now).2 := by
  obtain ⟨⟨hid, hmarket⟩, hstored, hothers, ⟨fs, hfills, hown⟩, hnext, -⟩ :=
    @submitAfterLatency_stores cfg s risk now request roll
  generalize submitAfterLatency cfg s request risk roll now = r at *
  -- an identifier to be drawn later is not the one of the new order
  have hlater : ∀ n, r.2.nextUuid ≤ n → Ident.uuid4 s.nextUuid ≠ .uuid4 n := by
    intro n hn heq
    rw [Ident.uuid4.injEq] at heq
    omega
  refine ⟨fun {j o} ho => ?_, fun {j o} ho => ?_, fun n hn => ?_, fun n hn => ?_⟩
  · by_cases hj : Ident.uuid4 s.nextUuid = j
    · rw [← hj, hstored, Option.some.injEq] at ho
      rw [← ho, hid, hj]
    · exact h.id_eq (by rwa [hothers hj] at ho)
  · by_cases hj : Ident.uuid4 s.nextUuid = j
    · rw [← hj, hstored, Option.some.injEq] at ho
      rw [← ho, hmarket, htype]
    · exact h.market (by rwa [hothers hj] at ho)
  · rw [hothers (hlater n hn)]
    exact h.orders n (hnext.le.trans hn)
  · rw [hfills, fillsOf_append, h.fills n (hnext.le.trans hn), List.nil_append]
    exact fillsOf_eq_nil fun f hf heq => hlater n hn ((hown f hf).symm.trans heq)

/-! ### What the reconciliation reads -/

/-- **What a submission changes of the check of the filled quantities**: the new order is
checked as well. -/
theorem submitAfterLatency_fillsOk {request : OrderRequest} {roll : ℚ} (h : MarketLedger s) :
    Reconciliation.FillsOk (submitAfterLatency cfg s request risk roll now).2 ↔
      Reconciliation.FillsOk s ∧
        filledOf (submitAfterLatency cfg s request risk roll now).2.fills
            (submitAfterLatency cfg s request risk roll now).1.id ≤
          (submitAfterLatency cfg s request risk roll now).1.quantity := by
  obtain ⟨⟨hid, -⟩, hstored, hothers, ⟨fs, hfills, hown⟩, -⟩ :=
    @submitAfterLatency_stores cfg s risk now request roll
  generalize submitAfterLatency cfg s request risk roll now = r at *
  -- the fills of an earlier order are those from before
  have hold : ∀ {j o}, s.orders.get? j = some o →
      Ident.uuid4 s.nextUuid ≠ j ∧ fillsOf r.2.fills o.id = fillsOf s.fills o.id := by
    intro j o ho
    have hj : Ident.uuid4 s.nextUuid ≠ j := by
      rintro rfl
      rw [h.orders _ le_rfl] at ho
      cases ho
    refine ⟨hj, ?_⟩
    have hnone : fillsOf fs o.id = [] :=
      fillsOf_eq_nil fun f hf heq => hj (((hown f hf).symm.trans heq).trans (h.id_eq ho))
    rw [hfills, fillsOf_append, hnone, List.append_nil]
  constructor
  · intro hall
    refine ⟨fun o ho => ?_, hall r.1 (Dict.mem_values_iff.mpr ⟨_, hstored⟩)⟩
    obtain ⟨j, hj⟩ := Dict.mem_values_iff.mp ho
    obtain ⟨hne, hsame⟩ := hold hj
    rw [← hsame]
    exact hall o (Dict.mem_values_iff.mpr ⟨j, (hothers hne).trans hj⟩)
  · rintro ⟨hall, hnew⟩ o ho
    obtain ⟨j, hj⟩ := Dict.mem_values_iff.mp ho
    by_cases hne : Ident.uuid4 s.nextUuid = j
    · rw [← hne, hstored, Option.some.injEq] at hj
      exact hj ▸ hnew
    · rw [hothers hne] at hj
      rw [(hold hj).2]
      exact hall o (Dict.mem_values_iff.mpr ⟨j, hj⟩)

theorem filledOf_perm {fills fills' : List Fill} (h : fills.Perm fills') (id : Ident) :
    filledOf fills id = filledOf fills' id := ((h.filter _).map _).sum_eq

theorem netQuantity_perm {fills fills' : List Fill} (h : fills.Perm fills') (symbol : String) :
    netQuantity fills symbol = netQuantity fills' symbol := ((h.filter _).map _).sum_eq

/-- The reconciliation finds the same of two ledgers with the same funds and fills, if it
finds the same of their filled quantities. -/
theorem SameFunds.healthy_iff {enabled : Bool} {C : ℚ} (h : SameFunds (enabled = true) s s')
    (hwithin : enabled = true → (Reconciliation.FillsOk s ↔ Reconciliation.FillsOk s')) :
    Reconciliation.Healthy enabled C s ↔ Reconciliation.Healthy enabled C s' := by
  unfold Reconciliation.Healthy
  refine imp_congr_right fun henabled => ?_
  obtain ⟨orders, index, marks, fills, rfl, hfills⟩ := h
  have hperm : s.fills.Perm fills := hfills henabled
  refine and_congr Iff.rfl (and_congr Iff.rfl (and_congr (hwithin henabled) ?_))
  have hcash : (s.fills.map Fill.signedCash).sum = (fills.map Fill.signedCash).sum :=
    (hperm.map _).sum_eq
  have hempty : s.fills = [] ↔ fills = [] := by
    constructor
    · intro hnil
      exact List.nil_perm.mp (hnil ▸ hperm)
    · intro hnil
      exact List.perm_nil.mp (hnil ▸ hperm)
  simp only [Reconciliation.DriftOk, Reconciliation.LedgerComplete, netQuantity_perm hperm, hcash,
    hempty, hperm.mem_iff, Reconciliation.reconstructed]

/-- A submission to both ledgers leaves their filled quantities equally good. -/
theorem fillsOk_twin {request request' : OrderRequest} {mark roll : ℚ} (h : SameFunds True s s')
    (hr : SameRequest request request') (htype : request.orderType = .market)
    (hmark : s.markPrices.get? request.symbol = some mark)
    (hmark' : s'.markPrices.get? request.symbol = some mark) (hs : MarketLedger s)
    (hs' : MarketLedger s')
    (hwithin : Reconciliation.FillsOk s ↔ Reconciliation.FillsOk s') :
    Reconciliation.FillsOk (submitAfterLatency cfg s request risk roll now).2 ↔
      Reconciliation.FillsOk (submitAfterLatency cfg s' request' risk roll now).2 := by
  have htwin : Twin True (submitAfterLatency cfg s request risk roll now)
      (submitAfterLatency cfg s' request' risk roll now) :=
    submitAfterLatency_twin h hr htype hmark hmark'
  rw [submitAfterLatency_fillsOk hs, submitAfterLatency_fillsOk hs', hwithin]
  generalize submitAfterLatency cfg s request risk roll now = r at htwin ⊢
  generalize submitAfterLatency cfg s' request' risk roll now = r' at htwin ⊢
  obtain ⟨orders, index, marks, fills, hledger, hfills⟩ := htwin.funds
  obtain ⟨hid, -, -, -, hquantity, -⟩ := htwin.order.values
  rw [hid, hquantity, filledOf_perm (hfills trivial), hledger]

end Paper

end Atlas
