import Atlas.Paper.Reservation

/-!
# The two ways to cancel an order

The broker facade cancels an order by writing its status; the engine also releases what the
order holds of the reserved cash.  They differ too in which orders they leave alone: the
broker cancels an order that has expired or failed.

The broker works on the ledger of the engine, so the states considered are those that
operations of the engine and cancellations of the broker reach together.

## Main definitions

* `brokerCancelOrder` — `PaperBroker.cancel_order`.
* `BrokerReached` — the states reached by the engine and the broker.
* `SameOutcome`, `CancelsAgree` — what the two ways are compared by.

## Main results

* `BrokerReached.backed` — the reserved cash stays backed by the orders.
* `cancels_agree_iff` — **when the two ways agree.**
* `cancels_differ` — a resting BUY keeps its reservation, an expired order is cancelled.

## References

`app/execution/broker.py`, `app/execution/paper/engine.py`.
-/

namespace Atlas

/-- The status of an order, and what its metadata say of its reservation. -/
def Order.closing (order : Order) : OrderStatus × Option Bool × Option ℚ × Option ℚ :=
  (order.status, order.metadata.reservationOpen, order.metadata.reservedNotional,
    order.metadata.reservedRemaining)

namespace Paper

/-- `PaperBroker.cancel_order`; an unknown order is answered with `None`. -/
def brokerCancelOrder (s : PaperState) (orderId : Ident) : Option Order × PaperState :=
  match s.orders.get? orderId with
  | none => (none, s)
  | some order =>
      if order.status ∈ [.filled, .cancelled, .rejected] then (some order, s)
      else
        let updated := { order with status := .cancelled }
        (some updated, { s with orders := s.orders.set orderId updated })

/-! ### The states of an engine behind a broker -/

/-- An operation on the engine, or a cancellation by the broker. -/
inductive BrokerOp
  | engine (op : Op)
  | cancelOrder (orderId : Ident)
  deriving DecidableEq, Repr

variable {cfg : PaperConfig} {marks : Dict String ℚ} {s : PaperState} {order : Order}
  {id : Ident} {now : Time}

/-- The engine and its broker as a transition system. -/
def brokerStep (cfg : PaperConfig) (s : PaperState) : BrokerOp → Option PaperState
  | .engine op => some (step cfg s op)
  | .cancelOrder orderId => some (brokerCancelOrder s orderId).2

/-- The operation is one a caller may make. -/
def BrokerOp.Valid : BrokerOp → Prop
  | .engine op => op.Valid
  | .cancelOrder _ => True

/-- The states a new engine reaches by operations of its own and of the broker. -/
abbrev BrokerReached (cfg : PaperConfig) (marks : Dict String ℚ) : PaperState → Prop :=
  Transition.Reachable (brokerStep cfg) (fun _ op => op.Valid) (fresh cfg marks)

/-- What the engine reaches alone. -/
theorem Reached.broker {ok : Attempt → Prop} (h : Reached cfg ok marks s) :
    BrokerReached cfg marks s := by
  induction h with
  | init => exact .init
  | @step s s' op hr hop hs ih =>
    have hvalid : (BrokerOp.engine op).Valid := hop.1
    exact ih.step hvalid hs

/-- What the broker does: nothing, or it writes the status of a stored order. -/
theorem brokerCancelOrder_cases (s : PaperState) (id : Ident) (hk : Keyed s) :
    (brokerCancelOrder s id).2 = s ∨ ∃ order, Stored s order ∧
      Works s order ({ order with status := .cancelled }, (brokerCancelOrder s id).2) ∧
      (brokerCancelOrder s id).2.reservedCash = s.reservedCash := by
  simp only [brokerCancelOrder]
  cases h : s.orders.get? id with
  | none => exact .inl rfl
  | some order =>
    dsimp only
    split_ifs
    · exact .inl rfl
    · obtain rfl : order.id = id := hk.id_eq h
      refine .inr ⟨order, h, ⟨Dict.get?_set_self .., ⟨rfl, rfl, rfl, rfl, rfl, rfl, rfl⟩, ?_⟩, rfl⟩
      exact Frame.set s { order with status := .cancelled } s.cash s.reservedCash

/-- **The reserved cash stays backed**, and the ledger keyed, also behind a broker. -/
theorem BrokerReached.backed (h : BrokerReached cfg marks s) : Keyed s ∧ Backed s := by
  have h₀ : Keyed (fresh cfg marks) ∧ Backed (fresh cfg marks) :=
    ⟨Keyed.fresh marks, Backed.fresh marks⟩
  refine Transition.Reachable.invariant (I := fun s => Keyed s ∧ Backed s) h h₀ ?_
  rintro s op s' ⟨hk, hb⟩ hop hs
  cases op with
  | engine op =>
    rw [← Option.some.inj hs]
    have heff : Effects cfg (fun _ => True) s (step cfg s op) :=
      step_effects hk hop fun _ _ => trivial
    exact ⟨heff.keyed hk, heff.invariant Backed.effect hk hb⟩
  | cancelOrder id =>
    rw [← Option.some.inj hs]
    rcases brokerCancelOrder_cases s id hk with h | ⟨order, ho, hw, hcash⟩
    · rw [h]
      exact ⟨hk, hb⟩
    · -- the metadata of the order is not touched
      have hbal : Balanced s order ({ order with status := .cancelled }, _) :=
        .same (hb.funded ho) rfl rfl rfl hcash
      exact ⟨hw.keyed hk ho, hb.balanced ho hw hbal⟩

/-! ### Comparing the two -/

/-- The same cash, and of every order the same status and reservation. -/
structure SameOutcome (b e : PaperState) : Prop where
  cash : b.cash = e.cash
  reservedCash : b.reservedCash = e.reservedCash
  orders : ∀ j, (b.orders.get? j).map Order.closing = (e.orders.get? j).map Order.closing

/-- **The two ways agree**: from `s` the broker leads to `b` and the engine to `e`, with the
same outcome; both release an open reservation, and both leave an order that has ended. -/
structure CancelsAgree (s b e : PaperState) (id : Ident) : Prop where
  same : SameOutcome b e
  released : ∀ order, s.orders.get? id = some order → ¬order.status.Terminal → order.Reserving →
    ∀ r ∈ [b, e], ∀ o, r.orders.get? id = some o → ¬o.Reserving
  untouched : ∀ order, s.orders.get? id = some order → order.status.Terminal → b = s ∧ e = s

/-- The broker on an order it cancels. -/
theorem brokerCancelOrder_writes (h : s.orders.get? id = some order)
    (hst : order.status ∉ [.filled, .cancelled, .rejected]) :
    (brokerCancelOrder s id).2 =
      { s with orders := s.orders.set id { order with status := .cancelled } } := by
  simp only [brokerCancelOrder, h]
  rw [if_neg hst]

theorem brokerCancelOrder_keeps (h : s.orders.get? id = some order)
    (hst : order.status ∈ [.filled, .cancelled, .rejected]) : (brokerCancelOrder s id).2 = s := by
  simp only [brokerCancelOrder, h]
  rw [if_pos hst]

/-- The engine on an open order, and on one that has ended. -/
theorem cancel_closes (h : s.orders.get? id = some order) (hopen : ¬order.status.Terminal) :
    (cancel s id now).2 = (closeOrder s order .cancelled now).2 := by
  have hst : order.status ∈ [.created, .riskPending, .approved, .submitted, .partiallyFilled] := by
    cases hs : order.status <;> simp [hs, OrderStatus.Terminal] at hopen ⊢
  simp only [cancel, h]
  rw [if_pos hst]

theorem cancel_keeps (h : s.orders.get? id = some order) (hterm : order.status.Terminal) :
    (cancel s id now).2 = s := by
  have hst : order.status ∉ [.created, .riskPending, .approved, .submitted, .partiallyFilled] := by
    rcases hterm with h | h | h | h | h <;> rw [h] <;> decide
  simp only [cancel, h]
  rw [if_neg hst]

/-- An order that holds nothing is closed by its status alone. -/
theorem closeOrder_of_not_reserving (st : OrderStatus) (h : ¬order.Reserving) :
    (closeOrder s order st now).2 =
      { s with orders := s.orders.set order.id { order with status := st, updatedAt := now } } := by
  have hrel : releaseBuyReservation s order none now = (order, s) := by
    rw [releaseBuyReservation_eq, if_neg h]
  simp only [closeOrder, hrel]

/-- The order the engine closes holds nothing any more. -/
theorem closeOrder_not_reserving (hb : Backed s) (hs : Stored s order) (st : OrderStatus)
    (now : Time) : ¬(closeOrder s order st now).1.Reserving :=
  releaseBuyReservation_closed now (hb.funded hs) (hb.le hs)

/-- An open order has none of the statuses that the broker leaves alone. -/
theorem not_mem_of_open {st : OrderStatus} (hopen : ¬st.Terminal) :
    st ∉ [OrderStatus.filled, .cancelled, .rejected] := by
  intro hmem
  simp only [List.mem_cons, List.not_mem_nil, or_false] at hmem
  rcases hmem with h | h | h <;> exact hopen (by simp [h, OrderStatus.Terminal])

/-- Where the outcome is the same, the order has neither expired nor failed, and holds no
reservation while it is open. -/
theorem SameOutcome.of_order (hk : Keyed s) (hb : Backed s) {id : Ident}
    (hsame : SameOutcome (brokerCancelOrder s id).2 (cancel s id now).2)
    (horder : s.orders.get? id = some order) :
    order.status ≠ .expired ∧ order.status ≠ .failed ∧
      (¬order.status.Terminal → ¬order.Reserving) := by
  have hview := hsame.orders id
  have hs : Stored s order := by rwa [Stored, hk.id_eq horder]
  -- the broker writes the status of an order that it does not leave alone
  have hwrites : order.status ∉ [.filled, .cancelled, .rejected] →
      (brokerCancelOrder s id).2.orders.get? id = some { order with status := .cancelled } := by
    intro hst
    simp only [brokerCancelOrder_writes horder hst]
    exact Dict.get?_set_self ..
  -- the engine leaves an order that has ended
  have hended : order.status.Terminal → (cancel s id now).2.orders.get? id = some order := by
    intro hterm
    rw [cancel_keeps horder hterm, horder]
  refine ⟨?_, ?_, ?_⟩
  · intro hst
    rw [hwrites (by simp [hst]), hended (by simp [hst, OrderStatus.Terminal])] at hview
    simp [Order.closing, hst] at hview
  · intro hst
    rw [hwrites (by simp [hst]), hended (by simp [hst, OrderStatus.Terminal])] at hview
    simp [Order.closing, hst] at hview
  · intro hopen hreserving
    have hclosed : (cancel s id now).2.orders.get? id =
        some (closeOrder s order .cancelled now).1 := by
      have hw : Works s order (closeOrder s order .cancelled now) := closeOrder_works .cancelled hs
      rw [cancel_closes horder hopen, ← hk.id_eq horder, ← hw.same.id]
      exact hw.stored
    rw [hwrites (not_mem_of_open hopen), hclosed] at hview
    refine closeOrder_not_reserving hb hs .cancelled now ?_
    simp only [Order.closing, Option.map_some, Option.some.injEq, Prod.mk.injEq] at hview
    rw [Order.Reserving, ← hview.2.1]
    exact hreserving

/-- Both ways leave an unknown order. -/
theorem CancelsAgree.of_unknown {id : Ident} (horder : s.orders.get? id = none) (now : Time) :
    CancelsAgree s (brokerCancelOrder s id).2 (cancel s id now).2 id := by
  have hbroker : (brokerCancelOrder s id).2 = s := by simp only [brokerCancelOrder, horder]
  have hengine : (cancel s id now).2 = s := by simp only [cancel, horder]
  rw [hbroker, hengine]
  exact ⟨⟨rfl, rfl, fun _ => rfl⟩, by simp [horder], by simp⟩

/-- Such an order is left by both, or closed by both. -/
theorem CancelsAgree.of_order (hk : Keyed s) {id : Ident}
    (horder : s.orders.get? id = some order) (hexpired : order.status ≠ .expired)
    (hfailed : order.status ≠ .failed) (hnone : ¬order.status.Terminal → ¬order.Reserving)
    (now : Time) : CancelsAgree s (brokerCancelOrder s id).2 (cancel s id now).2 id := by
  by_cases hterm : order.status.Terminal
  · -- filled, cancelled or rejected: both leave it
    have hst : order.status ∈ [.filled, .cancelled, .rejected] := by
      rcases hterm with h | h | h | h | h <;> simp [h] at hexpired hfailed ⊢
    rw [brokerCancelOrder_keeps horder hst, cancel_keeps horder hterm]
    refine ⟨⟨rfl, rfl, fun _ => rfl⟩, fun o ho hopen => ?_, fun _ _ _ => ⟨rfl, rfl⟩⟩
    rw [horder, Option.some.injEq] at ho
    exact absurd (ho ▸ hterm) hopen
  · have hengine : (cancel s id now).2 = { s with
        orders := s.orders.set id { order with status := .cancelled, updatedAt := now } } := by
      rw [cancel_closes horder hterm, closeOrder_of_not_reserving _ (hnone hterm), hk.id_eq horder]
    rw [brokerCancelOrder_writes horder (not_mem_of_open hterm), hengine]
    refine ⟨⟨rfl, rfl, fun j => ?_⟩, fun o ho _ hopen => ?_, fun o ho hended => ?_⟩
    · simp only [Dict.get?_set]
      split_ifs <;> rfl
    · rw [horder, Option.some.injEq] at ho
      exact absurd (ho ▸ hopen) (hnone hterm)
    · rw [horder, Option.some.injEq] at ho
      exact absurd (ho ▸ hended) hterm

/-- **When the two ways agree**: the order has neither expired nor failed, and does not
hold a reservation while it is open. -/
theorem cancels_agree_iff (h : BrokerReached cfg marks s) (id : Ident) (now : Time) :
    let b := (brokerCancelOrder s id).2
    let e := (cancel s id now).2
    let condition := ∀ order, s.orders.get? id = some order →
      order.status ≠ .expired ∧ order.status ≠ .failed ∧
        (¬order.status.Terminal → ¬order.Reserving)
    (SameOutcome b e ↔ condition) ∧ (CancelsAgree s b e id ↔ condition) := by
  intro b e condition
  obtain ⟨hk, hb⟩ := h.backed
  have hnecessary : SameOutcome b e → condition := fun hsame _ horder =>
    hsame.of_order hk hb horder
  have hsufficient : condition → CancelsAgree s b e id := by
    intro hcond
    cases horder : s.orders.get? id with
    | none => exact .of_unknown horder now
    | some order =>
      obtain ⟨hexpired, hfailed, hnone⟩ := hcond order horder
      exact .of_order hk horder hexpired hfailed hnone now
  exact ⟨⟨hnecessary, fun hcond => (hsufficient hcond).same⟩,
    ⟨fun hagree => hnecessary hagree.same, hsufficient⟩⟩

/-- A filled order is left alone by both. -/
theorem cancels_agree_iff_filled :
    let s := run {} (markAt 100) [marketOrder .buy "a" 1]
    CancelsAgree s (brokerCancelOrder s (.uuid4 0)).2 (cancel s (.uuid4 0) 0).2 (.uuid4 0) := by
  intro s
  have hok : RunOk {} (fun _ => True) (markAt 100) [marketOrder .buy "a" 1] := by decide +kernel
  refine (cancels_agree_iff (Reached.run hok).broker (.uuid4 0) 0).2.mpr ?_
  intro order horder
  have hfilled : (s.orders.get? (.uuid4 0)).map Order.status = some .filled := by decide +kernel
  rw [horder, Option.map_some, Option.some.injEq] at hfilled
  simp [hfilled, OrderStatus.Terminal]

/-- A resting BUY keeps its reservation when the broker cancels it, and an order that has
expired is cancelled once more. -/
theorem cancels_differ :
    let s := run {} (markAt 110) [limitOrder .buy "a" 1 100]
    let t := run {} (markAt 110) [limitOrder .buy "a" 1 100, .expire (.uuid4 0) 0]
    (BrokerReached {} (markAt 110) s ∧
        ¬SameOutcome (brokerCancelOrder s (.uuid4 0)).2 (cancel s (.uuid4 0) 0).2) ∧
      BrokerReached {} (markAt 110) t ∧
        ¬SameOutcome (brokerCancelOrder t (.uuid4 0)).2 (cancel t (.uuid4 0) 0).2 := by
  intro s t
  have hs : RunOk {} (fun _ => True) (markAt 110) [limitOrder .buy "a" 1 100] := by
    decide +kernel
  have ht : RunOk {} (fun _ => True) (markAt 110)
      [limitOrder .buy "a" 1 100, .expire (.uuid4 0) 0] := by
    decide +kernel
  refine ⟨⟨(Reached.run hs).broker, fun h => ?_⟩, (Reached.run ht).broker, fun h => ?_⟩
  · exact absurd h.cash (by decide +kernel)
  · exact absurd (h.orders (.uuid4 0)) (by decide +kernel)

end Paper

end Atlas
