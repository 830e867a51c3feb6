import Mathlib.Logic.Relation
import Atlas.Lib.Transition
import Atlas.Paper.Engine

/-!
# The elementary effects of the paper engine

Every operation of the engine is a sequence of a few elementary effects on the
ledger: an order is created, its status is set, its reservation is made, it is
rejected for want of a trigger, it is closed, a mark is set, or a fill is
attempted.  What the engine can do is said once, here, by the relation
`Effect`; an invariant of the engine is then proved by one case for each effect.

A fill the engine attempts is an `Attempt`: the state it is attempted in and the
arguments of the fill.  `attempts cfg s op` lists the attempts of an operation,
so that a condition on fills is a condition on the states before them.

## Main definitions

* `Attempt`, `Attempt.apply`, `attempts` — the fills an operation attempts.
* `Effect cfg ok` — one elementary effect, each attempt of which meets `ok`.
* `Frame j s s'` — what an effect on the order `j` leaves alone.
* `Attempt.Outcome` — the ways an attempt can end.

## Main results

* `Attempt.outcome` — an attempt ends in one of these ways.
* `Attempt.apply_frame` — an attempt touches no other order.
-/

namespace Atlas

/-- What a caller may pass to the engine: a request without reservation keys. -/
def Paper.Op.Valid : Paper.Op → Prop
  | .submit request _ _ _ => request.metadata.NoReservation
  | _ => True

namespace Paper

instance (op : Op) : Decidable op.Valid := by
  cases op <;> unfold Op.Valid <;> infer_instance

variable (cfg : PaperConfig)

/-- The order is the one stored under its identifier. -/
def Stored (s : PaperState) (order : Order) : Prop := s.orders.get? order.id = some order

/-! ### Attempts -/

/-- A fill about to be applied: the state, and the arguments of the fill. -/
structure Attempt where
  state : PaperState
  order : Order
  fillQty : ℚ
  total : ℚ
  price : ℚ
  risk : RiskEvaluation
  isMaker : Bool
  now : Time

/-- The outcome of an attempt; a quantity that rounds to zero fails the order. -/
def Attempt.apply (a : Attempt) : Order × PaperState :=
  if a.fillQty ≤ 0 then update a.state a.order .failed a.risk none a.now
  else settleFill cfg a.state a.order a.fillQty a.total a.price a.risk a.isMaker a.now

/-- The attempt of the immediate execution. -/
def immediateAttempt (s : PaperState) (order : Order) (request : OrderRequest)
    (risk : RiskEvaluation) (mark : ℚ) (now : Time) : Attempt where
  state := s
  order := order
  fillQty := immediateQty cfg request
  total := request.quantity
  price := fillPrice cfg mark request.orderType request.side request.price
  risk := risk
  isMaker := request.orderType = .limit
  now := now

/-- The attempt a mark makes on a resting order, if it triggers it. -/
def restingAttempt (symbol : String) (mark : ℚ) (now : Time) (s : PaperState) (order : Order) :
    Option Attempt :=
  (restingFill cfg order symbol mark).map fun fillQty =>
    { state := s
      order := order
      fillQty := fillQty
      total := order.quantity - order.filledQuantity
      price := fillPrice cfg mark order.orderType order.side order.price
      risk := restingRisk order
      isMaker := order.orderType = .limit
      now := now }

/-- The attempts of the loop of `_try_trigger_resting`, each in the state the
loop has then reached. -/
def restingAttempts (symbol : String) (mark : ℚ) (now : Time) :
    PaperState → List Order → List Attempt
  | _, [] => []
  | s, order :: orders =>
      (restingAttempt cfg symbol mark now s order).toList ++
        restingAttempts symbol mark now (triggerOne cfg symbol mark now s order) orders

/-- The state in which the loop over the resting orders starts. -/
def markState (s : PaperState) (symbol : String) (price : ℚ) : PaperState :=
  { s with
    markPrices := s.markPrices.set symbol price
    positions := markPositions s.positions symbol price }

/-- The attempts of a submission that has passed the lookup of its key. -/
def submitAttempts (s : PaperState) (request : OrderRequest) (risk : RiskEvaluation) (roll : ℚ)
    (now : Time) : List Attempt :=
  match prepare cfg s request risk roll now with
  | .done _ _ => []
  | .execute order s mark => [immediateAttempt cfg s order request risk mark now]

/-- The fills an operation attempts. -/
def attempts (s : PaperState) : Op → List Attempt
  | .submit request risk roll now =>
      match s.idempotencyIndex.get? request.idempotencyKey with
      | some _ => []
      | none => submitAttempts cfg s request risk roll now
  | .setMarkPrice symbol price now =>
      restingAttempts cfg symbol price now (markState s symbol price) s.orders.values
  | .cancel _ _ => []
  | .expire _ _ => []

theorem executeFill_eq (s : PaperState) (order : Order) (request : OrderRequest)
    (risk : RiskEvaluation) (mark : ℚ) (now : Time) :
    executeFill cfg s order request risk mark now =
      (immediateAttempt cfg s order request risk mark now).apply cfg := rfl

/-- A resting order fills a positive quantity, or it is not triggered. -/
theorem restingFill_eq_some {order : Order} {symbol : String} {mark fillQty : ℚ}
    (h : restingFill cfg order symbol mark = some fillQty) :
    (order.status = .submitted ∨ order.status = .partiallyFilled) ∧
      0 < order.quantity - order.filledQuantity ∧
      0 < fillQty ∧ fillQty = restingQty cfg (order.quantity - order.filledQuantity) := by
  simp only [restingFill] at h
  split at h
  · next hc =>
    rw [Option.some.injEq] at h
    exact ⟨hc.2.1, hc.2.2.1, h ▸ hc.2.2.2.2, h.symm⟩
  · cases h

theorem triggerOne_eq (symbol : String) (mark : ℚ) (now : Time) (s : PaperState) (order : Order) :
    triggerOne cfg symbol mark now s order =
      (restingAttempt cfg symbol mark now s order).elim s fun a => (a.apply cfg).2 := by
  unfold triggerOne restingAttempt
  cases h : restingFill cfg order symbol mark with
  | none => rfl
  | some fillQty =>
    have hpos := (restingFill_eq_some cfg h).2.2.1
    simp only [Option.map_some, Option.elim, Attempt.apply, if_neg (not_le.mpr hpos)]

/-! ### Effects -/

/-- The state after an order is created. -/
def created (s : PaperState) (request : OrderRequest) (now : Time) : PaperState :=
  { s with
    orders := s.orders.set (.uuid4 s.nextUuid) (newOrder s request now)
    idempotencyIndex := s.idempotencyIndex.set request.idempotencyKey (.uuid4 s.nextUuid)
    nextUuid := s.nextUuid + 1 }

/-- The order after its reservation is made. -/
def reservedOrder (order : Order) (amount : ℚ) (now : Time) : Order :=
  { order with
    metadata :=
      { order.metadata with
        reservedNotional := some amount
        reservedRemaining := some amount
        reservationOpen := some true }
    updatedAt := now }

/-- The state after a reservation is made. -/
def reserved (s : PaperState) (order : Order) (amount : ℚ) (now : Time) : PaperState :=
  { s with
    cash := s.cash - amount
    reservedCash := s.reservedCash + amount
    orders := s.orders.set order.id (reservedOrder order amount now) }

/-- An order is *pending* while `submit` works on it: it has been given its
identifier, has no fill, and has not ended. -/
def Pending (order : Order) : Prop :=
  (order.status = .riskPending ∨ order.status = .approved ∨ order.status = .submitted) ∧
    order.filledQuantity = 0

/-- What holds of an attempt when the engine makes it: the order is stored, it
is open, and the quantity is what is left of it or less. -/
structure Attempt.Proper (a : Attempt) : Prop where
  stored : Stored a.state a.order
  live : a.order.status = .submitted ∨ a.order.status = .partiallyFilled
  total : a.total = a.order.quantity - a.order.filledQuantity

/-- One elementary effect on the ledger; the attempts of fills meet `ok`. -/
inductive Effect (ok : Attempt → Prop) : PaperState → PaperState → Prop
  | create (s : PaperState) (request : OrderRequest) (now : Time)
      (hkey : s.idempotencyIndex.get? request.idempotencyKey = none)
      (hmeta : request.metadata.NoReservation) : Effect ok s (created s request now)
  | mark (s : PaperState) (symbol : String) (price : ℚ) : Effect ok s (markState s symbol price)
  | status (s : PaperState) (order : Order) (st : OrderStatus) (risk : RiskEvaluation)
      (error : Option String) (now : Time) (hs : Stored s order) (hp : Pending order)
      (hr : order.metadata.reservationOpen ≠ some true) :
      Effect ok s (update s order st risk error now).2
  | reserve (s : PaperState) (order : Order) (amount : ℚ) (now : Time) (hs : Stored s order)
      (hp : Pending order) (hr : order.metadata.reservationOpen ≠ some true)
      (hside : order.side = .buy) (hpos : 0 < amount) (hcash : amount ≤ s.cash) :
      Effect ok s (reserved s order amount now)
  | untriggered (s : PaperState) (order : Order) (risk : RiskEvaluation) (error : String)
      (now : Time) (hs : Stored s order) (hp : Pending order) :
      Effect ok s (update (releaseBuyReservation s order none now).2
        (releaseBuyReservation s order none now).1 .rejected risk (some error) now).2
  | close (s : PaperState) (order : Order) (st : OrderStatus) (now : Time) (hs : Stored s order)
      (hopen : ¬ order.status.Terminal) (hst : st.Terminal) :
      Effect ok s (closeOrder s order st now).2
  | attempt (a : Attempt) (hp : a.Proper) (hok : ok a) : Effect ok a.state (a.apply cfg).2

/-- A sequence of effects. -/
abbrev Effects (ok : Attempt → Prop) : PaperState → PaperState → Prop :=
  Relation.ReflTransGen (Effect cfg ok)

/-! ### Where the functions of the engine store their order -/

variable {cfg} {ok : Attempt → Prop} {s : PaperState} {order : Order} {risk : RiskEvaluation}
  {now : Time}

/-- What an effect on the order `j` leaves alone: the other orders, the index, the
marks; fills are only added, and only to that order. -/
structure Frame (j : Ident) (s s' : PaperState) : Prop where
  orders : ∀ {i}, j ≠ i → s'.orders.get? i = s.orders.get? i
  fills : ∃ fs, s'.fills = s.fills ++ fs ∧ ∀ f ∈ fs, f.orderId = j
  index : s'.idempotencyIndex = s.idempotencyIndex
  marks : s'.markPrices = s.markPrices
  next : s.nextUuid ≤ s'.nextUuid

theorem Frame.refl (j : Ident) (s : PaperState) : Frame j s s where
  orders := fun _ => rfl
  fills := ⟨[], by simp, by simp⟩
  index := rfl
  marks := rfl
  next := le_rfl

theorem Frame.trans {j : Ident} {s₁ s₂ s₃ : PaperState} (h₁ : Frame j s₁ s₂) (h₂ : Frame j s₂ s₃) :
    Frame j s₁ s₃ where
  orders := fun hj => (h₂.orders hj).trans (h₁.orders hj)
  fills := by
    obtain ⟨fs, hf, hfs⟩ := h₁.fills
    obtain ⟨gs, hg, hgs⟩ := h₂.fills
    refine ⟨fs ++ gs, by rw [hg, hf, List.append_assoc], fun f hmem => ?_⟩
    exact (List.mem_append.mp hmem).elim (hfs f) (hgs f)
  index := h₂.index.trans h₁.index
  marks := h₂.marks.trans h₁.marks
  next := h₁.next.trans h₂.next

/-- The request an order was made from: the fields no effect changes. -/
structure Order.SameRequest (o o' : Order) : Prop where
  id : o'.id = o.id
  key : o'.idempotencyKey = o.idempotencyKey
  symbol : o'.symbol = o.symbol
  side : o'.side = o.side
  orderType : o'.orderType = o.orderType
  quantity : o'.quantity = o.quantity
  price : o'.price = o.price

theorem Order.SameRequest.refl (o : Order) : Order.SameRequest o o :=
  ⟨rfl, rfl, rfl, rfl, rfl, rfl, rfl⟩

theorem Order.SameRequest.trans {o₁ o₂ o₃ : Order} (h₁ : Order.SameRequest o₁ o₂)
    (h₂ : Order.SameRequest o₂ o₃) : Order.SameRequest o₁ o₃ where
  id := h₂.id.trans h₁.id
  key := h₂.key.trans h₁.key
  symbol := h₂.symbol.trans h₁.symbol
  side := h₂.side.trans h₁.side
  orderType := h₂.orderType.trans h₁.orderType
  quantity := h₂.quantity.trans h₁.quantity
  price := h₂.price.trans h₁.price

/-- Storing an order under its identifier, whatever happens to the cash. -/
theorem Frame.set (s : PaperState) (o : Order) (cash reservedCash : ℚ) :
    Frame o.id s { s with
      cash := cash, reservedCash := reservedCash, orders := s.orders.set o.id o } where
  orders := fun hj => Dict.get?_set_ne _ hj _
  fills := ⟨[], by simp, by simp⟩
  index := rfl
  marks := rfl
  next := le_rfl

theorem update_frame (st : OrderStatus) (error : Option String) :
    Frame order.id s (update s order st risk error now).2 :=
  Frame.set s (update s order st risk error now).1 s.cash s.reservedCash

theorem update_sameRequest (st : OrderStatus) (error : Option String) :
    Order.SameRequest order (update s order st risk error now).1 :=
  ⟨rfl, rfl, rfl, rfl, rfl, rfl, rfl⟩

theorem update_stored (st : OrderStatus) (error : Option String) :
    Stored (update s order st risk error now).2 (update s order st risk error now).1 :=
  Dict.get?_set_self ..

/-- The amount `_release_buy_reservation` moves. -/
def releaseAmount (s : PaperState) (order : Order) (amount : Option ℚ) : ℚ :=
  let remaining := order.metadata.remaining
  if remaining ≤ 0 then 0 else min (amount.elim remaining fun a => min a remaining) s.reservedCash

/-- The order and the state after `release` is moved back to available cash. -/
def released (s : PaperState) (order : Order) (release : ℚ) (now : Time) : Order × PaperState :=
  let updated :=
    { order with
      metadata := order.metadata.afterRelease order.metadata.remaining release
      updatedAt := now }
  (updated,
    { s with
      reservedCash := s.reservedCash - release
      cash := s.cash + release
      orders := s.orders.set order.id updated })

/-- `_release_buy_reservation` in one line: an open reservation gives back
`releaseAmount`, a closed one is left alone. -/
theorem releaseBuyReservation_eq (s : PaperState) (order : Order) (amount : Option ℚ) (now : Time) :
    releaseBuyReservation s order amount now =
      if order.metadata.reservationOpen = some true then
        released s order (releaseAmount s order amount) now
      else (order, s) := by
  by_cases hopen : order.metadata.reservationOpen = some true
  · by_cases hrem : order.metadata.remaining ≤ 0
    · simp [releaseBuyReservation, released, releaseAmount, Metadata.afterRelease, hopen, hrem]
    · have hmin : ∀ w : ℚ, (if s.reservedCash < w then s.reservedCash else w) =
          min w s.reservedCash := by
        intro w
        rcases lt_or_ge s.reservedCash w with h | h
        · rw [if_pos h, min_eq_right h.le]
        · rw [if_neg (not_lt.mpr h), min_eq_left h]
      simp [releaseBuyReservation, released, releaseAmount, hopen, hrem, hmin]
  · simp [releaseBuyReservation, hopen]

/-- A released order keeps everything but its reservation. -/
theorem releaseBuyReservation_fst (s : PaperState) (order : Order) (amount : Option ℚ)
    (now : Time) : ∃ m t, (releaseBuyReservation s order amount now).1 =
      { order with metadata := m, updatedAt := t } := by
  rw [releaseBuyReservation_eq]
  split_ifs <;> exact ⟨_, _, rfl⟩

theorem releaseBuyReservation_sameRequest (amount : Option ℚ) :
    Order.SameRequest order (releaseBuyReservation s order amount now).1 := by
  obtain ⟨m, t, h⟩ := releaseBuyReservation_fst s order amount now
  rw [h]
  exact ⟨rfl, rfl, rfl, rfl, rfl, rfl, rfl⟩

theorem releaseBuyReservation_frame (amount : Option ℚ) :
    Frame order.id s (releaseBuyReservation s order amount now).2 := by
  rw [releaseBuyReservation_eq]
  split_ifs
  · exact Frame.set s (released s order (releaseAmount s order amount) now).1 _ _
  · exact Frame.refl _ s

theorem releaseBuyReservation_stored (amount : Option ℚ) (hs : Stored s order) :
    Stored (releaseBuyReservation s order amount now).2
      (releaseBuyReservation s order amount now).1 := by
  rw [releaseBuyReservation_eq]
  split_ifs
  · exact Dict.get?_set_self ..
  · exact hs

/-! ### The outcomes of an attempt -/

namespace Attempt

variable (cfg) (a : Attempt)

/-- The fee of the fill. -/
def fee : ℚ := fillFee cfg a.fillQty a.price a.isMaker

/-- The cash a bought fill costs. -/
def cost : ℚ := a.price * a.fillQty + a.fee cfg

/-- The fill that is recorded. -/
def fill : Fill where
  id := .uuid4 a.state.nextUuid
  orderId := a.order.id
  symbol := a.order.symbol
  side := a.order.side
  quantity := a.fillQty
  price := a.price
  fee := a.fee cfg
  timestamp := a.now

/-- The state after the fill is recorded. -/
def recorded : PaperState :=
  { a.state with fills := a.state.fills ++ [a.fill cfg], nextUuid := a.state.nextUuid + 1 }

/-- The part of its reservation a bought fill frees. -/
def freed : ℚ :=
  let totalReserved := a.order.metadata.reservedNotional.getD 0
  if 0 < totalReserved ∧ a.order.metadata.reservationOpen = some true ∧ 0 < a.order.quantity then
    releaseAmount a.state a.order (some (quantize8 (totalReserved * a.fillQty / a.order.quantity)))
  else 0

/-- Order and state after a bought fill freed its part of the reservation. -/
def freeing : Order × PaperState := releaseForFill (a.recorded cfg) a.order a.fillQty a.now

/-- Order and state after a bought fill, before the order is stored. -/
def bought : Order × PaperState :=
  let r := a.freeing cfg
  (filledOrder r.1 a.fillQty a.price (a.fee cfg) a.now,
    { r.2 with
      cash := r.2.cash - a.cost cfg
      positions := r.2.positions.set r.1.symbol
        (boughtPosition (r.2.positions.get? r.1.symbol) r.1 a.fillQty a.price a.now) })

/-- Order and state after a sold fill of the position `p`, before the order is
stored. -/
def sold (p : Position) : Order × PaperState :=
  let s := a.recorded cfg
  (filledOrder a.order a.fillQty a.price (a.fee cfg) a.now,
    { s with
      cash := s.cash + (a.price * a.fillQty - a.fee cfg)
      realizedPnl := s.realizedPnl + realizedBy p a.fillQty a.price (a.fee cfg)
      positions := soldPositions s.positions a.order.symbol p a.fillQty a.price (a.fee cfg) })

/-- The end of a fill that was applied. -/
def finish (r : Order × PaperState) : Order × PaperState :=
  if a.fillQty < a.total then update r.2 r.1 .partiallyFilled a.risk none a.now
  else
    let r := releaseBuyReservation r.2 r.1 none a.now
    update r.2 r.1 .filled a.risk none a.now

/-- The ways an attempt can end. -/
inductive Outcome : Order × PaperState → Prop
  /-- The quantity rounds to zero: nothing is filled. -/
  | dust (hq : a.fillQty ≤ 0) : Outcome (update a.state a.order .failed a.risk none a.now)
  | bought (hq : 0 < a.fillQty) (hside : a.order.side = .buy)
      (hcash : a.cost cfg ≤ (a.freeing cfg).2.cash) : Outcome (a.finish (a.bought cfg))
  /-- The cash does not cover the cost; the fill stays recorded. -/
  | insufficient (hq : 0 < a.fillQty) (hside : a.order.side = .buy)
      (hcash : (a.freeing cfg).2.cash < a.cost cfg) :
      Outcome (update (releaseBuyReservation (a.freeing cfg).2 (a.freeing cfg).1 none a.now).2
        (releaseBuyReservation (a.freeing cfg).2 (a.freeing cfg).1 none a.now).1 .failed a.risk
        (some "insufficient") a.now)
  | sold (p : Position) (hq : 0 < a.fillQty) (hside : a.order.side = .sell)
      (hp : a.state.positions.get? a.order.symbol = some p) (hqty : a.fillQty ≤ p.quantity) :
      Outcome (a.finish (a.sold cfg p))
  /-- There is no position to sell from; the fill stays recorded. -/
  | noPosition (hq : 0 < a.fillQty) (hside : a.order.side = .sell)
      (hp : ∀ p, a.state.positions.get? a.order.symbol = some p → p.quantity < a.fillQty) :
      Outcome (update (a.recorded cfg) a.order .failed a.risk (some "no position") a.now)

variable {cfg a}

theorem freeing_fst : ∃ m t, (a.freeing cfg).1 = { a.order with metadata := m, updatedAt := t } := by
  simp only [freeing, releaseForFill]
  split_ifs
  · exact releaseBuyReservation_fst ..
  · exact ⟨_, _, rfl⟩

/-- **What an attempt can do.** -/
theorem outcome (hlive : a.order.status ≠ .failed) : a.Outcome cfg (a.apply cfg) := by
  -- the cases are the tests of `_apply_fill`, in its order
  by_cases hq : a.fillQty ≤ 0
  · rw [apply, if_pos hq]
    exact .dust hq
  have hpos : 0 < a.fillQty := not_le.mp hq
  rw [apply, if_neg hq]
  simp only [settleFill, applyFill]
  cases hside : a.order.side with
  | buy =>
    obtain ⟨m, t, hfree⟩ : ∃ m t, (a.freeing cfg).1 = { a.order with metadata := m, updatedAt := t } :=
      freeing_fst
    by_cases hcash : (a.freeing cfg).2.cash < a.cost cfg
    · have h := Outcome.insufficient hpos hside hcash
      simp only [freeing, recorded, fill, cost, fee, hside] at h hcash
      simpa [hcash, update] using h
    · have h := Outcome.bought hpos hside (not_lt.mp hcash)
      have hst : (a.bought cfg).1.status ≠ .failed := by simpa [Attempt.bought, filledOrder, hfree]
      simp only [Attempt.bought, finish, freeing, recorded, fill, cost, fee, hside] at h hcash hst
      simpa [hcash, hst] using h
  | sell =>
    cases hp : a.state.positions.get? a.order.symbol with
    | none =>
      have h : a.Outcome cfg _ := .noPosition hpos hside (by simp [hp])
      simp only [recorded, fill, fee, hside] at h
      simpa [hp, update] using h
    | some p =>
      by_cases hqty : p.quantity < a.fillQty
      · have h : a.Outcome cfg _ := .noPosition hpos hside (by simpa [hp] using hqty)
        simp only [recorded, fill, fee, hside] at h
        simpa [hp, hqty, update] using h
      · have h : a.Outcome cfg _ := .sold p hpos hside hp (not_lt.mp hqty)
        simp only [Attempt.sold, finish, recorded, fill, fee, hside] at h
        simpa [hp, hqty, filledOrder, hlive] using h

theorem freeing_sameRequest : Order.SameRequest a.order (a.freeing cfg).1 := by
  obtain ⟨m, t, h⟩ : ∃ m t, (a.freeing cfg).1 = { a.order with metadata := m, updatedAt := t } :=
    freeing_fst
  rw [h]
  exact ⟨rfl, rfl, rfl, rfl, rfl, rfl, rfl⟩

theorem recorded_frame : Frame a.order.id a.state (a.recorded cfg) where
  orders := fun _ => rfl
  fills := ⟨[a.fill cfg], rfl, by simp [fill]⟩
  index := rfl
  marks := rfl
  next := Nat.le_succ _

theorem freeing_frame : Frame a.order.id a.state (a.freeing cfg).2 := by
  simp only [freeing, releaseForFill]
  split_ifs
  · exact recorded_frame.trans (releaseBuyReservation_frame _)
  · exact recorded_frame

/-- A release and an update of an order, from a state framed so far. -/
theorem release_update_frame {j : Ident} {s₀ : PaperState} {r : Order × PaperState}
    (hid : r.1.id = j) (h : Frame j s₀ r.2) (amount : Option ℚ) (st : OrderStatus)
    (error : Option String) :
    Frame j s₀ (update (releaseBuyReservation r.2 r.1 amount now).2
      (releaseBuyReservation r.2 r.1 amount now).1 st risk error now).2 := by
  have hrel : Frame r.1.id r.2 (releaseBuyReservation r.2 r.1 amount now).2 :=
    releaseBuyReservation_frame amount
  have hupd : Frame (releaseBuyReservation r.2 r.1 amount now).1.id _
      (update (releaseBuyReservation r.2 r.1 amount now).2
        (releaseBuyReservation r.2 r.1 amount now).1 st risk error now).2 := update_frame st error
  rw [(releaseBuyReservation_sameRequest amount).id, hid] at hupd
  rw [hid] at hrel
  exact (h.trans hrel).trans hupd

theorem finish_frame {j : Ident} {s₀ : PaperState} {r : Order × PaperState} (hid : r.1.id = j)
    (h : Frame j s₀ r.2) : Frame j s₀ (a.finish r).2 := by
  simp only [finish]
  split_ifs
  · have hupd : Frame r.1.id r.2 (update r.2 r.1 .partiallyFilled a.risk none a.now).2 :=
      update_frame ..
    exact h.trans (hid ▸ hupd)
  · exact release_update_frame hid h _ _ _

theorem finish_sameRequest (r : Order × PaperState) : Order.SameRequest r.1 (a.finish r).1 := by
  simp only [finish]
  split_ifs
  · exact update_sameRequest ..
  · exact (releaseBuyReservation_sameRequest _).trans (update_sameRequest ..)

theorem finish_stored (r : Order × PaperState) : Stored (a.finish r).2 (a.finish r).1 := by
  simp only [finish]
  split_ifs <;> exact update_stored ..

/-- An attempt changes no other order. -/
theorem apply_frame (hlive : a.order.status ≠ .failed) :
    Frame a.order.id a.state (a.apply cfg).2 := by
  have h : a.Outcome cfg (a.apply cfg) := outcome hlive
  generalize a.apply cfg = r at h
  cases h with
  | dust _ => exact update_frame ..
  | bought _ _ _ =>
    have hfree : Frame a.order.id a.state (a.freeing cfg).2 := freeing_frame
    exact finish_frame freeing_sameRequest.id
      ⟨hfree.orders, hfree.fills, hfree.index, hfree.marks, hfree.next⟩
  | insufficient _ _ _ => exact release_update_frame freeing_sameRequest.id freeing_frame _ _ _
  | sold p _ _ _ _ =>
    have hrec : Frame a.order.id a.state (a.recorded cfg) := recorded_frame
    exact finish_frame rfl ⟨hrec.orders, hrec.fills, hrec.index, hrec.marks, hrec.next⟩
  | noPosition _ _ _ => exact recorded_frame.trans (update_frame ..)

/-- An attempt stores the order it returns, which is still the same request. -/
theorem apply_stored (hlive : a.order.status ≠ .failed) :
    Stored (a.apply cfg).2 (a.apply cfg).1 ∧ Order.SameRequest a.order (a.apply cfg).1 := by
  have h : a.Outcome cfg (a.apply cfg) := outcome hlive
  generalize a.apply cfg = r at h
  cases h with
  | dust _ => exact ⟨update_stored .., update_sameRequest ..⟩
  | bought _ _ _ =>
    refine ⟨finish_stored _, Order.SameRequest.trans ?_ (finish_sameRequest _)⟩
    exact freeing_sameRequest.trans ⟨rfl, rfl, rfl, rfl, rfl, rfl, rfl⟩
  | insufficient _ _ _ =>
    exact ⟨update_stored .., (freeing_sameRequest.trans (releaseBuyReservation_sameRequest _)).trans
      (update_sameRequest ..)⟩
  | sold p _ _ _ _ =>
    refine ⟨finish_stored _, Order.SameRequest.trans ?_ (finish_sameRequest _)⟩
    exact ⟨rfl, rfl, rfl, rfl, rfl, rfl, rfl⟩
  | noPosition _ _ _ => exact ⟨update_stored .., update_sameRequest ..⟩

end Attempt

end Paper

end Atlas
