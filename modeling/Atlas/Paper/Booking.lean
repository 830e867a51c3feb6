import Atlas.Paper.Holding

/-!
# What the engine books

The accounts of the engine (cash, reservations, positions, realized profit, and the
totals an order carries) are moved by fills alone.  All else the engine does to an
order only shifts capital between the available and the reserved cash, whatever
metadata the request came with.  Every operation is then a sequence of *bookings*: an
order is created, a mark is set, an order is worked on without a fill, or a fill is
attempted.

The effects of `Atlas.Paper.Effect` say more about reservations and hold of requests
without reservation keys; bookings hold of every request.

## Main definitions

* `Idle` — a part of the engine that works on one order and books nothing.
* `Terms` — what a run keeps to: its requests, its marks and its attempts.
* `Booking cfg T` — one booking within the terms `T`.
* `Attempt.Booked` — what an attempt can book.

## Main results

* `Attempt.apply_booked` — an attempt books one of these.
* `step_bookings` — an operation is a sequence of bookings.
* `Admitted.invariant` — **what every booking keeps holds in every state reached**.

## References

`app/execution/paper/engine.py`.
-/

namespace Atlas

namespace Paper

variable {cfg : PaperConfig} {s : PaperState} {order : Order} {risk : RiskEvaluation} {now : Time}

/-- Neither the available nor the reserved cash is negative. -/
structure Solvent (s : PaperState) : Prop where
  cash : 0 ≤ s.cash
  reserved : 0 ≤ s.reservedCash

instance (s : PaperState) : Decidable (Solvent s) :=
  decidable_of_iff (0 ≤ s.cash ∧ 0 ≤ s.reservedCash) ⟨fun h => ⟨h.1, h.2⟩, fun h => ⟨h.1, h.2⟩⟩

/-! ### Parts of the engine that book nothing -/

/-- What a part of the engine that books nothing leaves alone. -/
structure SameBooks (s : PaperState) (order : Order) (r : Order × PaperState) : Prop where
  capital : r.2.cash + r.2.reservedCash = s.cash + s.reservedCash
  positions : r.2.positions = s.positions
  realized : r.2.realizedPnl = s.realizedPnl
  totals : r.1.totals = order.totals
  solvent : Solvent s → Solvent r.2

theorem SameBooks.refl : SameBooks s order (order, s) := ⟨rfl, rfl, rfl, rfl, id⟩

theorem SameBooks.trans {r₁ r₂ : Order × PaperState} (h₁ : SameBooks s order r₁)
    (h₂ : SameBooks r₁.2 r₁.1 r₂) : SameBooks s order r₂ where
  capital := h₂.capital.trans h₁.capital
  positions := h₂.positions.trans h₁.positions
  realized := h₂.realized.trans h₁.realized
  totals := h₂.totals.trans h₁.totals
  solvent := fun h => h₂.solvent (h₁.solvent h)

/-- A part of the engine that works on one order and books nothing. -/
structure Idle (s : PaperState) (order : Order) (r : Order × PaperState) : Prop
    extends Works s order r where
  books : SameBooks s order r
  fills : r.2.fills = s.fills

theorem Idle.refl (hs : Stored s order) : Idle s order (order, s) := ⟨.refl hs, .refl, rfl⟩

theorem Idle.trans {r₁ r₂ : Order × PaperState} (h₁ : Idle s order r₁) (h₂ : Idle r₁.2 r₁.1 r₂) :
    Idle s order r₂ :=
  ⟨h₁.toWorks.trans h₂.toWorks, h₁.books.trans h₂.books, h₂.fills.trans h₁.fills⟩

theorem update_idle (st : OrderStatus) (error : Option String) :
    Idle s order (update s order st risk error now) :=
  ⟨update_works .., ⟨rfl, rfl, rfl, rfl, fun h => ⟨h.cash, h.reserved⟩⟩, rfl⟩

/-- A release moves a non-negative amount, at most what is reserved. -/
theorem releaseAmount_bounds {amount : Option ℚ} (hamount : ∀ a, amount = some a → 0 ≤ a)
    (hs : 0 ≤ s.reservedCash) :
    0 ≤ releaseAmount s order amount ∧ releaseAmount s order amount ≤ s.reservedCash := by
  simp only [releaseAmount]
  split_ifs with hrem
  · exact ⟨le_rfl, hs⟩
  · have hwanted : 0 ≤ amount.elim order.metadata.remaining fun a => min a order.metadata.remaining := by
      cases amount with
      | none => exact (not_le.mp hrem).le
      | some a => exact le_min (hamount a rfl) (not_le.mp hrem).le
    exact ⟨le_min hwanted hs, min_le_right _ _⟩

theorem releaseBuyReservation_sameBooks {amount : Option ℚ}
    (hamount : ∀ a, amount = some a → 0 ≤ a) :
    SameBooks s order (releaseBuyReservation s order amount now) := by
  rw [releaseBuyReservation_eq]
  split_ifs
  · refine ⟨by simp only [released]; ring, rfl, rfl, rfl, fun h => ?_⟩
    have hbounds : 0 ≤ releaseAmount s order amount ∧ releaseAmount s order amount ≤ s.reservedCash :=
      releaseAmount_bounds hamount h.reserved
    obtain ⟨hpos, hle⟩ := hbounds
    exact ⟨add_nonneg h.cash hpos, sub_nonneg.mpr hle⟩
  · exact .refl

theorem releaseBuyReservation_idle (hs : Stored s order) :
    Idle s order (releaseBuyReservation s order none now) :=
  ⟨releaseBuyReservation_works none hs, releaseBuyReservation_sameBooks (by simp),
    by rw [releaseBuyReservation_eq]; split_ifs <;> rfl⟩

theorem reserved_idle {amount : ℚ} (hpos : 0 < amount) (hcash : amount ≤ s.cash) :
    Idle s order (reservedOrder order amount now, reserved s order amount now) := by
  refine ⟨reserved_works amount, ⟨by simp only [reserved]; ring, rfl, rfl, rfl, fun h => ?_⟩, rfl⟩
  exact ⟨sub_nonneg.mpr hcash, add_nonneg h.reserved hpos.le⟩

theorem closeOrder_idle (st : OrderStatus) (hs : Stored s order) :
    Idle s order (closeOrder s order st now) := by
  have hrel : Idle s order (releaseBuyReservation s order none now) := releaseBuyReservation_idle hs
  refine ⟨closeOrder_works st hs, ⟨hrel.books.capital, hrel.books.positions, hrel.books.realized,
    hrel.books.totals, fun h => ?_⟩, hrel.fills⟩
  exact ⟨(hrel.books.solvent h).cash, (hrel.books.solvent h).reserved⟩

theorem reserveFor_idle (request : OrderRequest) (mark : Option ℚ) (hs : Stored s order) :
    Idle s order ((reserveFor s order request risk mark now).1.1,
      (reserveFor s order request risk mark now).2) := by
  simp only [reserveFor]
  split
  · simp only [reserveBuy]
    split_ifs with _ hpos hcash
    · exact .refl hs
    · exact .refl hs
    · exact update_idle ..
    · exact reserved_idle (not_le.mp hpos) (not_lt.mp hcash)
  · exact .refl hs

theorem marketable_idle (request : OrderRequest) (mark : ℚ) (hs : Stored s order) :
    Idle s order (marketable s order request risk mark now).result := by
  rcases marketable_cases s order request risk mark now with h | h | ⟨error, h⟩ <;> rw [h]
  · exact .refl hs
  · exact .refl hs
  · exact (releaseBuyReservation_idle hs).trans (update_idle ..)

theorem placeOrder_idle (request : OrderRequest) (hs : Stored s order) :
    Idle s order (placeOrder s order request risk now).result := by
  obtain ⟨mark, hcases⟩ := placeOrder_cases s order request risk now
  have hres : Idle s order ((reserveFor s order request risk mark now).1.1, _) :=
    reserveFor_idle request mark hs
  rcases hcases with h | h | ⟨-, m, h⟩ <;> rw [h]
  · exact hres
  · exact update_idle ..
  · exact hres.trans (marketable_idle request m hres.stored)

/-- A submission books nothing before its immediate execution. -/
theorem prepare_idle (s : PaperState) (request : OrderRequest) (risk : RiskEvaluation) (roll : ℚ)
    (now : Time) :
    Idle (created s request now) (newOrder s request now)
      (prepare cfg s request risk roll now).result := by
  have hupd : ∀ (s' : PaperState) (o : Order) (st : OrderStatus) (error : Option String),
      Idle s' o (update s' o st risk error now) := fun _ _ => update_idle
  simp only [prepare]
  split_ifs
  · exact hupd ..
  · exact ((hupd ..).trans (hupd ..)).trans (hupd ..)
  · have hsub := (hupd (created s request now) (newOrder s request now) .approved none).trans
      (hupd _ _ .submitted none)
    exact hsub.trans (placeOrder_idle request hsub.stored)

/-! ### What an attempt books -/

namespace Attempt

/-- What an attempt can book. -/
inductive Booked (cfg : PaperConfig) (a : Attempt) (r : Order × PaperState) : Prop
  /-- The fill is refused; it may have been recorded. -/
  | refused (books : SameBooks a.state a.order r)
      (hfail : a.fillQty ≤ 0 ∨ ¬ a.Covered cfg)
  | bought (hq : 0 < a.fillQty) (hside : a.order.side = .buy)
      (hcash : Solvent a.state → Solvent r.2)
      (capital : r.2.cash + r.2.reservedCash = a.state.cash + a.state.reservedCash - a.cost cfg)
      (positions : r.2.positions = a.state.positions.set a.order.symbol
        (boughtPosition (a.state.positions.get? a.order.symbol) a.order a.fillQty a.price a.now))
      (realized : r.2.realizedPnl = a.state.realizedPnl)
      (totals : r.1.totals = a.order.totals.add (a.fill cfg)) (hcov : a.Covered cfg)
  | sold (p : Position) (hq : 0 < a.fillQty) (hside : a.order.side = .sell)
      (hp : a.state.positions.get? a.order.symbol = some p) (hqty : a.fillQty ≤ p.quantity)
      (hcash : Solvent a.state → a.fee cfg ≤ a.state.cash + a.price * a.fillQty → Solvent r.2)
      (capital : r.2.cash + r.2.reservedCash =
        a.state.cash + a.state.reservedCash + (a.price * a.fillQty - a.fee cfg))
      (positions : r.2.positions =
        soldPositions a.state.positions a.order.symbol p a.fillQty a.price (a.fee cfg))
      (realized : r.2.realizedPnl =
        a.state.realizedPnl + realizedBy p a.fillQty a.price (a.fee cfg))
      (totals : r.1.totals = a.order.totals.add (a.fill cfg)) (hcov : a.Covered cfg)

variable {a : Attempt}

theorem finish_sameBooks (r : Order × PaperState) : SameBooks r.2 r.1 (a.finish r) := by
  simp only [finish]
  split_ifs
  · exact (update_idle ..).books
  · exact (releaseBuyReservation_sameBooks (by simp)).trans (update_idle ..).books

/-- A bought fill frees its part of the reservation, and books nothing by that. -/
theorem freeing_sameBooks (hq : 0 < a.fillQty) : SameBooks a.state a.order (a.freeing cfg) := by
  have hrec : SameBooks a.state a.order (a.order, a.recorded cfg) :=
    ⟨rfl, rfl, rfl, rfl, fun h => ⟨h.cash, h.reserved⟩⟩
  simp only [freeing, releaseForFill]
  split_ifs with h
  · refine hrec.trans (releaseBuyReservation_sameBooks fun x hx => ?_)
    rw [← Option.some.inj hx]
    exact quantize8_nonneg (div_nonneg (mul_nonneg h.1.le hq.le) h.2.2.le)
  · exact hrec

/-- A purchase that the cash covers is booked. -/
theorem bought_booked (hq : 0 < a.fillQty) (hside : a.order.side = .buy)
    (hcash : a.cost cfg ≤ (a.freeing cfg).2.cash) :
    a.Booked cfg (a.finish (a.bought cfg)) := by
  have hfree : SameBooks a.state a.order (a.freeing cfg) := freeing_sameBooks hq
  have hfin : SameBooks (a.bought cfg).2 (a.bought cfg).1 (a.finish (a.bought cfg)) :=
    finish_sameBooks _
  obtain ⟨m, t, hfst⟩ : ∃ m t, (a.freeing cfg).1 = { a.order with metadata := m, updatedAt := t } :=
    freeing_fst
  refine .bought hq hside (fun h => hfin.solvent ⟨?_, (hfree.solvent h).reserved⟩) ?_ ?_ ?_ ?_ ?_
  · exact sub_nonneg.mpr hcash
  · rw [hfin.capital, ← hfree.capital]
    simp only [Attempt.bought]
    ring
  · rw [hfin.positions]
    simp only [Attempt.bought, hfree.positions, hfst]
    cases a.state.positions.get? a.order.symbol <;> rfl
  · exact hfin.realized.trans hfree.realized
  · rw [hfin.totals, ← hfree.totals]
    exact filledOrder_totals _ _ _ _ rfl rfl rfl
  · refine .inr ?_
    simp only [hside]
    rw [← freeing_snd.2.1]
    exact hcash

/-- A sale that the position covers is booked. -/
theorem sold_booked (p : Position) (hq : 0 < a.fillQty) (hside : a.order.side = .sell)
    (hp : a.state.positions.get? a.order.symbol = some p) (hqty : a.fillQty ≤ p.quantity) :
    a.Booked cfg (a.finish (a.sold cfg p)) := by
  have hfin : SameBooks (a.sold cfg p).2 (a.sold cfg p).1 (a.finish (a.sold cfg p)) :=
    finish_sameBooks _
  refine .sold p hq hside hp hqty (fun h hfee => hfin.solvent ⟨?_, h.reserved⟩) ?_ ?_ ?_ ?_ ?_
  · simp only [Attempt.sold, recorded]
    linarith
  · rw [hfin.capital]
    simp only [Attempt.sold, recorded]
    ring
  · exact hfin.positions
  · exact hfin.realized
  · rw [hfin.totals]
    exact filledOrder_totals _ _ _ _ rfl rfl rfl
  · refine .inr ?_
    simp only [hside, held, hp]
    exact hqty

/-- **What an attempt books.** -/
theorem apply_booked (hlive : a.order.status ≠ .failed) : a.Booked cfg (a.apply cfg) := by
  have h : a.Outcome cfg (a.apply cfg) := outcome hlive
  generalize a.apply cfg = r at h
  cases h with
  | dust hq => exact .refused (update_idle ..).books (.inl hq)
  | bought hq hside hcash => exact bought_booked hq hside hcash
  | insufficient hq hside hcash =>
    refine .refused (((freeing_sameBooks hq).trans (releaseBuyReservation_sameBooks (by simp))).trans
      (update_idle ..).books) (.inr ?_)
    rintro (hle | hc)
    · exact absurd hq (not_lt.mpr hle)
    · simp only [hside] at hc
      rw [freeing_snd.2.1] at hcash
      exact absurd hcash (not_lt.mpr hc)
  | sold p hq hside hp hqty => exact sold_booked p hq hside hp hqty
  | noPosition hq hside hp =>
    refine .refused ⟨rfl, rfl, rfl, rfl, fun h => ⟨h.cash, h.reserved⟩⟩ (.inr ?_)
    rintro (hle | hc)
    · exact absurd hq (not_lt.mpr hle)
    · simp only [hside, held] at hc
      cases hget : a.state.positions.get? a.order.symbol with
      | none => rw [hget] at hc; exact absurd hq (not_lt.mpr hc)
      | some p => rw [hget] at hc; exact absurd (hp p hget) (not_lt.mpr hc)

end Attempt

/-! ### Bookings -/

/-- What a run keeps to: the requests that open an order, the marks and the attempts. -/
structure Terms where
  request : PaperState → OrderRequest → Prop := fun _ _ => True
  mark : PaperState → String → ℚ → Prop := fun _ _ _ => True
  attempt : Attempt → Prop := fun _ => True

/-- One booking within the terms. -/
inductive Booking (cfg : PaperConfig) (T : Terms) : PaperState → PaperState → Prop
  | create (s : PaperState) (request : OrderRequest) (now : Time)
      (hkey : s.idempotencyIndex.get? request.idempotencyKey = none) (hreq : T.request s request) :
      Booking cfg T s (created s request now)
  | mark (s : PaperState) (symbol : String) (price : ℚ) (hmark : T.mark s symbol price) :
      Booking cfg T s (markState s symbol price)
  | idle (s : PaperState) (order : Order) (r : Order × PaperState) (hs : Stored s order)
      (hopen : ¬ order.status.Terminal) (h : Idle s order r) : Booking cfg T s r.2
  | attempt (a : Attempt) (hp : a.Proper) (hok : T.attempt a) : Booking cfg T a.state (a.apply cfg).2

/-- A sequence of bookings. -/
abbrev Bookings (cfg : PaperConfig) (T : Terms) : PaperState → PaperState → Prop :=
  Relation.ReflTransGen (Booking cfg T)

/-- The operation keeps to the terms. -/
def Terms.Meets (T : Terms) (cfg : PaperConfig) (s : PaperState) (op : Op) : Prop :=
  (match op with
    | .submit request _ _ _ =>
        s.idempotencyIndex.get? request.idempotencyKey = none → T.request s request
    | .setMarkPrice symbol price _ => T.mark s symbol price
    | .cancel _ _ => True
    | .expire _ _ => True) ∧
  ∀ a ∈ attempts cfg s op, T.attempt a

instance (T : Terms) [∀ s r, Decidable (T.request s r)] [∀ s n p, Decidable (T.mark s n p)]
    [DecidablePred T.attempt] (s : PaperState) : (op : Op) → Decidable (T.Meets cfg s op)
  | .submit .. => inferInstanceAs (Decidable ((_ → T.request _ _) ∧ ∀ a ∈ _, T.attempt a))
  | .setMarkPrice .. => inferInstanceAs (Decidable (T.mark _ _ _ ∧ ∀ a ∈ _, T.attempt a))
  | .cancel .. | .expire .. => inferInstanceAs (Decidable (True ∧ ∀ a ∈ _, T.attempt a))

/-- The terms that ask for nothing. -/
def anyTerms : Terms := {}

instance (s : PaperState) (request : OrderRequest) : Decidable (anyTerms.request s request) :=
  inferInstanceAs (Decidable True)

instance (s : PaperState) (symbol : String) (price : ℚ) : Decidable (anyTerms.mark s symbol price) :=
  inferInstanceAs (Decidable True)

instance : DecidablePred anyTerms.attempt := fun _ => inferInstanceAs (Decidable True)

variable {T : Terms}

theorem Attempt.Proper.open {a : Attempt} (h : a.Proper) : ¬ a.order.status.Terminal := by
  rcases h.live with h | h <;> rw [h] <;> decide

theorem submitAfterLatency_bookings {request : OrderRequest} {roll : ℚ}
    (hok : ∀ a ∈ submitAttempts cfg s request risk roll now, T.attempt a) :
    Bookings cfg T (created s request now) (submitAfterLatency cfg s request risk roll now).2 := by
  have hs : Stored (created s request now) (newOrder s request now) := Dict.get?_set_self ..
  have hprep : Idle _ _ (prepare cfg s request risk roll now).result :=
    prepare_idle s request risk roll now
  have hfirst : Bookings cfg T (created s request now)
      (prepare cfg s request risk roll now).result.2 :=
    .single (.idle _ _ _ hs (by simp only [newOrder]; decide) hprep)
  cases h : prepare cfg s request risk roll now with
  | done o s' =>
    rw [submitAfterLatency, h]
    rwa [h] at hfirst
  | execute o s' mark =>
    rw [submitAfterLatency, h]
    rw [h] at hfirst
    exact hfirst.tail (.attempt _ (immediateAttempt_proper h) (hok _ (by simp [submitAttempts, h])))

/-- The loop over the resting orders makes its attempts one after another: the
orders it has not reached yet are still stored as they were when it began. -/
theorem restingLoop_bookings {symbol : String} {mark : ℚ} {orders : List Order} :
    ∀ {s : PaperState}, (orders.map Order.id).Nodup → (∀ o ∈ orders, Stored s o) →
      (∀ a ∈ restingAttempts cfg symbol mark now s orders, T.attempt a) →
      Bookings cfg T s (orders.foldl (triggerOne cfg symbol mark now) s) := by
  induction orders with
  | nil => exact fun _ _ _ => .refl
  | cons order orders ih =>
    intro s hids hs hok
    obtain ⟨-, hrest⟩ : Effects cfg (fun _ => True) s _ ∧ _ :=
      triggerOne_carries hids hs fun _ _ => trivial
    have hfirst : Bookings cfg T s (triggerOne cfg symbol mark now s order) := by
      rw [triggerOne_eq]
      cases h : restingAttempt cfg symbol mark now s order with
      | none => exact .refl
      | some a =>
        obtain ⟨rfl, rfl, hp⟩ := restingAttempt_proper (hs order (List.mem_cons_self ..)) h
        exact .single (.attempt a hp (hok a (by simp [restingAttempts, h])))
    refine hfirst.trans (ih (List.nodup_cons.mp hids).2 hrest fun a ha => hok a ?_)
    exact List.mem_append_right _ ha

theorem Closing.bookings {s' : PaperState} (h : Closing s s') : Bookings cfg T s s' := by
  cases h with
  | unchanged => exact .refl
  | closed order st now hs hopen _ => exact .single (.idle s order _ hs hopen (closeOrder_idle st hs))

/-- **An operation is a sequence of bookings**, within the terms it keeps to. -/
theorem step_bookings {op : Op} (hk : Keyed s) (h : T.Meets cfg s op) :
    Bookings cfg T s (step cfg s op) := by
  obtain ⟨hterm, hok⟩ := h
  cases op with
  | submit request risk roll now =>
    simp only [step, submit]
    cases hkey : s.idempotencyIndex.get? request.idempotencyKey with
    | some id => exact .refl
    | none =>
      simp only [attempts, hkey] at hok
      exact .head (.create s request now hkey (hterm hkey)) (submitAfterLatency_bookings hok)
  | setMarkPrice symbol price now =>
    have hloop : Bookings cfg T (markState s symbol price) (setMarkPrice cfg s symbol price now) :=
      restingLoop_bookings hk.values_nodup (fun o ho => hk.stored_of_mem ho) hok
    exact .head (.mark s symbol price hterm) hloop
  | cancel id now => exact (cancel_closing id hk).bookings
  | expire id now => exact (expire_closing id hk).bookings

/-- A booking keeps the ledger keyed. -/
theorem Booking.keyed {s s' : PaperState} (h : Booking cfg T s s') (hk : Keyed s) : Keyed s' := by
  cases h with
  | create _ request now _ _ => exact hk.created request now
  | mark _ symbol price _ => exact ⟨hk.id_eq, hk.drawn, hk.fills, hk.index⟩
  | idle _ order r hs _ h => exact h.toWorks.keyed hk hs
  | attempt a hp _ => exact (Attempt.apply_works hp.live_ne).keyed hk hp.stored

theorem Bookings.keyed {s s' : PaperState} (h : Bookings cfg T s s') (hk : Keyed s) : Keyed s' := by
  induction h with
  | refl => exact hk
  | tail _ hlast ih => exact hlast.keyed ih

/-- A booking leaves every order stored as the same request. -/
theorem Booking.keeps_order {s s' : PaperState} {j : Ident} {o : Order} (h : Booking cfg T s s')
    (hk : Keyed s) (ho : s.orders.get? j = some o) :
    ∃ o', s'.orders.get? j = some o' ∧ Order.SameRequest o o' := by
  cases h with
  | create _ _ _ _ _ => exact ⟨o, created_get? hk ho, .refl o⟩
  | mark _ _ _ _ => exact ⟨o, ho, .refl o⟩
  | idle _ _ _ hs _ h => exact h.toWorks.keeps_order hs ho
  | attempt a hp _ => exact (Attempt.apply_works hp.live_ne).keeps_order hp.stored ho

theorem Booking.position_change {s s' : PaperState} {name : String} {p : Position}
    (h : Booking cfg T s s') (hget : s'.positions.get? name = some p) : PositionChange s name p := by
  cases h with
  | create _ _ _ _ _ => exact .kept hget
  | mark _ _ _ _ => exact markState_positions hget
  | idle _ _ _ _ _ h => exact positionChange_of_eq h.books.positions hget
  | attempt a hp _ => exact Attempt.apply_positions hp hget

theorem Booking.named {s s' : PaperState} (h : Booking cfg T s s') (hk : Keyed s) (hn : Named s) :
    Named s' :=
  hn.of_changes (fun ho => h.keeps_order hk ho) fun hget => h.position_change hget

/-- **The invariant rule of bookings.** -/
theorem Bookings.invariant {I : PaperState → Prop} {s s' : PaperState} (h : Bookings cfg T s s')
    (hI : ∀ {s s'}, Keyed s → Booking cfg T s s' → I s → I s') (hk : Keyed s) (hs : I s) : I s' := by
  induction h with
  | refl => exact hs
  | tail hbefore hlast ih => exact hI (Bookings.keyed hbefore hk) hlast ih

/-! ### Runs -/

/-- The states a new engine reaches by operations that keep to the terms. -/
abbrev Admitted (cfg : PaperConfig) (T : Terms) (marks : Dict String ℚ) : PaperState → Prop :=
  Transition.Reachable (engineStep cfg) (T.Meets cfg) (fresh cfg marks)

/-- Every operation of the run `ops` of a new engine keeps to the terms. -/
abbrev RunMeets (cfg : PaperConfig) (T : Terms) (marks : Dict String ℚ) (ops : List Op) : Prop :=
  Transition.Along (engineStep cfg) (T.Meets cfg) (fresh cfg marks) ops

theorem Admitted.run {marks : Dict String ℚ} {ops : List Op} (h : RunMeets cfg T marks ops) :
    Admitted cfg T marks (run cfg marks ops) :=
  Transition.reachable_of_exec (exec_engineStep (fresh cfg marks) ops) h

theorem Admitted.keyed {marks : Dict String ℚ} (h : Admitted cfg T marks s) : Keyed s := by
  refine Transition.Reachable.invariant h (Keyed.fresh marks) fun s op s' hk hop hs => ?_
  rw [← Option.some.inj hs]
  exact (step_bookings hk hop).keyed hk

/-- **The invariant rule for runs.**  What every booking keeps in keyed states holds in
every state reached. -/
theorem Admitted.invariant {I : PaperState → Prop} {marks : Dict String ℚ}
    (h : Admitted cfg T marks s) (h₀ : I (fresh cfg marks))
    (hI : ∀ {s s'}, Keyed s → Booking cfg T s s' → I s → I s') : I s := by
  induction h with
  | init => exact h₀
  | step hr hop hs ih =>
    have hk : Keyed _ := Admitted.keyed hr
    rw [← Option.some.inj hs]
    exact (step_bookings hk hop).invariant hI hk ih

end Paper

end Atlas
