import Atlas.Paper.Booking

/-!
# The lifecycle of an order

An order that has ended is never touched again, whatever the engine does next: fills,
cancels and expiries begin by testing its status, and a submission works on a new order.
An open order only gains fills.

What an order can be filled to depends on the configuration.  A resting order is filled
by at most what is left of it, but the immediate execution fills the fraction
`partial_fill_fraction` of the request without that bound, so that a fraction above one
fills more than was ordered.

## Main definitions

* `Advances s s' id o o'` — what can become of the order `id` from `s` to `s'`.
* `Attempt.Fits`, `fitting` — a fill is no more than what is left of its order.

## Main results

* `Booking.advances` — **a booking advances every order**.
* `order_lifecycle` — ended orders stay as they are, and orders are not overfilled.
* `within_of_fraction` — **a fraction up to one overfills no order**.

## References

`app/execution/paper/engine.py`, `app/services/reconciliation.py`.
-/

namespace Atlas

/-- The order is filled by no more than its quantity. -/
def Order.WithinQuantity (order : Order) : Prop := order.filledQuantity ≤ order.quantity

namespace Paper

variable {cfg : PaperConfig} {T : Terms} {s s' s'' : PaperState} {order : Order} {now : Time}

/-! ### What can become of an order -/

/-- What can become of the order `id`: it is filled further, unless it has ended. -/
structure Advances (s s' : PaperState) (id : Ident) (o o' : Order) : Prop where
  same : Order.SameRequest o o'
  filled : o.filledQuantity ≤ o'.filledQuantity
  ended : o.status.Terminal → o' = o ∧ fillsOf s'.fills id = fillsOf s.fills id

theorem Advances.of_eq {id : Ident} (o : Order)
    (hfills : fillsOf s'.fills id = fillsOf s.fills id) : Advances s s' id o o :=
  ⟨.refl o, le_rfl, fun _ => ⟨rfl, hfills⟩⟩

theorem Advances.trans {id : Ident} {o o' o'' : Order} (h₁ : Advances s s' id o o')
    (h₂ : Advances s' s'' id o' o'') : Advances s s'' id o o'' where
  same := h₁.same.trans h₂.same
  filled := h₁.filled.trans h₂.filled
  ended := fun hend => by
    obtain ⟨heq₁, hfills₁⟩ := h₁.ended hend
    obtain ⟨heq₂, hfills₂⟩ := h₂.ended (heq₁ ▸ hend)
    exact ⟨heq₂.trans heq₁, hfills₂.trans hfills₁⟩

/-- Work on an open order that takes no fill back advances every order: the one worked
on, and the others by leaving them alone. -/
theorem Works.advances {r : Order × PaperState} {id : Ident} {o : Order} (h : Works s order r)
    (hs : Stored s order) (hopen : ¬ order.status.Terminal)
    (hfilled : order.filledQuantity ≤ r.1.filledQuantity) (ho : s.orders.get? id = some o) :
    ∃ o', r.2.orders.get? id = some o' ∧ Advances s r.2 id o o' := by
  by_cases hid : order.id = id
  · -- the order that is worked on: it is open, so nothing is claimed of an ended one
    have horder : order = o := by
      rw [← hid, show s.orders.get? order.id = some order from hs] at ho
      exact Option.some.inj ho
    subst horder
    refine ⟨r.1, ?_, h.same, hfilled, fun hend => absurd hend hopen⟩
    rw [← hid, ← h.same.id]
    exact h.stored
  · refine ⟨o, by rw [h.frame.orders hid, ho], .of_eq o ?_⟩
    obtain ⟨fs, hfs, hown⟩ := h.frame.fills
    have hnone : fillsOf fs id = [] := fillsOf_eq_nil fun f hf => hown f hf ▸ hid
    rw [hfs, fillsOf_append, hnone, List.append_nil]

/-- An attempt adds its fill to what is filled, or nothing. -/
theorem Attempt.Booked.filled {a : Attempt} {r : Order × PaperState} (h : a.Booked cfg r) :
    a.order.filledQuantity ≤ r.1.filledQuantity ∧
      (a.Covered cfg → 0 < a.fillQty →
        r.1.filledQuantity = a.order.filledQuantity + a.fillQty) ∧
      (¬ (a.Covered cfg ∧ 0 < a.fillQty) → r.1.filledQuantity = a.order.filledQuantity) := by
  have hof : ∀ {t : Totals}, r.1.totals = t → r.1.filledQuantity = t.filled := by
    intro t ht
    exact congrArg Totals.filled ht
  cases h with
  | refused books hfail =>
    have heq : r.1.filledQuantity = a.order.filledQuantity := hof books.totals
    refine ⟨heq.ge, fun hcov hq => ?_, fun _ => heq⟩
    exact (hfail.elim (fun hle => absurd hq (not_lt.mpr hle)) fun hn => absurd hcov hn)
  | bought hq _ _ _ _ _ htotals hcov =>
    have heq : r.1.filledQuantity = a.order.filledQuantity + a.fillQty := hof htotals
    exact ⟨by rw [heq]; exact le_add_of_nonneg_right hq.le, fun _ _ => heq,
      fun hn => absurd ⟨hcov, hq⟩ hn⟩
  | sold p hq _ _ _ _ _ _ _ htotals hcov =>
    have heq : r.1.filledQuantity = a.order.filledQuantity + a.fillQty := hof htotals
    exact ⟨by rw [heq]; exact le_add_of_nonneg_right hq.le, fun _ _ => heq,
      fun hn => absurd ⟨hcov, hq⟩ hn⟩

/-- **A booking advances every order.** -/
theorem Booking.advances {id : Ident} {o : Order} (h : Booking cfg T s s') (hk : Keyed s)
    (ho : s.orders.get? id = some o) :
    ∃ o', s'.orders.get? id = some o' ∧ Advances s s' id o o' := by
  cases h with
  | create _ _ _ _ _ => exact ⟨o, created_get? hk ho, .of_eq o rfl⟩
  | mark _ _ _ _ => exact ⟨o, ho, .of_eq o rfl⟩
  | idle _ order r hs hopen hidle =>
    have hfilled : order.filledQuantity = r.1.filledQuantity :=
      (congrArg Totals.filled hidle.books.totals).symm
    exact hidle.toWorks.advances hs hopen hfilled.le ho
  | attempt a hp _ =>
    have hw : Works a.state a.order (a.apply cfg) := Attempt.apply_works hp.live_ne
    exact hw.advances hp.stored hp.open (Attempt.apply_booked hp.live_ne).filled.1 ho

/-- Bookings advance every order. -/
theorem Bookings.advances {id : Ident} {o : Order} (h : Bookings cfg T s s') (hk : Keyed s)
    (ho : s.orders.get? id = some o) :
    ∃ o', s'.orders.get? id = some o' ∧ Advances s s' id o o' := by
  induction h with
  | refl => exact ⟨o, ho, .of_eq o rfl⟩
  | tail hbefore hlast ih =>
    obtain ⟨o₁, ho₁, hadv₁⟩ := ih
    obtain ⟨o₂, ho₂, hadv₂⟩ := hlast.advances (Bookings.keyed hbefore hk) ho₁
    exact ⟨o₂, ho₂, hadv₁.trans hadv₂⟩

theorem anyTerms_meets (op : Op) : anyTerms.Meets cfg s op := by
  refine ⟨?_, fun _ _ => trivial⟩
  cases op <;> simp [anyTerms]

/-- **Every continuation advances every order.** -/
theorem run_advances (ops : List Op) : ∀ {s : PaperState} {id : Ident} {o : Order}, Keyed s →
    s.orders.get? id = some o →
    ∃ o', (ops.foldl (step cfg) s).orders.get? id = some o' ∧
      Advances s (ops.foldl (step cfg) s) id o o' := by
  induction ops with
  | nil => exact fun _ ho => ⟨_, ho, .of_eq _ rfl⟩
  | cons op ops ih =>
    intro s id o hk ho
    have hb : Bookings cfg anyTerms s (step cfg s op) := step_bookings hk (anyTerms_meets op)
    obtain ⟨o₁, ho₁, hadv₁⟩ := hb.advances hk ho
    obtain ⟨o₂, ho₂, hadv₂⟩ := ih (hb.keyed hk) ho₁
    exact ⟨o₂, ho₂, hadv₁.trans hadv₂⟩

/-! ### What an order can be filled to -/

/-- A fill that is delivered is no more than what is left of its order. -/
def Attempt.Fits (cfg : PaperConfig) (a : Attempt) : Prop :=
  0 < a.fillQty → a.Covered cfg → a.fillQty ≤ a.total

instance (a : Attempt) : Decidable (a.Fits cfg) := by
  unfold Attempt.Fits
  infer_instance

/-- The terms of a run whose requests are of no negative quantity and whose fills fit. -/
def fitting (cfg : PaperConfig) : Terms where
  request _ request := 0 ≤ request.quantity
  attempt := Attempt.Fits cfg

instance (s : PaperState) (request : OrderRequest) : Decidable ((fitting cfg).request s request) :=
  inferInstanceAs (Decidable (_ ≤ _))

instance (s : PaperState) (symbol : String) (price : ℚ) :
    Decidable ((fitting cfg).mark s symbol price) := inferInstanceAs (Decidable True)

instance : DecidablePred (fitting cfg).attempt :=
  inferInstanceAs (DecidablePred (Attempt.Fits cfg))

/-- **One booking that fits fills no order beyond its quantity.** -/
theorem Booking.within (h : Booking cfg (fitting cfg) s s')
    (hall : EachOrder Order.WithinQuantity s) : EachOrder Order.WithinQuantity s' := by
  cases h with
  | create _ request now _ hreq =>
    have hnew : (newOrder s request now).WithinQuantity := hreq
    exact fun j o => created_each hnew (hall _ _)
  | mark _ _ _ _ => exact hall
  | idle _ order r hs _ hidle =>
    refine hidle.toWorks.orders ?_ hall
    have hold : order.filledQuantity ≤ order.quantity := hall _ _ hs
    have hfilled : r.1.filledQuantity = order.filledQuantity :=
      congrArg Totals.filled hidle.books.totals
    rw [Order.WithinQuantity, hfilled, hidle.same.quantity]
    exact hold
  | attempt a hp hfits =>
    have hw : Works a.state a.order (a.apply cfg) := Attempt.apply_works hp.live_ne
    refine hw.orders ?_ hall
    have hold : a.order.filledQuantity ≤ a.order.quantity := hall _ _ hp.stored
    have hbooked : a.Booked cfg (a.apply cfg) := Attempt.apply_booked hp.live_ne
    obtain ⟨-, hadd, hkeep⟩ := hbooked.filled
    rw [Order.WithinQuantity, hw.same.quantity]
    by_cases hfill : a.Covered cfg ∧ 0 < a.fillQty
    · have hle : a.fillQty ≤ a.total := hfits hfill.2 hfill.1
      rw [hadd hfill.1 hfill.2]
      rw [hp.total] at hle
      linarith
    · rw [hkeep hfill]
      exact hold

/-- **The lifecycle of an order.**  Whatever follows a state of a run, an order that has
ended keeps its status, its filled quantity, its fees and its fills, and no order loses a
fill.  In a run whose fills fit, no order is filled beyond its quantity. -/
theorem order_lifecycle {marks : Dict String ℚ} (h : Admitted cfg (fitting cfg) marks s)
    (ops : List Op) {id : Ident} {o : Order} (ho : s.orders.get? id = some o) :
    o.filledQuantity ≤ o.quantity ∧
      ∃ o', (ops.foldl (step cfg) s).orders.get? id = some o' ∧
        o.filledQuantity ≤ o'.filledQuantity ∧
        (o.status.Terminal → o'.status = o.status ∧ o'.filledQuantity = o.filledQuantity ∧
          o'.fees = o.fees ∧
          fillsOf (ops.foldl (step cfg) s).fills id = fillsOf s.fills id) := by
  have hwithin : EachOrder Order.WithinQuantity s :=
    h.invariant (fun _ _ hget => by cases hget) fun _ hb hall => hb.within hall
  have hrun : ∃ o', (ops.foldl (step cfg) s).orders.get? id = some o' ∧
      Advances s (ops.foldl (step cfg) s) id o o' := run_advances ops (Admitted.keyed h) ho
  obtain ⟨o', ho', hadv⟩ := hrun
  refine ⟨hwithin id o ho, o', ho', hadv.filled, fun hend => ?_⟩
  obtain ⟨rfl, hfills⟩ := hadv.ended hend
  exact ⟨rfl, rfl, rfl, hfills⟩

/-- A purchase filled by half, cancelled, and then left alone by a mark. -/
theorem order_lifecycle_cancelled :
    let cfg : PaperConfig := { partialFillFraction := 1 / 2 }
    let s := run cfg (markAt 100) [marketOrder .buy "a" 2, .cancel (.uuid4 0) 1]
    let ops : List Op := [.setMarkPrice "BTC/USDT" 90 2, .cancel (.uuid4 0) 3]
    ∃ o, s.orders.get? (.uuid4 0) = some o ∧ o.status = .cancelled ∧ o.filledQuantity ≤ o.quantity ∧
      ∃ o', (ops.foldl (step cfg) s).orders.get? (.uuid4 0) = some o' ∧
        o.filledQuantity ≤ o'.filledQuantity ∧
        (o.status.Terminal → o'.status = o.status ∧ o'.filledQuantity = o.filledQuantity ∧
          o'.fees = o.fees ∧
          fillsOf (ops.foldl (step cfg) s).fills (.uuid4 0) = fillsOf s.fills (.uuid4 0)) := by
  intro cfg s ops
  have hok : RunMeets cfg (fitting cfg) (markAt 100)
      [marketOrder .buy "a" 2, .cancel (.uuid4 0) 1] := by decide +kernel
  obtain ⟨o, ho, hst⟩ : ∃ o, s.orders.get? (.uuid4 0) = some o ∧ o.status = .cancelled :=
    ⟨(s.orders.get? (.uuid4 0)).get (by decide +kernel), by decide +kernel, by decide +kernel⟩
  exact ⟨o, ho, hst, order_lifecycle (Admitted.run hok) ops ho⟩

/-- **A fraction above one overfills.**  At the fraction 2 a market order for 1 is filled
with 2, and closed as filled. -/
theorem fraction_overfills :
    let cfg : PaperConfig := { partialFillFraction := 2 }
    let s := run cfg (markAt 100) [marketOrder .buy "a" 1]
    Admitted cfg anyTerms (markAt 100) s ∧ ∃ o, s.orders.get? (.uuid4 0) = some o ∧
      o.status = .filled ∧ ¬ o.filledQuantity ≤ o.quantity := by
  intro cfg s
  have hok : RunMeets cfg anyTerms (markAt 100) [marketOrder .buy "a" 1] := by decide +kernel
  exact ⟨Admitted.run hok, (s.orders.get? (.uuid4 0)).get (by decide +kernel), by decide +kernel,
    by decide +kernel, by decide +kernel⟩

/-! ### Fractions that fit -/

/-- A fraction up to one of what is left is no more than what is left. -/
theorem quantizeDown8_fraction {quantity : ℚ} (hq : 0 ≤ quantity)
    (hfrac : cfg.partialFillFraction ≤ 1) :
    quantizeDown8 (quantity * cfg.partialFillFraction) ≤ quantity := by
  rcases le_total 0 cfg.partialFillFraction with hpos | hneg
  · exact (quantizeDown8_le (mul_nonneg hq hpos)).trans (mul_le_of_le_one_right hq hfrac)
  · exact (quantizeDown8_nonpos (mul_nonpos_of_nonneg_of_nonpos hq hneg)).trans hq

/-- A resting order is filled by at most what is left of it, at any fraction. -/
theorem restingAttempts_within {symbol : String} {mark : ℚ} {orders : List Order} :
    ∀ {s : PaperState}, ∀ a ∈ restingAttempts cfg symbol mark now s orders, a.fillQty ≤ a.total := by
  induction orders with
  | nil => exact fun _ ha => by cases ha
  | cons order orders ih =>
    intro s a ha
    rcases List.mem_append.mp ha with hnow | hlater
    · rw [Option.mem_toList] at hnow
      obtain ⟨fillQty, hfill, rfl⟩ := Option.map_eq_some_iff.mp hnow
      obtain ⟨-, hleft, -, hqty⟩ := restingFill_eq_some cfg hfill
      show fillQty ≤ order.quantity - order.filledQuantity
      rw [hqty, restingQty]
      split_ifs with hfrac
      · exact quantizeDown8_fraction hleft.le hfrac.le
      · exact le_rfl
    · exact ih a hlater

/-- **At a fraction up to one no fill is more than what is left** of its order, delivered
or not, if no request is of a negative quantity. -/
theorem attempts_within {op : Op} (hfrac : cfg.partialFillFraction ≤ 1)
    (hop : ∀ request risk roll now, op = .submit request risk roll now → 0 ≤ request.quantity) :
    ∀ a ∈ attempts cfg s op, a.fillQty ≤ a.total := by
  intro a ha
  cases op with
  | submit request risk roll now =>
    have hq : 0 ≤ request.quantity := hop _ _ _ _ rfl
    simp only [attempts] at ha
    cases hkey : s.idempotencyIndex.get? request.idempotencyKey with
    | some id => simp [hkey] at ha
    | none =>
      simp only [hkey, submitAttempts] at ha
      cases h : prepare cfg s request risk roll now with
      | done o s' => simp [h] at ha
      | execute o s' mark =>
        simp only [h, List.mem_singleton] at ha
        subst ha
        -- the immediate execution takes the fraction of the whole request
        exact quantizeDown8_fraction hq hfrac
  | setMarkPrice symbol price now => exact restingAttempts_within a ha
  | cancel id now => cases ha
  | expire id now => cases ha

/-- **A fraction up to one fits** every request of no negative quantity. -/
theorem fitting_of_fraction {op : Op} (hfrac : cfg.partialFillFraction ≤ 1)
    (hop : ∀ request risk roll now, op = .submit request risk roll now → 0 ≤ request.quantity) :
    (fitting cfg).Meets cfg s op := by
  refine ⟨?_, fun a ha _ _ => attempts_within hfrac hop a ha⟩
  cases op with
  | submit request risk roll now => exact fun _ => hop _ _ _ _ rfl
  | setMarkPrice symbol price now => trivial
  | cancel id now => trivial
  | expire id now => trivial

/-- **At a fraction up to one no run overfills an order**, if no request is of a negative
quantity. -/
theorem within_of_fraction {marks : Dict String ℚ} (hfrac : cfg.partialFillFraction ≤ 1)
    {ops : List Op} (hops : ∀ request risk roll now, Op.submit request risk roll now ∈ ops →
      0 ≤ request.quantity) : EachOrder Order.WithinQuantity (run cfg marks ops) := by
  have hrun : RunMeets cfg (fitting cfg) marks ops :=
    Transition.along_of_forall fun s op hop =>
      fitting_of_fraction hfrac fun request risk roll now hsubmit =>
        hops request risk roll now (hsubmit ▸ hop)
  exact (Admitted.run hrun).invariant (fun _ _ hget => by cases hget) fun _ hb hall => hb.within hall

end Paper

end Atlas
