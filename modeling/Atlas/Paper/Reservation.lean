import Atlas.Paper.Operation

/-!
# Reservations are conserved

The cash locked for open BUY orders is the sum of what the orders hold of it, and
an order that has ended holds nothing.  A reservation is kept as metadata of its
order, and every way an order can end has to release it.

One way does not: an immediate fill whose quantity rounds to zero fails the order
and leaves the reservation open.  A run conserves its reservations as long as no
fill of quantity zero is attempted on an order that holds one (`Attempt.Released`).

## Main definitions

* `Order.reservation` — what an order holds of the reserved cash.
* `ReservationsConserved` — the two statements above.
* `Backed` — the part of them that every run keeps, and what it needs of the orders.
* `Balanced` — a part of the engine moves the reserved cash and the reservation of
  its order by the same amount.

## Main results

* `releaseBuyReservation_balanced`, `releaseBuyReservation_closed` — a release is
  balanced, and a release of all that remains closes the reservation.
* `Backed.effect` — every effect keeps the reserved cash backed by the orders.
* `reservations_conserved` — a run that attempts no such fill conserves its
  reservations.

## References

`app/execution/paper/engine.py`, `app/accounting/invariants.py`,
`docs/architecture/paper_trading_flow.md`.
-/

namespace Atlas

/-- The order holds a reservation. -/
abbrev Order.Reserving (order : Order) : Prop := order.metadata.reservationOpen = some true

/-- What an order holds of the reserved cash. -/
def Order.reservation (order : Order) : ℚ :=
  if order.Reserving then order.metadata.reservedRemaining.getD 0 else 0

/-- An order that has ended holds no reservation. -/
def Order.Settled (order : Order) : Prop := order.status.Terminal → ¬ order.Reserving

/-- A reservation that is open belongs to a BUY order and is not negative. -/
def Order.Funded (order : Order) : Prop :=
  order.Reserving → order.side = .buy ∧ ∃ r, order.metadata.reservedRemaining = some r ∧ 0 ≤ r

theorem Order.Funded.reservation_nonneg {order : Order} (h : order.Funded) :
    0 ≤ order.reservation := by
  unfold Order.reservation
  split_ifs with hopen
  · obtain ⟨-, r, hr, hpos⟩ := h hopen
    rwa [hr, Option.getD_some]
  · exact le_rfl

/-- What remains of an open reservation is what the order holds. -/
theorem Order.Funded.remaining {order : Order} (h : order.Funded) (hopen : order.Reserving) :
    order.metadata.remaining = order.reservation := by
  obtain ⟨-, r, hr, -⟩ := h hopen
  simp [Metadata.remaining, Order.reservation, hopen, hr]

namespace Paper

/-- **Reservations are conserved**: the reserved cash is what the orders hold, and
an order that has ended holds nothing. -/
structure ReservationsConserved (s : PaperState) : Prop where
  total : s.reservedCash = s.orders.sum Order.reservation
  released : ∀ {id order}, s.orders.get? id = some order → order.status.Terminal →
    ¬ order.Reserving

/-- A fill of quantity zero is attempted only on an order that holds no reservation. -/
def Attempt.Released (a : Attempt) : Prop := 0 < a.fillQty ∨ ¬ a.order.Reserving

instance (a : Attempt) : Decidable a.Released := inferInstanceAs (Decidable (_ ∨ _))

variable {cfg : PaperConfig} {s : PaperState} {order : Order} {risk : RiskEvaluation} {now : Time}

/-! ### Parts of the engine that work on one order -/

/-- A part of the engine moves the reserved cash and the reservation of its order
by the same amount. -/
structure Balanced (s : PaperState) (order : Order) (r : Order × PaperState) : Prop where
  reserved : r.2.reservedCash = s.reservedCash - order.reservation + r.1.reservation
  funded : r.1.Funded

theorem Balanced.trans {r₁ r₂ : Order × PaperState} (h₁ : Balanced s order r₁)
    (h₂ : Balanced r₁.2 r₁.1 r₂) : Balanced s order r₂ where
  reserved := by
    rw [h₂.reserved, h₁.reserved]
    ring
  funded := h₂.funded

/-- What covered the reservation before covers it after. -/
theorem Balanced.le {r : Order × PaperState} (h : Balanced s order r)
    (hle : order.reservation ≤ s.reservedCash) : r.1.reservation ≤ r.2.reservedCash := by
  rw [h.reserved]
  linarith

/-- An order whose reservation is not touched. -/
theorem Balanced.same {r : Order × PaperState} (hf : order.Funded) (hside : r.1.side = order.side)
    (hopen : r.1.metadata.reservationOpen = order.metadata.reservationOpen)
    (hrem : r.1.metadata.reservedRemaining = order.metadata.reservedRemaining)
    (hcash : r.2.reservedCash = s.reservedCash) : Balanced s order r where
  reserved := by
    have hres : r.1.reservation = order.reservation := by
      simp only [Order.reservation, Order.Reserving, hopen, hrem]
    rw [hres, hcash]
    ring
  funded := by
    unfold Order.Funded Order.Reserving at *
    rwa [hside, hopen, hrem]

theorem update_balanced (st : OrderStatus) (error : Option String) (hf : order.Funded) :
    Balanced s order (update s order st risk error now) := by
  refine .same hf rfl ?_ ?_ rfl <;> cases error <;> rfl

/-- An order whose error is set holds what it held. -/
theorem update_reserving (st : OrderStatus) (error : Option String) :
    (update s order st risk error now).1.Reserving ↔ order.Reserving := by
  cases error <;> exact Iff.rfl

/-- A reservation that is covered gives back what is asked, at most what remains. -/
theorem releaseAmount_le {amount : Option ℚ} (hopen : order.Reserving) (hf : order.Funded)
    (hle : order.reservation ≤ s.reservedCash) :
    releaseAmount s order amount ≤ order.reservation ∧
      (amount = none → releaseAmount s order amount = order.reservation) := by
  have hpos : 0 ≤ order.reservation := hf.reservation_nonneg
  simp only [releaseAmount, hf.remaining hopen]
  split_ifs with hzero
  · exact ⟨hpos, fun _ => le_antisymm hpos hzero⟩
  · cases amount with
    | none => exact ⟨min_le_left _ _, fun _ => min_eq_left hle⟩
    | some a => exact ⟨(min_le_left _ _).trans (min_le_right _ _), by rintro ⟨⟩⟩

/-- The order gives up what is released, and closes when nothing is left. -/
theorem released_reservation (s : PaperState) (now : Time) {release : ℚ}
    (hopen : order.Reserving) (hf : order.Funded)
    (hle : release ≤ order.reservation) :
    (released s order release now).1.reservation = order.reservation - release ∧
      (released s order release now).1.Funded ∧
      (release = order.reservation → ¬ (released s order release now).1.Reserving) := by
  have hrem : order.metadata.remaining = order.reservation := hf.remaining hopen
  have hopen' : order.metadata.reservationOpen = some true := hopen
  by_cases hall : order.reservation - release ≤ 0
  · have hclosed : (released s order release now).1.metadata.reservationOpen = some false := by
      simp [released, hrem, Metadata.afterRelease, hall]
    refine ⟨?_, ?_, ?_⟩
    · rw [Order.reservation, if_neg (by simp [Order.Reserving, hclosed])]
      linarith
    · simp [Order.Funded, Order.Reserving, hclosed]
    · simp [Order.Reserving, hclosed]
  · have hmeta : (released s order release now).1.metadata =
        { order.metadata with reservedRemaining := some (order.reservation - release) } := by
      simp [released, hrem, Metadata.afterRelease, hall]
    refine ⟨?_, fun _ => ⟨(hf hopen).1, _, by rw [hmeta], (not_le.mp hall).le⟩, fun he => ?_⟩
    · simp only [Order.reservation, Order.Reserving, hmeta, hopen', if_true, Option.getD_some]
    · exact absurd (sub_nonpos.mpr he.ge) hall

/-- **A release is balanced.** -/
theorem releaseBuyReservation_balanced (amount : Option ℚ) (hf : order.Funded)
    (hle : order.reservation ≤ s.reservedCash) :
    Balanced s order (releaseBuyReservation s order amount now) := by
  rw [releaseBuyReservation_eq]
  split_ifs with hopen
  · have hmax : releaseAmount s order amount ≤ order.reservation := (releaseAmount_le hopen hf hle).1
    obtain ⟨hres, hfunded, -⟩ := released_reservation s now hopen hf hmax
    refine ⟨?_, hfunded⟩
    rw [hres]
    simp only [released]
    ring
  · exact ⟨by ring, hf⟩

/-- **A release of all that remains closes the reservation.** -/
theorem releaseBuyReservation_closed (now : Time) (hf : order.Funded)
    (hle : order.reservation ≤ s.reservedCash) :
    ¬ (releaseBuyReservation s order none now).1.Reserving := by
  rw [releaseBuyReservation_eq]
  split_ifs with hopen
  · obtain ⟨hmax, hall⟩ := releaseAmount_le hopen hf hle
    exact (released_reservation s now hopen hf hmax).2.2 (hall rfl)
  · exact hopen

theorem release_update_balanced (st : OrderStatus) (risk : RiskEvaluation)
    (error : Option String) (now : Time) (hf : order.Funded)
    (hle : order.reservation ≤ s.reservedCash) :
    Balanced s order (update (releaseBuyReservation s order none now).2
        (releaseBuyReservation s order none now).1 st risk error now) ∧
      Order.Settled (update (releaseBuyReservation s order none now).2
        (releaseBuyReservation s order none now).1 st risk error now).1 := by
  have hrel : Balanced s order (releaseBuyReservation s order none now) :=
    releaseBuyReservation_balanced none hf hle
  refine ⟨hrel.trans (update_balanced _ _ hrel.funded), fun _ => ?_⟩
  rw [update_reserving]
  exact releaseBuyReservation_closed now hf hle

/-! ### Attempts -/

namespace Attempt

variable {a : Attempt}

theorem freeing_balanced (hf : a.order.Funded) (hle : a.order.reservation ≤ a.state.reservedCash) :
    Balanced a.state a.order (a.freeing cfg) := by
  simp only [freeing, releaseForFill]
  split_ifs
  · have hb : Balanced a.state a.order (a.order, a.recorded cfg) := .same hf rfl rfl rfl rfl
    exact hb.trans (releaseBuyReservation_balanced _ hf hle)
  · exact .same hf rfl rfl rfl rfl

theorem finish_balanced {r : Order × PaperState} (hf : r.1.Funded)
    (hle : r.1.reservation ≤ r.2.reservedCash) :
    Balanced r.2 r.1 (a.finish r) ∧ (a.finish r).1.Settled := by
  simp only [finish]
  split_ifs
  · exact ⟨update_balanced _ _ hf, by rintro (h | h | h | h | h) <;> cases h⟩
  · exact release_update_balanced .filled a.risk none a.now hf hle

/-- A SELL order holds no reservation. -/
theorem not_reserving_of_sell (hf : order.Funded) (hside : order.side = .sell) :
    ¬ order.Reserving := fun h => by simp [(hf h).1] at hside

/-- **An attempt is balanced**, and closes the reservation of an order it ends, unless the
quantity rounds to zero. -/
theorem apply_balanced (cfg : PaperConfig) (hlive : a.order.status ≠ .failed)
    (hf : a.order.Funded) (hle : a.order.reservation ≤ a.state.reservedCash) :
    Balanced a.state a.order (a.apply cfg) ∧ (a.Released → (a.apply cfg).1.Settled) := by
  have h : a.Outcome cfg (a.apply cfg) := outcome hlive
  generalize a.apply cfg = r at h
  cases h with
  | dust hq =>
    -- the only branch that ends an order and leaves its reservation alone
    refine ⟨update_balanced _ _ hf, fun hrel _ => ?_⟩
    rw [update_reserving]
    exact hrel.resolve_left (not_lt.mpr hq)
  | bought hq hside hcash =>
    have hfree : Balanced a.state a.order (a.freeing cfg) := freeing_balanced hf hle
    have hb : Balanced a.state a.order (a.bought cfg) :=
      hfree.trans (.same hfree.funded rfl rfl rfl rfl)
    obtain ⟨hfin, hset⟩ := finish_balanced (a := a) hb.funded (hb.le hle)
    exact ⟨hb.trans hfin, fun _ => hset⟩
  | insufficient hq hside hcash =>
    have hfree : Balanced a.state a.order (a.freeing cfg) := freeing_balanced hf hle
    obtain ⟨hfin, hset⟩ := release_update_balanced .failed a.risk (some "insufficient") a.now
      hfree.funded (hfree.le hle)
    exact ⟨hfree.trans hfin, fun _ => hset⟩
  | sold p hq hside hp hqty =>
    have hb : Balanced a.state a.order (a.sold cfg p) := .same hf rfl rfl rfl rfl
    obtain ⟨hfin, hset⟩ := finish_balanced (a := a) hb.funded (hb.le hle)
    exact ⟨hb.trans hfin, fun _ => hset⟩
  | noPosition hq hside hp =>
    have hb : Balanced a.state a.order (a.order, a.recorded cfg) := .same hf rfl rfl rfl rfl
    refine ⟨hb.trans (update_balanced _ _ hf), fun _ _ => ?_⟩
    rw [update_reserving]
    exact not_reserving_of_sell hf hside

end Attempt

/-! ### Runs -/

/-- The reserved cash is what the orders hold, and each reservation is funded.  Every run
keeps this, whatever it attempts. -/
structure Backed (s : PaperState) : Prop where
  total : s.reservedCash = s.orders.sum Order.reservation
  funded : ∀ {id order}, s.orders.get? id = some order → order.Funded

theorem Backed.fresh (marks : Dict String ℚ) : Backed (Paper.fresh cfg marks) where
  total := rfl
  funded := fun h => by cases h

/-- The reserved cash covers each single reservation. -/
theorem Backed.le (h : Backed s) (hs : Stored s order) : order.reservation ≤ s.reservedCash := by
  rw [h.total]
  exact Dict.le_sum (fun hv => (h.funded hv).reservation_nonneg) hs

/-- A balanced part of the engine keeps the reserved cash backed. -/
theorem Backed.balanced {r : Order × PaperState} (h : Backed s) (hs : Stored s order)
    (hw : Works s order r) (hb : Balanced s order r) : Backed r.2 := by
  have hstored : r.2.orders.get? order.id = some r.1 := hw.same.id ▸ hw.stored
  refine ⟨?_, hw.each hb.funded h.funded⟩
  rw [hb.reserved, Dict.sum_of_ne Order.reservation hw.frame.orders hstored,
    show s.orders.get? order.id = some order from hs, h.total, Option.elim]

/-- The orders that have ended hold nothing. -/
abbrev AllSettled (s : PaperState) : Prop :=
  ∀ {id order}, s.orders.get? id = some order → Order.Settled order

/-- What one effect does to the reservations: they stay backed, and the orders that have
ended hold nothing, if the attempts do not leave a reservation open. -/
theorem Backed.effect_settled {ok : Attempt → Prop} {s' : PaperState} (hk : Keyed s)
    (heff : Effect cfg ok s s') (h : Backed s) :
    Backed s' ∧ ((∀ a, ok a → a.Released) → AllSettled s → AllSettled s') := by
  cases heff with
  | create _ request now _ hmeta =>
    have hnew : ¬ (newOrder s request now).Reserving := by
      simp [Order.Reserving, newOrder, hmeta.2.2]
    refine ⟨⟨?_, created_each (fun hopen => absurd hopen hnew) h.funded⟩, fun _ hset =>
      created_each (fun _ => hnew) hset⟩
    simp only [created, Dict.sum_set, hk.get?_next, Option.elim, Order.reservation, if_neg hnew]
    rw [h.total]
    ring
  | mark _ symbol price => exact ⟨⟨h.total, h.funded⟩, fun _ hset => hset⟩
  | status _ order st risk error now hs hp hr =>
    have hw : Works s order (update s order st risk error now) := update_works st error
    refine ⟨h.balanced hs hw (update_balanced _ _ (h.funded hs)), fun _ hset =>
      hw.each (fun _ => ?_) hset⟩
    rwa [update_reserving]
  | reserve _ order amount now hs hp hr hside hpos hcash =>
    have hw : Works s order (reservedOrder order amount now, reserved s order amount now) :=
      reserved_works amount
    refine ⟨h.balanced hs hw ⟨?_, fun _ => ⟨hside, amount, rfl, hpos.le⟩⟩, fun _ hset =>
      hw.each (fun hterm => ?_) hset⟩
    · rw [show order.reservation = 0 from if_neg hr]
      simp [reserved, Order.reservation, Order.Reserving, reservedOrder]
    · -- a pending order is not settled, so nothing is claimed of it
      have hst : order.status.Terminal := hterm
      rcases hp.1 with he | he | he <;> rw [he] at hst <;> exact absurd hst (by decide)
  | untriggered _ order risk error now hs hp =>
    have hw : Works s order (rejectUntriggered s order risk error now).result :=
      rejectUntriggered_works error hs
    obtain ⟨hb, hset'⟩ := release_update_balanced .rejected risk (some error) now (h.funded hs)
      (h.le hs)
    exact ⟨h.balanced hs hw hb, fun _ hset => hw.each hset' hset⟩
  | close _ order st now hs hopen hst =>
    have hw : Works s order (closeOrder s order st now) := closeOrder_works st hs
    have hrel : Balanced s order (releaseBuyReservation s order none now) :=
      releaseBuyReservation_balanced none (h.funded hs) (h.le hs)
    refine ⟨h.balanced hs hw ⟨hrel.reserved, hrel.funded⟩, fun _ hset =>
      hw.each (fun _ => releaseBuyReservation_closed now (h.funded hs) (h.le hs)) hset⟩
  | attempt a hp hok =>
    have hw : Works a.state a.order (a.apply cfg) := Attempt.apply_works hp.live_ne
    obtain ⟨hb, hset'⟩ := Attempt.apply_balanced cfg hp.live_ne (h.funded hp.stored)
      (h.le hp.stored)
    exact ⟨h.balanced hp.stored hw hb, fun hrel hset => hw.each (hset' (hrel a hok)) hset⟩

/-- **One effect keeps the reserved cash backed.** -/
theorem Backed.effect {ok : Attempt → Prop} {s' : PaperState} (hk : Keyed s)
    (heff : Effect cfg ok s s') (h : Backed s) : Backed s' := (h.effect_settled hk heff).1

/-- The invariant of the reservations: they are conserved, and each is funded. -/
structure Reservations (s : PaperState) : Prop where
  total : s.reservedCash = s.orders.sum Order.reservation
  funded : ∀ {id order}, s.orders.get? id = some order → order.Funded
  settled : ∀ {id order}, s.orders.get? id = some order → Order.Settled order

theorem Reservations.fresh (marks : Dict String ℚ) : Reservations (Paper.fresh cfg marks) where
  total := rfl
  funded := fun h => by cases h
  settled := fun h => by cases h

/-- **One effect conserves the reservations**, if its attempts do not leave one open. -/
theorem Reservations.effect {s' : PaperState} (hk : Keyed s)
    (heff : Effect cfg Attempt.Released s s') (h : Reservations s) : Reservations s' := by
  obtain ⟨hb, hset⟩ := Backed.effect_settled hk heff ⟨h.total, h.funded⟩
  exact ⟨hb.total, hb.funded, hset (fun _ ha => ha) h.settled⟩

/-- **Reservations are conserved** in every state of a run that attempts no fill
of quantity zero on an order that holds one. -/
theorem reservations_conserved {marks : Dict String ℚ} (h : Reached cfg Attempt.Released marks s) :
    ReservationsConserved s := by
  have hI : Reservations s := h.invariant (Reservations.fresh marks) Reservations.effect
  exact ⟨hI.total, hI.settled⟩

/-- A purchase filled by half keeps the other half reserved. -/
theorem reservations_conserved_partial_fill :
    let cfg : PaperConfig := { partialFillFraction := 1 / 2 }
    let s := run cfg (markAt 100) [marketOrder .buy "a" 2]
    0 < s.reservedCash ∧ ReservationsConserved s := by
  intro cfg s
  have hok : RunOk cfg Attempt.Released (markAt 100) [marketOrder .buy "a" 2] := by decide +kernel
  exact ⟨by decide +kernel, reservations_conserved (Reached.run hok)⟩

/-- **A fill that rounds to zero keeps its reservation.**  Half of the smallest
quantity rounds to zero: the order has failed and still holds the cash. -/
theorem zero_fill_not_released :
    let cfg : PaperConfig := { partialFillFraction := 1 / 2 }
    let s := run cfg (markAt 100000) [marketOrder .buy "a" quantum8]
    Reached cfg (fun _ => True) (markAt 100000) s ∧ ¬ ReservationsConserved s := by
  intro cfg s
  have hok : RunOk cfg (fun _ => True) (markAt 100000) [marketOrder .buy "a" quantum8] := by
    decide +kernel
  refine ⟨Reached.run hok, fun h => ?_⟩
  have hfailed : ∃ o, s.orders.get? (.uuid4 0) = some o ∧ o.status.Terminal ∧ o.Reserving :=
    ⟨(s.orders.get? (.uuid4 0)).get (by decide +kernel), by decide +kernel, by decide +kernel,
      by decide +kernel⟩
  obtain ⟨o, ho, hterm, hopen⟩ := hfailed
  exact h.released ho hterm hopen

end Paper

end Atlas
