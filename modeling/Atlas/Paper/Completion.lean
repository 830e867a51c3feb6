import Atlas.Paper.Reservation
import Atlas.Paper.Sales
import Atlas.Paper.Sweep

/-!
# When a resting order completes

A mark that crosses the limit of a resting order fills a fraction of what is left of it,
rounded down.  With the fraction one this is all that is left, and the order completes in
its first turn if the ledger covers it.  With a smaller fraction it is less than what is
left, so that something always is: the order never completes, however often the mark is
set.

## Main definitions

* `Order.Resting` — the order is open, and something of it is left.
* `remarked` — the state after a number of calls of `set_mark_price`.
* `Completed` — the order is filled, in full, and holds no reservation.

## Main results

* `restingQty_lt` — a fraction fills less than what is left.
* `completes_iff` — **when a resting order completes.**
* `half_never_completes` — half of what is left, a hundred times over.

## References

`app/execution/paper/engine.py`.
-/

namespace Atlas

/-- The order rests: it is open, and something of it is left. -/
def Order.Resting (order : Order) : Prop :=
  (order.status = .submitted ∨ order.status = .partiallyFilled) ∧
    0 < order.quantity - order.filledQuantity

instance (order : Order) : Decidable order.Resting := inferInstanceAs (Decidable (_ ∧ _))

namespace Paper

variable {cfg : PaperConfig} {s : PaperState} {order : Order} {symbol : String} {mark : ℚ}
  {now : Time} {clock : ℕ → Time} {marks : Dict String ℚ}

/-- The state after `n` calls of `set_mark_price` with one mark. -/
def remarked (cfg : PaperConfig) (s : PaperState) (symbol : String) (mark : ℚ)
    (clock : ℕ → Time) : ℕ → PaperState
  | 0 => s
  | n + 1 => setMarkPrice cfg (remarked cfg s symbol mark clock n) symbol mark (clock n)

/-- The order has completed: it is filled, in full, and a BUY holds no reservation. -/
def Completed (t : PaperState) (order : Order) : Prop :=
  ∃ o, t.orders.get? order.id = some o ∧ o.status = .filled ∧
    o.filledQuantity = order.quantity ∧ (order.side = .buy → ¬o.Reserving)

/-! ### What a mark fills of an order -/

/-- A fraction fills less than what is left. -/
theorem restingQty_lt {remaining : ℚ} (hpos : 0 < cfg.partialFillFraction)
    (hlt : cfg.partialFillFraction < 1) (hrem : 0 < remaining) :
    restingQty cfg remaining < remaining := by
  rw [restingQty, if_pos hlt]
  calc quantizeDown8 (remaining * cfg.partialFillFraction)
      ≤ remaining * cfg.partialFillFraction := quantizeDown8_le (mul_pos hrem hpos).le
    _ < remaining * 1 := mul_lt_mul_of_pos_left hlt hrem
    _ = remaining := mul_one _

/-- The whole fraction fills what is left. -/
theorem restingQty_one (h : cfg.partialFillFraction = 1) (remaining : ℚ) :
    restingQty cfg remaining = remaining := by
  rw [restingQty, if_neg (by rw [h]; exact lt_irrefl 1)]

/-- A fill of less than what is left does not complete its order. -/
theorem Attempt.apply_partial {a : Attempt} (hlive : a.order.status ≠ .failed)
    (hlt : a.fillQty < a.total) : (a.apply cfg).1.status ≠ .filled := by
  have h : a.Outcome cfg (a.apply cfg) := outcome hlive
  generalize a.apply cfg = r at h
  cases h with
  | dust _ => simp [update]
  | bought _ _ _ => simp [finish, hlt, update]
  | insufficient _ _ _ => simp [update]
  | sold p _ _ _ _ => simp [finish, hlt, update]
  | noPosition _ _ _ => simp [update]

/-- A fill of all that is left completes its order, if the ledger covers it. -/
theorem Attempt.apply_whole {a : Attempt} (hlive : a.order.status ≠ .failed)
    (hle : a.total ≤ a.fillQty) (hpos : 0 < a.fillQty) (hcov : a.Covered cfg) :
    (a.apply cfg).1.status = .filled ∧
      (a.apply cfg).1.filledQuantity = a.order.filledQuantity + a.fillQty := by
  have hfilled : Order.HasFilled (a.apply cfg).1 := (apply_hasFilled hlive).mpr ⟨hpos, hcov⟩
  refine ⟨?_, ?_⟩
  · have h : a.Outcome cfg (a.apply cfg) := outcome hlive
    generalize a.apply cfg = r at h hfilled
    cases h with
    | dust _ => simp [Order.HasFilled, update] at hfilled
    | bought _ _ _ => simp [finish, not_lt.mpr hle, update]
    | insufficient _ _ _ => simp [Order.HasFilled, update] at hfilled
    | sold p _ _ _ _ => simp [finish, not_lt.mpr hle, update]
    | noPosition _ _ _ => simp [Order.HasFilled, update] at hfilled
  · have htotals : (a.apply cfg).1.totals = a.order.totals.add (a.fill cfg) := by
      have hbooked : a.Booked cfg (a.apply cfg) := apply_booked hlive
      cases hbooked with
      | refused _ hfail =>
        rcases hfail with hdust | huncovered
        · exact absurd hpos (not_lt.mpr hdust)
        · exact absurd hcov huncovered
      | bought _ _ _ _ _ _ htotals _ => exact htotals
      | sold _ _ _ _ _ _ _ _ _ htotals _ => exact htotals
    exact congrArg Totals.filled htotals

/-! ### Calls of `set_mark_price` -/

/-- A mark keeps the ledger keyed. -/
theorem setMarkPrice_keyed (hk : Keyed s) (symbol : String) (mark : ℚ) (now : Time) :
    Keyed (setMarkPrice cfg s symbol mark now) := by
  have heff : Effects cfg (fun _ => True) s (step cfg s (.setMarkPrice symbol mark now)) :=
    step_effects hk trivial fun _ _ => trivial
  exact heff.keyed hk

theorem remarked_keyed (hk : Keyed s) : ∀ n, Keyed (remarked cfg s symbol mark clock n)
  | 0 => hk
  | n + 1 => setMarkPrice_keyed (remarked_keyed hk n) symbol mark (clock n)

/-- With a smaller fraction, a mark completes no order. -/
theorem setMarkPrice_unfilled {id : Ident} (hpos : 0 < cfg.partialFillFraction)
    (hlt : cfg.partialFillFraction < 1) (hk : Keyed s) (hs : s.orders.get? id = some order)
    (hst : order.status ≠ .filled) :
    ∃ o, (setMarkPrice cfg s symbol mark now).orders.get? id = some o ∧ o.status ≠ .filled := by
  obtain rfl : order.id = id := hk.id_eq hs
  rcases turn_cases cfg hk hs symbol mark now with ⟨-, -, hkeep⟩ | ⟨a, -, hturn⟩
  · exact ⟨order, hkeep, hst⟩
  · refine ⟨_, hturn.left, Attempt.apply_partial hturn.proper.live_ne ?_⟩
    obtain ⟨horder, hfill, htotal, -, -⟩ := hturn.attempt
    obtain ⟨-, hrem, -, hq⟩ := restingFill_eq_some cfg hfill
    rw [hq, htotal]
    exact restingQty_lt hpos hlt hrem

/-- A mark leaves an order that has ended. -/
theorem setMarkPrice_ended {id : Ident} (hk : Keyed s) (hs : s.orders.get? id = some order)
    (hterm : order.status.Terminal) :
    (setMarkPrice cfg s symbol mark now).orders.get? id = some order := by
  obtain rfl : order.id = id := hk.id_eq hs
  rcases turn_cases cfg hk hs symbol mark now with ⟨-, -, hkeep⟩ | ⟨a, -, hturn⟩
  · exact hkeep
  · obtain ⟨horder, -⟩ := hturn.attempt
    exact absurd (horder ▸ hterm) hturn.proper.open

theorem remarked_unfilled {id : Ident} (hpos : 0 < cfg.partialFillFraction)
    (hlt : cfg.partialFillFraction < 1) (hk : Keyed s) (hs : s.orders.get? id = some order)
    (hst : order.status ≠ .filled) (n : ℕ) :
    ∃ o, (remarked cfg s symbol mark clock n).orders.get? id = some o ∧ o.status ≠ .filled := by
  induction n with
  | zero => exact ⟨order, hs, hst⟩
  | succ n ih =>
    obtain ⟨o, ho, hunfilled⟩ := ih
    exact setMarkPrice_unfilled hpos hlt (remarked_keyed hk n) ho hunfilled

/-- What the first call ends stays as the first call has left it. -/
theorem remarked_ended {id : Ident} {o : Order} (hk : Keyed s)
    (ho : (setMarkPrice cfg s symbol mark (clock 0)).orders.get? id = some o)
    (hterm : o.status.Terminal) (n : ℕ) :
    (remarked cfg s symbol mark clock (n + 1)).orders.get? id = some o := by
  induction n with
  | zero => exact ho
  | succ n ih => exact setMarkPrice_ended (remarked_keyed hk (n + 1)) ih hterm

/-- The reservations of every state reached are backed. -/
theorem Reached.backed {ok : Attempt → Prop} (h : Reached cfg ok marks s) : Backed s :=
  h.invariant (Backed.fresh marks) Backed.effect

/-- With the whole fraction, a covered order completes in its first turn. -/
theorem Turn.completes {t : PaperState} {a : Attempt} (hone : cfg.partialFillFraction = 1)
    (hk : Keyed s) (hb : Backed s) (hturn : Turn cfg s symbol mark now order t a)
    (hcov : a.Covered cfg) : Completed t order := by
  obtain ⟨horder, hfill, htotal, -, -⟩ := hturn.attempt
  obtain ⟨-, -, hpos, hq⟩ := restingFill_eq_some cfg hfill
  rw [restingQty_one hone] at hq
  obtain ⟨hfilled, hquantity⟩ : (a.apply cfg).1.status = .filled ∧ _ :=
    Attempt.apply_whole hturn.proper.live_ne (by rw [htotal, hq]) hpos hcov
  -- the reservation is backed when the turn comes, so that its release closes it
  have hb' : Backed a.state := hturn.reached.invariant Backed.effect hk hb
  obtain ⟨-, hsettled⟩ := Attempt.apply_balanced cfg hturn.proper.live_ne
    (hb'.funded hturn.proper.stored) (hb'.le hturn.proper.stored)
  refine ⟨_, hturn.left, hfilled, ?_, fun _ => hsettled (.inl hpos) (.inl hfilled)⟩
  rw [hquantity, horder, hq]
  ring

/-- **When a resting order completes**: some number of calls of `set_mark_price` at a mark
that crosses its limit completes it exactly when the fraction is one and the ledger covers
the order in its first turn. -/
theorem completes_iff (h : Reached cfg (fun _ => True) marks s)
    (hpos : 0 < cfg.partialFillFraction) (hle : cfg.partialFillFraction ≤ 1)
    (hs : Stored s order) (hrests : order.Resting) (hcross : crosses order mark = true)
    (clock : ℕ → Time) :
    (∃ n, Completed (remarked cfg s order.symbol mark clock n) order) ↔
      cfg.partialFillFraction = 1 ∧
        ∃ a, turn cfg s order.symbol mark (clock 0) order = some a ∧ a.Covered cfg := by
  have hk : Keyed s := h.keyed
  have hlive : order.status ≠ .filled := by
    rcases hrests.1 with h | h <;> simp [h]
  constructor
  · rintro ⟨n, o, ho, hfilled, -⟩
    -- a smaller fraction completes nothing
    have hone : cfg.partialFillFraction = 1 := by
      by_contra hne
      obtain ⟨o', ho', hunfilled⟩ := remarked_unfilled hpos (lt_of_le_of_ne hle hne) hk hs hlive n
      rw [ho, Option.some.injEq] at ho'
      exact hunfilled (ho' ▸ hfilled)
    refine ⟨hone, ?_⟩
    cases n with
    | zero =>
      rw [remarked, show s.orders.get? order.id = some order from hs, Option.some.injEq] at ho
      exact absurd (ho ▸ hfilled) hlive
    | succ n =>
      rcases turn_cases cfg hk hs order.symbol mark (clock 0) with ⟨hnone, -, -⟩ | ⟨a, ha, hturn⟩
      · have hfill : 0 < restingQty cfg (order.quantity - order.filledQuantity) := by
          rw [restingQty_one hone]
          exact hrests.2
        simp [restingFill, hrests.1, hrests.2, hcross, hfill] at hnone
      · refine ⟨a, ha, ?_⟩
        by_contra hno
        -- an order that is not covered has failed in its first turn, and stays so
        have hfailed : (a.apply cfg).1.status = .failed :=
          Attempt.apply_refused hturn.proper.live_ne (mt And.left hno)
        rw [remarked_ended hk hturn.left (by simp [hfailed, OrderStatus.Terminal]) n,
          Option.some.injEq] at ho
        rw [← ho, hfailed] at hfilled
        cases hfilled
  · rintro ⟨hone, a, ha, hcov⟩
    rcases turn_cases cfg hk hs order.symbol mark (clock 0) with ⟨-, hnone, -⟩ | ⟨a', ha', hturn⟩
    · rw [hnone] at ha
      cases ha
    · rw [ha, Option.some.injEq] at ha'
      subst ha'
      exact ⟨1, hturn.completes hone hk h.backed hcov⟩

/-- An engine in which a LIMIT BUY of one unit at 100 rests. -/
def limitRests (cfg : PaperConfig) : PaperState :=
  run cfg (markAt 110) [limitOrder .buy "a" 1 100]

/-- With the whole fraction, a mark of 100 completes it. -/
theorem completes_iff_whole :
    ∃ order, (limitRests {}).orders.get? (.uuid4 0) = some order ∧
      ∃ n, Completed (remarked {} (limitRests {}) order.symbol 100 (fun _ => 0) n) order := by
  let order := ((limitRests {}).orders.get? (.uuid4 0)).get (by decide +kernel)
  have hok : RunOk {} (fun _ => True) (markAt 110) [limitOrder .buy "a" 1 100] := by
    decide +kernel
  have hreached : Reached {} (fun _ => True) (markAt 110) (limitRests {}) := Reached.run hok
  have hs : Stored (limitRests {}) order := by unfold Stored; decide +kernel
  have hcross : crosses order 100 = true := by decide +kernel
  have hcovered : (turn {} (limitRests {}) order.symbol 100 0 order).any
      (fun a => decide (a.Covered {})) = true := by decide +kernel
  obtain ⟨a, ha, hcov⟩ := (Option.any_eq_true ..).mp hcovered
  refine ⟨order, (Option.some_get _).symm, ?_⟩
  exact (completes_iff hreached (by decide +kernel) (by decide +kernel) hs (by decide +kernel)
    hcross fun _ => 0).mpr ⟨rfl, a, ha, of_decide_eq_true hcov⟩

/-- **Half of what is left, again and again.**  The order rests, the mark crosses its limit
and the ledger covers it, but no number of calls completes it. -/
theorem half_never_completes :
    let cfg : PaperConfig := { partialFillFraction := 1 / 2 }
    ∃ order, (limitRests cfg).orders.get? (.uuid4 0) = some order ∧ order.Resting ∧
      order.orderType = .limit ∧ crosses order 100 = true ∧
      (turn cfg (limitRests cfg) order.symbol 100 0 order).any
        (fun a => decide (a.Covered cfg)) = true ∧
      ∀ n, ¬Completed (remarked cfg (limitRests cfg) order.symbol 100 (fun _ => 0) n) order := by
  intro cfg
  let order := ((limitRests cfg).orders.get? (.uuid4 0)).get (by decide +kernel)
  have hok : RunOk cfg (fun _ => True) (markAt 110) [limitOrder .buy "a" 1 100] := by
    decide +kernel
  have hk : Keyed (limitRests cfg) := (Reached.run hok).keyed
  have hs : (limitRests cfg).orders.get? (.uuid4 0) = some order := (Option.some_get _).symm
  have hid : order.id = .uuid4 0 := hk.id_eq hs
  refine ⟨order, hs, by decide +kernel, by decide +kernel, by decide +kernel,
    by decide +kernel, fun n hcompleted => ?_⟩
  obtain ⟨o, ho, hfilled, -⟩ := hcompleted
  obtain ⟨o', ho', hunfilled⟩ : ∃ o', (remarked cfg (limitRests cfg) order.symbol 100
      (fun _ => 0) n).orders.get? (.uuid4 0) = some o' ∧ o'.status ≠ .filled :=
    remarked_unfilled (by decide +kernel) (by decide +kernel) hk hs (by decide +kernel) n
  rw [hid, ho', Option.some.injEq] at ho
  exact hunfilled (ho ▸ hfilled)

end Paper

end Atlas
