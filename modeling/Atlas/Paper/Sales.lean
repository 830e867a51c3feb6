import Atlas.Paper.Recorded

/-!
# Sales

A sale is a SELL fill that was applied to a position.  Sales are made by submissions and
by marks, which trigger resting orders; the profit of a sale is what it adds to the
realized profit of the ledger, and nothing else adds to it.

## Main definitions

* `Attempt.Sells`, `Sale` — an attempt that sells, and what it sells.
* `sales`, `salesAlong` — the sales of an operation, and of several in turn.

## Main results

* `step_realized` — **an operation realizes the profits of its sales**.
* `run_realized` — **a run realizes the profits of its sales**.
* `submit_sales` — the sale of a submission is that of the order it returns.

## References

`app/execution/paper/engine.py`.
-/

namespace Atlas

namespace Paper

variable (cfg : PaperConfig) {s : PaperState} {risk : RiskEvaluation} {now : Time}

/-- A SELL fill that was applied to a position, with the profit it realized. -/
structure Sale where
  fill : Fill
  profit : ℚ
  deriving DecidableEq, Repr

/-- The attempt is applied to a position. -/
def Attempt.Sells (a : Attempt) : Prop := a.order.side = .sell ∧ 0 < a.fillQty ∧ a.Covered cfg

instance (a : Attempt) : Decidable (a.Sells cfg) := inferInstanceAs (Decidable (_ ∧ _ ∧ _))

/-- The profit an attempt realizes, if it sells. -/
def Attempt.profit (a : Attempt) : ℚ :=
  (a.state.positions.get? a.order.symbol).elim 0 fun p =>
    realizedBy p a.fillQty a.price (a.fee cfg)

/-- The sales among some attempts. -/
def salesOf (as : List Attempt) : List Sale :=
  (as.filter fun a => a.Sells cfg).map fun a => ⟨a.fill cfg, a.profit cfg⟩

/-- The sales of an operation. -/
def sales (s : PaperState) (op : Op) : List Sale := salesOf cfg (attempts cfg s op)

/-- The sales of several operations in turn. -/
def salesAlong : PaperState → List Op → List Sale
  | _, [] => []
  | s, op :: ops => sales cfg s op ++ salesAlong (step cfg s op) ops

variable {cfg}

@[simp] theorem salesOf_nil : salesOf cfg [] = [] := rfl

theorem salesOf_append (as bs : List Attempt) :
    salesOf cfg (as ++ bs) = salesOf cfg as ++ salesOf cfg bs := by
  simp only [salesOf, List.filter_append, List.map_append]

theorem salesAlong_append (ops ops' : List Op) : ∀ s : PaperState,
    salesAlong cfg s (ops ++ ops') =
      salesAlong cfg s ops ++ salesAlong cfg (ops.foldl (step cfg) s) ops' := by
  induction ops with
  | nil => exact fun s => rfl
  | cons op ops ih =>
    intro s
    simp only [List.cons_append, salesAlong, ih, List.append_assoc, List.foldl_cons]

/-! ### Profits -/

/-- The profits of some sales. -/
def totalProfit (sold : List Sale) : ℚ := (sold.map Sale.profit).sum

theorem totalProfit_append (sold sold' : List Sale) :
    totalProfit (sold ++ sold') = totalProfit sold + totalProfit sold' := by
  simp only [totalProfit, List.map_append, List.sum_append]

/-- **An attempt realizes the profit of its sale.** -/
theorem Attempt.apply_realized {a : Attempt} (hlive : a.order.status ≠ .failed) :
    (a.apply cfg).2.realizedPnl = a.state.realizedPnl + totalProfit (salesOf cfg [a]) := by
  have h : a.Booked cfg (a.apply cfg) := Attempt.apply_booked hlive
  generalize a.apply cfg = r at h
  by_cases hsells : a.Sells cfg
  · obtain ⟨hside, hq, hcov⟩ := hsells
    have hsold : salesOf cfg [a] = [⟨a.fill cfg, a.profit cfg⟩] := by
      simp [salesOf, Attempt.Sells, hside, hq, hcov]
    rw [hsold]
    cases h with
    | refused _ hfail => exact absurd hcov (hfail.resolve_left (not_le.mpr hq))
    | bought _ hbuy => rw [hside] at hbuy; cases hbuy
    | sold p _ _ hp _ _ _ _ hrealized =>
      rw [hrealized, totalProfit, List.map_singleton, List.sum_singleton, Attempt.profit, hp]
      rfl
  · have hnone : salesOf cfg [a] = [] := by simp [salesOf, hsells]
    rw [hnone, totalProfit, List.map_nil, List.sum_nil, add_zero]
    cases h with
    | refused hbooks _ => exact hbooks.realized
    | bought _ _ _ _ _ hrealized => exact hrealized
    | sold p hq hside _ _ _ _ _ _ _ hcov => exact absurd ⟨hside, hq, hcov⟩ hsells

/-- The loop over the resting orders realizes the profits of its sales. -/
theorem restingLoop_realized {symbol : String} {mark : ℚ} {orders : List Order} :
    ∀ {s : PaperState}, (orders.map Order.id).Nodup → (∀ o ∈ orders, Stored s o) →
      (orders.foldl (triggerOne cfg symbol mark now) s).realizedPnl =
        s.realizedPnl + totalProfit (salesOf cfg (restingAttempts cfg symbol mark now s orders)) := by
  induction orders with
  | nil => exact fun _ _ => (add_zero _).symm
  | cons order orders ih =>
    intro s hids hs
    obtain ⟨-, hs'⟩ : Effects cfg (fun _ => True) s _ ∧ _ :=
      triggerOne_carries hids hs fun _ _ => trivial
    have hfirst : (triggerOne cfg symbol mark now s order).realizedPnl = s.realizedPnl +
        totalProfit (salesOf cfg (restingAttempt cfg symbol mark now s order).toList) := by
      rw [triggerOne_eq]
      cases h : restingAttempt cfg symbol mark now s order with
      | none => exact (add_zero _).symm
      | some a =>
        obtain ⟨rfl, rfl, hp⟩ := restingAttempt_proper (hs order (List.mem_cons_self ..)) h
        exact Attempt.apply_realized hp.live_ne
    rw [List.foldl_cons, ih (List.nodup_cons.mp hids).2 hs', hfirst, restingAttempts,
      salesOf_append, totalProfit_append, add_assoc]

theorem submitAfterLatency_realized (request : OrderRequest) (roll : ℚ) :
    (submitAfterLatency cfg s request risk roll now).2.realizedPnl = s.realizedPnl +
      totalProfit (salesOf cfg (submitAttempts cfg s request risk roll now)) := by
  have hprep : Idle _ _ (prepare cfg s request risk roll now).result :=
    prepare_idle s request risk roll now
  cases h : prepare cfg s request risk roll now with
  | done o s' =>
    rw [h] at hprep
    rw [submitAfterLatency, submitAttempts, h]
    exact hprep.books.realized.trans (add_zero _).symm
  | execute o s' mark =>
    rw [h] at hprep
    rw [submitAfterLatency, submitAttempts, h]
    refine (Attempt.apply_realized (immediateAttempt_proper h).live_ne).trans ?_
    rw [show (immediateAttempt cfg s' o request risk mark now).state.realizedPnl = s.realizedPnl
      from hprep.books.realized]

theorem Closing.realized {s' : PaperState} (h : Closing s s') : s'.realizedPnl = s.realizedPnl := by
  cases h with
  | unchanged => rfl
  | closed order st now hs _ _ => exact (closeOrder_idle st hs).books.realized

/-- **An operation realizes the profits of its sales.** -/
theorem step_realized (hk : Keyed s) (op : Op) :
    (step cfg s op).realizedPnl = s.realizedPnl + totalProfit (sales cfg s op) := by
  cases op with
  | submit request risk roll now =>
    simp only [step, submit, sales, attempts]
    cases s.idempotencyIndex.get? request.idempotencyKey with
    | some id => exact (add_zero _).symm
    | none => exact submitAfterLatency_realized request roll
  | setMarkPrice symbol price now =>
    exact restingLoop_realized hk.values_nodup fun o ho => hk.stored_of_mem ho
  | cancel id now => exact (cancel_closing id hk).realized.trans (add_zero _).symm
  | expire id now => exact (expire_closing id hk).realized.trans (add_zero _).symm

/-- **A run realizes the profits of its sales**: from any ledger with its keys in order, the
realized profit after some operations is that before them and the profits of the sales that
they make in turn. -/
theorem run_realized (ops : List Op) : ∀ {s : PaperState}, Keyed s →
    (ops.foldl (step cfg) s).realizedPnl = s.realizedPnl + totalProfit (salesAlong cfg s ops) := by
  induction ops with
  | nil => exact fun _ => (add_zero _).symm
  | cons op ops ih =>
    intro s hk
    have hk' : Keyed (step cfg s op) := (step_bookings hk (anyTerms_meets op)).keyed hk
    rw [List.foldl_cons, ih hk', step_realized hk, salesAlong, totalProfit_append, add_assoc]

/-! ### The sale of a submission -/

/-- The order has fills of its own. -/
def Order.HasFilled (o : Order) : Prop := o.status = .filled ∨ o.status = .partiallyFilled

instance (o : Order) : Decidable (Order.HasFilled o) := inferInstanceAs (Decidable (_ ∨ _))

theorem reserveFor_unfilled {order : Order} (request : OrderRequest) (mark : Option ℚ)
    (h : order.status = .submitted) :
    ¬Order.HasFilled (reserveFor s order request risk mark now).1.1 := by
  simp only [reserveFor]
  split
  · simp only [reserveBuy]
    split_ifs <;> simp [Order.HasFilled, update, h]
  · simp [Order.HasFilled, h]

/-- A submission fills nothing before its immediate execution. -/
theorem prepare_unfilled (request : OrderRequest) (roll : ℚ) :
    ¬Order.HasFilled (prepare cfg s request risk roll now).result.1 := by
  simp only [prepare]
  split_ifs
  · simp [Prepared.result, Order.HasFilled, update]
  · simp [Prepared.result, Order.HasFilled, update]
  · -- the placement of a submitted order
    generalize hr : update (update _ _ .approved _ _ _).2 _ .submitted _ _ _ = r
    have hst : r.1.status = .submitted := by rw [← hr]; rfl
    obtain ⟨mark, hplaced⟩ := placeOrder_cases r.2 r.1 request risk now
    have hres : ¬Order.HasFilled (reserveFor r.2 r.1 request risk mark now).1.1 :=
      reserveFor_unfilled request mark hst
    rcases hplaced with h | h | ⟨-, m, h⟩ <;> rw [h]
    · exact hres
    · simp [Prepared.result, Order.HasFilled, update]
    · rcases marketable_cases (reserveFor r.2 r.1 request risk mark now).2
        (reserveFor r.2 r.1 request risk mark now).1.1 request risk m now with h | h | ⟨error, h⟩ <;>
        rw [h]
      · exact hres
      · exact hres
      · simp [Prepared.result, Order.HasFilled, rejectUntriggered, update]

theorem Attempt.finish_hasFilled {a : Attempt} (r : Order × PaperState) :
    Order.HasFilled (a.finish r).1 := by
  simp only [finish]
  split_ifs <;> simp [Order.HasFilled, update]

/-- An attempt fills its order if it is covered. -/
theorem Attempt.apply_hasFilled {a : Attempt} (hlive : a.order.status ≠ .failed) :
    Order.HasFilled (a.apply cfg).1 ↔ 0 < a.fillQty ∧ a.Covered cfg := by
  constructor
  · intro hfilled
    by_contra hno
    have hfailed : (a.apply cfg).1.status = .failed := apply_refused hlive (mt And.symm hno)
    rw [Order.HasFilled, hfailed] at hfilled
    simp at hfilled
  · rintro ⟨hq, hcov⟩
    have h : a.Outcome cfg (a.apply cfg) := outcome hlive
    rw [Attempt.Covered, or_iff_right (not_le.mpr hq)] at hcov
    generalize a.apply cfg = r at h
    cases h with
    | dust hle => exact absurd hq (not_lt.mpr hle)
    | bought _ _ _ => exact finish_hasFilled _
    | insufficient _ hside hcash =>
      simp only [hside] at hcov
      rw [freeing_snd.2.1] at hcash
      exact absurd hcov (not_le.mpr hcash)
    | sold p _ _ _ _ => exact finish_hasFilled _
    | noPosition _ hside hp =>
      simp only [hside, held] at hcov
      cases hget : a.state.positions.get? a.order.symbol with
      | none => rw [hget] at hcov; exact absurd hcov (not_le.mpr hq)
      | some p => rw [hget] at hcov; exact absurd hcov (not_le.mpr (hp p hget))

/-- An attempt fails when it is not covered, or has nothing to fill. -/
theorem Attempt.apply_failed_iff {a : Attempt} (hlive : a.order.status ≠ .failed) :
    (a.apply cfg).1.status = .failed ↔ ¬(0 < a.fillQty ∧ a.Covered cfg) := by
  refine ⟨fun hfailed hcov => ?_, fun hno => apply_refused hlive (mt And.symm hno)⟩
  have hfilled := (apply_hasFilled hlive).mpr hcov
  rw [Order.HasFilled, hfailed] at hfilled
  simp at hfilled

/-- The sale of a submission, as its order tells it. -/
inductive SubmitSells (cfg : PaperConfig) (s : PaperState) (as : List Attempt) :
    Order × PaperState → Prop
  /-- The order is a SELL that has filled: it has made the one sale. -/
  | sold (r : Order × PaperState) (a : Attempt) (hside : r.1.side = .sell)
      (hfilled : Order.HasFilled r.1) (hsold : salesOf cfg as = [⟨a.fill cfg, a.profit cfg⟩])
      (horder : a.order.id = r.1.id) (hfills : r.2.fills = s.fills ++ [a.fill cfg]) :
      SubmitSells cfg s as r
  | unsold (r : Order × PaperState) (hno : ¬(r.1.side = .sell ∧ Order.HasFilled r.1))
      (hsold : salesOf cfg as = []) : SubmitSells cfg s as r

/-- **The sale of a submission is that of the order it returns.** -/
theorem submit_sales (request : OrderRequest) (roll : ℚ) :
    SubmitSells cfg s (submitAttempts cfg s request risk roll now)
      (submitAfterLatency cfg s request risk roll now) := by
  have hprep : Idle _ _ (prepare cfg s request risk roll now).result :=
    prepare_idle s request risk roll now
  have hunfilled : ¬Order.HasFilled (prepare cfg s request risk roll now).result.1 :=
    prepare_unfilled request roll
  cases h : prepare cfg s request risk roll now with
  | done o s' =>
    rw [h] at hunfilled
    rw [submitAfterLatency, submitAttempts, h]
    exact .unsold _ (fun hsold => hunfilled hsold.2) rfl
  | execute o s' mark =>
    rw [h] at hprep
    rw [submitAfterLatency, submitAttempts, h]
    have hp := immediateAttempt_proper h
    generalize ha : immediateAttempt cfg s' o request risk mark now = a at hp
    have hresult : executeFill cfg s' o request risk mark now = a.apply cfg := ha ▸ executeFill_eq ..
    have hsame : Order.SameRequest a.order (a.apply cfg).1 := (Attempt.apply_stored hp.live_ne).2
    have hfilled := @Attempt.apply_hasFilled cfg a hp.live_ne
    dsimp only
    rw [ha, hresult]
    by_cases hsells : a.Sells cfg
    · obtain ⟨hside, hq, hcov⟩ := hsells
      refine .sold _ a (hsame.side ▸ hside) (hfilled.mpr ⟨hq, hcov⟩) ?_ hsame.id.symm ?_
      · simp [salesOf, Attempt.Sells, hside, hq, hcov]
      · rw [Attempt.apply_records hp.live_ne hq, ← ha]
        exact congrArg (· ++ _) hprep.fills
    · refine .unsold _ ?_ (by simp [salesOf, hsells])
      rintro ⟨hside, hhas⟩
      exact hsells ⟨hsame.side ▸ hside, hfilled.mp hhas⟩

end Paper

end Atlas
