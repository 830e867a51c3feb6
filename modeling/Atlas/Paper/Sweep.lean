import Atlas.Paper.Operation

/-!
# One order in the sweep

A mark sweeps the stored orders in turn, and each order it triggers is filled in the state
that the orders before it have left.  An order has one turn: the sweep makes one attempt on
it or none, and what this attempt leaves of it stays to the end of the sweep.

## Main definitions

* `turn` — the attempt a mark makes on an order.
* `Turn` — what is known of it.

## Main results

* `turn_cases` — **an order has its turn, or the sweep leaves it as it is.**

## References

`app/execution/paper/engine.py`.
-/

namespace Atlas

namespace Paper

variable {cfg : PaperConfig} {s : PaperState} {order : Order} {symbol : String} {mark : ℚ}
  {now : Time}

/-- The attempt a mark makes on an order, in the state the sweep has then reached. -/
def turn (cfg : PaperConfig) (s : PaperState) (symbol : String) (mark : ℚ) (now : Time)
    (order : Order) : Option Attempt :=
  (attempts cfg s (.setMarkPrice symbol mark now)).find? fun a => a.order.id = order.id

/-- What is known of the attempt `a` that a sweep from `s` to `t` makes on an order. -/
structure Turn (cfg : PaperConfig) (s : PaperState) (symbol : String) (mark : ℚ) (now : Time)
    (order : Order) (t : PaperState) (a : Attempt) : Prop where
  made : restingAttempt cfg symbol mark now a.state order = some a
  proper : a.Proper
  reached : Effects cfg (fun _ => True) s a.state
  left : t.orders.get? order.id = some (a.apply cfg).1

/-- The attempts of a sweep are made on its orders. -/
theorem restingAttempts_order {orders : List Order} : ∀ {s : PaperState} {a : Attempt},
    a ∈ restingAttempts cfg symbol mark now s orders → a.order ∈ orders := by
  induction orders with
  | nil => exact fun ha => by cases ha
  | cons o orders ih =>
    intro s a ha
    rcases List.mem_append.mp ha with hnow | hlater
    · rw [Option.mem_toList, restingAttempt] at hnow
      obtain ⟨q, -, rfl⟩ := Option.map_eq_some_iff.mp hnow
      exact List.mem_cons_self ..
    · exact List.mem_cons_of_mem _ (ih hlater)

/-- A sweep leaves an order that is not one of its own. -/
theorem restingLoop_frame {orders : List Order} {j : Ident} : ∀ {s : PaperState},
    (∀ o ∈ orders, o.id ≠ j) →
    (orders.foldl (triggerOne cfg symbol mark now) s).orders.get? j = s.orders.get? j := by
  induction orders with
  | nil => exact fun _ => rfl
  | cons o orders ih =>
    intro s hne
    rw [List.foldl_cons, ih fun o' ho' => hne o' (List.mem_cons_of_mem _ ho'), triggerOne_eq]
    cases h : restingAttempt cfg symbol mark now s o with
    | none => rfl
    | some a =>
      obtain ⟨q, hq, rfl⟩ := Option.map_eq_some_iff.mp h
      have hlive : o.status ≠ .failed := by
        rcases (restingFill_eq_some cfg hq).1 with h | h <;> simp [h]
      exact (Attempt.apply_frame hlive).orders (hne o (List.mem_cons_self ..))

/-- Looking for an order among the attempts on others finds nothing. -/
theorem find?_restingAttempts_of_ne {orders : List Order} {j : Ident}
    (hne : ∀ o ∈ orders, o.id ≠ j) :
    (restingAttempts cfg symbol mark now s orders).find? (fun a => a.order.id = j) = none := by
  rw [List.find?_eq_none]
  intro a ha
  simpa using hne _ (restingAttempts_order ha)

/-- The turn of an order in a sweep over `orders`: the orders before it have other
identifiers, and so have those after it. -/
theorem restingLoop_turn (cfg : PaperConfig) (symbol : String) (mark : ℚ) (now : Time)
    {orders : List Order} : ∀ {s : PaperState},
    (orders.map Order.id).Nodup → (∀ o ∈ orders, Stored s o) → order ∈ orders →
    let found := (restingAttempts cfg symbol mark now s orders).find?
      fun a => a.order.id = order.id
    let t := orders.foldl (triggerOne cfg symbol mark now) s
    (restingFill cfg order symbol mark = none ∧ found = none ∧
        t.orders.get? order.id = some order) ∨
      ∃ a, found = some a ∧ Turn cfg s symbol mark now order t a := by
  induction orders with
  | nil => exact fun _ _ hmem => by cases hmem
  | cons o orders ih =>
    intro s hids hs hmem
    obtain ⟨heff, hs'⟩ : Effects cfg (fun _ => True) s (triggerOne cfg symbol mark now s o) ∧ _ :=
      triggerOne_carries hids hs fun _ _ => trivial
    rw [List.map_cons, List.nodup_cons] at hids
    rw [restingAttempts, List.find?_append, List.foldl_cons]
    intro found t
    rcases List.mem_cons.mp hmem with rfl | hlater
    · -- its turn is now, and the orders after it leave it alone
      have hne : ∀ o ∈ orders, o.id ≠ order.id :=
        fun o ho he => hids.1 (he ▸ List.mem_map_of_mem ho)
      have hkeep : t.orders.get? order.id =
          (triggerOne cfg symbol mark now s order).orders.get? order.id := restingLoop_frame hne
      have hfound : found = (restingAttempt cfg symbol mark now s order).toList.find?
          fun a => a.order.id = order.id := by
        simp only [found, find?_restingAttempts_of_ne hne, Option.or_none]
      rw [hfound, hkeep, triggerOne_eq]
      have hso : Stored s order := hs order (List.mem_cons_self ..)
      cases h : restingAttempt cfg symbol mark now s order with
      | none => exact .inl ⟨Option.map_eq_none_iff.mp h, rfl, hso⟩
      | some a =>
        obtain ⟨hstate, horder, hp⟩ := restingAttempt_proper hso h
        have hw : Works a.state a.order (a.apply cfg) := Attempt.apply_works hp.live_ne
        refine .inr ⟨a, by simp [horder], by rw [hstate, h], hp, hstate ▸ .refl, ?_⟩
        have hstored : (a.apply cfg).2.orders.get? (a.apply cfg).1.id = _ := hw.stored
        rw [hw.same.id, horder] at hstored
        rw [hkeep, triggerOne_eq, h]
        exact hstored
    · -- its turn comes later
      have hne : o.id ≠ order.id := fun he => hids.1 (he ▸ List.mem_map_of_mem hlater)
      have hfirst : (restingAttempt cfg symbol mark now s o).toList.find?
          (fun a => a.order.id = order.id) = none := by
        rw [List.find?_eq_none]
        intro a ha
        rw [Option.mem_toList] at ha
        obtain ⟨q, -, rfl⟩ := Option.map_eq_some_iff.mp ha
        simpa using hne
      have hfound : found = (restingAttempts cfg symbol mark now
          (triggerOne cfg symbol mark now s o) orders).find? fun a => a.order.id = order.id := by
        simp only [found, hfirst, Option.none_or]
      rw [hfound]
      rcases ih hids.2 hs' hlater with hnone | ⟨a, ha, hturn⟩
      · exact .inl hnone
      · exact .inr ⟨a, ha, hturn.made, hturn.proper, heff.trans hturn.reached, hturn.left⟩

/-- **The turn of an order**: it has one in the sweep, or the mark does not trigger it and
the sweep leaves it as it is. -/
theorem turn_cases (cfg : PaperConfig) (hk : Keyed s) (hs : Stored s order) (symbol : String)
    (mark : ℚ) (now : Time) :
    (restingFill cfg order symbol mark = none ∧ turn cfg s symbol mark now order = none ∧
        (setMarkPrice cfg s symbol mark now).orders.get? order.id = some order) ∨
      ∃ a, turn cfg s symbol mark now order = some a ∧
        Turn cfg s symbol mark now order (setMarkPrice cfg s symbol mark now) a := by
  have hmem : order ∈ s.orders.values := Dict.mem_values_iff.mpr ⟨order.id, hs⟩
  have hall : ∀ o ∈ s.orders.values, Stored (markState s symbol mark) o :=
    fun o ho => hk.stored_of_mem ho
  rcases restingLoop_turn cfg symbol mark now hk.values_nodup hall hmem with
    hnone | ⟨a, ha, hturn⟩
  · exact .inl hnone
  · exact .inr ⟨a, ha, hturn.made, hturn.proper, .head (.mark s symbol mark) hturn.reached,
      hturn.left⟩

/-- The attempt is on the order, for what the mark fills of it. -/
theorem Turn.attempt {t : PaperState} {a : Attempt} (h : Turn cfg s symbol mark now order t a) :
    a.order = order ∧ restingFill cfg order symbol mark = some a.fillQty ∧
      a.total = order.quantity - order.filledQuantity ∧
      a.price = fillPrice cfg mark order.orderType order.side order.price ∧
      a.isMaker = decide (order.orderType = .limit) := by
  obtain ⟨q, hq, ha⟩ := Option.map_eq_some_iff.mp h.made
  rw [← ha]
  exact ⟨rfl, hq, rfl, rfl, rfl⟩

end Paper

end Atlas
