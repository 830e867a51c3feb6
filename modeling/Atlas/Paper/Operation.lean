import Atlas.Paper.Effect

/-!
# The operations of the paper engine as sequences of effects

`submit`, `set_mark_price`, `cancel` and `expire` are followed through their
branches once, here: each is a sequence of effects whose attempts are those of
`attempts`.  What holds of every effect then holds of every run.

The one fact needed on the way is that orders are stored under their own
identifiers (`Keyed`), so that the loop over the resting orders finds each order
as it was when the loop began.

## Main definitions

* `Keyed` — orders are stored under their own, already drawn, identifiers.
* `Works` — a part of the engine that works on one order and touches nothing else.
* `Carries` — the same by a sequence of effects.
* `Closing` — what `cancel` and `expire` do.
* `Reached cfg ok marks s` — `s` is reached by a run whose attempts meet `ok`.

## Main results

* `step_effects` — an operation is a sequence of effects.
* `attempt_effects` — each attempt of an operation is one of them: effects lead
  to its state, and from its outcome to the end of the operation.
* `Reached.invariant` — what every effect keeps holds in every state reached.

## References

`app/execution/paper/engine.py`.
-/

namespace Atlas

namespace Paper

variable {cfg : PaperConfig} {ok : Attempt → Prop} {s : PaperState} {order : Order}
  {risk : RiskEvaluation} {now : Time}

/-! ### Keyed ledgers -/

/-- Orders are stored under their own identifiers, and these have been drawn; the
fills belong to stored orders, and the index names stored orders. -/
structure Keyed (s : PaperState) : Prop where
  id_eq : ∀ {j o}, s.orders.get? j = some o → o.id = j
  drawn : ∀ {j o}, s.orders.get? j = some o → ∃ n < s.nextUuid, j = .uuid4 n
  fills : ∀ f ∈ s.fills, (s.orders.get? f.orderId).isSome
  index : ∀ {k j}, s.idempotencyIndex.get? k = some j → (s.orders.get? j).isSome

theorem Keyed.fresh (marks : Dict String ℚ) : Keyed (Paper.fresh cfg marks) where
  id_eq := fun h => by cases h
  drawn := fun h => by cases h
  fills := fun _ hf => by cases hf
  index := fun h => by cases h

/-- The next draw names no order. -/
theorem Keyed.get?_next (hk : Keyed s) : s.orders.get? (.uuid4 s.nextUuid) = none := by
  cases h : s.orders.get? (.uuid4 s.nextUuid) with
  | none => rfl
  | some o =>
    obtain ⟨n, hn, he⟩ := hk.drawn h
    rw [Ident.uuid4.injEq] at he
    omega

/-- An effect on a stored order keeps the ledger keyed. -/
theorem Keyed.of_frame {s' : PaperState} {order' : Order} (hk : Keyed s) (hs : Stored s order)
    (hs' : Stored s' order') (hid : order'.id = order.id) (hf : Frame order.id s s') : Keyed s' := by
  -- no order disappears, so what named an order still does
  have hsome : ∀ {j}, (s.orders.get? j).isSome → (s'.orders.get? j).isSome := by
    intro j hj
    by_cases h : order.id = j
    · rw [← h, ← hid, show s'.orders.get? order'.id = some order' from hs']
      rfl
    · rwa [hf.orders h]
  refine ⟨?_, ?_, ?_, ?_⟩
  · intro j o ho
    by_cases h : order.id = j
    · rw [← h, ← hid, show s'.orders.get? order'.id = some order' from hs', Option.some.injEq] at ho
      rw [← ho, hid, h]
    · exact hk.id_eq (by rwa [← hf.orders h])
  · intro j o ho
    obtain ⟨n, hn, he⟩ : ∃ n < s.nextUuid, j = .uuid4 n := by
      by_cases h : order.id = j
      · exact h ▸ hk.drawn hs
      · exact hk.drawn (by rwa [← hf.orders h])
    exact ⟨n, hn.trans_le hf.next, he⟩
  · intro f hmem
    obtain ⟨fs, hfs, hown⟩ := hf.fills
    rw [hfs] at hmem
    rcases List.mem_append.mp hmem with hold | hnew
    · exact hsome (hk.fills f hold)
    · rw [hown f hnew, ← hid, show s'.orders.get? order'.id = some order' from hs']
      rfl
  · intro k j hkj
    exact hsome (hk.index (by rwa [← hf.index]))

theorem Keyed.created (hk : Keyed s) (request : OrderRequest) (now : Time) :
    Keyed (Paper.created s request now) := by
  have hget : ∀ j, (Paper.created s request now).orders.get? j =
      if .uuid4 s.nextUuid = j then some (newOrder s request now) else s.orders.get? j :=
    fun j => Dict.get?_set ..
  have hsome : ∀ {j}, (s.orders.get? j).isSome →
      ((Paper.created s request now).orders.get? j).isSome := by
    intro j hj
    rw [hget]
    split_ifs
    · rfl
    · exact hj
  refine ⟨?_, ?_, fun f hf => hsome (hk.fills f hf), ?_⟩
  · intro j o ho
    rw [hget] at ho
    split_ifs at ho with h
    · rw [← h, ← Option.some.inj ho]
      rfl
    · exact hk.id_eq ho
  · intro j o ho
    rw [hget] at ho
    split_ifs at ho with h
    · exact ⟨s.nextUuid, Nat.lt_succ_self _, h.symm⟩
    · obtain ⟨n, hn, he⟩ := hk.drawn ho
      exact ⟨n, hn.trans (Nat.lt_succ_self _), he⟩
  · intro k j hkj
    simp only [Paper.created, Dict.get?_set] at hkj
    split_ifs at hkj with h
    · rw [hget, if_pos (Option.some.inj hkj)]
      rfl
    · exact hsome (hk.index hkj)

/-! ### Parts of the engine that work on one order -/

/-- What a part of the engine that works on one order leads to: the order stored,
still the same request, and nothing else touched. -/
structure Works (s : PaperState) (order : Order) (r : Order × PaperState) : Prop where
  stored : Stored r.2 r.1
  same : Order.SameRequest order r.1
  frame : Frame order.id s r.2

theorem Works.refl (hs : Stored s order) : Works s order (order, s) := ⟨hs, .refl _, .refl _ _⟩

theorem Works.trans {r₁ r₂ : Order × PaperState} (h₁ : Works s order r₁)
    (h₂ : Works r₁.2 r₁.1 r₂) : Works s order r₂ where
  stored := h₂.stored
  same := h₁.same.trans h₂.same
  frame := h₁.frame.trans (h₁.same.id ▸ h₂.frame)

/-- What holds of every stored order and of the order worked on holds of every
order stored then. -/
theorem Works.each {r : Order × PaperState} {P : Order → Prop} (h : Works s order r)
    (hnew : P r.1) (hold : ∀ {j o}, s.orders.get? j = some o → P o) :
    ∀ {j o}, r.2.orders.get? j = some o → P o := by
  intro j o ho
  by_cases hj : order.id = j
  · have hstored : r.2.orders.get? j = some r.1 := hj ▸ h.same.id ▸ h.stored
    rw [hstored, Option.some.injEq] at ho
    exact ho ▸ hnew
  · exact hold (by rwa [← h.frame.orders hj])

theorem Works.keyed {r : Order × PaperState} (h : Works s order r) (hk : Keyed s)
    (hs : Stored s order) : Keyed r.2 := hk.of_frame hs h.stored h.same.id h.frame

theorem created_each {request : OrderRequest} {P : Order → Prop} (hnew : P (newOrder s request now))
    (hold : ∀ {j o}, s.orders.get? j = some o → P o) :
    ∀ {j o}, (created s request now).orders.get? j = some o → P o := by
  intro j o ho
  simp only [created, Dict.get?_set] at ho
  split_ifs at ho
  · exact Option.some.inj ho ▸ hnew
  · exact hold ho

theorem update_works (st : OrderStatus) (error : Option String) :
    Works s order (update s order st risk error now) :=
  ⟨update_stored .., update_sameRequest .., update_frame ..⟩

theorem releaseBuyReservation_works (amount : Option ℚ) (hs : Stored s order) :
    Works s order (releaseBuyReservation s order amount now) :=
  ⟨releaseBuyReservation_stored amount hs, releaseBuyReservation_sameRequest amount,
    releaseBuyReservation_frame amount⟩

theorem closeOrder_works (st : OrderStatus) (hs : Stored s order) :
    Works s order (closeOrder s order st now) := by
  have hrel : Works s order (releaseBuyReservation s order none now) :=
    releaseBuyReservation_works none hs
  refine hrel.trans ⟨Dict.get?_set_self .., ⟨rfl, rfl, rfl, rfl, rfl, rfl, rfl⟩, ?_⟩
  exact Frame.set _ { (releaseBuyReservation s order none now).1 with
    status := st, updatedAt := now } _ _

theorem Attempt.apply_works {a : Attempt} (hlive : a.order.status ≠ .failed) :
    Works a.state a.order (a.apply cfg) :=
  ⟨(apply_stored hlive).1, (apply_stored hlive).2, apply_frame hlive⟩

theorem reserved_works (amount : ℚ) :
    Works s order (reservedOrder order amount now, reserved s order amount now) :=
  ⟨Dict.get?_set_self .., ⟨rfl, rfl, rfl, rfl, rfl, rfl, rfl⟩,
    Frame.set s (reservedOrder order amount now) _ _⟩

theorem reserveFor_works (request : OrderRequest) (mark : Option ℚ) (hs : Stored s order) :
    Works s order ((reserveFor s order request risk mark now).1.1,
        (reserveFor s order request risk mark now).2) ∧
      ((reserveFor s order request risk mark now).1.2 = true →
        (reserveFor s order request risk mark now).1.1.status = order.status ∧
        (reserveFor s order request risk mark now).1.1.filledQuantity = order.filledQuantity) := by
  simp only [reserveFor]
  split
  · simp only [reserveBuy]
    split_ifs
    · exact ⟨.refl hs, fun _ => ⟨rfl, rfl⟩⟩
    · exact ⟨.refl hs, fun _ => ⟨rfl, rfl⟩⟩
    · exact ⟨update_works .., by simp⟩
    · exact ⟨reserved_works _, fun _ => ⟨rfl, rfl⟩⟩
  · exact ⟨.refl hs, fun _ => ⟨rfl, rfl⟩⟩

/-- The order and the state a prepared submission has reached. -/
def Prepared.result : Prepared → Order × PaperState
  | .done order s => (order, s)
  | .execute order s _ => (order, s)

theorem rejectUntriggered_works (error : String) (hs : Stored s order) :
    Works s order (rejectUntriggered s order risk error now).result :=
  (releaseBuyReservation_works none hs).trans (update_works ..)

/-- An order goes to immediate execution as it came to the trigger tests; it ends
there, unless it has no trigger. -/
theorem marketable_cases (s : PaperState) (order : Order) (request : OrderRequest)
    (risk : RiskEvaluation) (mark : ℚ) (now : Time) :
    marketable s order request risk mark now = .execute order s mark ∨
      marketable s order request risk mark now = .done order s ∨
      ∃ error, marketable s order request risk mark now =
        rejectUntriggered s order risk error now := by
  simp only [marketable]
  cases request.orderType with
  | market => exact .inl rfl
  | limit =>
    cases request.price with
    | none => exact .inl rfl
    | some price => dsimp only; split_ifs <;> simp
  | stopLoss =>
    cases pyOr request.price request.stopLoss with
    | none => exact .inr (.inr ⟨_, rfl⟩)
    | some trigger => dsimp only; split_ifs <;> simp
  | takeProfit =>
    cases pyOr request.price request.takeProfit with
    | none => exact .inr (.inr ⟨_, rfl⟩)
    | some trigger => dsimp only; split_ifs <;> simp

theorem marketable_works (request : OrderRequest) (mark : ℚ) (hs : Stored s order) :
    Works s order (marketable s order request risk mark now).result ∧
      ∀ o s' m, marketable s order request risk mark now = .execute o s' m → o = order := by
  rcases marketable_cases s order request risk mark now with h | h | ⟨error, h⟩ <;> rw [h]
  · exact ⟨.refl hs, by rintro _ _ _ ⟨⟩; rfl⟩
  · exact ⟨.refl hs, by rintro _ _ _ ⟨⟩⟩
  · exact ⟨rejectUntriggered_works error hs, by rintro _ _ _ ⟨⟩⟩

/-- The ways a placement can go on. -/
theorem placeOrder_cases (s : PaperState) (order : Order) (request : OrderRequest)
    (risk : RiskEvaluation) (now : Time) :
    ∃ mark : Option ℚ, let r := reserveFor s order request risk mark now
      (placeOrder s order request risk now = .done r.1.1 r.2) ∨
        (placeOrder s order request risk now =
          .done (update s order .failed risk (some "no mark") now).1
            (update s order .failed risk (some "no mark") now).2) ∨
        (r.1.2 = true ∧ ∃ m, placeOrder s order request risk now =
          marketable r.2 r.1.1 request risk m now) := by
  simp only [placeOrder]
  generalize (if (s.markPrices.get? request.symbol).isNone ∧ request.orderType = .limit then
    request.price else s.markPrices.get? request.symbol) = mark
  refine ⟨mark, ?_⟩
  cases mark with
  | none => dsimp only; split_ifs <;> simp
  | some m =>
    dsimp only
    split_ifs with hflag
    · exact .inr (.inr ⟨hflag, m, rfl⟩)
    · exact .inl rfl

theorem placeOrder_works (request : OrderRequest) (hs : Stored s order) :
    Works s order (placeOrder s order request risk now).result ∧
      ∀ o s' m, placeOrder s order request risk now = .execute o s' m →
        o.status = order.status ∧ o.filledQuantity = order.filledQuantity := by
  obtain ⟨mark, h⟩ := placeOrder_cases s order request risk now
  obtain ⟨hres, hkeep⟩ : Works s order ((reserveFor s order request risk mark now).1.1, _) ∧ _ :=
    reserveFor_works request mark hs
  rcases h with h | h | ⟨hflag, m, h⟩ <;> rw [h]
  · exact ⟨hres, by rintro _ _ _ ⟨⟩⟩
  · exact ⟨update_works .., by rintro _ _ _ ⟨⟩⟩
  · obtain ⟨hmkt, hexec⟩ : Works _ _ (marketable _ _ request risk m now).result ∧ _ :=
      marketable_works request m hres.stored
    refine ⟨hres.trans hmkt, fun o s' m' he => ?_⟩
    rw [hexec o s' m' he]
    exact hkeep hflag

/-- A submission works on the order it has created, and executes it only while it
is submitted and unfilled. -/
theorem prepare_works (s : PaperState) (request : OrderRequest) (risk : RiskEvaluation) (roll : ℚ)
    (now : Time) :
    Works (created s request now) (newOrder s request now)
        (prepare cfg s request risk roll now).result ∧
      ∀ o s' m, prepare cfg s request risk roll now = .execute o s' m →
        o.status = .submitted ∧ o.filledQuantity = 0 := by
  have hupd : ∀ (s' : PaperState) (o : Order) (st : OrderStatus) (error : Option String),
      Works s' o (update s' o st risk error now) := fun _ _ => update_works
  simp only [prepare]
  split_ifs
  · exact ⟨hupd .., by rintro _ _ _ ⟨⟩⟩
  · exact ⟨((hupd ..).trans (hupd ..)).trans (hupd ..), by rintro _ _ _ ⟨⟩⟩
  · have h₂ := ((hupd (created s request now) (newOrder s request now) .approved none).trans
      (hupd _ _ .submitted none))
    obtain ⟨h₃, hexec⟩ : Works _ _ (placeOrder _ _ request risk now).result ∧ _ :=
      placeOrder_works request h₂.stored
    exact ⟨h₂.trans h₃, fun o s' m h => hexec o s' m h⟩

/-- **A submission works on the order it creates.** -/
theorem submitAfterLatency_works (s : PaperState) (request : OrderRequest) (risk : RiskEvaluation)
    (roll : ℚ) (now : Time) :
    Works (created s request now) (newOrder s request now)
      (submitAfterLatency cfg s request risk roll now) := by
  obtain ⟨hprep, hexec⟩ : Works _ _ (prepare cfg s request risk roll now).result ∧ _ :=
    prepare_works s request risk roll now
  cases h : prepare cfg s request risk roll now with
  | done o s' =>
    rw [submitAfterLatency, h]
    rwa [h] at hprep
  | execute o s' mark =>
    rw [submitAfterLatency, h]
    rw [h] at hprep
    have hlive : (immediateAttempt cfg s' o request risk mark now).order.status ≠ .failed := by
      simp [immediateAttempt, (hexec o s' mark h).1]
    exact hprep.trans (Attempt.apply_works hlive)

/-! ### The effects of a submission -/

/-- A part of the engine that works on one order by a sequence of effects. -/
structure Carries (cfg : PaperConfig) (ok : Attempt → Prop) (s : PaperState) (order : Order)
    (r : Order × PaperState) : Prop extends Works s order r where
  effects : Effects cfg ok s r.2

theorem Carries.refl (hs : Stored s order) : Carries cfg ok s order (order, s) := ⟨.refl hs, .refl⟩

theorem Carries.trans {r₁ r₂ : Order × PaperState} (h₁ : Carries cfg ok s order r₁)
    (h₂ : Carries cfg ok r₁.2 r₁.1 r₂) : Carries cfg ok s order r₂ :=
  ⟨h₁.toWorks.trans h₂.toWorks, h₁.effects.trans h₂.effects⟩

theorem update_carries (st : OrderStatus) (error : Option String) (hs : Stored s order)
    (hp : Pending order) (hr : order.metadata.reservationOpen ≠ some true) :
    Carries cfg ok s order (update s order st risk error now) :=
  ⟨update_works .., .single (.status s order st risk error now hs hp hr)⟩

theorem closeOrder_carries {st : OrderStatus} (hs : Stored s order)
    (hopen : ¬ order.status.Terminal) (hst : st.Terminal) :
    Carries cfg ok s order (closeOrder s order st now) :=
  ⟨closeOrder_works st hs, .single (.close s order st now hs hopen hst)⟩

theorem Attempt.Proper.live_ne {a : Attempt} (h : a.Proper) : a.order.status ≠ .failed := by
  rcases h.live with h | h <;> simp [h]

theorem Attempt.apply_carries {a : Attempt} (hp : a.Proper) (hok : ok a) :
    Carries cfg ok a.state a.order (a.apply cfg) :=
  ⟨apply_works hp.live_ne, .single (.attempt a hp hok)⟩

theorem reserved_carries {amount : ℚ} (hs : Stored s order) (hp : Pending order)
    (hr : order.metadata.reservationOpen ≠ some true) (hside : order.side = .buy) (hpos : 0 < amount)
    (hcash : amount ≤ s.cash) :
    Carries cfg ok s order (reservedOrder order amount now, reserved s order amount now) :=
  ⟨reserved_works amount, .single (.reserve s order amount now hs hp hr hside hpos hcash)⟩

theorem reserveFor_carries {request : OrderRequest} (mark : Option ℚ) (hs : Stored s order)
    (hp : Pending order) (hr : order.metadata.reservationOpen ≠ some true)
    (hside : order.side = request.side) :
    Carries cfg ok s order ((reserveFor s order request risk mark now).1.1,
      (reserveFor s order request risk mark now).2) := by
  refine ⟨(reserveFor_works request mark hs).1, ?_⟩
  simp only [reserveFor]
  split
  · next px hbuy _ =>
    simp only [reserveBuy, if_neg hr]
    split_ifs with hpos hcash
    · exact .refl
    · exact .single (.status s order _ risk _ now hs hp hr)
    · exact .single (.reserve s order _ now hs hp hr (hside.trans hbuy) (not_le.mp hpos)
        (not_lt.mp hcash))
  · exact .refl

theorem rejectUntriggered_carries (error : String) (hs : Stored s order) (hp : Pending order) :
    Carries cfg ok s order (rejectUntriggered s order risk error now).result :=
  ⟨rejectUntriggered_works error hs, .single (.untriggered s order risk error now hs hp)⟩

theorem marketable_carries (request : OrderRequest) (mark : ℚ) (hs : Stored s order)
    (hp : Pending order) :
    Carries cfg ok s order (marketable s order request risk mark now).result := by
  rcases marketable_cases s order request risk mark now with h | h | ⟨error, h⟩ <;> rw [h]
  · exact .refl hs
  · exact .refl hs
  · exact rejectUntriggered_carries error hs hp

theorem placeOrder_carries {request : OrderRequest} (hs : Stored s order) (hp : Pending order)
    (hr : order.metadata.reservationOpen ≠ some true) (hside : order.side = request.side) :
    Carries cfg ok s order (placeOrder s order request risk now).result := by
  obtain ⟨mark, h⟩ := placeOrder_cases s order request risk now
  have hres : Carries cfg ok s order ((reserveFor s order request risk mark now).1.1, _) :=
    reserveFor_carries mark hs hp hr hside
  rcases h with h | h | ⟨hflag, m, h⟩ <;> rw [h]
  · exact hres
  · exact update_carries _ _ hs hp hr
  · obtain ⟨hst, hfill⟩ := (reserveFor_works request mark hs).2 hflag
    have hp' : Pending (reserveFor s order request risk mark now).1.1 := by
      rw [Pending, hst, hfill]
      exact hp
    exact hres.trans (marketable_carries request m hres.stored hp')

theorem prepare_carries (request : OrderRequest) (roll : ℚ) (hmeta : request.metadata.NoReservation) :
    Carries cfg ok (created s request now) (newOrder s request now)
      (prepare cfg s request risk roll now).result := by
  have hs : Stored (created s request now) (newOrder s request now) := Dict.get?_set_self ..
  have hr : (newOrder s request now).metadata.reservationOpen ≠ some true := by
    simp [newOrder, hmeta.2.2]
  have hupd : ∀ (s' : PaperState) (o : Order) (st : OrderStatus) (error : Option String),
      Stored s' o → Pending o → o.metadata.reservationOpen ≠ some true →
      Carries cfg ok s' o (update s' o st risk error now) :=
    fun _ _ _ _ => update_carries _ _
  simp only [prepare]
  split_ifs with hdec hroll
  · exact hupd _ _ _ _ hs ⟨.inl rfl, rfl⟩ hr
  -- past the decision of the risk engine the order is approved, then submitted
  all_goals
    have h₁ := hupd _ _ .approved none hs ⟨.inl rfl, rfl⟩ hr
    have h₂ := hupd _ _ .submitted none h₁.stored ⟨.inr (.inl rfl), rfl⟩ hr
  · exact (h₁.trans h₂).trans (hupd _ _ .rejected (some "insufficient_liquidity") h₂.stored
      ⟨.inr (.inr rfl), rfl⟩ hr)
  · exact (h₁.trans h₂).trans (placeOrder_carries h₂.stored ⟨.inr (.inr rfl), rfl⟩ hr rfl)

theorem immediateAttempt_proper {request : OrderRequest} {roll mark : ℚ} {s' : PaperState}
    (h : prepare cfg s request risk roll now = .execute order s' mark) :
    (immediateAttempt cfg s' order request risk mark now).Proper := by
  obtain ⟨hworks, hexec⟩ : Works _ _ (prepare cfg s request risk roll now).result ∧ _ :=
    prepare_works s request risk roll now
  rw [h] at hworks
  obtain ⟨hst, hfill⟩ := hexec order s' mark h
  refine ⟨hworks.stored, .inl hst, ?_⟩
  have hq : order.quantity = request.quantity := hworks.same.quantity
  simp [immediateAttempt, hq, hfill]

/-- A submission whose attempt is `ok` is a sequence of effects on the order it has
created. -/
theorem submitAfterLatency_carries (request : OrderRequest) (roll : ℚ)
    (hmeta : request.metadata.NoReservation)
    (hok : ∀ a ∈ submitAttempts cfg s request risk roll now, ok a) :
    Carries cfg ok (created s request now) (newOrder s request now)
      (submitAfterLatency cfg s request risk roll now) := by
  have hprep : Carries cfg ok _ _ (prepare cfg s request risk roll now).result :=
    prepare_carries request roll hmeta
  cases h : prepare cfg s request risk roll now with
  | done o s' =>
    rw [submitAfterLatency, h]
    rwa [h] at hprep
  | execute o s' mark =>
    rw [submitAfterLatency, h]
    rw [h] at hprep
    refine hprep.trans (Attempt.apply_carries (immediateAttempt_proper h) ?_)
    exact hok _ (by simp [submitAttempts, h])

/-! ### The loop over the resting orders -/

theorem restingAttempt_proper {symbol : String} {mark : ℚ} {a : Attempt} (hs : Stored s order)
    (h : restingAttempt cfg symbol mark now s order = some a) :
    a.state = s ∧ a.order = order ∧ a.Proper := by
  obtain ⟨fillQty, hfill, rfl⟩ := Option.map_eq_some_iff.mp h
  exact ⟨rfl, rfl, hs, (restingFill_eq_some cfg hfill).1, rfl⟩

/-- A mark works on the order it triggers. -/
theorem triggerOne_works (symbol : String) (mark : ℚ) (hs : Stored s order) :
    ∃ o, Works s order (o, triggerOne cfg symbol mark now s order) := by
  rw [triggerOne_eq]
  cases h : restingAttempt cfg symbol mark now s order with
  | none => exact ⟨order, .refl hs⟩
  | some a =>
    obtain ⟨hstate, horder, hp⟩ := restingAttempt_proper hs h
    have hworks : Works a.state a.order (a.apply cfg) := Attempt.apply_works hp.live_ne
    rw [hstate, horder] at hworks
    exact ⟨(a.apply cfg).1, hworks⟩

/-- The orders the loop has not reached yet are still stored as they were: they
have other identifiers than the order it works on. -/
theorem triggerOne_carries {symbol : String} {mark : ℚ} {orders : List Order}
    (hids : ((order :: orders).map Order.id).Nodup) (hs : ∀ o ∈ order :: orders, Stored s o)
    (hok : ∀ a ∈ restingAttempts cfg symbol mark now s (order :: orders), ok a) :
    Effects cfg ok s (triggerOne cfg symbol mark now s order) ∧
      ∀ o ∈ orders, Stored (triggerOne cfg symbol mark now s order) o := by
  have hso : Stored s order := hs order (List.mem_cons_self ..)
  rw [triggerOne_eq]
  cases h : restingAttempt cfg symbol mark now s order with
  | none => exact ⟨.refl, fun o ho => hs o (List.mem_cons_of_mem _ ho)⟩
  | some a =>
    obtain ⟨hstate, horder, hp⟩ := restingAttempt_proper hso h
    have hcarry : Carries cfg ok a.state a.order (a.apply cfg) :=
      Attempt.apply_carries hp (hok a (by simp [restingAttempts, h]))
    rw [hstate, horder] at hcarry
    refine ⟨hcarry.effects, fun o ho => ?_⟩
    -- the identifiers in the loop are distinct: the work on one order frames the others
    have hne : order.id ≠ o.id := by
      rw [List.map_cons, List.nodup_cons] at hids
      exact fun he => hids.1 (he ▸ List.mem_map_of_mem ho)
    exact (hcarry.frame.orders hne).trans (hs o (List.mem_cons_of_mem _ ho))

theorem restingLoop_effects {symbol : String} {mark : ℚ} {orders : List Order} :
    ∀ {s : PaperState}, (orders.map Order.id).Nodup → (∀ o ∈ orders, Stored s o) →
      (∀ a ∈ restingAttempts cfg symbol mark now s orders, ok a) →
      Effects cfg ok s (orders.foldl (triggerOne cfg symbol mark now) s) := by
  induction orders with
  | nil => exact fun _ _ _ => .refl
  | cons order orders ih =>
    intro s hids hs hok
    obtain ⟨heff, hs'⟩ := triggerOne_carries hids hs hok
    refine heff.trans (ih (List.nodup_cons.mp hids).2 hs' fun a ha => hok a ?_)
    exact List.mem_append_right _ ha

/-- Each attempt of the loop is made on a stored order; effects lead to it and
from its outcome to the end of the loop. -/
theorem restingLoop_attempt {symbol : String} {mark : ℚ} {orders : List Order} {a : Attempt} :
    ∀ {s : PaperState}, (orders.map Order.id).Nodup → (∀ o ∈ orders, Stored s o) →
      a ∈ restingAttempts cfg symbol mark now s orders →
      Effects cfg (fun _ => True) s a.state ∧ a.Proper ∧
        Effects cfg (fun _ => True) (a.apply cfg).2
          (orders.foldl (triggerOne cfg symbol mark now) s) := by
  induction orders with
  | nil => exact fun _ _ ha => by cases ha
  | cons order orders ih =>
    intro s hids hs ha
    obtain ⟨heff, hs'⟩ : Effects cfg (fun _ => True) s _ ∧ _ :=
      triggerOne_carries hids hs fun _ _ => trivial
    have hids' : (orders.map Order.id).Nodup := (List.nodup_cons.mp hids).2
    rcases List.mem_append.mp ha with hnow | hlater
    · rw [Option.mem_toList] at hnow
      obtain ⟨hstate, -, hp⟩ := restingAttempt_proper (hs order (List.mem_cons_self ..)) hnow
      refine ⟨hstate ▸ .refl, hp, ?_⟩
      have heq : triggerOne cfg symbol mark now s order = (a.apply cfg).2 := by
        rw [triggerOne_eq, hnow]
        rfl
      rw [List.foldl_cons, heq]
      exact restingLoop_effects hids' (heq ▸ hs') fun _ _ => trivial
    · obtain ⟨hbefore, hp, hafter⟩ := ih hids' hs' hlater
      exact ⟨heff.trans hbefore, hp, hafter⟩

theorem Keyed.values_nodup (hk : Keyed s) : (s.orders.values.map Order.id).Nodup := by
  rw [Dict.map_values_of_key fun e he => hk.id_eq (Dict.mem_entries_iff.mp he)]
  exact s.orders.nodup

theorem Keyed.stored_of_mem (hk : Keyed s) (h : order ∈ s.orders.values) : Stored s order := by
  obtain ⟨j, hj⟩ := Dict.mem_values_iff.mp h
  rwa [Stored, hk.id_eq hj]

/-! ### Operations as effects -/

/-- What `cancel` and `expire` do: nothing, or they close an open order. -/
inductive Closing (s : PaperState) : PaperState → Prop
  | unchanged : Closing s s
  | closed (order : Order) (st : OrderStatus) (now : Time) (hs : Stored s order)
      (hopen : ¬ order.status.Terminal) (hst : st.Terminal) :
      Closing s (closeOrder s order st now).2

theorem cancel_closing (id : Ident) (hk : Keyed s) : Closing s (cancel s id now).2 := by
  simp only [cancel]
  cases h : s.orders.get? id with
  | none => exact .unchanged
  | some order =>
    have hs : Stored s order := by rwa [Stored, hk.id_eq h]
    dsimp only
    split_ifs with hst
    · refine .closed order .cancelled now hs ?_ (by decide)
      rintro (h | h | h | h | h) <;> simp [h] at hst
    · exact .unchanged

theorem expire_closing (id : Ident) (hk : Keyed s) : Closing s (expire s id now).2 := by
  simp only [expire]
  cases h : s.orders.get? id with
  | none => exact .unchanged
  | some order =>
    have hs : Stored s order := by rwa [Stored, hk.id_eq h]
    dsimp only
    split_ifs with hst
    · refine .closed order .expired now hs ?_ (by decide)
      rintro (h | h | h | h | h) <;> simp [h] at hst
    · exact .unchanged

theorem Closing.effects {s' : PaperState} (h : Closing s s') : Effects cfg ok s s' := by
  cases h with
  | unchanged => exact .refl
  | closed order st now hs hopen hst => exact (closeOrder_carries hs hopen hst).effects

/-- The order a submission creates is a new one. -/
theorem created_effects (request : OrderRequest) (hmeta : request.metadata.NoReservation)
    (hkey : s.idempotencyIndex.get? request.idempotencyKey = none) :
    Effects cfg ok s (created s request now) := .single (.create s request now hkey hmeta)

/-- **An operation is a sequence of effects**, whose attempts are those it lists. -/
theorem step_effects {op : Op} (hk : Keyed s) (hop : op.Valid)
    (hok : ∀ a ∈ attempts cfg s op, ok a) : Effects cfg ok s (step cfg s op) := by
  cases op with
  | submit request risk roll now =>
    simp only [step, submit]
    cases hkey : s.idempotencyIndex.get? request.idempotencyKey with
    | some id => exact .refl
    | none =>
      simp only [attempts, hkey] at hok
      exact (created_effects request hop hkey).trans
        (submitAfterLatency_carries request roll hop hok).effects
  | setMarkPrice symbol price now =>
    have hloop : Effects cfg ok (markState s symbol price) (setMarkPrice cfg s symbol price now) :=
      restingLoop_effects hk.values_nodup (fun o ho => hk.stored_of_mem ho) hok
    exact .head (.mark s symbol price) hloop
  | cancel orderId now => exact (cancel_closing orderId hk).effects
  | expire orderId now => exact (expire_closing orderId hk).effects

/-- **Each attempt of an operation is one of its effects**: effects lead to the
state it is made in, and from its outcome to the end of the operation. -/
theorem attempt_effects {op : Op} {a : Attempt} (hk : Keyed s) (hop : op.Valid)
    (ha : a ∈ attempts cfg s op) :
    Effects cfg (fun _ => True) s a.state ∧ a.Proper ∧
      Effects cfg (fun _ => True) (a.apply cfg).2 (step cfg s op) := by
  cases op with
  | submit request risk roll now =>
    simp only [attempts] at ha
    cases hkey : s.idempotencyIndex.get? request.idempotencyKey with
    | some id => simp [hkey] at ha
    | none =>
      -- the one attempt is the immediate execution, after the placement
      simp only [hkey, submitAttempts] at ha
      cases h : prepare cfg s request risk roll now with
      | done o s' => simp [h] at ha
      | execute o s' mark =>
        simp only [h, List.mem_singleton] at ha
        subst ha
        have hprep : Carries cfg (fun _ => True) _ _ (prepare cfg s request risk roll now).result :=
          prepare_carries request roll hop
        rw [h] at hprep
        refine ⟨(created_effects request hop hkey).trans hprep.effects,
          immediateAttempt_proper h, ?_⟩
        simp only [step, submit, hkey, submitAfterLatency, h, executeFill_eq]
        exact .refl
  | setMarkPrice symbol price now =>
    have hs : ∀ o ∈ s.orders.values, Stored (markState s symbol price) o :=
      fun o ho => hk.stored_of_mem ho
    obtain ⟨hbefore, hp, hafter⟩ := restingLoop_attempt hk.values_nodup hs ha
    exact ⟨.head (.mark s symbol price) hbefore, hp, hafter⟩
  | cancel orderId now => simp [attempts] at ha
  | expire orderId now => simp [attempts] at ha

/-- An effect keeps the ledger keyed. -/
theorem Effect.keyed {s s' : PaperState} (h : Effect cfg ok s s') (hk : Keyed s) : Keyed s' := by
  cases h with
  | create _ request now _ _ => exact hk.created request now
  | mark _ symbol price => exact ⟨hk.id_eq, hk.drawn, hk.fills, hk.index⟩
  | status _ order st risk error now hs hp hr =>
    have hc : Carries cfg ok s order (update s order st risk error now) :=
      update_carries st error hs hp hr
    exact hc.keyed hk hs
  | reserve _ order amount now hs hp hr hside hpos hcash =>
    have hc : Carries cfg ok s order (reservedOrder order amount now, reserved s order amount now) :=
      reserved_carries hs hp hr hside hpos hcash
    exact hc.keyed hk hs
  | untriggered _ order risk error now hs hp =>
    have hc : Carries cfg ok s order (rejectUntriggered s order risk error now).result :=
      rejectUntriggered_carries error hs hp
    exact hc.keyed hk hs
  | close _ order st now hs hopen hst =>
    have hc : Carries cfg ok s order (closeOrder s order st now) := closeOrder_carries hs hopen hst
    exact hc.keyed hk hs
  | attempt a hp hok =>
    have hc : Carries cfg ok a.state a.order (a.apply cfg) := Attempt.apply_carries hp hok
    exact hc.keyed hk hp.stored

theorem Effects.keyed {s s' : PaperState} (h : Effects cfg ok s s') (hk : Keyed s) : Keyed s' := by
  induction h with
  | refl => exact hk
  | tail _ heff ih => exact heff.keyed ih

/-- **The invariant rule of the engine.**  What every effect keeps in keyed states
is kept by every sequence of effects. -/
theorem Effects.invariant {I : PaperState → Prop} {s s' : PaperState} (h : Effects cfg ok s s')
    (hI : ∀ {s s'}, Keyed s → Effect cfg ok s s' → I s → I s') (hk : Keyed s) (hs : I s) :
    I s' := by
  induction h with
  | refl => exact hs
  | tail hbefore heff ih => exact hI (Effects.keyed hbefore hk) heff ih

/-! ### Runs -/

/-- The engine as a transition system: every operation is enabled. -/
def engineStep (cfg : PaperConfig) (s : PaperState) (op : Op) : Option PaperState :=
  some (step cfg s op)

/-- The operation is one a caller may make, and every fill it attempts meets `ok`. -/
def OpOk (cfg : PaperConfig) (ok : Attempt → Prop) (s : PaperState) (op : Op) : Prop :=
  op.Valid ∧ ∀ a ∈ attempts cfg s op, ok a

instance [DecidablePred ok] (s : PaperState) (op : Op) : Decidable (OpOk cfg ok s op) :=
  inferInstanceAs (Decidable (_ ∧ _))

/-- The state of a new engine after the operations `ops`. -/
def run (cfg : PaperConfig) (marks : Dict String ℚ) (ops : List Op) : PaperState :=
  ops.foldl (step cfg) (fresh cfg marks)

/-- Every operation of the run `ops` of a new engine is `ok`. -/
abbrev RunOk (cfg : PaperConfig) (ok : Attempt → Prop) (marks : Dict String ℚ) (ops : List Op) :
    Prop :=
  Transition.Along (engineStep cfg) (OpOk cfg ok) (fresh cfg marks) ops

/-- The states a new engine reaches by operations whose attempts meet `ok`. -/
abbrev Reached (cfg : PaperConfig) (ok : Attempt → Prop) (marks : Dict String ℚ) :
    PaperState → Prop :=
  Transition.Reachable (engineStep cfg) (OpOk cfg ok) (fresh cfg marks)

theorem exec_engineStep (s : PaperState) (ops : List Op) :
    Transition.exec (engineStep cfg) s ops = some (ops.foldl (step cfg) s) := by
  induction ops generalizing s with
  | nil => rfl
  | cons op ops ih => exact ih (step cfg s op)

theorem Reached.run {marks : Dict String ℚ} {ops : List Op} (h : RunOk cfg ok marks ops) :
    Reached cfg ok marks (run cfg marks ops) :=
  Transition.reachable_of_exec (exec_engineStep (fresh cfg marks) ops) h

theorem Reached.keyed {marks : Dict String ℚ} (h : Reached cfg ok marks s) : Keyed s := by
  refine Transition.Reachable.invariant h (Keyed.fresh marks) fun s op s' hk hop hs => ?_
  rw [← Option.some.inj hs]
  exact (step_effects hk hop.1 hop.2).keyed hk

/-- **The invariant rule for runs.**  What every effect keeps in keyed states holds
in every state reached. -/
theorem Reached.invariant {I : PaperState → Prop} {marks : Dict String ℚ}
    (h : Reached cfg ok marks s) (h₀ : I (fresh cfg marks))
    (hI : ∀ {s s'}, Keyed s → Effect cfg ok s s' → I s → I s') : I s := by
  induction h with
  | init => exact h₀
  | step hr hop hs ih =>
    have hk : Keyed _ := Reached.keyed hr
    rw [← Option.some.inj hs]
    exact (step_effects hk hop.1 hop.2).invariant hI hk ih

/-- A request for a market order of one symbol, approved as it is. -/
def marketRequest (side : OrderSide) (key : String) (quantity : ℚ) : OrderRequest × RiskEvaluation :=
  ({ symbol := "BTC/USDT", side := side, orderType := .market, quantity := quantity,
     idempotencyKey := key },
    { decision := .approved, reasonCode := .ok, approvedQuantity := some quantity })

/-- Its submission. -/
def marketOrder (side : OrderSide) (key : String) (quantity : ℚ) : Op :=
  .submit (marketRequest side key quantity).1 (marketRequest side key quantity).2 0 0

/-- The submission of a limit order of that symbol, approved as it is. -/
def limitOrder (side : OrderSide) (key : String) (quantity price : ℚ) : Op :=
  .submit
    { symbol := "BTC/USDT", side := side, orderType := .limit, quantity := quantity,
      price := some price, idempotencyKey := key }
    { decision := .approved, reasonCode := .ok, approvedQuantity := some quantity } 0 0

/-- The mark of that symbol. -/
def markAt (price : ℚ) : Dict String ℚ := Dict.empty.set "BTC/USDT" price

end Paper

end Atlas
