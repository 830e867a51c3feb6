import Atlas.Paper.Holding

/-!
# What a ledger can be rebuilt from

The records of the ledger are redundant: the index repeats what the orders say, a
position is marked at its current price, and every order an operation leaves behind
has a risk decision.  `Sound` collects what holds of every ledger the engine reaches
and what a restart relies on when it rebuilds a ledger from fewer fields.

## Main definitions

* `Order.Decided`, `Position.Marked` — what holds of one order and of one position.
* `Sound` — what holds of the ledger.

## Main results

* `submitAfterLatency_decided` — a submission leaves a decided order.
* `Sound.step` — **an operation keeps the ledger sound**.

## References

`app/execution/paper/engine.py`.
-/

namespace Atlas

/-- The order has a risk decision. -/
def Order.Decided (order : Order) : Prop := order.riskDecision.isSome = true

/-- The position is held under its own symbol and marked at its current price. -/
structure Position.Marked (name : String) (p : Position) : Prop where
  symbol : p.symbol = name
  unrealized : p.unrealizedPnl = (p.currentPrice - p.entryPrice) * p.quantity
  stopLoss : p.stopLoss = none
  takeProfit : p.takeProfit = none

namespace Paper

variable {cfg : PaperConfig} {ok : Attempt → Prop} {s s' : PaperState} {order : Order}
  {risk : RiskEvaluation} {now : Time}

/-- A position that is marked at its own price stays as it is. -/
theorem markPositions_self {positions : Dict String Position} {symbol : String} {price : ℚ}
    (h : ∀ p, positions.get? symbol = some p →
      p.currentPrice = price ∧ p.unrealizedPnl = (price - p.entryPrice) * p.quantity) :
    markPositions positions symbol price = positions := by
  unfold markPositions
  cases hp : positions.get? symbol with
  | none => rfl
  | some p =>
    obtain ⟨hprice, hunrealized⟩ := h p hp
    simp only [← hprice] at hunrealized ⊢
    rw [← hunrealized]
    exact Dict.set_of_get? hp

/-! ### Decided orders -/

theorem releaseBuyReservation_decided (amount : Option ℚ) (h : order.Decided) :
    (releaseBuyReservation s order amount now).1.Decided := by
  obtain ⟨m, t, hfst⟩ := releaseBuyReservation_fst s order amount now
  rw [hfst]
  exact h

theorem Attempt.finish_decided {a : Attempt} (r : Order × PaperState) :
    (a.finish r).1.Decided := by
  simp only [finish]
  split_ifs <;> rfl

/-- Every way an attempt can end stores a risk decision. -/
theorem Attempt.apply_decided {a : Attempt} (hlive : a.order.status ≠ .failed) :
    (a.apply cfg).1.Decided := by
  have h : a.Outcome cfg (a.apply cfg) := outcome hlive
  generalize a.apply cfg = r at h
  cases h with
  | dust _ => rfl
  | bought _ _ _ => exact finish_decided _
  | insufficient _ _ _ => rfl
  | sold p _ _ _ _ => exact finish_decided _
  | noPosition _ _ _ => rfl

theorem workProperty_decided : WorkProperty cfg Order.Decided where
  attempt := fun _ hp _ => Attempt.apply_decided hp.live_ne
  close := fun _ _ _ _ h => releaseBuyReservation_decided none h

theorem reserveFor_decided (request : OrderRequest) (mark : Option ℚ) (h : order.Decided) :
    (reserveFor s order request risk mark now).1.1.Decided := by
  unfold reserveFor
  split
  · simp only [reserveBuy]
    split_ifs
    · exact h
    · exact h
    · rfl
    · exact h
  · exact h

theorem marketable_decided (request : OrderRequest) (mark : ℚ) (h : order.Decided) :
    (marketable s order request risk mark now).result.1.Decided := by
  rcases marketable_cases s order request risk mark now with hm | hm | ⟨error, hm⟩ <;> rw [hm]
  · exact h
  · exact h
  · rfl

theorem placeOrder_decided (request : OrderRequest) (h : order.Decided) :
    (placeOrder s order request risk now).result.1.Decided := by
  obtain ⟨mark, hplace⟩ := placeOrder_cases s order request risk now
  have hres : (reserveFor s order request risk mark now).1.1.Decided :=
    reserveFor_decided request mark h
  rcases hplace with hp | hp | ⟨-, m, hp⟩ <;> rw [hp]
  · exact hres
  · rfl
  · exact marketable_decided request m hres

/-- Every way a preparation can go on has the risk outcome on the order. -/
theorem prepare_decided (s : PaperState) (request : OrderRequest) (risk : RiskEvaluation)
    (roll : ℚ) (now : Time) : (prepare cfg s request risk roll now).result.1.Decided := by
  simp only [prepare]
  split_ifs
  · rfl
  · rfl
  · exact placeOrder_decided request rfl

/-- **A submission leaves a decided order.** -/
theorem submitAfterLatency_decided (s : PaperState) (request : OrderRequest)
    (risk : RiskEvaluation) (roll : ℚ) (now : Time) :
    (submitAfterLatency cfg s request risk roll now).1.Decided := by
  have hprep : (prepare cfg s request risk roll now).result.1.Decided :=
    prepare_decided s request risk roll now
  cases h : prepare cfg s request risk roll now with
  | done o s' =>
    rw [submitAfterLatency, h]
    rwa [h] at hprep
  | execute o s' mark =>
    rw [submitAfterLatency, h]
    exact Attempt.apply_decided (immediateAttempt_proper h).live_ne

/-! ### Positions -/

/-- Every position is held under its own symbol and marked. -/
def PositionsMarked (s : PaperState) : Prop :=
  ∀ name p, s.positions.get? name = some p → p.Marked name

theorem PositionChange.isMarked {name : String} {p : Position} (h : PositionChange s name p)
    (hall : PositionsMarked s) : p.Marked name := by
  cases h with
  | kept hp => exact hall name p hp
  | marked price hp =>
    have hold : Position.Marked name _ := hall name _ hp
    exact ⟨hold.symbol, rfl, hold.stopLoss, hold.takeProfit⟩
  | bought order qty price now _ _ =>
    cases hp : s.positions.get? order.symbol with
    | none => exact ⟨rfl, by simp [boughtPosition], rfl, rfl⟩
    | some q =>
      have hold : q.Marked order.symbol := hall _ q hp
      exact ⟨hold.symbol, rfl, hold.stopLoss, hold.takeProfit⟩
  | sold order qty price fee _ hp _ =>
    have hold : Position.Marked order.symbol _ := hall _ _ hp
    exact ⟨hold.symbol, rfl, hold.stopLoss, hold.takeProfit⟩

/-! ### Fills -/

theorem release_fills (amount : Option ℚ) :
    (releaseBuyReservation s order amount now).2.fills = s.fills := by
  rw [releaseBuyReservation_eq]
  split_ifs <;> rfl

theorem Attempt.finish_fills {a : Attempt} (r : Order × PaperState) :
    (a.finish r).2.fills = r.2.fills := by
  simp only [finish]
  split_ifs
  · rfl
  · exact release_fills none

/-- An attempt records its own fill or none. -/
theorem Attempt.apply_fills {a : Attempt} (hlive : a.order.status ≠ .failed) :
    (a.apply cfg).2.fills = a.state.fills ∨
      (a.apply cfg).2.fills = a.state.fills ++ [a.fill cfg] := by
  have hfree : (a.freeing cfg).2.fills = a.state.fills ++ [a.fill cfg] := freeing_snd.1.1
  have h : a.Outcome cfg (a.apply cfg) := outcome hlive
  generalize a.apply cfg = r at h
  cases h with
  | dust _ => exact .inl rfl
  | bought _ _ _ => exact .inr ((finish_fills _).trans hfree)
  | insufficient _ _ _ => exact .inr ((release_fills none).trans hfree)
  | sold p _ _ _ _ => exact .inr (finish_fills _)
  | noPosition _ _ _ => exact .inr rfl

/-- Every fee is paid in the quote asset. -/
def FeesInQuote (s : PaperState) : Prop := ∀ f ∈ s.fills, f.feeAsset = "USDT"

theorem FeesInQuote.of_eq (h : FeesInQuote s) (heq : s'.fills = s.fills) : FeesInQuote s' := by
  intro f hf
  exact h f (heq ▸ hf)

theorem FeesInQuote.effect (hall : FeesInQuote s) (h : Effect cfg ok s s') : FeesInQuote s' := by
  cases h with
  | create _ _ _ _ _ => exact hall
  | mark _ _ _ => exact hall
  | status _ _ _ _ _ _ _ _ _ => exact hall
  | reserve _ _ _ _ _ _ _ _ _ _ => exact hall
  | untriggered _ _ _ _ _ _ _ => exact hall.of_eq (release_fills none)
  | close _ _ _ _ _ _ _ => exact hall.of_eq (release_fills none)
  | attempt a hp _ =>
    have hfills : (a.apply cfg).2.fills = a.state.fills ∨ _ := Attempt.apply_fills hp.live_ne
    rcases hfills with heq | heq
    · exact hall.of_eq heq
    · intro f hf
      rw [heq, List.mem_append, List.mem_singleton] at hf
      rcases hf with hf | rfl
      · exact hall f hf
      · rfl

/-! ### The index -/

/-- The index names every order under its key. -/
def Indexed (s : PaperState) : Prop :=
  ∀ j o, s.orders.get? j = some o → s.idempotencyIndex.get? o.idempotencyKey = some j

/-- A new key leaves the entries of the other orders alone. -/
theorem Indexed.created {request : OrderRequest} (h : Indexed s)
    (hkey : s.idempotencyIndex.get? request.idempotencyKey = none) :
    Indexed (created s request now) := by
  intro j o ho
  simp only [Paper.created, Dict.get?_set] at ho ⊢
  split_ifs at ho with hj
  · rw [← Option.some.inj ho, ← hj]
    exact if_pos rfl
  · have hold : s.idempotencyIndex.get? o.idempotencyKey = some j := h j o ho
    have hne : request.idempotencyKey ≠ o.idempotencyKey := by
      intro he
      rw [he, hold] at hkey
      cases hkey
    rw [if_neg hne, hold]

theorem Indexed.works {r : Order × PaperState} (h : Indexed s) (hs : Stored s order)
    (hw : Works s order r) : Indexed r.2 := by
  intro j o ho
  rw [hw.frame.index]
  by_cases hj : order.id = j
  · have hstored : r.2.orders.get? r.1.id = some r.1 := hw.stored
    rw [← hj, ← hw.same.id, hstored, Option.some.injEq] at ho
    rw [← ho, hw.same.key, ← hj]
    exact h order.id order hs
  · rw [hw.frame.orders hj] at ho
    exact h j o ho

theorem Indexed.effect (hall : Indexed s) (h : Effect cfg ok s s') : Indexed s' := by
  rcases h.works with ⟨request, now, hkey, rfl⟩ | ⟨symbol, price, rfl⟩ | ⟨order, r, hs, hw, rfl⟩
  · exact hall.created hkey
  · exact hall
  · exact hall.works hs hw

/-! ### The ledger -/

/-- What holds of every ledger the engine reaches. -/
structure Sound (s : PaperState) : Prop where
  keyed : Keyed s
  indexed : Indexed s
  decided : EachOrder Order.Decided s
  marked : PositionsMarked s
  fees : FeesInQuote s

theorem Sound.fresh (marks : Dict String ℚ) : Sound (Paper.fresh cfg marks) where
  keyed := .fresh marks
  indexed := fun _ _ h => by cases h
  decided := fun _ _ h => by cases h
  marked := fun _ _ h => by cases h
  fees := fun _ hf => by cases hf

theorem step_decided {op : Op} (hk : Keyed s) (hall : EachOrder Order.Decided s) :
    EachOrder Order.Decided (step cfg s op) := by
  have hwork : WorkProperty cfg Order.Decided := workProperty_decided
  cases op with
  | submit request risk roll now =>
    exact submit_orders hall (submitAfterLatency_decided s request risk roll now)
  | setMarkPrice symbol price now => exact setMarkPrice_orders hwork symbol price now hk hall
  | cancel id now => exact (cancel_closing id hk).orders hwork hall
  | expire id now => exact (expire_closing id hk).orders hwork hall

/-- **An operation keeps the ledger sound.** -/
theorem Sound.step {op : Op} (h : Sound s) (hop : op.Valid) : Sound (step cfg s op) := by
  have heff : Effects cfg (fun _ => True) s (Paper.step cfg s op) :=
    step_effects h.keyed hop fun _ _ => trivial
  exact
    { keyed := heff.keyed h.keyed
      indexed := heff.invariant (fun _ he hi => Indexed.effect hi he) h.keyed h.indexed
      decided := step_decided h.keyed h.decided
      marked := heff.invariant
        (fun _ he hm _ _ hget => (he.position_change hget).isMarked hm) h.keyed h.marked
      fees := heff.invariant (fun _ he hf => FeesInQuote.effect hf he) h.keyed h.fees }

end Paper

end Atlas
