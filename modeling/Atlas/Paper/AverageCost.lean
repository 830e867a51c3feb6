import Atlas.Lib.AverageCost
import Atlas.Paper.Solvency
import Atlas.Paper.Quiet
import Atlas.Paper.Lifecycle

/-!
# Positions at average cost

A position is a holding at average cost: the fills the engine applies are its trades, and
nothing else the engine does touches its quantity or its entry price.  The prices paid
since the position was last flat are recorded beside a run, in an account of each symbol,
and the holding of the account is the position of the ledger.

## Main definitions

* `Attempt.trade` — the trade an attempt makes in a symbol.
* `tradesAlong` — the trades of a run in a symbol.
* `Tracks` — an account agrees with the ledger.

## Main results

* `Attempt.apply_tracks` — an attempt is the trade it makes.
* `run_tracks` — **the account of a run agrees with its ledger.**
* `weighted_average_cost` — **positions are held at weighted average cost.**

## References

`app/execution/paper/engine.py`.
-/

namespace Atlas

namespace Paper

open AverageCost

variable {cfg : PaperConfig} {s : PaperState} {symbol : String} {account : Account ℚ} {now : Time}

/-- The trade an attempt makes in a symbol, if it is applied. -/
def Attempt.trade (cfg : PaperConfig) (symbol : String) (a : Attempt) : Option (Trade ℚ) :=
  if a.order.symbol = symbol ∧ 0 < a.fillQty ∧ a.Covered cfg then
    some (match a.order.side with
      | .buy => .buy a.fillQty a.price
      | .sell => .sell a.fillQty)
  else none

/-- The trades of an operation in a symbol. -/
def trades (cfg : PaperConfig) (symbol : String) (s : PaperState) (op : Op) : List (Trade ℚ) :=
  (attempts cfg s op).filterMap (Attempt.trade cfg symbol)

/-- The trades of several operations in turn. -/
def tradesAlong (cfg : PaperConfig) (symbol : String) : PaperState → List Op → List (Trade ℚ)
  | _, [] => []
  | s, op :: ops => trades cfg symbol s op ++ tradesAlong cfg symbol (step cfg s op) ops

/-- The account after some trades. -/
abbrev settle (account : Account ℚ) (ts : List (Trade ℚ)) : Account ℚ :=
  ts.foldl Account.trade account

/-- An account agrees with the ledger, and its average is in the range of the prices paid. -/
structure Tracks (symbol : String) (s : PaperState) (account : Account ℚ) : Prop where
  held : holding s symbol = account.held
  averaged : account.Averaged

/-! ### Fills -/

theorem holding_of_positions {s' : PaperState} (h : s'.positions = s.positions) :
    holding s' symbol = holding s symbol := by
  rw [holding, holding, h]

theorem Tracks.of_holding {s' : PaperState} (h : Tracks symbol s account)
    (heq : holding s' symbol = holding s symbol) : Tracks symbol s' account :=
  ⟨heq.trans h.held, h.averaged⟩

/-- A bought position is the holding after the purchase. -/
theorem holding_bought {positions : Dict String Position} (order : Order) (qty price : ℚ)
    (now : Time) (hpositions : s.positions = positions.set order.symbol
      (boughtPosition (positions.get? order.symbol) order qty price now)) :
    holding s order.symbol = AverageCost.trade
      ((positions.get? order.symbol).map fun p => (p.quantity, p.entryPrice))
        (.buy qty price) := by
  rw [holding, hpositions, Dict.get?_set_self]
  cases positions.get? order.symbol <;> rfl

/-- A sold position is the holding after the sale. -/
theorem holding_sold {positions : Dict String Position} {name : String} {p : Position}
    (qty price fee : ℚ) (hp : positions.get? name = some p)
    (hpositions : s.positions = soldPositions positions name p qty price fee) :
    holding s name = AverageCost.trade
      ((positions.get? name).map fun p => (p.quantity, p.entryPrice)) (.sell qty) := by
  rw [holding, hpositions, soldPositions, hp]
  simp only [Option.map_some, AverageCost.trade, Option.bind_some]
  split_ifs
  · simp [Dict.get?_erase]
  · simp [Dict.get?_set_self]

/-- A fill in another symbol leaves the holding alone. -/
theorem holding_of_ne {positions : Dict String Position} {name : String} {p : Position}
    (hne : name ≠ symbol)
    (hpositions : s.positions = positions.set name p ∨ s.positions = positions.erase name) :
    holding s symbol = (positions.get? symbol).map fun p => (p.quantity, p.entryPrice) := by
  rcases hpositions with h | h
  · rw [holding, h, Dict.get?_set_ne _ hne]
  · rw [holding, h, Dict.get?_erase, if_neg hne]

/-- An attempt in another symbol makes no trade, and an attempt that is not applied
makes none. -/
theorem Attempt.trade_eq_none {a : Attempt}
    (h : a.order.symbol ≠ symbol ∨ a.fillQty ≤ 0 ∨ ¬a.Covered cfg) :
    a.trade cfg symbol = none := by
  rw [Attempt.trade, if_neg]
  rintro ⟨hsymbol, hq, hcov⟩
  rcases h with h | h | h
  · exact h hsymbol
  · exact absurd hq (not_lt.mpr h)
  · exact h hcov

/-- **An attempt is the trade it makes.** -/
theorem Attempt.apply_tracks {a : Attempt} (hlive : a.order.status ≠ .failed)
    (h : Tracks symbol a.state account) :
    Tracks symbol (a.apply cfg).2 (settle account (a.trade cfg symbol).toList) := by
  have hbooked : a.Booked cfg (a.apply cfg) := apply_booked hlive
  generalize a.apply cfg = r at hbooked
  cases hbooked with
  | refused books hfail =>
    rw [trade_eq_none (.inr hfail)]
    exact h.of_holding (holding_of_positions books.positions)
  | bought hq hside _ _ hpositions _ _ hcov =>
    by_cases hsymbol : a.order.symbol = symbol
    · subst hsymbol
      have htrade : a.trade cfg a.order.symbol = some (.buy a.fillQty a.price) := by
        rw [Attempt.trade, if_pos ⟨rfl, hq, hcov⟩, hside]
      rw [htrade]
      refine ⟨?_, h.averaged.trade hq⟩
      rw [holding_bought a.order a.fillQty a.price a.now hpositions]
      exact congrArg (AverageCost.trade · _) h.held
    · rw [trade_eq_none (.inl hsymbol)]
      exact h.of_holding (holding_of_ne hsymbol (.inl hpositions))
  | sold p hq hside hp hqty _ _ hpositions _ _ hcov =>
    by_cases hsymbol : a.order.symbol = symbol
    · subst hsymbol
      have htrade : a.trade cfg a.order.symbol = some (.sell a.fillQty) := by
        rw [Attempt.trade, if_pos ⟨rfl, hq, hcov⟩, hside]
      have hheld : account.held = some (p.quantity, p.entryPrice) := by
        rw [← h.held, holding, hp, Option.map_some]
      rw [htrade]
      refine ⟨?_, h.averaged.trade ⟨p.quantity, p.entryPrice, hheld, hqty⟩⟩
      rw [holding_sold a.fillQty a.price (a.fee cfg) hp hpositions]
      exact congrArg (AverageCost.trade · _) h.held
    · rw [trade_eq_none (.inl hsymbol)]
      refine h.of_holding ?_
      simp only [soldPositions] at hpositions
      split_ifs at hpositions
      · exact holding_of_ne (p := p) hsymbol (.inr hpositions)
      · exact holding_of_ne hsymbol (.inl hpositions)

/-- **An applied BUY adds its notional to the cost.** -/
theorem Tracks.cost_bought {a : Attempt} (hlive : a.order.status ≠ .failed)
    (h : Tracks symbol a.state account) (hsymbol : a.order.symbol = symbol) (hq : 0 < a.fillQty)
    (hcov : a.Covered cfg) (hside : a.order.side = .buy) :
    cost (holding (a.apply cfg).2 symbol) =
      cost (holding a.state symbol) + a.price * a.fillQty := by
  have hafter : Tracks symbol (a.apply cfg).2 (settle account (a.trade cfg symbol).toList) :=
    Attempt.apply_tracks hlive h
  have htrade : a.trade cfg symbol = some (.buy a.fillQty a.price) := by
    rw [Attempt.trade, if_pos ⟨hsymbol, hq, hcov⟩, hside]
  rw [hafter.held, h.held, htrade]
  exact cost_buy (fun _ _ h' => h.averaged.pos h') hq a.price

/-- **An applied SELL takes its quantity out at the entry price**, which it leaves. -/
theorem Tracks.cost_sold {a : Attempt} (hlive : a.order.status ≠ .failed)
    (h : Tracks symbol a.state account) (hsymbol : a.order.symbol = symbol) (hq : 0 < a.fillQty)
    (hcov : a.Covered cfg) (hside : a.order.side = .sell) :
    ∃ quantity entryPrice, holding a.state symbol = some (quantity, entryPrice) ∧
      cost (holding (a.apply cfg).2 symbol) =
        cost (holding a.state symbol) - entryPrice * a.fillQty ∧
      ∀ left, holding (a.apply cfg).2 symbol = some left → left.2 = entryPrice := by
  have hafter : Tracks symbol (a.apply cfg).2 (settle account (a.trade cfg symbol).toList) :=
    Attempt.apply_tracks hlive h
  have htrade : a.trade cfg symbol = some (.sell a.fillQty) := by
    rw [Attempt.trade, if_pos ⟨hsymbol, hq, hcov⟩, hside]
  -- a covered sale has a position to sell from
  have hdelivered : a.fillQty ≤ Paper.held a.state symbol := by
    have hcovered := hcov.resolve_left (not_le.mpr hq)
    simp only [hside] at hcovered
    rwa [hsymbol] at hcovered
  cases hp : a.state.positions.get? symbol with
  | none =>
    rw [Paper.held, hp] at hdelivered
    exact absurd hq (not_lt.mpr hdelivered)
  | some p =>
    have hheld : holding a.state symbol = some (p.quantity, p.entryPrice) := by
      rw [holding, hp, Option.map_some]
    have hsold : holding (a.apply cfg).2 symbol =
        AverageCost.trade (some (p.quantity, p.entryPrice)) (.sell a.fillQty) := by
      rw [hafter.held, htrade, ← hheld, h.held]
      rfl
    refine ⟨p.quantity, p.entryPrice, hheld, ?_, fun left hleft => ?_⟩
    · rw [hsold, hheld, cost_sell]
    · rw [hsold] at hleft
      exact average_sell hleft

/-! ### Operations -/

/-- The loop over the resting orders makes its trades one after another, and each is made
in a state that an account agrees with. -/
theorem restingLoop_tracks {name : String} {mark : ℚ} {orders : List Order} :
    ∀ {s : PaperState} {account : Account ℚ}, Tracks symbol s account →
      Tracks symbol (orders.foldl (triggerOne cfg name mark now) s)
          (settle account ((restingAttempts cfg name mark now s orders).filterMap
            (Attempt.trade cfg symbol))) ∧
        ∀ a ∈ restingAttempts cfg name mark now s orders,
          a.order.status ≠ .failed ∧ ∃ account, Tracks symbol a.state account := by
  induction orders with
  | nil => exact fun h => ⟨h, by simp [restingAttempts]⟩
  | cons order orders ih =>
    intro s account h
    rw [restingAttempts, List.filterMap_append, settle, List.foldl_append, List.foldl_cons,
      triggerOne_eq]
    cases hattempt : restingAttempt cfg name mark now s order with
    | none =>
      simp only [Option.toList_none, List.filterMap_nil, List.foldl_nil, Option.elim,
        List.nil_append]
      exact ih h
    | some a =>
      obtain ⟨fillQty, hfill, ha⟩ := Option.map_eq_some_iff.mp hattempt
      have hlive : a.order.status ≠ .failed := by
        rw [← ha]
        rcases (restingFill_eq_some cfg hfill).1 with h | h <;> simp [h]
      have hstate : a.state = s := by rw [← ha]
      have hfirst : Tracks symbol (a.apply cfg).2 (settle account (a.trade cfg symbol).toList) :=
        Attempt.apply_tracks hlive (hstate ▸ h)
      have hlist : (Option.toList (some a)).filterMap (Attempt.trade cfg symbol) =
          (a.trade cfg symbol).toList := by
        cases htrade : a.trade cfg symbol <;> simp [htrade]
      obtain ⟨hrest, hall⟩ := ih hfirst
      rw [hlist]
      refine ⟨hrest, fun b hb => ?_⟩
      rcases List.mem_append.mp hb with hnow | hlater
      · rw [Option.mem_toList, Option.some.injEq] at hnow
        exact hnow ▸ ⟨hlive, account, hstate ▸ h⟩
      · exact hall b hlater

/-- A submission makes the trade of its immediate execution, if it comes to one. -/
theorem submitAfterLatency_tracks {request : OrderRequest} {risk : RiskEvaluation} {roll : ℚ}
    (h : Tracks symbol s account) :
    Tracks symbol (submitAfterLatency cfg s request risk roll now).2
        (settle account ((submitAttempts cfg s request risk roll now).filterMap
          (Attempt.trade cfg symbol))) ∧
      ∀ a ∈ submitAttempts cfg s request risk roll now,
        a.order.status ≠ .failed ∧ ∃ account, Tracks symbol a.state account := by
  have hprep : Idle _ _ (prepare cfg s request risk roll now).result :=
    prepare_idle s request risk roll now
  cases hcase : prepare cfg s request risk roll now with
  | done o s' =>
    rw [hcase] at hprep
    rw [submitAfterLatency, submitAttempts, hcase]
    exact ⟨h.of_holding (holding_of_positions hprep.books.positions), by simp⟩
  | execute o s' mark =>
    rw [hcase] at hprep
    rw [submitAfterLatency, submitAttempts, hcase]
    have hs' : Tracks symbol s' account := h.of_holding (holding_of_positions hprep.books.positions)
    have hlive : (immediateAttempt cfg s' o request risk mark now).order.status ≠ .failed :=
      (immediateAttempt_proper hcase).live_ne
    have hlist : [immediateAttempt cfg s' o request risk mark now].filterMap
        (Attempt.trade cfg symbol) =
          ((immediateAttempt cfg s' o request risk mark now).trade cfg symbol).toList := by
      cases htrade : (immediateAttempt cfg s' o request risk mark now).trade cfg symbol <;>
        simp [htrade]
    rw [hlist]
    refine ⟨Attempt.apply_tracks hlive hs', fun a ha => ?_⟩
    rw [List.mem_singleton] at ha
    exact ha ▸ ⟨hlive, account, hs'⟩

/-- **An operation is the trades it makes.** -/
theorem step_tracks (hk : Keyed s) (h : Tracks symbol s account) (op : Op) :
    Tracks symbol (step cfg s op) (settle account (trades cfg symbol s op)) ∧
      ∀ a ∈ attempts cfg s op, a.order.status ≠ .failed ∧
        ∃ account, Tracks symbol a.state account := by
  have hclosing : ∀ {s'}, Closing s s' → Tracks symbol s' account := by
    intro s' hc
    cases hc with
    | unchanged => exact h
    | closed order st now hs _ _ =>
      exact h.of_holding (holding_of_positions (closeOrder_idle st hs).books.positions)
  cases op with
  | submit request risk roll now =>
    simp only [step, submit, trades, attempts]
    cases s.idempotencyIndex.get? request.idempotencyKey with
    | some id => exact ⟨h, by simp⟩
    | none => exact submitAfterLatency_tracks h
  | setMarkPrice name price now =>
    exact restingLoop_tracks (h.of_holding ((markState_untouched s name price).holding symbol))
  | cancel id now => exact ⟨hclosing (cancel_closing id hk), by simp [attempts]⟩
  | expire id now => exact ⟨hclosing (expire_closing id hk), by simp [attempts]⟩

/-! ### Runs -/

/-- Every operation keeps the ledger keyed and its positions marked. -/
theorem step_marked (cfg : PaperConfig) (hk : Keyed s) (h : PositionsMarked s) (op : Op) :
    Keyed (step cfg s op) ∧ PositionsMarked (step cfg s op) := by
  have hb : Bookings cfg anyTerms s (step cfg s op) := step_bookings hk (anyTerms_meets op)
  have hkeep : ∀ {s s' : PaperState}, Keyed s → Booking cfg anyTerms s s' → PositionsMarked s →
      PositionsMarked s' :=
    fun _ hb hall _ _ hget => (hb.position_change hget).isMarked hall
  exact ⟨hb.keyed hk, hb.invariant hkeep hk h⟩

/-- A run from a state that an account agrees with. -/
theorem steps_track (ops : List Op) : ∀ {s : PaperState} {account : Account ℚ}, Keyed s →
    PositionsMarked s → Tracks symbol s account →
    Keyed (ops.foldl (step cfg) s) ∧ PositionsMarked (ops.foldl (step cfg) s) ∧
      Tracks symbol (ops.foldl (step cfg) s) (settle account (tradesAlong cfg symbol s ops)) := by
  induction ops with
  | nil => exact fun hk hm h => ⟨hk, hm, h⟩
  | cons op ops ih =>
    intro s account hk hm h
    obtain ⟨hk', hm'⟩ := step_marked cfg hk hm op
    rw [tradesAlong, settle, List.foldl_append]
    exact ih hk' hm' (step_tracks hk h op).1

/-- **The account of a run agrees with its ledger.** -/
theorem run_tracks (cfg : PaperConfig) (marks : Dict String ℚ) (ops : List Op) (symbol : String) :
    Keyed (run cfg marks ops) ∧ PositionsMarked (run cfg marks ops) ∧
      Tracks symbol (run cfg marks ops)
        (settle .empty (tradesAlong cfg symbol (fresh cfg marks) ops)) :=
  steps_track ops (Keyed.fresh marks) (fun _ _ h => by cases h) ⟨rfl, .empty⟩

/-- **Positions are held at weighted average cost.**  Along every run, an applied BUY adds
its notional to the cost of the position, and an applied SELL takes its quantity out at the
entry price, which it leaves; the position is what these trades make of nothing; its entry
price is in the range of the prices paid since the symbol was last flat; and its unrealized
profit is that of its quantity over the entry price. -/
theorem weighted_average_cost (cfg : PaperConfig) (marks : Dict String ℚ) (ops : List Op)
    (symbol : String) :
    let s := run cfg marks ops
    let account := settle .empty (tradesAlong cfg symbol (fresh cfg marks) ops)
    (∀ op, ∀ a ∈ attempts cfg s op, a.order.symbol = symbol → 0 < a.fillQty → a.Covered cfg →
      (a.order.side = .buy → cost (holding (a.apply cfg).2 symbol) =
        cost (holding a.state symbol) + a.price * a.fillQty) ∧
      (a.order.side = .sell → ∃ quantity entryPrice,
        holding a.state symbol = some (quantity, entryPrice) ∧
          cost (holding (a.apply cfg).2 symbol) =
            cost (holding a.state symbol) - entryPrice * a.fillQty ∧
          ∀ left, holding (a.apply cfg).2 symbol = some left → left.2 = entryPrice)) ∧
    holding s symbol = account.held ∧
    ∀ p, s.positions.get? symbol = some p →
      (∃ lowest ∈ account.paid, lowest ≤ p.entryPrice) ∧
        (∃ highest ∈ account.paid, p.entryPrice ≤ highest) ∧
        p.unrealizedPnl = (p.currentPrice - p.entryPrice) * p.quantity := by
  intro s account
  obtain ⟨hk, hmarked, htracks⟩ := run_tracks cfg marks ops symbol
  refine ⟨fun op a ha hsymbol hq hcov => ?_, htracks.held, fun p hp => ?_⟩
  · obtain ⟨hlive, before, hbefore⟩ := (step_tracks hk htracks op).2 a ha
    exact ⟨hbefore.cost_bought hlive hsymbol hq hcov, hbefore.cost_sold hlive hsymbol hq hcov⟩
  · have hheld : account.held = some (p.quantity, p.entryPrice) := by
      rw [← htracks.held, holding, hp, Option.map_some]
    exact ⟨htracks.averaged.least hheld, htracks.averaged.greatest hheld,
      (hmarked symbol p hp).unrealized⟩

/-- Two purchases at different prices, a sale of a part, and a purchase after the position
was flat. -/
example :
    let ops : List Op :=
      [marketOrder .buy "a" 2, .setMarkPrice "BTC/USDT" 130 0, marketOrder .buy "b" 1,
        marketOrder .sell "c" 3, .setMarkPrice "BTC/USDT" 50 0, marketOrder .buy "d" 1]
    (settle .empty (tradesAlong { spreadRate := 0, slippageRate := 0 } "BTC/USDT"
      (fresh { spreadRate := 0, slippageRate := 0 } (markAt 100)) ops)) = ⟨some (1, 50), [50]⟩ := by
  decide +kernel

end Paper

end Atlas
