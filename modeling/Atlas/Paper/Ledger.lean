import Atlas.Lib.WeightedMean
import Atlas.Paper.Operation

/-!
# The fills account for the ledger

What the paper ledger is for: cash, positions and orders are what the recorded
fills say they are.  The abstract side is a list of fills and the sums over it;
`LedgerExact` says that a state of the engine agrees with them.

The engine records a fill before it checks the cash or the position.  A fill it
then refuses stays in the list, and the ledger no longer agrees with it.  A run
is exact as long as every fill it attempts is *covered*: the cash, with what the
fill frees of its own reservation, pays for it, or the position holds it.

## Main definitions

* `Totals`, `totalsOf` — what the fills of an order add up to.
* `LedgerExact C s` — the ledger agrees with its fills.
* `Attempt.Covered` — the fill can be paid for, or delivered.
* `Posts` — a part of the engine records these fills, and nothing else.

## Main results

* `Attempt.apply_posts` — a covered attempt posts the fill it records.
* `ledger_exact` — a run whose fills are covered is exact.

## References

`app/execution/paper/engine.py`, `tests/integration/test_paper_trading_replay.py`.
-/

namespace Atlas

open WeightedMean

/-! ### What the fills say -/

/-- The cash a fill moves, fee included. -/
def Fill.signedCash (f : Fill) : ℚ :=
  match f.side with
  | .buy => -(f.price * f.quantity + f.fee)
  | .sell => f.price * f.quantity - f.fee

/-- The quantity a fill adds to the position. -/
def Fill.signedQuantity (f : Fill) : ℚ :=
  match f.side with
  | .buy => f.quantity
  | .sell => -f.quantity

/-- What the fills of an order add up to. -/
structure Totals where
  filled : ℚ
  fees : ℚ
  average : Option ℚ
  deriving DecidableEq, Repr

/-- The totals an order carries. -/
def Order.totals (order : Order) : Totals :=
  ⟨order.filledQuantity, order.fees, order.averageFillPrice⟩

/-- The totals after one more fill. -/
def Totals.add (t : Totals) (f : Fill) : Totals where
  filled := t.filled + f.quantity
  fees := t.fees + f.fee
  average := extendMean t.average t.filled f.price f.quantity

/-- The fills of an order. -/
def fillsOf (fills : List Fill) (id : Ident) : List Fill := fills.filter (·.orderId = id)

/-- The sums over the fills of an order, and the quantity-weighted mean of their
prices. -/
def totalsOf (fills : List Fill) (id : Ident) : Totals where
  filled := ((fillsOf fills id).map Fill.quantity).sum
  fees := ((fillsOf fills id).map Fill.fee).sum
  average := weightedMean ((fillsOf fills id).map fun f => (f.price, f.quantity))

/-- The quantity of a symbol that was bought and not sold. -/
def netQuantity (fills : List Fill) (symbol : String) : ℚ :=
  ((fills.filter (·.symbol = symbol)).map Fill.signedQuantity).sum

theorem netQuantity_append (fills gs : List Fill) (symbol : String) :
    netQuantity (fills ++ gs) symbol = netQuantity fills symbol + netQuantity gs symbol := by
  simp [netQuantity]

theorem netQuantity_single (f : Fill) (symbol : String) :
    netQuantity [f] symbol = if f.symbol = symbol then f.signedQuantity else 0 := by
  by_cases h : f.symbol = symbol <;> simp [netQuantity, h]

theorem fillsOf_append (fills gs : List Fill) (id : Ident) :
    fillsOf (fills ++ gs) id = fillsOf fills id ++ fillsOf gs id := List.filter_append ..

theorem fillsOf_eq_nil {fills : List Fill} {id : Ident} (h : ∀ f ∈ fills, f.orderId ≠ id) :
    fillsOf fills id = [] := by
  simpa [fillsOf, List.filter_eq_nil_iff] using h

theorem totalsOf_append_of_ne {fills gs : List Fill} {id : Ident}
    (h : ∀ g ∈ gs, g.orderId ≠ id) : totalsOf (fills ++ gs) id = totalsOf fills id := by
  simp only [totalsOf, fillsOf_append, fillsOf_eq_nil h, List.append_nil]

/-- One more fill of the order is added to its totals. -/
theorem totalsOf_append_single {fills : List Fill} {f : Fill} (hpos : ∀ g ∈ fills, 0 < g.quantity)
    (hf : 0 < f.quantity) :
    totalsOf (fills ++ [f]) f.orderId = (totalsOf fills f.orderId).add f := by
  have hown : fillsOf [f] f.orderId = [f] := by simp [fillsOf]
  have hweight : weight ((fillsOf fills f.orderId).map fun g => (g.price, g.quantity)) =
      ((fillsOf fills f.orderId).map Fill.quantity).sum := by
    simp [weight, List.map_map, Function.comp_def]
  have hmean := weightedMean_append (l := (fillsOf fills f.orderId).map fun g => (g.price, g.quantity))
    (x := f.price) (w := f.quantity) (by
      intro e he
      obtain ⟨g, hg, rfl⟩ := List.mem_map.mp he
      exact hpos g (List.mem_of_mem_filter hg)) hf
  simp only [totalsOf, Totals.add, fillsOf_append, hown, List.map_append, List.map_cons,
    List.map_nil, List.sum_append, List.sum_cons, List.sum_nil, add_zero, hmean, hweight]

/-- The fills of an order, one after another, are added to its totals. -/
theorem totalsOf_append {id : Ident} {gs : List Fill} : ∀ {fills : List Fill},
    (∀ g ∈ fills, 0 < g.quantity) → (∀ g ∈ gs, 0 < g.quantity ∧ g.orderId = id) →
      totalsOf (fills ++ gs) id = gs.foldl Totals.add (totalsOf fills id) := by
  induction gs with
  | nil => intro fills _ _; simp
  | cons g gs ih =>
    intro fills hpos hgs
    obtain ⟨hg, rfl⟩ := hgs g (List.mem_cons_self ..)
    have hpos' : ∀ f ∈ fills ++ [g], 0 < f.quantity := by
      intro f hf
      rcases List.mem_append.mp hf with h | h
      · exact hpos f h
      · rw [List.mem_singleton.mp h]
        exact hg
    rw [List.append_cons, ih hpos' fun f hf => hgs f (List.mem_cons_of_mem _ hf),
      totalsOf_append_single hpos hg, List.foldl_cons]

namespace Paper

/-! ### The ledger agrees with its fills -/

/-- The quantity held of a symbol, zero without a position. -/
def held (s : PaperState) (symbol : String) : ℚ :=
  (s.positions.get? symbol).elim 0 Position.quantity

/-- **The ledger agrees with its fills**: the capital is the initial cash and what
the fills moved, each position is what the fills bought and did not sell, and each
order carries the totals of its fills. -/
structure LedgerExact (C : ℚ) (s : PaperState) : Prop where
  cash : s.cash + s.reservedCash = C + (s.fills.map Fill.signedCash).sum
  position : ∀ symbol, held s symbol = netQuantity s.fills symbol
  orders : ∀ {id order}, s.orders.get? id = some order → order.totals = totalsOf s.fills id

variable (cfg : PaperConfig)

/-- The fill can be paid for, or delivered: a bought fill from the available cash
and what it frees of its own reservation, a sold fill from the position. -/
def Attempt.Covered (a : Attempt) : Prop :=
  a.fillQty ≤ 0 ∨
    match a.order.side with
    | .buy => a.cost cfg ≤ a.state.cash + a.freed
    | .sell => a.fillQty ≤ held a.state a.order.symbol

instance (a : Attempt) : Decidable (a.Covered cfg) := by
  unfold Attempt.Covered
  cases a.order.side <;> infer_instance

/-- What a part of the engine that works on one order adds to the ledger: the
fills `fs` of that order, and nothing else. -/
structure Posts (s : PaperState) (order : Order) (fs : List Fill) (r : Order × PaperState) :
    Prop where
  fills : r.2.fills = s.fills ++ fs
  own : ∀ f ∈ fs, 0 < f.quantity ∧ f.orderId = order.id
  cash : r.2.cash + r.2.reservedCash = s.cash + s.reservedCash + (fs.map Fill.signedCash).sum
  position : ∀ symbol, held r.2 symbol = held s symbol + netQuantity fs symbol
  totals : r.1.totals = fs.foldl Totals.add order.totals

variable {cfg} {s : PaperState} {order : Order} {risk : RiskEvaluation} {now : Time} {C : ℚ}

theorem Posts.none {r : Order × PaperState} (hfills : r.2.fills = s.fills)
    (hcash : r.2.cash + r.2.reservedCash = s.cash + s.reservedCash)
    (hpos : r.2.positions = s.positions) (htotals : r.1.totals = order.totals) :
    Posts s order [] r where
  fills := by simp [hfills]
  own := by simp
  cash := by simp [hcash]
  position := by simp [held, hpos, netQuantity]
  totals := htotals

theorem Posts.trans {r₁ r₂ : Order × PaperState} {fs gs : List Fill} (h₁ : Posts s order fs r₁)
    (hid : r₁.1.id = order.id) (h₂ : Posts r₁.2 r₁.1 gs r₂) : Posts s order (fs ++ gs) r₂ where
  fills := by rw [h₂.fills, h₁.fills, List.append_assoc]
  own := fun f hf => (List.mem_append.mp hf).elim (h₁.own f) fun h => hid ▸ h₂.own f h
  cash := by
    rw [h₂.cash, h₁.cash, List.map_append, List.sum_append]
    ring
  position := fun symbol => by
    rw [h₂.position, h₁.position, netQuantity_append]
    ring
  totals := by rw [h₂.totals, h₁.totals, List.foldl_append]

theorem update_posts (st : OrderStatus) (error : Option String) :
    Posts s order [] (update s order st risk error now) := .none rfl rfl rfl rfl

theorem releaseBuyReservation_posts (amount : Option ℚ) :
    Posts s order [] (releaseBuyReservation s order amount now) := by
  rw [releaseBuyReservation_eq]
  split_ifs
  · exact .none rfl (by simp only [released]; ring) rfl rfl
  · exact .none rfl rfl rfl rfl

theorem release_update_posts (st : OrderStatus) (error : Option String) :
    Posts s order [] (update (releaseBuyReservation s order none now).2
      (releaseBuyReservation s order none now).1 st risk error now) :=
  (releaseBuyReservation_posts none).trans (releaseBuyReservation_sameRequest none).id
    (update_posts st error)

/-- A bought fill adds to the position. -/
theorem boughtPosition_quantity (existing : Option Position) (qty price : ℚ) :
    (boughtPosition existing order qty price now).quantity =
      existing.elim 0 Position.quantity + qty := by
  cases existing <;> simp [boughtPosition]

/-- A sold fill takes from the position, and removes it when nothing is left. -/
theorem soldPositions_quantity {positions : Dict String Position} {name : String} {p : Position}
    (hp : positions.get? name = some p) (qty price fee : ℚ) (symbol : String) :
    ((soldPositions positions name p qty price fee).get? symbol).elim 0 Position.quantity =
      (positions.get? symbol).elim 0 Position.quantity - if name = symbol then qty else 0 := by
  simp only [soldPositions]
  by_cases h : name = symbol
  · subst h
    rw [if_pos rfl]
    split_ifs with hzero
    · rw [Dict.get?_erase, if_pos rfl, hp]
      exact hzero.symm
    · rw [Dict.get?_set_self, hp]
      rfl
  · rw [if_neg h, sub_zero]
    split_ifs
    · rw [Dict.get?_erase, if_neg h]
    · rw [Dict.get?_set_ne _ h]

/-! ### The postings of an attempt -/

namespace Attempt

variable {a : Attempt}

theorem freeing_totals : (a.freeing cfg).1.totals = a.order.totals := by
  obtain ⟨m, t, h⟩ : ∃ m t, (a.freeing cfg).1 = { a.order with metadata := m, updatedAt := t } :=
    freeing_fst
  rw [h]
  rfl

/-- A bought fill frees its part of the reservation before it is paid. -/
theorem freeing_snd : ((a.freeing cfg).2.fills = a.state.fills ++ [a.fill cfg] ∧
      (a.freeing cfg).2.positions = a.state.positions) ∧
    (a.freeing cfg).2.cash = a.state.cash + a.freed ∧
    (a.freeing cfg).2.reservedCash = a.state.reservedCash - a.freed := by
  simp only [freeing, releaseForFill, freed, releaseBuyReservation_eq]
  split_ifs with h h'
  · exact ⟨⟨rfl, rfl⟩, rfl, rfl⟩
  · exact absurd h.2.1 h'
  · exact ⟨⟨rfl, rfl⟩, (add_zero _).symm, (sub_zero _).symm⟩

/-- An order carries one more fill in its totals. -/
theorem filledOrder_totals (o : Order) (qty price fee : ℚ) {f : Fill} (hq : f.quantity = qty)
    (hp : f.price = price) (hf : f.fee = fee) :
    (filledOrder o qty price fee now).totals = o.totals.add f := by
  subst hq hp hf
  cases h : o.averageFillPrice <;> simp [Order.totals, filledOrder, Totals.add, extendMean, h]

theorem bought_posts (hq : 0 < a.fillQty) (hside : a.order.side = .buy) :
    Posts a.state a.order [a.fill cfg] (a.bought cfg) where
  fills := freeing_snd.1.1
  own := by simp [fill, hq]
  cash := by
    have hfree : _ ∧ (a.freeing cfg).2.cash = _ ∧ (a.freeing cfg).2.reservedCash = _ := freeing_snd
    simp only [bought, hfree.2, List.map_cons, List.map_nil, List.sum_cons, List.sum_nil,
      Fill.signedCash, fill, hside, cost]
    ring
  position := fun symbol => by
    have hsame : Order.SameRequest a.order (a.freeing cfg).1 := freeing_sameRequest
    have hfree : (_ ∧ (a.freeing cfg).2.positions = _) ∧ _ := freeing_snd
    simp only [bought, held, Dict.get?_set, hsame.symbol, hfree.1.2, netQuantity_single,
      Fill.signedQuantity, fill, hside]
    split_ifs with h
    · rw [h, Option.elim, boughtPosition_quantity]
    · rw [add_zero]
  totals := by
    have htotals : (a.freeing cfg).1.totals = a.order.totals := freeing_totals
    rw [List.foldl_cons, List.foldl_nil, ← htotals]
    exact filledOrder_totals _ _ _ _ rfl rfl rfl

theorem sold_posts {p : Position} (hq : 0 < a.fillQty) (hside : a.order.side = .sell)
    (hp : a.state.positions.get? a.order.symbol = some p) :
    Posts a.state a.order [a.fill cfg] (a.sold cfg p) where
  fills := rfl
  own := by simp [fill, hq]
  cash := by
    simp only [sold, recorded, List.map_cons, List.map_nil, List.sum_cons, List.sum_nil,
      Fill.signedCash, fill, hside]
    ring
  position := fun symbol => by
    simp only [sold, recorded, held, soldPositions_quantity hp, netQuantity_single,
      Fill.signedQuantity, fill, hside]
    split_ifs <;> ring
  totals := filledOrder_totals _ _ _ _ rfl rfl rfl

theorem finish_posts (r : Order × PaperState) : Posts r.2 r.1 [] (a.finish r) := by
  simp only [finish]
  split_ifs
  · exact update_posts ..
  · exact release_update_posts ..

/-- **A covered attempt posts the fill it records**, or none. -/
theorem apply_posts (hlive : a.order.status ≠ .failed) (hc : a.Covered cfg) :
    ∃ fs, Posts a.state a.order fs (a.apply cfg) := by
  have h : a.Outcome cfg (a.apply cfg) := outcome hlive
  generalize a.apply cfg = r at h
  cases h with
  | dust _ => exact ⟨[], update_posts ..⟩
  | bought hq hside _ =>
    exact ⟨_, (bought_posts hq hside).trans freeing_sameRequest.id (finish_posts _)⟩
  | insufficient hq hside hcash =>
    -- a covered purchase is not refused
    rcases hc with hq' | hc
    · exact absurd hq (not_lt.mpr hq')
    · have hfree : _ ∧ (a.freeing cfg).2.cash = a.state.cash + a.freed ∧ _ := freeing_snd
      rw [hfree.2.1] at hcash
      simp only [hside] at hc
      exact absurd hcash (not_lt.mpr hc)
  | sold p hq hside hp _ =>
    exact ⟨_, (sold_posts hq hside hp).trans rfl (finish_posts _)⟩
  | noPosition hq hside hp =>
    rcases hc with hq' | hc
    · exact absurd hq (not_lt.mpr hq')
    · simp only [hside, held] at hc
      cases hget : a.state.positions.get? a.order.symbol with
      | none => rw [hget] at hc; exact absurd hq (not_lt.mpr hc)
      | some p => rw [hget] at hc; exact absurd (hp p hget) (not_lt.mpr hc)

end Attempt

/-! ### Runs -/

/-- The recorded fills are of positive quantities. -/
def FillsPositive (s : PaperState) : Prop := ∀ f ∈ s.fills, 0 < f.quantity

theorem LedgerExact.fresh (marks : Dict String ℚ) :
    LedgerExact cfg.initialCash (fresh cfg marks) where
  cash := by simp [Paper.fresh]
  position := fun symbol => rfl
  orders := fun h => by cases h

/-- A part of the engine that posts the fills it records keeps the ledger exact. -/
theorem LedgerExact.posts {r : Order × PaperState} {fs : List Fill} (h : LedgerExact C s)
    (hpos : FillsPositive s) (hs : Stored s order) (hs' : Stored r.2 r.1) (hid : r.1.id = order.id)
    (hf : Frame order.id s r.2) (hp : Posts s order fs r) :
    LedgerExact C r.2 ∧ FillsPositive r.2 := by
  refine ⟨⟨?_, fun symbol => ?_, fun {id o} ho => ?_⟩, fun f hmem => ?_⟩
  · rw [hp.cash, h.cash, hp.fills, List.map_append, List.sum_append, add_assoc]
  · rw [hp.position, h.position, hp.fills, netQuantity_append]
  · rw [hp.fills]
    by_cases hne : order.id = id
    · rw [← hne, ← hid, show r.2.orders.get? r.1.id = some r.1 from hs', Option.some.injEq] at ho
      rw [← ho, ← hne, hp.totals, h.orders hs, totalsOf_append hpos hp.own]
    · rw [hf.orders hne] at ho
      rw [h.orders ho, totalsOf_append_of_ne fun g hg => (hp.own g hg).2 ▸ hne]
  · rw [hp.fills] at hmem
    exact (List.mem_append.mp hmem).elim (hpos f) fun hnew => (hp.own f hnew).1

/-- A new order carries no fill yet. -/
theorem LedgerExact.created (h : LedgerExact C s) (hk : Keyed s) (request : OrderRequest)
    (now : Time) : LedgerExact C (created s request now) where
  cash := h.cash
  position := h.position
  orders := fun {id o} ho => by
    simp only [Paper.created, Dict.get?_set] at ho
    split_ifs at ho with hid
    · have hnil : fillsOf s.fills id = [] := fillsOf_eq_nil fun f hmem he => by
        have hsome := hk.fills f hmem
        rw [he, ← hid, hk.get?_next] at hsome
        cases hsome
      rw [← Option.some.inj ho]
      simp [totalsOf, Paper.created, hnil, weightedMean, Order.totals, newOrder]
    · exact h.orders ho

theorem markPositions_quantity (positions : Dict String Position) (symbol name : String)
    (price : ℚ) : ((markPositions positions symbol price).get? name).elim 0 Position.quantity =
      (positions.get? name).elim 0 Position.quantity := by
  simp only [markPositions]
  cases hp : positions.get? symbol with
  | none => rfl
  | some p =>
    simp only [Dict.get?_set]
    split_ifs with h
    · rw [← h, hp]
      rfl
    · rfl

/-- **One effect keeps the ledger exact**, if its attempts are covered. -/
theorem LedgerExact.effect {s' : PaperState} (hk : Keyed s)
    (heff : Effect cfg (Attempt.Covered cfg) s s') (h : LedgerExact C s ∧ FillsPositive s) :
    LedgerExact C s' ∧ FillsPositive s' := by
  cases heff with
  | create _ request now _ _ => exact ⟨h.1.created hk request now, h.2⟩
  | mark _ symbol price =>
    refine ⟨⟨h.1.cash, fun name => ?_, h.1.orders⟩, h.2⟩
    rw [show netQuantity (markState s symbol price).fills name = netQuantity s.fills name from rfl,
      ← h.1.position]
    exact markPositions_quantity ..
  | status _ order st risk error now hs hp hr =>
    have hc : Carries cfg (Attempt.Covered cfg) s order (update s order st risk error now) :=
      update_carries st error hs hp hr
    exact h.1.posts h.2 hs hc.stored hc.same.id hc.frame (update_posts ..)
  | reserve _ order amount now hs hp hr hside hpos hcash =>
    have hc : Carries cfg (Attempt.Covered cfg) s order (reservedOrder order amount now, _) :=
      reserved_carries hs hp hr hside hpos hcash
    -- what is reserved leaves the cash and enters the reserved cash
    refine h.1.posts h.2 hs hc.stored hc.same.id hc.frame (.none rfl ?_ rfl rfl)
    simp only [reserved]
    ring
  | untriggered _ order risk error now hs hp =>
    have hc : Carries cfg (Attempt.Covered cfg) s order
        (rejectUntriggered s order risk error now).result := rejectUntriggered_carries error hs hp
    exact h.1.posts h.2 hs hc.stored hc.same.id hc.frame (release_update_posts ..)
  | close _ order st now hs hopen hst =>
    have hc : Carries cfg (Attempt.Covered cfg) s order (closeOrder s order st now) :=
      closeOrder_carries hs hopen hst
    have hp : Posts s order [] (releaseBuyReservation s order none now) :=
      releaseBuyReservation_posts none
    exact h.1.posts h.2 hs hc.stored hc.same.id hc.frame
      ⟨hp.fills, hp.own, hp.cash, hp.position, hp.totals⟩
  | attempt a hp hok =>
    have hc : Carries cfg (Attempt.Covered cfg) a.state a.order (a.apply cfg) :=
      Attempt.apply_carries hp hok
    obtain ⟨fs, hposts⟩ := Attempt.apply_posts hp.live_ne hok
    exact h.1.posts h.2 hp.stored hc.stored hc.same.id hc.frame hposts

/-- **A run whose fills are covered is exact**: in every state it reaches, cash,
positions and orders are what the recorded fills say. -/
theorem ledger_exact {marks : Dict String ℚ} (h : Reached cfg (Attempt.Covered cfg) marks s) :
    LedgerExact cfg.initialCash s := by
  have hI : LedgerExact cfg.initialCash s ∧ FillsPositive s :=
    h.invariant ⟨LedgerExact.fresh marks, fun f hf => by cases hf⟩ LedgerExact.effect
  exact hI.1

/-- A purchase and a sale in part, both covered, on an account of 1000. -/
theorem ledger_exact_bought_and_sold :
    let cfg : PaperConfig := { initialCash := 1000 }
    let s := run cfg (markAt 100) [marketOrder .buy "a" 2, marketOrder .sell "b" 1]
    s.fills.length = 2 ∧ LedgerExact 1000 s := by
  intro cfg s
  have hok : RunOk cfg (Attempt.Covered cfg) (markAt 100)
      [marketOrder .buy "a" 2, marketOrder .sell "b" 1] := by decide +kernel
  exact ⟨by decide +kernel, ledger_exact (Reached.run hok)⟩

/-- **A refused fill stays recorded.**  On an account of 100 a market order for 1
at the mark 100 is refused for the fee; its fill is in the list, no position is. -/
theorem refused_fill_not_exact :
    let cfg : PaperConfig := { initialCash := 100, slippageRate := 0, spreadRate := 0 }
    let s := run cfg (markAt 100) [marketOrder .buy "a" 1]
    Reached cfg (fun _ => True) (markAt 100) s ∧ ¬ LedgerExact 100 s := by
  intro cfg s
  have hok : RunOk cfg (fun _ => True) (markAt 100) [marketOrder .buy "a" 1] := by decide +kernel
  exact ⟨Reached.run hok, fun h => absurd (h.position "BTC/USDT") (by decide +kernel)⟩

end Paper

end Atlas
