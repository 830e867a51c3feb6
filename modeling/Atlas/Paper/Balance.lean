import Atlas.Paper.Completion

/-!
# What a whole fill leaves

A fill of all that is left of an order ends it, filled or failed, and an order that has
ended holds nothing.  So the cash, the reserved cash and the figures of the position after
such a fill are told by those before it and by the order: two ledgers that agree in them
agree in them afterwards, whatever else they record and whenever the fills are made.

They may differ by cash that is locked for another order in one of them.  Then they still
differ by it afterwards, if no BUY is filled that the cash would not pay for without it.

## Main definitions

* `Order.share` — the part of its reservation that a fill of an order frees.
* `Position.figures`, `SameBalance` — what the two ledgers agree in.
* `SameBut` — the same, but for a lock.
* `Attempt.Alike` — two attempts on the same terms, in such ledgers.
* `Spared` — a sweep never draws on the lock.

## Main results

* `Attempt.freed_eq_share` — the reserved cash always covers the share.
* `Attempt.apply_whole_cash` — the cash after a whole fill.
* `Attempt.Alike.apply` — **whole fills on the same terms leave the same.**
* `restingLoop_sameBut` — so does a sweep over the same orders.

## References

`app/execution/paper/engine.py`.
-/

namespace Atlas

/-- The part of its reservation that a fill of the order frees: the share of the quantity
in what was reserved, at most what remains. -/
def Order.share (order : Order) (fillQty : ℚ) : ℚ :=
  let totalReserved := order.metadata.reservedNotional.getD 0
  if 0 < totalReserved ∧ 0 < order.quantity then
    min (quantize8 (totalReserved * fillQty / order.quantity)) order.reservation
  else 0

/-- The figures of a position. -/
def Position.figures (p : Position) : ℚ × ℚ × ℚ × ℚ × ℚ :=
  (p.quantity, p.entryPrice, p.currentPrice, p.unrealizedPnl, p.realizedPnl)

namespace Paper

variable {cfg : PaperConfig} {s s' : PaperState} {order : Order} {symbol : String} {mark : ℚ}
  {now now' : Time}

/-! ### The balance after a whole fill -/

/-- **The share is freed in full**: the reserved cash covers what the order holds. -/
theorem Attempt.freed_eq_share {a : Attempt} (hb : Backed a.state) (hs : Stored a.state a.order)
    (hq : 0 ≤ a.fillQty) : a.freed = a.order.share a.fillQty := by
  have hfunded : a.order.Funded := hb.funded hs
  have hreserved : a.order.reservation ≤ a.state.reservedCash := hb.le hs
  simp only [freed, Order.share]
  by_cases hshare : 0 < a.order.metadata.reservedNotional.getD 0 ∧ 0 < a.order.quantity
  · have hpos : 0 ≤ quantize8 (a.order.metadata.reservedNotional.getD 0 * a.fillQty /
        a.order.quantity) :=
      quantize8_nonneg (div_nonneg (mul_nonneg hshare.1.le hq) hshare.2.le)
    rw [if_pos hshare]
    by_cases hopen : a.order.Reserving
    · rw [if_pos ⟨hshare.1, hopen, hshare.2⟩]
      simp only [releaseAmount, hfunded.remaining hopen, Option.elim]
      split_ifs with hzero
      · -- nothing remains, so nothing is freed
        rw [le_antisymm hzero hfunded.reservation_nonneg, min_eq_right hpos]
      · exact min_eq_left ((min_le_right _ _).trans hreserved)
    · have hzero : a.order.reservation = 0 := if_neg hopen
      rw [if_neg fun h => hopen h.2.1, hzero, min_eq_right hpos]
  · rw [if_neg fun h => hshare ⟨h.1, h.2.2⟩, if_neg hshare]

/-- What a fill that is applied adds to the cash. -/
def Attempt.net (cfg : PaperConfig) (a : Attempt) : ℚ :=
  match a.order.side with
  | .buy => -a.cost cfg
  | .sell => a.price * a.fillQty - a.fee cfg

/-- A whole fill ends its order: filled where it is covered, and failed where it is not. -/
theorem Attempt.apply_whole_status {a : Attempt} (hp : a.Proper) (hpos : 0 < a.fillQty)
    (hle : a.total ≤ a.fillQty) :
    (a.apply cfg).1.status = (if a.Covered cfg then .filled else .failed) ∧
      (a.apply cfg).1.totals =
        (if a.Covered cfg then a.order.totals.add (a.fill cfg) else a.order.totals) := by
  have hbooked : a.Booked cfg (a.apply cfg) := apply_booked hp.live_ne
  by_cases hcov : a.Covered cfg
  · rw [if_pos hcov, if_pos hcov]
    refine ⟨(apply_whole hp.live_ne hle hpos hcov).1, ?_⟩
    cases hbooked with
    | refused _ hfail => exact absurd hcov (hfail.resolve_left (not_le.mpr hpos))
    | bought _ _ _ _ _ _ htotals _ => exact htotals
    | sold _ _ _ _ _ _ _ _ _ htotals _ => exact htotals
  · rw [if_neg hcov, if_neg hcov]
    refine ⟨apply_refused hp.live_ne (mt And.left hcov), ?_⟩
    cases hbooked with
    | refused books _ => exact books.totals
    | bought _ _ _ _ _ _ _ h => exact absurd h hcov
    | sold _ _ _ _ _ _ _ _ _ _ h => exact absurd h hcov

/-- The cash after a fill that ends its order: the reservation comes back, and a fill that
is applied is paid for, or paid. -/
theorem Attempt.apply_ended_cash {a : Attempt} (hp : a.Proper) (hb : Backed a.state)
    (hpos : 0 < a.fillQty) (hterm : (a.apply cfg).1.status.Terminal) :
    (a.apply cfg).2.reservedCash = a.state.reservedCash - a.order.reservation ∧
      (a.apply cfg).2.cash = a.state.cash + a.order.reservation +
        (if a.Covered cfg then a.net cfg else 0) := by
  obtain ⟨hbalanced, hsettled⟩ := apply_balanced cfg hp.live_ne (hb.funded hp.stored)
    (hb.le hp.stored)
  have hnone : (a.apply cfg).1.reservation = 0 := if_neg (hsettled (.inl hpos) hterm)
  have hreserved : (a.apply cfg).2.reservedCash =
      a.state.reservedCash - a.order.reservation := by
    rw [hbalanced.reserved, hnone, add_zero]
  refine ⟨hreserved, ?_⟩
  -- the capital says what the two have together
  have hbooked : a.Booked cfg (a.apply cfg) := apply_booked hp.live_ne
  cases hbooked with
  | refused books hfail =>
    have hno : ¬a.Covered cfg := hfail.resolve_left (not_le.mpr hpos)
    rw [if_neg hno]
    linarith [books.capital]
  | bought _ hside _ hcapital _ _ _ hcov =>
    rw [if_pos hcov, net, hside]
    linarith
  | sold _ _ hside _ _ _ hcapital _ _ _ hcov =>
    rw [if_pos hcov, net, hside]
    linarith

/-- The cash after a whole fill. -/
theorem Attempt.apply_whole_cash {a : Attempt} (hp : a.Proper) (hb : Backed a.state)
    (hpos : 0 < a.fillQty) (hle : a.total ≤ a.fillQty) :
    (a.apply cfg).2.reservedCash = a.state.reservedCash - a.order.reservation ∧
      (a.apply cfg).2.cash = a.state.cash + a.order.reservation +
        (if a.Covered cfg then a.net cfg else 0) := by
  obtain ⟨hstatus, -⟩ : (a.apply cfg).1.status = _ ∧ _ := apply_whole_status hp hpos hle
  refine apply_ended_cash hp hb hpos ?_
  rw [hstatus]
  split_ifs <;> decide

/-! ### Ledgers with the same balance -/

/-- The figures of the position in a symbol. -/
def figures (s : PaperState) (symbol : String) : Option (ℚ × ℚ × ℚ × ℚ × ℚ) :=
  (s.positions.get? symbol).map Position.figures

/-- The same cash, the same reserved cash, and positions with the same figures. -/
structure SameBalance (s s' : PaperState) : Prop where
  cash : s'.cash = s.cash
  reservedCash : s'.reservedCash = s.reservedCash
  figures : ∀ symbol, figures s' symbol = figures s symbol

theorem SameBalance.refl (s : PaperState) : SameBalance s s := ⟨rfl, rfl, fun _ => rfl⟩

theorem SameBalance.symm (h : SameBalance s s') : SameBalance s' s :=
  ⟨h.cash.symm, h.reservedCash.symm, fun symbol => (h.figures symbol).symm⟩

theorem SameBalance.trans {s'' : PaperState} (h : SameBalance s s') (h' : SameBalance s' s'') :
    SameBalance s s'' :=
  ⟨h'.cash.trans h.cash, h'.reservedCash.trans h.reservedCash,
    fun symbol => (h'.figures symbol).trans (h.figures symbol)⟩

/-- The same balance, but for `lock` which the second ledger has moved from the cash to the
reserved cash. -/
structure SameBut (lock : ℚ) (s s' : PaperState) : Prop where
  cash : s'.cash = s.cash - lock
  reservedCash : s'.reservedCash = s.reservedCash + lock
  figures : ∀ symbol, figures s' symbol = figures s symbol

theorem SameBalance.sameBut (h : SameBalance s s') : SameBut 0 s s' :=
  ⟨h.cash.trans (sub_zero _).symm, h.reservedCash.trans (add_zero _).symm, h.figures⟩

theorem SameBut.sameBalance (h : SameBut 0 s s') : SameBalance s s' :=
  ⟨h.cash.trans (sub_zero _), h.reservedCash.trans (add_zero _), h.figures⟩

/-- The figures after a purchase are told by those before it. -/
theorem boughtPosition_figures {p p' : Option Position} {order order' : Order} {qty price : ℚ}
    (h : p'.map Position.figures = p.map Position.figures) :
    (boughtPosition p' order' qty price now').figures =
      (boughtPosition p order qty price now).figures := by
  cases p with
  | none =>
    rw [Option.map_none, Option.map_eq_none_iff] at h
    rw [h]
    rfl
  | some p =>
    obtain ⟨p', rfl, hsame⟩ := Option.map_eq_some_iff.mp h
    simp only [Position.figures, Prod.mk.injEq] at hsame
    simp [boughtPosition, Position.figures, hsame]

/-- The figures after a sale are told by those before it. -/
theorem soldPositions_figures {positions positions' : Dict String Position} {p p' : Position}
    (h : ∀ name, (positions'.get? name).map Position.figures =
      (positions.get? name).map Position.figures)
    (hp : p'.figures = p.figures) (qty price fee : ℚ) (name : String) :
    ((soldPositions positions' symbol p' qty price fee).get? name).map Position.figures =
      ((soldPositions positions symbol p qty price fee).get? name).map Position.figures := by
  simp only [Position.figures, Prod.mk.injEq] at hp
  simp only [soldPositions, hp.1]
  split_ifs with hzero
  · simp only [Dict.get?_erase]
    split_ifs
    · rfl
    · exact h name
  · simp only [Dict.get?_set]
    split_ifs
    · simp [Position.figures, realizedBy, hp]
    · exact h name

/-- The quantity held is one of the figures. -/
theorem held_eq (s : PaperState) (symbol : String) :
    held s symbol = ((figures s symbol).map Prod.fst).getD 0 := by
  rw [held, figures]
  cases s.positions.get? symbol <;> rfl

/-- The same quantity is held in both. -/
theorem SameBut.held {lock : ℚ} (h : SameBut lock s s') (symbol : String) :
    held s' symbol = held s symbol := by
  rw [held_eq, held_eq, h.figures]

/-- A BUY that the ledger covers is covered without the lock. -/
def Attempt.Spares (cfg : PaperConfig) (lock : ℚ) (a : Attempt) : Prop :=
  a.order.side = .buy → a.cost cfg ≤ a.state.cash + a.freed →
    a.cost cfg ≤ a.state.cash - lock + a.freed

instance (lock : ℚ) (a : Attempt) : Decidable (a.Spares cfg lock) :=
  inferInstanceAs (Decidable (_ → _ → _))

theorem Attempt.spares_zero (a : Attempt) : a.Spares cfg 0 := by
  intro _ hcov
  rwa [sub_zero]

/-- Two attempts on the same terms, in ledgers with the same balance but for a lock. -/
structure Attempt.Alike (lock : ℚ) (a b : Attempt) : Prop where
  balance : SameBut lock a.state b.state
  symbol : b.order.symbol = a.order.symbol
  side : b.order.side = a.order.side
  quantity : b.order.quantity = a.order.quantity
  totals : b.order.totals = a.order.totals
  metadata : b.order.metadata = a.order.metadata
  fillQty : b.fillQty = a.fillQty
  total : b.total = a.total
  price : b.price = a.price
  isMaker : b.isMaker = a.isMaker

namespace Attempt.Alike

variable {lock : ℚ} {a b : Attempt}

theorem fee (h : a.Alike lock b) (cfg : PaperConfig) : b.fee cfg = a.fee cfg := by
  rw [Attempt.fee, h.fillQty, h.price, h.isMaker, Attempt.fee]

theorem cost (h : a.Alike lock b) (cfg : PaperConfig) : b.cost cfg = a.cost cfg := by
  rw [Attempt.cost, h.fillQty, h.price, h.fee, Attempt.cost]

theorem net (h : a.Alike lock b) (cfg : PaperConfig) : b.net cfg = a.net cfg := by
  rw [Attempt.net, h.side, h.cost, h.fee, h.fillQty, h.price, Attempt.net]

theorem reservation (h : a.Alike lock b) : b.order.reservation = a.order.reservation := by
  simp only [Order.reservation, Order.Reserving, h.metadata]

theorem share (h : a.Alike lock b) (fillQty : ℚ) :
    b.order.share fillQty = a.order.share fillQty := by
  rw [Order.share, h.metadata, h.quantity, h.reservation, Order.share]

/-- The same fills are covered, where the lock is spared. -/
theorem covered_iff (h : a.Alike lock b) (hlock : 0 ≤ lock) (hspared : a.Spares cfg lock)
    (ha : a.Proper) (hb : b.Proper) (hba : Backed a.state) (hbb : Backed b.state)
    (hpos : 0 < a.fillQty) : b.Covered cfg ↔ a.Covered cfg := by
  have hpos' : 0 < b.fillQty := h.fillQty ▸ hpos
  have hfreed : b.freed = a.freed := by
    rw [freed_eq_share hbb hb.stored hpos'.le, freed_eq_share hba ha.stored hpos.le, h.share,
      h.fillQty]
  simp only [Covered, or_iff_right (not_le.mpr hpos), h.side, h.cost, hfreed, h.balance.cash,
    h.fillQty, h.symbol, h.balance.held]
  cases hside : a.order.side with
  | buy => exact ⟨fun hcov => by linarith, hspared hside⟩
  | sell => exact Iff.rfl

/-- The positions come out with the same figures. -/
theorem figures (h : a.Alike lock b) (hcov : b.Covered cfg ↔ a.Covered cfg) (ha : a.Proper)
    (hb : b.Proper) (hpos : 0 < a.fillQty) (symbol : String) :
    Paper.figures (b.apply cfg).2 symbol = Paper.figures (a.apply cfg).2 symbol := by
  have hpos' : 0 < b.fillQty := h.fillQty ▸ hpos
  have hbefore : ∀ name, (b.state.positions.get? name).map Position.figures =
      (a.state.positions.get? name).map Position.figures := h.balance.figures
  have hbooked : a.Booked cfg (a.apply cfg) := apply_booked ha.live_ne
  have hbooked' : b.Booked cfg (b.apply cfg) := apply_booked hb.live_ne
  simp only [Paper.figures]
  cases hbooked with
  | refused books hfail =>
    have hno : ¬a.Covered cfg := hfail.resolve_left (not_le.mpr hpos)
    cases hbooked' with
    | refused books' _ => rw [books.positions, books'.positions, hbefore]
    | bought _ _ _ _ _ _ _ hcov' => exact absurd (hcov.mp hcov') hno
    | sold _ _ _ _ _ _ _ _ _ _ hcov' => exact absurd (hcov.mp hcov') hno
  | bought _ hside _ _ hpositions _ _ hcov' =>
    cases hbooked' with
    | refused _ hfail => exact absurd (hcov.mpr hcov') (hfail.resolve_left (not_le.mpr hpos'))
    | bought _ _ _ _ hpositions' _ _ _ =>
      rw [hpositions, hpositions', h.symbol, h.fillQty, h.price, Dict.get?_set, Dict.get?_set]
      split_ifs
      · exact congrArg some (boughtPosition_figures (hbefore _))
      · exact hbefore symbol
    | sold _ _ hside' _ _ _ _ _ _ _ _ => rw [h.side, hside] at hside'; cases hside'
  | sold p _ hside hp _ _ _ hpositions _ _ hcov' =>
    cases hbooked' with
    | refused _ hfail => exact absurd (hcov.mpr hcov') (hfail.resolve_left (not_le.mpr hpos'))
    | bought _ hside' _ _ _ _ _ _ => rw [h.side, hside] at hside'; cases hside'
    | sold p' _ _ hp' _ _ _ hpositions' _ _ _ =>
      have hsame : p'.figures = p.figures := by
        have hget := hbefore a.order.symbol
        rw [← h.symbol, hp', h.symbol, hp, Option.map_some, Option.map_some] at hget
        exact Option.some.inj hget
      rw [hpositions, hpositions', h.symbol, h.fillQty, h.price, h.fee]
      exact soldPositions_figures hbefore hsame _ _ _ symbol

/-- **Whole fills on the same terms leave the same**: the same balance but for the lock, and
of the two orders the same status and the same totals. -/
theorem apply (h : a.Alike lock b) (hlock : 0 ≤ lock) (hspared : a.Spares cfg lock)
    (ha : a.Proper) (hb : b.Proper) (hba : Backed a.state) (hbb : Backed b.state)
    (hpos : 0 < a.fillQty) (hle : a.total ≤ a.fillQty) :
    SameBut lock (a.apply cfg).2 (b.apply cfg).2 ∧
      (b.apply cfg).1.status = (a.apply cfg).1.status ∧
      (b.apply cfg).1.totals = (a.apply cfg).1.totals := by
  have hpos' : 0 < b.fillQty := h.fillQty ▸ hpos
  have hle' : b.total ≤ b.fillQty := by rw [h.total, h.fillQty]; exact hle
  have hcov : b.Covered cfg ↔ a.Covered cfg := h.covered_iff hlock hspared ha hb hba hbb hpos
  have hadd : b.order.totals.add (b.fill cfg) = a.order.totals.add (a.fill cfg) := by
    simp only [Totals.add, h.totals, fill, h.fee, h.fillQty, h.price]
  obtain ⟨hstatus, htotals⟩ : (a.apply cfg).1.status = _ ∧ _ := apply_whole_status ha hpos hle
  obtain ⟨hstatus', htotals'⟩ : (b.apply cfg).1.status = _ ∧ _ := apply_whole_status hb hpos' hle'
  obtain ⟨hreserved, hcash⟩ : (a.apply cfg).2.reservedCash = _ ∧ _ :=
    apply_whole_cash ha hba hpos hle
  obtain ⟨hreserved', hcash'⟩ : (b.apply cfg).2.reservedCash = _ ∧ _ :=
    apply_whole_cash hb hbb hpos' hle'
  refine ⟨⟨?_, ?_, h.figures hcov ha hb hpos⟩, ?_, ?_⟩
  · simp only [hcash, hcash', h.balance.cash, h.reservation, h.net, hcov]
    ring
  · rw [hreserved, hreserved', h.balance.reservedCash, h.reservation]
    ring
  · simp only [hstatus, hstatus', hcov]
  · rw [htotals, htotals', hadd, h.totals]
    simp only [hcov]

end Attempt.Alike

/-! ### A sweep -/

/-- Two marks make attempts on the same terms on an order. -/
theorem restingAttempt_alike {lock : ℚ} {a : Attempt} (h : SameBut lock s s')
    (ha : restingAttempt cfg symbol mark now s order = some a) :
    ∃ b, restingAttempt cfg symbol mark now' s' order = some b ∧ a.Alike lock b := by
  obtain ⟨fillQty, hfill, rfl⟩ := Option.map_eq_some_iff.mp ha
  exact ⟨_, Option.map_eq_some_iff.mpr ⟨fillQty, hfill, rfl⟩, h, rfl, rfl, rfl, rfl, rfl, rfl, rfl,
    rfl, rfl⟩

/-- What is left of an order is filled, with the whole fraction. -/
theorem restingAttempt_whole (hone : cfg.partialFillFraction = 1) {a : Attempt}
    (ha : restingAttempt cfg symbol mark now s order = some a) :
    0 < a.fillQty ∧ a.total = a.fillQty := by
  obtain ⟨fillQty, hfill, rfl⟩ := Option.map_eq_some_iff.mp ha
  obtain ⟨-, -, hpos, hq⟩ := restingFill_eq_some cfg hfill
  exact ⟨hpos, (hq.trans (restingQty_one hone _)).symm⟩

/-- In a sweep over these orders every BUY is covered without the lock, if at all. -/
def Spared (cfg : PaperConfig) (symbol : String) (mark : ℚ) (now : Time) (lock : ℚ) :
    List Order → PaperState → Prop
  | [], _ => True
  | order :: orders, s =>
      (∀ a ∈ restingAttempt cfg symbol mark now s order, a.Spares cfg lock) ∧
        Spared cfg symbol mark now lock orders (triggerOne cfg symbol mark now s order)

instance decidableSpared (lock : ℚ) :
    ∀ (orders : List Order) (s : PaperState),
      Decidable (Spared cfg symbol mark now lock orders s)
  | [], _ => .isTrue trivial
  | order :: orders, s =>
      have := decidableSpared lock orders (triggerOne cfg symbol mark now s order)
      inferInstanceAs (Decidable (_ ∧ _))

/-- Nothing is locked. -/
theorem spared_zero (orders : List Order) (s : PaperState) :
    Spared cfg symbol mark now 0 orders s := by
  induction orders generalizing s with
  | nil => trivial
  | cons order orders ih => exact ⟨fun a _ => a.spares_zero, ih _⟩

/-- **A sweep over the same orders** leaves the same balance but for the lock, if it never
draws on it, with the whole fraction. -/
theorem restingLoop_sameBut (hone : cfg.partialFillFraction = 1) {lock : ℚ} (hlock : 0 ≤ lock)
    {orders : List Order} :
    ∀ {s s' : PaperState}, (orders.map Order.id).Nodup → (∀ o ∈ orders, Stored s o) →
      (∀ o ∈ orders, Stored s' o) → Keyed s → Keyed s' → Backed s → Backed s' →
      Spared cfg symbol mark now lock orders s → SameBut lock s s' →
      SameBut lock (orders.foldl (triggerOne cfg symbol mark now) s)
        (orders.foldl (triggerOne cfg symbol mark now') s') := by
  induction orders with
  | nil => exact fun _ _ _ _ _ _ _ _ h => h
  | cons o orders ih =>
    intro s s' hids hs hs' hk hk' hb hb' hspared h
    obtain ⟨heff, hlater⟩ :
        Effects cfg (fun _ => True) s (triggerOne cfg symbol mark now s o) ∧ _ :=
      triggerOne_carries hids hs fun _ _ => trivial
    obtain ⟨heff', hlater'⟩ :
        Effects cfg (fun _ => True) s' (triggerOne cfg symbol mark now' s' o) ∧ _ :=
      triggerOne_carries hids hs' fun _ _ => trivial
    refine ih (List.nodup_cons.mp hids).2 hlater hlater' (heff.keyed hk) (heff'.keyed hk')
      (heff.invariant Backed.effect hk hb) (heff'.invariant Backed.effect hk' hb') hspared.2 ?_
    have hso : Stored s o := hs o (List.mem_cons_self ..)
    have hso' : Stored s' o := hs' o (List.mem_cons_self ..)
    rw [triggerOne_eq, triggerOne_eq]
    cases ha : restingAttempt cfg symbol mark now s o with
    | none =>
      have hnone : restingAttempt cfg symbol mark now' s' o = none :=
        Option.map_eq_none_iff.mpr (Option.map_eq_none_iff.mp ha)
      rw [hnone]
      exact h
    | some a =>
      -- the two attempts are on the same order, for all that is left of it
      obtain ⟨b, hmade, halike⟩ :
          ∃ b, restingAttempt cfg symbol mark now' s' o = some b ∧ a.Alike lock b :=
        restingAttempt_alike h ha
      obtain ⟨hpos, hwhole⟩ := restingAttempt_whole hone ha
      obtain ⟨hstate, -, hp⟩ := restingAttempt_proper hso ha
      obtain ⟨hstate', -, hp'⟩ := restingAttempt_proper hso' hmade
      rw [hmade]
      exact (halike.apply hlock (hspared.1 a ha) hp hp' (hstate ▸ hb) (hstate' ▸ hb') hpos
        hwhole.le).1

/-- A mark moves the figures of its position, and nothing else of the balance. -/
theorem markState_sameBut {lock : ℚ} (h : SameBut lock s s') (symbol : String) (mark : ℚ) :
    SameBut lock (markState s symbol mark) (markState s' symbol mark) where
  cash := h.cash
  reservedCash := h.reservedCash
  figures := fun name => by
    have hbefore : ∀ name, (s'.positions.get? name).map Position.figures =
        (s.positions.get? name).map Position.figures := h.figures
    simp only [figures, markState, markPositions]
    have hat := hbefore symbol
    cases hp : s.positions.get? symbol with
    | none =>
      rw [hp, Option.map_none, Option.map_eq_none_iff] at hat
      rw [hat]
      exact hbefore name
    | some p =>
      rw [hp, Option.map_some] at hat
      obtain ⟨p', hp', hsame⟩ := Option.map_eq_some_iff.mp hat
      simp only [Position.figures, Prod.mk.injEq] at hsame
      simp only [hp', Dict.get?_set]
      split_ifs
      · simp [Position.figures, hsame]
      · exact hbefore name

end Paper

end Atlas
