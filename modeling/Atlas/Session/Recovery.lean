import Atlas.Session.Database

/-!
# What a restart recovers of the ledger

A hydrated session has the ledger of the checkpoint if the journal is empty: the same
cash, orders and fills, and the same positions but for their realized profit, which
the checkpoint does not write.  If the journal has an order, the orders come from the
journal, and they come without a risk decision.  Both directions are in
`hydrate_sameLedger_iff`.

## Main definitions

* `SameLedger` — two ledgers agree in cash, positions, orders and fills.
* `Database.Holds` — the checkpoint is one of this ledger.
* `Unrealized` — no open position has realized a profit.

## Main results

* `hydrate_sameLedger_iff` — **when a hydrated session has a given ledger**.

## References

`app/services/paper_session.py`, `app/services/paper_persistence.py`.
-/

namespace Atlas

/-- Two ledgers agree in cash, positions, orders and fills; the fills in any order. -/
structure SameLedger (s t : PaperState) : Prop where
  cash : t.cash = s.cash
  reservedCash : t.reservedCash = s.reservedCash
  positions : ∀ name, t.positions.get? name = s.positions.get? name
  orders : ∀ j, t.orders.get? j = s.orders.get? j
  fills : t.fills.Perm s.fills

/-- No open position has realized a profit or a loss. -/
def PaperState.Unrealized (s : PaperState) : Prop := ∀ p ∈ s.positions.values, p.realizedPnl = 0

instance (s : PaperState) : Decidable s.Unrealized :=
  inferInstanceAs (Decidable (∀ p ∈ s.positions.values, p.realizedPnl = 0))

/-- The positions of a checkpoint are marked at their prices. -/
def Checkpoint.Marked (c : Checkpoint) : Prop :=
  ∀ name r, c.positions.get? name = some r →
    r.unrealizedPnl = (r.currentPrice - r.entryPrice) * r.quantity

/-- The checkpoint was written of this ledger. -/
structure Checkpoint.Of (c : Checkpoint) (s : PaperState) : Prop where
  cash : c.cash = s.cash
  reservedCash : c.reservedCash = s.reservedCash
  positions : ∀ name, c.positions.get? name = (s.positions.get? name).map Position.row
  orders : ∀ j, (Session.restoredOrders c).get? j = s.orders.get? j
  fills : c.fills.Perm (s.fills.map Fill.row)

/-- The checkpoint, or the starting ledger without one, is that of `s`. -/
def Database.Holds (cfg : PaperConfig) (db : Database) (s : PaperState) : Prop :=
  match db.checkpoint with
  | some c => c.Of s
  | none => SameLedger s (Paper.fresh cfg ∅)

namespace Session

variable {settings : RiskSettings} {cfg : PaperConfig} {column : ℚ → ℚ} {s t : PaperState}
  {db : Database} {now : Time}

/-! ### Marks on a ledger without orders -/

theorem setMarkPrice_of_no_orders (horders : s.orders.values = []) (symbol : String) (price : ℚ) :
    Paper.setMarkPrice cfg s symbol price now = Paper.markState s symbol price := by
  simp only [Paper.setMarkPrice, Paper.tryTriggerResting, horders, List.foldl_nil,
    Paper.markState]

/-- Marking every position at its own price changes nothing but the marks. -/
theorem remark_self (horders : s.orders.values = [])
    (hmarked : ∀ name p, s.positions.get? name = some p →
      p.unrealizedPnl = (p.currentPrice - p.entryPrice) * p.quantity) :
    ∃ marks, remark cfg s now = { s with markPrices := marks } := by
  have hloop : ∀ (l : List (String × Position)) (marks : Dict String ℚ),
      (∀ e ∈ l, s.positions.get? e.1 = some e.2) →
      ∃ marks', l.foldl (fun paper e => Paper.setMarkPrice cfg paper e.1 e.2.currentPrice now)
          { s with markPrices := marks } = { s with markPrices := marks' } := by
    intro l
    induction l with
    | nil => exact fun marks _ => ⟨marks, rfl⟩
    | cons e l ih =>
      intro marks hl
      have hself : Paper.markPositions s.positions e.1 e.2.currentPrice = s.positions := by
        refine Paper.markPositions_self fun p hp => ?_
        rw [hl e (List.mem_cons_self ..), Option.some.injEq] at hp
        rw [← hp]
        exact ⟨rfl, hmarked e.1 e.2 (hl e (List.mem_cons_self ..))⟩
      have hsame : Paper.setMarkPrice cfg { s with markPrices := marks } e.1 e.2.currentPrice now =
          { s with markPrices := marks.set e.1 e.2.currentPrice } := by
        rw [setMarkPrice_of_no_orders (by exact horders), Paper.markState]
        simp only [hself]
      rw [List.foldl_cons, hsame]
      exact ih _ fun e' he' => hl e' (List.mem_cons_of_mem _ he')
  exact hloop s.positions.entries s.markPrices fun e he => Dict.mem_entries_iff.mp he

/-! ### Rows -/

theorem position_row {name : String} {p : Position} (hp : p.Marked name)
    (hrealized : p.realizedPnl = 0) : p.row.position name = p := by
  obtain ⟨symbol, quantity, entryPrice, currentPrice, unrealized, realized, openedAt, strategy,
    stopLoss, takeProfit⟩ := p
  obtain ⟨rfl, -, rfl, rfl⟩ := hp
  obtain rfl : realized = 0 := hrealized
  rfl

/-- The positions a checkpoint gives back are those of the ledger when it was written
of them, and none has realized a profit. -/
theorem restoredPositions_iff {c : Checkpoint} (hmarked : Paper.PositionsMarked s) :
    (∀ name, (c.positions.map PositionRow.position).get? name = s.positions.get? name) ↔
      (∀ name, c.positions.get? name = (s.positions.get? name).map Position.row) ∧
        s.Unrealized := by
  simp only [Dict.get?_map]
  constructor
  · intro h
    refine ⟨fun name => ?_, fun p hp => ?_⟩
    · rw [← h name, Option.map_map]
      cases c.positions.get? name <;> rfl
    · obtain ⟨name, hname⟩ := Dict.mem_values_iff.mp hp
      rw [← h name] at hname
      obtain ⟨r, -, rfl⟩ := Option.map_eq_some_iff.mp hname
      rfl
  · rintro ⟨hrows, hrealized⟩ name
    rw [hrows name, Option.map_map]
    cases hp : s.positions.get? name with
    | none => rfl
    | some p =>
      have hzero : p.realizedPnl = 0 := hrealized p (Dict.mem_values_iff.mpr ⟨name, hp⟩)
      exact congrArg some (position_row (hmarked name p hp) hzero)

theorem fill_row {f : Fill} (hf : f.feeAsset = "USDT") : f.row.fill = f := by
  obtain ⟨id, orderId, symbol, side, quantity, price, fee, feeAsset, timestamp⟩ := f
  obtain rfl : feeAsset = "USDT" := hf
  rfl

/-- The fills a checkpoint gives back are those of the ledger when it was written of
them. -/
theorem restoredFills_iff {c : Checkpoint} (hfees : Paper.FeesInQuote s) :
    (c.fills.map FillRow.fill).Perm s.fills ↔ c.fills.Perm (s.fills.map Fill.row) := by
  constructor
  · intro h
    have hrows : ((c.fills.map FillRow.fill).map Fill.row).Perm (s.fills.map Fill.row) := h.map _
    rwa [List.map_map, show Fill.row ∘ FillRow.fill = id from rfl, List.map_id] at hrows
  · intro h
    have hfills : (s.fills.map Fill.row).map FillRow.fill = s.fills := by
      rw [List.map_map]
      exact (List.map_congr_left fun f hf => fill_row (hfees f hf)).trans (List.map_id _)
    exact (h.map FillRow.fill).trans (.of_eq hfills)

/-! ### The hydrated ledger -/

/-- The ledger of a hydrated session, without the rest of the session. -/
theorem hydrate_paper (s : Session) (db : Database) (now : Time) :
    (hydrate cfg s db now).paper =
      let paper := db.checkpoint.elim s.paper fun c => remark cfg (loadLedger s.paper c) now
      let paper := putFills (putOrders paper db.listOrders) db.listFills
      db.checkpoint.elim paper fun c =>
        putOrders (putFills paper (missingFills paper c)) (missingOrders paper c) := by
  obtain ⟨killSwitch, halt, checkpoint, riskState, orders, fills, keys⟩ := db
  cases killSwitch <;> cases halt <;> cases checkpoint <;> cases riskState <;> rfl

theorem putFills_of_nil {paper : PaperState} (h : paper.fills = []) (fills : List Fill) :
    putFills paper fills = { paper with fills := fills } := by
  unfold putFills
  split_ifs with hnil
  · rw [hnil, ← h]
  · rfl

/-- The orders and the fills of an empty journal. -/
theorem putJournal_empty (paper : PaperState) (horders : db.orders = []) (hfills : db.fills = []) :
    putFills (putOrders paper db.listOrders) db.listFills = paper := by
  simp [Database.listOrders, Database.listFills, Database.newest, horders, hfills, putFills,
    putOrders, Dict.setAll]

/-- The positions of a checkpoint are marked at their own prices. -/
theorem remark_checkpoint {c : Checkpoint} (draws : ℕ) (now : Time) (hmarked : c.Marked) :
    ∃ marks, remark cfg (loadLedger (restarted cfg settings draws).paper c) now =
      { loadLedger (restarted cfg settings draws).paper c with markPrices := marks } := by
  refine remark_self rfl fun name p hp => ?_
  obtain ⟨r, hr, rfl⟩ := Option.map_eq_some_iff.mp ((Dict.get?_map ..).symm.trans hp)
  exact hmarked name r hr

/-- **The ledger of a checkpoint**: with an empty journal, everything comes from it. -/
theorem hydrate_checkpoint {c : Checkpoint} (draws : ℕ) (horders : db.orders = [])
    (hfills : db.fills = []) (hc : db.checkpoint = some c) (hmarked : c.Marked) :
    ∃ marks, (hydrate cfg (restarted cfg settings draws) db now).paper =
        { cash := c.cash
          reservedCash := c.reservedCash
          positions := c.positions.map PositionRow.position
          orders := Dict.empty.setAll Order.id (restoredOrders c).values
          fills := c.fills.map FillRow.fill
          idempotencyIndex := (restoredOrders c).values.foldl
            (fun index o => index.set o.idempotencyKey o.id) c.idempotencyIndex
          realizedPnl := c.realizedPnl
          markPrices := marks
          nextUuid := draws } := by
  obtain ⟨marks, hremark⟩ :
      ∃ marks, remark cfg (loadLedger (restarted cfg settings draws).paper c) now = _ :=
    remark_checkpoint draws now hmarked
  refine ⟨marks, ?_⟩
  rw [hydrate_paper, hc]
  simp only [Option.elim, hremark, putJournal_empty _ horders hfills]
  have hnoFills : missingFills
      { loadLedger (restarted cfg settings draws).paper c with markPrices := marks } c =
        c.fills.map FillRow.fill := if_pos rfl
  have hnoOrders : missingOrders
      { loadLedger (restarted cfg settings draws).paper c with markPrices := marks } c =
        (restoredOrders c).values := if_pos rfl
  rw [hnoFills, hnoOrders, putFills_of_nil rfl]
  rfl

theorem putJournal_listed (hlisted : db.listOrders ≠ []) (paper : PaperState) :
    ∃ o ∈ db.listOrders, (putFills (putOrders paper db.listOrders) db.listFills).orders.get? o.id =
      some o := by
  obtain ⟨o, ho, hget⟩ : ∃ o ∈ db.listOrders, (paper.orders.setAll Order.id _).get? o.id = some o :=
    Dict.exists_get?_setAll hlisted paper.orders
  refine ⟨o, ho, ?_⟩
  unfold putFills
  split_ifs <;> exact hget

/-- With an order in the journal, an order of the ledger has no risk decision. -/
theorem hydrate_undecided (s : Session) (now : Time) (horders : db.orders ≠ []) :
    ∃ j o, (hydrate cfg s db now).paper.orders.get? j = some o ∧ ¬ o.Decided := by
  -- the newest 500 orders are listed, so of a non-empty journal at least one
  have hlisted : db.listOrders ≠ [] := by
    intro hnil
    have hlength : db.listOrders.length = min 500 db.orders.length := by
      simp [Database.listOrders, Database.newest]
    rw [hnil, List.length_nil] at hlength
    have hpos : 0 < db.orders.length := List.length_pos_iff.mpr horders
    omega
  rw [hydrate_paper]
  simp only
  generalize db.checkpoint.elim s.paper _ = paper
  obtain ⟨o, ho, hget⟩ := putJournal_listed hlisted paper
  have hundecided : ¬ o.Decided := by
    obtain ⟨r, -, rfl⟩ := List.mem_map.mp ho
    simp [Order.Decided, Order.listed]
  refine ⟨o.id, o, ?_, hundecided⟩
  generalize putFills (putOrders paper db.listOrders) db.listFills = paper at hget
  cases db.checkpoint with
  | none => exact hget
  | some c =>
    -- orders from the journal keep those of the checkpoint out
    have hsome : paper.orders.entries ≠ [] := by
      intro hnil
      have hmem : (o.id, o) ∈ paper.orders.entries := Dict.mem_entries_iff.mpr hget
      rw [hnil] at hmem
      cases hmem
    simp only [Option.elim, missingOrders, if_neg hsome, putOrders, Dict.setAll, List.foldl_nil]
    unfold putFills
    split_ifs <;> exact hget

/-- The ledger of a checkpoint is `s` if the checkpoint is one of `s`, whose open
positions have realized nothing. -/
theorem sameLedger_checkpoint_iff {c : Checkpoint} (hs : Paper.Sound s)
    (hcash : t.cash = c.cash) (hreserved : t.reservedCash = c.reservedCash)
    (hpositions : ∀ name, t.positions.get? name =
      (c.positions.map PositionRow.position).get? name)
    (horders : ∀ j, t.orders.get? j = (restoredOrders c).get? j)
    (hfills : t.fills = c.fills.map FillRow.fill) :
    SameLedger s t ↔ s.Unrealized ∧ c.Of s := by
  constructor
  · intro h
    obtain ⟨hrows, hrealized⟩ := (restoredPositions_iff hs.marked).mp fun name =>
      (hpositions name).symm.trans (h.positions name)
    refine ⟨hrealized, hcash.symm.trans h.cash, hreserved.symm.trans h.reservedCash, hrows, ?_, ?_⟩
    · exact fun j => (horders j).symm.trans (h.orders j)
    · exact (restoredFills_iff hs.fees).mp (hfills ▸ h.fills)
  · rintro ⟨hrealized, hof⟩
    refine ⟨hcash.trans hof.cash, hreserved.trans hof.reservedCash, fun name => ?_, fun j => ?_, ?_⟩
    · exact (hpositions name).trans
        ((restoredPositions_iff hs.marked).mpr ⟨hof.positions, hrealized⟩ name)
    · exact (horders j).trans (hof.orders j)
    · rw [hfills]
      exact (restoredFills_iff hs.fees).mpr hof.fills

/-- **When a hydrated session has a given ledger.**  The journal is empty, no open
position has realized a profit, and the checkpoint is one of this ledger. -/
theorem hydrate_sameLedger_iff (draws : ℕ) (hs : Paper.Sound s)
    (hjournal : db.orders = [] → db.fills = [])
    (hmarked : ∀ c, db.checkpoint = some c → c.Marked) :
    SameLedger s (hydrate cfg (restarted cfg settings draws) db now).paper ↔
      db.orders = [] ∧ s.Unrealized ∧ db.Holds cfg s := by
  by_cases horders : db.orders = []
  · rw [eq_true horders, true_and, Database.Holds]
    cases hc : db.checkpoint with
    | none =>
      have heq : (hydrate cfg (restarted cfg settings draws) db now).paper =
          (restarted cfg settings draws).paper := by
        rw [hydrate_paper, hc]
        exact putJournal_empty _ horders (hjournal horders)
      rw [heq]
      constructor
      · intro h
        refine ⟨fun p hp => ?_, h.cash, h.reservedCash, h.positions, h.orders, h.fills⟩
        obtain ⟨name, hname⟩ := Dict.mem_values_iff.mp hp
        rw [← h.positions name] at hname
        cases hname
      · rintro ⟨-, h⟩
        exact ⟨h.cash, h.reservedCash, h.positions, h.orders, h.fills⟩
    | some c =>
      obtain ⟨marks, heq⟩ : ∃ marks, (hydrate cfg (restarted cfg settings draws) db now).paper = _ :=
        hydrate_checkpoint draws horders (hjournal horders) hc (hmarked c hc)
      rw [heq]
      refine sameLedger_checkpoint_iff hs rfl rfl (fun _ => rfl) (fun j => ?_) rfl
      exact Dict.get?_setAll_values (Dict.key_of_get?_setAll fun h => by cases h) j
  · -- what comes from the journal carries no risk decision, and every order of `s` has one
    obtain ⟨j, o, ho, hundecided⟩ :
        ∃ j o, (hydrate cfg (restarted cfg settings draws) db now).paper.orders.get? j = some o ∧ _ :=
      hydrate_undecided _ now horders
    refine ⟨fun h => ?_, fun h => absurd h.1 horders⟩
    rw [h.orders j] at ho
    exact absurd (hs.decided j o ho) hundecided

end Session

end Atlas
