import Atlas.Session.DurableSwitch
import Atlas.Session.Steady

/-!
# Restart transparency

A service is stopped after a completed call.  A new process hydrates its session from the
database, loads the processed keys, and creates its orchestrator anew.  It goes on with the
remaining calls, and so would the old process; `restart_transparent` says when the two
decide the same.

Some of what a decision reads is in the database: the funds, the fills, the seen keys, the
flags.  The rest is lost.  Of a position the realized profit is lost, and the first load
marks it anew, at the last close before the restart.  Of the orchestrator the window is
loaded again, as far as the loads reach back; the bars held, the losses in a row, the
highest equity and the fingerprints acted on start afresh.  The risk engine forgets the
times of its orders, and its flag of the reconciliation is the one from before the last
verdict.  `NothingLost` says that none of this makes a difference.

## Main definitions

* `Persisted` — the rows of a runtime are those of its session.
* `Service.restarted` — the service of the new process.
* `NothingLost` — what is lost makes no difference to the remaining calls.

## Main results

* `hydrate_funds`, `hydrate_engine` — what a restart makes of the ledger and of the risk
  engine.
* `restart_transparent` — **the same decisions with and without the restart**.
* `restart_not_transparent` — a strategy that counts bars exits in the old process only.

## References

`app/services/paper_session.py`, `app/services/trading_orchestrator.py`,
`app/services/paper_cycle.py`.
-/

namespace Atlas

open Paper Session

variable {d : Deployment} {registry : Registry} {failClosed : Bool}
  {strategyId symbol sessionId : String} {window : List Candle} {s : Session} {o : Orchestrator}
  {svc : Service} {call : CycleCall} {input : CycleInput} {db : Database} {now : Time}
  {calls : List CycleCall}

/-! ### What a completed call leaves in the database -/

/-- The rows are those of the session, but for the flag of the reconciliation, which has
its verdict after the rows are written. -/
structure Persisted (d : Deployment) (r : Runtime) : Prop where
  checkpoint : r.db.checkpoint = some r.session.checkpoint
  riskState : ∃ healthy, r.db.riskState =
    some { r.session.riskRow d.column with reconciliationHealthy := healthy }
  killSwitch : r.db.killSwitch = some r.session.killSwitchEnabled
  keys : r.db.cycleKeys = r.processed

theorem cycle_persisted (r : Runtime) (input : CycleInput) :
    Persisted d (Runtime.cycle d r input) := by
  have hclosing : ∀ db : Database,
      let db' := (Runtime.closingCommits d r input).foldl (Database.commit d.column) db
      db'.checkpoint = some (Runtime.cycleSession d r input).checkpoint ∧
        db'.riskState = some ((Runtime.cycleSession d r input).riskRow d.column) ∧
        db'.killSwitch = some (Runtime.cycleSession d r input).killSwitchEnabled ∧
        db'.cycleKeys = input.key :: r.processed := by
    intro db
    simp only [Runtime.closingCommits, Runtime.verdictCommits]
    split_ifs <;> exact ⟨rfl, rfl, rfl, rfl⟩
  obtain ⟨hcheckpoint, hrow, hswitch, hkeys⟩ := hclosing
    ((Runtime.journalCommits d r input).foldl (Database.commit d.column) r.db)
  have hsession : (Runtime.cycle d r input).session.checkpoint =
        (Runtime.cycleSession d r input).checkpoint ∧
      (Runtime.cycle d r input).session.killSwitchEnabled =
        (Runtime.cycleSession d r input).killSwitchEnabled ∧
      ∃ healthy, (Runtime.cycleSession d r input).riskRow d.column =
        { (Runtime.cycle d r input).session.riskRow d.column with
          reconciliationHealthy := healthy } := by
    simp only [Runtime.cycle, Runtime.reconciledSession]
    split_ifs <;> exact ⟨rfl, rfl, _, rfl⟩
  obtain ⟨hsame, hkill, healthy, hriskRow⟩ := hsession
  have hdb : (Runtime.cycle d r input).db = (Runtime.closingCommits d r input).foldl
      (Database.commit d.column) ((Runtime.journalCommits d r input).foldl
        (Database.commit d.column) r.db) := List.foldl_append ..
  refine ⟨?_, ⟨healthy, ?_⟩, ?_, ?_⟩
  · rw [hdb, hcheckpoint, hsame]
  · rw [hdb, hrow, hriskRow]
  · rw [hdb, hswitch, hkill]
  · rw [hdb, hkeys]
    rfl

/-- A completed call has evaluated its candle: its state is in the database, and the
orchestrator is cached. -/
theorem complete_persisted (hcall : call.Of strategyId symbol sessionId)
    (h : (runCycle d registry failClosed svc call).1.ending = .complete) :
    Persisted d (runCycle d registry failClosed svc call).2.runtime ∧
      ∃ o, (runCycle d registry failClosed svc call).2.orchestrators.get?
        (sessionKey symbol strategyId) = some o := by
  have hgoes : call.Goes d registry svc (runCycle d registry failClosed svc call) :=
    runCycle_goes ..
  generalize runCycle d registry failClosed svc call = r at h hgoes ⊢
  cases hgoes with
  | halted _ => cases h
  | noCandles _ _ => cases h
  | replayed target _ _ _ => cases h
  | locked target ending _ _ _ hending _ => rcases hending with rfl | rfl <;> cases h
  | evaluated target _ _ _ =>
    obtain ⟨input, -, hruntime⟩ := evaluateCandle_runtime d registry (svc.warmed d call) call
      (svc.primed d call).orchestrator target
    obtain ⟨o, hset, -⟩ := @evaluateCandle_window d registry (svc.warmed d call) call
      (svc.primed d call).orchestrator target
    rw [hruntime, hset]
    exact ⟨cycle_persisted _ input, o, hcall.stored o⟩

/-! ### What a restart reads -/

theorem Database.mem_listOrders {order : Order} (h : order ∈ db.listOrders) :
    ∃ row ∈ db.orders, order = row.listed := by
  obtain ⟨row, hrow, rfl⟩ := List.mem_map.mp h
  refine ⟨row, ?_, rfl⟩
  have hmem := List.mem_of_mem_take (List.mem_reverse.mp hrow)
  exact (List.perm_insertionSort _ _).mem_iff.mp hmem

theorem Database.mem_listFills {fill : Fill} (h : fill ∈ db.listFills) : fill ∈ db.fills := by
  have hmem := List.mem_of_mem_take (List.mem_reverse.mp h)
  exact (List.perm_insertionSort _ _).mem_iff.mp hmem

/-- The index after some orders are put: it names more orders, under their keys. -/
theorem get?_putOrders_index {orders : List Order} {paper : PaperState} {k : String} {j : Ident}
    (h : (putOrders paper orders).idempotencyIndex.get? k = some j) :
    (∃ o ∈ orders, o.idempotencyKey = k) ∨ paper.idempotencyIndex.get? k = some j := by
  have hfold : ∀ (orders : List Order) (index : Dict String Ident),
      (orders.foldl (fun index o => index.set o.idempotencyKey o.id) index).get? k = some j →
      (∃ o ∈ orders, o.idempotencyKey = k) ∨ index.get? k = some j := by
    intro orders
    induction orders with
    | nil => exact fun _ h => .inr h
    | cons order orders ih =>
      intro index h
      rcases ih _ h with ⟨o, ho, hkey⟩ | hold
      · exact .inl ⟨o, List.mem_cons_of_mem _ ho, hkey⟩
      · rw [Dict.get?_set] at hold
        split_ifs at hold with hkey
        · exact .inl ⟨order, List.mem_cons_self .., hkey⟩
        · exact .inr hold
  exact hfold orders paper.idempotencyIndex h

/-- What is put back into a ledger after a restart: orders and fills of the journal, and of
the checkpoint. -/
theorem restored_orders {paper : PaperState} {c : Checkpoint} {order : Order}
    (h : order ∈ missingOrders paper c) :
    order ∈ c.orders := by
  unfold missingOrders at h
  split_ifs at h
  · obtain ⟨j, hj⟩ := Dict.mem_values_iff.mp h
    rcases Dict.mem_or_of_get?_setAll hj with hmem | hnone
    · exact hmem
    · cases hnone
  · exact (List.not_mem_nil h).elim

/-- The positions come back from their rows, if none has realized a profit. -/
theorem restored_positions (hmarked : PositionsMarked s.paper) (hrealized : s.paper.Unrealized) :
    s.checkpoint.positions.map PositionRow.position = s.paper.positions := by
  have hentries : ∀ e ∈ s.paper.positions.entries, (e.1, e.2.row.position e.1) = e := by
    intro e he
    have hget : s.paper.positions.get? e.1 = some e.2 := Dict.mem_entries_iff.mp he
    have hzero : e.2.realizedPnl = 0 := hrealized e.2 (Dict.mem_values_iff.mpr ⟨e.1, hget⟩)
    rw [position_row (hmarked e.1 e.2 hget) hzero]
  refine Dict.ext_entries ?_
  show ((s.paper.positions.entries.map _).map _) = _
  rw [List.map_map]
  exact (List.map_congr_left hentries).trans (List.map_id _)

/-- What a restart makes of the checkpoint before it looks at the journal. -/
theorem remark_restored {r : Runtime} {draws : ℕ} (hmarked : PositionsMarked r.session.paper)
    (hrealized : r.session.paper.Unrealized) :
    ∃ marks, remark d.paper (loadLedger (Session.restarted d.paper d.settings draws).paper
        r.session.checkpoint) now =
      { r.session.paper with
        orders := ∅, markPrices := marks, fills := [], nextUuid := draws } := by
  have hload : loadLedger (Session.restarted d.paper d.settings draws).paper
        r.session.checkpoint =
      { r.session.paper with
        orders := ∅, markPrices := ∅, fills := [], nextUuid := draws } := by
    rw [loadLedger, restored_positions hmarked hrealized]
    rfl
  rw [hload]
  obtain ⟨marks, heq⟩ := @remark_self d.paper
    { r.session.paper with orders := ∅, markPrices := ∅, fills := [], nextUuid := draws } now rfl
    fun name p hp => (hmarked name p hp).unrealized
  exact ⟨marks, heq⟩

/-- **What a restart makes of the ledger**, if no position has realized a profit: the funds
are those of the checkpoint; the orders, and the keys in the index, are those of the journal
and of the checkpoint. -/
theorem hydrate_funds {r : Runtime} {draws : ℕ} (h : Persisted d r)
    (hmarked : PositionsMarked r.session.paper) (hrealized : r.session.paper.Unrealized) :
    ∃ orders index marks fills,
      (hydrate d.paper (Session.restarted d.paper d.settings draws) r.db now).paper =
        { r.session.paper with
          orders := orders, idempotencyIndex := index, markPrices := marks, fills := fills,
          nextUuid := draws } ∧
      (∀ {j order}, orders.get? j = some order → order.id = j ∧
        (order ∈ r.db.listOrders ∨ order ∈ r.session.paper.orders.values)) ∧
      (∀ {k j}, index.get? k = some j →
        (∃ order, (order ∈ r.db.listOrders ∨ order ∈ r.session.paper.orders.values) ∧
          order.idempotencyKey = k) ∨ r.session.paper.idempotencyIndex.get? k = some j) ∧
      fills = if r.db.listFills = [] then r.session.checkpoint.fills.map FillRow.fill
        else r.db.listFills := by
  have hpaper := @hydrate_paper d.paper (Session.restarted d.paper d.settings draws) r.db now
  obtain ⟨marks, hremark⟩ := @remark_restored d now r draws hmarked hrealized
  rw [h.checkpoint] at hpaper
  simp only [Option.elim] at hpaper
  have hlisted : ∀ paper : PaperState, paper.fills = [] →
      putFills (putOrders paper r.db.listOrders) r.db.listFills =
        { putOrders paper r.db.listOrders with fills := r.db.listFills } :=
    fun paper hnil => @putFills_of_nil (putOrders paper r.db.listOrders) hnil _
  rw [hremark, hlisted _ rfl] at hpaper
  have hfills : ∀ paper : PaperState, putFills { paper with fills := r.db.listFills }
        (missingFills { paper with fills := r.db.listFills } r.session.checkpoint) =
      { paper with
        fills := if r.db.listFills = [] then r.session.checkpoint.fills.map FillRow.fill
          else r.db.listFills } := by
    intro paper
    unfold missingFills
    by_cases hnil : r.db.listFills = []
    · simp only [if_pos hnil]
      exact putFills_of_nil hnil _
    · simp only [if_neg hnil]
      exact if_pos rfl
  rw [hfills] at hpaper
  generalize hmissing : missingOrders _ r.session.checkpoint = missing at hpaper
  have hrestored : ∀ order ∈ missing, order ∈ r.session.paper.orders.values := by
    intro order horder
    rw [← hmissing] at horder
    exact restored_orders horder
  refine ⟨_, _, marks, _, hpaper, fun {j order} hget => ?_, fun {k j} hget => ?_, rfl⟩
  · have hkey : order.id = j := by
      refine Dict.key_of_get?_setAll (fun {k v} hv => ?_) hget
      exact Dict.key_of_get?_setAll (fun {k v} hv => by cases hv) hv
    refine ⟨hkey, ?_⟩
    rcases Dict.mem_or_of_get?_setAll hget with hmem | hold
    · exact .inr (hrestored order hmem)
    · rcases Dict.mem_or_of_get?_setAll hold with hmem | hnone
      · exact .inl hmem
      · cases hnone
  · rcases get?_putOrders_index hget with ⟨order, hmem, hkey⟩ | hold
    · exact .inl ⟨order, .inr (hrestored order hmem), hkey⟩
    · rcases get?_putOrders_index hold with ⟨order, hmem, hkey⟩ | hold
      · exact .inl ⟨order, .inl hmem, hkey⟩
      · exact .inr hold

/-- **What a restart makes of the risk engine**: the flags are those of the row; the times
of the orders are lost, and the keys are seen that are in one of the stores. -/
theorem hydrate_engine {r : Runtime} {draws : ℕ} (h : Persisted d r)
    (hmarked : PositionsMarked r.session.paper) (hrealized : r.session.paper.Unrealized) :
    let t := hydrate d.paper (Session.restarted d.paper d.settings draws) r.db now
    (∃ healthy, r.db.riskState.map RiskRow.reconciliationHealthy = some healthy ∧
      t.risk = { r.session.risk with
        recentOrderTimes := [], seenIdempotencyKeys := t.risk.seenIdempotencyKeys,
        lastMarketDataTs := none, reconciliationHealthy := healthy }) ∧
    ∀ k ∈ t.risk.seenIdempotencyKeys, k ∈ r.session.risk.seenIdempotencyKeys ∨
      (∃ order, (order ∈ r.db.listOrders ∨ order ∈ r.session.paper.orders.values) ∧
        order.idempotencyKey = k) ∨ (r.session.paper.idempotencyIndex.get? k).isSome := by
  intro t
  obtain ⟨hcheckpoint, ⟨healthy, hrow⟩, hswitch, -⟩ := h
  -- the keys of the row, or of the index without them, and then those of the orders
  have hkeys : ∃ paper : PaperState, t.risk.seenIdempotencyKeys =
      ((missingOrders paper r.session.checkpoint).map Order.idempotencyKey).reverse ++
        ((r.db.listOrders.map Order.idempotencyKey).reverse ++
          if r.session.risk.seenIdempotencyKeys.take 5000 = [] then
            (remark d.paper (loadLedger (Session.restarted d.paper d.settings draws).paper
              r.session.checkpoint) now).idempotencyIndex.keys
          else r.session.risk.seenIdempotencyKeys.take 5000) := by
    simp only [t, hydrate, hcheckpoint, hrow, hswitch, Option.elim]
    cases r.db.reconciliationHalt <;> exact ⟨_, rfl⟩
  have hrisk : t.risk = { r.session.risk with
      recentOrderTimes := [], seenIdempotencyKeys := t.risk.seenIdempotencyKeys,
      lastMarketDataTs := none, reconciliationHealthy := healthy } := by
    simp only [t, hydrate, hcheckpoint, hrow, hswitch, Option.elim]
    cases r.db.reconciliationHalt <;> rfl
  refine ⟨⟨healthy, by rw [hrow]; rfl, hrisk⟩, fun k hk => ?_⟩
  obtain ⟨paper, hkeys⟩ := hkeys
  obtain ⟨marks, hremark⟩ := @remark_restored d now r draws hmarked hrealized
  rw [hkeys, hremark] at hk
  simp only [List.mem_append, List.mem_reverse, List.mem_map] at hk
  rcases hk with ⟨order, hmem, hkey⟩ | ⟨order, hmem, hkey⟩ | hk
  · exact .inr (.inl ⟨order, .inr (restored_orders hmem), hkey⟩)
  · exact .inr (.inl ⟨order, .inl hmem, hkey⟩)
  · split_ifs at hk
    · obtain ⟨e, he, rfl⟩ := List.mem_map.mp hk
      exact .inr (.inr (by rw [Dict.mem_entries_iff.mp he]; rfl))
    · exact .inl (List.mem_of_mem_take hk)

/-! ### The restart -/

/-- The service of a new process on the database of the old one. -/
def Service.restarted (d : Deployment) (svc : Service) (now : Time) : Service where
  runtime :=
    { session :=
        hydrate d.paper (Session.restarted d.paper d.settings svc.paper.nextUuid) svc.runtime.db now
      processed := svc.runtime.db.cycleKeys
      db := svc.runtime.db }

/-- **Nothing that a restart loses matters** to the calls `calls`. -/
structure NothingLost (d : Deployment) (registry : Registry) (strategyId symbol : String)
    (svc : Service) (o : Orchestrator) (calls : List CycleCall) : Prop where
  /-- The positions: what they have realized, and the close they are marked at. -/
  realized : svc.paper.Unrealized
  atClose : AtClose symbol (o.windowOf symbol) svc.paper
  /-- The memory of the orchestrator. -/
  bars : (o.barsHeld.get? symbol).getD 0 = 0 ∨ (registry strategyId).IgnoresBars
  losses : o.consecutiveLosses = 0
  peak : o.peakEquity = d.paper.initialCash ∨ svc.paper.positions = ∅ ∧
    max o.peakEquity svc.paper.equity = max d.paper.initialCash svc.paper.equity
  fingerprints : ∀ call ∈ calls, ∀ target, call.candles.getLast? = some target → ∀ context,
    context.candles.getLast? = some target →
      ((registry strategyId).evaluate context).fingerprint ∉ o.seenSignalFps
  window : CatchesUp d registry (svc.paper.positions = ∅) svc.runtime.processed (o.windowOf symbol)
    calls
  /-- The memory of the risk engine: the times of the orders, and the last verdict. -/
  times : ∀ t ∈ svc.runtime.session.risk.recentOrderTimes, ∀ call ∈ calls,
    t < call.around.now - seconds 60
  verdict : svc.runtime.db.riskState.map RiskRow.reconciliationHealthy =
    some svc.runtime.session.risk.reconciliationHealthy
  /-- What the journal gives back to the reconciliation. -/
  fills : d.enableReconciliation = true → svc.runtime.db.listFills.Perm svc.paper.fills
  quantities : d.enableReconciliation = true → Reconciliation.FillsOk svc.paper ∧
    ∀ order ∈ svc.runtime.db.listOrders, filledOf svc.paper.fills order.id ≤ order.quantity

variable {r : Runtime}

/-- The ledger after a restart has market orders under keys of the window, and draws new
identifiers. -/
theorem hydrate_regular (h : Persisted d r) (hsteady : Steady symbol r o)
    (hrealized : r.session.paper.Unrealized) :
    Regular (o.windowOf symbol) (hydrate d.paper
      (Session.restarted d.paper d.settings r.session.paper.nextUuid) r.db now) := by
  have hmarked := hsteady.sound.ledger.marked
  obtain ⟨orders, index, marks, fills, hpaper, horders, hindex, hfills⟩ :=
    @hydrate_funds d now r r.session.paper.nextUuid h hmarked hrealized
  obtain ⟨-, hseen⟩ := @hydrate_engine d now r r.session.paper.nextUuid h hmarked hrealized
  have hledger : MarketLedger r.session.paper := hsteady.orderly.regular.ledger
  have hkeys : ∀ order, (order ∈ r.db.listOrders ∨ order ∈ r.session.paper.orders.values) →
      order.orderType = .market ∧ OrderKey (o.windowOf symbol) order.idempotencyKey ∧
        ∀ n, order.id = .uuid4 n → n < r.session.paper.nextUuid := by
    rintro order (hlisted | hstored)
    · obtain ⟨row, hrow, rfl⟩ := Database.mem_listOrders hlisted
      exact ⟨hsteady.journaled.market row hrow, hsteady.journaled.keys row hrow,
        hsteady.journaled.orders row hrow⟩
    · obtain ⟨j, hj⟩ := Dict.mem_values_iff.mp hstored
      have hnamed : r.session.paper.idempotencyIndex.get? order.idempotencyKey = some j :=
        hsteady.sound.ledger.indexed j order hj
      refine ⟨hledger.market hj, hsteady.orderly.regular.indexed _ j hnamed, fun n hn => ?_⟩
      obtain ⟨m, hm, heq⟩ := hsteady.sound.ledger.keyed.drawn hj
      rw [← hledger.id_eq hj, hn, Ident.uuid4.injEq] at heq
      exact heq ▸ hm
  refine ⟨?_, fun k j hget => ?_, fun k hk => ?_⟩
  · rw [hpaper]
    refine ⟨fun hget => (horders hget).1, fun hget => (hkeys _ (horders hget).2).1,
      fun n hn => ?_, fun n hn => ?_⟩
    · show orders.get? (.uuid4 n) = none
      cases hget : orders.get? (.uuid4 n) with
      | none => rfl
      | some order =>
        obtain ⟨hid, hmem⟩ := horders hget
        exact absurd ((hkeys order hmem).2.2 n hid) (not_lt.mpr hn)
    · show fillsOf fills (.uuid4 n) = []
      refine fillsOf_eq_nil fun f hf hid => absurd ?_ (not_lt.mpr hn)
      rw [hfills] at hf
      split_ifs at hf
      · obtain ⟨row, hrow, rfl⟩ := List.mem_map.mp hf
        obtain ⟨fill, hfill, rfl⟩ := List.mem_map.mp hrow
        obtain ⟨order, hget⟩ := Option.isSome_iff_exists.mp
          (hsteady.sound.ledger.keyed.fills fill hfill)
        obtain ⟨m, hm, heq⟩ := hsteady.sound.ledger.keyed.drawn hget
        have hsame : Ident.uuid4 n = .uuid4 m := hid.symm.trans heq
        rw [Ident.uuid4.injEq] at hsame
        exact hsame ▸ hm
      · exact hsteady.journaled.fills f (Database.mem_listFills hf) n hid
  · rw [hpaper] at hget
    rcases hindex hget with ⟨order, hmem, rfl⟩ | hold
    · exact (hkeys order hmem).2.1
    · exact hsteady.orderly.regular.indexed k j hold
  · rcases hseen k hk with hold | ⟨order, hmem, rfl⟩ | hnamed
    · exact hsteady.orderly.regular.seen k hold
    · exact (hkeys order hmem).2.1
    · obtain ⟨j, hj⟩ := Option.isSome_iff_exists.mp hnamed
      exact hsteady.orderly.regular.indexed k j hj

/-- **After a restart that loses nothing that matters, the session is the same** in what
decides. -/
theorem hydrate_same (h : Persisted d svc.runtime)
    (hmarked : PositionsMarked svc.paper)
    (hlost : NothingLost d registry strategyId symbol svc o calls) :
    SameSession d (fun t => ∀ call ∈ calls, t < call.around.now - seconds 60)
      svc.runtime.session (svc.restarted d now).runtime.session := by
  obtain ⟨orders, index, marks, fills, hpaper, horders, -, hfills⟩ :=
    @hydrate_funds d now svc.runtime svc.paper.nextUuid h hmarked hlost.realized
  obtain ⟨⟨healthy, hrow, hrisk⟩, -⟩ :=
    @hydrate_engine d now svc.runtime svc.paper.nextUuid h hmarked hlost.realized
  have hperm : d.enableReconciliation = true → svc.paper.fills.Perm fills := by
    intro henabled
    have hlisted := hlost.fills henabled
    rw [hfills]
    split_ifs with hnil
    · rw [hnil] at hlisted
      have hnone : svc.paper.fills = [] := List.nil_perm.mp hlisted
      have hrows : svc.runtime.session.checkpoint.fills = [] := List.map_eq_nil_iff.mpr hnone
      rw [hnone, hrows]
      exact .nil
    · exact hlisted.symm
  refine ⟨?_, fun henabled => ?_, ?_, ?_⟩
  · exact ⟨orders, index, marks, fills, hpaper, hperm⟩
  · obtain ⟨hok, hlisted⟩ := hlost.quantities henabled
    refine iff_of_true hok fun order horder => ?_
    have hpaper : (svc.restarted d now).runtime.session.paper = _ := hpaper
    rw [hpaper] at horder ⊢
    obtain ⟨j, hj⟩ := Dict.mem_values_iff.mp horder
    show filledOf fills order.id ≤ order.quantity
    rw [← filledOf_perm (hperm henabled)]
    rcases (horders hj).2 with hmem | hmem
    · exact hlisted order hmem
    · exact hok order hmem
  · have hflag : healthy = svc.runtime.session.risk.reconciliationHealthy :=
      Option.some.inj (hrow.symm.trans hlost.verdict)
    rw [hflag] at hrisk
    exact ⟨[], _, none, hrisk, _, (List.append_nil _).symm, hlost.times⟩
  · obtain ⟨healthy, hriskRow⟩ := h.riskState
    show (hydrate d.paper (Session.restarted d.paper d.settings svc.paper.nextUuid) svc.runtime.db
      now).killSwitchEnabled = _
    rw [hydrate_killSwitch, hriskRow, h.killSwitch]
    exact Bool.or_self _

/-- **The two services are alongside after the restart.** -/
theorem alongside_restarted {sessionId' : String}
    (hpersisted : Persisted d svc.runtime) (hsteady : Steady symbol svc.runtime o)
    (hcached : svc.orchestrators.get? (sessionKey symbol strategyId) = some o)
    (hnamed : 8 ≤ sessionId'.length) (hlost : NothingLost d registry strategyId symbol svc o calls) :
    Alongside d registry strategyId symbol sessionId'
      (fun t => ∀ call ∈ calls, t < call.around.now - seconds 60) o.seenSignalFps calls svc
      (svc.restarted d now) := by
  have hfound : svc.orchestratorFor d.paper.initialCash strategyId symbol sessionId' = o :=
    orchestratorFor_cached hcached sessionId'
  have hsession := @hydrate_same d registry strategyId symbol o svc now calls hpersisted
    hsteady.sound.ledger.marked hlost
  refine ⟨hpersisted.keys, ?_, ?_, .inr ⟨ List.nil_prefix, ?_, .inr rfl, ?_⟩⟩
  · rw [hfound]
    refine ⟨hsession, hsteady.orderly, ?_, ?_, ?_⟩
    · exact ⟨.new .., fun _ hc => (List.not_mem_nil hc).elim, hnamed, rfl,
        hydrate_regular hpersisted hsteady hlost.realized⟩
    · refine ⟨hlost.bars.imp_left Eq.symm, hlost.losses.symm, fun f hf => ?_⟩
      exact iff_of_false List.not_mem_nil hf
    · rcases hlost.peak with heq | ⟨-, hmax⟩
      · rw [heq]
        rfl
      · exact hmax.symm
  · rw [hfound]
    exact hlost.peak.imp Eq.symm And.left
  · rw [hfound]
    exact hlost.atClose
  · rw [hfound]
    exact hlost.window

/-- **Restart transparency.**  A service is stopped after a completed call, and a new
process hydrates its session from the database.  If nothing that is lost matters to the
remaining calls, they decide the same with and without the restart: the directions of
their signals, and the risk decisions, reasons and quantities of their orders. -/
theorem restart_transparent {sessionId' : String} {before after : List CycleCall}
    {last : CycleCall} {now : Time} (hnamed : 8 ≤ sessionId.length)
    (hnamed' : 8 ≤ sessionId'.length)
    (hbefore : ∀ call ∈ before ++ [last], call.Of strategyId symbol sessionId ∧ call.OnMillis)
    (hafter : ∀ call ∈ after, call.Of strategyId symbol sessionId' ∧ call.OnMillis)
    (hcomplete : (runCycle d registry failClosed (Service.after d registry failClosed before)
      last).1.ending = .complete)
    (hlost : NothingLost d registry strategyId symbol
      (Service.after d registry failClosed (before ++ [last]))
      ((Service.after d registry failClosed (before ++ [last])).orchestratorFor d.paper.initialCash
        strategyId symbol sessionId) after) :
    let svc := Service.after d registry failClosed (before ++ [last])
    (svc.restarted d now).decisions d registry failClosed after =
      svc.decisions d registry failClosed after := by
  intro svc
  have hsteady : Steady symbol svc.runtime
      (svc.orchestratorFor d.paper.initialCash strategyId symbol sessionId) :=
    Steady.run hnamed hbefore
  have hlast : svc = (runCycle d registry failClosed (Service.after d registry failClosed before)
      last).2 := List.foldl_concat ..
  obtain ⟨hpersisted, o, hcached⟩ := complete_persisted (hbefore last (by simp)).1 hcomplete
  rw [← hlast] at hpersisted hcached
  rw [orchestratorFor_cached hcached] at hsteady hlost
  refine (alongside_restarted hpersisted hsteady hcached hnamed' hlost).decisions fun call hcall => ?_
  obtain ⟨hof, hmillis⟩ := hafter call hcall
  exact ⟨hof, hmillis, fun t ht => ht call hcall, hlost.fingerprints call hcall⟩

/-! ### Two runs -/

/-- A call on BTC/USDT that loads candles with these closes, one a minute from the start. -/
def closesCall (sessionId : String) (closes : List ℚ) : CycleCall where
  strategyId := "bar_limit"
  symbol := "BTC/USDT"
  timeframe := "1m"
  candles := closes.zipIdx.map fun e => FeedRun.minuteCandle e.2 e.1
  sessionId := sessionId
  around := { now := seconds (60 * closes.length), seriesMark := 100 }

theorem closesCalls_of (sessionId : String) (loads : List (List ℚ))
    (hshort : ∀ closes ∈ loads, closes.length ≤ 1000000) :
    ∀ call ∈ loads.map (closesCall sessionId),
      call.Of "bar_limit" "BTC/USDT" sessionId ∧ call.OnMillis := by
  intro call hcall
  obtain ⟨closes, hcloses, rfl⟩ := List.mem_map.mp hcall
  refine ⟨⟨rfl, rfl, rfl, fun c hc => ?_⟩, fun c hc => ?_⟩
  · obtain ⟨e, -, rfl⟩ := List.mem_map.mp hc
    exact ⟨rfl, rfl, rfl⟩
  · obtain ⟨e, he, rfl⟩ := List.mem_map.mp hc
    have hindex : e.2 < closes.length := by
      have hlt := (List.mem_zipIdx he).2.1
      omega
    have hbound : e.2 < 1000000 := hindex.trans_le (hshort closes hcloses)
    have hms : toUnixMs (60 * e.2 * 1000000) = 60 * e.2 * 1000 :=
      toUnixMs_seconds (by rw [abs_of_nonneg (by positivity)]; omega)
    show toUnixMs (60 * e.2 * 1000000) * 1000 = 60 * e.2 * 1000000
    rw [hms]
    ring

theorem catchesUp_cons_iff {idle : Prop} {processed : List CycleKey} {calls : List CycleCall}
    {target : Candle} (hopen : ¬call.Halted d) (hlast : call.candles.getLast? = some target) :
    CatchesUp d registry idle processed window (call :: calls) ↔
      window <+: call.candles.dropLast ∨ idle ∧ call.candles <+: window ∧
        call.key registry target ∈ processed ∧
        CatchesUp d registry idle processed window calls := by
  simp only [CatchesUp, if_neg hopen, hlast]

instance (paper : PaperState) : Decidable (AtClose symbol window paper) :=
  inferInstanceAs (Decidable (∀ p ∈ paper.positions.get? symbol, _ ∧ _))

/-- A strategy that buys at the first candle, and exits when the position is held for
`limit` bars, if there is a limit. -/
def barLimit (limit : Option ℕ) : Registry := fun _ =>
  { name := "bar_limit"
    version := "1"
    evaluate := fun context =>
      if (context.candles.getLast?.any fun c => c.openTime = 0) = true then
        { signal := { direction := .buy }, fingerprint := "entry" }
      else if limit.any (· ≤ context.barsHeld) then
        { signal := { direction := .exit }, fingerprint := "exit" }
      else { signal := { direction := .hold }, fingerprint := "hold" } }

/-- **A restart that is not transparent.**  The strategy buys at the first candle and exits
after two bars.  Stopped after the second candle, the new process counts one bar at the
third, and holds on. -/
theorem restart_not_transparent :
    let before := [closesCall "cycle-0123456789ab" [100]]
    let last := closesCall "cycle-0123456789ab" [100, 99]
    let after := [closesCall "cycle-ba9876543210" [100, 99, 98]]
    let svc := Service.after Runtime.exactDeployment (barLimit (some 2)) true (before ++ [last])
    (∀ call ∈ before ++ [last], call.Of "bar_limit" "BTC/USDT" "cycle-0123456789ab" ∧
      call.OnMillis) ∧
    (∀ call ∈ after, call.Of "bar_limit" "BTC/USDT" "cycle-ba9876543210" ∧ call.OnMillis) ∧
    (runCycle Runtime.exactDeployment (barLimit (some 2)) true (Service.after
      Runtime.exactDeployment (barLimit (some 2)) true before) last).1.ending = .complete ∧
    (svc.decisions Runtime.exactDeployment (barLimit (some 2)) true after).map Decisions.signal =
      [some .exit] ∧
    ((svc.restarted Runtime.exactDeployment (seconds 150)).decisions Runtime.exactDeployment
      (barLimit (some 2)) true after).map Decisions.signal = [some .hold] := by
  intro before last after svc
  exact ⟨closesCalls_of _ [[100], [100, 99]] (by decide),
    closesCalls_of _ [[100, 99, 98]] (by decide), by decide +kernel,
    by decide +kernel, by decide +kernel⟩

/-- **A restart that is transparent**, with an open position.  The strategy does not look at
the bars. -/
theorem restart_transparent_with_position :
    let before := [closesCall "cycle-0123456789ab" [100]]
    let last := closesCall "cycle-0123456789ab" [100, 99]
    let after := [closesCall "cycle-ba9876543210" [100, 99, 98]]
    let svc := Service.after Runtime.exactDeployment (barLimit none) true (before ++ [last])
    (svc.paper.positions.get? "BTC/USDT").isSome = true ∧
    (svc.restarted Runtime.exactDeployment (seconds 150)).decisions Runtime.exactDeployment
        (barLimit none) true after =
      svc.decisions Runtime.exactDeployment (barLimit none) true after := by
  intro before last after svc
  have hlost : NothingLost Runtime.exactDeployment (barLimit none) "bar_limit" "BTC/USDT" svc
      (svc.orchestratorFor 10000 "bar_limit" "BTC/USDT" "cycle-0123456789ab") after := by
    refine ⟨by decide +kernel, by decide +kernel, .inr fun _ _ => rfl, by decide +kernel,
      .inl (by decide +kernel), ?_, ?_, by decide +kernel, by decide +kernel,
      fun _ => by decide +kernel, fun _ => by decide +kernel⟩
    · intro call hcall target htarget context hcontext
      rw [List.mem_singleton.mp hcall] at htarget
      have hseen : (svc.orchestratorFor 10000 "bar_limit" "BTC/USDT"
        "cycle-0123456789ab").seenSignalFps = ["entry"] := by decide +kernel
      have hlast : target.openTime ≠ 0 := by
        rw [← Option.some.inj htarget]
        decide
      simp [hseen, barLimit, hcontext, hlast]
    · have htarget : (closesCall "cycle-ba9876543210" [100, 99, 98]).candles.getLast? =
          some (FeedRun.minuteCandle 2 98) := by decide
      exact (catchesUp_cons_iff (by decide) htarget).mpr (.inl (by decide +kernel))
  have hnamed : 8 ≤ "cycle-0123456789ab".length := by decide
  have hnamed' : 8 ≤ "cycle-ba9876543210".length := by decide
  have hbefore := closesCalls_of "cycle-0123456789ab" [[100], [100, 99]] (by decide)
  have hafter := closesCalls_of "cycle-ba9876543210" [[100, 99, 98]] (by decide)
  exact ⟨by decide +kernel,
    restart_transparent hnamed hnamed' hbefore hafter (by decide +kernel) hlost⟩

end Atlas
