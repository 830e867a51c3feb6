import Atlas.Session.Restart

/-!
# A crash in the middle of a cycle

A process that stops after some of the commits of a cycle leaves a database behind, and
the restarted process hydrates a fresh session from it and reconciles it.  Up to the
commit of the cycle keys the restart should find the ledger from before the cycle, from
there on the ledger from after it, unless the reconciliation halts trading.

It does if no order is in the journal when the process stops and the checkpoint is one
of the ledger in question; then a cycle has sent no order, and the ledger after it is
that before it with the marks of the candles.  The reconciliation does not see the
other cases: fills without their position make the history incomplete, and an
incomplete history is healthy.

## Main definitions

* `Database.Reconciles` — the rows of a database pass the reconciliation.
* `crashed` — the database after the first `n` commits of a cycle.
* `Atomic` — the restart finds one of the two ledgers, or halts.

## Main results

* `hydrate_rows`, `healthy_hydrate_iff` — the ledger of a restart, and the verdict on it, from
  the rows.
* `atomic_iff` — **when a crash in a cycle is atomic**, in terms of the rows it leaves.
* `first_buy_crash_not_atomic` — a crash between the order and its fills is not.

## References

`app/services/paper_cycle.py`, `app/services/trading_orchestrator.py`,
`app/services/paper_session.py`, `app/services/reconciliation.py`.
-/

namespace Atlas

open Session Transition

/-! ### The rows that a restart reads -/

namespace Database

variable {cfg : PaperConfig} {db : Database}

/-- The orders that a restart takes: those listed of the journal, and if there are none those
of the checkpoint. -/
def keptOrders (db : Database) : Dict Ident Order :=
  if db.listOrders = [] then db.checkpoint.elim Dict.empty restoredOrders
  else Dict.empty.setAll Order.id db.listOrders

/-- The fills that a restart takes, in the same way. -/
def keptFills (db : Database) : List Fill :=
  if db.listFills = [] then db.checkpoint.elim [] fun c => c.fills.map FillRow.fill
  else db.listFills

/-- The positions of the checkpoint. -/
def keptPositions (db : Database) : Dict String PositionRow :=
  db.checkpoint.elim Dict.empty Checkpoint.positions

/-- The cash of the checkpoint, or the starting balance, and what is reserved of it. -/
def keptCash (cfg : PaperConfig) (db : Database) : ℚ × ℚ :=
  db.checkpoint.elim (cfg.initialCash, 0) fun c => (c.cash, c.reservedCash)

/-- The fills explain the positions of the checkpoint. -/
def Explained (db : Database) : Prop :=
  (∀ e ∈ db.keptPositions.entries, |netQuantity db.keptFills e.1 - e.2.quantity| ≤ quantum8) ∧
    ∀ f ∈ db.keptFills, 0 < netQuantity db.keptFills f.symbol →
      db.keptPositions.get? f.symbol ≠ none

/-- **The rows pass the reconciliation**: no balance is negative, the positions are valid, no
order is filled beyond its quantity, and the cash is what the fills leave of the starting
balance, unless there are no fills or they do not explain the positions. -/
structure Reconciles (cfg : PaperConfig) (db : Database) : Prop where
  cash : 0 ≤ (db.keptCash cfg).1 ∧ 0 ≤ (db.keptCash cfg).2
  positions : ∀ p ∈ db.keptPositions.values,
    0 ≤ p.quantity ∧ 0 < p.entryPrice ∧ 0 ≤ p.currentPrice
  filled : ∀ o ∈ db.keptOrders.values,
    ((fillsOf db.keptFills o.id).map Fill.quantity).sum ≤ o.quantity
  drift : db.keptFills = [] ∨ ¬db.Explained ∨
    |cfg.initialCash + (db.keptFills.map Fill.signedCash).sum -
      ((db.keptCash cfg).1 + (db.keptCash cfg).2)| ≤ 5 / 100

/-- Fills change nothing else of a ledger. -/
theorem putFills_eq (paper : PaperState) (fills : List Fill) :
    putFills paper fills =
      { paper with fills := if fills = [] then paper.fills else fills } := by
  unfold putFills
  split_ifs <;> rfl

/-- No orders are put into a ledger exactly if there are none. -/
theorem entries_setAll_eq_nil_iff {orders : List Order} :
    (Dict.setAll Order.id Dict.empty orders).entries = [] ↔ orders = [] := by
  constructor
  · intro hnil
    by_contra hsome
    obtain ⟨o, -, hget⟩ : ∃ o ∈ orders, (Dict.setAll Order.id Dict.empty orders).get? o.id =
        some o := Dict.exists_get?_setAll hsome Dict.empty
    rw [← Dict.mem_entries_iff, hnil] at hget
    cases hget
  · rintro rfl
    rfl

/-- **The ledger of a restart**, from the rows. -/
theorem hydrate_rows {settings : RiskSettings} (draws : ℕ) (now : Time)
    (hmarked : ∀ c, db.checkpoint = some c → c.Marked) :
    let ledger := (hydrate cfg (restarted cfg settings draws) db now).paper
    (ledger.cash, ledger.reservedCash) = db.keptCash cfg ∧
      ledger.positions = db.keptPositions.map (fun name => PositionRow.position name) ∧
      (∀ j, ledger.orders.get? j = db.keptOrders.get? j) ∧ ledger.fills = db.keptFills := by
  rw [hydrate_paper]
  unfold keptCash keptPositions keptOrders keptFills
  cases hc : db.checkpoint with
  | none =>
    simp only [Option.elim, putFills_eq, putOrders]
    refine ⟨rfl, rfl, fun j => ?_, rfl⟩
    split_ifs with hnil
    · rw [hnil]
      rfl
    · rfl
  | some c =>
    obtain ⟨marks, hremark⟩ :
        ∃ marks, remark cfg (loadLedger (restarted cfg settings draws).paper c) now = _ :=
      remark_checkpoint draws now (hmarked c hc)
    have hnoOrders : (loadLedger (restarted cfg settings draws).paper c).orders = Dict.empty := rfl
    have hnoFills : (loadLedger (restarted cfg settings draws).paper c).fills = [] := rfl
    simp only [Option.elim, hremark, putFills_eq, putOrders, missingOrders, missingFills, hnoOrders,
      hnoFills, entries_setAll_eq_nil_iff]
    refine ⟨rfl, rfl, fun j => ?_, ?_⟩
    · split_ifs with hnil
      · rw [hnil]
        exact Dict.get?_setAll_values (Dict.key_of_get?_setAll fun h => by cases h) j
      · rfl
    · by_cases hnil : db.listFills = []
      · simp only [if_pos hnil, if_true]
        split_ifs with hnone
        · exact hnone.symm
        · rfl
      · simp only [if_neg hnil, if_true]

/-- **The verdict of a restart**, from the rows. -/
theorem healthy_hydrate_iff {settings : RiskSettings} (enabled : Bool) (draws : ℕ) (now : Time)
    (hmarked : ∀ c, db.checkpoint = some c → c.Marked) :
    Reconciliation.Healthy enabled cfg.initialCash
        (hydrate cfg (restarted cfg settings draws) db now).paper ↔
      (enabled = true → db.Reconciles cfg) := by
  obtain ⟨hcash, hpositions, horders, hfills⟩ := @hydrate_rows cfg db settings draws now hmarked
  generalize (hydrate cfg (restarted cfg settings draws) db now).paper = ledger at *
  obtain ⟨havailable, hreserved⟩ := Prod.mk.inj hcash
  have hvalid : Reconciliation.PositionsOk ledger ↔ ∀ p ∈ db.keptPositions.values,
      0 ≤ p.quantity ∧ 0 < p.entryPrice ∧ 0 ≤ p.currentPrice := by
    simp only [Reconciliation.PositionsOk, hpositions, Dict.mem_values_iff, Dict.get?_map,
      Option.map_eq_some_iff]
    constructor
    · rintro h p ⟨name, hp⟩
      exact h (p.position name) ⟨name, p, hp, rfl⟩
    · rintro h _ ⟨name, p, hp, rfl⟩
      exact h p ⟨name, hp⟩
  have hfilled : Reconciliation.FillsOk ledger ↔ ∀ o ∈ db.keptOrders.values,
      ((fillsOf db.keptFills o.id).map Fill.quantity).sum ≤ o.quantity := by
    simp only [Reconciliation.FillsOk, Dict.mem_values_iff, horders, hfills]
  have hexplained : Reconciliation.LedgerComplete ledger ↔ db.Explained := by
    have hentries : (∀ e ∈ ledger.positions.entries,
        |netQuantity db.keptFills e.1 - e.2.quantity| ≤ quantum8) ↔
          ∀ e ∈ db.keptPositions.entries,
            |netQuantity db.keptFills e.1 - e.2.quantity| ≤ quantum8 := by
      rw [hpositions, Dict.map, List.forall_mem_map]
      rfl
    rw [Reconciliation.LedgerComplete, Explained, hfills, hentries]
    simp only [hpositions, Dict.get?_map, ne_eq, Option.map_eq_none_iff]
  rw [Reconciliation.Healthy, Reconciliation.CashOk, Reconciliation.DriftOk,
    Reconciliation.reconstructed, hvalid, hfilled, hexplained, hfills, havailable, hreserved]
  exact imp_congr_right fun _ => ⟨fun h => ⟨h.1, h.2.1, h.2.2.1, h.2.2.2⟩,
    fun h => ⟨h.cash, h.positions, h.filled, h.drift⟩⟩

end Database
namespace Runtime

variable {d : Deployment} {r : Runtime} {s : Session} {input : CycleInput}

/-- The database after the first `n` commits of a cycle. -/
def crashed (d : Deployment) (r : Runtime) (input : CycleInput) (n : ℕ) : Database :=
  Commits.after (Database.commit d.column) r.db (cycleCommits d r input) n

/-- The ledger of a process that is restarted on a database. -/
def restartedLedger (d : Deployment) (db : Database) (draws : ℕ) (now : Time) : PaperState :=
  (hydrate d.paper (restarted d.paper d.settings draws) db now).paper

/-- After a crash behind `n` commits the restart finds the ledger and the keys from
before the cycle, or those from after it, or it halts trading. -/
def Atomic (d : Deployment) (r : Runtime) (input : CycleInput) (n draws : ℕ) (now : Time) : Prop :=
  let db := crashed d r input n
  let ledger := restartedLedger d db draws now
  ¬Healthy d ledger ∨
    (SameLedger r.session.paper ledger ∧ ∀ k, k ∈ db.cycleKeys ↔ k ∈ r.processed) ∨
    (SameLedger (cycle d r input).session.paper ledger ∧
      ∀ k, k ∈ db.cycleKeys ↔ k = input.key ∨ k ∈ r.processed)

/-- The ledger the restart should find if the cycle has sent no order: before the keys
are committed that from before the cycle, then the same with the marks of the candles. -/
def keptLedger (d : Deployment) (r : Runtime) (input : CycleInput) (n : ℕ) : PaperState :=
  if n ≤ (journalCommits d r input).length then r.session.paper
  else (opened d r.session input).paper

/-! ### A cycle that journals no order -/

/-- Without an order for the journal, a candle has only marked the ledger. -/
theorem processCandle_of_no_order (h : (processCandle d s input).order = none) :
    (processCandle d s input).session.paper = (opened d s input).paper := by
  simp only [processCandle] at h ⊢
  cases hrequest : actingRequest (opened d s input).paper input with
  | none => rfl
  | some request =>
    simp only [hrequest, Option.elim, sendOrder, gatewaySubmit] at h ⊢
    split_ifs at h ⊢ with hblocked
    rw [Option.map_eq_none_iff] at h
    -- the gateway has let the request through, so the engine has returned no order: its key is known
    simp only [Paper.submit] at h ⊢
    split at h
    · rfl
    · cases h

/-- Once an order is in the journal, one stays there. -/
theorem commits_orders_ne_nil {cs : List Commit} {db : Database} (hcs : ∀ c ∈ cs, c.OfJournal)
    (hdb : db.orders ≠ []) : (cs.foldl (Database.commit d.column) db).orders ≠ [] :=
  Commits.foldl_invariant (I := fun db => db.orders ≠ [])
    (fun c hc db hdb => (@commit_ofJournal d c (hcs c hc) db).2.2 hdb) hdb

/-- If the journal is empty after the commits of a cycle, the cycle had no order for it:
an empty journal refuses none. -/
theorem journalCommits_orders
    (h : ((journalCommits d r input).foldl (Database.commit d.column) r.db).orders = []) :
    (processCandle d r.session input).order = none := by
  have hofJournal : ∀ c ∈ journalCommits d r input, c.OfJournal := fun c hc =>
    ofJournal_of_mem ((Commits.written_prefix _ r.db).subset hc)
  have hempty : r.db.orders = [] := by
    by_contra hne
    exact commits_orders_ne_nil hofJournal hne h
  cases horder : (processCandle d r.session input).order with
  | none => rfl
  | some o =>
    -- an empty journal has no client order id to refuse the order for
    have haccepts : r.db.accepts (.order o) = true := by
      simp [Database.accepts, Database.acceptsOrder, hempty]
    obtain ⟨rest, hrest⟩ : ∃ rest, journalCommits d r input = .log :: .order o :: rest := by
      unfold journalCommits journalEntries
      rw [horder]
      simp only [Option.elim, List.cons_append, Commits.written, Database.commit, haccepts]
      exact ⟨_, rfl⟩
    rw [hrest] at h hofJournal
    have hrecorded : (r.db.recordOrder d.column o).orders ≠ [] :=
      List.append_ne_nil_of_right_ne_nil _ (List.cons_ne_nil _ _)
    have hlater : ∀ c ∈ rest, c.OfJournal := fun c hc =>
      hofJournal c (List.mem_cons_of_mem _ (List.mem_cons_of_mem _ hc))
    have hstays : (rest.foldl (Database.commit d.column) (r.db.recordOrder d.column o)).orders ≠ [] :=
      commits_orders_ne_nil hlater hrecorded
    exact absurd h hstays

/-! ### The two parts of a cycle -/

/-- Among the commits to the journal, the checkpoint and the keys are still old. -/
theorem crashed_journal (hr : RuntimeSound r) {n : ℕ} (hn : n ≤ (journalCommits d r input).length) :
    (crashed d r input n).Sound ∧ (crashed d r input n).cycleKeys = r.processed := by
  obtain ⟨hsound, -, hkeys⟩ := @journalCommits_point d r input n
  rw [crashed, cycleCommits, Commits.after_append_le hn]
  exact ⟨hsound hr.db, hkeys.trans hr.keys⟩

/-- Of the closing commits, only the first writes the keys. -/
theorem closingCommits_tail_keys {c : Commit} (hc : c ∈ (closingCommits d r input).tail)
    (db : Database) : (db.commit d.column c).cycleKeys = db.cycleKeys := by
  simp only [closingCommits, verdictCommits, List.cons_append, List.nil_append, List.tail_cons]
    at hc
  split_ifs at hc <;> simp only [List.mem_cons, List.not_mem_nil, or_false] at hc
  · rcases hc with rfl | rfl | rfl | rfl | rfl | rfl <;> rfl
  · rcases hc with rfl | rfl | rfl <;> rfl

/-- Behind the commit of the keys, the journal is as the cycle leaves it. -/
theorem crashed_closing (hr : RuntimeSound r) {n : ℕ} (hn : (journalCommits d r input).length < n) :
    (crashed d r input n).Sound ∧ (crashed d r input n).cycleKeys = input.key :: r.processed ∧
      (crashed d r input n).orders =
        ((journalCommits d r input).foldl (Database.commit d.column) r.db).orders := by
  obtain ⟨k, rfl⟩ : ∃ k, n = (journalCommits d r input).length + (k + 1) :=
    Nat.exists_eq_add_of_lt hn
  rw [crashed, cycleCommits, Commits.after_append_add]
  have hjournal : ((journalCommits d r input).foldl (Database.commit d.column) r.db).Sound := by
    rw [← Commits.after_length]
    exact (journalCommits_point r input _).1 hr.db
  generalize (journalCommits d r input).foldl (Database.commit d.column) r.db = db at hjournal
  have hofState : ∀ c ∈ closingCommits d r input, c.OfState := closingCommits_ofState hr.ledger input
  refine ⟨?_, ?_, ?_⟩
  · exact Commits.after_invariant (fun c hc db hdb => commit_ofState (hofState c hc) hdb)
      hjournal (k + 1)
  · have hkeys : (Commits.after (Database.commit d.column)
        (db.commit d.column (.cycleKeys (input.key :: r.processed)))
        (closingCommits d r input).tail k).cycleKeys = input.key :: r.processed :=
      Commits.after_invariant (I := fun db' => db'.cycleKeys = input.key :: r.processed)
        (fun c hc db hdb => (closingCommits_tail_keys hc db).trans hdb) rfl k
    exact hkeys
  · exact Commits.after_invariant (I := fun db' => db'.orders = db.orders)
      (fun c hc db' hdb => (commit_ofState_journal (hofState c hc) db').1.trans hdb) rfl (k + 1)

/-! ### Atomicity -/

/-- The ledger after a cycle that journals no order. -/
theorem cycle_of_no_order (h : (processCandle d r.session input).order = none) :
    (cycle d r input).session.paper = (opened d r.session input).paper := by
  simp only [cycle, reconciledSession_paper, cycleSession_paper]
  exact processCandle_of_no_order h

/-- The condition of atomicity: if the rows pass the reconciliation, the journal is empty and
the checkpoint is one of the ledger that is kept. -/
def KeepsLedger (d : Deployment) (r : Runtime) (input : CycleInput) (n : ℕ) : Prop :=
  (d.enableReconciliation = true → (crashed d r input n).Reconciles d.paper) →
    (crashed d r input n).orders = [] ∧ (keptLedger d r input n).Unrealized ∧
      (crashed d r input n).Holds d.paper (keptLedger d r input n)

/-- The verdict after a crash, from the rows that it leaves. -/
theorem healthy_restartedLedger_iff {db : Database}
    (hmarked : ∀ c, db.checkpoint = some c → c.Marked) (draws : ℕ) (now : Time) :
    Healthy d (restartedLedger d db draws now) ↔
      (d.enableReconciliation = true → db.Reconciles d.paper) :=
  Database.healthy_hydrate_iff _ draws now hmarked

/-- Among the commits to the journal, the ledger that is kept is the old one: the key of the
cycle is not written yet. -/
theorem atomic_journal_iff {d : Deployment} {r : Runtime} {input : CycleInput}
    (hr : RuntimeSound r) (hkey : input.key ∉ r.processed) {n : ℕ}
    (hn : n ≤ (journalCommits d r input).length) (draws : ℕ) (now : Time) :
    Atomic d r input n draws now ↔ KeepsLedger d r input n := by
  obtain ⟨hsound, hkeys⟩ := crashed_journal hr hn
  have hledger : SameLedger r.session.paper
      (restartedLedger d (crashed d r input n) draws now) ↔ _ :=
    hydrate_sameLedger_iff draws hr.ledger hsound.journal hsound.marked
  rw [KeepsLedger, keptLedger, if_pos hn, ← hledger,
    ← healthy_restartedLedger_iff hsound.marked draws now]
  constructor
  · rintro (hhalt | ⟨hsame, -⟩ | ⟨-, hall⟩) hhealthy
    · exact absurd hhealthy hhalt
    · exact hsame
    · exact absurd ((hall input.key).mpr (.inl rfl)) (hkeys ▸ hkey)
  · intro hsame
    by_cases hhealthy : Healthy d (restartedLedger d (crashed d r input n) draws now)
    · exact .inr (.inl ⟨hsame hhealthy, fun k => by rw [hkeys]⟩)
    · exact .inl hhealthy

/-- Behind the commit of the keys, the ledger that is kept is the new one. -/
theorem atomic_closing_iff {d : Deployment} {r : Runtime} {input : CycleInput}
    (hr : RuntimeSound r) (hkey : input.key ∉ r.processed) {n : ℕ}
    (hn : (journalCommits d r input).length < n) (draws : ℕ) (now : Time) :
    Atomic d r input n draws now ↔ KeepsLedger d r input n := by
  obtain ⟨hsound, hkeys, horders⟩ := crashed_closing hr hn
  have hpost : Paper.Sound (cycle d r input).session.paper := (hr.cycle input).ledger
  have hledger : SameLedger (cycle d r input).session.paper
      (restartedLedger d (crashed d r input n) draws now) ↔ _ :=
    hydrate_sameLedger_iff draws hpost hsound.journal hsound.marked
  -- with an empty journal the cycle has sent no order
  have hkept : (crashed d r input n).orders = [] →
      (cycle d r input).session.paper = keptLedger d r input n := by
    intro hempty
    rw [keptLedger, if_neg (not_le.mpr hn)]
    exact cycle_of_no_order (journalCommits_orders (horders ▸ hempty))
  have hmem : ∀ k, k ∈ (crashed d r input n).cycleKeys ↔ k = input.key ∨ k ∈ r.processed := by
    intro k
    rw [hkeys, List.mem_cons]
  rw [KeepsLedger, ← healthy_restartedLedger_iff hsound.marked draws now]
  constructor
  · rintro (hhalt | ⟨-, hall⟩ | ⟨hsame, -⟩) hhealthy
    · exact absurd hhealthy hhalt
    · exact absurd ((hall input.key).mp ((hmem input.key).mpr (.inl rfl))) hkey
    · have hcond := hledger.mp hsame
      exact ⟨hcond.1, hkept hcond.1 ▸ hcond.2⟩
  · intro hcond
    by_cases hhealthy : Healthy d (restartedLedger d (crashed d r input n) draws now)
    · obtain ⟨hempty, hrest⟩ := hcond hhealthy
      exact .inr (.inr ⟨hledger.mpr ⟨hempty, (hkept hempty).symm ▸ hrest⟩, hmem⟩)
    · exact .inl hhealthy

/-- **When a crash in a cycle is atomic.**  The rows that it leaves do not pass the
reconciliation; or no order is in the journal, and the checkpoint is one of the ledger without
an order of the cycle, whose open positions have realized nothing. -/
theorem atomic_iff {d : Deployment} {r : Runtime} {input : CycleInput} (h : Reached d r)
    (hkey : input.key ∉ r.processed) (n draws : ℕ) (now : Time) :
    Atomic d r input n draws now ↔
      ((d.enableReconciliation = true → (crashed d r input n).Reconciles d.paper) →
        (crashed d r input n).orders = [] ∧ (keptLedger d r input n).Unrealized ∧
          (crashed d r input n).Holds d.paper (keptLedger d r input n)) := by
  have hr : RuntimeSound r := runtimeSound_of_reached h
  rcases le_or_gt n (journalCommits d r input).length with hn | hn
  · exact atomic_journal_iff hr hkey hn draws now
  · exact atomic_closing_iff hr hkey hn draws now

/-- A cycle whose signal is to hold. -/
def holdCycle : CycleInput := { buyCycle with signal := some { direction := .hold } }

/-- The runtime after a manual BUY. -/
def boughtManually : Runtime :=
  persisted exactDeployment (initial exactDeployment)
    (placeOrder exactDeployment (initial exactDeployment).session
      { symbol := "BTC/USDT", side := .buy, orderType := .market, quantity := 1 } "manual"
      { now := 0, seriesMark := 100 })

/-- After a manual BUY, a crash in a cycle that holds, before the commit of its keys. -/
theorem hold_crash_atomic :
    Reached exactDeployment boughtManually ∧ boughtManually.session.paper.fills ≠ [] ∧
      Atomic exactDeployment boughtManually holdCycle 1 2 0 := by
  have hreached : Reached exactDeployment boughtManually := .step (a := manualBuy) .init trivial rfl
  refine ⟨hreached, by decide +kernel, ?_⟩
  refine (atomic_iff hreached (by decide +kernel) 1 2 0).mpr fun _ =>
    ⟨by decide +kernel, by decide +kernel, ?_⟩
  have hkept : keptLedger exactDeployment boughtManually holdCycle 1 =
      boughtManually.session.paper := if_pos (by decide +kernel)
  have hcheckpoint : (crashed exactDeployment boughtManually holdCycle 1).checkpoint =
      boughtManually.db.checkpoint := by decide +kernel
  rw [hkept, Database.Holds, hcheckpoint]
  exact checkpoint_of (runtimeSound_of_reached hreached).ledger.keyed

/-- A crash behind the commit of the first BUY order, before that of its fill. -/
theorem first_buy_crash_not_atomic :
    Reached exactDeployment (initial exactDeployment) ∧
      ¬ Atomic exactDeployment (initial exactDeployment) buyCycle 2 2 0 := by
  refine ⟨.init, ?_⟩
  rintro (hhalt | ⟨hsame, -⟩ | ⟨-, hall⟩)
  · revert hhalt
    decide +kernel
  · have hdiffer : (restartedLedger exactDeployment
        (crashed exactDeployment (initial exactDeployment) buyCycle 2) 2 0).orders.get?
          (.uuid4 0) ≠ none := by decide +kernel
    exact hdiffer (hsame.orders (.uuid4 0))
  · have hkey : buyCycle.key ∉
        (crashed exactDeployment (initial exactDeployment) buyCycle 2).cycleKeys := by
      decide +kernel
    exact hkey ((hall buyCycle.key).mpr (.inl rfl))

end Runtime

end Atlas
