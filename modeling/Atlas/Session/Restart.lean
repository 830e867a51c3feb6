import Atlas.Session.Cycle
import Atlas.Session.Recovery

/-!
# Restarting a runtime

What a restart recovers of a runtime, reached by any manual orders and cycles, when it
has just been persisted.  The scalars come from the checkpoint, and the highest equity
and that of the start of the day are overwritten from the numeric columns of the risk
state.  The ledger is recovered if no order is in the journal and no open position has
realized a profit.

## Main definitions

* `Database.Sound`, `RuntimeSound` — the invariant of the runtime.
* `Recovered` — everything a restart should recover.

## Main results

* `runtimeSound_of_reached` — the invariant holds in every state reached.
* `recovered_iff` — **when a restart recovers the session**.
* `cycle_order_not_recovered` — it does not after the order of a cycle.

## References

`app/services/paper_session.py`, `app/services/paper_persistence.py`,
`app/journal/store.py`.
-/

namespace Atlas

open Session Transition

/-- What holds of the database: there are no fills in the journal without an order, and
the checkpoint was written of a marked ledger. -/
structure Database.Sound (db : Database) : Prop where
  journal : db.orders = [] → db.fills = []
  marked : ∀ c, db.checkpoint = some c → c.Marked

/-- The commit writes to the journal, or a row that nothing reads. -/
def Commit.OfJournal : Commit → Prop
  | .log => True
  | .order _ => True
  | .fill _ => True
  | _ => False

/-- The commit leaves the journal alone, and writes a checkpoint of a sound ledger. -/
def Commit.OfState : Commit → Prop
  | .order _ => False
  | .fill _ => False
  | .checkpoint s => Paper.Sound s.paper
  | _ => True

namespace Runtime

variable {d : Deployment} {r r' : Runtime} {s : Session} {db : Database} {input : CycleInput}

/-! ### The ledger -/

theorem marked_moves (s : Session) (input : CycleInput) (close : ℚ) :
    Moves d.paper Paper.Op.Valid s.paper (marked d s input close).paper :=
  .op s.paper (.setMarkPrice input.symbol close input.around.now) trivial

theorem primed_moves (s : Session) (input : CycleInput) :
    Moves d.paper Paper.Op.Valid s.paper (primed d s input).paper := by
  unfold primed
  induction input.primed generalizing s with
  | nil => exact .refl s.paper
  | cons close closes ih => exact (marked_moves s input close).trans (ih (marked d s input close))

theorem opened_moves (s : Session) (input : CycleInput) :
    Moves d.paper Paper.Op.Valid s.paper (opened d s input).paper := by
  have hprimed : Moves d.paper Paper.Op.Valid s.paper (primed d s input).paper :=
    primed_moves s input
  unfold opened
  split_ifs
  · exact hprimed.trans (marked_moves (primed d s input) input input.close)
  · exact hprimed

/-- The request of a signal is a market order under the key of the cycle, without metadata. -/
theorem actingRequest_market {paper : PaperState} {request : OrderRequest}
    (h : actingRequest paper input = some request) :
    request.orderType = .market ∧ request.symbol = input.symbol ∧
      request.idempotencyKey = input.clientOrderId ∧ request.metadata = {} := by
  unfold actingRequest at h
  split_ifs at h
  obtain ⟨hsome, -⟩ := Option.filter_eq_some_iff.mp h
  obtain ⟨signal, -, hrequest⟩ := Option.bind_eq_some_iff.mp hsome
  unfold signalRequest at hrequest
  split at hrequest
  · exact Option.some.inj hrequest ▸ ⟨rfl, rfl, rfl, rfl⟩
  · exact Option.some.inj hrequest ▸ ⟨rfl, rfl, rfl, rfl⟩
  · exact Option.some.inj hrequest ▸ ⟨rfl, rfl, rfl, rfl⟩
  · cases hrequest

theorem sendOrder_moves {request : OrderRequest} (hmeta : request.metadata = {}) (s : Session)
    (input : CycleInput) :
    Moves d.paper Paper.Op.Valid s.paper (sendOrder d s input request).session.paper := by
  have hgateway : Moves d.paper Paper.Op.Valid s.paper (gatewaySubmit d.settings d.paper s request
      (cycleContext d s.paper input) input.around).2.2.paper := by
    refine gatewaySubmit_moves (fun e => ?_) s _
    rw [Paper.Op.Valid, (approvedRequest_symbol _ e).2, hmeta]
    exact ⟨rfl, rfl, rfl⟩
  simp only [sendOrder]
  split_ifs <;> exact hgateway

/-- **A candle moves the ledger** by marks and by at most one submission. -/
theorem processCandle_moves (s : Session) (input : CycleInput) :
    Moves d.paper Paper.Op.Valid s.paper (processCandle d s input).session.paper := by
  have hopened : Moves d.paper Paper.Op.Valid s.paper (opened d s input).paper :=
    opened_moves s input
  simp only [processCandle]
  cases h : actingRequest (opened d s input).paper input with
  | none => exact hopened
  | some request => exact hopened.trans (sendOrder_moves (actingRequest_market h).2.2.2 _ input)

theorem closeSymbol_moves (symbol : String) (passes : List (String × Surroundings)) (s : Session) :
    Moves d.paper Paper.Op.Valid s.paper (closeSymbol d symbol passes s).paper := by
  induction passes generalizing s with
  | nil => exact .refl s.paper
  | cons pass passes ih =>
    have hmark : Moves d.paper Paper.Op.Valid s.paper (mark d.paper s symbol pass.2).2.paper :=
      mark_moves (fun _ _ _ => trivial) rfl symbol pass.2
    simp only [closeSymbol]
    split_ifs
    · exact hmark
    · exact hmark.trans (submit_moves_valid _ pass.1 pass.2 _)
    · exact (hmark.trans (submit_moves_valid _ pass.1 pass.2 _)).trans (ih _)

theorem placeOrder_moves (s : Session) (args : OrderArgs) (key : String) (around : Surroundings) :
    Moves d.paper Paper.Op.Valid s.paper (placeOrder d s args key around).paper := by
  have hmark : Moves d.paper Paper.Op.Valid s.paper (mark d.paper s args.symbol around).2.paper :=
    mark_moves (fun _ _ _ => trivial) rfl args.symbol around
  exact hmark.trans (submit_moves_valid args key around _)

theorem cycleSession_paper (r : Runtime) (input : CycleInput) :
    (cycleSession d r input).paper = (processCandle d r.session input).session.paper := by
  simp only [cycleSession, failClosed]
  split_ifs <;> rfl

theorem reconciledSession_paper (s : Session) : (reconciledSession d s).paper = s.paper := by
  unfold reconciledSession
  split_ifs <;> rfl

/-! ### The database -/

theorem checkpoint_marked (h : Paper.Sound s.paper) : s.checkpoint.Marked := by
  intro name row hrow
  rw [checkpoint, Dict.get?_map] at hrow
  obtain ⟨p, hp, rfl⟩ := Option.map_eq_some_iff.mp hrow
  exact (h.marked name p hp).unrealized

theorem persist_sound (h : db.Sound) (hs : Paper.Sound s.paper) :
    (s.persist d.column db).Sound where
  journal := h.journal
  marked := fun _ hc => Option.some.inj hc ▸ checkpoint_marked hs

theorem commit_ofState {c : Commit} (hc : c.OfState) (h : db.Sound) :
    (db.commit d.column c).Sound := by
  cases c with
  | log => exact h
  | order o => exact hc.elim
  | fill f => exact hc.elim
  | cycleKeys keys => exact ⟨h.journal, h.marked⟩
  | checkpoint s => exact persist_sound h hc
  | reconciliationHalt halted => exact ⟨h.journal, h.marked⟩

/-- What a commit of the state leaves alone. -/
theorem commit_ofState_journal {c : Commit} (hc : c.OfState) (db : Database) :
    (db.commit d.column c).orders = db.orders ∧ (db.commit d.column c).fills = db.fills := by
  cases c with
  | order o => exact hc.elim
  | fill f => exact hc.elim
  | log => exact ⟨rfl, rfl⟩
  | cycleKeys keys => exact ⟨rfl, rfl⟩
  | checkpoint s => exact ⟨rfl, rfl⟩
  | reconciliationHalt halted => exact ⟨rfl, rfl⟩

/-- What a commit to the journal leaves alone. -/
theorem commit_ofJournal {c : Commit} (hc : c.OfJournal) (db : Database) :
    (db.commit d.column c).checkpoint = db.checkpoint ∧
      (db.commit d.column c).cycleKeys = db.cycleKeys ∧
      (db.orders ≠ [] → (db.commit d.column c).orders ≠ []) := by
  cases c with
  | log => exact ⟨rfl, rfl, id⟩
  | order o => exact ⟨rfl, rfl, fun _ => List.append_ne_nil_of_right_ne_nil _ (List.cons_ne_nil _ _)⟩
  | fill f => exact ⟨rfl, rfl, id⟩
  | cycleKeys keys => exact hc.elim
  | checkpoint s => exact hc.elim
  | reconciliationHalt halted => exact hc.elim

theorem ofJournal_of_mem {outcome : Outcome} {c : Commit} (hc : c ∈ journalEntries outcome) :
    c.OfJournal := by
  obtain ⟨session, order, fills⟩ := outcome
  rcases List.mem_append.mp hc with hc | hc
  · cases order with
    | none => cases hc
    | some o =>
      rcases List.mem_cons.mp hc with rfl | hc
      · trivial
      rcases List.mem_cons.mp hc with rfl | hc
      · trivial
      obtain ⟨f, -, rfl⟩ := List.mem_map.mp hc
      trivial
  · simp only [List.mem_cons, List.not_mem_nil, or_false, or_self] at hc
    rw [hc]
    trivial

/-- The order comes before its fills, so no point has a fill without an order. -/
theorem journalEntries_sound (outcome : Outcome) (h : db.Sound) (n : ℕ) :
    (Commits.after (Database.commit d.column) db (journalEntries outcome) n).Sound := by
  have hmem : ∀ c ∈ journalEntries outcome, c.OfJournal := fun _ => ofJournal_of_mem
  obtain ⟨session, order, fills⟩ := outcome
  cases order with
  | none =>
    refine Commits.after_invariant (fun c hc db hdb => ?_) h n
    simp only [journalEntries, Option.elim, List.nil_append, List.mem_cons, List.not_mem_nil,
      or_false, or_self] at hc
    rw [hc]
    exact hdb
  | some o =>
    match n with
    | 0 => exact h
    | 1 => exact h
    | n + 2 =>
      -- the order is recorded: from here on the journal is not empty
      have hrest : ∀ c ∈ fills.map Commit.fill ++ [.log, .log], c.OfJournal := fun c hc =>
        hmem c (List.mem_cons_of_mem _ (List.mem_cons_of_mem _ hc))
      have hstep : ∀ c ∈ fills.map Commit.fill ++ [.log, .log], ∀ db' : Database,
          db'.orders ≠ [] ∧ db'.checkpoint = db.checkpoint →
          (db'.commit d.column c).orders ≠ [] ∧
            (db'.commit d.column c).checkpoint = db.checkpoint := by
        rintro c hc db' ⟨horders, hcheckpoint⟩
        obtain ⟨hsame, -, hgrow⟩ := @commit_ofJournal d c (hrest c hc) db'
        exact ⟨hgrow horders, hsame.trans hcheckpoint⟩
      have hrecorded : (db.recordOrder d.column o).orders ≠ [] :=
        List.append_ne_nil_of_right_ne_nil _ (List.cons_ne_nil _ _)
      have hkeep : (Commits.after (Database.commit d.column) (db.recordOrder d.column o)
            (fills.map Commit.fill ++ [.log, .log]) n).orders ≠ [] ∧ _ :=
        Commits.after_invariant hstep ⟨hrecorded, rfl⟩ n
      exact ⟨fun hnil => absurd hnil hkeep.1, fun c hc => h.marked c (hkeep.2 ▸ hc)⟩

/-- A point among the commits of a cycle to the journal. -/
theorem journalCommits_point (r : Runtime) (input : CycleInput) (n : ℕ) :
    let db := Commits.after (Database.commit d.column) r.db (journalCommits d r input) n
    (r.db.Sound → db.Sound) ∧ db.checkpoint = r.db.checkpoint ∧ db.cycleKeys = r.db.cycleKeys := by
  intro db
  have hpoint : db = Commits.after (Database.commit d.column) r.db
      (journalEntries (processCandle d r.session input)) _ :=
    Commits.after_prefix (Commits.written_prefix _ r.db) n
  have hstep : ∀ c ∈ journalEntries (processCandle d r.session input), ∀ db' : Database,
      db'.checkpoint = r.db.checkpoint ∧ db'.cycleKeys = r.db.cycleKeys →
      (db'.commit d.column c).checkpoint = r.db.checkpoint ∧
        (db'.commit d.column c).cycleKeys = r.db.cycleKeys := by
    rintro c hc db' ⟨hcheckpoint, hkeys⟩
    obtain ⟨hsame, hkept, -⟩ := @commit_ofJournal d c (ofJournal_of_mem hc) db'
    exact ⟨hsame.trans hcheckpoint, hkept.trans hkeys⟩
  rw [hpoint]
  exact ⟨fun h => journalEntries_sound _ h _, Commits.after_invariant hstep ⟨rfl, rfl⟩ _⟩

/-! ### The runtime -/

/-- What holds of every runtime that is reached. -/
structure RuntimeSound (r : Runtime) : Prop where
  ledger : Paper.Sound r.session.paper
  db : r.db.Sound
  keys : r.db.cycleKeys = r.processed

theorem cycleSession_sound (h : Paper.Sound r.session.paper) (input : CycleInput) :
    Paper.Sound (cycleSession d r input).paper := by
  rw [cycleSession_paper]
  exact (processCandle_moves r.session input).sound h

theorem closingCommits_ofState (h : Paper.Sound r.session.paper) (input : CycleInput) :
    ∀ c ∈ closingCommits d r input, c.OfState := by
  have hverdict : ∀ c ∈ verdictCommits d (cycleSession d r input).paper, c.OfState := by
    intro c hc
    unfold verdictCommits at hc
    split_ifs at hc
    · simp only [List.mem_cons, List.not_mem_nil, or_false] at hc
      rcases hc with rfl | rfl | rfl <;> trivial
    · cases hc
  intro c hc
  rcases List.mem_append.mp hc with hc | hc
  · simp only [List.mem_cons, List.not_mem_nil, or_false] at hc
    rcases hc with rfl | rfl | rfl | rfl
    · trivial
    · trivial
    · exact cycleSession_sound h input
    · trivial
  · exact hverdict c hc

/-- The keys are committed once and not touched again. -/
theorem closingCommits_keys (r : Runtime) (input : CycleInput) (db : Database) :
    ((closingCommits d r input).foldl (Database.commit d.column) db).cycleKeys =
      input.key :: r.processed := by
  unfold closingCommits verdictCommits
  split_ifs <;> rfl

theorem RuntimeSound.cycle (h : RuntimeSound r) (input : CycleInput) :
    RuntimeSound (cycle d r input) where
  ledger := by
    simp only [Runtime.cycle, reconciledSession_paper]
    exact cycleSession_sound h.ledger input
  db := by
    have hjournal : ((journalCommits d r input).foldl (Database.commit d.column) r.db).Sound := by
      rw [← Commits.after_length]
      exact (journalCommits_point r input _).1 h.db
    simp only [Runtime.cycle, cycleCommits, List.foldl_append]
    exact Commits.foldl_invariant
      (fun c hc db hdb => commit_ofState (closingCommits_ofState h.ledger input c hc) hdb) hjournal
  keys := by
    simp only [Runtime.cycle, cycleCommits, List.foldl_append, closingCommits_keys]

theorem RuntimeSound.persisted (h : RuntimeSound r)
    (hs : Moves d.paper Paper.Op.Valid r.session.paper s.paper) :
    RuntimeSound (persisted d r s) where
  ledger := hs.sound h.ledger
  db := persist_sound h.db (hs.sound h.ledger)
  keys := h.keys

/-- A step keeps the runtime sound. -/
theorem RuntimeSound.step {action : RuntimeAction} (h : RuntimeSound r)
    (hstep : step d r action = some r') : RuntimeSound r' := by
  cases action with
  | placeOrder args key around =>
    rw [← Option.some.inj hstep]
    exact h.persisted (placeOrder_moves r.session args key around)
  | closePosition symbol passes =>
    rw [← Option.some.inj hstep]
    exact h.persisted (closeSymbol_moves symbol (passes.take 4) r.session)
  | prime input =>
    rw [← Option.some.inj hstep]
    exact ⟨(primed_moves r.session input).sound h.ledger, h.db, h.keys⟩
  | cycle input =>
    simp only [Runtime.step] at hstep
    split_ifs at hstep
    rw [← Option.some.inj hstep]
    exact h.cycle input

/-- **Every runtime that is reached is sound.** -/
theorem runtimeSound_of_reached (h : Reached d r) : RuntimeSound r := by
  refine h.invariant (I := RuntimeSound) ?_ fun _ _ _ hr _ hstep => hr.step hstep
  exact ⟨Paper.Sound.fresh ∅, ⟨fun _ => rfl, fun _ hc => by cases hc⟩, rfl⟩

/-! ### What is recovered -/

/-- Everything a restart should recover of the session `s`. -/
structure Recovered (s t : Session) : Prop where
  ledger : SameLedger s.paper t.paper
  realizedPnl : t.paper.realizedPnl = s.paper.realizedPnl
  peakEquity : t.peakEquity = s.peakEquity
  dailyStartEquity : t.dailyStartEquity = s.dailyStartEquity
  consecutiveLosses : t.consecutiveLosses = s.consecutiveLosses
  indexKeys : ∀ k, (t.paper.idempotencyIndex.get? k).isSome =
    (s.paper.idempotencyIndex.get? k).isSome
  indexOrders : ∀ k j, t.paper.idempotencyIndex.get? k = some j → (t.paper.orders.get? j).isSome

/-- The numeric columns keep the equities of the session.  A stored zero is not used:
what the checkpoint gave stands, where the highest equity is at least the equity. -/
def ColumnsKeep (d : Deployment) (s : Session) : Prop :=
  (if d.column s.peakEquity = 0 then s.paper.equity ≤ s.peakEquity
    else d.column s.peakEquity = s.peakEquity) ∧
    (d.column s.dailyStartEquity = 0 ∨ d.column s.dailyStartEquity = s.dailyStartEquity)

instance (d : Deployment) (s : Session) : Decidable (ColumnsKeep d s) :=
  inferInstanceAs (Decidable (_ ∧ _))

/-- The checkpoint of a ledger is one of it. -/
theorem checkpoint_of (hk : Paper.Keyed s.paper) : s.checkpoint.Of s.paper where
  cash := rfl
  reservedCash := rfl
  positions := fun name => by rw [checkpoint, Dict.get?_map]
  orders := Dict.get?_setAll_values hk.id_eq
  fills := .refl _

/-- A checkpoint of the ledger is in the database. -/
theorem persist_holds (hk : Paper.Keyed s.paper) :
    (s.persist d.column db).Holds d.paper s.paper := checkpoint_of hk

/-- Orders that are in an index already leave it as it is. -/
theorem get?_indexOrders {orders : List Order} {index : Dict String Ident}
    (h : ∀ o ∈ orders, index.get? o.idempotencyKey = some o.id) (k : String) :
    (orders.foldl (fun index o => index.set o.idempotencyKey o.id) index).get? k =
      index.get? k := by
  induction orders generalizing index with
  | nil => rfl
  | cons o orders ih =>
    have hsame : ∀ k, (index.set o.idempotencyKey o.id).get? k = index.get? k := by
      intro k
      rw [Dict.get?_set]
      split_ifs with hk
      · rw [← hk, h o (List.mem_cons_self ..)]
      · rfl
    rw [List.foldl_cons, ih fun o' ho' => (hsame _).trans (h o' (List.mem_cons_of_mem _ ho')), hsame]

/-- The equity the hydration reads off the checkpoint is that of the session. -/
theorem remark_equity (draws : ℕ) (now : Time) (hs : Paper.Sound s.paper) :
    (remark d.paper (loadLedger (restarted d.paper d.settings draws).paper s.checkpoint)
      now).equity = s.paper.equity := by
  obtain ⟨marks, hremark⟩ : ∃ marks, remark d.paper (loadLedger
      (restarted d.paper d.settings draws).paper s.checkpoint) now = _ :=
    remark_checkpoint draws now (checkpoint_marked hs)
  rw [hremark]
  simp only [PaperState.equity]
  rw [loadLedger, Dict.sum_map (h := fun r => r.quantity * r.currentPrice),
    checkpoint, Dict.sum_map (h := fun p => p.quantity * p.currentPrice)]
  · exact fun _ _ => rfl
  · exact fun _ _ => rfl

/-- The scalars of a session that is persisted and hydrated. -/
theorem hydrate_scalars (draws : ℕ) (now : Time) (hs : Paper.Sound s.paper) :
    let t := hydrate d.paper (restarted d.paper d.settings draws) (s.persist d.column db) now
    t.peakEquity = (if d.column s.peakEquity = 0 then max s.peakEquity s.paper.equity
        else d.column s.peakEquity) ∧
      t.dailyStartEquity = (if d.column s.dailyStartEquity = 0 then s.dailyStartEquity
        else d.column s.dailyStartEquity) ∧
      t.consecutiveLosses = s.consecutiveLosses := by
  have hequity := @remark_equity d s draws now hs
  obtain ⟨killSwitch, halt, checkpoint, riskState, orders, fills, keys⟩ := db
  refine ⟨?_, ?_, ?_⟩
  · rw [← hequity]
    cases halt <;> rfl
  · cases halt <;> rfl
  · have hlosses : (if s.consecutiveLosses = 0 then s.consecutiveLosses else s.consecutiveLosses) =
        s.consecutiveLosses := ite_self _
    cases halt <;> exact hlosses

/-- What the index and the realized profit come back as, with an empty journal. -/
theorem hydrate_index (draws : ℕ) (now : Time) (hs : Paper.Sound s.paper) (horders : db.orders = [])
    (hfills : db.fills = []) :
    let t := hydrate d.paper (restarted d.paper d.settings draws) (s.persist d.column db) now
    t.paper.realizedPnl = s.paper.realizedPnl ∧
      ∀ k, t.paper.idempotencyIndex.get? k = s.paper.idempotencyIndex.get? k := by
  intro t
  obtain ⟨marks, heq⟩ : ∃ marks, t.paper = _ :=
    hydrate_checkpoint draws horders hfills rfl (checkpoint_marked hs)
  rw [heq]
  refine ⟨rfl, get?_indexOrders fun o ho => ?_⟩
  obtain ⟨j, hj⟩ := Dict.mem_values_iff.mp ho
  have hget : s.paper.orders.get? j = some o := ((checkpoint_of hs.keyed).orders j).symm.trans hj
  rw [hs.keyed.id_eq hget]
  exact hs.indexed j o hget

theorem max_eq_left_iff_columnsKeep {p e c : ℚ} :
    (if c = 0 then max p e else c) = p ↔ if c = 0 then e ≤ p else c = p := by
  split_ifs
  · exact max_eq_left_iff
  · exact Iff.rfl

/-- **When a restart recovers the session**: no order is in the journal, no open
position has realized a profit, and the numeric columns keep the equities. -/
theorem recovered_iff {d : Deployment} {r : Runtime} (h : Reached d r) (draws : ℕ) (now : Time) :
    Recovered r.session (hydrate d.paper (restarted d.paper d.settings draws)
        (r.session.persist d.column r.db) now) ↔
      r.db.orders = [] ∧ r.session.paper.Unrealized ∧ ColumnsKeep d r.session := by
  have hr : RuntimeSound r := runtimeSound_of_reached h
  obtain ⟨hpeak, hdaily, hlosses⟩ := @hydrate_scalars d r.session r.db draws now hr.ledger
  have hledger : SameLedger r.session.paper (hydrate d.paper (restarted d.paper d.settings draws)
      (r.session.persist d.column r.db) now).paper ↔ _ :=
    hydrate_sameLedger_iff draws hr.ledger hr.db.journal (persist_sound hr.db hr.ledger).marked
  constructor
  · intro hrec
    obtain ⟨horders, hrealized, -⟩ := hledger.mp hrec.ledger
    refine ⟨horders, hrealized, ?_, ?_⟩
    · rw [← max_eq_left_iff_columnsKeep, ← hpeak]
      exact hrec.peakEquity
    · have hsame := hrec.dailyStartEquity
      rw [hdaily] at hsame
      split_ifs at hsame with hzero
      · exact .inl hzero
      · exact .inr hsame
  · rintro ⟨horders, hrealized, hkeepPeak, hkeepDaily⟩
    have hsame : SameLedger r.session.paper _ :=
      hledger.mpr ⟨horders, hrealized, persist_holds hr.ledger.keyed⟩
    obtain ⟨hpnl, hindex⟩ :=
      @hydrate_index d r.session r.db draws now hr.ledger horders (hr.db.journal horders)
    refine ⟨hsame, hpnl, ?_, ?_, hlosses, fun k => by rw [hindex k], fun k j hj => ?_⟩
    · rw [hpeak, max_eq_left_iff_columnsKeep]
      exact hkeepPeak
    · rw [hdaily]
      split_ifs with hzero
      · rfl
      · exact hkeepDaily.resolve_left hzero
    · rw [hindex k] at hj
      rw [hsame.orders j]
      exact hr.ledger.keyed.index hj

/-- The default settings, and a database that keeps every number. -/
def exactDeployment : Deployment := { settings := {}, paper := {}, column := id }

/-- A manual BUY of one unit at the mark 100. -/
def manualBuy : RuntimeAction :=
  .placeOrder { symbol := "BTC/USDT", side := .buy, orderType := .market, quantity := 1 } "manual"
    { now := 0, seriesMark := 100 }

/-- A cycle with a BUY signal at the close 100. -/
def buyCycle : CycleInput where
  key := ⟨"BTC/USDT", "1", "1m", 0⟩
  close := 100
  signal := some { direction := .buy }
  clientOrderId := "cycle-BTCUSDT-0-buy"
  peakEquity := 10000
  around := { now := 0, seriesMark := 100 }

/-- A filled manual BUY is recovered. -/
theorem recovered_manual_buy :
    ∃ r, Reached exactDeployment r ∧ r.session.paper.fills ≠ [] ∧
      Recovered r.session (hydrate exactDeployment.paper
        (restarted exactDeployment.paper exactDeployment.settings 2)
        (r.session.persist exactDeployment.column r.db) 0) := by
  obtain ⟨r, hr, hfills, hcond⟩ : ∃ r, Reached exactDeployment r ∧ r.session.paper.fills ≠ [] ∧
      r.db.orders = [] ∧ r.session.paper.Unrealized ∧ ColumnsKeep exactDeployment r.session :=
    exists_reachable [manualBuy] (by decide +kernel) (by decide +kernel)
  exact ⟨r, hr, hfills, (recovered_iff hr 2 0).mpr hcond⟩

/-- The order of a cycle comes back from the journal without its risk decision. -/
theorem cycle_order_not_recovered :
    ∃ r, Reached exactDeployment r ∧
      ¬ Recovered r.session (hydrate exactDeployment.paper
        (restarted exactDeployment.paper exactDeployment.settings 2)
        (r.session.persist exactDeployment.column r.db) 0) := by
  obtain ⟨r, hr, hdiffer⟩ : ∃ r, Reached exactDeployment r ∧
      (hydrate exactDeployment.paper (restarted exactDeployment.paper exactDeployment.settings 2)
        (r.session.persist exactDeployment.column r.db) 0).paper.orders.get? (.uuid4 0) ≠
        r.session.paper.orders.get? (.uuid4 0) :=
    exists_reachable [.cycle buyCycle] (by decide +kernel) (by decide +kernel)
  exact ⟨r, hr, fun h => hdiffer (h.ledger.orders (.uuid4 0))⟩

end Runtime

end Atlas
