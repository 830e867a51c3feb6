import Atlas.Session.Alongside
import Atlas.Session.Restart

/-!
# What a run of calls keeps

The calls of one strategy on the candles of one symbol, from a new service.  The
orchestrator goes by its window, and every order, in the ledger or in the journal, is a
market order for a candle of the window, under a key that carries the time of the candle.
So the key of an order is always new, to the ledger and to the risk engine, and the
identifiers that are still to be drawn name nothing that is recorded.

## Main definitions

* `Journaled` — the journal by the window and the identifiers drawn.
* `Steady` — a runtime and its orchestrator.
* `Service.after` — a new service after some calls.

## Main results

* `Runtime.processCandle_order` — **the order of a candle**.
* `Steady.step`, `Steady.run` — **every call keeps it, and so every run**.

## References

`app/services/trading_orchestrator.py`, `app/journal/store.py`.
-/

namespace Atlas

open Paper Session

variable {d : Deployment} {registry : Registry} {failClosed : Bool}
  {strategyId symbol sessionId : String} {window : List Candle} {s : Session} {o : Orchestrator}
  {svc : Service} {call : CycleCall} {input : CycleInput} {request : OrderRequest}
  {context : RiskContext} {around : Surroundings} {db : Database} {next : ℕ}

/-! ### The order of a candle -/

/-- The order the gateway returns: it is a market order under the key of the request, and
its identifier has been drawn. -/
theorem gateway_order (h : Regular window s) (htype : request.orderType = .market)
    (hnew : ¬OrderKey window request.idempotencyKey) :
    let r := gatewaySubmit d.settings d.paper s request context around
    s.paper.nextUuid ≤ r.2.2.paper.nextUuid ∧ ∀ order, r.2.1 = some order →
      order.orderType = .market ∧ order.idempotencyKey = request.idempotencyKey ∧
        ∃ n < r.2.2.paper.nextUuid, order.id = .uuid4 n := by
  simp only [gatewaySubmit]
  generalize Risk.evaluate d.settings s.risk request context around.now = r
  split_ifs
  · exact ⟨le_rfl, fun _ hnone => by cases hnone⟩
  · obtain ⟨hkey, htype'⟩ := approvedRequest_key request r.1
    have hnone := h.unindexed (hkey ▸ hnew)
    have hw := @submitAfterLatency_works d.paper s.paper (approvedRequest request r.1) r.1
      around.roll around.now
    obtain ⟨⟨hid, hmarket⟩, -, -, -, hnext, -⟩ := @submitAfterLatency_stores d.paper s.paper r.1
      around.now (approvedRequest request r.1) around.roll
    simp only [Paper.submit, hnone, Option.map_some, Option.some.injEq]
    refine ⟨hnext.le, ?_⟩
    rintro order rfl
    exact ⟨hmarket.trans (htype'.trans htype), hw.same.key.trans hkey, _, hnext, hid⟩

namespace Runtime

/-- **The order of a candle**, and the fills that go with it. -/
theorem processCandle_order (h : Regular window s) (hprimed : input.primed = [])
    (hnew : ¬OrderKey window input.clientOrderId) :
    let r := processCandle d s input
    s.paper.nextUuid ≤ r.session.paper.nextUuid ∧
      (∀ order, r.order = some order → order.orderType = .market ∧
        order.idempotencyKey = input.clientOrderId ∧
        ∀ n, order.id = .uuid4 n → n < r.session.paper.nextUuid) ∧
      ∀ f ∈ r.fills, f ∈ r.session.paper.fills := by
  have hopened : Regular window (opened d s input) := opened_regular h hprimed
  have hnext : (opened d s input).paper.nextUuid = s.paper.nextUuid := by
    simp only [opened, primed, hprimed, List.foldl_nil]
    split_ifs
    · rw [marked, (h.ledger.quiet input.symbol input.close).setMarkPrice_eq]
      rfl
    · rfl
  simp only [processCandle, ← hnext]
  cases hrequest : actingRequest (opened d s input).paper input with
  | none => exact ⟨le_rfl, fun _ hnone => (by cases hnone), fun _ hf => (List.not_mem_nil hf).elim⟩
  | some request =>
    obtain ⟨htype, -, hkey, -⟩ := actingRequest_market hrequest
    obtain ⟨hle, horder⟩ := @gateway_order d window (opened d s input) request
      (cycleContext d (opened d s input).paper input) input.around hopened htype (hkey ▸ hnew)
    simp only [Option.elim, sendOrder]
    split_ifs
    · refine ⟨hle, ?_, fun _ hf => (List.not_mem_nil hf).elim⟩
      rintro order hsome
      rw [← Option.some.inj hsome]
      exact ⟨htype, hkey, fun _ hid => by cases hid⟩
    · refine ⟨hle, fun order hsome => ?_, fun f hf => ?_⟩
      · obtain ⟨hmarket, hsame, n, hn, hid⟩ := horder order hsome
        refine ⟨hmarket, hsame.trans hkey, fun m hm => ?_⟩
        rw [hid, Ident.uuid4.injEq] at hm
        exact hm ▸ hn
      · cases hsome : (gatewaySubmit d.settings d.paper (opened d s input) request
          (cycleContext d (opened d s input).paper input) input.around).2.1 with
        | none =>
          rw [hsome] at hf
          exact (List.not_mem_nil hf).elim
        | some order =>
          rw [hsome] at hf
          exact List.mem_of_mem_filter hf

end Runtime

/-! ### The journal -/

/-- The journal has market orders under keys of the window, and its identifiers have been
drawn. -/
structure Journaled (window : List Candle) (next : ℕ) (db : Database) : Prop where
  market : ∀ o ∈ db.orders, o.orderType = .market
  keys : ∀ o ∈ db.orders, OrderKey window o.idempotencyKey
  orders : ∀ o ∈ db.orders, ∀ n, o.id = .uuid4 n → n < next
  fills : ∀ f ∈ db.fills, ∀ n, f.orderId = .uuid4 n → n < next

theorem Journaled.mono {window' : List Candle} {next' : ℕ} (h : Journaled window next db)
    (hsub : window ⊆ window') (hle : next ≤ next') : Journaled window' next' db where
  market := h.market
  keys := fun o ho => (h.keys o ho).mono hsub
  orders := fun o ho n hn => (h.orders o ho n hn).trans_le hle
  fills := fun f hf n hn => (h.fills f hf n hn).trans_le hle

theorem Journaled.recordOrder {order : Order} {column : ℚ → ℚ} (h : Journaled window next db)
    (hmarket : order.orderType = .market) (hkey : OrderKey window order.idempotencyKey)
    (hid : ∀ n, order.id = .uuid4 n → n < next) :
    Journaled window next (db.recordOrder column order) := by
  have hmem : ∀ o ∈ (db.recordOrder column order).orders, o ∈ db.orders ∨ o = order.stored column :=
    fun o ho => (List.mem_append.mp ho).imp_right List.mem_singleton.mp
  refine ⟨fun o ho => ?_, fun o ho => ?_, fun o ho => ?_, h.fills⟩
  · rcases hmem o ho with ho | rfl
    · exact h.market o ho
    · exact hmarket
  · rcases hmem o ho with ho | rfl
    · exact h.keys o ho
    · exact hkey
  · rcases hmem o ho with ho | rfl
    · exact h.orders o ho
    · exact hid

theorem Journaled.recordFill {fill : Fill} {column : ℚ → ℚ} (h : Journaled window next db)
    (hid : ∀ n, fill.orderId = .uuid4 n → n < next) :
    Journaled window next (db.recordFill column fill) := by
  refine ⟨h.market, h.keys, h.orders, fun f hf => ?_⟩
  rcases List.mem_append.mp hf with hf | hf
  · exact h.fills f hf
  · rw [List.mem_singleton.mp hf]
    exact hid

/-- **A cycle keeps the journal so**, if its order does. -/
theorem Journaled.cycle {r : Runtime} (h : Journaled window next r.db)
    (hsound : Runtime.RuntimeSound r)
    (horder : ∀ o, (Runtime.processCandle d r.session input).order = some o →
      o.orderType = .market ∧ OrderKey window o.idempotencyKey ∧ ∀ n, o.id = .uuid4 n → n < next)
    (hfills : ∀ f ∈ (Runtime.processCandle d r.session input).fills,
      ∀ n, f.orderId = .uuid4 n → n < next) :
    Journaled window next (Runtime.cycle d r input).db := by
  have hjournal : Journaled window next
      ((Runtime.journalCommits d r input).foldl (Database.commit d.column) r.db) := by
    refine Commits.foldl_invariant (fun c hc db hdb => ?_) h
    have hentry : c ∈ Runtime.journalEntries (Runtime.processCandle d r.session input) :=
      (Commits.written_prefix _ r.db).subset hc
    rcases List.mem_append.mp hentry with hentry | hentry
    · cases hsome : (Runtime.processCandle d r.session input).order with
      | none =>
        rw [hsome] at hentry
        exact (List.not_mem_nil hentry).elim
      | some o =>
        obtain ⟨hmarket, hkey, hid⟩ := horder o hsome
        simp only [hsome, Option.elim, List.mem_cons, List.mem_map] at hentry
        rcases hentry with rfl | rfl | ⟨f, hf, rfl⟩
        · exact hdb
        · exact hdb.recordOrder hmarket hkey hid
        · exact hdb.recordFill (hfills f hf)
    · simp only [List.mem_cons, List.not_mem_nil, or_false, or_self] at hentry
      rw [hentry]
      exact hdb
  have hstate : ∀ c ∈ Runtime.closingCommits d r input, ∀ db, Journaled window next db →
      Journaled window next (db.commit d.column c) := by
    intro c hc db hdb
    have hc : c.OfState := Runtime.closingCommits_ofState hsound.ledger input c hc
    obtain ⟨horders, hfills⟩ := @Runtime.commit_ofState_journal d c hc db
    exact ⟨horders ▸ hdb.market, horders ▸ hdb.keys, horders ▸ hdb.orders, hfills ▸ hdb.fills⟩
  simp only [Runtime.cycle, Runtime.cycleCommits, List.foldl_append]
  exact Commits.foldl_invariant hstate hjournal

/-! ### Calls -/

/-- What every call keeps of a runtime and its orchestrator. -/
structure Steady (symbol : String) (r : Runtime) (o : Orchestrator) : Prop where
  orderly : Orderly symbol (o.windowOf symbol) r.session o
  journaled : Journaled (o.windowOf symbol) r.session.paper.nextUuid r.db
  sound : Runtime.RuntimeSound r

theorem Paper.Sound.markedAll {cfg : PaperConfig} {now : Time} (marks : List (String × ℚ)) :
    ∀ {s : PaperState}, Sound s → Sound (markAll cfg now s marks) := by
  induction marks with
  | nil => exact fun h => h
  | cons m marks ih =>
    exact fun h => ih (@Sound.step cfg _ (.setMarkPrice m.1 m.2 now) h trivial)

/-- Warming up keeps it. -/
theorem Steady.primed {candles : List Candle} {now : Time} {r : Runtime} (h : Steady symbol r o)
    (hloads : ∀ c ∈ candles, Orchestrator.Loads symbol c)
    (hdated : ∀ c ∈ candles, c.Dated symbol) :
    let p := o.primeCandles d.paper now r.session.paper candles
    Steady symbol { r with session := { r.session with paper := p.paper } } p.orchestrator := by
  intro p
  obtain ⟨hordered, hgrown, -, hpaper⟩ :=
    @Orderly.primed d symbol _ r.session o candles now h.orderly hloads hdated
  have hsub : o.windowOf symbol ⊆ p.orchestrator.windowOf symbol := by
    rw [hgrown]
    exact List.subset_append_left ..
  obtain ⟨prices, positions, hmarks, -⟩ := h.orderly.regular.ledger.markAll_eq d.paper now
    ((newer (o.windowOf symbol) candles).map fun c => (c.symbol, c.close))
  have hnext : p.paper.nextUuid = r.session.paper.nextUuid := by
    rw [hpaper, hmarks]
  refine ⟨hordered.mono hsub, h.journaled.mono hsub hnext.ge, ?_, h.sound.db, h.sound.keys⟩
  show Paper.Sound p.paper
  rw [hpaper]
  exact h.sound.ledger.markedAll _

theorem Steady.journal {r : Runtime} {window : List Candle} (h : Steady symbol r o)
    (hsub : o.windowOf symbol ⊆ window)
    (hnext : r.session.paper.nextUuid ≤
      (Runtime.processCandle d r.session input).session.paper.nextUuid)
    (horder : ∀ order, (Runtime.processCandle d r.session input).order = some order →
      order.orderType = .market ∧ OrderKey window order.idempotencyKey ∧ ∀ n, order.id = .uuid4 n →
        n < (Runtime.processCandle d r.session input).session.paper.nextUuid)
    (hfills : ∀ f ∈ (Runtime.processCandle d r.session input).fills,
      f ∈ (Runtime.processCandle d r.session input).session.paper.fills) :
    Journaled window (Runtime.cycle d r input).session.paper.nextUuid
      (Runtime.cycle d r input).db := by
  have hpaper : (Runtime.cycle d r input).session.paper =
      (Runtime.processCandle d r.session input).session.paper :=
    (Runtime.reconciledSession_paper _).trans (Runtime.cycleSession_paper r input)
  have hkeyed : Keyed (Runtime.processCandle d r.session input).session.paper := by
    rw [← hpaper]
    exact (h.sound.cycle input).ledger.keyed
  rw [hpaper]
  refine (h.journaled.mono hsub hnext).cycle h.sound horder fun f hf n hn => ?_
  -- a recorded fill belongs to a stored order
  obtain ⟨order, hget⟩ := Option.isSome_iff_exists.mp (hkeyed.fills f (hfills f hf))
  obtain ⟨m, hm, heq⟩ := hkeyed.drawn hget
  rw [heq, Ident.uuid4.injEq] at hn
  exact hn ▸ hm

/-- **An evaluation keeps it.** -/
theorem Steady.evaluated {target : Candle} (h : Steady symbol svc.runtime o)
    (hloads : Orchestrator.Loads symbol target) (hdated : target.Dated symbol) :
    let r := evaluateCandle d registry svc call o target
    ∃ o₂, r.2.orchestrators = svc.orchestrators.set (sessionKey call.symbol call.strategyId) o₂ ∧
      Steady symbol r.2.runtime o₂ := by
  intro r
  by_cases hnone : o.rejectReason target call.around.now = none
  · have hr : r = _ := (evaluateCandle_eq d registry svc call o target).trans (if_pos hnone)
    obtain ⟨hordered, hgrown⟩ :=
      @Orderly.taken d registry symbol _ o svc call target h.orderly hloads hdated hnone
    have hlater : ∀ c ∈ o.windowOf symbol, c.openTime < target.openTime :=
      (h.orderly.intake.rejectReason_iff hloads).mp hnone
    obtain ⟨bars, peak, hdecided⟩ := @decided_orchestrator d registry o svc call target
    have hnamed : 8 ≤ (decided d registry svc call o target).2.sessionId.length := by
      rw [hdecided]
      exact h.orderly.named
    have hnew : ¬OrderKey (o.windowOf symbol)
        (takenInput d registry svc call o target).clientOrderId :=
      clientOrderId_new hnamed h.orderly.dated hdated hlater
    have hkey : OrderKey (o.windowOf symbol ++ [target])
        (takenInput d registry svc call o target).clientOrderId :=
      ⟨_, target, _, hnamed, by simp, rfl⟩
    obtain ⟨hnext, horder, hfills⟩ :=
      @Runtime.processCandle_order d _ _ (takenInput d registry svc call o target) h.orderly.regular
        rfl hnew
    rw [hr]
    refine ⟨_, rfl, ?_, ?_, h.sound.cycle _⟩
    · rw [hgrown]
      exact hordered
    · rw [hgrown]
      refine h.journal (List.subset_append_left ..) hnext (fun order hsome => ?_) hfills
      obtain ⟨hmarket, hsame, hid⟩ := horder order hsome
      exact ⟨hmarket, hsame ▸ hkey, hid⟩
  · have hr : r = _ := (evaluateCandle_eq d registry svc call o target).trans (if_neg hnone)
    have hsession : Runtime.processCandle d svc.runtime.session
        (rejectedInput d registry svc call o target) = { session := svc.runtime.session } :=
      Runtime.processCandle_unaccepted rfl rfl
    rw [hr]
    refine ⟨_, rfl, h.orderly.rejected, ?_, h.sound.cycle _⟩
    refine h.journal (List.Subset.refl _) ?_ (fun order hsome => ?_) fun f hf => ?_
    · rw [hsession]
    · rw [hsession] at hsome
      cases hsome
    · rw [hsession] at hf
      exact (List.not_mem_nil hf).elim

/-- Reading the portfolio keeps it. -/
theorem Steady.portfolioState {r : Runtime} (h : Steady symbol r o) (cash : ℚ) (paper : PaperState) :
    Steady symbol r (o.portfolioState cash paper).2 :=
  ⟨⟨h.orderly.intake.of_intake rfl rfl, h.orderly.dated, h.orderly.named, h.orderly.killSwitch,
    h.orderly.regular⟩, h.journaled, h.sound⟩

/-- **A call keeps it.** -/
theorem Steady.step
    (h : Steady symbol svc.runtime
      (svc.orchestratorFor d.paper.initialCash strategyId symbol sessionId))
    (hcall : call.Of strategyId symbol sessionId) (hmillis : call.OnMillis) :
    let r := runCycle d registry failClosed svc call
    Steady symbol r.2.runtime
      (r.2.orchestratorFor d.paper.initialCash strategyId symbol sessionId) := by
  intro r
  rw [← hcall.orchestratorOf] at h
  have hstored : ∀ {o : Orchestrator} {paper : PaperState},
      Steady symbol (svc.store call o paper).runtime o →
      Steady symbol (svc.store call o paper).runtime
        ((svc.store call o paper).orchestratorFor d.paper.initialCash strategyId symbol
          sessionId) := by
    intro o paper hsteady
    rwa [orchestratorFor_cached (hcall.stored o) sessionId]
  have hwarmed : Steady symbol (svc.warmed d call).runtime (svc.primed d call).orchestrator :=
    h.primed (fun c hc => hcall.loads c (List.mem_of_mem_dropLast hc))
      fun c hc => hcall.dated hmillis c (List.mem_of_mem_dropLast hc)
  have hgoes : call.Goes d registry svc r := runCycle_goes ..
  generalize r = r at hgoes ⊢
  cases hgoes with
  | halted _ => exact hstored h
  | noCandles _ _ => exact hstored h
  | replayed target _ _ _ => exact hstored (hwarmed.portfolioState _ _)
  | locked target ending _ _ _ _ _ => exact hstored hwarmed
  | evaluated target _ hlast _ =>
    have htarget : target ∈ call.candles := List.mem_of_getLast? hlast
    obtain ⟨o₂, hset, hsteady⟩ := @Steady.evaluated d registry symbol _ (svc.warmed d call) call
      target hwarmed (hcall.loads target htarget) (hcall.dated hmillis target htarget)
    rwa [orchestratorFor_cached
      ((congrArg (Dict.get? · _) hset).trans (hcall.stored o₂)) sessionId]

/-- The service after some calls on a new one. -/
def Service.after (d : Deployment) (registry : Registry) (failClosed : Bool)
    (calls : List CycleCall) : Service :=
  calls.foldl (Service.next d registry failClosed) { runtime := Runtime.initial d }

/-- A new service is steady. -/
theorem Steady.initial (hnamed : 8 ≤ sessionId.length) :
    Steady symbol (Runtime.initial d)
      (({ runtime := Runtime.initial d } : Service).orchestratorFor d.paper.initialCash strategyId
        symbol sessionId) where
  orderly :=
    { intake := .new sessionId d.paper.initialCash _
      dated := fun _ hc => (List.not_mem_nil hc).elim
      named := hnamed
      killSwitch := rfl
      regular :=
        { ledger := .fresh ∅
          indexed := fun _ _ hget => by cases hget
          seen := fun _ hk => (List.not_mem_nil hk).elim } }
  journaled :=
    { market := fun _ ho => (List.not_mem_nil ho).elim
      keys := fun _ ho => (List.not_mem_nil ho).elim
      orders := fun _ ho => (List.not_mem_nil ho).elim
      fills := fun _ hf => (List.not_mem_nil hf).elim }
  sound := Runtime.runtimeSound_of_reached .init

/-- **Every run of calls from a new service keeps it.** -/
theorem Steady.run {calls : List CycleCall} (hnamed : 8 ≤ sessionId.length)
    (hcalls : ∀ call ∈ calls, call.Of strategyId symbol sessionId ∧ call.OnMillis) :
    let svc := Service.after d registry failClosed calls
    Steady symbol svc.runtime
      (svc.orchestratorFor d.paper.initialCash strategyId symbol sessionId) := by
  have hrun : ∀ (calls : List CycleCall) (svc : Service),
      (∀ call ∈ calls, call.Of strategyId symbol sessionId ∧ call.OnMillis) →
      Steady symbol svc.runtime
        (svc.orchestratorFor d.paper.initialCash strategyId symbol sessionId) →
      Steady symbol (calls.foldl (Service.next d registry failClosed) svc).runtime
        ((calls.foldl (Service.next d registry failClosed) svc).orchestratorFor
          d.paper.initialCash strategyId symbol sessionId) := by
    intro calls
    induction calls with
    | nil => exact fun _ _ h => h
    | cons call calls ih =>
      intro svc hcalls h
      obtain ⟨hof, hmillis⟩ := hcalls call (List.mem_cons_self ..)
      exact ih _ (fun c hc => hcalls c (List.mem_cons_of_mem _ hc)) (h.step hof hmillis)
  exact hrun calls _ hcalls (Steady.initial hnamed)

end Atlas
