import Atlas.Lib.Unwinding
import Atlas.Session.Replay
import Atlas.Session.Warmup

/-!
# Two timeframes and one orchestrator

The orchestrators are cached under strategy and symbol, without the timeframe.  Calls on
two timeframes share the window, the candles seen and the time of the last one, so they
decide about each other's candles.  They do not if at most one timeframe ever has
something for the orchestrator: then the calls on the others only look it up, and can be
taken out of the run.

The calls of a sequence are for one strategy and symbol.  They load closed candles of
their own symbol and timeframe, as the sources of candles do, and draw the same
identifier for the orchestrator, whichever of them creates it.

## Main definitions

* `CycleCall.Passive` — a call that has nothing for its orchestrator.
* `Alike` — services with the same runtime and the same orchestrator.
* `CallView`, `Service.views` — the candles taken and the signals, of the calls of a timeframe.

## Main results

* `runCycle_congr` — a call does the same in services that are alike.
* `timeframes_do_not_interfere` — **if one timeframe alone has candles for the
  orchestrator, the views are those of the run without the others**, and its window has
  candles of that timeframe only.
* `timeframes_interfere` — an hourly candle shuts out one of fifteen minutes.

## References

`app/services/paper_cycle.py`, `app/services/trading_orchestrator.py`.
-/

namespace Atlas

open Session Service Unwinding

variable {d : Deployment} {registry : Registry} {failClosed : Bool}
variable {strategyId symbol sessionId : String}

/-! ### Passive calls -/

/-- The lock is refused to the call. -/
def CycleCall.Refused (failClosed : Bool) (call : CycleCall) : Prop :=
  call.lock = .held ∨ (call.lock = .unavailable ∧ failClosed = true)

instance (call : CycleCall) : Decidable (call.Refused failClosed) :=
  inferInstanceAs (Decidable (_ ∨ _ ∧ _))

/-- The call has nothing for its orchestrator: it is halted, or it has no candle but one
that it is refused the lock for. -/
def CycleCall.Passive (d : Deployment) (registry : Registry) (failClosed : Bool) (svc : Service)
    (call : CycleCall) : Prop :=
  call.Halted d ∨ ∀ target ∈ call.candles, call.candles.tail = [] ∧
    call.key registry target ∉ svc.runtime.processed ∧ call.Refused failClosed

instance (svc : Service) (call : CycleCall) :
    Decidable (call.Passive d registry failClosed svc) :=
  inferInstanceAs (Decidable (_ ∨ ∀ target ∈ call.candles, _ ∧ _ ∧ _))

/-- A passive call looks its orchestrator up, and does nothing else. -/
theorem passive_runCycle {svc : Service} {call : CycleCall}
    (h : call.Passive d registry failClosed svc) :
    ∃ ending, runCycle d registry failClosed svc call =
      ({ ending := ending }, svc.store call (svc.orchestratorOf d.paper.initialCash call) svc.paper) := by
  by_cases hhalt : call.Halted d
  · exact ⟨.reconciliationHalt, by rw [runCycle, if_pos hhalt]⟩
  have hcandles := h.resolve_left hhalt
  rcases hlist : call.candles with _ | ⟨target, rest⟩
  · exact ⟨.noCandles, by rw [runCycle, if_neg hhalt, hlist]; rfl⟩
  · obtain ⟨htail, hkey, hrefused⟩ := hcandles target (by rw [hlist]; exact List.mem_cons_self ..)
    rw [hlist, List.tail_cons] at htail
    subst htail
    -- nothing is primed, so the warmed service is the old one
    have hwarmed : svc.warmed d call =
        svc.store call (svc.orchestratorOf d.paper.initialCash call) svc.paper := by
      rw [Service.warmed, Service.primed, hlist]
      rfl
    have hlast : call.candles.getLast? = some target := by rw [hlist]; rfl
    rw [runCycle, if_neg hhalt, hlast]
    dsimp only
    rw [if_neg hkey, hwarmed]
    rcases hrefused with hheld | hunavailable
    · exact ⟨.lockHeld, by rw [if_pos hheld]⟩
    · have hfree : ¬call.lock = .held := by
        rw [hunavailable.1]
        decide
      exact ⟨.lockUnavailable, by rw [if_neg hfree, if_pos hunavailable]⟩

/-! ### Services that are alike -/

/-- The orchestrator of a strategy and a symbol, as a call with this draw finds it. -/
def Service.orchestratorFor (cash : ℚ) (strategyId symbol sessionId : String) (svc : Service) :
    Orchestrator :=
  (svc.orchestrators.get? (sessionKey symbol strategyId)).getD
    { sessionId := sessionId
      peakEquity := cash
      killSwitchEnabled := svc.runtime.session.killSwitchEnabled }

/-- A call of the sequence: the orchestrator it is for, and what its source loads. -/
structure CycleCall.Of (strategyId symbol sessionId : String) (call : CycleCall) : Prop where
  strategyId : call.strategyId = strategyId
  symbol : call.symbol = symbol
  sessionId : call.sessionId = sessionId
  candles : ∀ c ∈ call.candles,
    c.symbol = call.symbol ∧ c.timeframe = call.timeframe ∧ c.isClosed = true

theorem CycleCall.Of.orchestratorOf {call : CycleCall}
    (h : call.Of strategyId symbol sessionId) (cash : ℚ) (svc : Service) :
    svc.orchestratorOf cash call = svc.orchestratorFor cash strategyId symbol sessionId := by
  rw [Service.orchestratorOf, h.strategyId, h.symbol, h.sessionId]
  rfl

/-- The same runtime, and the same orchestrator. -/
structure Alike (cash : ℚ) (strategyId symbol sessionId : String) (svc svc' : Service) : Prop where
  runtime : svc.runtime = svc'.runtime
  orchestrator : svc.orchestratorFor cash strategyId symbol sessionId =
    svc'.orchestratorFor cash strategyId symbol sessionId

/-- An evaluation does not look at the cached orchestrators. -/
theorem evaluateCandle_congr {svc svc' : Service} (hruntime : svc.runtime = svc'.runtime)
    (call : CycleCall) (o : Orchestrator) (target : Candle) :
    let r := evaluateCandle d registry svc call o target
    let r' := evaluateCandle d registry svc' call o target
    r.1 = r'.1 ∧ r.2.runtime = r'.2.runtime ∧
      r.2.orchestrators.get? (sessionKey call.symbol call.strategyId) =
        r'.2.orchestrators.get? (sessionKey call.symbol call.strategyId) := by
  obtain ⟨runtime, cached⟩ := svc
  obtain ⟨runtime', cached'⟩ := svc'
  obtain rfl : runtime = runtime' := hruntime
  unfold evaluateCandle
  dsimp only [Service.paper]
  split_ifs <;> exact ⟨rfl, rfl, by rw [Dict.get?_set_self, Dict.get?_set_self]⟩

/-- **A call does the same in services that are alike.** -/
theorem runCycle_congr {svc svc' : Service} {call : CycleCall}
    (hruntime : svc.runtime = svc'.runtime)
    (ho : svc.orchestratorOf d.paper.initialCash call =
      svc'.orchestratorOf d.paper.initialCash call) :
    let r := runCycle d registry failClosed svc call
    let r' := runCycle d registry failClosed svc' call
    r.1 = r'.1 ∧ r.2.runtime = r'.2.runtime ∧
      r.2.orchestrators.get? (sessionKey call.symbol call.strategyId) =
        r'.2.orchestrators.get? (sessionKey call.symbol call.strategyId) := by
  -- storing the same orchestrator and ledger leads to services that are alike
  have hstore : ∀ (o : Orchestrator) (paper : PaperState),
      (svc.store call o paper).runtime = (svc'.store call o paper).runtime ∧
        (svc.store call o paper).orchestrators.get? (sessionKey call.symbol call.strategyId) =
          (svc'.store call o paper).orchestrators.get? (sessionKey call.symbol call.strategyId) := by
    intro o paper
    simp only [Service.store, hruntime, Dict.get?_set_self, and_self]
  have hpaper : svc.paper = svc'.paper := by rw [Service.paper, hruntime]; rfl
  have hprimed : svc.primed d call = svc'.primed d call := by
    rw [Service.primed, Service.primed, ho, hpaper]
  unfold runCycle
  by_cases hhalt : call.Halted d
  · simp only [if_pos hhalt, ho, hpaper]
    exact ⟨trivial, hstore _ _⟩
  simp only [if_neg hhalt]
  cases call.candles.getLast? with
  | none =>
    simp only [ho, hpaper]
    exact ⟨trivial, hstore _ _⟩
  | some target =>
    simp only [hruntime, hprimed, Service.warmed]
    split_ifs
    · exact ⟨rfl, hstore _ _⟩
    · exact ⟨rfl, hstore _ _⟩
    · exact ⟨rfl, hstore _ _⟩
    · exact evaluateCandle_congr (hstore _ _).1 call _ target

theorem Alike.step {svc svc' : Service} {call : CycleCall}
    (h : Alike d.paper.initialCash strategyId symbol sessionId svc svc')
    (hcall : call.Of strategyId symbol sessionId) :
    (runCycle d registry failClosed svc call).1 = (runCycle d registry failClosed svc' call).1 ∧
      Alike d.paper.initialCash strategyId symbol sessionId
        (runCycle d registry failClosed svc call).2 (runCycle d registry failClosed svc' call).2 := by
  have ho : svc.orchestratorOf d.paper.initialCash call =
      svc'.orchestratorOf d.paper.initialCash call := by
    rw [hcall.orchestratorOf, hcall.orchestratorOf, h.orchestrator]
  obtain ⟨hresult, hruntime, hcached⟩ :=
    @runCycle_congr d registry failClosed svc svc' call h.runtime ho
  refine ⟨hresult, hruntime, ?_⟩
  rw [hcall.symbol, hcall.strategyId] at hcached
  rw [Service.orchestratorFor, Service.orchestratorFor, hcached, hruntime]

/-- A passive call leads to a service that is alike. -/
theorem alike_of_passive {svc : Service} {call : CycleCall}
    (hcall : call.Of strategyId symbol sessionId)
    (h : call.Passive d registry failClosed svc) :
    Alike d.paper.initialCash strategyId symbol sessionId
      (runCycle d registry failClosed svc call).2 svc := by
  obtain ⟨ending, heq⟩ := passive_runCycle h
  rw [heq]
  refine ⟨rfl, ?_⟩
  rw [← hcall.orchestratorOf, ← hcall.orchestratorOf, Service.orchestratorOf, Service.store,
    Dict.get?_set_self]
  rfl

/-! ### Windows -/

/-- The window a call works on. -/
def CycleCall.window (cash : ℚ) (svc : Service) (call : CycleCall) : List Candle :=
  (svc.orchestratorOf cash call).windowOf call.symbol

/-- A call that stores an orchestrator leaves its window to the next one. -/
theorem window_store (cash : ℚ) (svc : Service) (call : CycleCall) (o : Orchestrator)
    (paper : PaperState) : call.window cash (svc.store call o paper) = o.windowOf call.symbol := by
  rw [CycleCall.window, Service.orchestratorOf, Service.store, Dict.get?_set_self]
  rfl

/-- A taken candle is the only new one. -/
theorem mem_windowOf_take {o : Orchestrator} {candle c : Candle} {name : String}
    (h : c ∈ (o.take candle).windowOf name) : c ∈ o.windowOf name ∨ c = candle := by
  simp only [Orchestrator.windowOf, Orchestrator.take, Dict.get?_set] at h ⊢
  split_ifs at h with hname
  · subst hname
    simpa using h
  · exact .inl h

theorem mem_windowOf_foldl_take {candles : List Candle} {c : Candle} {name : String} :
    ∀ {o : Orchestrator}, c ∈ (candles.foldl Orchestrator.take o).windowOf name →
      c ∈ o.windowOf name ∨ c ∈ candles := by
  induction candles with
  | nil => exact fun h => .inl h
  | cons candle candles ih =>
    intro o h
    rcases ih h with h | h
    · rcases mem_windowOf_take h with h | rfl
      · exact .inl h
      · exact .inr (List.mem_cons_self ..)
    · exact .inr (List.mem_cons_of_mem _ h)

theorem primedOf_subset {now : Time} {candles : List Candle} {c : Candle} :
    ∀ {o : Orchestrator}, c ∈ o.primedOf now candles → c ∈ candles := by
  induction candles with
  | nil => exact fun h => h
  | cons candle candles ih =>
    intro o h
    rw [Orchestrator.primedOf] at h
    split_ifs at h
    · rcases List.mem_cons.mp h with rfl | h
      · exact List.mem_cons_self ..
      · exact List.mem_cons_of_mem _ (ih h)
    · exact List.mem_cons_of_mem _ (ih h)

/-- Priming adds candles of its list. -/
theorem mem_window_primed {svc : Service} {call : CycleCall} {c : Candle} {name : String}
    (h : c ∈ (svc.primed d call).orchestrator.windowOf name) :
    c ∈ (svc.orchestratorOf d.paper.initialCash call).windowOf name ∨ c ∈ call.candles := by
  rw [Service.primed, (Orchestrator.primeCandles_orchestrator ..).1] at h
  exact (mem_windowOf_foldl_take h).imp_right fun h => List.mem_of_mem_dropLast (primedOf_subset h)

theorem afterOrder_window (o : Orchestrator) (name : String) (order : Option Order)
    (fills : List Fill) (delta : ℚ) : (o.afterOrder name order fills delta).window = o.window := by
  cases order with
  | none => rfl
  | some order =>
    simp only [Orchestrator.afterOrder]
    split_ifs
    · cases order.side <;> rfl
    · rfl

theorem countBar_window (o : Orchestrator) (paper : PaperState) (name : String) :
    (o.countBar paper name).window = o.window := by
  unfold Orchestrator.countBar
  split_ifs <;> rfl

/-- An evaluation leaves the window as it is, or takes its candle. -/
theorem evaluateCandle_window {svc : Service} {call : CycleCall} {o : Orchestrator}
    {target : Candle} :
    ∃ o', (evaluateCandle d registry svc call o target).2.orchestrators =
        svc.orchestrators.set (sessionKey call.symbol call.strategyId) o' ∧
      (o'.window = o.window ∨ o'.window = (o.take target).window) := by
  unfold evaluateCandle
  dsimp only
  split_ifs
  · exact ⟨_, rfl, .inr ((afterOrder_window ..).trans (countBar_window ..))⟩
  · exact ⟨_, rfl, .inr ((afterOrder_window ..).trans (countBar_window ..))⟩
  · exact ⟨_, rfl, .inl rfl⟩

/-- **A call adds candles of its own to the window, or none.** -/
theorem mem_window_runCycle {svc : Service} {call : CycleCall} {c : Candle}
    (h : c ∈ call.window d.paper.initialCash (runCycle d registry failClosed svc call).2) :
    c ∈ call.window d.paper.initialCash svc ∨ c ∈ call.candles := by
  have hgoes : call.Goes d registry svc (runCycle d registry failClosed svc call) :=
    runCycle_goes ..
  generalize runCycle d registry failClosed svc call = r at h hgoes
  cases hgoes with
  | halted _ =>
    rw [window_store] at h
    exact .inl h
  | noCandles _ _ =>
    rw [window_store] at h
    exact .inl h
  | replayed target _ _ _ =>
    rw [window_store] at h
    exact mem_window_primed h
  | locked target ending _ _ _ _ _ =>
    rw [Service.warmed, window_store] at h
    exact mem_window_primed h
  | evaluated target _ hlast _ =>
    obtain ⟨o', horchestrators, hwindow⟩ := @evaluateCandle_window d registry (svc.warmed d call) call
      (svc.primed d call).orchestrator target
    rw [CycleCall.window, Service.orchestratorOf, horchestrators, Dict.get?_set_self,
      Option.getD_some] at h
    have htarget : target ∈ call.candles := List.mem_of_getLast? hlast
    rcases hwindow with hsame | htaken
    · rw [Orchestrator.windowOf, hsame] at h
      exact mem_window_primed h
    · rw [Orchestrator.windowOf, htaken] at h
      rcases mem_windowOf_take h with h | rfl
      · exact mem_window_primed h
      · exact .inr htarget

/-! ### Views -/

/-- What a call is seen to do: the candles its orchestrator takes, and the signals. -/
structure CallView where
  taken : List Candle
  lastSignal : Option StrategyDecision
  signal : Option StrategyDecision
  deriving DecidableEq, Repr

/-- The view of a call: what it has added to its window, and its signals. -/
def Service.view (d : Deployment) (registry : Registry) (failClosed : Bool) (svc : Service)
    (call : CycleCall) : CallView :=
  let r := runCycle d registry failClosed svc call
  { taken := (call.window d.paper.initialCash r.2).drop (call.window d.paper.initialCash svc).length
    lastSignal := r.1.lastSignal
    signal := r.1.signal }

/-- The service after a call. -/
def Service.next (d : Deployment) (registry : Registry) (failClosed : Bool) (svc : Service)
    (call : CycleCall) : Service :=
  (runCycle d registry failClosed svc call).2

/-- The views of the calls on a timeframe. -/
def Service.views (d : Deployment) (registry : Registry) (failClosed : Bool) (timeframe : String) :
    Service → List CycleCall → List CallView :=
  answers (next d registry failClosed) (view d registry failClosed) fun call =>
    call.timeframe = timeframe

/-- Services that are alike have the same view of a call. -/
theorem Alike.view {svc svc' : Service} {call : CycleCall}
    (h : Alike d.paper.initialCash strategyId symbol sessionId svc svc')
    (hcall : call.Of strategyId symbol sessionId) :
    view d registry failClosed svc call = view d registry failClosed svc' call := by
  obtain ⟨hresult, hnext⟩ := @Alike.step d registry failClosed _ _ _ _ _ _ h hcall
  simp only [Service.view, CycleCall.window, hcall.orchestratorOf, hresult, h.orchestrator,
    hnext.orchestrator]

/-- A passive call is seen to do nothing. -/
theorem passive_view {svc : Service} {call : CycleCall}
    (h : call.Passive d registry failClosed svc) :
    view d registry failClosed svc call = { taken := [], lastSignal := none, signal := none } := by
  obtain ⟨ending, heq⟩ := passive_runCycle h
  simp only [view, heq, CycleCall.window, Service.orchestratorOf, Service.store, Dict.get?_set_self,
    Option.getD_some, List.drop_length]

/-- A call that has nothing for its orchestrator has nothing for it either if fewer
candles are processed. -/
theorem CycleCall.Passive.mono {svc svc' : Service} {call : CycleCall}
    (h : call.Passive d registry failClosed svc)
    (hprocessed : ∀ k ∈ svc'.runtime.processed, k ∈ svc.runtime.processed) :
    call.Passive d registry failClosed svc' := by
  rcases h with hhalt | hcandles
  · exact .inl hhalt
  · right
    intro target htarget
    obtain ⟨htail, hkey, hrefused⟩ := hcandles target htarget
    exact ⟨htail, fun hmem => hkey (hprocessed _ hmem), hrefused⟩

/-- No call forgets a processed candle. -/
theorem processed_next {svc : Service} {call : CycleCall} {k : CycleKey}
    (h : k ∈ svc.runtime.processed) :
    k ∈ (next d registry failClosed svc call).runtime.processed := by
  rcases runCycle_keys d registry failClosed svc call with ⟨-, hsame, -⟩ | ⟨target, -, -, hnew⟩
  · rw [next, hsame]
    exact h
  · rw [next, hnew]
    exact List.mem_cons_of_mem _ h

/-! ### Noninterference -/

/-- A call of the sequence that, unless it is passive, is on the timeframe. -/
def OnlyOn (d : Deployment) (registry : Registry) (failClosed : Bool)
    (strategyId symbol sessionId timeframe : String) (svc : Service) (call : CycleCall) : Prop :=
  call.Of strategyId symbol sessionId ∧
    (¬call.Passive d registry failClosed svc → call.timeframe = timeframe)

/-- Every call of the sequence is for one orchestrator, and the calls that are not passive
are on one timeframe. -/
abbrev OneTimeframe (d : Deployment) (registry : Registry) (failClosed : Bool)
    (strategyId symbol sessionId timeframe : String) : Service → List CycleCall → Prop :=
  Guarded (next d registry failClosed)
    (OnlyOn d registry failClosed strategyId symbol sessionId timeframe)

/-- The calls of the active timeframe do not see the others. -/
theorem unwinds_active (timeframe : String) :
    Unwinds (next d registry failClosed) (view d registry failClosed)
      (OnlyOn d registry failClosed strategyId symbol sessionId timeframe)
      (fun call => call.timeframe = timeframe)
      (Alike d.paper.initialCash strategyId symbol sessionId) where
  watched := fun h hok _ => ⟨h.view hok.1, (h.step hok.1).2⟩
  hidden := by
    intro svc svc' call h hok hother
    have hpassive : call.Passive d registry failClosed svc := by
      by_contra hactive
      exact hother (hok.2 hactive)
    have hsame := alike_of_passive hok.1 hpassive
    exact ⟨hsame.runtime.trans h.runtime, hsame.orchestrator.trans h.orchestrator⟩

/-- The calls of another timeframe are passive, with the others and without. -/
theorem unwinds_passive {timeframe other : String} (hne : other ≠ timeframe) :
    Unwinds (next d registry failClosed) (view d registry failClosed)
      (OnlyOn d registry failClosed strategyId symbol sessionId timeframe)
      (fun call => call.timeframe = other)
      (fun svc svc' => ∀ k ∈ svc'.runtime.processed, k ∈ svc.runtime.processed) where
  watched := by
    intro svc svc' call h hok hcall
    have hpassive : call.Passive d registry failClosed svc := by
      by_contra hactive
      exact hne (hcall ▸ hok.2 hactive)
    have hpassive' : call.Passive d registry failClosed svc' := hpassive.mono h
    refine ⟨by rw [passive_view hpassive, passive_view hpassive'], fun k hk => ?_⟩
    refine processed_next (h k ?_)
    rw [next, (alike_of_passive hok.1 hpassive').runtime] at hk
    exact hk
  hidden := fun h _ _ k hk => processed_next (h k hk)

/-- **The views of every timeframe are those of the run without the others.** -/
theorem views_filter {timeframe : String} {svc : Service} {calls : List CycleCall}
    (h : OneTimeframe d registry failClosed strategyId symbol sessionId timeframe svc calls)
    (other : String) :
    views d registry failClosed other svc calls =
      views d registry failClosed other svc (calls.filter fun call => call.timeframe = other) := by
  by_cases hother : other = timeframe
  · subst hother
    exact (unwinds_active other).answers_filter calls ⟨rfl, rfl⟩ h
  · exact (unwinds_passive hother).answers_filter calls (fun _ hk => hk) h

/-- One call keeps the window of one timeframe. -/
theorem window_next {timeframe : String} {svc : Service} {call : CycleCall}
    (h : ∀ c ∈ (svc.orchestratorFor d.paper.initialCash strategyId symbol sessionId).windowOf symbol,
      c.timeframe = timeframe)
    (hok : OnlyOn d registry failClosed strategyId symbol sessionId timeframe svc call) :
    ∀ c ∈ ((next d registry failClosed svc call).orchestratorFor d.paper.initialCash strategyId
      symbol sessionId).windowOf symbol, c.timeframe = timeframe := by
  obtain ⟨hcall, honly⟩ := hok
  intro c hc
  by_cases hpassive : call.Passive d registry failClosed svc
  · rw [next, (alike_of_passive hcall hpassive).orchestrator] at hc
    exact h c hc
  · rw [next, ← hcall.orchestratorOf, ← hcall.symbol] at hc
    rcases mem_window_runCycle hc with hold | hnew
    · rw [CycleCall.window, hcall.orchestratorOf, hcall.symbol] at hold
      exact h c hold
    · exact (hcall.candles c hnew).2.1.trans (honly hpassive)

/-- **Timeframes do not interfere** if one of them alone has candles for the
orchestrator.  Then for every timeframe, the candles taken and the signals are those of
the run without the calls on the others, and the window holds candles of one timeframe. -/
theorem timeframes_do_not_interfere {timeframe : String} {svc : Service} {calls : List CycleCall}
    (hnew : svc.orchestrators.get? (sessionKey symbol strategyId) = none)
    (h : OneTimeframe d registry failClosed strategyId symbol sessionId timeframe svc calls) :
    (∀ other, views d registry failClosed other svc calls =
      views d registry failClosed other svc (calls.filter fun call => call.timeframe = other)) ∧
    ∀ c ∈ ((calls.foldl (next d registry failClosed) svc).orchestratorFor d.paper.initialCash
      strategyId symbol sessionId).windowOf symbol, c.timeframe = timeframe := by
  refine ⟨views_filter h, ?_⟩
  refine Guarded.invariant (I := fun svc => ∀ c ∈ (svc.orchestratorFor d.paper.initialCash strategyId
    symbol sessionId).windowOf symbol, c.timeframe = timeframe)
    (fun hI hok => window_next hI hok) calls ?_ h
  intro c hc
  rw [Service.orchestratorFor, hnew] at hc
  exact (List.not_mem_nil hc).elim

/-- A call with one candle of BTC/USDT, so many minutes after the start. -/
def candleCall (timeframe : String) (minutes : ℤ) : CycleCall where
  strategyId := "ema_rsi"
  symbol := "BTC/USDT"
  timeframe := timeframe
  candles :=
    [{ symbol := "BTC/USDT", timeframe := timeframe, openTime := minutes * 60000000,
       openPrice := 100, high := 100, low := 100, close := 100, volume := 1 }]
  around := { now := minutes * 60000000, seriesMark := 100 }

theorem candleCall_of (timeframe : String) (minutes : ℤ) :
    (candleCall timeframe minutes).Of "ema_rsi" "BTC/USDT" "" where
  strategyId := rfl
  symbol := rfl
  sessionId := rfl
  candles := by
    intro c hc
    rw [List.mem_singleton.mp hc]
    exact ⟨rfl, rfl, rfl⟩

/-- A new service. -/
def newService : Service where
  runtime := Runtime.initial Runtime.exactDeployment

/-- An hourly candle is processed between two refusals on the other timeframe. -/
theorem timeframes_do_not_interfere_refused :
    let refused := { candleCall "15m" 45 with lock := .held }
    let calls := [refused, candleCall "1h" 60, refused]
    (views Runtime.exactDeployment ServiceRun.holdRegistry true "1h" newService calls).length = 1 ∧
    (∀ other, views Runtime.exactDeployment ServiceRun.holdRegistry true other newService calls =
      views Runtime.exactDeployment ServiceRun.holdRegistry true other newService
        (calls.filter fun call => call.timeframe = other)) ∧
    ∀ c ∈ ((calls.foldl (next Runtime.exactDeployment ServiceRun.holdRegistry true)
      newService).orchestratorFor 10000 "ema_rsi" "BTC/USDT" "").windowOf "BTC/USDT",
      c.timeframe = "1h" := by
  intro refused calls
  have hof : refused.Of "ema_rsi" "BTC/USDT" "" :=
    ⟨rfl, rfl, rfl, (candleCall_of "15m" 45).candles⟩
  have hok : OneTimeframe Runtime.exactDeployment ServiceRun.holdRegistry true "ema_rsi" "BTC/USDT" ""
      "1h" newService calls := by
    refine ⟨⟨hof, fun hactive => absurd ?_ hactive⟩, ⟨candleCall_of "1h" 60, fun _ => rfl⟩,
      ⟨hof, fun hactive => absurd ?_ hactive⟩, trivial⟩ <;> decide +kernel
  exact ⟨by decide +kernel, timeframes_do_not_interfere rfl hok⟩

/-- **Timeframes interfere.**  Once the hourly candle of ten o'clock is taken, the candle
of a quarter to ten is out of order; without the hourly call it is taken.  Nothing is
ever traded. -/
theorem timeframes_interfere :
    let calls := [candleCall "1h" 600, candleCall "15m" 585]
    (∀ call ∈ calls, call.Of "ema_rsi" "BTC/USDT" "") ∧
    (calls.foldl (next Runtime.exactDeployment ServiceRun.holdRegistry true)
      newService).paper.fills = [] ∧
    views Runtime.exactDeployment ServiceRun.holdRegistry true "15m" newService calls ≠
      views Runtime.exactDeployment ServiceRun.holdRegistry true "15m" newService
        (calls.filter fun call => call.timeframe = "15m") := by
  intro calls
  refine ⟨fun call hcall => ?_, by decide +kernel, by decide +kernel⟩
  simp only [calls, List.mem_cons, List.not_mem_nil, or_false] at hcall
  rcases hcall with rfl | rfl <;> exact candleCall_of ..

end Atlas
