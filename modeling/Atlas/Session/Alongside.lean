import Atlas.Session.Evaluation

/-!
# Two services alongside

Two services get the same calls.  The second one may lack a beginning of the window that
the first one has: its loads bring it up to date, as they begin with that window.  Until
then it must not evaluate a candle, and there should be no position, since warming up marks
it at old closes.  Once both windows are the same, every call comes to the same in both.

## Main definitions

* `CatchesUp` — what the loads of the calls must be for that.
* `Behind`, `Alongside` — how the two services stand.
* `Service.decisions` — what the calls decide, one after another.

## Main results

* `Kindred.primed` — warming up keeps two sessions alike.
* `Alongside.step` — **a call comes to the same in both**, and keeps them together.
* `Alongside.decisions` — **so does every sequence of calls**.

## References

`app/services/trading_orchestrator.py`, `app/services/paper_cycle.py`.
-/

namespace Atlas

open Paper Session

variable {d : Deployment} {registry : Registry} {failClosed : Bool}
  {strategyId symbol sessionId : String} {strategy : Strategy} {window : List Candle}
  {P : Time → Prop} {retired : List String} {s s' : Session} {o o' : Orchestrator} {svc svc' : Service}
  {call : CycleCall} {calls : List CycleCall}

/-! ### Warming up -/

theorem Orderly.mono {window' : List Candle} (h : Orderly symbol window s o)
    (hsub : window ⊆ window') : Orderly symbol window' s o :=
  ⟨h.intake, h.dated, h.named, h.killSwitch, h.regular.mono hsub⟩

/-- The equity of a ledger without positions is its cash, whatever the marks. -/
theorem markAll_equity (h : MarketLedger s.paper) (hflat : s.paper.positions = ∅)
    (marks : List (String × ℚ)) (now : Time) :
    (markAll d.paper now s.paper marks).positions = ∅ ∧
      (markAll d.paper now s.paper marks).equity = s.paper.equity := by
  obtain ⟨prices, positions, heq, hnone⟩ := h.markAll_eq d.paper now marks
  rw [heq]
  refine ⟨hnone hflat, ?_⟩
  rw [PaperState.equity, PaperState.equity, hflat, hnone hflat]

/-- A position of the symbol is marked at the last close of the window. -/
def AtClose (symbol : String) (window : List Candle) (paper : PaperState) : Prop :=
  ∀ p, paper.positions.get? symbol = some p →
    (window.map Candle.close).getLast? = some p.currentPrice ∧
      p.unrealizedPnl = (p.currentPrice - p.entryPrice) * p.quantity

/-- How the windows of two orchestrators stand before they warm up: they are the same, or
there is no position to mark, or the second one is empty, and the candles begin with the
first one, at whose last close the position is marked. -/
def Warms (symbol : String) (paper : PaperState) (window window' candles : List Candle) : Prop :=
  window' = window ∨ paper.positions = ∅ ∨
    window' = [] ∧ window <+: candles ∧ AtClose symbol window paper

/-- **Warming up keeps the funds the same.** -/
theorem Warms.funds {books : Prop} {paper paper' : PaperState} {window' candles : List Candle}
    {now : Time} (h : Warms symbol paper window window' candles)
    (hfunds : SameFunds books paper paper') (hledger : MarketLedger paper)
    (hledger' : MarketLedger paper') (hincreasing : Increasing window)
    (hsymbol : ∀ c ∈ window, c.symbol = symbol) :
    SameFunds books
      (markAll d.paper now paper ((newer window candles).map fun c => (c.symbol, c.close)))
      (markAll d.paper now paper' ((newer window' candles).map fun c => (c.symbol, c.close))) := by
  rcases h with hsame | hflat | ⟨hnil, hextends, hclose⟩
  · rw [hsame]
    exact hfunds.markedAll _ hledger hledger'
  · exact hfunds.markedFlat hledger hledger' hflat
  · -- the second ledger is marked through the window once more, and ends where the first is
    have hgrown : newer window' candles = window ++ newer window candles := by
      have hcaught := newer_of_extension ( List.nil_prefix (l := window)) hextends hincreasing
      rwa [List.nil_append, ← hnil] at hcaught
    have hmarks : (window.map fun c => (c.symbol, c.close)) =
        (window.map Candle.close).map fun x => (symbol, x) := by
      rw [List.map_map]
      exact List.map_congr_left fun c hc => by rw [hsymbol c hc]; rfl
    have hremarked : SameFunds books paper
        (markAll d.paper now paper' (window.map fun c => (c.symbol, c.close))) := by
      rw [hmarks]
      refine hfunds.remarked hledger' fun p hp => hclose p ?_
      rwa [← hfunds.values.2.2.1]
    rw [hgrown, List.map_append, markAll, markAll, List.foldl_append]
    exact hremarked.markedAll _ hledger (hledger'.markedAll _)

/-- **Warming up keeps two sessions alike.** -/
theorem Kindred.primed {candles : List Candle} {now : Time}
    (h : Kindred d strategy P retired symbol (o.windowOf symbol) s s' o o')
    (hloads : ∀ c ∈ candles, Orchestrator.Loads symbol c)
    (hdated : ∀ c ∈ candles, c.Dated symbol)
    (hpeak : o'.peakEquity = o.peakEquity ∨ s.paper.positions = ∅)
    (hwarms : Warms symbol s.paper (o.windowOf symbol) (o'.windowOf symbol) candles) :
    let p := o.primeCandles d.paper now s.paper candles
    let p' := o'.primeCandles d.paper now s'.paper candles
    Kindred d strategy P retired symbol (p.orchestrator.windowOf symbol)
        { s with paper := p.paper } { s' with paper := p'.paper } p.orchestrator p'.orchestrator ∧
      (p'.orchestrator.peakEquity = p.orchestrator.peakEquity ∨ p.paper.positions = ∅) ∧
      (s.paper.positions = ∅ → p.paper.positions = ∅) ∧
      p.orchestrator.windowOf symbol = o.windowOf symbol ++ newer (o.windowOf symbol) candles ∧
      p'.orchestrator.windowOf symbol =
        o'.windowOf symbol ++ newer (o'.windowOf symbol) candles := by
  intro p p'
  obtain ⟨hordered, hgrown, ⟨seen, last, windows, heq⟩, hpaper⟩ :=
    @Orderly.primed d _ _ _ _ candles now h.orderly hloads hdated
  obtain ⟨hordered', hgrown', ⟨seen', last', windows', heq'⟩, hpaper'⟩ :=
    @Orderly.primed d _ _ _ _ candles now h.orderly' hloads hdated
  have hsub : o.windowOf symbol ⊆ p.orchestrator.windowOf symbol := by
    rw [hgrown]
    exact List.subset_append_left ..
  have hledger : MarketLedger s.paper := h.orderly.regular.ledger
  have hledger' : MarketLedger s'.paper := h.orderly'.regular.ledger
  have hfunds : SameFunds (d.enableReconciliation = true) p.paper p'.paper := by
    rw [hpaper, hpaper']
    exact hwarms.funds h.session.funds hledger hledger'
      (h.orderly.intake.ordered.increasing symbol) fun c hc => (h.orderly.dated c hc).1
  have hwithin : d.enableReconciliation = true →
      (Reconciliation.FillsOk p.paper ↔ Reconciliation.FillsOk p'.paper) := by
    intro henabled
    rw [hpaper, hpaper', hledger.fillsOk_markedAll, hledger'.fillsOk_markedAll]
    exact h.session.within henabled
  have hflat : s.paper.positions = ∅ →
      p.paper.positions = ∅ ∧ p.paper.equity = s.paper.equity := by
    intro hnone
    rw [hpaper]
    exact markAll_equity hledger hnone _ now
  have hsame : p'.orchestrator.peakEquity = o'.peakEquity ∧
      p.orchestrator.peakEquity = o.peakEquity := by
    rw [heq, heq']
    exact ⟨rfl, rfl⟩
  refine ⟨⟨⟨hfunds, hwithin, h.session.engine, h.session.killSwitch⟩, hordered.mono hsub,
    hordered'.mono hsub, ?_, ?_⟩, ?_, fun hnone => (hflat hnone).1, hgrown, hgrown'⟩
  · rw [heq, heq']
    exact ⟨h.memory.bars, h.memory.losses, h.memory.acted⟩
  · rw [hsame.1, hsame.2]
    rcases hpeak with heq | hnone
    · rw [heq]
    · show max _ p.paper.equity = max _ p.paper.equity
      rw [(hflat hnone).2]
      exact h.peak
  · rw [hsame.1, hsame.2]
    exact hpeak.imp_right fun hnone => (hflat hnone).1

/-! ### Two services -/

/-- The candles a call loads open at whole milliseconds, which `to_unix_ms` gives back. -/
def CycleCall.OnMillis (call : CycleCall) : Prop :=
  ∀ c ∈ call.candles, toUnixMs c.openTime * 1000 = c.openTime

/-- **The loads catch up with a window.**  The first one that is looked at begins with the
window, and has more.  With `idle` there may be others before it, each a beginning of the
window whose last candle is processed. -/
def CatchesUp (d : Deployment) (registry : Registry) (idle : Prop) (processed : List CycleKey)
    (window : List Candle) : List CycleCall → Prop
  | [] => True
  | call :: calls =>
      if call.Halted d then CatchesUp d registry idle processed window calls
      else
        match call.candles.getLast? with
        | none => CatchesUp d registry idle processed window calls
        | some target =>
            window <+: call.candles.dropLast ∨
              idle ∧ call.candles <+: window ∧ call.key registry target ∈ processed ∧
                CatchesUp d registry idle processed window calls

theorem CatchesUp.mono {idle idle' : Prop} {processed : List CycleKey} (hidle : idle → idle')
    (h : CatchesUp d registry idle processed window calls) :
    CatchesUp d registry idle' processed window calls := by
  induction calls with
  | nil => trivial
  | cons call calls ih =>
    unfold CatchesUp at h ⊢
    split_ifs at h ⊢
    · exact ih h
    · split at h
      · exact ih h
      · exact h.imp_right fun hrest => ⟨hidle hrest.1, hrest.2.1, hrest.2.2.1, ih hrest.2.2.2⟩

/-- The second window is behind the first one, and is going to catch up with it.  While
there is a position, it is empty. -/
structure Behind (d : Deployment) (registry : Registry) (symbol : String)
    (processed : List CycleKey) (paper : PaperState) (window window' : List Candle)
    (calls : List CycleCall) : Prop where
  shorter : window' <+: window
  atClose : AtClose symbol window paper
  empty : paper.positions = ∅ ∨ window' = []
  catchesUp : CatchesUp d registry (paper.positions = ∅) processed window calls

/-- Two services that come to the same in the calls `calls`.  The second one may be behind
in its window, and while there is no position in its highest equity. -/
structure Alongside (d : Deployment) (registry : Registry) (strategyId symbol sessionId : String)
    (P : Time → Prop) (retired : List String) (calls : List CycleCall) (svc svc' : Service) :
    Prop where
  processed : svc'.runtime.processed = svc.runtime.processed
  kindred :
    let o := svc.orchestratorFor d.paper.initialCash strategyId symbol sessionId
    Kindred d (registry strategyId) P retired symbol (o.windowOf symbol) svc.runtime.session
      svc'.runtime.session o (svc'.orchestratorFor d.paper.initialCash strategyId symbol sessionId)
  peak : (svc'.orchestratorFor d.paper.initialCash strategyId symbol sessionId).peakEquity =
      (svc.orchestratorFor d.paper.initialCash strategyId symbol sessionId).peakEquity ∨
    svc.paper.positions = ∅
  window :
    let window := (svc.orchestratorFor d.paper.initialCash strategyId symbol sessionId).windowOf symbol
    let window' :=
      (svc'.orchestratorFor d.paper.initialCash strategyId symbol sessionId).windowOf symbol
    window' = window ∨
      Behind d registry symbol svc.runtime.processed svc.paper window window' calls

theorem orchestratorFor_cached {cash : ℚ} (h : svc.orchestrators.get? (sessionKey symbol strategyId) =
    some o) (sessionId : String) : svc.orchestratorFor cash strategyId symbol sessionId = o := by
  rw [Service.orchestratorFor, h]
  rfl

theorem CycleCall.Of.stored (h : call.Of strategyId symbol sessionId) (o : Orchestrator) :
    (svc.orchestrators.set (sessionKey call.symbol call.strategyId) o).get?
      (sessionKey symbol strategyId) = some o := by
  rw [h.symbol, h.strategyId]
  exact Dict.get?_set_self ..

theorem CycleCall.Of.loads (h : call.Of strategyId symbol sessionId) :
    ∀ c ∈ call.candles, Orchestrator.Loads symbol c :=
  fun c hc => ⟨(h.candles c hc).1.trans h.symbol, (h.candles c hc).2.2⟩

theorem CycleCall.Of.dated (h : call.Of strategyId symbol sessionId) (hmillis : call.OnMillis) :
    ∀ c ∈ call.candles, c.Dated symbol :=
  fun c hc => ⟨(h.loads c hc).1, hmillis c hc⟩

/-- The strategy decides on a context that ends with the candle. -/
theorem decided_context {target : Candle} (htarget : target.symbol = call.symbol) :
    ∃ context, context.candles.getLast? = some target ∧
      (decided d registry svc call o target).1 = (registry call.strategyId).evaluate context := by
  refine ⟨_, ?_, rfl⟩
  obtain ⟨bars, peak, heq⟩ := @decided_orchestrator d registry o svc call target
  have hwindow : (decided d registry svc call o target).2.windowOf call.symbol =
      o.windowOf call.symbol ++ [target] := by
    have htake : (decided d registry svc call o target).2.windowOf call.symbol =
        (o.take target).windowOf call.symbol := by
      rw [heq]
      rfl
    rw [htake, Orchestrator.windowOf_take, if_pos htarget]
  exact (congrArg List.getLast? hwindow).trans (List.getLast?_concat ..)

/-- What the second of two runs needs of a call. -/
structure CycleCall.Comparable (d : Deployment) (registry : Registry)
    (strategyId symbol sessionId : String) (P : Time → Prop) (retired : List String)
    (call : CycleCall) : Prop where
  of : call.Of strategyId symbol sessionId
  millis : call.OnMillis
  old : ∀ t, P t → t < call.around.now - seconds 60
  fresh : ∀ target, call.candles.getLast? = some target → ∀ context,
    context.candles.getLast? = some target →
      ((registry strategyId).evaluate context).fingerprint ∉ retired

/-- Storing the orchestrators keeps the services together. -/
theorem Alongside.stored {o o' : Orchestrator} {paper paper' : PaperState}
    (hcall : call.Of strategyId symbol sessionId)
    (hprocessed : svc'.runtime.processed = svc.runtime.processed)
    (hkindred : Kindred d (registry strategyId) P retired symbol (o.windowOf symbol)
      { svc.runtime.session with paper := paper } { svc'.runtime.session with paper := paper' } o o')
    (hpeak : o'.peakEquity = o.peakEquity ∨ paper.positions = ∅)
    (hwindow : o'.windowOf symbol = o.windowOf symbol ∨
      Behind d registry symbol svc.runtime.processed paper (o.windowOf symbol) (o'.windowOf symbol)
        calls) :
    Alongside d registry strategyId symbol sessionId P retired calls (svc.store call o paper)
      (svc'.store call o' paper') := by
  have hfound : (svc.store call o paper).orchestratorFor d.paper.initialCash strategyId symbol
      sessionId = o := orchestratorFor_cached (hcall.stored o) sessionId
  have hfound' : (svc'.store call o' paper').orchestratorFor d.paper.initialCash strategyId symbol
      sessionId = o' := orchestratorFor_cached (hcall.stored o') sessionId
  refine ⟨hprocessed, ?_, ?_, ?_⟩
  · rw [hfound, hfound']
    exact hkindred
  · rw [hfound, hfound']
    exact hpeak
  · rw [hfound, hfound']
    exact hwindow

theorem evaluateCandle_processed {target : Candle} :
    (evaluateCandle d registry svc call o target).2.runtime.processed =
      call.key registry target :: svc.runtime.processed := by
  obtain ⟨input, hkey, hruntime⟩ := evaluateCandle_runtime d registry svc call o target
  rw [hruntime, ← hkey]
  rfl

/-- Reading the portfolio brings the highest equities up to date. -/
theorem Kindred.portfolioState (h : Kindred d strategy P retired symbol window s s' o o') (cash : ℚ) :
    Kindred d strategy P retired symbol window s s' (o.portfolioState cash s.paper).2
        (o'.portfolioState cash s'.paper).2 ∧
      (o'.portfolioState cash s'.paper).2.peakEquity =
        (o.portfolioState cash s.paper).2.peakEquity := by
  have hpeak : (o'.portfolioState cash s'.paper).2.peakEquity =
      (o.portfolioState cash s.paper).2.peakEquity := by
    simp only [Orchestrator.portfolioState, SameFunds.equity h.session.funds, h.peak]
  refine ⟨⟨h.session, ?_, ?_, ?_, by rw [hpeak]⟩, hpeak⟩
  · exact ⟨h.orderly.intake.of_intake rfl rfl, h.orderly.dated, h.orderly.named,
      h.orderly.killSwitch, h.orderly.regular⟩
  · exact ⟨h.orderly'.intake.of_intake rfl rfl, h.orderly'.dated, h.orderly'.named,
      h.orderly'.killSwitch, h.orderly'.regular⟩
  · exact ⟨h.memory.bars, h.memory.losses, h.memory.acted⟩

/-- Where the services are when they have warmed up for a call: the second one has caught
up, or it is behind and the candle is processed. -/
theorem Alongside.warmed {target : Candle}
    (h : Alongside d registry strategyId symbol sessionId P retired (call :: calls) svc svc')
    (hcall : call.Of strategyId symbol sessionId) (hmillis : call.OnMillis)
    (hopen : ¬call.Halted d) (hlast : call.candles.getLast? = some target) :
    let p := svc.primed d call
    let p' := svc'.primed d call
    Kindred d (registry strategyId) P retired symbol (p.orchestrator.windowOf symbol)
        (svc.warmed d call).runtime.session (svc'.warmed d call).runtime.session p.orchestrator
        p'.orchestrator ∧
      (p'.orchestrator.peakEquity = p.orchestrator.peakEquity ∨ p.paper.positions = ∅) ∧
      (p'.orchestrator.windowOf symbol = p.orchestrator.windowOf symbol ∨
        call.key registry target ∈ svc.runtime.processed ∧
          Behind d registry symbol svc.runtime.processed p.paper (p.orchestrator.windowOf symbol)
            (p'.orchestrator.windowOf symbol) calls) := by
  intro p p'
  obtain ⟨-, hkindred, hpeak, hwindow⟩ := h
  rw [← hcall.orchestratorOf, ← hcall.orchestratorOf] at hpeak
  simp only [← hcall.orchestratorOf] at hkindred hwindow
  have hcatches : ∀ {window : List Candle} {idle : Prop},
      CatchesUp d registry idle svc.runtime.processed window (call :: calls) →
      window <+: call.candles.dropLast ∨ idle ∧ call.candles <+: window ∧
        call.key registry target ∈ svc.runtime.processed ∧
        CatchesUp d registry idle svc.runtime.processed window calls := by
    intro window idle hcatches
    simpa only [CatchesUp, if_neg hopen, hlast] using hcatches
  have hwarms : Warms symbol svc.paper ((svc.orchestratorOf d.paper.initialCash call).windowOf symbol)
      ((svc'.orchestratorOf d.paper.initialCash call).windowOf symbol) call.candles.dropLast := by
    refine hwindow.imp_right fun hbehind => ?_
    rcases hcatches hbehind.catchesUp with hextends | ⟨hflat, -⟩
    · exact hbehind.empty.imp_right fun hnil => ⟨hnil, hextends, hbehind.atClose⟩
    · exact .inl hflat
  obtain ⟨hprimed, hpeak, hflat, hgrown, hgrown'⟩ := @Kindred.primed d symbol _ P retired _ _ _ _
    call.candles.dropLast call.around.now hkindred
    (fun c hc => hcall.loads c (List.mem_of_mem_dropLast hc))
    (fun c hc => hcall.dated hmillis c (List.mem_of_mem_dropLast hc)) hpeak hwarms
  have hgrown : p.orchestrator.windowOf symbol = _ := hgrown
  have hgrown' : p'.orchestrator.windowOf symbol = _ := hgrown'
  have hordered := hkindred.orderly.intake.ordered.increasing symbol
  refine ⟨hprimed, hpeak, ?_⟩
  rw [hgrown, hgrown']
  rcases hwindow with hsame | hbehind
  · exact .inl (by rw [hsame])
  rcases hcatches hbehind.catchesUp with hextends | ⟨hnone, hinside, hkey, hrest⟩
  · exact .inl (newer_of_extension hbehind.shorter hextends hordered)
  · -- nothing is new in a beginning of the window
    have hold := (List.dropLast_prefix _).trans hinside
    have hnone' : p.paper.positions = ∅ := hflat hnone
    rw [newer_of_beginning hold, List.append_nil]
    refine .inr ⟨hkey, newer_beginning hbehind.shorter hold hordered, fun q hq => ?_, .inl hnone',
      hrest.mono fun _ => hnone'⟩
    rw [hnone'] at hq
    cases hq

/-- An evaluation in both services keeps them together. -/
theorem Kindred.alongside {target : Candle}
    (h : Kindred d (registry strategyId) P retired symbol (o.windowOf symbol) svc.runtime.session
      svc'.runtime.session o o')
    (hwindow : o'.windowOf symbol = o.windowOf symbol)
    (hprocessed : svc'.runtime.processed = svc.runtime.processed)
    (hcall : call.Comparable d registry strategyId symbol sessionId P retired)
    (hlast : call.candles.getLast? = some target) :
    let r := evaluateCandle d registry svc call o target
    let r' := evaluateCandle d registry svc' call o' target
    r'.1.decisions = r.1.decisions ∧
      Alongside d registry strategyId symbol sessionId P retired calls r.2 r'.2 := by
  intro r r'
  have htarget : target ∈ call.candles := List.mem_of_getLast? hlast
  obtain ⟨context, hcontext, hdecision⟩ := @decided_context d registry o svc call target
    (hcall.of.candles target htarget).1
  have hfresh : (decided d registry svc call o target).1.fingerprint ∉ retired := by
    rw [hdecision, hcall.of.strategyId]
    exact hcall.fresh target hlast context hcontext
  rw [← hcall.of.strategyId] at h
  obtain ⟨hdecisions, o₂, o₂', hstored, hstored', hnext, hwindows, hpeaks⟩ :=
    h.evaluated hwindow hcall.of.symbol (hcall.of.loads target htarget)
      (hcall.of.dated hcall.millis target htarget) hcall.old hfresh
  have hfound : ∀ cash, r.2.orchestratorFor cash strategyId symbol sessionId = o₂ := fun cash =>
    orchestratorFor_cached ((congrArg (Dict.get? · _) hstored).trans (hcall.of.stored o₂)) sessionId
  have hfound' : ∀ cash, r'.2.orchestratorFor cash strategyId symbol sessionId = o₂' := fun cash =>
    orchestratorFor_cached ((congrArg (Dict.get? · _) hstored').trans (hcall.of.stored o₂'))
      sessionId
  refine ⟨hdecisions, ?_, ?_, ?_, ?_⟩
  · simp only [r, r', evaluateCandle_processed, hprocessed]
  · rw [hfound, hfound', ← hcall.of.strategyId]
    exact hnext
  · rw [hfound, hfound']
    exact .inl hpeaks
  · rw [hfound, hfound']
    exact .inl hwindows

/-- **A call comes to the same in both services**, and keeps them together. -/
theorem Alongside.step
    (h : Alongside d registry strategyId symbol sessionId P retired (call :: calls) svc svc')
    (hcall : call.Comparable d registry strategyId symbol sessionId P retired) :
    let r := runCycle d registry failClosed svc call
    let r' := runCycle d registry failClosed svc' call
    r'.1.decisions = r.1.decisions ∧
      Alongside d registry strategyId symbol sessionId P retired calls r.2 r'.2 := by
  intro r r'
  have hpassed : (call.Halted d ∨ call.candles.getLast? = none) →
      Alongside d registry strategyId symbol sessionId P retired calls
        (svc.store call (svc.orchestratorOf d.paper.initialCash call) svc.paper)
        (svc'.store call (svc'.orchestratorOf d.paper.initialCash call) svc'.paper) := by
    intro hpasses
    obtain ⟨hprocessed, hkindred, hpeak, hwindow⟩ := h
    rw [← hcall.of.orchestratorOf, ← hcall.of.orchestratorOf] at hpeak
    simp only [← hcall.of.orchestratorOf] at hkindred hwindow
    refine .stored hcall.of hprocessed hkindred hpeak (hwindow.imp_right fun hbehind => ?_)
    refine ⟨hbehind.shorter, hbehind.atClose, hbehind.empty, ?_⟩
    have hcatches := hbehind.catchesUp
    unfold CatchesUp at hcatches
    rcases hpasses with hhalt | hnone
    · rwa [if_pos hhalt] at hcatches
    · split_ifs at hcatches
      · exact hcatches
      · rwa [hnone] at hcatches
  by_cases hhalt : call.Halted d
  · have hr : r = _ := if_pos hhalt
    have hr' : r' = _ := if_pos hhalt
    rw [hr, hr']
    exact ⟨rfl, hpassed (.inl hhalt)⟩
  have hr : r = _ := if_neg hhalt
  have hr' : r' = _ := if_neg hhalt
  rw [hr, hr']
  cases hlast : call.candles.getLast? with
  | none => exact ⟨rfl, hpassed (.inr hlast)⟩
  | some target =>
    dsimp only
    obtain ⟨hprimed, hpeak, hwindow⟩ := h.warmed hcall.of hcall.millis hhalt hlast
    rw [h.processed]
    by_cases hkey : call.key registry target ∈ svc.runtime.processed
    · rw [if_pos hkey, if_pos hkey]
      obtain ⟨hseen, hsame⟩ := hprimed.portfolioState d.paper.initialCash
      exact ⟨rfl, .stored hcall.of h.processed hseen (.inl hsame)
        (hwindow.imp_right And.right)⟩
    · -- the candle is not processed, so the second service has caught up
      have hsame := hwindow.resolve_right fun hbehind => hkey hbehind.1
      rw [if_neg hkey, if_neg hkey]
      split_ifs
      · exact ⟨rfl, .stored hcall.of h.processed hprimed hpeak (.inl hsame)⟩
      · exact ⟨rfl, .stored hcall.of h.processed hprimed hpeak (.inl hsame)⟩
      · exact hprimed.alongside hsame h.processed hcall hlast

/-! ### Runs -/

/-- What the calls decide, one after another. -/
def Service.decisions (d : Deployment) (registry : Registry) (failClosed : Bool) :
    Service → List CycleCall → List Decisions
  | _, [] => []
  | svc, call :: calls =>
      let r := runCycle d registry failClosed svc call
      r.1.decisions :: decisions d registry failClosed r.2 calls

/-- **Two services that are alongside decide the same in every call.** -/
theorem Alongside.decisions : ∀ {svc svc' : Service} {calls : List CycleCall},
    Alongside d registry strategyId symbol sessionId P retired calls svc svc' →
    (∀ call ∈ calls, call.Comparable d registry strategyId symbol sessionId P retired) →
    svc'.decisions d registry failClosed calls = svc.decisions d registry failClosed calls := by
  intro svc svc' calls
  induction calls generalizing svc svc' with
  | nil => exact fun _ _ => rfl
  | cons call calls ih =>
    intro h hcalls
    obtain ⟨hsame, hnext⟩ := @Alongside.step d registry failClosed _ _ _ _ _ _ _ _ _ h
      (hcalls call (List.mem_cons_self ..))
    rw [Service.decisions, Service.decisions, hsame,
      ih hnext fun c hc => hcalls c (List.mem_cons_of_mem _ hc)]

end Atlas
