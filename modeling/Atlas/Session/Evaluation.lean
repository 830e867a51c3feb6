import Atlas.Session.Refusal
import Atlas.Session.Twins

/-!
# Two orchestrators on one candle

An evaluation of a candle in its parts: the decision before the candle is processed, the
decision on it, the cycle of the runtime, and what the orchestrator keeps.  Two
orchestrators decide alike on a candle if their windows and their sessions are the same
in what is read: they show the strategy the same context, so it answers the same, and the
two cycles differ in the keys of their orders only.  Afterwards they are alike again.

What an orchestrator remembers of the fingerprints it has acted on may differ, as long as
the strategy does not come back to one that only the first remembers.

## Main definitions

* `previewed`, `decided`, `takenInput`, `afterTaken`, `rejectedInput` — the parts of
  `evaluateCandle`.
* `Orderly` — an orchestrator and its session, by the window.
* `SameMemory`, `Kindred` — what the two orchestrators agree in, with their sessions.
* `Decisions` — what is compared of two calls.

## Main results

* `Orderly.primed`, `Orderly.taken`, `Orderly.rejected` — what each part of a call keeps.
* `Kindred.evaluated` — **an evaluation comes to the same in both**.

## References

`app/services/trading_orchestrator.py`, `app/services/paper_cycle.py`.
-/

namespace Atlas

open Paper Session

/-! ### The parts of an evaluation -/

section

variable (d : Deployment) (registry : Registry) (svc : Service) (call : CycleCall)
  (o : Orchestrator) (target : Candle)

/-- The decision before the candle is processed. -/
def previewed : StrategyDecision × Orchestrator :=
  o.evaluate (registry call.strategyId) d.paper.initialCash svc.paper call.symbol
    (o.windowOf call.symbol ++ [target])

/-- The ledger marked at the close of the candle. -/
def markedAt : PaperState :=
  setMarkPrice d.paper svc.paper call.symbol target.close call.around.now

/-- The decision on the candle, when it is taken. -/
def decided : StrategyDecision × Orchestrator :=
  let marked := markedAt d svc call target
  let o := ((previewed d registry svc call o target).2.take target).countBar marked call.symbol
  o.evaluate (registry call.strategyId) d.paper.initialCash marked call.symbol
    (o.windowOf call.symbol)

/-- The cycle of a candle that is taken. -/
def takenInput : CycleInput :=
  let r := decided d registry svc call o target
  { key := call.key registry target
    close := target.close
    signal := some r.1.signal
    seen := r.1.fingerprint ∈ r.2.seenSignalFps
    tradingPaused := call.tradingPaused
    strategyName := some (registry call.strategyId).name
    clientOrderId := r.2.clientOrderId target r.1.signal.direction
    peakEquity := r.2.peakEquity
    consecutiveLosses := r.2.consecutiveLosses
    journaledFillIds := r.2.journaledFillIds
    killSwitchEnabled := r.2.killSwitchEnabled
    invariantsHold := call.invariantsHold
    around := call.around }

/-- The orchestrator when its order has been sent. -/
def acted : Orchestrator :=
  let r := decided d registry svc call o target
  if (Runtime.actingRequest (markedAt d svc call target)
      (takenInput d registry svc call o target)).isSome then
    { r.2 with seenSignalFps := r.1.fingerprint :: r.2.seenSignalFps }
  else r.2

/-- The orchestrator after a candle that is taken. -/
def afterTaken : Orchestrator :=
  let outcome := Runtime.processCandle d svc.runtime.session (takenInput d registry svc call o target)
  let o := (acted d registry svc call o target).afterOrder call.symbol outcome.order outcome.fills
    (outcome.session.paper.realizedPnl - (markedAt d svc call target).realizedPnl)
  (o.portfolioState d.paper.initialCash outcome.session.paper).2

/-- The cycle of a candle that is rejected. -/
def rejectedInput : CycleInput where
  key := call.key registry target
  close := target.close
  accepted := false
  signal := none
  clientOrderId := ""
  peakEquity := (previewed d registry svc call o target).2.peakEquity
  invariantsHold := call.invariantsHold
  around := call.around

/-- An evaluation, in its parts. -/
theorem evaluateCandle_eq :
    evaluateCandle d registry svc call o target =
      if o.rejectReason target call.around.now = none then
        ({ ending := .complete
           accepted := true
           lastSignal := some (previewed d registry svc call o target).1
           signal := some (decided d registry svc call o target).1
           order := (Runtime.processCandle d svc.runtime.session
            (takenInput d registry svc call o target)).order },
          { runtime := Runtime.cycle d svc.runtime (takenInput d registry svc call o target)
            orchestrators := svc.orchestrators.set (sessionKey call.symbol call.strategyId)
              (afterTaken d registry svc call o target) })
      else
        ({ ending := .complete, lastSignal := some (previewed d registry svc call o target).1 },
          { runtime := Runtime.cycle d svc.runtime (rejectedInput d registry svc call o target)
            orchestrators := svc.orchestrators.set (sessionKey call.symbol call.strategyId)
              (previewed d registry svc call o target).2 }) := by
  have hreason : (previewed d registry svc call o target).2.rejectReason target call.around.now =
      o.rejectReason target call.around.now := rfl
  by_cases hnone : o.rejectReason target call.around.now = none
  · have htaken : ((previewed d registry svc call o target).2.rejectReason target
        call.around.now).isNone = true := by rw [hreason, hnone]; rfl
    rw [if_pos hnone]
    exact if_pos htaken
  · have hrejected : ¬((previewed d registry svc call o target).2.rejectReason target
        call.around.now).isNone = true := by
      rw [hreason, Option.isNone_iff_eq_none]
      exact hnone
    rw [if_neg hnone]
    exact if_neg hrejected

end

/-! ### What every call keeps -/

/-- A candle of the symbol that opens at a whole millisecond, as the floating-point seconds of
`to_unix_ms` keep it. -/
def Candle.Dated (symbol : String) (candle : Candle) : Prop :=
  candle.symbol = symbol ∧ toUnixMs candle.openTime * 1000 = candle.openTime

/-- An orchestrator that goes by its window, in a session with orders for candles of the
window `window`. -/
structure Orderly (symbol : String) (window : List Candle) (s : Session) (o : Orchestrator) :
    Prop where
  intake : o.Intake symbol
  dated : ∀ c ∈ o.windowOf symbol, c.Dated symbol
  named : 8 ≤ o.sessionId.length
  killSwitch : o.killSwitchEnabled = s.killSwitchEnabled
  regular : Regular window s

variable {d : Deployment} {registry : Registry} {symbol : String} {window : List Candle}
  {s : Session} {o o' : Orchestrator} {svc svc' : Service} {call : CycleCall} {target : Candle}

/-- Warming up keeps it, and takes what is newer than the window. -/
theorem Orderly.primed {candles : List Candle} {now : Time} (h : Orderly symbol window s o)
    (hloads : ∀ c ∈ candles, Orchestrator.Loads symbol c) (hdated : ∀ c ∈ candles, c.Dated symbol) :
    let p := o.primeCandles d.paper now s.paper candles
    Orderly symbol window { s with paper := p.paper } p.orchestrator ∧
      p.orchestrator.windowOf symbol =
        o.windowOf symbol ++ newer (o.windowOf symbol) candles ∧
      (∃ seen last windows, p.orchestrator =
        { o with seenCandles := seen, lastOpenTime := last, window := windows }) ∧
      p.paper = markAll d.paper now s.paper
        ((newer (o.windowOf symbol) candles).map fun c => (c.symbol, c.close)) := by
  intro p
  obtain ⟨hprimed, hintake, hwindow⟩ := h.intake.primedOf now hloads
  have ho : p.orchestrator = (o.primedOf now candles).foldl Orchestrator.take o :=
    (Orchestrator.primeCandles_orchestrator o s.paper candles).1
  have hpaper : p.paper = markAll d.paper now s.paper (o.primedMarks now candles) :=
    Orchestrator.primeCandles_paper o s.paper candles
  rw [Orchestrator.primedMarks, hprimed] at hpaper
  obtain ⟨seen, last, windows, heq⟩ := Orchestrator.foldl_take (o.primedOf now candles) o
  rw [← ho] at hintake hwindow heq
  refine ⟨⟨hintake, fun c hc => ?_, ?_, ?_, ?_⟩, hwindow, ⟨seen, last, windows, heq⟩, hpaper⟩
  · rw [hwindow] at hc
    rcases List.mem_append.mp hc with hc | hc
    · exact h.dated c hc
    · exact hdated c (newer_subset hc)
  · rw [heq]
    exact h.named
  · rw [heq]
    exact h.killSwitch
  · rw [hpaper]
    exact h.regular.markedAll _ now

theorem cycle_killSwitch (r : Runtime) (input : CycleInput) :
    (Runtime.cycle d r input).session.killSwitchEnabled = r.session.killSwitchEnabled := by
  have hcandle : (Runtime.processCandle d r.session input).session.killSwitchEnabled =
      r.session.killSwitchEnabled := Runtime.processCandle_controls.1
  simp only [Runtime.cycle, Runtime.reconciledSession, Runtime.cycleSession, Runtime.failClosed]
  split_ifs <;> exact hcandle

/-- The decision is made by the orchestrator that has taken the candle. -/
theorem decided_orchestrator : ∃ bars peak, (decided d registry svc call o target).2 =
    { o.take target with barsHeld := bars, peakEquity := peak } := by
  simp only [decided, previewed, Orchestrator.evaluate, Orchestrator.portfolioState,
    Orchestrator.countBar]
  split_ifs
  · exact ⟨_, _, rfl⟩
  · exact ⟨_, _, rfl⟩

/-- What a candle that is taken leaves of the orchestrator. -/
theorem afterTaken_eq : ∃ fps ids bars losses peak, afterTaken d registry svc call o target =
    { o.take target with
      seenSignalFps := fps, journaledFillIds := ids, barsHeld := bars,
      consecutiveLosses := losses, peakEquity := peak } := by
  obtain ⟨bars, peak, hdecided⟩ := @decided_orchestrator d registry o svc call target
  have hacted : ∃ fps, acted d registry svc call o target =
      { o.take target with barsHeld := bars, peakEquity := peak, seenSignalFps := fps } := by
    simp only [acted, hdecided]
    split_ifs
    · exact ⟨_, rfl⟩
    · exact ⟨_, rfl⟩
  obtain ⟨fps, hacted⟩ := hacted
  simp only [afterTaken, hacted, Orchestrator.portfolioState]
  generalize Runtime.processCandle d svc.runtime.session _ = outcome
  cases outcome.order with
  | none => exact ⟨_, _, _, _, _, rfl⟩
  | some order =>
    simp only [Orchestrator.afterOrder]
    split_ifs
    · cases order.side
      · exact ⟨_, _, _, _, _, rfl⟩
      · exact ⟨_, _, _, _, _, rfl⟩
    · exact ⟨_, _, _, _, _, rfl⟩

/-- The key of an order for a candle that is later than the window. -/
theorem clientOrderId_new {direction : SignalDirection} (hnamed : 8 ≤ o.sessionId.length)
    (hdated : ∀ c ∈ window, c.Dated symbol) (htarget : target.Dated symbol)
    (hlater : ∀ c ∈ window, c.openTime < target.openTime) :
    ¬OrderKey window (o.clientOrderId target direction) := by
  rintro ⟨o₂, candle, direction₂, hnamed₂, hmem, heq⟩
  have hsymbol : target.symbol = candle.symbol := htarget.1.trans (hdated candle hmem).1.symm
  have htime : toUnixMs target.openTime = toUnixMs candle.openTime :=
    clientOrderId_openTime hnamed hnamed₂ hsymbol heq
  have hsame : target.openTime = candle.openTime := by
    rw [← htarget.2, htime, (hdated candle hmem).2]
  exact absurd hsame (hlater candle hmem).ne'

/-- **A candle that is taken** extends the window, and keeps an orderly session. -/
theorem Orderly.taken (h : Orderly symbol window svc.runtime.session o)
    (hloads : Orchestrator.Loads symbol target) (hdated : target.Dated symbol)
    (hnone : o.rejectReason target call.around.now = none) :
    let o₂ := afterTaken d registry svc call o target
    Orderly symbol (window ++ [target])
        (Runtime.cycle d svc.runtime (takenInput d registry svc call o target)).session o₂ ∧
      o₂.windowOf symbol = o.windowOf symbol ++ [target] := by
  intro o₂
  obtain ⟨fps, ids, bars, losses, peak, heq⟩ := @afterTaken_eq d registry o svc call target
  have htake : (o.take target).Intake symbol := h.intake.take hloads.1 hnone
  have hwindow : o₂.windowOf symbol = o.windowOf symbol ++ [target] := by
    have hof : o₂.windowOf symbol = (o.take target).windowOf symbol := by
      simp only [o₂, heq]
      rfl
    rw [hof, Orchestrator.windowOf_take, if_pos hloads.1]
  have hkey : OrderKey (window ++ [target])
      (takenInput d registry svc call o target).clientOrderId := by
    obtain ⟨bars, peak, hdecided⟩ := @decided_orchestrator d registry o svc call target
    refine ⟨(decided d registry svc call o target).2, target, _, ?_, by simp, rfl⟩
    rw [hdecided]
    exact h.named
  refine ⟨⟨?_, fun c hc => ?_, ?_, ?_, ?_⟩, hwindow⟩
  · simp only [o₂, heq]
    exact htake.of_intake rfl rfl
  · rw [hwindow] at hc
    rcases List.mem_append.mp hc with hc | hc
    · exact h.dated c hc
    · rw [List.mem_singleton.mp hc]
      exact hdated
  · simp only [o₂, heq]
    exact h.named
  · rw [cycle_killSwitch]
    simp only [o₂, heq]
    exact h.killSwitch
  · exact Runtime.cycle_regular (Runtime.processCandle_regular
      (h.regular.mono (List.subset_append_left ..)) rfl hkey)

/-- A candle that is rejected leaves the orchestrator, but for the highest equity. -/
theorem Orderly.rejected (h : Orderly symbol window svc.runtime.session o) :
    Orderly symbol window
      (Runtime.cycle d svc.runtime (rejectedInput d registry svc call o target)).session
      (previewed d registry svc call o target).2 := by
  have hsession : Runtime.processCandle d svc.runtime.session
      (rejectedInput d registry svc call o target) = { session := svc.runtime.session } :=
    Runtime.processCandle_unaccepted rfl rfl
  refine ⟨h.intake.of_intake rfl rfl, h.dated, h.named, ?_, ?_⟩
  · rw [cycle_killSwitch]
    exact h.killSwitch
  · refine Runtime.cycle_regular ?_
    rw [hsession]
    exact h.regular

/-! ### Two orchestrators -/

/-- The strategy does not look at the bars held. -/
def Strategy.IgnoresBars (strategy : Strategy) : Prop :=
  ∀ context bars, strategy.evaluate { context with barsHeld := bars } = strategy.evaluate context

/-- What bears on a decision in the memory of the two orchestrators.  They may differ in
the fingerprints that are retired. -/
structure SameMemory (strategy : Strategy) (symbol : String) (retired : List String)
    (o o' : Orchestrator) : Prop where
  bars : (o'.barsHeld.get? symbol).getD 0 = (o.barsHeld.get? symbol).getD 0 ∨ strategy.IgnoresBars
  losses : o'.consecutiveLosses = o.consecutiveLosses
  acted : ∀ f ∉ retired, (f ∈ o'.seenSignalFps ↔ f ∈ o.seenSignalFps)

/-- Two sessions with their orchestrators, that decide alike on the same window. -/
structure Kindred (d : Deployment) (strategy : Strategy) (P : Time → Prop) (retired : List String)
    (symbol : String) (window : List Candle) (s s' : Session) (o o' : Orchestrator) : Prop where
  session : SameSession d P s s'
  orderly : Orderly symbol window s o
  orderly' : Orderly symbol window s' o'
  memory : SameMemory strategy symbol retired o o'
  peak : max o'.peakEquity s.paper.equity = max o.peakEquity s.paper.equity

variable {strategy : Strategy} {P : Time → Prop} {retired : List String} {books : Prop}
  {paper paper' : PaperState} {s' : Session}

theorem SameFunds.equity (h : SameFunds books paper paper') : paper'.equity = paper.equity := by
  obtain ⟨hcash, hreserved, hpositions, -⟩ := h.values
  rw [PaperState.equity, hcash, hreserved, hpositions]
  rfl

/-- The same window, funds and memory lead to the same decision, and to the same highest
equity. -/
theorem SameMemory.evaluate (h : SameMemory strategy symbol retired o o')
    (hfunds : SameFunds books paper paper')
    (hpeak : max o'.peakEquity paper.equity = max o.peakEquity paper.equity) (cash : ℚ)
    (candles : List Candle) :
    let r := o.evaluate strategy cash paper symbol candles
    let r' := o'.evaluate strategy cash paper' symbol candles
    r'.1 = r.1 ∧ r'.2.peakEquity = r.2.peakEquity ∧ SameMemory strategy symbol retired r.2 r'.2 := by
  have hequity : paper'.equity = paper.equity := SameFunds.equity hfunds
  obtain ⟨hcash, -, hpositions, hrealized, -⟩ := hfunds.values
  have hportfolio : (o'.portfolioState cash paper').1 = (o.portfolioState cash paper).1 := by
    simp only [Orchestrator.portfolioState, hequity, hpeak, hcash, hrealized, hpositions, h.losses]
  refine ⟨?_, ?_, h.bars, h.losses, h.acted⟩
  · simp only [Orchestrator.evaluate, hportfolio, hpositions]
    rcases h.bars with hsame | hignores
    · rw [hsame]
    · exact hignores ⟨candles, (o.portfolioState cash paper).1, paper.positions.get? symbol,
        (o.barsHeld.get? symbol).getD 0⟩ _
  · simp only [Orchestrator.evaluate, Orchestrator.portfolioState, hequity, hpeak]

theorem SameMemory.countBar (h : SameMemory strategy symbol retired o o')
    (hpositions : paper'.positions = paper.positions) :
    SameMemory strategy symbol retired (o.countBar paper symbol) (o'.countBar paper' symbol) := by
  simp only [Orchestrator.countBar, hpositions]
  split_ifs
  · refine ⟨h.bars.imp_left fun hsame => ?_, h.losses, h.acted⟩
    simp only [Dict.get?_set_self, hsame]
  · exact h

theorem SameMemory.portfolioState (h : SameMemory strategy symbol retired o o')
    (initialCash initialCash' : ℚ) (paper paper' : PaperState) :
    SameMemory strategy symbol retired (o.portfolioState initialCash paper).2
      (o'.portfolioState initialCash' paper').2 :=
  ⟨h.bars, h.losses, h.acted⟩

theorem SameMemory.afterOrder {order order' : Option Order} {delta delta' : ℚ}
    (h : SameMemory strategy symbol retired o o')
    (horder : order'.map Order.outcome = order.map Order.outcome) (fills fills' : List Fill)
    (hdelta : delta' = delta) :
    SameMemory strategy symbol retired (o.afterOrder symbol order fills delta)
      (o'.afterOrder symbol order' fills' delta') := by
  subst hdelta
  cases order with
  | none =>
    rw [Option.map_none, Option.map_eq_none_iff] at horder
    rw [horder]
    exact ⟨h.bars, h.losses, h.acted⟩
  | some a =>
    obtain ⟨b, rfl, heq⟩ := Option.map_eq_some_iff.mp horder
    simp only [Order.outcome, Prod.mk.injEq] at heq
    obtain ⟨hside, hstatus, -⟩ := heq
    simp only [Orchestrator.afterOrder, hside, hstatus]
    split_ifs
    · cases a.side
      · exact ⟨.inl (by simp only [Dict.get?_set_self]), h.losses, h.acted⟩
      · refine ⟨.inl ?_, by simp only [h.losses], h.acted⟩
        simp only [Dict.get?_erase, if_true]
    · exact ⟨h.bars, h.losses, h.acted⟩

/-- The sessions agree after the mark that precedes the decision. -/
theorem Kindred.marked (h : Kindred d strategy P retired symbol window svc.runtime.session
      svc'.runtime.session o o') :
    SameFunds (d.enableReconciliation = true) (markedAt d svc call target)
      (markedAt d svc' call target) :=
  h.session.funds.marked h.orderly.regular.ledger h.orderly'.regular.ledger call.symbol target.close

/-- **The decisions on the candle are the same.** -/
theorem Kindred.decides
    (h : Kindred d (registry call.strategyId) P retired symbol window svc.runtime.session
      svc'.runtime.session o o')
    (hwindow : o'.windowOf symbol = o.windowOf symbol) (hcall : call.symbol = symbol)
    (htarget : target.symbol = symbol) :
    let r := decided d registry svc call o target
    let r' := decided d registry svc' call o' target
    (previewed d registry svc' call o' target).1 = (previewed d registry svc call o target).1 ∧
      (previewed d registry svc' call o' target).2.peakEquity =
        (previewed d registry svc call o target).2.peakEquity ∧
      r'.1 = r.1 ∧ r'.2.peakEquity = r.2.peakEquity ∧
      SameMemory (registry call.strategyId) symbol retired r.2 r'.2 := by
  subst hcall
  obtain ⟨hpreview, hpeak, hmemory⟩ :
      (previewed d registry svc' call o' target).1 = (previewed d registry svc call o target).1 ∧
        (previewed d registry svc' call o' target).2.peakEquity =
          (previewed d registry svc call o target).2.peakEquity ∧
        SameMemory (registry call.strategyId) call.symbol retired
          (previewed d registry svc call o target).2
          (previewed d registry svc' call o' target).2 := by
    rw [previewed, previewed, hwindow]
    exact h.memory.evaluate h.session.funds h.peak _ _
  have hmarked : SameFunds (d.enableReconciliation = true) (markedAt d svc call target)
      (markedAt d svc' call target) := h.marked
  have htaken : SameMemory (registry call.strategyId) call.symbol retired
      ((previewed d registry svc call o target).2.take target)
      ((previewed d registry svc' call o' target).2.take target) :=
    ⟨hmemory.bars, hmemory.losses, hmemory.acted⟩
  have hcounted := htaken.countBar hmarked.values.2.2.1
  -- both have the candle at the end of the window
  have hcandles : ∀ (o : Orchestrator) (paper : PaperState),
      ((o.take target).countBar paper call.symbol).windowOf call.symbol =
        o.windowOf call.symbol ++ [target] := by
    intro o paper
    have hcount : ((o.take target).countBar paper call.symbol).window = (o.take target).window :=
      countBar_window ..
    rw [Orchestrator.windowOf, hcount, ← Orchestrator.windowOf, Orchestrator.windowOf_take,
      if_pos htarget]
  have hsame : ((previewed d registry svc' call o' target).2).windowOf call.symbol =
      ((previewed d registry svc call o target).2).windowOf call.symbol := hwindow
  have hcountPeak : ∀ (o : Orchestrator) (paper : PaperState),
      ((o.take target).countBar paper call.symbol).peakEquity = o.peakEquity := by
    intro o paper
    unfold Orchestrator.countBar
    split_ifs <;> rfl
  have hmax : max (((previewed d registry svc' call o' target).2.take target).countBar
        (markedAt d svc' call target) call.symbol).peakEquity (markedAt d svc call target).equity =
      max (((previewed d registry svc call o target).2.take target).countBar
        (markedAt d svc call target) call.symbol).peakEquity (markedAt d svc call target).equity := by
    rw [hcountPeak, hcountPeak]
    exact congrArg (max · _) hpeak
  obtain ⟨hdecision, hpeak₂, hmemory₂⟩ := hcounted.evaluate hmarked hmax
    d.paper.initialCash
    ((previewed d registry svc call o target).2.windowOf call.symbol ++ [target])
  simp only [decided, hcandles, hsame]
  exact ⟨hpreview, hpeak, hdecision, hpeak₂, hmemory₂⟩

/-- The cycles of the taken candle differ in the keys of their orders and in the fills
journaled before. -/
theorem Kindred.inputs
    (h : Kindred d (registry call.strategyId) P retired symbol window svc.runtime.session
      svc'.runtime.session o o')
    (hwindow : o'.windowOf symbol = o.windowOf symbol) (hcall : call.symbol = symbol)
    (htarget : target.symbol = symbol)
    (hfresh : (decided d registry svc call o target).1.fingerprint ∉ retired) :
    let r' := decided d registry svc' call o' target
    takenInput d registry svc' call o' target =
      Runtime.rekeyed (takenInput d registry svc call o target)
        (r'.2.clientOrderId target r'.1.signal.direction) r'.2.journaledFillIds := by
  obtain ⟨-, -, hdecision, hpeak, hmemory⟩ := h.decides hwindow hcall htarget
  obtain ⟨bars, peak, horchestrator⟩ := @decided_orchestrator d registry o svc call target
  obtain ⟨bars', peak', horchestrator'⟩ := @decided_orchestrator d registry o' svc' call target
  have hkill : (decided d registry svc' call o' target).2.killSwitchEnabled =
      (decided d registry svc call o target).2.killSwitchEnabled := by
    rw [horchestrator, horchestrator']
    exact h.orderly'.killSwitch.trans (h.session.killSwitch.trans h.orderly.killSwitch.symm)
  have hseen : ((decided d registry svc' call o' target).1.fingerprint ∈
        (decided d registry svc' call o' target).2.seenSignalFps) ↔
      ((decided d registry svc call o target).1.fingerprint ∈
        (decided d registry svc call o target).2.seenSignalFps) := by
    rw [hdecision]
    exact hmemory.acted _ hfresh
  simp only [takenInput, Runtime.rekeyed, hdecision, hpeak, hmemory.losses, hkill]
  rw [hdecision] at hseen
  simp only [hseen]

theorem afterOrder_peakEquity (o : Orchestrator) (name : String) (order : Option Order)
    (fills : List Fill) (delta : ℚ) :
    (o.afterOrder name order fills delta).peakEquity = o.peakEquity := by
  cases order with
  | none => rfl
  | some order =>
    simp only [Orchestrator.afterOrder]
    split_ifs
    · cases order.side <;> rfl
    · rfl

theorem acted_peakEquity : (acted d registry svc call o target).peakEquity =
    (decided d registry svc call o target).2.peakEquity := by
  unfold acted
  dsimp only
  split_ifs <;> rfl

theorem SameMemory.remember {f : String} (h : SameMemory strategy symbol retired o o') :
    SameMemory strategy symbol retired { o with seenSignalFps := f :: o.seenSignalFps }
      { o' with seenSignalFps := f :: o'.seenSignalFps } :=
  ⟨h.bars, h.losses, fun g hg => by simp only [List.mem_cons, h.acted g hg]⟩

/-- The key of the taken candle is new to a window that is older than the candle. -/
theorem Orderly.takenInput_new (h : Orderly symbol window s o) (hdated : target.Dated symbol)
    (hlater : ∀ c ∈ o.windowOf symbol, c.openTime < target.openTime) :
    ¬OrderKey (o.windowOf symbol) (takenInput d registry svc call o target).clientOrderId := by
  obtain ⟨bars, peak, horchestrator⟩ := @decided_orchestrator d registry o svc call target
  refine clientOrderId_new ?_ h.dated hdated hlater
  rw [horchestrator]
  exact h.named

/-- The taken candle has the same outcome, and leaves the same session. -/
theorem Kindred.processed
    (h : Kindred d (registry call.strategyId) P retired symbol (o.windowOf symbol)
      svc.runtime.session svc'.runtime.session o o')
    (hwindow : o'.windowOf symbol = o.windowOf symbol) (hcall : call.symbol = symbol)
    (htarget : target.symbol = symbol) (hdated : target.Dated symbol)
    (hlater : ∀ c ∈ o.windowOf symbol, c.openTime < target.openTime)
    (hold : ∀ t, P t → t < call.around.now - seconds 60)
    (hfresh : (decided d registry svc call o target).1.fingerprint ∉ retired) :
    let r := Runtime.processCandle d svc.runtime.session (takenInput d registry svc call o target)
    let r' :=
      Runtime.processCandle d svc'.runtime.session (takenInput d registry svc' call o' target)
    r'.order.map Order.outcome = r.order.map Order.outcome ∧
      SameSession d P r.session r'.session := by
  have hnew : ¬OrderKey (o.windowOf symbol) (takenInput d registry svc call o target).clientOrderId :=
    h.orderly.takenInput_new hdated hlater
  have hnew' : ¬OrderKey (o.windowOf symbol)
      (takenInput d registry svc' call o' target).clientOrderId :=
    hwindow ▸ h.orderly'.takenInput_new hdated (hwindow ▸ hlater)
  have htwin := @Runtime.processCandle_twin d P _ _ _ (takenInput d registry svc call o target)
    (takenInput d registry svc' call o' target).clientOrderId
    (takenInput d registry svc' call o' target).journaledFillIds
    h.session h.orderly.regular h.orderly'.regular rfl rfl hold hnew hnew'
  have hinput : takenInput d registry svc' call o' target =
      Runtime.rekeyed (takenInput d registry svc call o target)
        (takenInput d registry svc' call o' target).clientOrderId
        (takenInput d registry svc' call o' target).journaledFillIds :=
    h.inputs hwindow hcall htarget hfresh
  rw [← hinput] at htwin
  exact htwin

/-- The orchestrators remember the same of acting on the taken candle. -/
theorem Kindred.remembers
    (h : Kindred d (registry call.strategyId) P retired symbol (o.windowOf symbol)
      svc.runtime.session svc'.runtime.session o o')
    (hwindow : o'.windowOf symbol = o.windowOf symbol) (hcall : call.symbol = symbol)
    (htarget : target.symbol = symbol)
    (hfresh : (decided d registry svc call o target).1.fingerprint ∉ retired) :
    SameMemory (registry call.strategyId) symbol retired (acted d registry svc call o target)
      (acted d registry svc' call o' target) := by
  obtain ⟨-, -, hdecision, -, hmemory⟩ := h.decides hwindow hcall htarget
  have hmarked : SameFunds (d.enableReconciliation = true) (markedAt d svc call target)
      (markedAt d svc' call target) := h.marked
  have hacts : (Runtime.actingRequest (markedAt d svc' call target)
        (takenInput d registry svc' call o' target)).isSome =
      (Runtime.actingRequest (markedAt d svc call target)
        (takenInput d registry svc call o target)).isSome := by
    rw [h.inputs hwindow hcall htarget hfresh, Runtime.actingRequest_rekeyed hmarked,
      Option.isSome_map]
  by_cases hact : (Runtime.actingRequest (markedAt d svc call target)
      (takenInput d registry svc call o target)).isSome = true
  · have hkept : acted d registry svc call o target = _ := if_pos hact
    have hkept' : acted d registry svc' call o' target = _ := if_pos (hacts.trans hact)
    rw [hkept, hkept', hdecision]
    exact hmemory.remember
  · have hkept : acted d registry svc call o target = _ := if_neg hact
    have hkept' : acted d registry svc' call o' target = _ := if_neg fun htrue =>
      hact (hacts.symm.trans htrue)
    rw [hkept, hkept']
    exact hmemory

/-- **A candle that is taken comes to the same.** -/
theorem Kindred.taken
    (h : Kindred d (registry call.strategyId) P retired symbol (o.windowOf symbol)
      svc.runtime.session svc'.runtime.session o o')
    (hwindow : o'.windowOf symbol = o.windowOf symbol) (hcall : call.symbol = symbol)
    (hloads : Orchestrator.Loads symbol target) (hdated : target.Dated symbol)
    (hnone : o.rejectReason target call.around.now = none)
    (hold : ∀ t, P t → t < call.around.now - seconds 60)
    (hfresh : (decided d registry svc call o target).1.fingerprint ∉ retired) :
    let input := takenInput d registry svc call o target
    let input' := takenInput d registry svc' call o' target
    let r := afterTaken d registry svc call o target
    let r' := afterTaken d registry svc' call o' target
    (Runtime.processCandle d svc'.runtime.session input').order.map Order.outcome =
        (Runtime.processCandle d svc.runtime.session input).order.map Order.outcome ∧
      Kindred d (registry call.strategyId) P retired symbol (r.windowOf symbol)
        (Runtime.cycle d svc.runtime input).session
        (Runtime.cycle d svc'.runtime input').session r r' ∧
      r'.windowOf symbol = r.windowOf symbol ∧ r'.peakEquity = r.peakEquity := by
  intro input input' r r'
  -- one window, so the second orchestrator takes the candle too
  have hlater : ∀ c ∈ o.windowOf symbol, c.openTime < target.openTime :=
    (h.orderly.intake.rejectReason_iff hloads).mp hnone
  have hnone' : o'.rejectReason target call.around.now = none := by
    rw [h.orderly'.intake.rejectReason_iff hloads, hwindow]
    exact hlater
  -- the two decide alike, and the sessions after the candle have one ledger up to its books
  obtain ⟨-, -, -, hpeak, -⟩ := h.decides hwindow hcall hloads.1
  obtain ⟨horder, hsession⟩ := h.processed hwindow hcall hloads.1 hdated hlater hold hfresh
  obtain ⟨hordered, hgrown⟩ := h.orderly.taken hloads hdated hnone
  obtain ⟨hordered', hgrown'⟩ := h.orderly'.taken hloads hdated hnone'
  have hmarked : SameFunds (d.enableReconciliation = true) (markedAt d svc call target)
      (markedAt d svc' call target) := h.marked
  have hacted := h.remembers hwindow hcall hloads.1 hfresh
  -- both orchestrators see the same profit, and the same equity
  have hdelta : (Runtime.processCandle d svc'.runtime.session input').session.paper.realizedPnl -
        (markedAt d svc' call target).realizedPnl =
      (Runtime.processCandle d svc.runtime.session input).session.paper.realizedPnl -
        (markedAt d svc call target).realizedPnl := by
    rw [hsession.funds.values.2.2.2.1, hmarked.values.2.2.2.1]
  have hequity : (Runtime.processCandle d svc'.runtime.session input').session.paper.equity =
      (Runtime.processCandle d svc.runtime.session input).session.paper.equity :=
    SameFunds.equity hsession.funds
  have hpeaks : r'.peakEquity = r.peakEquity := by
    have hlast : (acted d registry svc' call o' target).peakEquity =
        (acted d registry svc call o target).peakEquity := by
      rw [acted_peakEquity, acted_peakEquity, hpeak]
    -- the peak is read after the order, from the equity that both ledgers have
    show max (Orchestrator.afterOrder _ _ _ _ _).peakEquity _ =
      max (Orchestrator.afterOrder _ _ _ _ _).peakEquity _
    rw [afterOrder_peakEquity, afterOrder_peakEquity, hlast, hequity]
  -- the fills may differ in their identifiers: what is compared here does not read them
  have hafter := hacted.afterOrder horder (Runtime.processCandle d svc.runtime.session input).fills
    (Runtime.processCandle d svc'.runtime.session input').fills hdelta
  refine ⟨horder, ⟨Runtime.cycle_twin rfl hsession, ?_, ?_, ?_, ?_⟩, ?_, hpeaks⟩
  · rw [hgrown]
    exact hordered
  · rw [hgrown]
    exact hordered'
  · subst hcall
    exact hafter.portfolioState _ _ _ _
  · rw [hpeaks]
  · rw [hgrown, hgrown', hwindow]

/-- **A candle that is rejected comes to the same.** -/
theorem Kindred.rejected
    (h : Kindred d (registry call.strategyId) P retired symbol (o.windowOf symbol)
      svc.runtime.session svc'.runtime.session o o')
    (hwindow : o'.windowOf symbol = o.windowOf symbol) (hcall : call.symbol = symbol)
    (htarget : target.symbol = symbol) :
    let input := rejectedInput d registry svc call o target
    let input' := rejectedInput d registry svc' call o' target
    let r := (previewed d registry svc call o target).2
    let r' := (previewed d registry svc' call o' target).2
    Kindred d (registry call.strategyId) P retired symbol (r.windowOf symbol)
        (Runtime.cycle d svc.runtime input).session
        (Runtime.cycle d svc'.runtime input').session r r' ∧
      r'.windowOf symbol = r.windowOf symbol ∧ r'.peakEquity = r.peakEquity := by
  intro input input' r r'
  obtain ⟨-, hpeak, -⟩ := h.decides hwindow hcall htarget
  have hsession : SameSession d P (Runtime.processCandle d svc.runtime.session input).session
      (Runtime.processCandle d svc'.runtime.session input').session := by
    rw [Runtime.processCandle_unaccepted rfl rfl, Runtime.processCandle_unaccepted rfl rfl]
    exact h.session
  refine ⟨⟨Runtime.cycle_twin rfl hsession, h.orderly.rejected, h.orderly'.rejected, ?_, ?_⟩,
    hwindow, hpeak⟩
  · exact ⟨h.memory.bars, h.memory.losses, h.memory.acted⟩
  · rw [hpeak]

/-! ### Decisions -/

/-- What a call decides: the directions of its two signals, and of its order the side,
the status, the quantity and the risk decision with its reason. -/
structure Decisions where
  ending : CycleEnd
  lastSignal : Option SignalDirection
  signal : Option SignalDirection
  order : Option (OrderSide × OrderStatus × ℚ × Option RiskDecision × Option RiskReasonCode)
  deriving DecidableEq, Repr

def CycleResult.decisions (r : CycleResult) : Decisions where
  ending := r.ending
  lastSignal := r.lastSignal.map fun s => s.signal.direction
  signal := r.signal.map fun s => s.signal.direction
  order := r.order.map Order.outcome

/-- **An evaluation comes to the same.** -/
theorem Kindred.evaluated
    (h : Kindred d (registry call.strategyId) P retired symbol (o.windowOf symbol)
      svc.runtime.session svc'.runtime.session o o')
    (hwindow : o'.windowOf symbol = o.windowOf symbol) (hcall : call.symbol = symbol)
    (hloads : Orchestrator.Loads symbol target) (hdated : target.Dated symbol)
    (hold : ∀ t, P t → t < call.around.now - seconds 60)
    (hfresh : (decided d registry svc call o target).1.fingerprint ∉ retired) :
    let r := evaluateCandle d registry svc call o target
    let r' := evaluateCandle d registry svc' call o' target
    r'.1.decisions = r.1.decisions ∧ ∃ o₂ o₂',
      r.2.orchestrators = svc.orchestrators.set (sessionKey call.symbol call.strategyId) o₂ ∧
      r'.2.orchestrators = svc'.orchestrators.set (sessionKey call.symbol call.strategyId) o₂' ∧
      Kindred d (registry call.strategyId) P retired symbol (o₂.windowOf symbol)
        r.2.runtime.session r'.2.runtime.session o₂ o₂' ∧
      o₂'.windowOf symbol = o₂.windowOf symbol ∧ o₂'.peakEquity = o₂.peakEquity := by
  intro r r'
  obtain ⟨hpreview, -, hdecision, -⟩ := h.decides hwindow hcall hloads.1
  by_cases hnone : o.rejectReason target call.around.now = none
  · have hnone' : o'.rejectReason target call.around.now = none := by
      rw [h.orderly'.intake.rejectReason_iff hloads, hwindow]
      exact (h.orderly.intake.rejectReason_iff hloads).mp hnone
    have hr : r = _ := (evaluateCandle_eq d registry svc call o target).trans (if_pos hnone)
    have hr' : r' = _ := (evaluateCandle_eq d registry svc' call o' target).trans (if_pos hnone')
    obtain ⟨horder, hkindred⟩ := h.taken hwindow hcall hloads hdated hnone hold hfresh
    rw [hr, hr']
    refine ⟨?_, _, _, rfl, rfl, hkindred⟩
    simp only [CycleResult.decisions, hpreview, hdecision, horder]
  · have hsome' : o'.rejectReason target call.around.now ≠ none := by
      rw [Ne, h.orderly'.intake.rejectReason_iff hloads, hwindow,
        ← @Orchestrator.Intake.rejectReason_iff o symbol target call.around.now h.orderly.intake
          hloads]
      exact hnone
    have hr : r = _ := (evaluateCandle_eq d registry svc call o target).trans (if_neg hnone)
    have hr' : r' = _ := (evaluateCandle_eq d registry svc' call o' target).trans (if_neg hsome')
    rw [hr, hr']
    refine ⟨?_, _, _, rfl, rfl, h.rejected hwindow hcall hloads.1⟩
    simp only [CycleResult.decisions, hpreview]

end Atlas
