import Atlas.Paper.Quiet
import Atlas.Session.Orchestrator

/-!
# Warming up

`prime_candles` is documented to load candles without evaluating or trading.  It marks
the shared ledger at the close of every candle it takes, and a mark fills the resting
orders it triggers.  So warming up leaves the ledger untouched exactly when no stored
order is triggered by the close of a candle taken; the same holds of a cycle that ends
as a replay, whose only effect on the ledger is the warm-up.

## Main definitions

* `Orchestrator.primedOf` — the candles of a list that are taken, in their order.
* `WarmsUpQuietly` — no stored order is triggered by one of their closes.

## Main results

* `primeCandles_paper` — priming marks the ledger at the closes of these candles.
* `warm_up_untouched_iff` — **warming up leaves the ledger untouched exactly when it
  triggers no stored order**, and so does a replay.
* `warm_up_fills_resting_order` — a warm-up that trades.

## References

`app/services/trading_orchestrator.py`, `app/services/paper_cycle.py`.
-/

namespace Atlas

open Paper

variable {cfg : PaperConfig} {now : Time}

namespace Orchestrator

/-- The candles `prime_candles` takes, in their order. -/
def primedOf (now : Time) : Orchestrator → List Candle → List Candle
  | _, [] => []
  | o, candle :: candles =>
      if candle.isClosed ∧ o.rejectReason candle now = none then
        candle :: primedOf now (o.take candle) candles
      else primedOf now o candles

/-- The marks of the candles taken. -/
def primedMarks (now : Time) (o : Orchestrator) (candles : List Candle) : List (String × ℚ) :=
  (o.primedOf now candles).map fun candle => (candle.symbol, candle.close)

theorem primeCandle_eq (p : Primed) (candle : Candle) :
    primeCandle cfg now p candle =
      if candle.isClosed ∧ p.orchestrator.rejectReason candle now = none then
        { orchestrator := p.orchestrator.take candle
          paper := Paper.setMarkPrice cfg p.paper candle.symbol candle.close now
          count := p.count + 1 }
      else p := by
  unfold primeCandle
  cases hclosed : candle.isClosed with
  | false => simp
  | true => cases hreason : p.orchestrator.rejectReason candle now <;> simp

theorem foldl_primeCandle (candles : List Candle) : ∀ (p : Primed),
    candles.foldl (primeCandle cfg now) p =
      { orchestrator := (p.orchestrator.primedOf now candles).foldl Orchestrator.take p.orchestrator
        paper := markAll cfg now p.paper (p.orchestrator.primedMarks now candles)
        count := p.count + (p.orchestrator.primedOf now candles).length } := by
  induction candles with
  | nil => exact fun _ => rfl
  | cons candle candles ih =>
    intro p
    rw [List.foldl_cons, primeCandle_eq, ih]
    by_cases htaken : candle.isClosed ∧ p.orchestrator.rejectReason candle now = none
    · simp only [primedMarks, primedOf, if_pos htaken, List.foldl_cons, List.map_cons, markAll,
        List.length_cons]
      congr 1
      omega
    · simp only [primedMarks, primedOf, if_neg htaken]

/-- **Priming marks the ledger at the closes of the candles it takes.** -/
theorem primeCandles_paper (o : Orchestrator) (paper : PaperState) (candles : List Candle) :
    (o.primeCandles cfg now paper candles).paper =
      markAll cfg now paper (o.primedMarks now candles) := by
  rw [primeCandles, foldl_primeCandle]

/-- Priming takes these candles, and counts them. -/
theorem primeCandles_orchestrator (o : Orchestrator) (paper : PaperState) (candles : List Candle) :
    (o.primeCandles cfg now paper candles).orchestrator =
        (o.primedOf now candles).foldl Orchestrator.take o ∧
      (o.primeCandles cfg now paper candles).count = (o.primedOf now candles).length := by
  rw [primeCandles, foldl_primeCandle]
  exact ⟨rfl, Nat.zero_add _⟩

end Orchestrator

/-- No stored order is triggered by the close of a candle taken. -/
def WarmsUpQuietly (cfg : PaperConfig) (now : Time) (o : Orchestrator) (paper : PaperState)
    (candles : List Candle) : Prop :=
  ∀ candle ∈ o.primedOf now candles, Quiet cfg paper candle.symbol candle.close

instance (o : Orchestrator) (paper : PaperState) (candles : List Candle) :
    Decidable (WarmsUpQuietly cfg now o paper candles) :=
  inferInstanceAs (Decidable (∀ candle ∈ o.primedOf now candles, _))

theorem primeCandles_untouched_iff (o : Orchestrator) (paper : PaperState) (candles : List Candle) :
    Untouched paper (o.primeCandles cfg now paper candles).paper ↔
      WarmsUpQuietly cfg now o paper candles := by
  rw [Orchestrator.primeCandles_paper, markAll_untouched_iff, Orchestrator.primedMarks,
    WarmsUpQuietly, List.forall_mem_map]

/-- A call that ends as a replay has only warmed up. -/
theorem replay_paper {d : Deployment} {registry : Registry} {failClosed : Bool} {svc : Service}
    {call : CycleCall} (h : (runCycle d registry failClosed svc call).1.ending = .idempotentReplay) :
    (runCycle d registry failClosed svc call).2.paper = (svc.primed d call).paper := by
  have hgoes : call.Goes d registry svc (runCycle d registry failClosed svc call) :=
    runCycle_goes ..
  generalize runCycle d registry failClosed svc call = r at h hgoes
  cases hgoes with
  | halted _ => cases h
  | noCandles _ _ => cases h
  | replayed target _ _ _ => rfl
  | locked target ending _ _ _ hending _ => rcases hending with rfl | rfl <;> cases h
  | evaluated target _ _ _ =>
    rw [evaluateCandle_ending] at h
    cases h

/-- **Warming up never trades** exactly when no stored order is triggered by the close of
a candle taken: for every ledger, orchestrator and list of candles `prime_candles` leaves
orders, fills, cash and holdings alone in that case only, and so does a cycle that ends
as a replay, with the candles before its last. -/
theorem warm_up_untouched_iff (d : Deployment) (registry : Registry) (failClosed : Bool) :
    (∀ (o : Orchestrator) (paper : PaperState) (candles : List Candle) (now : Time),
      Untouched paper (o.primeCandles d.paper now paper candles).paper ↔
        WarmsUpQuietly d.paper now o paper candles) ∧
    ∀ (svc : Service) (call : CycleCall),
      (runCycle d registry failClosed svc call).1.ending = .idempotentReplay →
      (Untouched svc.paper (runCycle d registry failClosed svc call).2.paper ↔
        WarmsUpQuietly d.paper call.around.now (svc.orchestratorOf d.paper.initialCash call)
          svc.paper call.candles.dropLast) := by
  refine ⟨fun o paper candles now => primeCandles_untouched_iff o paper candles, ?_⟩
  intro svc call hreplay
  rw [replay_paper hreplay]
  exact primeCandles_untouched_iff _ _ _

/-- A resting BUY at the limit 90, submitted at the mark 100. -/
def restingBuy : Op :=
  .submit
    { symbol := "BTC/USDT", side := .buy, orderType := .limit, quantity := 1, price := some 90,
      idempotencyKey := "resting" }
    { decision := .approved, reasonCode := .ok, approvedQuantity := some 1 } 0 0

/-- A past candle that closes at 80. -/
def pastCandle : Candle where
  symbol := "BTC/USDT"
  timeframe := "1m"
  openTime := 0
  openPrice := 80
  high := 80
  low := 80
  close := 80
  volume := 1

/-- **A warm-up that trades.**  The ledger holds one resting BUY at 90; priming a past
candle that closes at 80 fills it. -/
theorem warm_up_fills_resting_order :
    let s := run {} (markAt 100) [restingBuy]
    let o : Orchestrator := { sessionId := "s", peakEquity := 10000 }
    Reached {} (fun _ => True) (markAt 100) s ∧
      ¬ Untouched s (o.primeCandles {} 0 s [pastCandle]).paper := by
  intro s o
  have hok : RunOk {} (fun _ => True) (markAt 100) [restingBuy] := by decide +kernel
  refine ⟨Reached.run hok, fun huntouched => ?_⟩
  have hfills : (o.primeCandles {} 0 s [pastCandle]).paper.fills ≠ s.fills := by decide +kernel
  exact hfills huntouched.fills

end Atlas
