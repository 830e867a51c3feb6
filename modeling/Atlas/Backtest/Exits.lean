import Atlas.Backtest.Engine
import Atlas.Market.Candles

/-!
# The prices of stops and targets

A stop or a target that a bar touches is taken as the price of the exit, whatever the bar
traded at.  When the whole bar lies below the stop, because the market has fallen through
it between two bars, the exit is at a price above every price of the bar; and when the whole
bar lies above the target, at one below.

## Main definitions

* `stopExit` — the price and the reason of the exit on a bar, before its costs.
* `Passed` — a bar that lies beyond the stop or the target.

## Main results

* `checkStops_eq` — the stop check sells at that price, and nothing else.
* `exits_achievable_iff` — **when all exits of a run are at prices of their bars**.
-/

namespace Atlas.Backtest

open Arithmetic

variable {A : Arithmetic ℚ} {config : BacktestConfig} {strategy : BacktestStrategy}
  {candles : List Candle}
  {bar : Candle} {s : LoopState} {position : Position}

/-- The price and the reason of a stop or target exit on a bar, before spread and slippage. -/
def stopExit (bar : Candle) (s : LoopState) : Option (ℚ × String) :=
  s.position.bind fun position =>
    if position.openedAt < bar.openTime then checkStopTake position bar else none

/-- The stop check sells the position at that price, on the time of the bar. -/
theorem checkStops_eq (A : Arithmetic ℚ) (config : BacktestConfig) (bar : Candle)
    (s : LoopState) :
    checkStops A config bar s =
      ((s.position.bind fun position => (stopExit bar s).map fun (price, reason) =>
        exitAt A config position price bar.openTime reason s).getD s) := by
  unfold checkStops stopExit
  cases hposition : s.position with
  | none => rfl
  | some position =>
    by_cases hearlier : position.openedAt < bar.openTime
    · cases htouched : checkStopTake position bar with
      | none => simp [hearlier, htouched]
      | some e => simp [hearlier, htouched]
    · simp [hearlier]

/-- The price is one that the bar traded at. -/
def Within (bar : Candle) (price : ℚ) : Prop := bar.low ≤ price ∧ price ≤ bar.high

instance (bar : Candle) (price : ℚ) : Decidable (Within bar price) :=
  inferInstanceAs (Decidable (_ ∧ _))

/-- The bar lies below the stop; or it lies above the target, and does not touch the stop. -/
def Passed (bar : Candle) (position : Position) : Prop :=
  (∃ x ∈ position.stopLoss, bar.high < x) ∨
    (∀ x ∈ position.stopLoss, x < bar.low) ∧ ∃ x ∈ position.takeProfit, x < bar.low

instance (bar : Candle) (position : Position) : Decidable (Passed bar position) :=
  inferInstanceAs (Decidable (_ ∨ _ ∧ _))

/-- A stop or target is taken at a price of the bar exactly if the bar has not passed it. -/
theorem within_iff (hbar : bar.low ≤ bar.high) :
    (∀ e ∈ checkStopTake position bar, Within bar e.1) ↔ ¬Passed bar position := by
  have hstop : position.stopLoss.any (bar.low ≤ ·) = true ↔
      ∃ x ∈ position.stopLoss, bar.low ≤ x := by
    simp [Option.any_eq_true]
  have htarget : position.takeProfit.any (· ≤ bar.high) = true ↔
      ∃ x ∈ position.takeProfit, x ≤ bar.high := by
    simp [Option.any_eq_true]
  unfold checkStopTake Passed
  by_cases hlow : position.stopLoss.any (bar.low ≤ ·) = true
  · -- the stop is touched, so it is the price
    obtain ⟨x, hx, hle⟩ := hstop.1 hlow
    rw [if_pos hlow, Option.mem_def.1 hx, Option.map_some]
    constructor
    · rintro h (⟨y, hy, hlt⟩ | ⟨hnone, -⟩)
      · rw [← Option.mem_some_iff.1 hy] at hlt
        exact hlt.not_ge (h _ rfl).2
      · exact (hnone x rfl).not_ge hle
    · intro h e he
      rw [← Option.mem_some_iff.1 he]
      exact ⟨hle, not_lt.1 fun hlt => h (.inl ⟨x, rfl, hlt⟩)⟩
  · have huntouched : ∀ x ∈ position.stopLoss, x < bar.low := fun x hx =>
      not_le.1 fun hle => hlow (hstop.2 ⟨x, hx, hle⟩)
    have hbelow : ¬∃ x ∈ position.stopLoss, bar.high < x := by
      rintro ⟨x, hx, hlt⟩
      exact ((huntouched x hx).trans_le hbar).not_gt hlt
    rw [if_neg hlow]
    by_cases hhigh : position.takeProfit.any (· ≤ bar.high) = true
    · -- the target is touched and the stop is not
      obtain ⟨x, hx, hle⟩ := htarget.1 hhigh
      rw [if_pos hhigh, Option.mem_def.1 hx, Option.map_some]
      constructor
      · rintro h (hgap | ⟨-, y, hy, hlt⟩)
        · exact hbelow hgap
        · rw [← Option.mem_some_iff.1 hy] at hlt
          exact hlt.not_ge (h _ rfl).1
      · intro h e he
        rw [← Option.mem_some_iff.1 he]
        exact ⟨not_lt.1 fun hlt => h (.inr ⟨huntouched, x, rfl, hlt⟩), hle⟩
    · rw [if_neg hhigh]
      refine iff_of_true (fun e he => absurd he (Option.not_mem_none e)) ?_
      rintro (hgap | ⟨-, x, hx, hlt⟩)
      · exact hbelow hgap
      · exact hhigh (htarget.2 ⟨x, hx, (hlt.trans_le hbar).le⟩)

theorem stopExit_within_iff (hbar : bar.low ≤ bar.high) :
    (∀ e ∈ stopExit bar s, Within bar e.1) ↔
      ∀ p ∈ s.position, p.openedAt < bar.openTime → ¬Passed bar p := by
  unfold stopExit
  cases s.position with
  | none => simp
  | some p =>
    rw [Option.bind_some]
    by_cases hearlier : p.openedAt < bar.openTime
    · rw [if_pos hearlier, within_iff hbar]
      simp [hearlier]
    · simp [hearlier]

/-- **When all exits of a run are achievable**: of sane bars, every stop and target of a run is
taken at a price of its bar exactly if no bar passes the stop or the target of the position
that is held from an earlier bar. -/
theorem exits_achievable_iff (A : Arithmetic ℚ) (config : BacktestConfig)
    (strategy : BacktestStrategy) (candles : List Candle) (hsane : ∀ c ∈ candles, c.OhlcSane) :
    (∀ k (hk : k < candles.length) s, after A config strategy candles k = .ok s →
        ∀ e ∈ stopExit candles[k] s, Within candles[k] e.1) ↔
      ∀ k (hk : k < candles.length) s, after A config strategy candles k = .ok s →
        ∀ p ∈ s.position, p.openedAt < candles[k].openTime → ¬Passed candles[k] p :=
  forall_congr' fun _ => forall_congr' fun hk => forall_congr' fun _ => imp_congr_right fun _ =>
    stopExit_within_iff (hsane _ (List.getElem_mem hk)).low_le_high

/-- The example takes a stop on its second bar, and every stop and target of it at a price of
its bar. -/
theorem exits_achievable_iff_touching :
    (∃ s, after decimal28 {} everyBar touchingBars 1 = .ok s ∧
        (stopExit touchingBars[1] s).isSome = true) ∧
      ∀ k (hk : k < touchingBars.length) s, after decimal28 {} everyBar touchingBars k = .ok s →
        ∀ e ∈ stopExit touchingBars[k] s, Within touchingBars[k] e.1 := by
  have hsecond : (after decimal28 {} everyBar touchingBars 1).toOption.any fun s =>
      (stopExit touchingBars[1] s).isSome := by decide +kernel
  have hpositions : ∀ k (hk : k < touchingBars.length),
      (after decimal28 {} everyBar touchingBars k).toOption.all fun s =>
        s.position.all fun p => ¬(p.openedAt < touchingBars[k].openTime ∧
          Passed touchingBars[k] p) := by decide +kernel
  obtain ⟨s, hs, hexit⟩ := Except.exists_of_any_toOption hsecond
  refine ⟨⟨s, hs, hexit⟩,
    (exits_achievable_iff decimal28 {} everyBar touchingBars (by decide +kernel)).2 ?_⟩
  intro k hk s hs p hp hearlier hpassed
  have hall := hpositions k hk
  rw [hs, Except.toOption, Option.all_some, Option.mem_def.mp hp, Option.all_some] at hall
  exact of_decide_eq_true hall ⟨hearlier, hpassed⟩

/-- Two bars, of which the second lies below the stop at 95. -/
def gappingBars : List Candle :=
  [(99, 101, 100), (75, 85, 80)].mapIdx fun i (low, high, close) =>
    { symbol := "BTC/USDT", timeframe := "1h", openTime := 3600000000 * i, openPrice := close
      high := high, low := low, close := close, volume := 100 }

/-- The fall through the stop is sold at the stop, above the high of the bar. -/
theorem exit_above_high :
    (∀ c ∈ gappingBars, c.OhlcSane) ∧
      ∃ k s, ∃ hk : k < gappingBars.length, after decimal28 {} everyBar gappingBars k = .ok s ∧
        stopExit gappingBars[k] s = some (95, "stop-loss") ∧
          gappingBars[k].high = 85 ∧ ¬Within gappingBars[k] 95 := by
  have hsecond : (after decimal28 {} everyBar gappingBars 1).toOption.any fun s =>
      stopExit gappingBars[1] s = some (95, "stop-loss") := by decide +kernel
  obtain ⟨s, hs, hexit⟩ := Except.exists_of_any_toOption hsecond
  exact ⟨by decide +kernel, 1, s, by decide, hs, of_decide_eq_true hexit, by decide +kernel,
    by decide +kernel⟩

end Atlas.Backtest
