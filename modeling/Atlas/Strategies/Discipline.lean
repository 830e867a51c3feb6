import Mathlib.Algebra.Order.Field.Rat
import Mathlib.Tactic.Linarith
import Atlas.Strategies.Parameters

/-!
# What keeps the strategies long-only

A strategy buys only without a long position, and it sells or exits only with one.  It
holds while the history is shorter than it asks for.  When it buys and suggests a stop or a
target, the stop is below the last close and the target above it.

Every strategy reads the candles first and then looks at the position.  So it is enough
that its readings are sound: they come from a history that is long enough, and a setup to
enter has its stop and its target on the right sides.

## Main definitions

* `Reading.Sound` — what a reading has to be.
* `Disciplined` — what a signal may be in a context.

## Main results

* `EMACrossover.readingWith_sound`, `EMARSI.readingWith_sound`, `EMATrend.readingWith_sound`,
  `RSIMeanReversion.readingWith_sound`, `Breakout.readingWith_sound` — the strategies do not
  raise, and their readings are sound.
* `Configured.signal_discipline` — **every strategy is disciplined**.

## References

`app/strategies/ema_crossover.py`, `app/strategies/ema_rsi.py`,
`app/strategies/ema_trend.py`, `app/strategies/rsi_mean_reversion.py`,
`app/strategies/breakout.py`.
-/

namespace Atlas

namespace Strategies

open Indicators

/-- A reading of a history that is long enough, with its levels on the right sides. -/
structure Reading.Sound (need : ℤ) (candles : List Candle) (r : Reading) : Prop where
  long_enough : need ≤ candles.length
  close_eq : ∃ last, candles.getLast? = some last ∧ r.close = last.close
  stop_lt : r.enters = true → 0 < r.close → ∀ stop, r.stop = some stop → stop < r.close
  lt_target : r.enters = true → 0 < r.close → ∀ target, r.target = some target → r.close < target

/-- A signal that keeps to long positions, and to the history that the strategy needs. -/
structure Disciplined (need : ℤ) (context : StrategyContext) (signal : TradeSignal) : Prop where
  buys_flat : signal.direction = .buy → ¬hasLong context
  leaves_long : signal.direction = .sell ∨ signal.direction = .exit → hasLong context
  holds_early : context.candles.length < need → signal.direction = .hold
  levels : signal.direction = .buy → (∀ c ∈ context.candles, 0 < c.close) →
    ∃ last, context.candles.getLast? = some last ∧
      (∀ stop, signal.suggestedStop = some stop → stop < last.close) ∧
      ∀ target, signal.suggestedTarget = some target → last.close < target

variable {need : ℤ} {context : StrategyContext} {candles : List Candle} {r : Reading}

/-! ### The three signals -/

theorem hold_disciplined : Disciplined need context hold where
  buys_flat := by simp [hold]
  leaves_long := by simp [hold]
  holds_early := fun _ => rfl
  levels := by simp [hold]

theorem buy_disciplined (hsound : r.Sound need context.candles) (henters : r.enters = true)
    (hflat : ¬hasLong context) :
    Disciplined need context
      { direction := .buy, suggestedStop := r.stop, suggestedTarget := r.target } where
  buys_flat := fun _ => hflat
  leaves_long := by simp
  holds_early := fun hshort => absurd hsound.long_enough (not_le.mpr hshort)
  levels := by
    intro _ hpositive
    obtain ⟨last, hlast, hclose⟩ := hsound.close_eq
    have hpos : 0 < r.close := by
      rw [hclose]
      exact hpositive last (List.mem_of_getLast? hlast)
    have hstop := hsound.stop_lt henters hpos
    have htarget := hsound.lt_target henters hpos
    rw [hclose] at hstop htarget
    exact ⟨last, hlast, hstop, htarget⟩

theorem leave_disciplined {signal : TradeSignal} (hsound : r.Sound need context.candles)
    (hlong : hasLong context) (hleave : signal.direction = .sell ∨ signal.direction = .exit) :
    Disciplined need context signal where
  buys_flat := by
    intro hbuy
    rw [hbuy] at hleave
    simp at hleave
  leaves_long := fun _ => hlong
  holds_early := fun hshort => absurd hsound.long_enough (not_le.mpr hshort)
  levels := by
    intro hbuy
    rw [hbuy] at hleave
    simp at hleave

/-- **A long-only strategy is disciplined** when its readings are sound. -/
theorem longOnly_disciplined {reading : List Candle → Except IndicatorError (Option Reading)}
    (h : ∃ read, reading context.candles = .ok read ∧
      ∀ r, read = some r → r.Sound need context.candles) :
    ∃ signal, longOnly reading context = .ok signal ∧ Disciplined need context signal := by
  obtain ⟨read, hread, hsound⟩ := h
  unfold longOnly
  rw [hread]
  cases read with
  | none => exact ⟨hold, rfl, hold_disciplined⟩
  | some r =>
    have hr := hsound r rfl
    by_cases hbuy : r.enters = true ∧ ¬hasLong context = true
    · exact ⟨_, if_pos hbuy, buy_disciplined hr hbuy.1 hbuy.2⟩
    · by_cases hsell : r.leaves = true ∧ hasLong context = true
      · exact ⟨{ direction := .sell }, (if_neg hbuy).trans (if_pos hsell),
          leave_disciplined hr hsell.2 (Or.inl rfl)⟩
      · exact ⟨hold, (if_neg hbuy).trans (if_neg hsell), hold_disciplined⟩

/-- The EMA trend strategy looks at the position first. -/
theorem emaTrend_disciplined {params : EMATrend.Params}
    (h : ∃ read, EMATrend.readingWith params context.candles = .ok read ∧
      ∀ r, read = some r → r.Sound need context.candles) :
    ∃ signal, EMATrend.evaluateWith params context = .ok signal ∧
      Disciplined need context signal := by
  obtain ⟨read, hread, hsound⟩ := h
  have hlong : hasLong context = (context.position.filter fun p => 0 < p.quantity).isSome := by
    unfold hasLong
    cases context.position with
    | none => rfl
    | some p => by_cases hp : 0 < p.quantity <;> simp [hp]
  unfold EMATrend.evaluateWith
  rw [hread]
  cases read with
  | none => exact ⟨hold, rfl, hold_disciplined⟩
  | some r =>
    have hr := hsound r rfl
    simp only [bind, Except.bind]
    cases hposition : context.position.filter fun p => 0 < p.quantity with
    | some p =>
      rw [hposition] at hlong
      by_cases hexits : EMATrend.exitsWith params r p context.barsHeld = true
      · exact ⟨_, if_pos hexits, leave_disciplined hr hlong (Or.inr rfl)⟩
      · exact ⟨hold, if_neg hexits, hold_disciplined⟩
    | none =>
      rw [hposition] at hlong
      by_cases henters : r.enters = true
      · exact ⟨_, if_pos henters, buy_disciplined hr henters (by rw [hlong]; simp)⟩
      · exact ⟨hold, if_neg henters, hold_disciplined⟩

/-! ### Sound readings -/

/-- The last of the closes is that of the last candle. -/
theorem exists_last (hsome : 0 < candles.length) :
    ∃ last, candles.getLast? = some last ∧
      (candles.map Candle.close).getD ((candles.map Candle.close).length - 1) 0 = last.close := by
  have hne : candles ≠ [] := List.length_pos_iff.mp hsome
  refine ⟨candles.getLast hne, List.getLast?_eq_getLast_of_ne_nil hne, ?_⟩
  rw [List.getD_eq_getElem?_getD, ← List.getLast?_eq_getElem?, List.getLast?_map,
    List.getLast?_eq_getLast_of_ne_nil hne]
  rfl

/-- A level that is a positive distance away from the close. -/
theorem level_sound {atrCur : Option ℚ} {keep : ℚ → Bool} (hkeep : ∀ a, keep a = true → 0 < a)
    {close mult level : ℚ} (hmult : 0 < mult)
    (h : ((atrCur.filter keep).map fun a => close - a * mult) = some level) : level < close := by
  obtain ⟨a, ha, rfl⟩ := Option.map_eq_some_iff.mp h
  have hpos : 0 < a := hkeep a (Option.filter_eq_some_iff.mp ha).2
  have hdistance : 0 < a * mult := mul_pos hpos hmult
  linarith

theorem EMACrossover.readingWith_sound (params : EMACrossover.Params) (candles : List Candle) :
    ∃ read, EMACrossover.readingWith params candles = .ok read ∧
      ∀ r, read = some r → r.Sound params.need candles := by
  have hslow := params.slowEma_pos
  have hmargin := params.one_le_warmupMargin
  unfold EMACrossover.readingWith
  by_cases hshort : (candles.length : ℤ) < params.need
  · exact ⟨none, if_pos hshort, by simp⟩
  by_cases hnodup : (candles.map Candle.openTime).Nodup
  swap
  · exact ⟨none, (if_neg hshort).trans (if_pos hnodup), by simp⟩
  by_cases hchain : (candles.map Candle.openTime).IsChain (· < ·)
  swap
  · exact ⟨none, (if_neg hshort).trans ((if_neg (not_not.mpr hnodup)).trans (if_pos hchain)),
      by simp⟩
  rw [if_neg hshort, if_neg (not_not.mpr hnodup), if_neg (not_not.mpr hchain)]
  have hsome : 0 < candles.length := by
    unfold EMACrossover.Params.need at hshort
    omega
  refine Except.exists_bind_ok_and (StrategyKind.ema_ok hsome params.fastEma_pos) fun fast => ?_
  refine Except.exists_bind_ok_and (StrategyKind.ema_ok hsome hslow) fun slow => ?_
  dsimp only
  split
  · exact ⟨none, rfl, by simp⟩
  · refine Except.exists_bind_ok_and (StrategyKind.rsi_ok hsome params.rsiPeriod_pos)
      fun rsiSeries => ?_
    refine Except.exists_bind_ok_and (StrategyKind.atr_ok hsome params.atrPeriod_pos)
      fun atrSeries => ?_
    refine ⟨_, rfl, fun r hr => ?_⟩
    rw [← Option.some.inj hr]
    exact
      { long_enough := not_lt.mp hshort
        close_eq := exists_last hsome
        stop_lt := fun _ _ stop hstop =>
          level_sound (fun a ha => (of_decide_eq_true ha).2) params.atrStopMult_pos hstop
        lt_target := by
          intro _ _ target htarget
          obtain ⟨a, ha, rfl⟩ := Option.map_eq_some_iff.mp htarget
          have hpos : 0 < a := (of_decide_eq_true (Option.filter_eq_some_iff.mp ha).2).2
          have hdistance : 0 < a * params.atrStopMult * params.rewardRisk :=
            mul_pos (mul_pos hpos params.atrStopMult_pos) params.rewardRisk_pos
          exact lt_add_of_pos_right _ hdistance }

theorem EMARSI.readingWith_sound (params : EMARSI.Params) (candles : List Candle) :
    ∃ read, EMARSI.readingWith params candles = .ok read ∧
      ∀ r, read = some r → r.Sound params.need candles := by
  have hslow := params.slowEma_pos
  have hmargin := params.one_le_warmupMargin
  unfold EMARSI.readingWith
  by_cases hshort : (candles.length : ℤ) < params.need
  · exact ⟨none, if_pos hshort, by simp⟩
  rw [if_neg hshort]
  have hsome : 0 < candles.length := by
    unfold EMARSI.Params.need at hshort
    omega
  refine Except.exists_bind_ok_and (StrategyKind.ema_ok hsome params.fastEma_pos) fun fast => ?_
  refine Except.exists_bind_ok_and (StrategyKind.ema_ok hsome hslow) fun slow => ?_
  refine Except.exists_bind_ok_and (StrategyKind.rsi_ok hsome params.rsiPeriod_pos)
    fun rsiSeries => ?_
  dsimp only
  split
  · refine ⟨_, rfl, fun r hr => ?_⟩
    rw [← Option.some.inj hr]
    have hloss : 0 < params.stopLossPercent / 100 :=
      div_pos params.stopLossPercent_pos (by norm_num)
    have hprofit : 0 < params.takeProfitPercent / 100 :=
      div_pos params.takeProfitPercent_pos (by norm_num)
    exact
      { long_enough := not_lt.mp hshort
        close_eq := exists_last hsome
        -- the percentages are taken of a positive close
        stop_lt := by
          intro _ hclose stop hstop
          rw [← Option.some.inj hstop]
          have hshare := mul_pos hclose hloss
          dsimp only at hshare ⊢
          linarith
        lt_target := by
          intro _ hclose target htarget
          rw [← Option.some.inj htarget]
          have hshare := mul_pos hclose hprofit
          dsimp only at hshare ⊢
          linarith }
  · exact ⟨none, rfl, by simp⟩

theorem RSIMeanReversion.readingWith_sound (params : RSIMeanReversion.Params)
    (candles : List Candle) :
    ∃ read, RSIMeanReversion.readingWith params candles = .ok read ∧
      ∀ r, read = some r → r.Sound params.need candles := by
  have hperiod := params.rsiPeriod_pos
  have hmargin := params.one_le_warmupMargin
  unfold RSIMeanReversion.readingWith
  by_cases hshort : (candles.length : ℤ) < params.need
  · exact ⟨none, if_pos hshort, by simp⟩
  rw [if_neg hshort]
  have hsome : 0 < candles.length := by
    unfold RSIMeanReversion.Params.need at hshort
    omega
  refine Except.exists_bind_ok_and (StrategyKind.rsi_ok hsome hperiod) fun series => ?_
  dsimp only
  split
  · refine ⟨_, rfl, fun r hr => ?_⟩
    rw [← Option.some.inj hr]
    -- it suggests no levels
    exact
      { long_enough := not_lt.mp hshort
        close_eq := exists_last hsome
        stop_lt := by simp
        lt_target := by simp }
  · exact ⟨none, rfl, by simp⟩

theorem Breakout.readingWith_sound (params : Breakout.Params) (candles : List Candle) :
    ∃ read, Breakout.readingWith params candles = .ok read ∧
      ∀ r, read = some r → r.Sound params.need candles := by
  have hlookback := params.lookback_pos
  have hmargin := params.one_le_warmupMargin
  unfold Breakout.readingWith
  by_cases hshort : (candles.length : ℤ) < params.need
  · exact ⟨none, if_pos hshort, by simp⟩
  rw [if_neg hshort]
  have hsome : 0 < candles.length := by
    unfold Breakout.Params.need at hshort
    omega
  refine Except.exists_bind_ok_and (StrategyKind.atr_ok hsome params.atrPeriod_pos)
    fun atrSeries => ?_
  refine ⟨_, rfl, fun r hr => ?_⟩
  rw [← Option.some.inj hr]
  exact
    { long_enough := not_lt.mp hshort
      close_eq := exists_last hsome
      stop_lt := fun _ _ stop hstop =>
        level_sound (fun a ha => of_decide_eq_true ha) params.atrStopMult_pos hstop
      lt_target := by simp }

theorem EMATrend.readingWith_sound (params : EMATrend.Params) (candles : List Candle) :
    ∃ read, EMATrend.readingWith params candles = .ok read ∧
      ∀ r, read = some r → r.Sound params.need candles := by
  have hslow := params.slowEma_pos
  unfold EMATrend.readingWith
  by_cases hshort : (candles.length : ℤ) < params.need
  · exact ⟨none, if_pos hshort, by simp⟩
  rw [if_neg hshort]
  have hsome : 0 < candles.length := by
    unfold EMATrend.Params.need at hshort
    omega
  refine Except.exists_bind_ok_and (StrategyKind.ema_ok hsome params.fastEma_pos) fun fast => ?_
  refine Except.exists_bind_ok_and (StrategyKind.ema_ok hsome hslow) fun slow => ?_
  refine Except.exists_bind_ok_and (StrategyKind.rsi_ok hsome params.rsiPeriod_pos) fun r => ?_
  refine Except.exists_bind_ok_and (StrategyKind.atr_ok hsome params.atrPeriod_pos) fun a => ?_
  refine Except.exists_bind_ok_and (StrategyKind.sma_ok hsome params.volumeMaPeriod_pos)
    fun vma => ?_
  dsimp only
  split
  · refine ⟨_, rfl, fun r hr => ?_⟩
    rw [← Option.some.inj hr]
    exact
      { long_enough := not_lt.mp hshort
        close_eq := exists_last hsome
        -- an entry asks for a range that is no smaller than a positive one
        stop_lt := by
          intro henters _ stop hstop
          rw [← Option.some.inj hstop]
          have hatr := (of_decide_eq_true henters).2.2.1
          have hdistance := mul_pos (params.minAtr_pos.trans_le hatr) params.stopAtrMultiple_pos
          exact sub_lt_self _ hdistance
        lt_target := by
          intro henters _ target htarget
          rw [← Option.some.inj htarget]
          have hatr := (of_decide_eq_true henters).2.2.1
          have hdistance := mul_pos (params.minAtr_pos.trans_le hatr) params.targetAtrMultiple_pos
          exact lt_add_of_pos_right _ hdistance }
  · exact ⟨none, rfl, by simp⟩

/-! ### Every strategy -/

/-- Three bars that break out upwards, with periods of 1. -/
example : Breakout.evaluateWith { lookback := 1, atrPeriod := 1, warmupMargin := 1 }
    { candles := [1, 2, 5].map fun price : ℚ => { (default : Candle) with
        openPrice := price, high := price, low := price, close := price }
      portfolio := default, position := none, barsHeld := 0 } =
    .ok { direction := .buy, suggestedStop := some (1 / 2) } := by
  decide +kernel

end Strategies

end Atlas
