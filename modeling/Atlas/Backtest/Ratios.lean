import Mathlib.Tactic.Linarith
import Atlas.Backtest.Discipline
import Atlas.Backtest.Exits
import Atlas.Backtest.Expectancy
import Atlas.Backtest.LookAhead

/-!
# The ratios of a backtest

The win rate and the drawdown of a backtest are ratios, and the expectancy is made of the
gross profit and the gross loss.  The exposure time adds up, trade by trade, the bars from
the entry to the exit.  A bar that closes a trade on its stop or target and then opens
another one is in both, and is counted twice; so the sum may exceed the number of bars.

Trades are disjoint but for such bars.  At every point of the loop the bars within the
trades, and the idle bars, are the bars so far and the bars counted twice.

Rounding keeps a ratio of at most one where it is one, and brings a sum above the bars to one
only if there are more bars than it can tell apart.

## Main definitions

* `within`, `openBars`, `occupied` — the bars within the trades.
* `reentered`, `idle` — a bar that is counted twice, and one that is not counted.
* `Ratios` — what the metrics are meant to satisfy.

## Main results

* `occupied_after` — **the bars within the trades**, after any number of bars.
* `ratios_iff` — **when the metrics of a backtest are ratios**.
-/

namespace Atlas.Backtest

open Arithmetic

variable {A : Arithmetic ℚ} {config : BacktestConfig} {strategy : BacktestStrategy}
  {candles window : List Candle}
  {bar : Candle} {s s' : LoopState} {position : Position} {price : ℚ} {time : Time}
  {reason : String} {k : ℕ} {times : List Time} {t : BacktestTrade}

/-! ### The bars within the trades -/

/-- The bars from the entry of a trade to its exit; none of an open trade. -/
def within (times : List Time) (t : BacktestTrade) : ℕ :=
  t.exitTime.elim 0 fun exit => times.countP fun ts => t.entryTime ≤ ts ∧ ts ≤ exit

/-- The bars from the entry of a trade on. -/
def openBars (times : List Time) (t : BacktestTrade) : ℕ := times.countP (t.entryTime ≤ ·)

/-- The bars within the closed trades and the open one, each trade counted for itself. -/
def occupied (times : List Time) (s : LoopState) : ℕ :=
  (s.trades.map (within times)).sum + s.openTrade.elim 0 (openBars times)

theorem exposureTime_eq {trades : List BacktestTrade} {equityCurve : List (Time × ℚ)}
    (hne : equityCurve ≠ []) :
    exposureTime A trades equityCurve =
      A.div ((trades.map (within (equityCurve.map Prod.fst))).sum : ℕ) equityCurve.length := by
  unfold exposureTime
  split_ifs with h
  · rw [h.resolve_left hne]
    simp [Arithmetic.div]
  · rfl

/-- A later bar is not within a trade that is closed. -/
theorem within_concat (ht : Spans times t) (hlater : ∀ x ∈ times, x < time) :
    within (times ++ [time]) t = within times t := by
  obtain ⟨-, x, hx, hexit, -⟩ := ht
  have hnot : ¬(t.entryTime ≤ time ∧ time ≤ x) := fun h => (hlater x hexit).not_ge h.2
  rw [within, within, Option.mem_def.1 hx]
  simp only [Option.elim_some, List.countP_append, List.countP_singleton, hnot, decide_false,
    Bool.false_eq_true, if_false, add_zero]

/-- A later bar is within the open trade. -/
theorem openBars_concat (ht : t.entryTime ≤ time) :
    openBars (times ++ [time]) t = openBars times t + 1 := by
  simp [openBars, List.countP_append, ht]

/-- A trade that is opened on the last bar has that bar. -/
theorem openBars_new (ht : t.entryTime = time) (hlater : ∀ x ∈ times, x < time) :
    openBars (times ++ [time]) t = 1 := by
  rw [openBars_concat ht.le, openBars, ht]
  have hnone : times.countP (time ≤ ·) = 0 := by
    rw [List.countP_eq_zero]
    intro x hx
    simpa using hlater x hx
  rw [hnone]

/-- The time of a new bar is the last one. -/
theorem le_of_mem_concat (hlater : ∀ x ∈ times, x < time) : ∀ x ∈ times ++ [time], x ≤ time := by
  intro x hx
  rcases List.mem_append.1 hx with hx | hx
  · exact (hlater x hx).le
  · exact (List.mem_singleton.1 hx).le

/-- A trade that is closed on the last bar keeps its bars. -/
theorem within_closed (hlast : ∀ x ∈ times, x ≤ time) :
    within times (closed A config t position price time reason) = openBars times t := by
  simp only [within, openBars, closed, Option.elim_some]
  refine List.countP_congr fun x hx => ?_
  simp [hlast x hx]

theorem occupied_exitAt (hpaired : Paired s.position s.openTrade)
    (hposition : s.position = some position) (hlast : ∀ x ∈ times, x ≤ time) :
    occupied times (exitAt A config position price time reason s) = occupied times s := by
  obtain ⟨t, htrade, -, -, -, htrades⟩ := hpaired.exit A config price time reason hposition
  rw [occupied, occupied, htrades, htrade, List.map_append, List.sum_append, List.map_singleton,
    List.sum_singleton, within_closed hlast]
  rfl

/-- The next bar is within the open trade, if there is one. -/
theorem occupied_concat (h : Sequential times s) (hlater : ∀ x ∈ times, x < time) :
    occupied (times ++ [time]) s = occupied times s + if s.position.isSome then 1 else 0 := by
  have hclosed : s.trades.map (within (times ++ [time])) = s.trades.map (within times) :=
    List.map_congr_left fun t ht => within_concat (h.spans t ht) hlater
  rw [occupied, occupied, hclosed, add_assoc]
  congr 1
  cases hposition : s.position with
  | none =>
    have hpaired := h.paired
    rw [hposition] at hpaired
    rw [hpaired.of_flat]
    rfl
  | some position =>
    have hpaired := h.paired
    rw [hposition] at hpaired
    obtain ⟨t, htrade, -, -, -⟩ := hpaired.of_held
    rw [htrade]
    exact openBars_concat (hlater _ (h.entry t htrade).1).le

theorem occupied_opened {strategyName rationale : String} {signal : TradeSignal} {qty : ℚ}
    (hflat : s.openTrade = none) (hlater : ∀ x ∈ times, x < bar.openTime) :
    occupied (times ++ [bar.openTime]) (opened A config strategyName bar signal rationale qty s) =
      occupied (times ++ [bar.openTime]) s + 1 := by
  rw [occupied, occupied, hflat]
  simp only [opened, Option.elim_some, Option.elim_none, add_zero]
  congr 1
  exact openBars_new rfl hlater

/-! ### Bars that count twice, or not at all -/

/-- The bar closes the position on its stop or target, and opens another one. -/
def reentered (A : Arithmetic ℚ) (config : BacktestConfig) (strategy : BacktestStrategy)
    (candles : List Candle) (k : ℕ) : Bool :=
  (after A config strategy candles k).toOption.any fun s =>
    (after A config strategy candles (k + 1)).toOption.any fun s' =>
      (candles[k]?.any fun bar => (stopExit bar s).isSome) && s'.position.isSome

/-- There is no position before the bar nor after it. -/
def idle (A : Arithmetic ℚ) (config : BacktestConfig) (strategy : BacktestStrategy)
    (candles : List Candle) (k : ℕ) : Bool :=
  (after A config strategy candles k).toOption.any fun s =>
    (after A config strategy candles (k + 1)).toOption.any fun s' =>
      s.position.isNone && s'.position.isNone

/-- The number of bars among the first `k` that are counted twice. -/
def reentries (A : Arithmetic ℚ) (config : BacktestConfig) (strategy : BacktestStrategy)
    (candles : List Candle) (k : ℕ) : ℕ :=
  (List.range k).countP (reentered A config strategy candles)

/-- The number of bars among the first `k` that are not counted. -/
def idleBars (A : Arithmetic ℚ) (config : BacktestConfig) (strategy : BacktestStrategy)
    (candles : List Candle) (k : ℕ) : ℕ :=
  (List.range k).countP (idle A config strategy candles)

/-- What a stop check leaves: the position if no exit is touched, and nothing otherwise. -/
theorem position_checkStops :
    (checkStops A config bar s).position = if (stopExit bar s).isSome then none else s.position := by
  rw [checkStops_eq, stopExit]
  cases hposition : s.position with
  | none => simp [hposition]
  | some p =>
    by_cases hearlier : p.openedAt < bar.openTime
    · cases htouched : checkStopTake p bar with
      | none => simp [hearlier, htouched, hposition]
      | some e => simp [hearlier, htouched, exitAt]
    · simp [hearlier, hposition]

/-- A position that is gone before the bar is not stopped. -/
theorem stopExit_of_flat (hflat : s.position = none) : stopExit bar s = none := by
  rw [stopExit, hflat, Option.bind_none]

/-! ### The bars of a run -/

/-- What acting on a signal does to the bars within the trades: a flat account may open a
trade, which has the last bar. -/
theorem occupied_act (h : Paired s.position s.openTrade)
    (hlater : ∀ x ∈ times, x < bar.openTime) (hacts : Acts A config strategy window bar s s') :
    (s.position = none ∧ s'.position = none ∧
        occupied (times ++ [bar.openTime]) s' = occupied (times ++ [bar.openTime]) s) ∨
      (s.position = none ∧ s'.position.isSome ∧
        occupied (times ++ [bar.openTime]) s' = occupied (times ++ [bar.openTime]) s + 1) ∨
      (s.position.isSome ∧
        occupied (times ++ [bar.openTime]) s' = occupied (times ++ [bar.openTime]) s) := by
  cases hacts with
  | kept =>
    cases hposition : s.position with
    | none => exact .inl ⟨rfl, rfl, rfl⟩
    | some p => exact .inr (.inr ⟨rfl, rfl⟩)
  | opened rationale qty hflat =>
    rw [hflat] at h
    exact .inr (.inl ⟨hflat, rfl, occupied_opened h.of_flat hlater⟩)
  | exited position rationale hposition =>
    refine .inr (.inr ⟨by rw [hposition]; rfl, ?_⟩)
    exact occupied_exitAt h hposition (le_of_mem_concat hlater)

/-- Neither the stop check nor the mark leaves the bar out of the trade that was open. -/
theorem occupied_checked (hs : Sequential times s) (hlater : ∀ x ∈ times, x < bar.openTime) :
    occupied (times ++ [bar.openTime]) (markToMarket A bar (checkStops A config bar s)) =
      occupied times s + if s.position.isSome then 1 else 0 := by
  rw [← occupied_concat hs hlater]
  have hchecks := checkStops_checks A config bar s
  generalize checkStops A config bar s = s' at hchecks
  cases hchecks with
  | kept => rfl
  | exited position price reason hposition =>
    exact occupied_exitAt hs.paired hposition (le_of_mem_concat hlater)

/-- Only a stop leaves the account without the position it had. -/
theorem isSome_position_checked : (markToMarket A bar (checkStops A config bar s)).position.isSome =
    (if (stopExit bar s).isSome then none else s.position).isSome := by
  rw [← @position_checkStops A config bar s]
  exact Option.isSome_map

/-- One bar: the bars within the trades grow by one, by two if a position is stopped and another
one opened, and not at all if there is none before nor after. -/
theorem occupied_bar (hs : Sequential times s) (hlater : ∀ x ∈ times, x < bar.openTime)
    (hacts : Acts A config strategy window bar (markToMarket A bar (checkStops A config bar s)) s') :
    occupied (times ++ [bar.openTime]) s' +
        (if s.position = none ∧ s'.position = none then 1 else 0) =
      occupied times s + 1 +
        if (stopExit bar s).isSome = true ∧ s'.position.isSome = true then 1 else 0 := by
  have hchecked : occupied (times ++ [bar.openTime])
      (markToMarket A bar (checkStops A config bar s)) =
      occupied times s + if s.position.isSome then 1 else 0 := occupied_checked hs hlater
  have hpaired : Paired (markToMarket A bar (checkStops A config bar s)).position
      (markToMarket A bar (checkStops A config bar s)).openTrade :=
    ((hs.mono (List.subset_append_left times [bar.openTime])).checked
      (List.mem_append_right _ (List.mem_singleton_self _))
      (checkStops_checks A config bar s)).paired.markToMarket
  have hmarked : (markToMarket A bar (checkStops A config bar s)).position.isSome =
      (if (stopExit bar s).isSome then none else s.position).isSome := isSome_position_checked
  -- the position before the bar, whether it is stopped, and what the action does
  rcases occupied_act hpaired hlater hacts with ⟨hflat, hflat', hsame⟩ | ⟨hflat, hheld', hmore⟩ |
    ⟨hheld, hsame⟩
  · rw [hsame, hchecked, hflat']
    cases s.position with
    | none => simp
    | some p => simp
  · rw [hmore, hchecked]
    rw [hflat] at hmarked
    have hheld : s'.position ≠ none := by
      rw [← Option.isSome_iff_ne_none]
      exact hheld'
    cases hposition : s.position with
    | none => simp [stopExit_of_flat hposition, hheld]
    | some p =>
      -- the position of the account is gone, so it was stopped
      have hstop : (stopExit bar s).isSome = true := by
        by_contra hnone
        rw [if_neg hnone, hposition] at hmarked
        cases hmarked
      simp [hstop, hheld']
  · rw [hsame, hchecked]
    rw [hheld] at hmarked
    by_cases hstop : (stopExit bar s).isSome = true
    · rw [if_pos hstop] at hmarked
      cases hmarked
    · rw [if_neg hstop] at hmarked
      have hposition : s.position ≠ none := by
        rw [← Option.isSome_iff_ne_none]
        exact hmarked.symm
      simp [hstop, hposition, ← hmarked]

theorem occupied_step (h : Admissible config strategy candles) (hk : k < candles.length)
    (hs : after A config strategy candles k = .ok s)
    (hs' : after A config strategy candles (k + 1) = .ok s') :
    occupied (openTimes candles (k + 1)) s' +
        (if idle A config strategy candles k then 1 else 0) =
      occupied (openTimes candles k) s + 1 +
        if reentered A config strategy candles k then 1 else 0 := by
  obtain ⟨s₀, hs₀, hact⟩ := after_succ_eq_ok hk hs'
  rw [hs] at hs₀
  rw [← Except.ok.inj hs₀] at hact
  have hbar := occupied_bar (sequential_after h hk.le hs)
    (fun x hx => lt_of_mem_openTimes h.increasing hk hx) (act_acts hact)
  have hreentered : reentered A config strategy candles k =
      ((stopExit candles[k] s).isSome && s'.position.isSome) := by
    rw [reentered, hs, hs', List.getElem?_eq_getElem hk]
    rfl
  have hidle : idle A config strategy candles k = (s.position.isNone && s'.position.isNone) := by
    rw [idle, hs, hs']
    rfl
  simp only [hreentered, hidle, openTimes_succ hk, Bool.and_eq_true, Option.isNone_iff_eq_none]
  exact hbar

/-- **The bars within the trades**: with the idle ones, they are the bars so far and those that
are counted twice. -/
theorem occupied_after (h : Admissible config strategy candles) (hk : k ≤ candles.length)
    (hs : after A config strategy candles k = .ok s) :
    occupied (openTimes candles k) s + idleBars A config strategy candles k =
      k + reentries A config strategy candles k := by
  induction k generalizing s with
  | zero =>
    rw [← Except.ok.inj hs]
    rfl
  | succ k ih =>
    obtain ⟨s₀, hs₀, -⟩ := after_succ_eq_ok hk hs
    have hstep := occupied_step h hk hs₀ hs
    have hbefore := ih (Nat.le_of_succ_le hk) hs₀
    rw [idleBars, reentries] at hbefore ⊢
    rw [List.range_succ, List.countP_append, List.countP_append, List.countP_singleton,
      List.countP_singleton]
    omega

/-- The end of the data closes the open trade on the last bar. -/
theorem occupied_ended (h : Admissible config strategy candles)
    (hs : after A config strategy candles candles.length = .ok s)
    (hends : Ends A config candles s s') :
    (s'.trades.map (within (openTimes candles candles.length))).sum =
      occupied (openTimes candles candles.length) s := by
  have hsequential : Sequential (openTimes candles candles.length) s :=
    sequential_after h le_rfl hs
  cases hends with
  | flat hflat =>
    have hclosed : s.openTrade = none :=
      (hflat ▸ hsequential.paired : Paired none s.openTrade).of_flat
    rw [occupied, hclosed]
    rfl
  | exited position bar hposition hbar =>
    have hlast : ∀ x ∈ openTimes candles candles.length, x ≤ bar.openTime := by
      intro x hx
      -- every bar opens at the last one's time or earlier
      obtain ⟨init, hinit⟩ := List.getLast?_eq_some_iff.1 hbar
      have hincreasing := h.increasing
      rw [hinit, List.pairwise_append] at hincreasing
      rw [openTimes, List.take_length, hinit] at hx
      obtain ⟨c, hc, rfl⟩ := List.mem_map.1 hx
      rcases List.mem_append.1 hc with hc | hc
      · exact (hincreasing.2.2 c hc bar (List.mem_singleton_self bar)).le
      · rw [List.mem_singleton.1 hc]
    have hsame : occupied (openTimes candles candles.length)
        (exitAt A config position bar.close bar.openTime "end-of-data" s) =
          occupied (openTimes candles candles.length) s :=
      occupied_exitAt hsequential.paired hposition hlast
    rw [← hsame]
    rfl

/-! ### The equity curve -/

/-- The equity curve has a point for each bar, with its time and a rounded equity that is not
negative. -/
structure Charted (A : Arithmetic ℚ) (times : List Time) (s : LoopState) : Prop where
  times : s.equityCurve.map Prod.fst = times
  equities : ∀ e ∈ s.equityCurve, 0 ≤ e.2 ∧ A.round e.2 = e.2

theorem Charted.of_equityCurve (h : Charted A times s) (hsame : s'.equityCurve = s.equityCurve) :
    Charted A times s' :=
  ⟨hsame ▸ h.times, hsame ▸ h.equities⟩

theorem Charted.markToMarket (h : Charted A times s) (hs : Solvent s) (hclose : 0 < bar.close) :
    Charted A (times ++ [bar.openTime]) (markToMarket A bar s) := by
  refine ⟨?_, ?_⟩
  · simp only [Backtest.markToMarket, List.map_append, List.map_cons, List.map_nil, h.times]
  · intro e he
    rcases List.mem_append.1 he with he | he
    · exact h.equities e he
    · rw [List.mem_singleton.1 he]
      refine ⟨A.add_nonneg hs.cash ?_, A.round_idem _⟩
      cases hposition : s.position with
      | none => exact le_rfl
      | some p => exact A.mul_nonneg (hs.quantity p hposition).le hclose.le

theorem charted_after (h : Admissible config strategy candles) (hroom : Room A config)
    (hk : k ≤ candles.length) (hs : after A config strategy candles k = .ok s) :
    Charted A (openTimes candles k) s := by
  have hboth : Charted A (openTimes candles k) s ∧ Solvent s := by
    refine after_induction (P := fun k s => Charted A (openTimes candles k) s ∧ Solvent s)
      ⟨⟨rfl, fun e he => absurd he List.not_mem_nil⟩, .flat h.initialCash_nonneg rfl⟩ ?_ hk hs
    intro k hk s s' hs hchecks s'' hacts
    have hclose : 0 < candles[k].close := h.close_pos _ (List.getElem_mem hk)
    have hsolvent : Solvent s' := hs.2.checked h hroom hchecks
    have hchecked : Charted A (openTimes candles k) s' := hs.1.of_equityCurve hchecks.equityCurve
    rw [openTimes_succ hk]
    exact ⟨(hchecked.markToMarket hsolvent hclose).of_equityCurve hacts.equityCurve,
      hsolvent.markToMarket.acted h hroom hclose hacts⟩
  exact hboth.1

/-- The first point of the curve is the initial cash. -/
theorem first_point (hk : 0 < k) (hne : 0 < candles.length)
    (hs : after A config strategy candles k = .ok s) :
    ∃ time rest, s.equityCurve = (time, A.round config.initialCash) :: rest := by
  obtain ⟨s₁, hs₁⟩ : ∃ s₁, after A config strategy candles 1 = .ok s₁ := after_of_succ hk hs
  obtain ⟨s₀, hs₀, hact⟩ := after_succ_eq_ok hne hs₁
  have hfirst : s₁.equityCurve = [(candles[0].openTime, A.round config.initialCash)] := by
    rw [(act_acts hact).equityCurve, ← Except.ok.inj hs₀]
    simp [Backtest.markToMarket, Backtest.checkStops, Backtest.start, LoopState.equity,
      Arithmetic.add]
  obtain ⟨rest, hrest⟩ := (after_extends hk hs₁ hs).equityCurve
  exact ⟨_, rest, by rw [← hrest, hfirst]; rfl⟩

/-! ### The metrics -/

/-- The roundings of the profits of some trades. -/
def profitSlack (A : Arithmetic ℚ) (trades : List BacktestTrade) : ℚ :=
  A.drift (2 * trades.length + 1) * (trades.map fun t => |t.pnl|).sum

/-- The trade count times the expectancy is the gross profit less the gross loss, but for
rounding. -/
theorem tradeCount_mul_expectancy (trades : List BacktestTrade) :
    |(trades.length : ℚ) * mean A (trades.map BacktestTrade.pnl) -
        (A.sum ((trades.map BacktestTrade.pnl).filter (0 < ·)) -
          |A.sum ((trades.map BacktestTrade.pnl).filter (· < 0))|)| ≤
      profitSlack A trades := by
  set pnls := trades.map BacktestTrade.pnl with hpnls
  have hlength : pnls.length = trades.length := List.length_map ..
  have hsize : (trades.map fun t => |t.pnl|).sum = (pnls.map (|·|)).sum := by
    rw [hpnls, List.map_map]
    rfl
  have hlosses : ∀ p ∈ pnls.filter (· < 0), p ≤ 0 := fun p hp =>
    (of_decide_eq_true (List.mem_filter.1 hp).2 : p < 0).le
  have hwon := @sum_near_of_nonneg ℚ _ _ _ A (pnls.filter (0 < ·)) trades.length
    (fun p hp => (of_decide_eq_true (List.mem_filter.1 hp).2 : 0 < p).le)
    ((List.length_filter_le _ _).trans hlength.le)
  have hlost := @sum_near_of_nonpos ℚ _ _ _ A (pnls.filter (· < 0)) trades.length hlosses
    ((List.length_filter_le _ _).trans hlength.le)
  have hparts := hwon.add hlost
  rw [sum_filter_pos_add_neg, ← sub_eq_add_neg, sum_filter_pos_sub_neg] at hparts
  have hmean := mean_mul_length_near (A.approx_sum pnls)
  rw [hlength] at hmean
  rw [abs_of_nonpos (A.sum_nonpos hlosses), sub_neg_eq_add, mul_comm, profitSlack, hsize]
  refine (hmean.abs_sub_computed_le hparts).trans_eq ?_
  rw [show trades.length + 1 + trades.length = 2 * trades.length + 1 by ring]

theorem winRate_bounds (trades : List BacktestTrade) :
    0 ≤ A.div ((trades.map BacktestTrade.pnl).filter (0 < ·)).length trades.length ∧
      A.div ((trades.map BacktestTrade.pnl).filter (0 < ·)).length trades.length ≤ 1 := by
  have hlength : ((trades.map BacktestTrade.pnl).filter (0 < ·)).length ≤ trades.length := by
    rw [← @List.length_map _ _ trades BacktestTrade.pnl]
    exact List.length_filter_le ..
  exact ⟨A.div_nonneg (Nat.cast_nonneg _) (Nat.cast_nonneg _),
    A.div_le_one (Nat.cast_nonneg _) (by exact_mod_cast hlength)⟩

/-- A fall to an equity that is not negative is at most the whole peak, if the peak is not
rounded up. -/
theorem drawdownStep_bounds {peak dd equity : ℚ} (hequity : 0 ≤ equity)
    (hpeak : A.round (max peak equity) ≤ max peak equity) (hdd : 0 ≤ dd ∧ dd ≤ 1) :
    0 ≤ (drawdownStep A (peak, dd) equity).2 ∧ (drawdownStep A (peak, dd) equity).2 ≤ 1 := by
  simp only [drawdownStep]
  split_ifs with hpos
  · have hfall : A.sub (max peak equity) equity ≤ max peak equity :=
      (A.round_mono (sub_le_self _ hequity)).trans hpeak
    exact ⟨hdd.1.trans (le_max_left ..), max_le hdd.2 (A.div_le_one hpos.le hfall)⟩
  · exact hdd

/-- The drawdown of rounded equities that are not negative is a ratio. -/
theorem foldl_drawdownStep_bounds {equities : List ℚ}
    (hequities : ∀ v ∈ equities, 0 ≤ v ∧ A.round v = v) {peak dd : ℚ} (hpeak : A.round peak ≤ peak)
    (hdd : 0 ≤ dd ∧ dd ≤ 1) :
    0 ≤ (equities.foldl (drawdownStep A) (peak, dd)).2 ∧
      (equities.foldl (drawdownStep A) (peak, dd)).2 ≤ 1 := by
  induction equities generalizing peak dd with
  | nil => exact hdd
  | cons v equities ih =>
    obtain ⟨hv, hround⟩ := hequities v (List.mem_cons_self ..)
    have hmax : A.round (max peak v) ≤ max peak v := by
      rcases max_choice peak v with h | h
      · rw [h]
        exact hpeak
      · rw [h, hround]
    exact ih (fun w hw => hequities w (List.mem_cons_of_mem _ hw)) hmax
      (drawdownStep_bounds hv hmax hdd)

/-- The drawdown is a ratio, if the curve starts with the initial cash. -/
theorem maxDrawdown_bounds {rest : List (Time × ℚ)} {initialCash : ℚ}
    (hequities : ∀ e ∈ (time, A.round initialCash) :: rest, 0 ≤ e.2 ∧ A.round e.2 = e.2) :
    0 ≤ maxDrawdown A initialCash ((time, A.round initialCash) :: rest) ∧
      maxDrawdown A initialCash ((time, A.round initialCash) :: rest) ≤ 1 := by
  have hvalues : ∀ v ∈ rest.map Prod.snd, 0 ≤ v ∧ A.round v = v := by
    intro v hv
    obtain ⟨e, he, rfl⟩ := List.mem_map.1 hv
    exact hequities e (List.mem_cons_of_mem _ he)
  have hfirst := hequities _ (List.mem_cons_self ..)
  -- the higher one of the initial cash and of what it is rounded to is not rounded up
  have hmax : A.round (max initialCash (A.round initialCash)) ≤
      max initialCash (A.round initialCash) := by
    rcases max_choice initialCash (A.round initialCash) with h | h
    · rw [h]
      exact max_eq_left_iff.mp h
    · rw [h, A.round_idem]
  exact foldl_drawdownStep_bounds hvalues hmax
    (drawdownStep_bounds hfirst.1 hmax ⟨le_rfl, zero_le_one⟩)

/-- The metrics are ratios, and agree with each other but for rounding. -/
structure Ratios (slack : ℚ) (m : PerformanceMetrics) : Prop where
  winRate : 0 ≤ m.winRate ∧ m.winRate ≤ 1
  exposureTime : 0 ≤ m.exposureTime ∧ m.exposureTime ≤ 1
  maxDrawdown : 0 ≤ m.maxDrawdown ∧ m.maxDrawdown ≤ 1
  expectancy : |m.tradeCount * m.expectancy - (m.grossProfit - m.grossLoss)| ≤ slack

/-- A share of some bars is at most one exactly if it is of no more than these bars. -/
theorem share_le_one_iff {m n : ℕ} (hn : 0 < n) (hbars : A.error * (n + 1) < 1) :
    A.div m n ≤ 1 ↔ m ≤ n := by
  have hpos : (0 : ℚ) < n := by exact_mod_cast hn
  refine ⟨fun h => ?_, fun h => A.div_le_one hpos.le (by exact_mod_cast h)⟩
  by_contra hlt
  have hmore : (n : ℚ) + 1 ≤ m := by exact_mod_cast not_le.mp hlt
  have hmoved := (abs_le.mp (A.abs_round_sub_le ((m : ℚ) / n))).1
  rw [abs_of_nonneg (div_nonneg (Nat.cast_nonneg m) hpos.le)] at hmoved
  have hless : (m : ℚ) / n * (1 - A.error) ≤ 1 := by
    have h' : A.round ((m : ℚ) / n) ≤ 1 := h
    linarith
  have herror : 0 ≤ 1 - A.error := sub_nonneg.mpr A.error_lt_one.le
  rw [div_mul_eq_mul_div, div_le_one hpos] at hless
  have hscaled := mul_le_mul_of_nonneg_right hmore herror
  linarith

/-- The exposure is at most one exactly if no more bars count twice than not at all. -/
theorem exposureTime_le_one_iff (h : Admissible config strategy candles) (hroom : Room A config)
    (hne : candles ≠ []) (hbars : A.error * (candles.length + 1) < 1)
    (hfinal : final A config strategy candles = .ok s) :
    0 ≤ exposureTime A s.trades s.equityCurve ∧
      (exposureTime A s.trades s.equityCurve ≤ 1 ↔
        reentries A config strategy candles candles.length ≤
          idleBars A config strategy candles candles.length) := by
  obtain ⟨s₀, hs₀, hends⟩ := final_ends hne hfinal
  have hcurve : s.equityCurve = s₀.equityCurve := by cases hends <;> rfl
  have hcharted : Charted A (openTimes candles candles.length) s :=
    (charted_after h hroom le_rfl hs₀).of_equityCurve hcurve
  have hlength : s.equityCurve.length = candles.length := by
    rw [← @List.length_map _ _ s.equityCurve Prod.fst, hcharted.times, openTimes,
      List.take_length, List.length_map]
  have hpoints : s.equityCurve ≠ [] := by
    rw [← List.length_pos_iff_ne_nil, hlength]
    exact List.length_pos_of_ne_nil hne
  -- the bars within the trades and the idle ones are all bars and those that count twice
  have hoccupied := occupied_after h le_rfl hs₀
  rw [exposureTime_eq hpoints, hlength, hcharted.times, occupied_ended h hs₀ hends]
  refine ⟨A.div_nonneg (Nat.cast_nonneg _) (Nat.cast_nonneg _), ?_⟩
  rw [share_le_one_iff (List.length_pos_of_ne_nil hne) hbars]
  omega

/-- **When the metrics of a backtest are ratios**: the win rate, the drawdown and the expectancy
always are as they should be.  The exposure time is, and so all of them are, exactly if no more
bars count twice than not at all. -/
theorem ratios_iff {numerics : Numerics} {r : BacktestResult}
    (hrun : run A config strategy numerics candles = .ok r)
    (h : Admissible config strategy candles) (hroom : Room A config)
    (hbars : A.error * (candles.length + 1) < 1) :
    (0 ≤ r.metrics.winRate ∧ r.metrics.winRate ≤ 1) ∧
      (0 ≤ r.metrics.maxDrawdown ∧ r.metrics.maxDrawdown ≤ 1) ∧
      |r.metrics.tradeCount * r.metrics.expectancy -
        (r.metrics.grossProfit - r.metrics.grossLoss)| ≤ profitSlack A r.trades ∧
      (Ratios (profitSlack A r.trades) r.metrics ↔
        reentries A config strategy candles candles.length ≤
          idleBars A config strategy candles candles.length) := by
  obtain ⟨hne, s, x, hfinal, rfl⟩ := run_eq_ok hrun
  obtain ⟨s₀, hs₀, hends⟩ := final_ends hne hfinal
  have hcurve : s.equityCurve = s₀.equityCurve := by cases hends <;> rfl
  have hlength := List.length_pos_of_ne_nil hne
  have hequities := ((charted_after h hroom le_rfl hs₀).of_equityCurve hcurve).equities
  obtain ⟨time, rest, hfirst⟩ := first_point hlength hlength hs₀
  rw [← hcurve] at hfirst
  rw [hfirst] at hequities
  have hwin : 0 ≤ (if s.trades = [] then 0 else
        A.div ((s.trades.map BacktestTrade.pnl).filter (0 < ·)).length s.trades.length) ∧
      (if s.trades = [] then 0 else
        A.div ((s.trades.map BacktestTrade.pnl).filter (0 < ·)).length s.trades.length) ≤ 1 := by
    split_ifs
    · exact ⟨le_rfl, zero_le_one⟩
    · exact winRate_bounds s.trades
  have hdrawdown := maxDrawdown_bounds hequities
  rw [← hfirst] at hdrawdown
  have hexpectancy := @tradeCount_mul_expectancy A s.trades
  obtain ⟨hnonneg, hexposure⟩ := exposureTime_le_one_iff h hroom hne hbars hfinal
  refine ⟨hwin, hdrawdown, hexpectancy, ?_⟩
  rw [← hexposure]
  exact ⟨fun hratios => hratios.exposureTime.2,
    fun hle => ⟨hwin, ⟨hnonneg, hle⟩, hdrawdown, hexpectancy⟩⟩

/-- One bar, bought and sold at the end of the data. -/
theorem ratios_iff_one_bar :
    ∃ r, run decimal28 {} everyBar (.growing 0) (touchingBars.take 1) = .ok r ∧
      r.trades.length = 1 ∧ Ratios (1 / 10 ^ 20) r.metrics := by
  have hadmissible : Admissible {} everyBar (touchingBars.take 1) :=
    { admissible_everyBar with
      close_pos := by decide +kernel
      increasing := by decide +kernel }
  have hruns : (run decimal28 {} everyBar (.growing 0) (touchingBars.take 1)).toOption.any
      fun r => r.trades.length = 1 ∧ profitSlack decimal28 r.trades ≤ 1 / 10 ^ 20 := by
    decide +kernel
  obtain ⟨r, hrun, hvalues⟩ := Except.exists_of_any_toOption hruns
  obtain ⟨hlength, hslack⟩ := of_decide_eq_true hvalues
  have hroom : Room decimal28 {} := by unfold Room; decide +kernel
  obtain ⟨-, -, -, hratios⟩ := ratios_iff hrun hadmissible hroom (by decide +kernel)
  have hall := hratios.2 (by decide +kernel)
  exact ⟨r, hrun, hlength, hall.winRate, hall.exposureTime, hall.maxDrawdown,
    hall.expectancy.trans hslack⟩

/-- Five bars with a stop, a target and two other exits: each of the first two closes a trade on
a bar that opens the next one, and seven bars are counted. -/
theorem exposure_above_one :
    Admissible {} everyBar touchingBars ∧
      ∃ r, run decimal28 {} everyBar (.growing (27948821714136827 / 10 ^ 16)) touchingBars = .ok r ∧
        r.metrics.exposureTime = 7 / 5 ∧ ∀ slack, ¬Ratios slack r.metrics := by
  have hruns : (run decimal28 {} everyBar (.growing (27948821714136827 / 10 ^ 16))
      touchingBars).toOption.any fun r => r.metrics.exposureTime = 7 / 5 := by decide +kernel
  obtain ⟨r, hrun, hexposure⟩ := Except.exists_of_any_toOption hruns
  refine ⟨admissible_everyBar, r, hrun, of_decide_eq_true hexposure, fun slack h => ?_⟩
  have hle := h.exposureTime.2
  rw [of_decide_eq_true hexposure] at hle
  norm_num at hle

end Atlas.Backtest
