import Mathlib.Tactic.Linarith
import Mathlib.Tactic.Positivity
import Atlas.Backtest.Cash

/-!
# Trade discipline in a backtest

With prices, stops and targets above zero and costs below the price, a sale never takes cash
away, and a buy is only made when the cash covers it.  In an arithmetic that rounds, the costs
have to be below the price by their roundings.  A position is sold on a later bar than
the one it was bought on, except at the end of the data: the stop check asks for an earlier
opening time, and the action on a signal either buys or sells.  So the trades follow one
another.

## Main definitions

* `Admissible` — what is assumed of the configuration, the strategy and the candles.
* `Room` — what is assumed of the costs, in an arithmetic.
* `Visited` — the states a run goes through.
* `Precedes` — a trade is closed before another one is opened.
* `Solvent`, `Sequential` — the invariants of the loop.

## Main results

* `solvent_after`, `sequential_after` — the invariants hold through the run.
* `trade_discipline` — **cash is not negative, and the trades are in order**.
-/

namespace Atlas.Backtest

open Arithmetic

variable {A : Arithmetic ℚ} {config : BacktestConfig} {strategy : BacktestStrategy}
  {candles window : List Candle}
  {bar : Candle} {s s' : LoopState} {position : Position} {price : ℚ} {time : Time}
  {reason : String} {k : ℕ}

/-- The assumptions on a run. -/
structure Admissible (config : BacktestConfig) (strategy : BacktestStrategy)
    (candles : List Candle) : Prop where
  stop_pos : ∀ ctx, ∀ x ∈ (strategy.signal ctx).suggestedStop, 0 < x
  target_pos : ∀ ctx, ∀ x ∈ (strategy.signal ctx).suggestedTarget, 0 < x
  close_pos : ∀ c ∈ candles, 0 < c.close
  increasing : candles.Pairwise fun a b => a.openTime < b.openTime
  initialCash_nonneg : 0 ≤ config.initialCash
  feeRate_nonneg : 0 ≤ config.feeRate
  feeRate_lt_one : config.feeRate < 1
  cost_nonneg : 0 ≤ config.spreadRate / 2 + config.slippageRate
  cost_lt_one : config.spreadRate / 2 + config.slippageRate < 1

/-- The costs leave room for the roundings of their half spread and their slippage. -/
def Room (A : Arithmetic ℚ) (config : BacktestConfig) : Prop :=
  config.spreadRate / 2 + config.slippageRate +
    A.drift 2 * (|config.spreadRate| / 2 + |config.slippageRate|) ≤ 1

/-- Without roundings, costs below the price are enough. -/
theorem room_exact (h : Admissible config strategy candles) : Room exact config := by
  rw [Room, exact_drift, zero_mul, add_zero]
  exact h.cost_lt_one.le

/-- The states of a run: between two bars, within a bar, and at the end. -/
inductive Visited (A : Arithmetic ℚ) (config : BacktestConfig) (strategy : BacktestStrategy)
    (candles : List Candle) : LoopState → Prop
  | between (k : ℕ) {s : LoopState} (h : after A config strategy candles k = .ok s) :
      Visited A config strategy candles s
  | checked (k : ℕ) (hk : k < candles.length) {s : LoopState}
      (h : after A config strategy candles k = .ok s) :
      Visited A config strategy candles (checkStops A config candles[k] s)
  | marked (k : ℕ) (hk : k < candles.length) {s : LoopState}
      (h : after A config strategy candles k = .ok s) :
      Visited A config strategy candles
        (markToMarket A candles[k] (checkStops A config candles[k] s))
  | ended {s : LoopState} (h : final A config strategy candles = .ok s) :
      Visited A config strategy candles s

/-! ### Cash -/

/-- The cash is not negative, and a position has a size, and prices to sell at. -/
structure Solvent (s : LoopState) : Prop where
  cash : 0 ≤ s.cash
  quantity : ∀ p ∈ s.position, 0 < p.quantity
  stop : ∀ p ∈ s.position, ∀ x ∈ p.stopLoss, 0 < x
  target : ∀ p ∈ s.position, ∀ x ∈ p.takeProfit, 0 < x

theorem Solvent.flat (hcash : 0 ≤ s.cash) (hflat : s.position = none) : Solvent s := by
  refine ⟨hcash, ?_, ?_, ?_⟩ <;> simp [hflat]

/-- A sale at a positive price is not made below zero. -/
theorem sale_nonneg (hroom : Room A config) (hprice : 0 < price) :
    0 ≤ (applyCosts A config price .sell).price := by
  have hhalf := (abs_le.mp ((A.approx_round (price * config.spreadRate)).div_const 2).round.near).2
  have hslip := (abs_le.mp ((A.approx_round (price * config.slippageRate)).mono
    (Nat.le_succ 1) le_rfl).near).2
  rw [abs_mul, abs_of_pos hprice, abs_two] at hhalf
  rw [abs_mul, abs_of_pos hprice] at hslip
  have hcosts := mul_le_mul_of_nonneg_left hroom hprice.le
  have hle : A.mul price config.slippageRate ≤
      price - A.div (A.mul price config.spreadRate) 2 := by
    simp only [Arithmetic.mul, Arithmetic.div]
    linarith
  -- the slippage is a rounded number
  have hround := A.round_mono hle
  rw [Arithmetic.mul, A.round_idem] at hround
  exact A.sub_nonneg hround

/-- A sale at a positive price brings cash in. -/
theorem proceeds_nonneg (h : Admissible config strategy candles) (hroom : Room A config) {qty : ℚ}
    (hprice : 0 < price) (hqty : 0 ≤ qty) :
    0 ≤ A.sub (A.mul (applyCosts A config price .sell).price qty)
      (A.mul (applyCosts A config price .sell).fee qty) := by
  have hsale := sale_nonneg hroom hprice
  have hfee : (applyCosts A config price .sell).fee ≤ (applyCosts A config price .sell).price := by
    have hround := A.round_mono (mul_le_of_le_one_right hsale h.feeRate_lt_one.le)
    rwa [show A.round (applyCosts A config price .sell).price = _ from A.round_idem _] at hround
  exact A.sub_nonneg (A.round_mono (mul_le_mul_of_nonneg_right hfee hqty))

theorem Solvent.exitAt (h : Admissible config strategy candles) (hroom : Room A config)
    (hs : Solvent s) (hposition : s.position = some position) (hprice : 0 < price) :
    Solvent (exitAt A config position price time reason s) :=
  .flat (A.add_nonneg hs.cash
    (proceeds_nonneg h hroom hprice (hs.quantity position hposition).le)) rfl

/-- A touched stop or target is one of the position's. -/
theorem checkStopTake_price (h : checkStopTake position bar = some (price, reason)) :
    position.stopLoss = some price ∨ position.takeProfit = some price := by
  unfold checkStopTake at h
  split_ifs at h
  · obtain ⟨x, hx, heq⟩ := Option.map_eq_some_iff.mp h
    exact .inl (by rw [hx, (Prod.mk.inj heq).1])
  · obtain ⟨x, hx, heq⟩ := Option.map_eq_some_iff.mp h
    exact .inr (by rw [hx, (Prod.mk.inj heq).1])

theorem Solvent.checked (h : Admissible config strategy candles) (hroom : Room A config)
    (hs : Solvent s) (hchecks : Checks A config bar s s') : Solvent s' := by
  cases hchecks with
  | kept => exact hs
  | exited position price reason hposition hearlier htouched =>
    refine hs.exitAt h hroom hposition ?_
    rcases checkStopTake_price htouched with hstop | htarget
    · exact hs.stop position hposition price hstop
    · exact hs.target position hposition price htarget

theorem Solvent.markToMarket (hs : Solvent s) : Solvent (markToMarket A bar s) where
  cash := hs.cash
  quantity := by
    intro p hp
    obtain ⟨p', hp', rfl⟩ := Option.map_eq_some_iff.mp hp
    exact hs.quantity p' hp'
  stop := by
    intro p hp
    obtain ⟨p', hp', rfl⟩ := Option.map_eq_some_iff.mp hp
    exact hs.stop p' hp'
  target := by
    intro p hp
    obtain ⟨p', hp', rfl⟩ := Option.map_eq_some_iff.mp hp
    exact hs.target p' hp'

theorem Solvent.acted (h : Admissible config strategy candles) (hroom : Room A config)
    (hbar : 0 < bar.close) (hs : Solvent s) (hacts : Acts A config strategy window bar s s') :
    Solvent s' := by
  cases hacts with
  | kept => exact hs
  | opened rationale qty hflat hsize hqty hcash =>
    refine ⟨A.sub_nonneg hcash, ?_, ?_, ?_⟩
    · rintro p ⟨⟩
      exact hqty
    · rintro p ⟨⟩
      exact h.stop_pos _
    · rintro p ⟨⟩
      exact h.target_pos _
  | exited position rationale hposition => exact hs.exitAt h hroom hposition hbar

theorem solvent_after (h : Admissible config strategy candles) (hroom : Room A config)
    (hk : k ≤ candles.length) (hs : after A config strategy candles k = .ok s) : Solvent s :=
  after_induction (P := fun _ s => Solvent s) (.flat h.initialCash_nonneg rfl)
    (fun _ hk _ _ hs hchecks _ hacts =>
      ((hs.checked h hroom hchecks).markToMarket).acted h hroom
        (h.close_pos _ (List.getElem_mem hk)) hacts) hk hs

theorem Solvent.ended (h : Admissible config strategy candles) (hroom : Room A config)
    (hs : Solvent s) (hends : Ends A config candles s s') : Solvent s' := by
  cases hends with
  | flat => exact hs
  | exited position bar hposition hbar =>
    exact hs.exitAt h hroom hposition (h.close_pos bar (List.mem_of_getLast? hbar))

/-- The cash is not negative in any state of the run. -/
theorem Visited.solvent (h : Admissible config strategy candles) (hroom : Room A config)
    (hne : candles ≠ []) (hs : Visited A config strategy candles s) : Solvent s := by
  cases hs with
  | between k hs =>
    rcases le_total k candles.length with hk | hk
    · exact solvent_after h hroom hk hs
    · rw [after_of_le hk] at hs
      exact solvent_after h hroom le_rfl hs
  | checked k hk hs => exact (solvent_after h hroom hk.le hs).checked h hroom (checkStops_checks ..)
  | marked k hk hs =>
    exact ((solvent_after h hroom hk.le hs).checked h hroom (checkStops_checks ..)).markToMarket
  | ended hs =>
    obtain ⟨s₀, hs₀, hends⟩ := final_ends hne hs
    exact (solvent_after h hroom le_rfl hs₀).ended h hroom hends

/-! ### The order of the trades -/

/-- The first trade is closed before the second one is opened. -/
def Precedes (a b : BacktestTrade) : Prop := ∃ x ∈ a.exitTime, x ≤ b.entryTime

/-- The trade is opened on a bar, and closed on a later one. -/
def Spans (times : List Time) (t : BacktestTrade) : Prop :=
  t.entryTime ∈ times ∧ ∃ x ∈ t.exitTime, x ∈ times ∧ t.entryTime < x

/-- The trades of the bars at some times follow one another. -/
structure Sequential (times : List Time) (s : LoopState) : Prop where
  paired : Paired s.position s.openTrade
  spans : ∀ t ∈ s.trades, Spans times t
  apart : s.trades.Pairwise Precedes
  entry : ∀ t ∈ s.openTrade, t.entryTime ∈ times ∧ ∀ a ∈ s.trades, Precedes a t

/-- The opening times of the first `k` bars. -/
def openTimes (candles : List Candle) (k : ℕ) : List Time := (candles.take k).map Candle.openTime

theorem openTimes_succ (hk : k < candles.length) :
    openTimes candles (k + 1) = openTimes candles k ++ [candles[k].openTime] := by
  rw [openTimes, openTimes, List.take_succ_eq_append_getElem hk, List.map_append, List.map_singleton]

/-- The bars before a bar open earlier. -/
theorem lt_of_mem_openTimes (hincreasing : candles.Pairwise fun a b => a.openTime < b.openTime)
    (hk : k < candles.length) (htime : time ∈ openTimes candles k) :
    time < candles[k].openTime := by
  have hbars : (candles.take (k + 1)).Pairwise fun a b => a.openTime < b.openTime :=
    hincreasing.sublist (List.take_sublist ..)
  rw [List.take_succ_eq_append_getElem hk, List.pairwise_append] at hbars
  obtain ⟨c, hc, rfl⟩ := List.mem_map.mp htime
  exact hbars.2.2 c hc _ (List.mem_singleton_self _)

theorem Sequential.mono {times times' : List Time} (h : Sequential times s)
    (hsubset : times ⊆ times') : Sequential times' s where
  paired := h.paired
  spans := by
    intro t ht
    obtain ⟨hentry, x, hx, hexit, hlt⟩ := h.spans t ht
    exact ⟨hsubset hentry, x, hx, hsubset hexit, hlt⟩
  apart := h.apart
  entry := fun t ht => ⟨hsubset (h.entry t ht).1, (h.entry t ht).2⟩

/-- A sale after the open trade's entry. -/
theorem Sequential.exitAt {times : List Time} (h : Sequential times s)
    (hposition : s.position = some position) (htime : time ∈ times)
    (hlater : position.openedAt < time) :
    Sequential times (exitAt A config position price time reason s) := by
  obtain ⟨t, htrade, -, -, hentry, htrades⟩ := h.paired.exit A config price time reason hposition
  obtain ⟨hmem, hprecedes⟩ := h.entry t htrade
  refine ⟨.flat, ?_, ?_, fun t ht => absurd ht (Option.not_mem_none t)⟩
  · intro t' ht'
    rw [htrades, List.mem_append, List.mem_singleton] at ht'
    rcases ht' with ht' | rfl
    · exact h.spans t' ht'
    · exact ⟨hmem, time, rfl, htime, hentry ▸ hlater⟩
  · rw [htrades, List.pairwise_append]
    refine ⟨h.apart, List.pairwise_singleton .., ?_⟩
    intro a ha b hb
    rw [List.mem_singleton.mp hb]
    exact hprecedes a ha

theorem Sequential.checked {times : List Time} (h : Sequential times s)
    (htime : bar.openTime ∈ times) (hchecks : Checks A config bar s s') : Sequential times s' := by
  cases hchecks with
  | kept => exact h
  | exited position price reason hposition hearlier => exact h.exitAt hposition htime hearlier

theorem Sequential.markToMarket {times : List Time} (h : Sequential times s) :
    Sequential times (markToMarket A bar s) where
  paired := h.paired.markToMarket
  spans := h.spans
  apart := h.apart
  entry := h.entry

/-- Acting on a bar after the open trade's entry. -/
theorem Sequential.acted {times : List Time} (h : Sequential times s)
    (htime : bar.openTime ∈ times) (hlast : ∀ x ∈ times, x ≤ bar.openTime)
    (hearlier : ∀ p ∈ s.position, p.openedAt < bar.openTime)
    (hacts : Acts A config strategy window bar s s') : Sequential times s' := by
  cases hacts with
  | kept => exact h
  | opened rationale qty hflat =>
    refine ⟨.held _ _ rfl rfl rfl, h.spans, h.apart, ?_⟩
    rintro t ⟨⟩
    refine ⟨htime, fun a ha => ?_⟩
    obtain ⟨-, x, hx, hexit, -⟩ := h.spans a ha
    exact ⟨x, hx, hlast x hexit⟩
  | exited position rationale hposition =>
    exact h.exitAt hposition htime (hearlier position hposition)

/-- The position is from an earlier bar. -/
theorem Sequential.earlier (h : Admissible config strategy candles) (hk : k < candles.length)
    (hs : Sequential (openTimes candles k) s) :
    ∀ p ∈ s.position, p.openedAt < candles[k].openTime := by
  intro p hp
  have hpaired := hs.paired
  rw [Option.mem_def.mp hp] at hpaired
  obtain ⟨t, htrade, -, -, hentry⟩ := hpaired.of_held
  rw [← hentry]
  exact lt_of_mem_openTimes h.increasing hk (hs.entry t htrade).1

theorem Checks.earlier (hchecks : Checks A config bar s s')
    (hearlier : ∀ p ∈ s.position, p.openedAt < bar.openTime) :
    ∀ p ∈ s'.position, p.openedAt < bar.openTime := by
  cases hchecks with
  | kept => exact hearlier
  | exited => exact fun p hp => absurd hp (Option.not_mem_none p)

theorem earlier_markToMarket (hearlier : ∀ p ∈ s.position, p.openedAt < bar.openTime) :
    ∀ p ∈ (markToMarket A bar s).position, p.openedAt < bar.openTime := by
  intro p hp
  obtain ⟨p', hp', rfl⟩ := Option.map_eq_some_iff.mp hp
  exact hearlier p' hp'

theorem openTime_mem_openTimes (hk : k < candles.length) :
    candles[k].openTime ∈ openTimes candles (k + 1) := by
  rw [openTimes_succ hk]
  exact List.mem_append_right _ (List.mem_singleton_self _)

theorem openTimes_subset_succ (hk : k < candles.length) :
    openTimes candles k ⊆ openTimes candles (k + 1) := by
  rw [openTimes_succ hk]
  exact List.subset_append_left ..

theorem sequential_after (h : Admissible config strategy candles) (hk : k ≤ candles.length)
    (hs : after A config strategy candles k = .ok s) : Sequential (openTimes candles k) s := by
  refine after_induction (P := fun k s => Sequential (openTimes candles k) s)
    ⟨.flat, by simp [start], List.Pairwise.nil, by simp [start]⟩ ?_ hk hs
  intro k hk s s' hs hchecks s'' hacts
  have htime := openTime_mem_openTimes hk
  have hlast : ∀ x ∈ openTimes candles (k + 1), x ≤ candles[k].openTime := by
    intro x hx
    rw [openTimes_succ hk, List.mem_append, List.mem_singleton] at hx
    rcases hx with hx | rfl
    · exact (lt_of_mem_openTimes h.increasing hk hx).le
    · exact le_rfl
  exact ((hs.mono (openTimes_subset_succ hk)).checked htime hchecks).markToMarket.acted htime hlast
    (earlier_markToMarket (hchecks.earlier (hs.earlier h hk))) hacts

/-- The closed trades, and the open one after them. -/
structure InOrder (s : LoopState) : Prop where
  paired : Paired s.position s.openTrade
  apart : (s.trades ++ s.openTrade.toList).Pairwise Precedes

theorem Sequential.inOrder {times : List Time} (h : Sequential times s) : InOrder s where
  paired := h.paired
  apart := by
    rw [List.pairwise_append]
    refine ⟨h.apart, ?_, fun a ha b hb => (h.entry b (Option.mem_toList.mp hb)).2 a ha⟩
    cases s.openTrade with
    | none => exact List.Pairwise.nil
    | some t => exact List.pairwise_singleton ..

theorem InOrder.ended (h : InOrder s) (hends : Ends A config candles s s') : InOrder s' := by
  cases hends with
  | flat => exact h
  | exited position bar hposition =>
    obtain ⟨t, htrade, -, -, -, htrades⟩ :=
      h.paired.exit A config bar.close bar.openTime "end-of-data" hposition
    have hapart := h.apart
    rw [htrade, Option.toList_some, List.pairwise_append] at hapart
    refine ⟨.flat, ?_⟩
    rw [htrades, exitAt, Option.toList_none, List.append_nil, List.pairwise_append]
    refine ⟨hapart.1, List.pairwise_singleton .., fun a ha b hb => ?_⟩
    -- closing the trade keeps its entry
    rw [List.mem_singleton.mp hb]
    exact hapart.2.2 a ha t (List.mem_singleton_self t)

theorem Visited.inOrder (h : Admissible config strategy candles) (hne : candles ≠ [])
    (hs : Visited A config strategy candles s) : InOrder s := by
  cases hs with
  | between k hs =>
    rcases le_total k candles.length with hk | hk
    · exact (sequential_after h hk hs).inOrder
    · rw [after_of_le hk] at hs
      exact (sequential_after h le_rfl hs).inOrder
  | checked k hk hs =>
    exact (((sequential_after h hk.le hs).mono (openTimes_subset_succ hk)).checked
      (openTime_mem_openTimes hk) (checkStops_checks A config ..)).inOrder
  | marked k hk hs =>
    exact (((sequential_after h hk.le hs).mono (openTimes_subset_succ hk)).checked
      (openTime_mem_openTimes hk) (checkStops_checks A config ..)).markToMarket.inOrder
  | ended hs =>
    obtain ⟨s₀, hs₀, hends⟩ := final_ends hne hs
    exact (sequential_after h le_rfl hs₀).inOrder.ended hends

/-! ### The run -/

/-- The trade is opened on bar `i` and closed on bar `j`. -/
def OnBars (candles : List Candle) (t : BacktestTrade) (i j : ℕ) : Prop :=
  ∃ a b, candles[i]? = some a ∧ candles[j]? = some b ∧
    t.entryTime = a.openTime ∧ t.exitTime = some b.openTime

theorem mem_openTimes_iff :
    time ∈ openTimes candles candles.length ↔
      ∃ (i : ℕ) (a : Candle), candles[i]? = some a ∧ a.openTime = time := by
  rw [openTimes, List.take_length, List.mem_map]
  constructor
  · rintro ⟨a, ha, rfl⟩
    obtain ⟨i, hi⟩ := List.mem_iff_getElem?.mp ha
    exact ⟨i, a, hi, rfl⟩
  · rintro ⟨i, a, hi, rfl⟩
    exact ⟨a, List.mem_of_getElem? hi, rfl⟩

/-- A bar that opens later is a later bar. -/
theorem lt_of_openTime_lt (h : candles.Pairwise fun a b => a.openTime < b.openTime) {i j : ℕ}
    {a b : Candle} (hi : candles[i]? = some a) (hj : candles[j]? = some b)
    (hlt : a.openTime < b.openTime) : i < j := by
  obtain ⟨hi', rfl⟩ := List.getElem?_eq_some_iff.mp hi
  obtain ⟨hj', rfl⟩ := List.getElem?_eq_some_iff.mp hj
  rcases lt_trichotomy i j with hij | rfl | hji
  · exact hij
  · exact absurd hlt (lt_irrefl _)
  · exact absurd (hlt.trans (List.pairwise_iff_getElem.mp h j i hj' hi' hji)) (lt_irrefl _)

/-- A trade of the loop is closed on a later bar than it is opened on. -/
theorem Spans.onBars {t : BacktestTrade}
    (h : candles.Pairwise fun a b => a.openTime < b.openTime)
    (ht : Spans (openTimes candles candles.length) t) : ∃ i j, OnBars candles t i j ∧ i < j := by
  obtain ⟨hentry, x, hx, hexit, hlt⟩ := ht
  obtain ⟨i, a, hi, hai⟩ := mem_openTimes_iff.mp hentry
  obtain ⟨j, b, hj, hbj⟩ := mem_openTimes_iff.mp hexit
  refine ⟨i, j, ⟨a, b, hi, hj, hai.symm, by rw [hbj]; exact hx⟩, ?_⟩
  exact lt_of_openTime_lt h hi hj (by rw [hai, hbj]; exact hlt)

/-- The end of the data closes a trade on the last bar. -/
theorem onBars_ended (hincreasing : candles.Pairwise fun a b => a.openTime < b.openTime)
    (hs : Sequential (openTimes candles candles.length) s) (hends : Ends A config candles s s') :
    ∀ t ∈ s'.trades, ∃ i j, OnBars candles t i j ∧ i ≤ j ∧
      (t.reason = "stop-loss" ∨ t.reason = "take-profit" → i < j) := by
  have hloop : ∀ t ∈ s.trades, ∃ i j, OnBars candles t i j ∧ i ≤ j ∧
      (t.reason = "stop-loss" ∨ t.reason = "take-profit" → i < j) := by
    intro t ht
    obtain ⟨i, j, hbars, hlt⟩ := (hs.spans t ht).onBars hincreasing
    exact ⟨i, j, hbars, hlt.le, fun _ => hlt⟩
  cases hends with
  | flat => exact hloop
  | exited position bar hposition hbar =>
    obtain ⟨t, htrade, -, -, -, htrades⟩ :=
      hs.paired.exit A config bar.close bar.openTime "end-of-data" hposition
    intro t' ht'
    rw [htrades, List.mem_append, List.mem_singleton] at ht'
    rcases ht' with ht' | rfl
    · exact hloop t' ht'
    · obtain ⟨i, a, hi, hai⟩ := mem_openTimes_iff.mp (hs.entry t htrade).1
      rw [List.getLast?_eq_getElem?] at hbar
      have hilt : i < candles.length := (List.getElem?_eq_some_iff.mp hi).1
      refine ⟨i, candles.length - 1, ⟨a, bar, hi, hbar, hai.symm, rfl⟩, by omega, ?_⟩
      intro hreason
      simp [closed] at hreason

/-- **Trade discipline**: in every state of the run the cash is not negative, at most one
position is open, and the trades follow one another; a stop or a target closes a trade on a
later bar than the one that opened it. -/
theorem trade_discipline (h : Admissible config strategy candles) (hroom : Room A config)
    (hne : candles ≠ []) :
    (∀ s, Visited A config strategy candles s →
      0 ≤ s.cash ∧ s.position.toList.length ≤ 1 ∧ InOrder s) ∧
    ∀ numerics r, run A config strategy numerics candles = .ok r → r.trades.Pairwise Precedes ∧
      ∀ t ∈ r.trades, ∃ i j, OnBars candles t i j ∧ i ≤ j ∧
        (t.reason = "stop-loss" ∨ t.reason = "take-profit" → i < j) := by
  refine ⟨fun s hs => ⟨(hs.solvent h hroom hne).cash, ?_, hs.inOrder h hne⟩, ?_⟩
  · cases s.position <;> simp
  · intro numerics r hrun
    obtain ⟨-, s, x, hfinal, rfl⟩ := run_eq_ok hrun
    obtain ⟨s₀, hs₀, hends⟩ := final_ends hne hfinal
    exact ⟨(List.pairwise_append.mp ((Visited.ended hfinal).inOrder h hne).apart).1,
      onBars_ended h.increasing (sequential_after h le_rfl hs₀) hends⟩

/-- The example with all four exits is admissible. -/
theorem admissible_everyBar : Admissible {} everyBar touchingBars where
  stop_pos := by
    intro ctx x hx
    simp only [Strategy.signal, everyBar] at hx
    split at hx
    · cases hx
      norm_num
    · cases hx
  target_pos := by
    intro ctx x hx
    simp only [Strategy.signal, everyBar] at hx
    split at hx
    · cases hx
      norm_num
    · cases hx
  close_pos := by decide +kernel
  increasing := by decide +kernel
  initialCash_nonneg := by decide +kernel
  feeRate_nonneg := by decide +kernel
  feeRate_lt_one := by decide +kernel
  cost_nonneg := by decide +kernel
  cost_lt_one := by decide +kernel

theorem trade_discipline_every_exit :
    ∃ r, run decimal28 {} everyBar (.growing (27948821714136827 / 10 ^ 16)) touchingBars = .ok r ∧
      r.trades.length = 4 ∧ r.trades.Pairwise Precedes ∧
      ∀ t ∈ r.trades, ∃ i j, OnBars touchingBars t i j ∧ i ≤ j ∧
        (t.reason = "stop-loss" ∨ t.reason = "take-profit" → i < j) := by
  have hruns : (run decimal28 {} everyBar (.growing (27948821714136827 / 10 ^ 16))
      touchingBars).toOption.any fun r => r.trades.length = 4 := by decide +kernel
  have hroom : Room decimal28 {} := by unfold Room; decide +kernel
  obtain ⟨r, hrun, hlength⟩ := Except.exists_of_any_toOption hruns
  obtain ⟨hapart, hbars⟩ := (trade_discipline admissible_everyBar hroom (by decide)).2 _ r hrun
  exact ⟨r, hrun, of_decide_eq_true hlength, hapart, hbars⟩

/-- A spread next to twice the price, and all of the cash for one unit. -/
def wideSpread : BacktestConfig where
  initialCash := 12 + 1 / 10 ^ 26
  feeRate := 0
  slippageRate := 0
  spreadRate := 2 - 1 / 10 ^ 32
  positionSizeFraction := 1 / 2

/-- **Decimals may sell below zero** where the costs are next to the price: the half spread is
rounded above it. -/
theorem cash_negative_rounded :
    Admissible wideSpread buyWhenFlat (hourly [6 + 3 / 10 ^ 27]) ∧
      ∃ s, Visited decimal28 wideSpread buyWhenFlat (hourly [6 + 3 / 10 ^ 27]) s ∧
        s.cash = -(2 / 10 ^ 27) := by
  have hfinals : (final decimal28 wideSpread buyWhenFlat (hourly [6 + 3 / 10 ^ 27])).toOption.any
      fun s => s.cash = -(2 / 10 ^ 27) := by decide +kernel
  obtain ⟨s, hfinal, hcash⟩ := Except.exists_of_any_toOption hfinals
  refine ⟨?_, s, .ended hfinal, of_decide_eq_true hcash⟩
  exact
    { stop_pos := fun ctx x hx => absurd hx (Option.not_mem_none x)
      target_pos := fun ctx x hx => absurd hx (Option.not_mem_none x)
      close_pos := by decide +kernel
      increasing := by decide +kernel
      initialCash_nonneg := by decide +kernel
      feeRate_nonneg := by decide +kernel
      feeRate_lt_one := by decide +kernel
      cost_nonneg := by decide +kernel
      cost_lt_one := by decide +kernel }

end Atlas.Backtest
