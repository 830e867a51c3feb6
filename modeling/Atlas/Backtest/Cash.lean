import Mathlib.Tactic.Linarith
import Mathlib.Tactic.Ring
import Atlas.Backtest.Engine

/-!
# Cash conservation in a backtest

Every trade takes its cost and its entry fee from the cash, and gives its proceeds less the
exit fee back.  So at every point of the loop the cash and what the open trade has cost add
up to the initial cash and the profits of the closed trades, and at the end, when nothing is
open, the whole change of the cash is these profits.

An arithmetic that rounds loses a little of this at every trade: two roundings of the cash,
and those of the products that are added to it.

## Main definitions

* `BacktestTrade.profit` — what a trade has earned by its record.
* `BacktestTrade.netProfit`, `turnover` — what it has earned without rounding, and the size of
  the numbers that this is made of.
* `Paired` — the open trade belongs to the position.
* `Accounted` — the invariant of the loop.

## Main results

* `accounted_after`, `accounted_final` — the invariant holds through the run.
* `cash_conserved` — **the change of the cash is the profit of the trades**, but for rounding,
  and `net_return` reports it.
-/

namespace Atlas

open Arithmetic

namespace BacktestTrade

/-- What a closed trade has earned: `(exit - entry) * quantity` less its fees. -/
def profit (t : BacktestTrade) : ℚ :=
  (t.exitPrice.getD 0 - t.entryPrice) * t.quantity - t.fees

variable (rate : ℚ) (t : BacktestTrade)

/-- The fee of the entry at a rate. -/
def entryFee : ℚ := t.entryPrice * rate * t.quantity

/-- What an open trade has taken from the cash. -/
def outlay : ℚ := t.entryPrice * t.quantity + t.entryFee rate

/-- What the sale of a trade brings at a price. -/
def proceeds (price : ℚ) : ℚ := price * t.quantity - price * rate * t.quantity

/-- What a trade has earned, with the fees that follow from its prices. -/
def netProfit : ℚ := t.proceeds rate (t.exitPrice.getD 0) - t.outlay rate

/-- The size of what is paid at a price, and of its fee. -/
def volume (price : ℚ) : ℚ := |price * t.quantity| + |price * rate * t.quantity|

/-- The size of all that is paid for a trade. -/
def turnover : ℚ := t.volume rate t.entryPrice + t.volume rate (t.exitPrice.getD 0)

end BacktestTrade

namespace Backtest

variable {A : Arithmetic ℚ} {config : BacktestConfig} {strategy : BacktestStrategy}
  {candles : List Candle} {bar : Candle} {s s' : LoopState} {position : Position} {price : ℚ}
  {time : Time} {reason : String} {t : BacktestTrade}

/-! ### The open trade -/

/-- The open trade is the one of the position. -/
inductive Paired : Option Position → Option BacktestTrade → Prop
  | flat : Paired none none
  | held (p : Position) (t : BacktestTrade) (hprice : t.entryPrice = p.entryPrice)
      (hquantity : t.quantity = p.quantity) (htime : t.entryTime = p.openedAt) :
      Paired (some p) (some t)

theorem Paired.of_flat {trade : Option BacktestTrade} (h : Paired none trade) : trade = none := by
  cases h
  rfl

theorem Paired.of_held {trade : Option BacktestTrade} (h : Paired (some position) trade) :
    ∃ t, trade = some t ∧ t.entryPrice = position.entryPrice ∧ t.quantity = position.quantity ∧
      t.entryTime = position.openedAt := by
  cases h with
  | held _ t hprice hquantity htime => exact ⟨t, rfl, hprice, hquantity, htime⟩

/-- Selling the position closes its trade. -/
theorem Paired.exit (A : Arithmetic ℚ) (config : BacktestConfig) (price : ℚ) (time : Time)
    (reason : String) (h : Paired s.position s.openTrade) (hposition : s.position = some position) :
    ∃ t, s.openTrade = some t ∧ t.entryPrice = position.entryPrice ∧
      t.quantity = position.quantity ∧ t.entryTime = position.openedAt ∧
      (exitAt A config position price time reason s).trades =
        s.trades ++ [closed A config t position price time reason] := by
  rw [hposition] at h
  obtain ⟨t, htrade, hprice, hquantity, htime⟩ := h.of_held
  refine ⟨t, htrade, hprice, hquantity, htime, ?_⟩
  rw [exitAt, htrade]
  rfl

theorem Paired.markToMarket (h : Paired s.position s.openTrade) :
    Paired (markToMarket A bar s).position (markToMarket A bar s).openTrade := by
  simp only [Backtest.markToMarket]
  cases hposition : s.position with
  | none =>
    rw [hposition] at h
    rw [h.of_flat]
    exact .flat
  | some p =>
    rw [hposition] at h
    obtain ⟨t, htrade, hprice, hquantity, htime⟩ := h.of_held
    rw [htrade]
    exact .held _ t hprice hquantity htime

/-! ### Amounts with their fees -/

/-- A fee is rounded twice. -/
theorem fee_near (price rate quantity : ℚ) :
    A.Approx 2 |price * rate * quantity| (A.mul (A.mul price rate) quantity)
      (price * rate * quantity) := by
  have h := ((A.approx_round (price * rate)).mul (Approx.refl (le_refl |quantity|))).round
  rwa [← abs_mul] at h

/-- What is paid at a price, and its fee. -/
theorem cost_near (rate price : ℚ) :
    A.Approx 3 (t.volume rate price)
      (A.add (A.mul price t.quantity) (A.mul (A.mul price rate) t.quantity))
      (price * t.quantity + price * rate * t.quantity) :=
  (((A.approx_round (price * t.quantity)).mono (by norm_num) le_rfl).add
    (fee_near price rate t.quantity)).round

theorem proceeds_near (rate price : ℚ) :
    A.Approx 3 (t.volume rate price)
      (A.sub (A.mul price t.quantity) (A.mul (A.mul price rate) t.quantity))
      (t.proceeds rate price) :=
  (((A.approx_round (price * t.quantity)).mono (by norm_num) le_rfl).sub
    (fee_near price rate t.quantity)).round

/-! ### The closed trades -/

/-- A trade is recorded with its fees, and its `pnl` is what the prices give without the fee of
the entry. -/
structure Recorded (A : Arithmetic ℚ) (config : BacktestConfig) (t : BacktestTrade) : Prop where
  exited : t.exitPrice.isSome
  profit : A.Approx 3 (t.turnover config.feeRate) t.profit (t.netProfit config.feeRate)
  pnl : A.Approx 3 (t.turnover config.feeRate) t.pnl
    (t.netProfit config.feeRate + t.entryFee config.feeRate)

/-- The gain of the price, in one quantity. -/
theorem abs_gain_le (price : ℚ) :
    |(price - t.entryPrice) * t.quantity| ≤ |t.entryPrice * t.quantity| + |price * t.quantity| := by
  rw [sub_mul, add_comm]
  exact abs_sub _ _

/-- Selling a position records its trade. -/
theorem recorded_closed (hprice : t.entryPrice = position.entryPrice)
    (hquantity : t.quantity = position.quantity)
    (hfees : A.Approx 2 |t.entryFee config.feeRate| t.fees (t.entryFee config.feeRate)) :
    Recorded A config (closed A config t position price time reason) := by
  set fill := applyCosts A config price .sell with hfill
  have hexit := @fee_near A fill.price config.feeRate t.quantity
  have hgain := @abs_gain_le t fill.price
  refine ⟨rfl, ?_, ?_⟩
  · have hboth := (hfees.add hexit).round
    have hgain' := (Approx.refl (A := A) hgain).mono (Nat.zero_le 3) le_rfl
    convert (hgain'.sub hboth).mono le_rfl (le_of_eq ?_) using 1
    · simp only [closed, BacktestTrade.profit, Option.getD_some, ← hfill, ← hquantity]
      rfl
    · simp only [closed, BacktestTrade.netProfit, BacktestTrade.proceeds, BacktestTrade.outlay,
        BacktestTrade.entryFee, Option.getD_some, ← hfill]
      ring
    · simp only [closed, BacktestTrade.turnover, BacktestTrade.volume, BacktestTrade.entryFee,
        Option.getD_some, ← hfill]
      ring
  · have hsale := ((A.approx_round (fill.price - t.entryPrice)).mul
      (Approx.refl (A := A) (le_refl |t.quantity|))).round
    rw [← abs_mul] at hsale
    convert ((hsale.sub hexit).round).mono le_rfl ?_ using 1
    · simp only [closed, ← hfill, ← hquantity, ← hprice]
      rfl
    · simp only [closed, BacktestTrade.netProfit, BacktestTrade.proceeds, BacktestTrade.outlay,
        BacktestTrade.entryFee, Option.getD_some, ← hfill]
      ring
    · simp only [closed, BacktestTrade.turnover, BacktestTrade.volume, Option.getD_some, ← hfill]
      linarith [abs_nonneg (t.entryPrice * config.feeRate * t.quantity)]

/-! ### The cash -/

/-- What the cash accounts for: the initial cash, the profits and the open trade. -/
def LoopState.owned (s : LoopState) (config : BacktestConfig) : ℚ :=
  config.initialCash + (s.trades.map (BacktestTrade.netProfit config.feeRate)).sum -
    s.openTrade.elim 0 (BacktestTrade.outlay config.feeRate)

/-- The size of the numbers that the cash is computed from. -/
def LoopState.moved (s : LoopState) (config : BacktestConfig) : ℚ :=
  |config.initialCash| + (s.trades.map (BacktestTrade.turnover config.feeRate)).sum +
    s.openTrade.elim 0 fun t => t.volume config.feeRate t.entryPrice

/-- The cash accounts for every trade, with two roundings for each. -/
structure Accounted (A : Arithmetic ℚ) (config : BacktestConfig) (s : LoopState) : Prop where
  paired : Paired s.position s.openTrade
  recorded : ∀ t ∈ s.trades, Recorded A config t
  entered : ∀ t ∈ s.openTrade,
    A.Approx 2 |t.entryFee config.feeRate| t.fees (t.entryFee config.feeRate)
  cash : A.Approx (2 * s.trades.length + s.openTrade.elim 3 fun _ => 4) (s.moved config) s.cash
    (s.owned config)

theorem Accounted.start (A : Arithmetic ℚ) (config : BacktestConfig) :
    Accounted A config (start config) where
  paired := .flat
  recorded := fun _ ht => absurd ht List.not_mem_nil
  entered := fun t ht => absurd ht (Option.not_mem_none t)
  cash := by
    have h := (Approx.refl (A := A) (le_refl |config.initialCash|)).mono (Nat.zero_le 3) le_rfl
    simpa [Backtest.start, LoopState.moved, LoopState.owned] using h

theorem Accounted.exitAt (h : Accounted A config s) (hposition : s.position = some position) :
    Accounted A config (exitAt A config position price time reason s) := by
  obtain ⟨t, htrade, hprice, hquantity, -, htrades⟩ :=
    h.paired.exit A config price time reason hposition
  have hcash := h.cash
  simp only [LoopState.moved, LoopState.owned, htrade, Option.elim_some] at hcash
  refine ⟨.flat, ?_, fun t ht => absurd ht (Option.not_mem_none t), ?_⟩
  · intro t' ht'
    rw [htrades, List.mem_append, List.mem_singleton] at ht'
    rcases ht' with ht' | rfl
    · exact h.recorded t' ht'
    · exact recorded_closed hprice hquantity (h.entered t htrade)
  · -- the proceeds are rounded less often than the cash
    set fill := applyCosts A config price .sell with hfill
    have hproceeds := (@proceeds_near A t config.feeRate fill.price).mono
      (by omega : 3 ≤ 2 * s.trades.length + 4) le_rfl
    convert (hcash.add hproceeds).round using 1
    · rw [htrades, List.length_append, List.length_singleton]
      rfl
    · rw [LoopState.moved, htrades, List.map_append, List.sum_append, List.map_singleton,
        List.sum_singleton]
      simp only [Backtest.exitAt, Option.elim_none, closed, BacktestTrade.turnover,
        BacktestTrade.volume, Option.getD_some, ← hfill]
      ring
    · simp only [Backtest.exitAt, ← hfill, ← hquantity]
      rfl
    · rw [LoopState.owned, htrades, List.map_append, List.sum_append, List.map_singleton,
        List.sum_singleton]
      simp only [Backtest.exitAt, Option.elim_none, closed, BacktestTrade.netProfit,
        BacktestTrade.proceeds, BacktestTrade.outlay, BacktestTrade.entryFee, Option.getD_some,
        ← hfill]
      ring

theorem Accounted.markToMarket (h : Accounted A config s) :
    Accounted A config (markToMarket A bar s) where
  paired := h.paired.markToMarket
  recorded := h.recorded
  entered := h.entered
  cash := h.cash

theorem Accounted.opened {strategyName rationale : String} {signal : TradeSignal} {qty : ℚ}
    (h : Accounted A config s) (hflat : s.position = none) :
    Accounted A config (opened A config strategyName bar signal rationale qty s) := by
  have hnone : s.openTrade = none := (hflat ▸ h.paired : Paired none s.openTrade).of_flat
  have hcash := h.cash
  simp only [LoopState.moved, LoopState.owned, hnone, Option.elim_none, add_zero, sub_zero] at hcash
  set s' := Backtest.opened A config strategyName bar signal rationale qty s with hs'
  obtain ⟨t, htrade⟩ : ∃ t, s'.openTrade = some t := ⟨_, rfl⟩
  have ht := Option.some.inj htrade
  refine ⟨.held _ _ rfl rfl rfl, h.recorded, ?_, ?_⟩
  · rintro t' ht'
    rw [← Option.some.inj ht']
    exact fee_near _ _ _
  · have hcost := (@cost_near A t config.feeRate t.entryPrice).mono
      (by omega : 3 ≤ 2 * s.trades.length + 3) le_rfl
    convert (hcash.sub hcost).round using 1
    · rw [htrade]
      rfl
    · rw [LoopState.moved, htrade]
      rfl
    · rw [← ht]
      rfl
    · rw [LoopState.owned, htrade]
      rfl

theorem Accounted.checked (h : Accounted A config s) (hchecks : Checks A config bar s s') :
    Accounted A config s' := by
  cases hchecks with
  | kept => exact h
  | exited position price reason hposition => exact h.exitAt hposition

theorem Accounted.acted {window : List Candle} (h : Accounted A config s)
    (hacts : Acts A config strategy window bar s s') : Accounted A config s' := by
  cases hacts with
  | kept => exact h
  | opened rationale qty hflat => exact h.opened hflat
  | exited position rationale hposition => exact h.exitAt hposition

/-- The invariant holds after any number of bars. -/
theorem accounted_after {k : ℕ} (hk : k ≤ candles.length)
    (h : after A config strategy candles k = .ok s) : Accounted A config s :=
  after_induction (P := fun _ s => Accounted A config s) (.start A config)
    (fun _ _ _ _ h hchecks _ hacts => (h.checked hchecks).markToMarket.acted hacts) hk h

/-- At the end nothing is open. -/
theorem accounted_final (hne : candles ≠ []) (h : final A config strategy candles = .ok s) :
    Accounted A config s ∧ s.openTrade = none := by
  obtain ⟨s₀, hs₀, hends⟩ := final_ends hne h
  have hafter : Accounted A config s₀ := accounted_after le_rfl hs₀
  cases hends with
  | flat hflat => exact ⟨hafter, (hflat ▸ hafter.paired : Paired none s.openTrade).of_flat⟩
  | exited position bar hposition => exact ⟨hafter.exitAt hposition, rfl⟩

/-- The final cash, but for rounding. -/
theorem cash_final (hne : candles ≠ []) (h : final A config strategy candles = .ok s) :
    A.Approx (2 * s.trades.length + 3)
      (|config.initialCash| + (s.trades.map (BacktestTrade.turnover config.feeRate)).sum) s.cash
      (config.initialCash + (s.trades.map (BacktestTrade.netProfit config.feeRate)).sum) := by
  obtain ⟨haccounted, hnone⟩ := accounted_final hne h
  have hcash := haccounted.cash
  simpa only [LoopState.moved, LoopState.owned, hnone, Option.elim_none, add_zero, sub_zero]
    using hcash

/-- How far the profits of a run are from the change of its cash at most. -/
def slack (A : Arithmetic ℚ) (config : BacktestConfig) (trades : List BacktestTrade) : ℚ :=
  A.drift (2 * trades.length + 7) *
    (2 * |config.initialCash| + (trades.map (BacktestTrade.turnover config.feeRate)).sum)

/-- **Cash conservation**: whatever closes the trades of a run, the change of the cash is the sum
of their profits, and `net_return` is this sum, but for the roundings of the arithmetic. -/
theorem cash_conserved {numerics : Numerics} {r : BacktestResult}
    (h : run A config strategy numerics candles = .ok r) :
    ∃ s, final A config strategy candles = .ok s ∧ (∀ t ∈ r.trades, t.exitPrice.isSome) ∧
      |s.cash - config.initialCash - (r.trades.map BacktestTrade.profit).sum| ≤
        slack A config r.trades ∧
      |r.metrics.netReturn - (r.trades.map BacktestTrade.profit).sum| ≤
        slack A config r.trades := by
  obtain ⟨hne, s, x, hfinal, rfl⟩ := run_eq_ok h
  have hrecorded := (accounted_final hne hfinal).1.recorded
  have hprofits : A.Approx 3 (s.trades.map (BacktestTrade.turnover config.feeRate)).sum
      (s.trades.map BacktestTrade.profit).sum
      (s.trades.map (BacktestTrade.netProfit config.feeRate)).sum :=
    Approx.list_sum fun t ht => (hrecorded t ht).profit
  have hchange : A.Approx (2 * s.trades.length + 3)
      (2 * |config.initialCash| + (s.trades.map (BacktestTrade.turnover config.feeRate)).sum)
      (s.cash - config.initialCash)
      (s.trades.map (BacktestTrade.netProfit config.feeRate)).sum := by
    have hinitial := (Approx.refl (A := A) (le_refl |config.initialCash|)).mono
      (Nat.zero_le (2 * s.trades.length + 3)) le_rfl
    convert (cash_final hne hfinal).sub hinitial using 1 <;> ring
  have hprofits' := hprofits.mono le_rfl
    (le_add_of_nonneg_left (mul_nonneg zero_le_two (abs_nonneg config.initialCash)))
  have hreturn : A.Approx (2 * s.trades.length + 4)
      (2 * |config.initialCash| + (s.trades.map (BacktestTrade.turnover config.feeRate)).sum)
      (A.sub s.cash config.initialCash)
      (s.trades.map (BacktestTrade.netProfit config.feeRate)).sum := hchange.round
  have hcount : 2 * s.trades.length + 4 + 3 ≤ 2 * s.trades.length + 7 := le_rfl
  refine ⟨s, hfinal, fun t ht => (hrecorded t ht).exited, ?_, ?_⟩
  · exact ((hchange.mono (Nat.le_succ _) le_rfl).abs_sub_computed_le hprofits').trans
      (mul_le_mul_of_nonneg_right (A.drift_mono hcount) hchange.nonneg)
  · exact (hreturn.abs_sub_computed_le hprofits').trans
      (mul_le_mul_of_nonneg_right (A.drift_mono hcount) hchange.nonneg)

/-- All four ways to close a trade, in one run. -/
theorem cash_conserved_every_exit :
    ∃ r, run decimal28 {} everyBar (.growing (27948821714136827 / 10 ^ 16)) touchingBars = .ok r ∧
      r.trades.map BacktestTrade.reason = ["stop-loss", "take-profit", "fourth bar", "end-of-data"] ∧
      r.metrics.netReturn ≠ 0 ∧
      |r.metrics.netReturn - (r.trades.map BacktestTrade.profit).sum| ≤ 1 / 10 ^ 20 := by
  have hruns : (run decimal28 {} everyBar (.growing (27948821714136827 / 10 ^ 16))
      touchingBars).toOption.any fun r =>
        r.trades.map BacktestTrade.reason =
          ["stop-loss", "take-profit", "fourth bar", "end-of-data"] ∧
        r.metrics.netReturn ≠ 0 ∧ slack decimal28 {} r.trades ≤ 1 / 10 ^ 20 := by decide +kernel
  obtain ⟨r, hrun, hvalues⟩ := Except.exists_of_any_toOption hruns
  obtain ⟨hreasons, hreturn, hslack⟩ := of_decide_eq_true hvalues
  obtain ⟨-, -, -, -, hnet⟩ := cash_conserved hrun
  exact ⟨r, hrun, hreasons, hreturn, hnet.trans hslack⟩

/-- **Decimals lose some of the cash**: one trade of a million at a small price. -/
theorem cash_not_conserved_exactly :
    ∃ r s, run decimal28 { initialCash := 1000000 } buyWhenFlat
        (.growing (-11032206279189971 / 10 ^ 17)) (hourly [0.12345678, 0.12345679]) = .ok r ∧
      final decimal28 { initialCash := 1000000 } buyWhenFlat (hourly [0.12345678, 0.12345679]) =
        .ok s ∧
      s.cash - 1000000 = (r.trades.map BacktestTrade.profit).sum - 6 / 10 ^ 23 ∧
      r.metrics.netReturn = (r.trades.map BacktestTrade.profit).sum - 6 / 10 ^ 23 := by
  have hruns : (run decimal28 { initialCash := 1000000 } buyWhenFlat
      (.growing (-11032206279189971 / 10 ^ 17)) (hourly [0.12345678, 0.12345679])).toOption.any
        fun r => r.metrics.netReturn = (r.trades.map BacktestTrade.profit).sum - 6 / 10 ^ 23 ∧
          (r.trades.map BacktestTrade.profit).sum = -31999191295447866115859994 / 10 ^ 23 := by
    decide +kernel
  have hfinals : (final decimal28 { initialCash := 1000000 } buyWhenFlat
      (hourly [0.12345678, 0.12345679])).toOption.any
        fun s => s.cash - 1000000 = -319991912954478661158600 / 10 ^ 21 := by
    decide +kernel
  obtain ⟨r, hrun, hvalues⟩ := Except.exists_of_any_toOption hruns
  obtain ⟨s, hfinal, hcash⟩ := Except.exists_of_any_toOption hfinals
  obtain ⟨hreturn, hsum⟩ := of_decide_eq_true hvalues
  refine ⟨r, s, hrun, hfinal, ?_, hreturn⟩
  rw [of_decide_eq_true hcash, hsum]
  norm_num

end Backtest

end Atlas
