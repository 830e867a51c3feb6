import Mathlib.Algebra.Order.BigOperators.Group.List
import Mathlib.Algebra.BigOperators.Ring.List
import Mathlib.Tactic.Linarith
import Mathlib.Tactic.Ring
import Atlas.Backtest.Cash

/-!
# What the trades explain

The profit that a trade reports, `pnl`, is its price difference less the fee of its exit.
The fee of its entry has left the cash when the position was opened, and stands in the
trade's `fees` only.  So the profits reported by the trades, and with them the expectancy,
exceed the change of the equity by the entry fees, but for the roundings of the arithmetic.

## Main definitions

* `Entered`, `Bought` — the invariant of the loop.
* `Enters` — the flat account would buy on a bar.
* `explainSlack` — what the roundings of a run come to at most.

## Main results

* `sum_pnl_near`, `expectancy_near` — the reported profits are the change of the equity and the
  entry fees.
* `trades_eq_nil_iff` — when a run trades at all.
* `metrics_explain_iff` — **when the reported profits explain the equity**.
-/

namespace Atlas

open Arithmetic

namespace Backtest

variable {A : Arithmetic ℚ} {config : BacktestConfig} {strategy : BacktestStrategy}
  {candles window : List Candle} {bar : Candle} {s s' : LoopState} {position : Position} {price : ℚ}
  {time : Time} {reason : String} {k : ℕ}

/-! ### Entries -/

/-- The price of a buy for one unit of the mark. -/
def buyFactor (config : BacktestConfig) : ℚ := 1 + config.spreadRate / 2 + config.slippageRate

/-- The trade is a buy of a positive quantity at a positive mark. -/
def Entered (A : Arithmetic ℚ) (config : BacktestConfig) (t : BacktestTrade) : Prop :=
  ∃ mark, 0 < mark ∧ t.entryPrice = (applyCosts A config mark .buy).price ∧ 0 < t.quantity

/-- Every trade has been entered. -/
structure Bought (A : Arithmetic ℚ) (config : BacktestConfig) (s : LoopState) : Prop where
  paired : Paired s.position s.openTrade
  entered : ∀ t ∈ s.openTrade, Entered A config t
  settled : ∀ t ∈ s.trades, Entered A config t

theorem Bought.start (A : Arithmetic ℚ) (config : BacktestConfig) :
    Bought A config (start config) where
  paired := .flat
  entered := fun t ht => absurd ht (Option.not_mem_none t)
  settled := fun _ ht => absurd ht List.not_mem_nil

theorem Bought.exitAt (h : Bought A config s) (hposition : s.position = some position) :
    Bought A config (exitAt A config position price time reason s) := by
  obtain ⟨t, htrade, -, -, -, htrades⟩ := h.paired.exit A config price time reason hposition
  refine ⟨.flat, fun t ht => absurd ht (Option.not_mem_none t), ?_⟩
  intro t' ht'
  rw [htrades, List.mem_append, List.mem_singleton] at ht'
  rcases ht' with ht' | rfl
  · exact h.settled t' ht'
  · exact h.entered t htrade

theorem Bought.markToMarket (h : Bought A config s) : Bought A config (markToMarket A bar s) where
  paired := h.paired.markToMarket
  entered := h.entered
  settled := h.settled

/-- A size above zero is that of a positive mark. -/
theorem mark_pos_of_size {cash qty : ℚ} (hsize : sizePosition A config cash price = .ok qty)
    (hqty : 0 < qty) : 0 < price := by
  by_contra hle
  rw [sizePosition, if_pos (not_lt.mp hle)] at hsize
  exact hqty.ne (Except.ok.inj hsize)

theorem Bought.checked (h : Bought A config s) (hchecks : Checks A config bar s s') :
    Bought A config s' := by
  cases hchecks with
  | kept => exact h
  | exited position price reason hposition => exact h.exitAt hposition

theorem Bought.acted (h : Bought A config s) (hacts : Acts A config strategy window bar s s') :
    Bought A config s' := by
  cases hacts with
  | kept => exact h
  | opened rationale qty hflat hsize hqty =>
    refine ⟨.held _ _ rfl rfl rfl, ?_, h.settled⟩
    rintro t ⟨⟩
    exact ⟨bar.close, mark_pos_of_size hsize hqty, rfl, hqty⟩
  | exited position rationale hposition => exact h.exitAt hposition

theorem bought_after (hk : k ≤ candles.length) (h : after A config strategy candles k = .ok s) :
    Bought A config s :=
  after_induction (P := fun _ s => Bought A config s) (.start A config)
    (fun _ _ _ _ h hchecks _ hacts => (h.checked hchecks).markToMarket.acted hacts) hk h

theorem bought_final (hne : candles ≠ []) (h : final A config strategy candles = .ok s) :
    Bought A config s := by
  obtain ⟨s₀, hs₀, hends⟩ := final_ends hne h
  have hafter : Bought A config s₀ := bought_after le_rfl hs₀
  cases hends with
  | flat => exact hafter
  | exited position bar hposition => exact hafter.exitAt hposition

/-! ### What the profits are -/

/-- How far the reported profits are from the change of the equity and the entry fees at most. -/
def explainSlack (A : Arithmetic ℚ) (config : BacktestConfig) (trades : List BacktestTrade) : ℚ :=
  A.drift (3 * trades.length + 7) *
    (2 * |config.initialCash| + (trades.map (BacktestTrade.turnover config.feeRate)).sum)

/-- The profits and the entry fees of some trades. -/
def pnlSum (config : BacktestConfig) (trades : List BacktestTrade) : ℚ :=
  (trades.map fun t => t.netProfit config.feeRate + t.entryFee config.feeRate).sum

/-- The change of the equity and the entry fees are what the trades have earned. -/
theorem change_near (hne : candles ≠ []) (h : final A config strategy candles = .ok s) :
    A.Approx (2 * s.trades.length + 3)
      (2 * |config.initialCash| + (s.trades.map (BacktestTrade.turnover config.feeRate)).sum)
      (s.cash - config.initialCash + (s.trades.map (BacktestTrade.entryFee config.feeRate)).sum)
      (pnlSum config s.trades) := by
  have hcash := cash_final hne h
  have hpnl : A.Approx 3 (s.trades.map (BacktestTrade.turnover config.feeRate)).sum
      (s.trades.map BacktestTrade.pnl).sum (pnlSum config s.trades) :=
    Approx.list_sum fun t ht => ((accounted_final hne h).1.recorded t ht).pnl
  refine ⟨hpnl.size.trans (le_add_of_nonneg_left
    (mul_nonneg zero_le_two (abs_nonneg config.initialCash))), ?_⟩
  rw [pnlSum, List.sum_map_add]
  have hchange : s.cash - config.initialCash +
      (s.trades.map (BacktestTrade.entryFee config.feeRate)).sum -
        ((s.trades.map (BacktestTrade.netProfit config.feeRate)).sum +
          (s.trades.map (BacktestTrade.entryFee config.feeRate)).sum) =
      s.cash - (config.initialCash +
        (s.trades.map (BacktestTrade.netProfit config.feeRate)).sum) := by ring
  rw [hchange]
  refine hcash.near.trans (mul_le_mul_of_nonneg_left ?_ (A.drift_nonneg _))
  linarith [abs_nonneg config.initialCash]

/-- **The reported profits** are the change of the equity and the entry fees. -/
theorem sum_pnl_near (hne : candles ≠ []) (h : final A config strategy candles = .ok s) :
    |(s.trades.map BacktestTrade.pnl).sum - (s.cash - config.initialCash +
        (s.trades.map (BacktestTrade.entryFee config.feeRate)).sum)| ≤
      explainSlack A config s.trades := by
  have hchange := change_near hne h
  have hpnl : A.Approx 3 (s.trades.map (BacktestTrade.turnover config.feeRate)).sum
      (s.trades.map BacktestTrade.pnl).sum (pnlSum config s.trades) :=
    Approx.list_sum fun t ht => ((accounted_final hne h).1.recorded t ht).pnl
  have hpnl' := hpnl.mono le_rfl
    (le_add_of_nonneg_left (mul_nonneg zero_le_two (abs_nonneg config.initialCash)))
  exact (hpnl'.abs_sub_computed_le hchange).trans
    (mul_le_mul_of_nonneg_right (A.drift_mono (by omega)) hchange.nonneg)

/-- A mean, as often as it is one of, is what the sum is of, with one rounding more. -/
theorem mean_mul_length_near {xs : List ℚ} {m : ℕ} {M b : ℚ} (h : A.Approx m M (A.sum xs) b) :
    A.Approx (m + 1) M (mean A xs * xs.length) b := by
  by_cases hnil : xs = []
  · subst hnil
    simpa [mean, Arithmetic.sum] using h.mono (Nat.le_succ m) le_rfl
  · have hlength : (xs.length : ℚ) ≠ 0 := by simpa using hnil
    have hmean := (h.div_const xs.length).round.mul
      (Approx.refl (A := A) (le_refl |(xs.length : ℚ)|))
    rw [div_mul_cancel₀ _ (abs_ne_zero.mpr hlength), div_mul_cancel₀ _ hlength] at hmean
    rw [mean, if_neg hnil]
    exact hmean

/-- **The expectancy**, as often as there are trades, is the change of the equity and the entry
fees. -/
theorem expectancy_near (hne : candles ≠ []) (h : final A config strategy candles = .ok s) :
    |mean A (s.trades.map BacktestTrade.pnl) * s.trades.length - (s.cash - config.initialCash +
        (s.trades.map (BacktestTrade.entryFee config.feeRate)).sum)| ≤
      explainSlack A config s.trades := by
  have hchange := change_near hne h
  have hsum : A.Approx (3 + s.trades.length)
      (s.trades.map (BacktestTrade.turnover config.feeRate)).sum
      (A.sum (s.trades.map BacktestTrade.pnl)) (pnlSum config s.trades) :=
    Approx.sum fun t ht => ((accounted_final hne h).1.recorded t ht).pnl
  have hmean := (mean_mul_length_near hsum).mono le_rfl
    (le_add_of_nonneg_left (mul_nonneg zero_le_two (abs_nonneg config.initialCash)))
  rw [List.length_map] at hmean
  exact (hmean.abs_sub_computed_le hchange).trans
    (mul_le_mul_of_nonneg_right (A.drift_mono (by omega)) hchange.nonneg)

/-- Without roundings, the entry fees add up to zero only if there are none. -/
theorem sum_entryFee_eq_zero {trades : List BacktestTrade}
    (h : ∀ t ∈ trades, Entered exact config t) :
    (trades.map (BacktestTrade.entryFee config.feeRate)).sum = 0 ↔
      config.feeRate = 0 ∨ buyFactor config = 0 ∨ trades = [] := by
  -- each fee is the product of the two rates and a positive amount
  have hshare : ∃ amounts : List ℚ, amounts.length = trades.length ∧ (∀ a ∈ amounts, 0 < a) ∧
      (trades.map (BacktestTrade.entryFee config.feeRate)).sum =
        buyFactor config * config.feeRate * amounts.sum := by
    induction trades with
    | nil => exact ⟨[], rfl, fun a ha => absurd ha List.not_mem_nil, by simp⟩
    | cons t trades ih =>
      obtain ⟨amounts, hlength, hpos, hsum⟩ := ih fun t' ht' => h t' (List.mem_cons_of_mem _ ht')
      obtain ⟨mark, hmark, hprice, hqty⟩ := h t List.mem_cons_self
      refine ⟨mark * t.quantity :: amounts, by rw [List.length_cons, hlength, List.length_cons],
        ?_, ?_⟩
      · intro a ha
        rcases List.mem_cons.1 ha with rfl | ha
        · exact mul_pos hmark hqty
        · exact hpos a ha
      · rw [List.map_cons, List.sum_cons, List.sum_cons, hsum, BacktestTrade.entryFee, hprice]
        simp only [applyCosts, exact_add, exact_mul, exact_div, buyFactor]
        ring
  obtain ⟨amounts, hlength, hpos, hsum⟩ := hshare
  rw [hsum, mul_eq_zero, mul_eq_zero]
  have hamounts : amounts.sum = 0 ↔ trades = [] := by
    rw [← List.length_eq_zero_iff, ← hlength, List.length_eq_zero_iff]
    constructor
    · intro hzero
      by_contra hne
      exact (List.sum_pos amounts hpos hne).ne' hzero
    · rintro rfl
      rfl
  rw [hamounts]
  tauto

/-! ### Runs that trade -/

/-- The flat account with the initial cash buys on bar `k`: the strategy says so, the size is
positive, and the cash covers it. -/
def Enters (A : Arithmetic ℚ) (config : BacktestConfig) (strategy : BacktestStrategy)
    (candles : List Candle) (k : ℕ) (bar : Candle) : Prop :=
  (strategy.signal (context A (candles.take (k + 1)) bar
      (markToMarket A bar (start config)))).direction = .buy ∧
    ∃ qty, sizePosition A config config.initialCash bar.close = .ok qty ∧ 0 < qty ∧
      entryCost A config bar.close qty ≤ config.initialCash

/-- The account as before the loop, but for the equity curve, and a peak that the equity is not
above. -/
structure Untouched (A : Arithmetic ℚ) (config : BacktestConfig) (s : LoopState) : Prop where
  cash : s.cash = config.initialCash
  position : s.position = none
  openTrade : s.openTrade = none
  trades : s.trades = []
  barsHeld : s.barsHeld = 0
  peak : max s.peak (A.round config.initialCash) =
    max config.initialCash (A.round config.initialCash)

theorem Untouched.start (A : Arithmetic ℚ) (config : BacktestConfig) :
    Untouched A config (start config) :=
  ⟨rfl, rfl, rfl, rfl, rfl, rfl⟩

/-- The equity of a flat account. -/
theorem Untouched.equity (h : Untouched A config s) (mark : ℚ) :
    s.equity A mark = A.round config.initialCash := by
  simp only [LoopState.equity, h.position, h.cash, Option.elim_none, Arithmetic.add, add_zero]

theorem Untouched.markToMarket (h : Untouched A config s) :
    Untouched A config (markToMarket A bar s) where
  cash := h.cash
  position := by simp [Backtest.markToMarket, h.position]
  openTrade := h.openTrade
  trades := h.trades
  barsHeld := by simp [Backtest.markToMarket, h.position, h.barsHeld]
  peak := by simp only [Backtest.markToMarket, h.equity, max_assoc, max_self, h.peak]

theorem Untouched.checkStops (h : Untouched A config s) : checkStops A config bar s = s := by
  rw [Backtest.checkStops, h.position]

/-- The strategy is shown the same as on the first bar. -/
theorem Untouched.context (h : Untouched A config s) (window : List Candle) (bar : Candle) :
    context A window bar (Backtest.markToMarket A bar s) =
      context A window bar (Backtest.markToMarket A bar (Backtest.start config)) := by
  have hs : Untouched A config (Backtest.markToMarket A bar s) := h.markToMarket
  have hstart : Untouched A config (Backtest.markToMarket A bar (Backtest.start config)) :=
    (Untouched.start A config).markToMarket
  have hpeak : (Backtest.markToMarket A bar s).peak =
      (Backtest.markToMarket A bar (Backtest.start config)).peak := by
    simp only [Backtest.markToMarket, h.equity, (Untouched.start A config).equity, h.peak,
      (Untouched.start A config).peak]
  simp only [Backtest.context, hs.equity, hstart.equity, hs.cash, hstart.cash, hs.position,
    hstart.position, hs.barsHeld, hstart.barsHeld, hpeak]

/-- The account has traded. -/
def Traded (s : LoopState) : Prop := s.openTrade.isSome ∨ s.trades ≠ []

/-- A flat account acts on a buy signal only. -/
theorem act_of_flat (hflat : s.position = none) :
    act A config strategy window bar s =
      if (strategy.signal (context A window bar s)).direction = .buy then
        enter A config strategy.name bar (strategy.signal (context A window bar s))
          (strategy.entryRationale (context A window bar s)) s
      else .ok s := by
  unfold act
  cases hdirection : (strategy.signal (context A window bar s)).direction with
  | buy => simp only [hdirection, hflat, if_true]
  | sell => simp only [hdirection, hflat, reduceCtorEq, if_false]
  | exit => simp only [hdirection, hflat, reduceCtorEq, if_false]
  | hold => simp only [hdirection, hflat, reduceCtorEq, if_false]

/-- A bar leaves the account untouched, or trades if the flat account buys on it. -/
theorem Untouched.step (h : Untouched A config s)
    (hact : act A config strategy (candles.take (k + 1)) bar
      (Backtest.markToMarket A bar (Backtest.checkStops A config bar s)) = .ok s') :
    (Enters A config strategy candles k bar → Traded s') ∧
      (¬Enters A config strategy candles k bar → Untouched A config s') := by
  have hmarked : Untouched A config (Backtest.markToMarket A bar s) := h.markToMarket
  rw [h.checkStops, act_of_flat hmarked.position, h.context, enter, hmarked.cash] at hact
  split_ifs at hact with hbuy
  · obtain ⟨qty, hsize, hact⟩ := Except.bind_eq_ok.mp hact
    split_ifs at hact with henters
    · rw [← Except.ok.inj hact]
      exact ⟨fun _ => .inl rfl, fun hnot => absurd ⟨hbuy, qty, hsize, henters⟩ hnot⟩
    · rw [← Except.ok.inj hact]
      refine ⟨?_, fun _ => hmarked⟩
      rintro ⟨-, qty', hsize', henters'⟩
      rw [hsize] at hsize'
      exact absurd (Except.ok.inj hsize' ▸ henters') henters
  · rw [← Except.ok.inj hact]
    exact ⟨fun henters => absurd henters.1 hbuy, fun _ => hmarked⟩

theorem Traded.exitAt (h : Traded s) : Traded (exitAt A config position price time reason s) := by
  refine .inr ?_
  simp only [Backtest.exitAt, ne_eq, List.append_eq_nil_iff, not_and]
  intro hnil
  obtain ⟨t, ht⟩ := Option.isSome_iff_exists.1 (h.resolve_right (not_not.2 hnil))
  rw [ht]
  exact List.cons_ne_nil _ _

theorem Traded.checked (h : Traded s) (hchecks : Checks A config bar s s') : Traded s' := by
  cases hchecks with
  | kept => exact h
  | exited => exact h.exitAt

theorem Traded.acted (h : Traded s) (hacts : Acts A config strategy window bar s s') :
    Traded s' := by
  cases hacts with
  | kept => exact h
  | opened => exact .inl rfl
  | exited => exact h.exitAt

/-- After some bars the account has traded if it entered on one of them, and is untouched
otherwise. -/
theorem traded_after (hk : k ≤ candles.length) (h : after A config strategy candles k = .ok s) :
    ((∃ i, ∃ hi : i < candles.length, i < k ∧ Enters A config strategy candles i candles[i]) ∧
        Traded s) ∨
      ((∀ i (hi : i < candles.length), i < k → ¬Enters A config strategy candles i candles[i]) ∧
        Untouched A config s) := by
  induction k generalizing s with
  | zero =>
    rw [← Except.ok.inj h]
    exact .inr ⟨fun i _ hi => absurd hi i.not_lt_zero, .start A config⟩
  | succ k ih =>
    obtain ⟨s₀, hs₀, hact⟩ := after_succ_eq_ok hk h
    rcases ih (Nat.le_of_succ_le hk) hs₀ with ⟨⟨i, hi, hik, henters⟩, htraded⟩ | ⟨hnone, hflat⟩
    · have hchecked : Traded (checkStops A config candles[k] s₀) :=
        htraded.checked (checkStops_checks A config ..)
      have hmarked : Traded (markToMarket A candles[k] (checkStops A config candles[k] s₀)) :=
        hchecked
      exact .inl ⟨⟨i, hi, hik.trans (Nat.lt_succ_self k), henters⟩, hmarked.acted (act_acts hact)⟩
    · obtain ⟨hin, hout⟩ := hflat.step hact
      by_cases henters : Enters A config strategy candles k candles[k]
      · exact .inl ⟨⟨k, hk, Nat.lt_succ_self k, henters⟩, hin henters⟩
      · refine .inr ⟨fun i hi hik => ?_, hout henters⟩
        rcases Nat.lt_succ_iff_lt_or_eq.1 hik with hlt | rfl
        · exact hnone i hi hlt
        · exact henters

/-- A run trades exactly if the flat account enters on some bar. -/
theorem trades_eq_nil_iff (hne : candles ≠ []) (h : final A config strategy candles = .ok s) :
    s.trades = [] ↔
      ∀ i (hi : i < candles.length), ¬Enters A config strategy candles i candles[i] := by
  have hclosed : s.openTrade = none := (accounted_final hne h).2
  obtain ⟨s₀, hs₀, hends⟩ := final_ends hne h
  rcases traded_after le_rfl hs₀ with ⟨⟨i, hi, -, henters⟩, htraded⟩ | ⟨hnone, hflat⟩
  · -- what is entered is a trade, at the latest when the data ends
    have htrades : s.trades ≠ [] := by
      have hfinal : Traded s := by
        cases hends with
        | flat => exact htraded
        | exited => exact htraded.exitAt
      rw [Traded, hclosed] at hfinal
      exact hfinal.resolve_left Bool.false_ne_true
    exact iff_of_false htrades fun h => h i hi henters
  · refine iff_of_true ?_ fun i hi => hnone i hi hi
    cases hends with
    | flat => exact hflat.trades
    | exited position bar hposition =>
      rw [hflat.position] at hposition
      cases hposition

/-! ### The metrics -/

/-- Without roundings a slack of nothing is left. -/
theorem explainSlack_exact (config : BacktestConfig) (trades : List BacktestTrade) :
    explainSlack exact config trades = 0 := by
  rw [explainSlack, exact_drift, zero_mul]

/-- **When the reported profits explain the equity.**  Their sum, and the expectancy times the
trade count, are the final equity less the initial cash and the fees of the entries, but for
rounding.  So, the roundings aside, they explain the change of the equity exactly if nothing is
charged on an entry: there are no fees, the costs of a buy bring its price to zero, or the flat
account never enters. -/
theorem metrics_explain_iff (config : BacktestConfig) (strategy : BacktestStrategy)
    (numerics : Numerics) (candles : List Candle) :
    (∀ A r, run A config strategy numerics candles = .ok r →
      ∃ s, final A config strategy candles = .ok s ∧
        |(r.trades.map BacktestTrade.pnl).sum - (s.cash - config.initialCash +
            (r.trades.map (BacktestTrade.entryFee config.feeRate)).sum)| ≤
          explainSlack A config r.trades ∧
        |r.metrics.expectancy * r.metrics.tradeCount - (s.cash - config.initialCash +
            (r.trades.map (BacktestTrade.entryFee config.feeRate)).sum)| ≤
          explainSlack A config r.trades) ∧
    ∀ r, run exact config strategy numerics candles = .ok r →
      ∃ s, final exact config strategy candles = .ok s ∧
        ((r.trades.map BacktestTrade.pnl).sum = s.cash - config.initialCash ∧
            r.metrics.expectancy * r.metrics.tradeCount = s.cash - config.initialCash ↔
          config.feeRate = 0 ∨ buyFactor config = 0 ∨
            ∀ i (hi : i < candles.length),
              ¬Enters exact config strategy candles i candles[i]) := by
  constructor
  · intro A r hrun
    obtain ⟨hne, s, x, hfinal, rfl⟩ := run_eq_ok hrun
    exact ⟨s, hfinal, sum_pnl_near hne hfinal, expectancy_near hne hfinal⟩
  · intro r hrun
    obtain ⟨hne, s, x, hfinal, rfl⟩ := run_eq_ok hrun
    have hpnl := sum_pnl_near hne hfinal
    have hexpectancy := expectancy_near hne hfinal
    rw [explainSlack_exact, abs_nonpos_iff, sub_eq_zero] at hpnl hexpectancy
    refine ⟨s, hfinal, ?_⟩
    simp only [metricsOf]
    -- profits and equity differ by the fees of the entries
    rw [hpnl, hexpectancy, and_self, add_eq_left,
      sum_entryFee_eq_zero (bought_final hne hfinal).settled, trades_eq_nil_iff hne hfinal]

/-- Without fees the profits of four trades explain the equity: exactly, and with decimals but for
their roundings. -/
theorem metrics_explain_iff_no_fees :
    (∃ r s, run exact { feeRate := 0 } everyBar (.growing (4090326524367907 / 10 ^ 15))
        touchingBars = .ok r ∧ final exact { feeRate := 0 } everyBar touchingBars = .ok s ∧
      r.trades.length = 4 ∧ (r.trades.map BacktestTrade.pnl).sum = s.cash - 10000) ∧
    ∃ r s, run decimal28 { feeRate := 0 } everyBar (.growing (4090326524367907 / 10 ^ 15))
        touchingBars = .ok r ∧ final decimal28 { feeRate := 0 } everyBar touchingBars = .ok s ∧
      |r.metrics.expectancy * r.metrics.tradeCount - (s.cash - 10000)| ≤ 1 / 10 ^ 20 := by
  constructor
  · have hruns : (run exact { feeRate := 0 } everyBar (.growing (4090326524367907 / 10 ^ 15))
        touchingBars).toOption.any fun r => r.trades.length = 4 := by decide +kernel
    obtain ⟨r, hrun, hlength⟩ := Except.exists_of_any_toOption hruns
    obtain ⟨s, hfinal, hexplain⟩ := (metrics_explain_iff _ _ _ _).2 r hrun
    exact ⟨r, s, hrun, hfinal, of_decide_eq_true hlength, (hexplain.2 (.inl rfl)).1⟩
  · have hruns : (run decimal28 { feeRate := 0 } everyBar (.growing (4090326524367907 / 10 ^ 15))
        touchingBars).toOption.any fun r =>
          (r.trades.map (BacktestTrade.entryFee 0)).sum = 0 ∧
            explainSlack decimal28 { feeRate := 0 } r.trades ≤ 1 / 10 ^ 20 := by decide +kernel
    obtain ⟨r, hrun, hvalues⟩ := Except.exists_of_any_toOption hruns
    obtain ⟨hfees, hslack⟩ := of_decide_eq_true hvalues
    obtain ⟨s, hfinal, -, hexpectancy⟩ := (metrics_explain_iff _ _ _ _).1 decimal28 r hrun
    rw [hfees, add_zero] at hexpectancy
    exact ⟨r, s, hrun, hfinal, hexpectancy.trans hslack⟩

/-- With the default fees they do not: the sum of four profits is above the change of the
equity. -/
theorem metrics_leave_entry_fees :
    ∃ r s, run decimal28 {} everyBar (.growing (27948821714136827 / 10 ^ 16)) touchingBars =
        .ok r ∧ final decimal28 {} everyBar touchingBars = .ok s ∧
      r.trades.length = 4 ∧ s.cash - 10000 + 4 < (r.trades.map BacktestTrade.pnl).sum ∧
      s.cash - 10000 + 4 < r.metrics.expectancy * r.metrics.tradeCount := by
  have hruns : (run decimal28 {} everyBar (.growing (27948821714136827 / 10 ^ 16))
      touchingBars).toOption.any fun r =>
        r.trades.length = 4 ∧ (36.58018183935982 : ℚ) + 4 < (r.trades.map BacktestTrade.pnl).sum ∧
          (36.58018183935982 : ℚ) + 4 < r.metrics.expectancy * r.metrics.tradeCount := by
    decide +kernel
  have hfinals : (final decimal28 {} everyBar touchingBars).toOption.any
      fun s => s.cash - 10000 = (36.58018183935982 : ℚ) := by decide +kernel
  obtain ⟨r, hrun, hvalues⟩ := Except.exists_of_any_toOption hruns
  obtain ⟨s, hfinal, hcash⟩ := Except.exists_of_any_toOption hfinals
  refine ⟨r, s, hrun, hfinal, ?_⟩
  rw [of_decide_eq_true hcash]
  exact of_decide_eq_true hvalues

end Backtest

end Atlas
