import Atlas.Backtest.Engine

/-!
# No look-ahead

The run over the first `k` candles and the run over all of them are in the same state after
`k` bars, since bar `i` reads `candles[: i+1]` and nothing else.  What the full run does
later only adds to the equity curve and to the trades.

The shorter run may still end differently: over a short time a gain is annualised to a number
of so many digits that it is not quantized, and the metrics of the run raise.

## Main results

* `after_take` — the two runs agree on the first `k` bars.
* `after_extends` — later bars only add.
* `no_look_ahead_iff` — **the first bars do not depend on the later ones**, and when the shorter
  run returns them.
-/

namespace Atlas.Backtest

open Arithmetic

variable {A : Arithmetic ℚ} {config : BacktestConfig} {strategy : BacktestStrategy}
  {numerics : Numerics} {candles window : List Candle} {bar : Candle} {s s' : LoopState}
  {i j k : ℕ}

/-! ### The same bars -/

/-- A bar of the shorter list is the same bar of the longer one. -/
theorem step_take (hi : i < k) :
    step A config strategy (candles.take k) s i = step A config strategy candles s i := by
  have hwindow : (candles.take k).take (i + 1) = candles.take (i + 1) := by
    rw [List.take_take, min_eq_left hi]
  rw [step, step, hwindow]

/-- The two runs agree on the first `k` bars. -/
theorem after_take (hj : j ≤ k) :
    after A config strategy (candles.take k) j = after A config strategy candles j := by
  induction j with
  | zero => rfl
  | succ j ih =>
    have hbefore := ih (Nat.le_of_succ_le hj)
    by_cases hlength : j < candles.length
    · have hshort : j < (candles.take k).length := by
        rw [List.length_take]
        exact lt_min hj hlength
      rw [after_succ hshort, after_succ hlength, hbefore]
      exact congrArg _ (funext fun s => step_take hj)
    · -- there are no more bars
      have hend : candles.length ≤ j := not_lt.mp hlength
      have hshort : (candles.take k).length ≤ j := (List.length_take_le' k candles).trans hend
      rw [after_of_le (Nat.le_succ_of_le hend), after_of_le (Nat.le_succ_of_le hshort),
        ← after_of_le hend, ← after_of_le hshort, hbefore]

/-! ### Later bars only add -/

/-- A state that has everything another one has recorded. -/
structure Extends (s s' : LoopState) : Prop where
  trades : s.trades <+: s'.trades
  equityCurve : s.equityCurve <+: s'.equityCurve

theorem Extends.refl (s : LoopState) : Extends s s := ⟨List.prefix_rfl, List.prefix_rfl⟩

theorem Extends.trans {s'' : LoopState} (h : Extends s s') (h' : Extends s' s'') :
    Extends s s'' := ⟨h.trades.trans h'.trades, h.equityCurve.trans h'.equityCurve⟩

theorem extends_exitAt {position : Position} {price : ℚ} {time : Time} {reason : String} :
    Extends s (exitAt A config position price time reason s) :=
  ⟨List.prefix_append .., List.prefix_rfl⟩

theorem Checks.extends (h : Checks A config bar s s') : Extends s s' := by
  cases h with
  | kept => exact .refl _
  | exited => exact extends_exitAt

theorem Checks.equityCurve (h : Checks A config bar s s') : s'.equityCurve = s.equityCurve := by
  cases h <;> rfl

theorem Acts.extends (h : Acts A config strategy window bar s s') : Extends s s' := by
  cases h with
  | kept => exact .refl _
  | opened => exact ⟨List.prefix_rfl, List.prefix_rfl⟩
  | exited => exact extends_exitAt

theorem Acts.equityCurve (h : Acts A config strategy window bar s s') :
    s'.equityCurve = s.equityCurve := by
  cases h <;> rfl

theorem extends_markToMarket : Extends s (markToMarket A bar s) :=
  ⟨List.prefix_rfl, List.prefix_append ..⟩

theorem after_extends (hjk : j ≤ k) (hs : after A config strategy candles j = .ok s)
    (hs' : after A config strategy candles k = .ok s') : Extends s s' := by
  induction k, hjk using Nat.le_induction generalizing s' with
  | base =>
    rw [hs] at hs'
    rw [Except.ok.inj hs']
    exact .refl _
  | succ k _ ih =>
    by_cases hk : k < candles.length
    · obtain ⟨s₀, hs₀, hact⟩ := after_succ_eq_ok hk hs'
      exact (ih hs₀).trans ((checkStops_checks A config ..).extends.trans
        (extends_markToMarket.trans (act_acts hact).extends))
    · -- there are no more bars
      have hend : candles.length ≤ k := not_lt.mp hk
      rw [after_of_le (Nat.le_succ_of_le hend), ← after_of_le hend] at hs'
      exact ih hs'

/-- A bar adds one point to the curve. -/
theorem length_equityCurve (hk : k ≤ candles.length)
    (h : after A config strategy candles k = .ok s) : s.equityCurve.length = k :=
  after_induction (P := fun k s => s.equityCurve.length = k) rfl
    (fun k _ s s' h hchecks s'' hacts => by
      rw [hacts.equityCurve, markToMarket, List.length_append, hchecks.equityCurve, h]
      rfl) hk h

/-- The first points of the curve are those of the first bars. -/
theorem equityCurve_take (hs : after A config strategy candles k = .ok s)
    (hs' : after A config strategy candles candles.length = .ok s') :
    s'.equityCurve.take k = s.equityCurve := by
  have hlength : s'.equityCurve.length = candles.length := length_equityCurve le_rfl hs'
  rcases le_total k candles.length with hk | hk
  · have hpoints : s.equityCurve <+: s'.equityCurve := (after_extends hk hs hs').equityCurve
    rw [List.prefix_iff_eq_take, length_equityCurve hk hs] at hpoints
    exact hpoints.symm
  · rw [after_of_le hk, hs'] at hs
    rw [List.take_of_length_le (by rw [hlength]; exact hk), Except.ok.inj hs]

/-! ### The run -/

/-- The end of the data adds at most one trade. -/
theorem Ends.adds (h : Ends A config candles s s') :
    ∃ forced : Option BacktestTrade, (∀ t ∈ forced, t.reason = "end-of-data") ∧
      s'.trades = s.trades ++ forced.toList ∧ s'.equityCurve = s.equityCurve := by
  cases h with
  | flat => exact ⟨none, by simp, (List.append_nil _).symm, rfl⟩
  | exited position bar =>
    refine ⟨s.openTrade.map fun t =>
      closed A config t position bar.close bar.openTime "end-of-data", ?_, rfl, rfl⟩
    intro t ht
    obtain ⟨t', -, rfl⟩ := Option.map_eq_some_iff.mp ht
    rfl

/-- What the run over the first bars returns, and when: its loop leaves the points and the
trades, and its end one more trade at most. -/
theorem shorter_run_iff {numerics : Numerics} (hne : candles ≠ [])
    (hs : after A config strategy (candles.take k) k = .ok s) :
    (∃ r' forced, run A config strategy numerics (candles.take k) = .ok r' ∧
        r'.equityCurve = s.equityCurve ∧ r'.trades = s.trades ++ Option.toList forced ∧
        ∀ t ∈ forced, t.reason = "end-of-data") ↔
      0 < k ∧ Quantizable A numerics s.equityCurve config.initialCash
        (forceClose A config (candles.take k) s).cash := by
  rcases k.eq_zero_or_pos with rfl | hk
  · -- the run over no bars raises
    refine iff_of_false ?_ fun hpos => absurd hpos.1 (lt_irrefl 0)
    rintro ⟨r', -, hrun, -⟩
    exact absurd (run_eq_ok hrun).1 (not_not.mpr List.take_zero)
  have hne' : candles.take k ≠ [] := by
    rw [Ne, List.take_eq_nil_iff]
    rintro (rfl | hnil)
    · exact absurd hk (lt_irrefl 0)
    · exact hne hnil
  have hfinal : final A config strategy (candles.take k) =
      .ok (forceClose A config (candles.take k) s) := by
    rw [final, ← after_of_le (List.length_take_le ..), hs]
    rfl
  have hends : Ends A config (candles.take k) s (forceClose A config (candles.take k) s) :=
    forceClose_ends hne' s
  obtain ⟨forced, hforced, htrades, hcurve⟩ := hends.adds
  have hreturns := @run_isOk_iff A config strategy (candles.take k) numerics hne'
  rw [and_iff_right hk]
  constructor
  · rintro ⟨r', -, hrun, -⟩
    obtain ⟨s₁, hs₁, hgrowth⟩ := hreturns.mp ⟨r', hrun⟩
    rw [hfinal] at hs₁
    rwa [← Except.ok.inj hs₁, hcurve] at hgrowth
  · intro hgrowth
    obtain ⟨r', hrun⟩ := hreturns.mpr ⟨_, hfinal, by rwa [hcurve]⟩
    obtain ⟨-, s₁, y, hs₁, hr'⟩ := run_eq_ok hrun
    rw [hfinal] at hs₁
    rw [← Except.ok.inj hs₁] at hr'
    refine ⟨r', forced, hrun, ?_, ?_, hforced⟩
    · rw [hr', ← hcurve]
    · rw [hr', ← htrades]

/-- **No look-ahead.**  After the first `k` bars the run over them and the run over all candles
are in the same state, which has the first `k` points of the equity curve and the first trades
of the full run.  The shorter run returns them, and then at most the trade of its own end, if it
has a bar and the growth of these bars, annualised, can be quantized; it raises otherwise. -/
theorem no_look_ahead_iff (A : Arithmetic ℚ) (config : BacktestConfig)
    (strategy : BacktestStrategy) (numerics : Numerics) (candles : List Candle) (k : ℕ)
    {r : BacktestResult} (h : run A config strategy numerics candles = .ok r) :
    ∃ s, after A config strategy candles k = .ok s ∧
      after A config strategy (candles.take k) k = .ok s ∧
      s.equityCurve = r.equityCurve.take k ∧ s.trades <+: r.trades ∧
      ((∃ r' forced, run A config strategy numerics (candles.take k) = .ok r' ∧
          r'.equityCurve = r.equityCurve.take k ∧ r'.trades = s.trades ++ Option.toList forced ∧
          ∀ t ∈ forced, t.reason = "end-of-data") ↔
        0 < k ∧ Quantizable A numerics s.equityCurve config.initialCash
          (forceClose A config (candles.take k) s).cash) := by
  obtain ⟨hne, s', x, hfinal, rfl⟩ := run_eq_ok h
  obtain ⟨s₀, hs₀, hends⟩ := final_ends hne hfinal
  obtain ⟨forced₀, -, htrades, hcurve⟩ := hends.adds
  obtain ⟨s, hs⟩ : ∃ s, after A config strategy candles k = .ok s := by
    rcases le_total k candles.length with hle | hle
    · exact after_of_succ hle hs₀
    · exact ⟨s₀, by rw [after_of_le hle, hs₀]⟩
  have hshort : after A config strategy (candles.take k) k = .ok s := by
    rw [after_take le_rfl, hs]
  have hpoints : s.equityCurve = s'.equityCurve.take k := by
    rw [hcurve, equityCurve_take hs hs₀]
  have hprefix : s.trades <+: s'.trades := by
    rw [htrades]
    refine List.IsPrefix.trans ?_ (List.prefix_append ..)
    rcases le_total k candles.length with hle | hle
    · exact (after_extends hle hs hs₀).trades
    · rw [after_of_le hle, hs₀] at hs
      rw [Except.ok.inj hs]
  refine ⟨s, hs, hshort, hpoints, hprefix, ?_⟩
  rw [← shorter_run_iff hne hshort, hpoints]

/-- The growth of the bars around 100, and of the first two hours of them. -/
def touchingNumerics : Numerics :=
  { Numerics.growing 0 with
    growth := fun time _ => .finite
      (if time = 7200000000 then 32654686890633027 / 10 ^ 16 else 27948821714136827 / 10 ^ 16) }

theorem quantizable_touchingNumerics {equityCurve : List (Time × ℚ)} {initialCash final : ℚ} :
    Quantizable decimal28 touchingNumerics equityCurve initialCash final := by
  refine quantizable_of_growth fun time _ => ⟨_, rfl, ?_⟩
  split_ifs <;> decide +kernel

/-- Over three of five bars: two trades are closed as in the full run, the third at its end. -/
theorem no_look_ahead_three_bars :
    ∃ r r', run decimal28 {} everyBar touchingNumerics touchingBars = .ok r ∧
      run decimal28 {} everyBar touchingNumerics (touchingBars.take 3) = .ok r' ∧
      r'.equityCurve = r.equityCurve.take 3 ∧
      r'.trades.map BacktestTrade.reason = ["stop-loss", "take-profit", "end-of-data"] := by
  have hruns : (run decimal28 {} everyBar touchingNumerics touchingBars).toOption.any
      fun _ => true := by decide +kernel
  have hreasons : (run decimal28 {} everyBar touchingNumerics
      (touchingBars.take 3)).toOption.any fun r =>
        r.trades.map BacktestTrade.reason = ["stop-loss", "take-profit", "end-of-data"] := by
    decide +kernel
  obtain ⟨r, hrun, -⟩ := Except.exists_of_any_toOption hruns
  obtain ⟨s, -, -, -, -, hreturns⟩ := no_look_ahead_iff _ _ _ _ _ 3 hrun
  obtain ⟨r', -, hrun', hcurve, -⟩ := hreturns.mpr ⟨by decide, quantizable_touchingNumerics⟩
  rw [hrun'] at hreasons
  exact ⟨r, r', hrun, hrun', hcurve, of_decide_eq_true hreasons⟩

/-- The annualised growth of a gain of a fifth within an hour, and of a small loss within two. -/
def jumpNumerics : Numerics :=
  { Numerics.growing 0 with
    growth := fun time _ => .finite
      (if time = 3600000000 then 6860296034358033 * 10 ^ 13 else -1103246915539946 / 10 ^ 16) }

/-- **The shorter run raises** where the price jumps: a gain of a fifth within an hour is
annualised to a number of 29 digits before its point. -/
theorem shorter_run_raises :
    (∃ r, run decimal28 {} buyWhenFlat jumpNumerics (hourly [100, 300, 100]) = .ok r) ∧
      run decimal28 {} buyWhenFlat jumpNumerics ((hourly [100, 300, 100]).take 2) =
        .error .invalidOperation := by
  have hruns : (run decimal28 {} buyWhenFlat jumpNumerics (hourly [100, 300, 100])).toOption.any
      fun _ => true := by decide +kernel
  obtain ⟨r, hrun, -⟩ := Except.exists_of_any_toOption hruns
  exact ⟨⟨r, hrun⟩, by decide +kernel⟩

end Atlas.Backtest
