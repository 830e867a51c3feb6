import Atlas.Indicators.Momentum
import Atlas.Indicators.Volatility

/-!
# Indicators do not repaint

What an indicator has answered for a bar does not change when new bars arrive: on the
first `k` values of its series it gives the first `k` entries of what it gives on the
whole series.  That holds of every indicator, for every series and every valid period.

## Main definitions

* `Stable` — an indicator that does not repaint.

## Main results

* `Stable.of_delayed` — **a causal answer does not repaint**.
* `indicators_do_not_repaint` — **all of them are stable**.

## References

`app/indicators/moving_averages.py`, `app/indicators/momentum.py`,
`app/indicators/volatility.py`.
-/

namespace Atlas

namespace Indicators

open Causal

variable {α β : Type*} {A : Arithmetic ℚ}

/-- The indicator answers every series that is not empty, with an entry for each value, and
on the first values of the series it has the same entries. -/
def Stable (indicator : List α → Except IndicatorError (List β)) : Prop :=
  ∀ xs ≠ [], ∃ out, indicator xs = .ok out ∧ out.length = xs.length ∧
    ∀ k, 1 ≤ k → k ≤ xs.length → indicator (xs.take k) = .ok (out.take k)

/-- **A causal answer does not repaint.** -/
theorem Stable.of_delayed {indicator : List α → Except IndicatorError (List β)}
    {f : List α → List β} (hf : Delayed 0 f) (h : ∀ xs ≠ [], indicator xs = .ok (f xs)) :
    Stable indicator := by
  intro xs hxs
  refine ⟨f xs, h xs hxs, hf.length xs, fun k hk hle => ?_⟩
  have hfirst : xs.take k ≠ [] := by
    rw [← List.length_pos_iff, List.length_take]
    omega
  rw [h _ hfirst, hf.take, Nat.sub_zero]

/-- Two series of one length are read side by side. -/
theorem exists_zip {xs : List α} {ys : List β} (h : xs.length = ys.length) :
    ∃ zs : List (α × β), zs.length = xs.length ∧ zs.map Prod.fst = xs ∧ zs.map Prod.snd = ys :=
  ⟨xs.zip ys, by simp [h], List.map_fst_zip h.le, List.map_snd_zip h.ge⟩

/-- `macd` answers with three stable lines. -/
theorem macd_stable {fast slow signalPeriod : ℤ} (hfast : 0 < fast) (hsignal : 0 < signalPeriod)
    (hlt : fast < slow) :
    Stable (fun data => (macd A data fast slow signalPeriod).map MACDResult.macd) ∧
      Stable (fun data => (macd A data fast slow signalPeriod).map MACDResult.signal) ∧
      Stable (fun data => (macd A data fast slow signalPeriod).map MACDResult.histogram) := by
  refine ⟨.of_delayed (macdValues_delayed (A := A) hlt.le).padded fun data hdata => ?_,
    .of_delayed (signalValues_delayed (A := A) hlt.le signalPeriod).padded fun data hdata => ?_,
    .of_delayed (histogramValues_delayed (A := A) hlt.le signalPeriod).padded fun data hdata => ?_⟩ <;>
  · rw [macd_eq hdata hfast hsignal hlt]
    rfl

theorem atr_stable {period : ℤ} (hperiod : 0 < period) :
    Stable fun bars : List (ℚ × ℚ × ℚ) =>
      atr A (bars.map fun b => b.1) (bars.map fun b => b.2.1) (bars.map fun b => b.2.2) period :=
  .of_delayed (atrValues_delayed (A := A) period).padded fun _ hbars => atr_eq hbars hperiod

/-- `bollinger_bands` answers with three stable bands. -/
theorem bollingerBands_stable (square sqrt : ℚ → ℚ) (numStd : ℚ) {period : ℤ} (hperiod : 0 < period) :
    Stable (fun data => (bollingerBands A square sqrt data period numStd).map BollingerResult.middle) ∧
      Stable (fun data => (bollingerBands A square sqrt data period numStd).map BollingerResult.upper) ∧
      Stable (fun data => (bollingerBands A square sqrt data period numStd).map BollingerResult.lower) := by
  refine ⟨.of_delayed (smaOf_delayed (A := A) period) fun data hdata => ?_,
    .of_delayed (bandOf_delayed (A := A) square sqrt
      (fun mean std => A.add mean (A.mul numStd std)) period)
      fun data hdata => ?_,
    .of_delayed (bandOf_delayed (A := A) square sqrt
      (fun mean std => A.sub mean (A.mul numStd std)) period)
      fun data hdata => ?_⟩ <;>
  · rw [bollingerBands_eq hdata hperiod]
    rfl

theorem vwap_stable : Stable fun bars : List (ℚ × ℚ × ℚ × ℚ) =>
    vwap A (bars.map fun b => b.1) (bars.map fun b => b.2.1) (bars.map fun b => b.2.2.1)
      (bars.map fun b => b.2.2.2) :=
  .of_delayed (vwapValues_delayed (A := A)) fun _ hbars => vwap_eq hbars

/-- **Indicators do not repaint.**  Each has an entry for every value, and on the first `k`
values it gives the first `k` entries it gives on all of them, whatever the arithmetic, the
square and the square root. -/
theorem indicators_do_not_repaint (A : Arithmetic ℚ) (square sqrt : ℚ → ℚ) :
    (∀ period, 0 < period → Stable fun data => sma A data period) ∧
    (∀ period, 0 < period → Stable fun data => ema A data period) ∧
    (∀ period, 0 < period → Stable fun data => rsi A data period) ∧
    (∀ fast slow signalPeriod, 0 < fast → 0 < signalPeriod → fast < slow →
      Stable (fun data => (macd A data fast slow signalPeriod).map MACDResult.macd) ∧
      Stable (fun data => (macd A data fast slow signalPeriod).map MACDResult.signal) ∧
      Stable (fun data => (macd A data fast slow signalPeriod).map MACDResult.histogram)) ∧
    (∀ h l c period, h ≠ [] → h.length = l.length → l.length = c.length → 0 < period →
      ∃ out, atr A h l c period = .ok out ∧ out.length = h.length ∧ ∀ k, 1 ≤ k → k ≤ h.length →
        atr A (h.take k) (l.take k) (c.take k) period = .ok (out.take k)) ∧
    (∀ period numStd, 0 < period →
      Stable (fun data => (bollingerBands A square sqrt data period numStd).map BollingerResult.middle) ∧
      Stable (fun data => (bollingerBands A square sqrt data period numStd).map BollingerResult.upper) ∧
      Stable (fun data => (bollingerBands A square sqrt data period numStd).map BollingerResult.lower)) ∧
    (∀ h l c v, h ≠ [] → h.length = l.length → l.length = c.length → c.length = v.length →
      ∃ out, vwap A h l c v = .ok out ∧ out.length = h.length ∧ ∀ k, 1 ≤ k → k ≤ h.length →
        vwap A (h.take k) (l.take k) (c.take k) (v.take k) = .ok (out.take k)) ∧
    (∀ period, 0 < period → Stable fun highs => highestHigh highs period) ∧
    (∀ period, 0 < period → Stable fun lows => lowestLow lows period) := by
  refine ⟨fun period hperiod => ?_, fun period hperiod => ?_, fun period hperiod => ?_,
    fun fast slow signalPeriod => macd_stable, fun h l c period hne hl hc hperiod => ?_,
    fun period numStd => bollingerBands_stable square sqrt numStd, fun h l c v hne hl hc hv => ?_,
    fun period hperiod => ?_, fun period hperiod => ?_⟩
  · exact .of_delayed (smaOf_delayed (A := A) period) fun data hdata => sma_eq hdata hperiod
  · exact .of_delayed (emaValues_delayed (A := A) period).padded fun data hdata => ema_eq hdata hperiod
  · exact .of_delayed (rsiValues_delayed (A := A) hperiod).padded fun data hdata => rsi_eq hdata hperiod
  · obtain ⟨rest, hrest, rfl, rfl⟩ := exists_zip hc
    obtain ⟨bars, hbars, rfl, rfl⟩ := exists_zip (hl.trans (List.length_map _))
    obtain ⟨out, hout, hentries, hstable⟩ := atr_stable hperiod bars (by simpa using hne)
    simp only [List.map_map, List.length_map, ← List.map_take] at hout hstable ⊢
    exact ⟨out, hout, hentries, hstable⟩
  · obtain ⟨volumes, hvolumes, rfl, rfl⟩ := exists_zip hv
    obtain ⟨rest, hrest, rfl, rfl⟩ := exists_zip (hc.trans (List.length_map _))
    obtain ⟨bars, hbars, rfl, rfl⟩ := exists_zip (hl.trans (List.length_map _))
    obtain ⟨out, hout, hentries, hstable⟩ := vwap_stable bars (by simpa using hne)
    simp only [List.map_map, List.length_map, ← List.map_take] at hout hstable ⊢
    exact ⟨out, hout, hentries, hstable⟩
  · exact .of_delayed (extremeOf_delayed List.max? period) fun _ hdata => extremes_eq hdata hperiod
  · exact .of_delayed (extremeOf_delayed List.min? period) fun _ hdata => extremes_eq hdata hperiod

end Indicators

end Atlas
