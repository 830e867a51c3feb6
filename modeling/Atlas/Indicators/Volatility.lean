import Atlas.Indicators.MovingAverages
import Mathlib.Algebra.Order.Group.Unbundled.Abs

/-!
# Volatility indicators and the volume-weighted price

`atr` smooths the true ranges of the bars, `bollinger_bands` puts a band of standard
deviations around the moving average, and `vwap` weighs the typical prices by volume from
the first bar on.  The square and the square root of a decimal are parameters.

The series of an indicator have one length.  To say what it answers, they are read bar by
bar.

## Main definitions

* `atr`, `bollingerBands`, `vwap` — the indicators.
* `atrValues`, `bandOf`, `vwapStep` — what they compute for a bar.

## Main results

* `atr_eq`, `bollingerBands_eq`, `vwap_eq` — what they answer to valid input.
* `atrValues_delayed`, `bandOf_delayed`, `vwapValues_delayed` — these answers are causal.

## References

`app/indicators/volatility.py`.
-/

namespace Atlas

namespace Indicators

open Causal

variable (A : Arithmetic ℚ)

/-- `true_range`; the index is one of the series. -/
def trueRange (highs lows closes : List ℚ) (index : ℕ) : ℚ :=
  let high := highs.getD index 0
  let low := lows.getD index 0
  if index = 0 then A.sub high low
  else
    let prevClose := closes.getD (index - 1) 0
    max (A.sub high low) (max |A.sub high prevClose| |A.sub low prevClose|)

/-- `atr`. -/
def atr (h l c : List ℚ) (period : ℤ) : Except IndicatorError (List (Option ℚ)) :=
  if h = [] ∨ l = [] ∨ c = [] then .error (.insufficientData "atr received empty input")
  else if ¬(h.length = l.length ∧ l.length = c.length) then
    .error (.value "highs/lows/closes length mismatch")
  else if period ≤ 0 then .error (.value "period must be > 0")
  else if c.length < period then .ok (List.replicate c.length none)
  else
    let trs := (List.range c.length).map (trueRange A h l c)
    let seed := A.div (A.sum (trs.take period.toNat)) period
    .ok (List.replicate (period.toNat - 1) none ++
      ((trs.drop period.toNat).scanl
        (fun prev tr => A.div (A.add (A.mul prev (period - 1)) tr) period) seed).map some)

/-- `BollingerResult`. -/
structure BollingerResult where
  middle : List (Option ℚ)
  upper : List (Option ℚ)
  lower : List (Option ℚ)
  deriving DecidableEq, Repr

/-- The standard deviation of a window around its mean. -/
def deviation (square sqrt : ℚ → ℚ) (mean : ℚ) (values : List ℚ) (period : ℤ) : ℚ :=
  sqrt (A.div (A.sum (values.map fun x => square (A.sub x mean))) period)

/-- The entry of a band, from the mean and the standard deviation. -/
def bandAt (square sqrt : ℚ → ℚ) (edge : ℚ → ℚ → ℚ) (data : List ℚ) (period : ℤ)
    (mid : List (Option ℚ)) (i : ℕ) : Option ℚ :=
  (mid.getD i none).map fun mean =>
    edge mean (deviation A square sqrt mean (window data period.toNat i) period)

/-- `bollinger_bands`. -/
def bollingerBands (square sqrt : ℚ → ℚ) (data : List ℚ) (period : ℤ) (numStd : ℚ) :
    Except IndicatorError BollingerResult :=
  if data = [] then .error (.insufficientData "bollinger_bands received empty input")
  else if period ≤ 0 then .error (.value "period must be > 0")
  else do
    let mid ← sma A data period
    .ok
      { middle := mid
        upper := (List.range data.length).map
          (bandAt A square sqrt (fun mean std => A.add mean (A.mul numStd std)) data period mid)
        lower := (List.range data.length).map
          (bandAt A square sqrt (fun mean std => A.sub mean (A.mul numStd std)) data period mid) }

/-- The running sums of `vwap`: of price times volume, and of the volume. -/
def vwapStep (cum : ℚ × ℚ) (bar : ℚ × ℚ × ℚ × ℚ) : ℚ × ℚ :=
  let (h, l, c, v) := bar
  let typical := A.div (A.add (A.add h l) c) 3
  (A.add cum.1 (A.mul typical v), A.add cum.2 v)

/-- `vwap`. -/
def vwap (h l c v : List ℚ) : Except IndicatorError (List (Option ℚ)) :=
  if h = [] then .error (.insufficientData "vwap received empty input")
  else if ¬(h.length = l.length ∧ l.length = c.length ∧ c.length = v.length) then
    .error (.value "series length mismatch")
  else .ok (((h.zip (l.zip (c.zip v))).scanl (vwapStep A) (0, 0)).tail.map fun cum =>
    if cum.2 = 0 then none else some (A.div cum.1 cum.2))

variable {A} {square sqrt : ℚ → ℚ} {edge : ℚ → ℚ → ℚ} {data : List ℚ} {period : ℤ}

/-! ### What `atr` answers -/

/-- The true ranges of the bars, each with its high, low and close. -/
def trueRanges (A : Arithmetic ℚ) (bars : List (ℚ × ℚ × ℚ)) : List ℚ :=
  (List.range bars.length).map fun i =>
    trueRange A (bars.map fun b => b.1) (bars.map fun b => b.2.1) (bars.map fun b => b.2.2) i

/-- The recurrence of `atr`. -/
def atrValues (A : Arithmetic ℚ) (period : ℤ) (bars : List (ℚ × ℚ × ℚ)) : List ℚ :=
  seeded (period.toNat - 1) (fun first => A.div (A.sum first) period)
    (fun prev tr => A.div (A.add (A.mul prev (period - 1)) tr) period) (trueRanges A bars)

theorem trueRange_take {h l c : List ℚ} {k i : ℕ} (hi : i < k) :
    trueRange A (h.take k) (l.take k) (c.take k) i = trueRange A h l c i := by
  have htake : ∀ (xs : List ℚ) (j : ℕ), j ≤ i → (xs.take k).getD j 0 = xs.getD j 0 := by
    intro xs j hj
    rw [List.getD_eq_getElem?_getD, List.getElem?_take_of_lt (hj.trans_lt hi),
      List.getD_eq_getElem?_getD]
  simp only [trueRange, htake _ i le_rfl, htake _ (i - 1) (Nat.sub_le ..)]

theorem trueRanges_delayed : Delayed 0 (trueRanges A) :=
  .tabulate fun bars k i hik _ => by simp only [List.map_take, trueRange_take hik]

theorem atrValues_delayed (period : ℤ) : Delayed (period.toNat - 1) (atrValues A period) := by
  have hcomp := (Delayed.seeded (period.toNat - 1) (fun first => A.div (A.sum first) period)
    (fun prev tr => A.div (A.add (A.mul prev (period - 1)) tr) period)).comp (@trueRanges_delayed A)
  rwa [zero_add] at hcomp

theorem atr_eq {bars : List (ℚ × ℚ × ℚ)} (hbars : bars ≠ []) (hperiod : 0 < period) :
    atr A (bars.map fun b => b.1) (bars.map fun b => b.2.1) (bars.map fun b => b.2.2) period =
      .ok (padded (period.toNat - 1) (atrValues A period) bars) := by
  have hlength : (trueRanges A bars).length = bars.length := trueRanges_delayed.length bars
  have hsucc : period.toNat - 1 + 1 = period.toNat := by omega
  rw [atr, if_neg (by simpa using hbars), if_neg (by simp), if_neg (not_le.mpr hperiod), padded,
    atrValues, seeded, hlength, List.length_map]
  split_ifs with hshort hlate hlate
  · rw [List.map_nil, List.append_nil, Nat.min_eq_right hlate]
  · omega
  · omega
  · rw [Nat.min_eq_left (by omega), hsucc]
    rfl

/-! ### What `bollinger_bands` answers -/

/-- The entry of a band, without the list of the means. -/
def bandOf (A : Arithmetic ℚ) (square sqrt : ℚ → ℚ) (edge : ℚ → ℚ → ℚ) (period : ℤ)
    (data : List ℚ) (i : ℕ) : Option ℚ :=
  (smaOf A period data i).map fun mean =>
    edge mean (deviation A square sqrt mean (window data period.toNat i) period)

theorem bandOf_delayed (square sqrt : ℚ → ℚ) (edge : ℚ → ℚ → ℚ) (period : ℤ) :
    Delayed 0 fun data => (List.range data.length).map (bandOf A square sqrt edge period data) :=
  .tabulate fun data k i hik _ => by
    simp only [bandOf, smaOf, window_take hik]

theorem bandAt_eq :
    (List.range data.length).map
        (bandAt A square sqrt edge data period ((List.range data.length).map (smaOf A period data))) =
      (List.range data.length).map (bandOf A square sqrt edge period data) := by
  refine List.map_congr_left fun i hi => ?_
  rw [bandAt, bandOf, List.getD_eq_getElem?_getD, List.getElem?_map,
    List.getElem?_range (List.mem_range.mp hi)]
  rfl

theorem bollingerBands_eq {numStd : ℚ} (hdata : data ≠ []) (hperiod : 0 < period) :
    bollingerBands A square sqrt data period numStd = .ok
      { middle := (List.range data.length).map (smaOf A period data)
        upper := (List.range data.length).map
          (bandOf A square sqrt (fun mean std => A.add mean (A.mul numStd std)) period data)
        lower := (List.range data.length).map
          (bandOf A square sqrt (fun mean std => A.sub mean (A.mul numStd std)) period data) } := by
  rw [bollingerBands, if_neg hdata, if_neg (not_le.mpr hperiod), sma_eq hdata hperiod]
  simp only [bind, Except.bind, bandAt_eq]

/-! ### What `vwap` answers -/

/-- The recurrence of `vwap`. -/
def vwapValues (A : Arithmetic ℚ) (bars : List (ℚ × ℚ × ℚ × ℚ)) : List (Option ℚ) :=
  (bars.scanl (vwapStep A) (0, 0)).tail.map fun cum =>
    if cum.2 = 0 then none else some (A.div cum.1 cum.2)

theorem vwapValues_delayed : Delayed 0 (vwapValues A) :=
  (Delayed.map _).comp (.accumulate (vwapStep A) (0, 0))

theorem vwap_eq {bars : List (ℚ × ℚ × ℚ × ℚ)} (hbars : bars ≠ []) :
    vwap A (bars.map fun b => b.1) (bars.map fun b => b.2.1) (bars.map fun b => b.2.2.1)
      (bars.map fun b => b.2.2.2) = .ok (vwapValues A bars) := by
  have hzip : (bars.map fun b => b.1).zip ((bars.map fun b => b.2.1).zip
      ((bars.map fun b => b.2.2.1).zip (bars.map fun b => b.2.2.2))) = bars := by
    simp only [List.zip_map', List.map_id']
  rw [vwap, if_neg (by simpa using hbars), if_neg (by simp), hzip]
  rfl

end Indicators

end Atlas
