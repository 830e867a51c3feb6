import Atlas.Indicators.MovingAverages

/-!
# Momentum indicators

`rsi` smooths the gains and the losses of a series, and `macd` is the difference of two
exponential averages, with an average of its own as the signal line.

The signal line is computed over the values of the MACD line without the empty ones before
them.  `macdLine_eq` has what makes this sound: once the line starts, it has a value at
every index, so no value is shifted.

## Main definitions

* `rsi`, `macd` — the indicators.
* `rsiValues`, `macdValues`, `signalValues`, `histogramValues` — their recurrences, without
  the empty answers before.

## Main results

* `rsi_eq`, `macd_eq` — what they answer to valid input.
* `rsiValues_delayed`, `macdValues_delayed`, `signalValues_delayed`,
  `histogramValues_delayed` — how late these recurrences are.

## References

`app/indicators/momentum.py`.
-/

namespace Atlas

namespace Indicators

open Causal

/-! ### RSI -/

variable (A : Arithmetic ℚ)

/-- The gain and the loss from one value to the next. -/
def gainLoss (prev x : ℚ) : ℚ × ℚ :=
  let change := A.sub x prev
  (if 0 < change then change else 0, if change < 0 then -change else 0)

/-- `_rsi`. -/
def rsiOf (avgGain avgLoss : ℚ) : ℚ :=
  if avgLoss = 0 then 100
  else
    let rs := A.div avgGain avgLoss
    A.sub 100 (A.div 100 (A.add 1 rs))

/-- One step of the smoothed averages. -/
def smooth (period : ℤ) (avg : ℚ × ℚ) (next : ℚ × ℚ) : ℚ × ℚ :=
  (A.div (A.add (A.mul avg.1 (period - 1)) next.1) period,
    A.div (A.add (A.mul avg.2 (period - 1)) next.2) period)

/-- `rsi`. -/
def rsi (data : List ℚ) (period : ℤ) : Except IndicatorError (List (Option ℚ)) :=
  if data = [] then .error (.insufficientData "rsi received empty input")
  else if period ≤ 0 then .error (.value "period must be > 0")
  else if data.length < period + 1 then .ok (List.replicate data.length none)
  else
    let changes := List.zipWith (gainLoss A) data data.tail
    let gains := changes.map Prod.fst
    let losses := changes.map Prod.snd
    let avgGain := A.div (A.sum (gains.take period.toNat)) period
    let avgLoss := A.div (A.sum (losses.take period.toNat)) period
    .ok (List.replicate period.toNat none ++
      ((changes.drop period.toNat).scanl (smooth A period) (avgGain, avgLoss)).map
        fun avg => some (rsiOf A avg.1 avg.2))

/-! ### MACD -/

/-- `MACDResult`. -/
structure MACDResult where
  macd : List (Option ℚ)
  signal : List (Option ℚ)
  histogram : List (Option ℚ)
  deriving DecidableEq, Repr

/-- The difference where both lines have a value. -/
def minus : Option ℚ → Option ℚ → Option ℚ
  | some x, some y => some (A.sub x y)
  | _, _ => none

/-- A line of `n` entries with the values from an index on. -/
def placed (n start : ℕ) (values : List (Option ℚ)) : List (Option ℚ) :=
  (List.range n).map fun i => if start ≤ i then values.getD (i - start) none else none

/-- `macd`. -/
def macd (data : List ℚ) (fast slow signalPeriod : ℤ) : Except IndicatorError MACDResult :=
  if data = [] then .error (.insufficientData "macd received empty input")
  else if min fast (min slow signalPeriod) ≤ 0 then .error (.value "periods must be > 0")
  else if slow ≤ fast then .error (.value "fast period must be < slow period")
  else do
    let fastEma ← ema A data fast
    let slowEma ← ema A data slow
    let macdLine := List.zipWith (minus A) fastEma slowEma
    match macdLine.findIdx? Option.isSome with
    | none =>
        .ok ⟨macdLine, List.replicate data.length none, List.replicate data.length none⟩
    | some firstValid =>
        let macdVals := (macdLine.drop firstValid).filterMap id
        let signalVals ← ema A macdVals signalPeriod
        let signalLine := placed data.length firstValid signalVals
        .ok ⟨macdLine, signalLine, List.zipWith (minus A) macdLine signalLine⟩

variable {A} {data : List ℚ} {period fast slow signalPeriod : ℤ}

/-! ### What `rsi` answers -/

/-- The first averages. -/
def averages (A : Arithmetic ℚ) (period : ℤ) (first : List (ℚ × ℚ)) : ℚ × ℚ :=
  (A.div (A.sum (first.map Prod.fst)) period, A.div (A.sum (first.map Prod.snd)) period)

/-- The recurrence of `rsi`. -/
def rsiValues (A : Arithmetic ℚ) (period : ℤ) (data : List ℚ) : List ℚ :=
  (seeded (period.toNat - 1) (averages A period) (smooth A period)
    (differences (gainLoss A) data)).map fun avg => rsiOf A avg.1 avg.2

theorem rsiValues_delayed (hperiod : 0 < period) : Delayed period.toNat (rsiValues A period) := by
  have hseeded := (Delayed.map fun avg : ℚ × ℚ => rsiOf A avg.1 avg.2).comp
    ((Delayed.seeded (period.toNat - 1) (averages A period) (smooth A period)).comp
      (Delayed.differences (gainLoss A)))
  have hlate : 1 + (period.toNat - 1) + 0 = period.toNat := by omega
  rwa [hlate] at hseeded

theorem rsi_eq (hdata : data ≠ []) (hperiod : 0 < period) :
    rsi A data period = .ok (padded period.toNat (rsiValues A period) data) := by
  have hlength : (differences (gainLoss A) data).length = data.length - 1 :=
    (Delayed.differences (gainLoss A)).length data
  have hpos : 0 < data.length := List.length_pos_iff.mpr hdata
  rw [rsi, if_neg hdata, if_neg (not_le.mpr hperiod), padded, rsiValues, seeded, hlength]
  have hsucc : period.toNat - 1 + 1 = period.toNat := by omega
  split_ifs with hshort hlate hlate
  · rw [List.map_nil, List.map_nil, List.append_nil, Nat.min_eq_right (by omega)]
  · omega
  · omega
  · rw [Nat.min_eq_left (by omega), hsucc, List.map_map]
    simp only [← List.map_take]
    rfl

/-! ### What `macd` answers -/

/-- Where both of two late lines have values, their difference has one. -/
theorem zipWith_minus_padded {m n : ℕ} {f g : List ℚ → List ℚ} (hf : Delayed m f)
    (hg : Delayed n g) (hle : m ≤ n) (data : List ℚ) :
    List.zipWith (minus A) (padded m f data) (padded n g data) =
      padded n (fun data => List.zipWith A.sub ((f data).drop (n - m)) (g data)) data := by
  have hdrop : Delayed n fun data => (f data).drop (n - m) := by
    have hlater := hf.drop (n - m)
    rwa [Nat.add_sub_cancel' hle] at hlater
  have hdifference : Delayed n
      fun data => List.zipWith A.sub ((f data).drop (n - m)) (g data) := hdrop.zipWith _ hg
  refine List.ext_getElem? fun i => ?_
  by_cases hi : i < data.length
  · rw [List.getElem?_zipWith, getElem?_padded hf hi, getElem?_padded hg hi,
      getElem?_padded hdifference hi]
    by_cases hlate : i < n
    · simp only [if_pos hlate]
      cases (if i < m then none else (f data)[i - m]?) <;> rfl
    · have hboth : n - m + (i - n) = i - m := by omega
      have hstarted : ¬i < m := by omega
      simp only [if_neg hlate, if_neg hstarted, List.getElem?_zipWith, List.getElem?_drop, hboth]
      cases (f data)[i - m]? <;> cases (g data)[i - n]? <;> rfl
  · have hnone : ∀ {k : ℕ} {h : List ℚ → List ℚ}, Delayed k h → (padded k h data)[i]? = none := by
      intro k h hk
      refine List.getElem?_eq_none ?_
      rw [length_padded hk]
      omega
    rw [List.getElem?_zipWith, hnone hf, hnone hdifference]

/-- The values of the MACD line. -/
def macdValues (A : Arithmetic ℚ) (fast slow : ℤ) (data : List ℚ) : List ℚ :=
  List.zipWith A.sub ((emaValues A fast data).drop (slow.toNat - 1 - (fast.toNat - 1)))
    (emaValues A slow data)

/-- The values of the signal line. -/
def signalValues (A : Arithmetic ℚ) (fast slow signalPeriod : ℤ) (data : List ℚ) : List ℚ :=
  emaValues A signalPeriod (macdValues A fast slow data)

/-- The values of the histogram. -/
def histogramValues (A : Arithmetic ℚ) (fast slow signalPeriod : ℤ) (data : List ℚ) : List ℚ :=
  List.zipWith A.sub ((macdValues A fast slow data).drop (signalPeriod.toNat - 1))
    (signalValues A fast slow signalPeriod data)

theorem macdValues_delayed (hle : fast ≤ slow) :
    Delayed (slow.toNat - 1) (macdValues A fast slow) := by
  have hdrop := (@emaValues_delayed A fast).drop (slow.toNat - 1 - (fast.toNat - 1))
  have hlate : fast.toNat - 1 + (slow.toNat - 1 - (fast.toNat - 1)) = slow.toNat - 1 := by omega
  rw [hlate] at hdrop
  exact hdrop.zipWith _ (emaValues_delayed slow)

theorem signalValues_delayed (hle : fast ≤ slow) (signalPeriod : ℤ) :
    Delayed (slow.toNat - 1 + (signalPeriod.toNat - 1)) (signalValues A fast slow signalPeriod) :=
  (emaValues_delayed signalPeriod).comp (macdValues_delayed hle)

theorem histogramValues_delayed (hle : fast ≤ slow) (signalPeriod : ℤ) :
    Delayed (slow.toNat - 1 + (signalPeriod.toNat - 1))
      (histogramValues A fast slow signalPeriod) :=
  ((macdValues_delayed hle).drop (signalPeriod.toNat - 1)).zipWith _
    (signalValues_delayed hle signalPeriod)

/-- **The MACD line**: nothing up to an index, and a value from there on. -/
theorem macdLine_eq (hdata : data ≠ []) (hfast : 0 < fast) (hle : fast ≤ slow) :
    ∃ fastEma slowEma, ema A data fast = .ok fastEma ∧ ema A data slow = .ok slowEma ∧
      List.zipWith (minus A) fastEma slowEma =
        padded (slow.toNat - 1) (macdValues A fast slow) data := by
  refine ⟨_, _, ema_eq hdata hfast, ema_eq hdata (hfast.trans_le hle), ?_⟩
  exact zipWith_minus_padded (emaValues_delayed fast) (emaValues_delayed slow) (by omega) data

/-- Where the line of a late function starts. -/
theorem findIdx?_padded {n : ℕ} {f : List ℚ → List ℚ} (hf : Delayed n f) :
    (padded n f data).findIdx? Option.isSome = if n < data.length then some n else none := by
  have hreplicate : ∀ m, (List.replicate m (none : Option ℚ)).findIdx? Option.isSome = none := by
    intro m
    simp
  rw [padded, List.findIdx?_append, hreplicate, Option.none_or]
  split_ifs with hlong
  · have hne : f data ≠ [] := by
      rw [← List.length_pos_iff, hf.length]
      omega
    obtain ⟨x, xs, hcons⟩ := List.exists_cons_of_ne_nil hne
    simp [hcons, List.findIdx?_cons, List.length_replicate, Nat.min_eq_left hlong.le]
  · have hnil : f data = [] := by
      refine List.eq_nil_of_length_eq_zero ?_
      rw [hf.length]
      omega
    simp [hnil]

/-- The values of the line, without the empty ones before them. -/
theorem filterMap_drop_padded {n : ℕ} {f : List ℚ → List ℚ} (hlong : n < data.length) :
    ((padded n f data).drop n).filterMap id = f data := by
  rw [padded, Nat.min_eq_left hlong.le, List.drop_left' (by rw [List.length_replicate]),
    List.filterMap_map]
  exact List.filterMap_some

/-- A late line placed after the start of another. -/
theorem placed_padded {m n : ℕ} {f g : List ℚ → List ℚ} (hf : Delayed m f) (hg : Delayed n g)
    (data : List ℚ) :
    placed data.length m (padded n g (f data)) = padded (m + n) (fun data => g (f data)) data := by
  refine List.ext_getElem? fun i => ?_
  by_cases hi : i < data.length
  · rw [getElem?_padded (hg.comp hf) hi, placed, List.getElem?_map, List.getElem?_range hi,
      Option.map_some]
    by_cases hstarted : m ≤ i
    · have hin : i - m < (f data).length := by
        rw [hf.length]
        omega
      have hsub : i - m - n = i - (m + n) := by omega
      have hlate : i - m < n ↔ i < m + n := by omega
      rw [if_pos hstarted, List.getD_eq_getElem?_getD, getElem?_padded hg hin, Option.getD_some]
      simp only [hsub, hlate]
    · rw [if_neg hstarted, if_pos (by omega)]
  · have hleft : (placed data.length m (padded n g (f data)))[i]? = none := by
      refine List.getElem?_eq_none ?_
      rw [placed, List.length_map, List.length_range]
      omega
    have hright : (padded (m + n) (fun data => g (f data)) data)[i]? = none := by
      refine List.getElem?_eq_none ?_
      rw [length_padded (hg.comp hf)]
      omega
    rw [hleft, hright]

/-- A late line over a series that is too short. -/
theorem padded_short {n : ℕ} {f : List ℚ → List ℚ} (hf : Delayed n f) (hshort : data.length ≤ n) :
    padded n f data = List.replicate data.length none := by
  have hnil : f data = [] := by
    refine List.eq_nil_of_length_eq_zero ?_
    rw [hf.length]
    omega
  rw [padded, hnil, List.map_nil, List.append_nil, Nat.min_eq_right hshort]

/-- **What `macd` answers to valid input.** -/
theorem macd_eq (hdata : data ≠ []) (hfast : 0 < fast) (hsignal : 0 < signalPeriod)
    (hlt : fast < slow) :
    macd A data fast slow signalPeriod = .ok
      { macd := padded (slow.toNat - 1) (macdValues A fast slow) data
        signal := padded (slow.toNat - 1 + (signalPeriod.toNat - 1))
          (signalValues A fast slow signalPeriod) data
        histogram := padded (slow.toNat - 1 + (signalPeriod.toNat - 1))
          (histogramValues A fast slow signalPeriod) data } := by
  have hmin : ¬min fast (min slow signalPeriod) ≤ 0 := by omega
  obtain ⟨fastEma, slowEma, hfastEma, hslowEma, hline⟩ := macdLine_eq hdata hfast hlt.le
  have hmacd := @macdValues_delayed A fast slow hlt.le
  have hsignalValues := @signalValues_delayed A fast slow hlt.le signalPeriod
  have hhistogram := @histogramValues_delayed A fast slow hlt.le signalPeriod
  rw [macd, if_neg hdata, if_neg hmin, if_neg (not_le.mpr hlt), hfastEma, hslowEma]
  simp only [bind, Except.bind, hline, findIdx?_padded hmacd]
  by_cases hlong : slow.toNat - 1 < data.length
  · have hvals : macdValues A fast slow data ≠ [] := by
      rw [← List.length_pos_iff, hmacd.length]
      omega
    simp only [if_pos hlong, filterMap_drop_padded hlong, ema_eq hvals hsignal]
    have hsignalLine : placed data.length (slow.toNat - 1) (padded (signalPeriod.toNat - 1)
        (emaValues A signalPeriod) (macdValues A fast slow data)) =
        padded (slow.toNat - 1 + (signalPeriod.toNat - 1))
          (signalValues A fast slow signalPeriod) data :=
      placed_padded hmacd (emaValues_delayed signalPeriod) data
    have hdifference := @zipWith_minus_padded A _ _ _ _ hmacd hsignalValues (Nat.le_add_right ..) data
    rw [Nat.add_sub_cancel_left] at hdifference
    rw [hsignalLine, hdifference]
    rfl
  · simp only [if_neg hlong]
    rw [padded_short hsignalValues (by omega), padded_short hhistogram (by omega)]

end Indicators

end Atlas
