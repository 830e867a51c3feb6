import Mathlib.Algebra.BigOperators.Group.List.Basic
import Mathlib.Data.Rat.Defs
import Mathlib.Algebra.Order.Ring.Rat
import Atlas.Lib.Arithmetic
import Atlas.Lib.Causal
import Atlas.Lib.Result

/-!
# Moving averages and extremes

`sma`, `ema`, `highest_high` and `lowest_low`, with the helpers of all indicators.  An
indicator answers every value of its series, with nothing while the series is too short;
it raises on an empty series and on a period that is not positive.

The values are decimals, and every operation on them rounds.  The indicators are defined for
any arithmetic `A`; that of the code is `decimal28`.

For a series that is not empty and a positive period, each is a causal function of the
series, in the sense of `Causal`.

## Main definitions

* `IndicatorError` — what an indicator raises.
* `sma`, `ema`, `highestHigh`, `lowestLow` — the indicators.
* `emaValues` — the recurrence of `ema`, without the empty answers before it.

## Main results

* `sma_eq`, `ema_eq`, `extremes_eq` — what they answer to valid input.
* `emaValues_delayed`, `smaOf_delayed`, `extremeOf_delayed` — these answers are causal.

## References

`app/indicators/base.py`, `app/indicators/moving_averages.py`.
-/

namespace Atlas

namespace Indicators

open Causal

/-- What an indicator raises: an `InsufficientDataError`, or another `ValueError`. -/
inductive IndicatorError
  | insufficientData (message : String)
  | value (message : String)
  deriving DecidableEq, Repr

/-- `ensure_length`. -/
def ensureLength (values : List ℚ) (minimum : ℕ) (name : String) : Except IndicatorError Unit :=
  if values.length < minimum then
    .error (.insufficientData (name ++ " requires at least " ++ toString minimum ++
      " values, got " ++ toString values.length))
  else .ok ()

/-- `values[index - period + 1 : index + 1]`. -/
def window (values : List ℚ) (period index : ℕ) : List ℚ :=
  (values.take (index + 1)).drop (index + 1 - period)

variable (A : Arithmetic ℚ)

/-- `sma_at`. -/
def smaAt (values : List ℚ) (period : ℤ) (index : ℕ) : Except IndicatorError (Option ℚ) :=
  if period ≤ 0 then .error (.value "period must be > 0")
  else if (index : ℤ) < period - 1 ∨ values.length ≤ index then .ok none
  else .ok (some (A.div (A.sum (window values period.toNat index)) period))

/-- `sma`. -/
def sma (data : List ℚ) (period : ℤ) : Except IndicatorError (List (Option ℚ)) :=
  if data = [] then .error (.insufficientData "sma received empty input")
  else do
    ensureLength data 1 "sma"
    if period ≤ 0 then .error (.value "period must be > 0")
    else (List.range data.length).mapM (smaAt A data period)

/-- `ema`. -/
def ema (data : List ℚ) (period : ℤ) : Except IndicatorError (List (Option ℚ)) :=
  if data = [] then .error (.insufficientData "ema received empty input")
  else if period ≤ 0 then .error (.value "period must be > 0")
  else if data.length < period then .ok (List.replicate data.length none)
  else
    let seed := A.div (A.sum (data.take period.toNat)) period
    let multiplier := A.div 2 (A.add period 1)
    .ok (List.replicate (period.toNat - 1) none ++
      ((data.drop period.toNat).scanl
        (fun prev x => A.add (A.mul (A.sub x prev) multiplier) prev) seed).map some)

/-- The largest or smallest value of the window that ends at an index. -/
def extremeOf (pick : List ℚ → Option ℚ) (period : ℤ) (data : List ℚ) (i : ℕ) : Option ℚ :=
  if (i : ℤ) < period - 1 then none else pick (window data period.toNat i)

/-- The largest or smallest value of every window of the series. -/
def extremes (name : String) (pick : List ℚ → Option ℚ) (data : List ℚ) (period : ℤ) :
    Except IndicatorError (List (Option ℚ)) :=
  if data = [] then .error (.insufficientData (name ++ " received empty input"))
  else if period ≤ 0 then .error (.value "period must be > 0")
  else .ok ((List.range data.length).map (extremeOf pick period data))

/-- `highest_high`. -/
def highestHigh (highs : List ℚ) (period : ℤ) : Except IndicatorError (List (Option ℚ)) :=
  extremes "highest_high" List.max? highs period

/-- `lowest_low`. -/
def lowestLow (lows : List ℚ) (period : ℤ) : Except IndicatorError (List (Option ℚ)) :=
  extremes "lowest_low" List.min? lows period

variable {A} {data : List ℚ} {period : ℤ}

/-! ### What they answer -/

/-- A window reads no value after its index. -/
theorem window_take {k i : ℕ} (hi : i < k) (p : ℕ) :
    window (data.take k) p i = window data p i := by
  rw [window, window, List.take_take, min_eq_left (Nat.succ_le_of_lt hi)]

/-- The answer of `sma` at an index. -/
def smaOf (A : Arithmetic ℚ) (period : ℤ) (data : List ℚ) (i : ℕ) : Option ℚ :=
  if (i : ℤ) < period - 1 then none else some (A.div (A.sum (window data period.toNat i)) period)

theorem smaAt_eq {i : ℕ} (hperiod : 0 < period) (hi : i < data.length) :
    smaAt A data period i = .ok (smaOf A period data i) := by
  unfold smaAt smaOf
  rw [if_neg (not_le.mpr hperiod)]
  simp only [not_le.mpr hi, or_false]
  split_ifs <;> rfl

theorem sma_eq (hdata : data ≠ []) (hperiod : 0 < period) :
    sma A data period = .ok ((List.range data.length).map (smaOf A period data)) := by
  have hlength : ¬data.length < 1 := by
    rw [not_lt, Nat.succ_le_iff]
    exact List.length_pos_iff.mpr hdata
  have hall : (List.range data.length).mapM (smaAt A data period) =
      .ok ((List.range data.length).map (smaOf A period data)) :=
    Except.mapM_eq_ok fun i hi => smaAt_eq hperiod (List.mem_range.mp hi)
  rw [sma, if_neg hdata, ensureLength, if_neg hlength]
  simp only [if_neg (not_le.mpr hperiod), hall]
  rfl

theorem smaOf_delayed (period : ℤ) :
    Delayed 0 fun data => (List.range data.length).map (smaOf A period data) :=
  .tabulate fun data k i hik _ => by rw [smaOf, smaOf, window_take hik]

/-- The recurrence of `ema`. -/
def emaValues (A : Arithmetic ℚ) (period : ℤ) : List ℚ → List ℚ :=
  seeded (period.toNat - 1) (fun first => A.div (A.sum first) period)
    fun prev x => A.add (A.mul (A.sub x prev) (A.div 2 (A.add period 1))) prev

theorem emaValues_delayed (period : ℤ) : Delayed (period.toNat - 1) (emaValues A period) :=
  .seeded ..

theorem ema_eq (hdata : data ≠ []) (hperiod : 0 < period) :
    ema A data period = .ok (padded (period.toNat - 1) (emaValues A period) data) := by
  rw [ema, if_neg hdata, if_neg (not_le.mpr hperiod), padded, emaValues, seeded]
  have hsucc : period.toNat - 1 + 1 = period.toNat := by omega
  split_ifs with hshort hlate hlate
  · rw [List.map_nil, List.append_nil, Nat.min_eq_right hlate]
  · omega
  · omega
  · rw [Nat.min_eq_left (by omega), hsucc]

theorem extremes_eq {name : String} {pick : List ℚ → Option ℚ} (hdata : data ≠ [])
    (hperiod : 0 < period) :
    extremes name pick data period =
      .ok ((List.range data.length).map (extremeOf pick period data)) := by
  rw [extremes, if_neg hdata, if_neg (not_le.mpr hperiod)]

theorem extremeOf_delayed (pick : List ℚ → Option ℚ) (period : ℤ) :
    Delayed 0 fun data => (List.range data.length).map (extremeOf pick period data) :=
  .tabulate fun data k i hik _ => by rw [extremeOf, extremeOf, window_take hik]

end Indicators

end Atlas
