import Atlas.Lib.Result
import Atlas.Market.Candles

/-!
# Validated loads

`load_closed_validated` takes what a provider returns, brings the timestamps to UTC, keeps
the closed candles and validates them.  It returns the candles it kept, in the order in
which the provider gave them, whereas the validation looks at a sorted copy of them; and it
compares neither their symbol nor their timeframe with the request.

## Main definitions

* `modelValidate`, `normalizeCandleTimestamps` — a candle that is built again.
* `loadClosedValidated` — the load, for what the provider returned.
* `OnTarget` — what a validated load is meant to be.

## Main results

* `load_closed_validated_on_target` — **a load that does not raise is on target exactly if the
  provider gave the closed candles in ascending order, all for the request**.
* `load_closed_validated_off_target` — a load that is not.

## References

`app/market_data/facade.py`, `app/market_data/normalizers/timestamps.py`,
`app/models/domain/market.py`.
-/

namespace Atlas

namespace Market

open Grid

/-! ### The model -/

/-- The errors of the validators of `Candle`: the field and the message.  The validator of the
whole candle comes after those of the fields, and names no field. -/
def modelErrors (c : Candle) : List (Option String × String) :=
  let positive (field : String) (v : ℚ) : List (Option String × String) :=
    if v ≤ 0 then [(some field, "price must be > 0")] else []
  match positive "open" c.openPrice ++ positive "high" c.high ++ positive "low" c.low ++
      positive "close" c.close with
  | [] =>
      if c.openPrice < c.low ∨ c.close < c.low then [(none, "low must be <= open and close")]
      else if c.high < c.openPrice ∨ c.high < c.close then
        [(none, "high must be >= open and close")]
      else if c.high < c.low then [(none, "high must be >= low")]
      else if c.volume < 0 then [(none, "volume must be >= 0")]
      else []
  | errors => errors

inductive LoadError
  | model (errors : List (Option String × String))
  | validation (message : String)
  deriving DecidableEq, Repr

/-- `Candle.model_validate`. -/
def modelValidate (c : Candle) : Except LoadError Candle :=
  if modelErrors c = [] then .ok c else .error (.model (modelErrors c))

/-- `normalize_candle_timestamps`: a timestamp in UTC stays as it is. -/
def normalizeCandleTimestamps (c : Candle) : Except LoadError Candle := modelValidate c

/-- `str` of a list of texts without quotes. -/
def listText (texts : List String) : String :=
  "[" ++ ", ".intercalate (texts.map fun text => "'" ++ text ++ "'") ++ "]"

/-- `MarketDataService.validate_candles`. -/
def serviceValidateCandles (candles : List Candle) : ValidationResult := validation candles none

/-- `load_closed_validated`, where `fetchOhlcv` is the provider. -/
def loadClosedValidated (fetchOhlcv : String → String → ℕ → List Candle)
    (symbol timeframe : String) (limit : ℕ) : Except LoadError (List Candle) := do
  let normalized ← (fetchOhlcv symbol timeframe limit).mapM normalizeCandleTimestamps
  let closed := normalized.filter Candle.isClosed
  let result := serviceValidateCandles closed
  if ¬result.ok then
    .error (.validation
      ("Candle validation failed: " ++ listText (result.issues.map ValidationIssue.code)))
  else .ok closed

/-! ### Loads on target -/

/-- A strictly ascending series without gaps, of closed candles of a symbol and timeframe. -/
structure OnTarget (symbol timeframe : String) (candles : List Candle) : Prop where
  ascending : candles.Pairwise fun a b => a.openTime < b.openTime
  gapFree : ∀ delta, timeframeDeltas.lookup timeframe = some delta →
    candles.IsChain (Follows delta)
  closed : ∀ c ∈ candles, c.isClosed = true
  symbol : ∀ c ∈ candles, c.symbol = symbol
  timeframe : ∀ c ∈ candles, c.timeframe = timeframe

/-- What the provider has to see to: the closed candles are in ascending order of open time
and all for the request. -/
structure InOrder (symbol timeframe : String) (fetched : List Candle) : Prop where
  ascending : (fetched.filter Candle.isClosed).Pairwise fun a b => a.openTime ≤ b.openTime
  symbol : ∀ c ∈ fetched, c.isClosed = true → c.symbol = symbol
  timeframe : ∀ c ∈ fetched, c.isClosed = true → c.timeframe = timeframe

variable {fetchOhlcv : String → String → ℕ → List Candle} {symbol timeframe : String} {limit : ℕ}
  {candles result : List Candle} {delta : Step}

/-- Candles that follow each other are in strictly ascending order. -/
theorem pairwise_lt_of_isChain (h : candles.IsChain (Follows delta)) :
    candles.Pairwise fun a b => a.openTime < b.openTime := by
  have : IsTrans Candle fun a b => a.openTime < b.openTime := ⟨fun _ _ _ => lt_trans⟩
  refine List.isChain_iff_pairwise.1 (h.imp fun a b hab => ?_)
  have hpos := delta.pos
  rw [Follows] at hab
  rw [hab]
  exact lt_add_of_pos_right _ hpos

/-- What a load that does not raise returns, and what it has checked. -/
theorem loadClosedValidated_eq_ok
    (h : loadClosedValidated fetchOhlcv symbol timeframe limit = .ok result) :
    result = (fetchOhlcv symbol timeframe limit).filter Candle.isClosed ∧
      (validation result none).ok = true := by
  obtain ⟨normalized, hnormalized, hrest⟩ := Except.bind_eq_ok.1 h
  have hsame : normalized = fetchOhlcv symbol timeframe limit := by
    refine Except.eq_of_mapM_eq_ok (fun c c' hc => ?_) hnormalized
    unfold normalizeCandleTimestamps modelValidate at hc
    split_ifs at hc
    exact (Except.ok.inj hc).symm
  subst hsame
  dsimp only at hrest
  split_ifs at hrest with hok
  have hresult := Except.ok.inj hrest
  subst hresult
  exact ⟨rfl, hok⟩

/-- The validation looks up the timeframe of the first candle, and takes none for ok whose
timeframe it does not know. -/
theorem exists_usedDelta (hne : candles ≠ []) (h : (validation candles none).ok = true) :
    ∃ delta, usedDelta candles none = some delta := by
  cases hdelta : usedDelta candles none with
  | some delta => exact ⟨delta, rfl⟩
  | none =>
    exfalso
    rw [validation, if_neg hne, hdelta] at h
    simp only [decide_eq_true_eq, List.length_eq_zero_iff] at h
    have hkept : ∀ prev idx cs (s : Scan), (scan none prev idx cs s).issues = [] →
        s.issues = [] := by
      intro prev idx cs
      induction cs generalizing prev idx with
      | nil => exact fun s hs => hs
      | cons c cs ih =>
        intro s hs
        have hvisit := ih _ _ _ hs
        simp only [visit, noteTime, List.append_eq_nil_iff] at hvisit
        exact hvisit.1.1
    have hissues := hkept _ _ _ _ h
    simp [issueIf] at hissues

/-- Candles in ascending order that are taken for ok follow one another. -/
theorem exists_follows (hne : candles ≠ []) (h : (validation candles none).ok = true)
    (hascending : candles.Pairwise fun a b => a.openTime ≤ b.openTime) :
    ∃ delta, usedDelta candles none = some delta ∧ candles.IsChain (Follows delta) := by
  obtain ⟨delta, hdelta⟩ := exists_usedDelta hne h
  have hsorted : sortedCandles candles = candles := List.Pairwise.insertionSort_eq hascending
  have hconsecutive := ((validation_ok hdelta).1 h).consecutive
  rw [hsorted] at hconsecutive
  exact ⟨delta, hdelta, hconsecutive⟩

/-- **A load that does not raise is on target** exactly if the provider gave the closed candles
in ascending order of open time, and all of the symbol and timeframe of the request. -/
theorem load_closed_validated_on_target (fetchOhlcv : String → String → ℕ → List Candle)
    (symbol timeframe : String) (limit : ℕ) (result : List Candle)
    (hload : loadClosedValidated fetchOhlcv symbol timeframe limit = .ok result) :
    OnTarget symbol timeframe result ↔
      InOrder symbol timeframe (fetchOhlcv symbol timeframe limit) := by
  obtain ⟨hresult, hok⟩ := loadClosedValidated_eq_ok hload
  constructor
  · intro h
    have hmem : ∀ c ∈ fetchOhlcv symbol timeframe limit, c.isClosed = true → c ∈ result := by
      intro c hc hclosed
      rw [hresult]
      exact List.mem_filter.2 ⟨hc, hclosed⟩
    refine ⟨?_, fun c hc hclosed => h.symbol c (hmem c hc hclosed),
      fun c hc hclosed => h.timeframe c (hmem c hc hclosed)⟩
    rw [← hresult]
    exact h.ascending.imp le_of_lt
  · intro h
    have hmem : ∀ c ∈ result, c ∈ fetchOhlcv symbol timeframe limit ∧ c.isClosed = true := by
      intro c hc
      rw [hresult] at hc
      exact List.mem_filter.1 hc
    have htimeframe : ∀ c ∈ result, c.timeframe = timeframe := fun c hc =>
      h.timeframe c (hmem c hc).1 (hmem c hc).2
    have hascending : result.Pairwise fun a b => a.openTime ≤ b.openTime := by
      rw [hresult]
      exact h.ascending
    refine ⟨?_, ?_, fun c hc => (hmem c hc).2,
      fun c hc => h.symbol c (hmem c hc).1 (hmem c hc).2, htimeframe⟩
    · by_cases hne : result = []
      · rw [hne]
        exact .nil
      · obtain ⟨delta, -, hfollows⟩ := exists_follows hne hok hascending
        exact pairwise_lt_of_isChain hfollows
    · intro delta hlookup
      by_cases hne : result = []
      · rw [hne]
        exact .nil
      · obtain ⟨delta', hdelta', hfollows⟩ := exists_follows hne hok hascending
        -- the first candle has the timeframe of the request
        have hused : usedDelta result none = some delta := by
          obtain ⟨first, rest, hfirst⟩ := List.exists_cons_of_ne_nil hne
          rw [← hlookup, usedDelta, usedTimeframe, hfirst, List.head?_cons, Option.map_some,
            Option.bind_some, htimeframe first (hfirst ▸ List.mem_cons_self)]
        rw [hdelta', Option.some.injEq] at hused
        rw [← hused]
        exact hfollows

/-- The first two minutes. -/
def firstMinutes (_ _ : String) (_ : ℕ) : List Candle := [minuteCandle 0, minuteCandle 1]

theorem load_closed_validated_on_target_minutes :
    OnTarget "BTC/USDT" "1m" [minuteCandle 0, minuteCandle 1] := by
  have hload : loadClosedValidated firstMinutes "BTC/USDT" "1m" 2 =
      .ok [minuteCandle 0, minuteCandle 1] := by decide +kernel
  rw [load_closed_validated_on_target firstMinutes "BTC/USDT" "1m" 2 _ hload]
  exact ⟨by decide, by decide, by decide⟩

/-- The same with the later one first. -/
def latestFirst (_ _ : String) (_ : ℕ) : List Candle := [minuteCandle 1, minuteCandle 0]

/-- Two minutes in the wrong order, and two in order for another symbol and timeframe: both
are loaded without an error. -/
theorem load_closed_validated_off_target :
    (loadClosedValidated latestFirst "BTC/USDT" "1m" 2 = .ok [minuteCandle 1, minuteCandle 0] ∧
      ¬OnTarget "BTC/USDT" "1m" [minuteCandle 1, minuteCandle 0]) ∧
    (loadClosedValidated firstMinutes "ETH/USDT" "1h" 2 = .ok [minuteCandle 0, minuteCandle 1] ∧
      ¬OnTarget "ETH/USDT" "1h" [minuteCandle 0, minuteCandle 1]) := by
  refine ⟨⟨by decide +kernel, fun h => ?_⟩, by decide +kernel, fun h => ?_⟩
  · exact absurd h.ascending (by decide)
  · exact absurd h.symbol (by decide)

end Market

end Atlas
