import Atlas.Market.Facade
import Atlas.Session.OrderKeys

/-!
# Candles of an exchange

A provider asks the client of an exchange for rows, and makes a candle of each.  The rows
are ordered by open time, and the last of them may be the bar that is still in progress.
The provider calls every candle closed, and nothing behind it looks at the clock: the load
keeps the closed candles, and a paper cycle trades on the last of them.

## Main definitions

* `fromUnixMs` — `from_unix_ms`.
* `fetchOhlcv`, `BybitProvider.fetchOhlcv`, `BinanceProvider.fetchOhlcv` — the providers.
* `loadClosedCandles` — the validated load of what a provider returns.

## Main results

* `loadClosedCandles_openTimes` — the candles of a load are all rows of the response.
* `loaded_candles_complete_iff` — **no candle of a load is still forming exactly if the last
  row of the response is complete**.
* `loads_forming_bar` — a load with a bar that is still forming.

## References

`app/market_data/providers/bybit.py`, `app/market_data/providers/binance.py`,
`app/market_data/facade.py`, `app/services/market_sources.py`,
`app/services/paper_cycle.py`, `app/core/time.py`, `app/cli.py`.
-/

namespace Atlas

namespace Market

open Grid Calendar Quantize

/-! ### The model -/

/-- The settings that a provider reads. -/
structure MarketSettings where
  supportedSymbols : List String
  supportedTimeframes : List String
  deriving DecidableEq, Repr

/-- A row of the client: the open time in milliseconds, the prices and the volume. -/
structure Row where
  openMs : ℤ
  openPrice : ℚ
  high : ℚ
  low : ℚ
  close : ℚ
  volume : ℚ
  deriving DecidableEq, Repr, Inhabited

inductive FetchError
  | value (message : String)
  | timestamp
  | load (error : LoadError)
  deriving DecidableEq, Repr

/-- `datetime.fromtimestamp`: the fraction of the seconds is rounded to microseconds. -/
def fromTimestamp (seconds : ℚ) : Time :=
  let whole := roundDown seconds
  whole * 1000000 + roundHalfEven (nearestFloat ((seconds - whole) * 1000000))

/-- `from_unix_ms`, where it does not raise. -/
def fromUnixMs (ms : ℤ) : Time := fromTimestamp (nearestFloat (nearestFloat ms / 1000))

/-- A `datetime` is in the years 1 to 9999. -/
def HasYear (t : Time) : Prop :=
  1 ≤ (ofDays (t / dayMicros)).year ∧ (ofDays (t / dayMicros)).year ≤ 9999

instance (t : Time) : Decidable (HasYear t) := inferInstanceAs (Decidable (_ ∧ _))

/-- The open time of a row. -/
def Row.openTime (row : Row) : Time := fromUnixMs row.openMs

/-- The candle of a row: a provider calls all of them closed. -/
def candleOfRow (symbol timeframe : String) (row : Row) : Except FetchError Candle :=
  if ¬HasYear row.openTime then .error .timestamp
  else
    let candle : Candle :=
      { symbol := symbol, timeframe := timeframe, openTime := row.openTime
        openPrice := row.openPrice, high := row.high, low := row.low, close := row.close
        volume := row.volume, isClosed := true }
    (modelValidate candle >>= normalizeCandleTimestamps).mapError .load

/-- `fetch_ohlcv`, which the providers have in common; `exchange` is the client. -/
def fetchOhlcv (settings : MarketSettings) (exchange : String → String → Option ℤ → ℕ → List Row)
    (symbol timeframe : String) (since untilTime : Option Time) (limit : ℕ) :
    Except FetchError (List Candle) :=
  if symbol ∉ settings.supportedSymbols then .error (.value ("Unsupported symbol: " ++ symbol))
  else if timeframe ∉ settings.supportedTimeframes then
    .error (.value ("Unsupported timeframe: " ++ timeframe))
  else
    let sinceMs := since.map toUnixMs
    let untilMs := untilTime.map toUnixMs
    let raw := exchange symbol timeframe sinceMs limit
    (raw.filter fun row => ¬untilMs.any (· < row.openMs)).mapM (candleOfRow symbol timeframe)

/-- `BybitProvider.fetch_ohlcv`. -/
def BybitProvider.fetchOhlcv := Market.fetchOhlcv

/-- `BinanceProvider.fetch_ohlcv`. -/
def BinanceProvider.fetchOhlcv := Market.fetchOhlcv

/-- `load_closed_candles`: the validated load, with the provider behind it. -/
def loadClosedCandles (settings : MarketSettings)
    (exchange : String → String → Option ℤ → ℕ → List Row) (symbol timeframe : String)
    (limit : ℕ) : Except FetchError (List Candle) := do
  let raw ← fetchOhlcv settings exchange symbol timeframe none none limit
  (loadClosedValidated (fun _ _ _ => raw) symbol timeframe limit).mapError .load

variable {settings : MarketSettings} {exchange : String → String → Option ℤ → ℕ → List Row}
  {symbol timeframe : String} {limit : ℕ} {result : List Candle}

/-! ### What a load returns -/

/-- A candle has the open time of its row, and it is called closed. -/
theorem candleOfRow_eq_ok {row : Row} {c : Candle} (h : candleOfRow symbol timeframe row = .ok c) :
    c.openTime = row.openTime ∧ c.isClosed = true := by
  unfold candleOfRow at h
  split_ifs at h
  dsimp only at h
  rw [Except.mapError_eq_ok] at h
  obtain ⟨built, hbuilt, hnormalized⟩ := Except.bind_eq_ok.1 h
  unfold normalizeCandleTimestamps at hnormalized
  unfold modelValidate at hbuilt hnormalized
  split_ifs at hbuilt hnormalized
  rw [← Except.ok.inj hnormalized, ← Except.ok.inj hbuilt]
  exact ⟨rfl, rfl⟩

/-- **The candles of a load are all rows of the response.** -/
theorem loadClosedCandles_openTimes
    (h : loadClosedCandles settings exchange symbol timeframe limit = .ok result) :
    result.map Candle.openTime = (exchange symbol timeframe none limit).map Row.openTime := by
  obtain ⟨raw, hraw, hload⟩ := Except.bind_eq_ok.1 h
  rw [Except.mapError_eq_ok] at hload
  obtain ⟨hresult, -⟩ := loadClosedValidated_eq_ok hload
  -- without `until` no row is left out
  have hrows : (exchange symbol timeframe none limit).mapM (candleOfRow symbol timeframe) =
      .ok raw := by
    unfold fetchOhlcv at hraw
    split_ifs at hraw
    simpa using hraw
  -- and every candle is called closed
  have hflags : raw.map Candle.isClosed =
      (exchange symbol timeframe none limit).map fun _ => true :=
    Except.map_eq_map_of_mapM_eq_ok (fun _ _ hrow => (candleOfRow_eq_ok hrow).2) hrows
  have hclosed : ∀ c ∈ raw, c.isClosed = true := by
    intro c hc
    have hflag : c.isClosed ∈ raw.map Candle.isClosed := List.mem_map_of_mem hc
    rw [hflags] at hflag
    obtain ⟨-, -, hflag⟩ := List.mem_map.mp hflag
    exact hflag.symm
  rw [hresult, List.filter_eq_self.mpr hclosed]
  exact Except.map_eq_map_of_mapM_eq_ok (fun _ _ hrow => (candleOfRow_eq_ok hrow).1) hrows

/-! ### Bars that are still forming -/

/-- In a series in order, all bars are complete when the last one is. -/
theorem forall_complete_iff {rows : List Row} {delta : Step} {now : Time}
    (hordered : rows.Pairwise fun a b => a.openTime ≤ b.openTime) :
    (∀ row ∈ rows, row.openTime + delta.val ≤ now) ↔
      ∀ last, rows.getLast? = some last → last.openTime + delta.val ≤ now := by
  constructor
  · intro h last hlast
    exact h last (List.mem_of_getLast? hlast)
  · intro h row hrow
    obtain ⟨earlier, last, rfl⟩ : ∃ earlier last, rows = earlier ++ [last] :=
      List.eq_nil_or_concat' rows |>.resolve_left (List.ne_nil_of_mem hrow)
    have hlast := h last List.getLast?_concat
    rcases List.mem_append.mp hrow with hearlier | hself
    · have hle := (List.pairwise_append.mp hordered).2.2 row hearlier last (by simp)
      exact (Int.add_le_add_right hle _).trans hlast
    · rw [List.mem_singleton.mp hself]
      exact hlast

/-- **No candle of a load is still forming exactly if the last row of the response is
complete**, for a response in order of open time. -/
theorem loaded_candles_complete_iff
    (hload : loadClosedCandles settings exchange symbol timeframe limit = .ok result)
    (hordered : (exchange symbol timeframe none limit).Pairwise
      fun a b => a.openTime ≤ b.openTime) (now : Time) :
    ∀ delta, timeframeDeltas.lookup timeframe = some delta →
      ((∀ c ∈ result, c.openTime + delta.val ≤ now) ↔
        ∀ last, (exchange symbol timeframe none limit).getLast? = some last →
          last.openTime + delta.val ≤ now) := by
  intro delta _
  rw [← forall_complete_iff hordered]
  have htimes := loadClosedCandles_openTimes hload
  constructor
  · intro h row hrow
    have hmem : row.openTime ∈ result.map Candle.openTime := by
      rw [htimes]
      exact List.mem_map_of_mem hrow
    obtain ⟨c, hc, heq⟩ := List.mem_map.mp hmem
    rw [← heq]
    exact h c hc
  · intro h c hc
    have hmem : c.openTime ∈ (exchange symbol timeframe none limit).map Row.openTime := by
      rw [← htimes]
      exact List.mem_map_of_mem hc
    obtain ⟨row, hrow, heq⟩ := List.mem_map.mp hmem
    rw [← heq]
    exact h row hrow

/-- Settings with one symbol and one timeframe. -/
def minuteSettings : MarketSettings :=
  { supportedSymbols := ["BTC/USDT"], supportedTimeframes := ["1m"] }

/-- A client with the first two minutes. -/
def twoMinutes (_ _ : String) (_ : Option ℤ) (_ : ℕ) : List Row :=
  [0, 60000].map fun openMs : ℤ =>
    { openMs := openMs, openPrice := 100, high := 101, low := 99, close := 100, volume := 1 }

/-- When both minutes are over, both candles of the load are complete. -/
theorem loaded_candles_complete_two_minutes :
    ∃ result, loadClosedCandles minuteSettings twoMinutes "BTC/USDT" "1m" 2 = .ok result ∧
      ∀ c ∈ result, c.openTime + 60000000 ≤ 120000000 := by
  have hload : loadClosedCandles minuteSettings twoMinutes "BTC/USDT" "1m" 2 =
      .ok [minuteCandle 0, minuteCandle 1] := by decide +kernel
  have hordered : (twoMinutes "BTC/USDT" "1m" none 2).Pairwise
      fun a b => a.openTime ≤ b.openTime := by decide +kernel
  have hdelta : timeframeDeltas.lookup "1m" = some ⟨60000000, by decide⟩ := rfl
  refine ⟨_, hload, (loaded_candles_complete_iff hload hordered 120000000 _ hdelta).mpr ?_⟩
  intro last hlast
  rw [← Option.some.inj hlast]
  decide +kernel

/-- A load one microsecond into the second minute hands its candle over as closed, and last. -/
theorem loads_forming_bar :
    ¬∀ (settings : MarketSettings) (exchange : String → String → Option ℤ → ℕ → List Row)
      (symbol timeframe : String) (limit : ℕ) (result : List Candle) (delta : Step) (now : Time),
      timeframeDeltas.lookup timeframe = some delta →
      (exchange symbol timeframe none limit).Pairwise (fun a b => a.openTime ≤ b.openTime) →
      (∀ row ∈ exchange symbol timeframe none limit, row.openTime ≤ now) →
      loadClosedCandles settings exchange symbol timeframe limit = .ok result →
      ∀ c ∈ result, c.openTime + delta.val ≤ now := by
  intro hcomplete
  have hforming := hcomplete minuteSettings twoMinutes "BTC/USDT" "1m" 2
    [minuteCandle 0, minuteCandle 1] ⟨60000000, by decide⟩ 60000001 rfl (by decide +kernel)
    (by decide +kernel) (by decide +kernel) (minuteCandle 1) (by simp)
  revert hforming
  decide +kernel

end Market

end Atlas
