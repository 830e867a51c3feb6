import Mathlib.Data.List.Dedup
import Atlas.Lib.Table
import Atlas.Market.Facade

/-!
# The store of candles

`sync_ohlcv` fetches candles, validates them and writes them into a table, whose key is the
symbol, the timeframe and the open time: a candle with a known key replaces the values that are
there.  Nothing is written if the provider raises, a candle is not valid or the series has a gap.
`get_candles` reads the latest candles of a symbol and a timeframe back, from the first to the
last.

Each call has a session of its own, so that what a call reads has been through the columns of the
database.  What a `Numeric(36, 18)` column gives back for a number is a parameter, of which it is
asked that it keeps zero and the order of the numbers.  A limit is not negative.

## Main definitions

* `syncOhlcv`, `getCandles` — the methods of `MarketDataService`.
* `writesOf` — what some calls have written, in turn.
* `IsCurrent` — a candle is what was last written under its key.

## Main results

* `getCandles_history` — **the store returns the latest of the candles that are current, in
  ascending order, and never fails to**.

## References

`app/market_data/service.py`, `app/models/database/market.py`,
`app/market_data/normalizers/timestamps.py`.
-/

namespace Atlas

namespace Market

open Dict (upsertAll latest)

/-! ### The model -/

/-- A candle with the fields that are stored and not used. -/
structure MarketCandle extends Candle where
  closeTime : Option Time := none
  quoteVolume : Option ℚ := none
  tradeCount : Option ℤ := none
  deriving DecidableEq, Repr

/-- `uq_candle_key`. -/
structure CandleKey where
  symbol : String
  timeframe : String
  openTime : Time
  deriving DecidableEq, Repr

/-- The other columns of `CandleORM`. -/
structure CandleRow where
  closeTime : Option Time
  openPrice : ℚ
  high : ℚ
  low : ℚ
  close : ℚ
  volume : ℚ
  quoteVolume : Option ℚ
  tradeCount : Option ℤ
  isClosed : Bool
  createdAt : Time
  deriving DecidableEq, Repr

abbrev CandleTable := Dict CandleKey CandleRow

def MarketCandle.key (c : MarketCandle) : CandleKey where
  symbol := c.symbol
  timeframe := c.timeframe
  openTime := c.openTime

/-- The candle that a row is read as. -/
def CandleRow.candle (key : CandleKey) (row : CandleRow) : MarketCandle where
  symbol := key.symbol
  timeframe := key.timeframe
  openTime := key.openTime
  openPrice := row.openPrice
  high := row.high
  low := row.low
  close := row.close
  volume := row.volume
  isClosed := row.isClosed
  closeTime := row.closeTime
  quoteVolume := row.quoteVolume
  tradeCount := row.tradeCount

/-- `normalize_candle_timestamps` of a candle with all its fields. -/
def normalizeCandle (c : MarketCandle) : Except LoadError MarketCandle :=
  (normalizeCandleTimestamps c.toCandle).map fun candle => { c with toCandle := candle }

/-- `normalize_candles`. -/
def normalizeCandles (candles : List MarketCandle) : Except LoadError (List MarketCandle) :=
  candles.mapM normalizeCandle

inductive SyncError
  | provider
  | load (error : LoadError)
  | validation (error : CandleValidationError)
  | database
  deriving DecidableEq, Repr

/-- A call of `sync_ohlcv`: what the provider returns, unless it raises, and whether the
transaction is committed. -/
structure SyncCall where
  timeframe : String
  fetched : Option (List MarketCandle)
  now : Time
  commits : Bool := true
  deriving DecidableEq, Repr

/-- What a call returns, or how it fails. -/
def SyncCall.outcome (call : SyncCall) : Except SyncError (List MarketCandle) :=
  match call.fetched with
  | none => .error .provider
  | some fetched =>
      match normalizeCandles fetched with
      | .error e => .error (.load e)
      | .ok candles =>
          match validateCandles (candles.map MarketCandle.toCandle) (some call.timeframe) true with
          | .error e => .error (.validation e)
          | .ok _ => if call.commits then .ok candles else .error .database

variable (column : ℚ → ℚ)

/-- The row that is added for a candle. -/
def createRow (w : Time × MarketCandle) : CandleRow where
  closeTime := w.2.closeTime
  openPrice := column w.2.openPrice
  high := column w.2.high
  low := column w.2.low
  close := column w.2.close
  volume := column w.2.volume
  quoteVolume := w.2.quoteVolume.map column
  tradeCount := w.2.tradeCount
  isClosed := w.2.isClosed
  createdAt := w.1

/-- A row with the time of creation of another. -/
def CandleRow.stamped (row new : CandleRow) : CandleRow := { new with createdAt := row.createdAt }

/-- The row that there is, updated for a candle. -/
def updateRow (w : Time × MarketCandle) (row : CandleRow) : CandleRow :=
  row.stamped (createRow column w)

/-- What a call writes. -/
def SyncCall.writes (call : SyncCall) : List (Time × MarketCandle) :=
  match call.outcome with
  | .ok candles => candles.map (call.now, ·)
  | .error _ => []

/-- `sync_ohlcv`. -/
def syncOhlcv (call : SyncCall) (table : CandleTable) :
    Except SyncError (List MarketCandle) × CandleTable :=
  (call.outcome, table.upsertAll (createRow column) (updateRow column) (·.2.key) call.writes)

/-- The rows of a symbol and a timeframe. -/
def rowsOf (table : CandleTable) (symbol timeframe : String) : List (CandleKey × CandleRow) :=
  table.entries.filter fun e => e.1.symbol = symbol ∧ e.1.timeframe = timeframe

/-- The candles that are read, before they are validated again. -/
def readRows (table : CandleTable) (symbol timeframe : String) (limit : ℕ) : List MarketCandle :=
  (latest (·.1.openTime) limit (rowsOf table symbol timeframe)).map fun e => e.2.candle e.1

/-- `get_candles`. -/
def getCandles (table : CandleTable) (symbol timeframe : String) (limit : ℕ) :
    Except LoadError (List MarketCandle) :=
  normalizeCandles (readRows table symbol timeframe limit)

/-- The table after some calls. -/
def tableAfter (calls : List SyncCall) : CandleTable :=
  calls.foldl (fun table call => (syncOhlcv column call table).2) ∅

/-! ### The history -/

/-- What some calls have written, in turn. -/
def writesOf (calls : List SyncCall) : List (Time × MarketCandle) := calls.flatMap SyncCall.writes

/-- What some calls have written under a key, in turn. -/
def writesUnder (calls : List SyncCall) (k : CandleKey) : List (Time × MarketCandle) :=
  (writesOf calls).filter (·.2.key = k)

/-- A candle as the columns give it back. -/
def MarketCandle.stored (c : MarketCandle) : MarketCandle :=
  { c with
    openPrice := column c.openPrice
    high := column c.high
    low := column c.low
    close := column c.close
    volume := column c.volume
    quoteVolume := c.quoteVolume.map column }

/-- The candle is what was last written under its key, as the columns give it back. -/
def IsCurrent (calls : List SyncCall) (c : MarketCandle) : Prop :=
  ∃ w, (writesUnder calls c.key).getLast? = some w ∧ c = w.2.stored column

/-- The open times that something is written under, for a symbol and a timeframe. -/
def openTimes (calls : List SyncCall) (symbol timeframe : String) : List Time :=
  (((writesOf calls).filter fun w => w.2.symbol = symbol ∧ w.2.timeframe = timeframe).map
    (·.2.openTime)).dedup

/-- What a numeric column does to a number: it keeps zero, and the order. -/
structure IsColumn (column : ℚ → ℚ) : Prop where
  mono : Monotone column
  zero : column 0 = 0

/-- The prices of a candle are not lost in the columns. -/
def MarketCandle.Kept (c : MarketCandle) : Prop :=
  ∀ v ∈ [c.openPrice, c.high, c.low, c.close], 0 < column v

instance (c : MarketCandle) : Decidable (c.Kept column) :=
  inferInstanceAs (Decidable (∀ v ∈ _, _))

variable {column} {calls : List SyncCall} {c : MarketCandle} {symbol timeframe : String}
  {limit : ℕ}

/-! ### The table -/

theorem tableAfter_eq (calls : List SyncCall) :
    tableAfter column calls =
      upsertAll (createRow column) (updateRow column) (·.2.key) ∅ (writesOf calls) := by
  induction calls using List.reverseRecOn with
  | nil => rfl
  | append_singleton calls call ih =>
    have hwrites : writesOf (calls ++ [call]) = writesOf calls ++ call.writes := by
      simp [writesOf]
    rw [hwrites, Dict.upsertAll_append, ← ih, tableAfter, List.foldl_append]
    rfl

/-- **What is found under a key**: the values of the last candle that was written under it, with
the time of the first. -/
theorem get?_tableAfter (k : CandleKey) :
    (tableAfter column calls).get? k =
      Option.map₂ (fun first last => (createRow column first).stamped (createRow column last))
        (writesUnder calls k).head? (writesUnder calls k).getLast? := by
  rw [tableAfter_eq, Dict.get?_upsertAll, ← writesUnder]
  cases writesUnder calls k with
  | nil => rfl
  | cons w ws =>
    rw [List.getLast?_eq_some_getLast (List.cons_ne_nil w ws)]
    have hupdate : ∀ (w : Time × MarketCandle) (row : CandleRow),
        updateRow column w row = row.stamped (createRow column w) := fun _ _ => rfl
    exact Dict.rowOf_replace hupdate (fun _ => rfl) (fun _ _ _ => rfl) w ws

theorem key_of_mem_writesUnder {k : CandleKey} {w : Time × MarketCandle}
    (hw : w ∈ writesUnder calls k) : w.2.key = k :=
  of_decide_eq_true (List.mem_filter.mp hw).2

/-- A row is found exactly for the candles that are current. -/
theorem isCurrent_iff :
    IsCurrent column calls c ↔
      ∃ row, (tableAfter column calls).get? c.key = some row ∧ row.candle c.key = c := by
  rw [get?_tableAfter, IsCurrent]
  cases hwrites : writesUnder calls c.key with
  | nil => simp
  | cons first ws =>
    have hkey : ∀ w ∈ first :: ws, w.2.key = c.key := fun w hw =>
      key_of_mem_writesUnder (hwrites ▸ hw)
    rw [List.getLast?_eq_some_getLast (List.cons_ne_nil first ws)]
    have hlast := hkey _ (List.getLast_mem (List.cons_ne_nil first ws))
    generalize (first :: ws).getLast (List.cons_ne_nil first ws) = last at hlast
    simp only [List.head?_cons, Option.map₂_some_some, Option.some.injEq, exists_eq_left',
      ← hlast]
    exact eq_comm

theorem candleKey_ext {k k' : CandleKey} (hsymbol : k.symbol = k'.symbol)
    (htimeframe : k.timeframe = k'.timeframe) (htime : k.openTime = k'.openTime) : k = k' := by
  cases k
  cases k'
  simp_all

theorem mem_rowsOf {table : CandleTable} {k : CandleKey} {row : CandleRow} :
    (k, row) ∈ rowsOf table symbol timeframe ↔
      table.get? k = some row ∧ k.symbol = symbol ∧ k.timeframe = timeframe := by
  rw [rowsOf, List.mem_filter, Dict.mem_entries_iff, decide_eq_true_iff]

/-- Something is found under the keys that something is written under. -/
theorem isSome_get?_tableAfter {k : CandleKey} :
    (∃ row, (tableAfter column calls).get? k = some row) ↔ ∃ w ∈ writesOf calls, w.2.key = k := by
  rw [get?_tableAfter]
  cases hwrites : writesUnder calls k with
  | nil =>
    have hnone : ¬∃ w ∈ writesOf calls, w.2.key = k := by
      rintro ⟨w, hw, hk⟩
      have hmem : w ∈ writesUnder calls k := List.mem_filter.mpr ⟨hw, decide_eq_true hk⟩
      rw [hwrites] at hmem
      cases hmem
    simpa using hnone
  | cons first ws =>
    have hmem : first ∈ writesUnder calls k := hwrites ▸ List.mem_cons_self ..
    refine iff_of_true ?_
      ⟨first, (List.mem_filter.mp hmem).1, of_decide_eq_true (List.mem_filter.mp hmem).2⟩
    rw [List.getLast?_eq_some_getLast (List.cons_ne_nil first ws)]
    exact ⟨_, rfl⟩

/-- Rows of one symbol and one timeframe have different open times. -/
theorem nodup_rowsOf (table : CandleTable) (symbol timeframe : String) :
    ((rowsOf table symbol timeframe).map (·.1.openTime)).Nodup := by
  have hkeys : ((rowsOf table symbol timeframe).map Prod.fst).Nodup :=
    table.nodup.sublist (List.filter_sublist.map _)
  have htimes : (rowsOf table symbol timeframe).map (·.1.openTime) =
      ((rowsOf table symbol timeframe).map Prod.fst).map CandleKey.openTime := by
    rw [List.map_map]
    rfl
  rw [htimes]
  refine hkeys.map_on fun k hk k' hk' htime => ?_
  obtain ⟨e, he, rfl⟩ := List.mem_map.mp hk
  obtain ⟨e', he', rfl⟩ := List.mem_map.mp hk'
  obtain ⟨hsymbol, htimeframe⟩ := of_decide_eq_true (List.mem_filter.mp he).2
  obtain ⟨hsymbol', htimeframe'⟩ := of_decide_eq_true (List.mem_filter.mp he').2
  exact candleKey_ext (hsymbol.trans hsymbol'.symm) (htimeframe.trans htimeframe'.symm) htime

/-- The open times of the rows are those that something is written under. -/
theorem openTimes_perm (calls : List SyncCall) (symbol timeframe : String) :
    ((rowsOf (tableAfter column calls) symbol timeframe).map (·.1.openTime)).Perm
      (openTimes calls symbol timeframe) := by
  rw [openTimes, List.perm_ext_iff_of_nodup (nodup_rowsOf _ _ _) (List.nodup_dedup _)]
  intro time
  rw [List.mem_dedup, List.mem_map, List.mem_map]
  constructor
  · rintro ⟨⟨k, row⟩, he, rfl⟩
    obtain ⟨hrow, rfl, rfl⟩ := mem_rowsOf.mp he
    obtain ⟨w, hw, rfl⟩ := isSome_get?_tableAfter.mp ⟨row, hrow⟩
    exact ⟨w, List.mem_filter.mpr ⟨hw, by simp [MarketCandle.key]⟩, rfl⟩
  · rintro ⟨w, hw, rfl⟩
    obtain ⟨hmem, hmatch⟩ := List.mem_filter.mp hw
    obtain ⟨rfl, rfl⟩ := of_decide_eq_true hmatch
    obtain ⟨row, hrow⟩ := isSome_get?_tableAfter.mpr ⟨w, hmem, rfl⟩
    exact ⟨(w.2.key, row), mem_rowsOf.mpr ⟨hrow, rfl, rfl⟩, rfl⟩

/-- **What is read**: the candles that are current and have fewer than `limit` after them. -/
theorem mem_readRows :
    c ∈ readRows (tableAfter column calls) symbol timeframe limit ↔
      (c.symbol = symbol ∧ c.timeframe = timeframe) ∧ IsCurrent column calls c ∧
        (openTimes calls symbol timeframe).countP (c.openTime < ·) < limit := by
  have hcount (time : Time) :
      (rowsOf (tableAfter column calls) symbol timeframe).countP (fun e => time < e.1.openTime) =
        (openTimes calls symbol timeframe).countP (time < ·) := by
    rw [← (@openTimes_perm column calls symbol timeframe).countP_eq, List.countP_map]
    rfl
  rw [readRows, List.mem_map]
  constructor
  · rintro ⟨⟨k, row⟩, he, rfl⟩
    obtain ⟨he, hfew⟩ := (Dict.mem_latest (nodup_rowsOf _ symbol timeframe)).mp he
    obtain ⟨hrow, rfl, rfl⟩ := mem_rowsOf.mp he
    exact ⟨⟨rfl, rfl⟩, isCurrent_iff.mpr ⟨row, hrow, rfl⟩, hcount _ ▸ hfew⟩
  · rintro ⟨⟨rfl, rfl⟩, hcurrent, hfew⟩
    obtain ⟨row, hrow, hcandle⟩ := isCurrent_iff.mp hcurrent
    refine ⟨(c.key, row), (Dict.mem_latest (nodup_rowsOf _ _ _)).mpr ⟨?_, ?_⟩, hcandle⟩
    · exact mem_rowsOf.mpr ⟨hrow, rfl, rfl⟩
    · exact (hcount c.openTime).symm ▸ hfew

/-! ### The validation of what is read -/

/-- A candle passes its validators when its prices are positive and fit each other. -/
theorem modelErrors_eq_nil_iff {c : Candle} :
    modelErrors c = [] ↔ (∀ v ∈ [c.openPrice, c.high, c.low, c.close], 0 < v) ∧
      (c.low ≤ c.openPrice ∧ c.low ≤ c.close) ∧ (c.openPrice ≤ c.high ∧ c.close ≤ c.high) ∧
        c.low ≤ c.high ∧ 0 ≤ c.volume := by
  have hpositive (field : String) (v : ℚ) :
      (if v ≤ 0 then [(some field, "price must be > 0")] else []) = [] ↔ 0 < v := by
    by_cases hv : v ≤ 0 <;> simp [hv, not_lt.mpr, not_le.mp]
  have hif {p : Prop} [Decidable p] {e : Option String × String} {rest : List _} :
      (if p then [e] else rest) = [] ↔ ¬p ∧ rest = [] := by
    by_cases hp : p <;> simp [hp]
  have hprices : (∀ v ∈ [c.openPrice, c.high, c.low, c.close], 0 < v) ↔
      (if c.openPrice ≤ 0 then [(some "open", "price must be > 0")] else []) ++
        (if c.high ≤ 0 then [(some "high", "price must be > 0")] else []) ++
        (if c.low ≤ 0 then [(some "low", "price must be > 0")] else []) ++
        (if c.close ≤ 0 then [(some "close", "price must be > 0")] else []) = [] := by
    simp only [List.append_eq_nil_iff, hpositive, List.mem_cons, forall_eq_or_imp,
      List.not_mem_nil, false_implies, implies_true, and_true, and_assoc]
  rw [hprices]
  unfold modelErrors
  dsimp only
  generalize (_ ++ _ : List (Option String × String)) = prices
  cases prices with
  | nil => simp only [hif, not_or, not_lt, true_and, and_true]
  | cons e errors => simp

theorem normalizeCandle_eq_ok_iff (c c' : MarketCandle) :
    normalizeCandle c = .ok c' ↔ c' = c ∧ modelErrors c.toCandle = [] := by
  unfold normalizeCandle normalizeCandleTimestamps modelValidate
  split
  · next h =>
    rw [and_iff_left h]
    exact ⟨fun heq => (Except.ok.inj heq).symm, fun heq => heq ▸ rfl⟩
  · next h => exact iff_of_false (fun heq => by cases heq) fun heq => h heq.2

theorem normalizeCandles_eq_ok_iff {candles result : List MarketCandle} :
    normalizeCandles candles = .ok result ↔
      result = candles ∧ ∀ c ∈ candles, modelErrors c.toCandle = [] :=
  Except.mapM_eq_ok_iff_self normalizeCandle_eq_ok_iff

/-- What is written has passed its validators. -/
theorem modelErrors_of_mem_writesOf {w : Time × MarketCandle} (hw : w ∈ writesOf calls) :
    modelErrors w.2.toCandle = [] := by
  obtain ⟨call, -, hw⟩ := List.mem_flatMap.mp hw
  unfold SyncCall.writes SyncCall.outcome at hw
  split at hw
  next candles houtcome =>
    obtain ⟨c, hc, rfl⟩ := List.mem_map.mp hw
    split at houtcome
    next => cases houtcome
    next fetched hfetched =>
      split at houtcome
      next => cases houtcome
      next normalized hnormalized =>
        obtain ⟨rfl, hvalid⟩ := normalizeCandles_eq_ok_iff.mp hnormalized
        split at houtcome
        next => cases houtcome
        next =>
          split at houtcome
          · obtain rfl := Except.ok.inj houtcome
            exact hvalid c hc
          · cases houtcome
  next => cases hw

/-- The columns keep a candle valid, if its prices are not lost in them. -/
theorem modelErrors_stored (hcolumn : IsColumn column) (hkept : c.Kept column)
    (h : modelErrors c.toCandle = []) : modelErrors (c.stored column).toCandle = [] := by
  rw [modelErrors_eq_nil_iff] at h ⊢
  obtain ⟨-, ⟨hopen, hclose⟩, ⟨hopen', hclose'⟩, hlow, hvolume⟩ := h
  refine ⟨?_, ⟨hcolumn.mono hopen, hcolumn.mono hclose⟩,
    ⟨hcolumn.mono hopen', hcolumn.mono hclose'⟩, hcolumn.mono hlow, hcolumn.zero ▸ hcolumn.mono hvolume⟩
  simpa [MarketCandle.stored, MarketCandle.Kept] using hkept

/-- **The store returns the latest candles that are current**: those of the symbol and the
timeframe that are what was last written under their key, with fewer than `limit` open times after
theirs, in strictly ascending order. -/
theorem getCandles_history (column : ℚ → ℚ) (hcolumn : IsColumn column) (calls : List SyncCall)
    (hkept : ∀ w ∈ writesOf calls, w.2.Kept column) (symbol timeframe : String) (limit : ℕ) :
    ∃ candles, getCandles (tableAfter column calls) symbol timeframe limit = .ok candles ∧
      (candles.Pairwise fun a b => a.openTime < b.openTime) ∧
      ∀ c, c ∈ candles ↔ (c.symbol = symbol ∧ c.timeframe = timeframe) ∧
        IsCurrent column calls c ∧
          (openTimes calls symbol timeframe).countP (c.openTime < ·) < limit := by
  refine ⟨readRows (tableAfter column calls) symbol timeframe limit, ?_, ?_, fun c => mem_readRows⟩
  · rw [getCandles, normalizeCandles_eq_ok_iff]
    refine ⟨rfl, fun c hc => ?_⟩
    obtain ⟨-, ⟨w, hw, rfl⟩, -⟩ := mem_readRows.mp hc
    have hmem : w ∈ writesOf calls := (List.mem_filter.mp (List.mem_of_getLast? hw)).1
    exact modelErrors_stored hcolumn (hkept w hmem) (modelErrors_of_mem_writesOf hmem)
  · rw [readRows, List.pairwise_map]
    exact Dict.pairwise_latest (nodup_rowsOf _ symbol timeframe)

/-- A candle of one minute, and one that has another volume. -/
def storedMinute (minute volume : ℤ) : MarketCandle :=
  { toCandle := { minuteCandle minute with volume := volume } }

/-- Three minutes in two calls, of which the second knows more of the one in the middle, and a
third call that is refused. -/
def threeCalls : List SyncCall :=
  [{ timeframe := "1m", fetched := some [storedMinute 0 1, storedMinute 1 1], now := 0 },
    { timeframe := "1m", fetched := some [storedMinute 1 5, storedMinute 2 1], now := 1 },
    { timeframe := "1m", fetched := some [storedMinute 2 9, storedMinute 4 9], now := 2 }]

theorem getCandles_history_minutes : ∃ candles,
    getCandles (tableAfter id threeCalls) "BTC/USDT" "1m" 2 = .ok candles ∧
      storedMinute 1 5 ∈ candles ∧ storedMinute 0 1 ∉ candles := by
  obtain ⟨candles, hread, -, hmem⟩ := getCandles_history id ⟨monotone_id, rfl⟩ threeCalls
    (by decide +kernel) "BTC/USDT" "1m" 2
  refine ⟨candles, hread, (hmem _).mpr ⟨⟨rfl, rfl⟩, ?_, by decide +kernel⟩, fun h => ?_⟩
  · exact ⟨(1, storedMinute 1 5), by decide +kernel, by decide +kernel⟩
  · exact absurd ((hmem _).mp h).2.2 (by decide +kernel)

end Market

end Atlas
