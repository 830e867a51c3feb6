import Atlas.Analytics.TradeJournal
import Atlas.Lib.Csv
import Atlas.Session.Codec

/-!
# The export of closed trades

The closed trades are exported as comma-separated values: a line with the names of the
columns, then a line for each trade with the texts that the dictionary of the trade has for
them.  Amounts are rounded to eight places and ratios to fewer, times are written in UTC, and
names are written as they are, whatever characters they hold.

Here decimals keep their exponents and times their offsets, as in the codec of a checkpoint.
Rounding fails for a number that gets more than 28 digits.

## Main definitions

* `TradeRecord`, `TradeRecord.toDict` — a closed trade with its texts.
* `exportTradesCsv` — the export.
* `Exported`, `importTrades` — what a line says, and the lines of an export as a reader of
  the format sees them.

## Main results

* `importTrades_exportTradesCsv` — **an export is read back**: one line for each trade, in
  their order, with its names, its times and its rounded amounts.
* `TradeRecord.shows` — the amounts of a line are the rounded amounts of the journal.

## References

`app/analytics/reports.py`, `app/analytics/trade_journal.py`.
-/

namespace Atlas

namespace Analytics

open Calendar Codec

/-! ### The dictionary of a trade -/

/-- `ClosedTrade` with the texts, the decimals and the times that it holds. -/
structure TradeRecord where
  id : String
  strategyName : String
  symbol : String
  side : String
  entryTime : Timestamp
  exitTime : Timestamp
  entryPrice : Decimal
  exitPrice : Decimal
  quantity : Decimal
  fees : Decimal
  slippage : Decimal
  grossPnl : Decimal
  netPnl : Decimal
  roiPct : Decimal
  durationSeconds : ℕ
  exitReason : String
  riskScore : Decimal
  marketRegime : String
  paperSessionId : String
  orderId : Option String := none
  fillId : Option String := none
  correlationId : Option String := none
  payload : List (String × Value) := []

/-- `ensure_utc`; the result may fall out of the years that a time has. -/
def ensureUtc (t : Timestamp) : Option Timestamp :=
  let utc : DateTime := ⟨t.val.wall - t.val.offset.getD 0 * 60000000, some 0⟩
  if h : utc.Valid then some ⟨utc, h⟩ else none

/-- `quantize` in the default context. -/
def quantizeTo (exponent : ℤ) (d : Decimal) : Option Decimal := d.rescale 28 exponent

/-- `str | None` as a value. -/
def textOrNone (s : Option String) : Value := s.elim .none .str

/-- `isoformat` as a value. -/
def Value.ofTime (t : Timestamp) : Value := .str (String.ofList t.val.isoformat)

/-- `ClosedTrade.to_dict`. -/
def TradeRecord.toDict (t : TradeRecord) : Option (List (String × Value)) := do
  let entryTime ← ensureUtc t.entryTime
  let exitTime ← ensureUtc t.exitTime
  let entryPrice ← quantizeTo (-8) t.entryPrice
  let exitPrice ← quantizeTo (-8) t.exitPrice
  let quantity ← quantizeTo (-8) t.quantity
  let fees ← quantizeTo (-8) t.fees
  let slippage ← quantizeTo (-8) t.slippage
  let grossPnl ← quantizeTo (-8) t.grossPnl
  let netPnl ← quantizeTo (-8) t.netPnl
  let roiPct ← quantizeTo (-4) t.roiPct
  let riskScore ← quantizeTo (-2) t.riskScore
  some
    [("id", .str t.id),
      ("trade_id", .str t.id),
      ("strategy_name", .str t.strategyName),
      ("symbol", .str t.symbol),
      ("trading_pair", .str t.symbol),
      ("side", .str t.side),
      ("buy_sell", .str t.side),
      ("entry_time", Value.ofTime entryTime),
      ("exit_time", Value.ofTime exitTime),
      ("entry_price", Value.ofDecimal entryPrice),
      ("exit_price", Value.ofDecimal exitPrice),
      ("quantity", Value.ofDecimal quantity),
      ("fees", Value.ofDecimal fees),
      ("slippage", Value.ofDecimal slippage),
      ("gross_pnl", Value.ofDecimal grossPnl),
      ("net_pnl", Value.ofDecimal netPnl),
      ("roi_pct", Value.ofDecimal roiPct),
      ("duration_seconds", .int t.durationSeconds),
      ("trade_duration", .int t.durationSeconds),
      ("exit_reason", .str t.exitReason),
      ("risk_score", Value.ofDecimal riskScore),
      ("market_regime", .str t.marketRegime),
      ("paper_session_id", .str t.paperSessionId),
      ("order_id", textOrNone t.orderId),
      ("fill_id", textOrNone t.fillId),
      ("correlation_id", textOrNone t.correlationId),
      ("payload", .dict t.payload)]

/-! ### The export -/

/-- The names of the columns. -/
def exportFields : List String :=
  ["trade_id", "strategy_name", "trading_pair", "side", "entry_time", "exit_time",
    "entry_price", "exit_price", "quantity", "fees", "slippage", "gross_pnl", "net_pnl",
    "roi_pct", "duration_seconds", "exit_reason", "risk_score", "market_regime",
    "paper_session_id"]

/-- The text that the writer makes of a value: nothing of `None`. -/
def csvText : Value → Option String
  | .none => some ""
  | v => textOf v

/-- `{k: row.get(k, "") for k in fields}`, as the writer writes it. -/
def csvRow (row : List (String × Value)) : Option (List (List Char)) :=
  exportFields.mapM fun k => (csvText ((Dict.lookup k row).getD (.str ""))).map String.toList

/-- `export_trades_csv`. -/
def exportTradesCsv (trades : List TradeRecord) : Option (List Char) := do
  let rows ← trades.mapM fun t => t.toDict.bind csvRow
  some (Csv.write Csv.excel (exportFields.map String.toList :: rows))

/-! ### Reading an export -/

/-- What a line of an export says. -/
structure Exported where
  tradeId : String
  strategyName : String
  tradingPair : String
  side : String
  entryTime : Timestamp
  exitTime : Timestamp
  entryPrice : Decimal
  exitPrice : Decimal
  quantity : Decimal
  fees : Decimal
  slippage : Decimal
  grossPnl : Decimal
  netPnl : Decimal
  roiPct : Decimal
  durationSeconds : ℕ
  exitReason : String
  riskScore : Decimal
  marketRegime : String
  paperSessionId : String
  deriving DecidableEq

/-- What an export says of a trade: times in UTC and rounded numbers. -/
def TradeRecord.exported (t : TradeRecord) : Option Exported := do
  let entryTime ← ensureUtc t.entryTime
  let exitTime ← ensureUtc t.exitTime
  let entryPrice ← quantizeTo (-8) t.entryPrice
  let exitPrice ← quantizeTo (-8) t.exitPrice
  let quantity ← quantizeTo (-8) t.quantity
  let fees ← quantizeTo (-8) t.fees
  let slippage ← quantizeTo (-8) t.slippage
  let grossPnl ← quantizeTo (-8) t.grossPnl
  let netPnl ← quantizeTo (-8) t.netPnl
  let roiPct ← quantizeTo (-4) t.roiPct
  let riskScore ← quantizeTo (-2) t.riskScore
  some
    { tradeId := t.id
      strategyName := t.strategyName
      tradingPair := t.symbol
      side := t.side
      entryTime, exitTime, entryPrice, exitPrice, quantity, fees, slippage, grossPnl, netPnl
      roiPct
      durationSeconds := t.durationSeconds
      exitReason := t.exitReason
      riskScore
      marketRegime := t.marketRegime
      paperSessionId := t.paperSessionId }

/-- The fields of a line. -/
def Exported.cells (e : Exported) : List (List Char) :=
  [e.tradeId.toList, e.strategyName.toList, e.tradingPair.toList, e.side.toList,
    e.entryTime.val.isoformat, e.exitTime.val.isoformat, e.entryPrice.toText,
    e.exitPrice.toText, e.quantity.toText, e.fees.toText, e.slippage.toText,
    e.grossPnl.toText, e.netPnl.toText, e.roiPct.toText, Nat.toDigits 10 e.durationSeconds,
    e.exitReason.toList, e.riskScore.toText, e.marketRegime.toList, e.paperSessionId.toList]

/-- A line from its fields. -/
def Exported.ofCells : List (List Char) → Option Exported
  | [tradeId, strategyName, tradingPair, side, entryTime, exitTime, entryPrice, exitPrice,
      quantity, fees, slippage, grossPnl, netPnl, roiPct, durationSeconds, exitReason,
      riskScore, marketRegime, paperSessionId] => do
    some
      { tradeId := String.ofList tradeId
        strategyName := String.ofList strategyName
        tradingPair := String.ofList tradingPair
        side := String.ofList side
        entryTime := ← readTimestamp (String.ofList entryTime)
        exitTime := ← readTimestamp (String.ofList exitTime)
        entryPrice := ← Decimal.ofText entryPrice
        exitPrice := ← Decimal.ofText exitPrice
        quantity := ← Decimal.ofText quantity
        fees := ← Decimal.ofText fees
        slippage := ← Decimal.ofText slippage
        grossPnl := ← Decimal.ofText grossPnl
        netPnl := ← Decimal.ofText netPnl
        roiPct := ← Decimal.ofText roiPct
        durationSeconds := ← Decimal.readNat durationSeconds
        exitReason := String.ofList exitReason
        riskScore := ← Decimal.ofText riskScore
        marketRegime := String.ofList marketRegime
        paperSessionId := String.ofList paperSessionId }
  | _ => none

/-- The lines of an export behind the line with the names of the columns. -/
def importTrades (cs : List Char) : Option (List Exported) :=
  match Csv.read Csv.excel cs with
  | header :: rows =>
      if header = exportFields.map String.toList then rows.mapM Exported.ofCells else none
  | [] => none

/-! ### An export is read back -/

/-- A time is read back from its text. -/
theorem readTimestamp_isoformat (t : Timestamp) :
    readTimestamp (String.ofList t.val.isoformat) = some t := by
  rw [readTimestamp, String.toList_ofList, DateTime.replaceZulu_isoformat,
    DateTime.fromisoformat_isoformat t.property, Option.bind_some, dif_pos t.property]

/-- A line is read back from its fields. -/
theorem Exported.ofCells_cells (e : Exported) : Exported.ofCells e.cells = some e := by
  simp only [cells, ofCells, readTimestamp_isoformat, Decimal.ofText_toText,
    Decimal.readNat_toDigits, String.ofList_toList, Option.bind_eq_bind, Option.bind_some]

/-- The text of a natural number. -/
theorem toList_toString_natCast (n : ℕ) : (toString (n : ℤ)).toList = Nat.toDigits 10 n := by
  rw [Int.toString_eq_repr, ← Nat.toList_repr]
  rfl

/-! ### The fields of a trade -/

/-- The field that is written for a key. -/
def IsCell (row : List (String × Value)) (k : String) (cell : List Char) : Prop :=
  (csvText ((Dict.lookup k row).getD (.str ""))).map String.toList = some cell

section

variable {row : List (String × Value)} {k : String}

theorem isCell_text {s : String} (h : Dict.lookup k row = some (.str s)) :
    IsCell row k s.toList := by
  rw [IsCell, h]
  rfl

theorem isCell_time {t : Timestamp} (h : Dict.lookup k row = some (Value.ofTime t)) :
    IsCell row k t.val.isoformat := by
  have htext := isCell_text h
  rwa [String.toList_ofList] at htext

theorem isCell_decimal {d : Decimal} (h : Dict.lookup k row = some (Value.ofDecimal d)) :
    IsCell row k d.toText := by
  have htext := isCell_text h
  rwa [String.toList_ofList] at htext

theorem isCell_nat {n : ℕ} (h : Dict.lookup k row = some (.int n)) :
    IsCell row k (Nat.toDigits 10 n) := by
  rw [IsCell, h, ← toList_toString_natCast]
  rfl

/-- A row of cells. -/
theorem csvRow_eq {cells : List (List Char)} (h : List.Forall₂ (IsCell row) exportFields cells) :
    csvRow row = some cells :=
  Option.mapM_eq_some h

end

/-- The fields that are written for a trade are those of its line. -/
theorem TradeRecord.csvRow_toDict (t : TradeRecord) :
    t.toDict.bind csvRow = t.exported.map Exported.cells := by
  rw [toDict, exported]
  iterate 11 refine Option.bind_bind_eq_map_bind fun _ => ?_
  rw [Option.bind_some, Option.map_some]
  refine csvRow_eq ?_
  exact
    .cons (isCell_text rfl) <| .cons (isCell_text rfl) <| .cons (isCell_text rfl) <|
    .cons (isCell_text rfl) <| .cons (isCell_time rfl) <| .cons (isCell_time rfl) <|
    .cons (isCell_decimal rfl) <| .cons (isCell_decimal rfl) <| .cons (isCell_decimal rfl) <|
    .cons (isCell_decimal rfl) <| .cons (isCell_decimal rfl) <| .cons (isCell_decimal rfl) <|
    .cons (isCell_decimal rfl) <| .cons (isCell_decimal rfl) <| .cons (isCell_nat rfl) <|
    .cons (isCell_text rfl) <| .cons (isCell_decimal rfl) <| .cons (isCell_text rfl) <|
    .cons (isCell_text rfl) .nil

/-! ### The amounts of a line -/

/-- The record is the text of a trade of the journal: its amounts are those of the trade. -/
structure TradeRecord.Records (r : TradeRecord) (t : ClosedTrade) : Prop where
  entryPrice : r.entryPrice.value = t.entryPrice
  exitPrice : r.exitPrice.value = t.exitPrice
  quantity : r.quantity.value = t.quantity
  fees : r.fees.value = t.fees
  slippage : r.slippage.value = t.slippage
  grossPnl : r.grossPnl.value = t.grossPnl
  netPnl : r.netPnl.value = t.netPnl
  roiPct : r.roiPct.value = t.roiPct
  riskScore : r.riskScore.value = t.riskScore
  durationSeconds : r.durationSeconds = t.durationSeconds

/-- The line says what the journal says, rounded. -/
structure Exported.Shows (e : Exported) (t : ClosedTrade) : Prop where
  entryPrice : e.entryPrice.value = quantize8 t.entryPrice
  exitPrice : e.exitPrice.value = quantize8 t.exitPrice
  quantity : e.quantity.value = quantize8 t.quantity
  fees : e.fees.value = quantize8 t.fees
  slippage : e.slippage.value = quantize8 t.slippage
  grossPnl : e.grossPnl.value = quantize8 t.grossPnl
  netPnl : e.netPnl.value = quantize8 t.netPnl
  roiPct : e.roiPct.value = Quantize.quantize (1 / 10000) t.roiPct
  riskScore : e.riskScore.value = Quantize.quantize (1 / 100) t.riskScore
  durationSeconds : e.durationSeconds = t.durationSeconds

/-- The value of a number that is rounded to a number of places. -/
theorem value_quantizeTo {exponent : ℤ} {quantum x : ℚ} (hquantum : quantum = 10 ^ exponent)
    {d q : Decimal} (h : quantizeTo exponent d = some q) (hd : d.value = x) :
    q.value = Quantize.quantize quantum x := by
  rw [d.value_rescale h, hd, hquantum]

theorem value_quantizeTo8 {x : ℚ} {d q : Decimal} (h : quantizeTo (-8) d = some q)
    (hd : d.value = x) : q.value = quantize8 x :=
  value_quantizeTo (by norm_num [quantum8]) h hd

/-- The amounts of a line are the rounded amounts of the journal. -/
theorem TradeRecord.shows {r : TradeRecord} {t : ClosedTrade} {e : Exported}
    (h : r.Records t) (he : r.exported = some e) : e.Shows t := by
  simp only [exported, Option.bind_eq_bind, Option.bind_eq_some_iff, Option.some.injEq] at he
  obtain ⟨_, -, _, -, _, hentry, _, hexit, _, hquantity, _, hfees, _, hslippage, _, hgross, _,
    hnet, _, hroi, _, hrisk, rfl⟩ := he
  exact
    { entryPrice := value_quantizeTo8 hentry h.entryPrice
      exitPrice := value_quantizeTo8 hexit h.exitPrice
      quantity := value_quantizeTo8 hquantity h.quantity
      fees := value_quantizeTo8 hfees h.fees
      slippage := value_quantizeTo8 hslippage h.slippage
      grossPnl := value_quantizeTo8 hgross h.grossPnl
      netPnl := value_quantizeTo8 hnet h.netPnl
      roiPct := value_quantizeTo (by norm_num) hroi h.roiPct
      riskScore := value_quantizeTo (by norm_num) hrisk h.riskScore
      durationSeconds := h.durationSeconds }

/-- A table behind the names of the columns. -/
theorem importTrades_of_read {text : List Char} {rows : List (List (List Char))}
    (h : Csv.read Csv.excel text = exportFields.map String.toList :: rows) :
    importTrades text = rows.mapM Exported.ofCells := by
  unfold importTrades
  rw [h]
  exact if_pos rfl

/-- **An export is read back**: one line for each trade, in their order, with its names, its
times in UTC and its rounded numbers.  There is no export if there is no line for a trade. -/
theorem importTrades_exportTradesCsv (trades : List TradeRecord) :
    (exportTradesCsv trades).bind importTrades = trades.mapM TradeRecord.exported := by
  have hrows : (trades.mapM fun t => t.toDict.bind csvRow) =
      (trades.mapM TradeRecord.exported).map (List.map Exported.cells) := by
    simp only [TradeRecord.csvRow_toDict, Option.mapM_map]
  rw [exportTradesCsv, hrows]
  cases trades.mapM TradeRecord.exported with
  | none => rw [Option.map_none, Option.bind_eq_bind, Option.bind_none, Option.bind_none]
  | some lines =>
    have hread : (lines.map Exported.cells).mapM Exported.ofCells = some lines := by
      refine Option.mapM_eq_some (List.forall₂_map_left_iff.mpr ?_)
      exact List.forall₂_same.mpr fun e _ => e.ofCells_cells
    rw [Option.map_some, Option.bind_eq_bind, Option.bind_some, Option.bind_some,
      importTrades_of_read (Csv.read_write _ _), hread]

end Analytics

end Atlas
