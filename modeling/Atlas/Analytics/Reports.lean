import Atlas.Analytics.Snapshot
import Atlas.Lib.Periods
import Atlas.Lib.Table

/-!
# Reports

The closed trades are reported by the day, the week or the month up to now, by the months of the
journal and by the strategies.  A report of a period is stored under the period and its window.

The texts of a report are its numbers: they are rounded as the texts are, and the banner and the
time at which a report was made are left out.  Sums and rates are those of an arithmetic, and what
the rows say of the profit holds but for its roundings.  A report reads the clock twice, for the
window and for the metrics.  The text of a month is that of a year of four digits.

## Main definitions

* `periodWindow`, `filterTradesInWindow`, `buildPeriodReport` — the report of a period.
* `persistReport` — its row in the table.
* `monthlyPerformance`, `strategyRankings` — the months and the strategies.

## Main results

* `trades_buildPeriodReport` — **the trades of a report are those of the day, the week or the
  month of now**.
* `monthlyPerformance_report` — **the last month of the journal agrees with the report of the
  month**.
* `strategyRankings_partition` — **the rankings share out the trades and their profit**.
* `persistReport_runs` — **a window has one row**, with the first identifier and the last metrics.

## References

`app/analytics/reports.py`, `app/analytics/performance.py`, `app/analytics/models.py`.
-/

namespace Atlas

namespace Analytics

open Calendar Arithmetic

/-! ### Reports of a period -/

/-- `Period` -/
inductive Period
  | daily
  | weekly
  | monthly
  deriving DecidableEq, Repr, Inhabited

/-- The first day of the period of a day. -/
def firstDay : Period → ℤ → ℤ
  | .daily, today => today
  | .weekly, today => today - weekday today
  | .monthly, today => monthStart today

/-- `period_window` -/
def periodWindow (period : Period) (now : Time) : Time × Time :=
  (firstDay period (now / dayMicros) * dayMicros, now)

/-- `filter_trades_in_window` -/
def filterTradesInWindow (trades : List ClosedTrade) (start stop : Time) : List ClosedTrade :=
  trades.filter fun t => start ≤ t.exitTime ∧ t.exitTime ≤ stop

/-- The payload of a report. -/
structure Report where
  period : Period
  periodStart : Time
  periodEnd : Time
  tradeCount : ℕ
  metrics : PerformanceSnapshot
  trades : List ClosedTrade
  deriving DecidableEq, Repr, Inhabited

/-- `generate_report_payload` -/
def generateReportPayload (period : Period) (trades : List ClosedTrade)
    (snapshot : PerformanceSnapshot) (periodStart periodEnd : Time) : Report where
  period
  periodStart
  periodEnd
  tradeCount := trades.length
  metrics := snapshot
  trades

/-- The account at the time of a report. -/
structure AccountContext where
  startingBalance : ℚ
  currentBalance : ℚ
  unrealisedPnl : ℚ
  realisedPnl : ℚ
  equityCurve : Option (List EquityPoint)
  openPositionCount : ℕ

variable (A : Arithmetic ℚ)

/-- `build_period_report`, without the row. -/
def buildPeriodReport (allTrades : List ClosedTrade) (period : Period) (ctx : AccountContext)
    (now later : Time) : Option Report := do
  let window := periodWindow period now
  let windowTrades := filterTradesInWindow allTrades window.1 window.2
  let snap ← compute A ctx.startingBalance windowTrades ctx.currentBalance ctx.unrealisedPnl
    (some ctx.realisedPnl) ctx.equityCurve ctx.openPositionCount later
  some (generateReportPayload period windowTrades snap window.1 window.2)

variable {A}

/-- The number of the day, the week or the month of a day. -/
def periodIndex : Period → ℤ → ℤ
  | .daily, day => day
  | .weekly, day => weekIndex day
  | .monthly, day => monthIndex day

/-- The day on which a trade is closed. -/
def ClosedTrade.exitDay (t : ClosedTrade) : ℤ := t.exitTime / dayMicros

/-- A time is in the window exactly if it is not after now and in the same period. -/
theorem mem_periodWindow {period : Period} {now t : Time} (h : t ≤ now) :
    (periodWindow period now).1 ≤ t ↔
      periodIndex period (t / dayMicros) = periodIndex period (now / dayMicros) := by
  have hmicros : (0 : ℤ) < dayMicros := by decide
  have hdays : t / dayMicros ≤ now / dayMicros := Int.ediv_le_ediv hmicros h
  rw [periodWindow, ← Int.le_ediv_iff_mul_le hmicros]
  cases period with
  | daily => exact ⟨fun hle => le_antisymm hdays hle, fun heq => heq.ge⟩
  | weekly => exact (weekIndex_eq_iff hdays).symm
  | monthly => exact (monthIndex_eq_iff hdays).symm

theorem filterTradesInWindow_periodWindow (trades : List ClosedTrade) (period : Period)
    (now : Time) :
    filterTradesInWindow trades (periodWindow period now).1 (periodWindow period now).2 =
      trades.filter fun t => t.exitTime ≤ now ∧
        periodIndex period t.exitDay = periodIndex period (now / dayMicros) := by
  refine List.filter_congr fun t _ => decide_eq_decide.mpr ?_
  rw [and_comm]
  exact and_congr_right fun hle => mem_periodWindow hle

/-- What a report is made of. -/
theorem buildPeriodReport_eq_some {allTrades : List ClosedTrade} {period : Period}
    {ctx : AccountContext} {now later : Time} {r : Report}
    (h : buildPeriodReport A allTrades period ctx now later = some r) :
    ∃ snap, compute A ctx.startingBalance (filterTradesInWindow allTrades
        (periodWindow period now).1 (periodWindow period now).2) ctx.currentBalance
        ctx.unrealisedPnl (some ctx.realisedPnl) ctx.equityCurve ctx.openPositionCount later =
          some snap ∧
      r = generateReportPayload period (filterTradesInWindow allTrades
        (periodWindow period now).1 (periodWindow period now).2) snap
        (periodWindow period now).1 (periodWindow period now).2 := by
  simp only [buildPeriodReport, Option.bind_eq_bind, Option.bind_eq_some_iff,
    Option.some.injEq] at h
  obtain ⟨snap, hsnap, rfl⟩ := h
  exact ⟨snap, hsnap, rfl⟩

/-- **The trades of a report** are those that were closed up to now, on the day, in the week or in
the month of now; they are as many as the report says and its metrics are theirs. -/
theorem trades_buildPeriodReport {allTrades : List ClosedTrade} {period : Period}
    {ctx : AccountContext} {now later : Time} {r : Report}
    (h : buildPeriodReport A allTrades period ctx now later = some r) :
    (r.trades = allTrades.filter fun t => t.exitTime ≤ now ∧
        periodIndex period t.exitDay = periodIndex period (now / dayMicros)) ∧
      r.tradeCount = r.trades.length ∧
      compute A ctx.startingBalance r.trades ctx.currentBalance ctx.unrealisedPnl
        (some ctx.realisedPnl) ctx.equityCurve ctx.openPositionCount later = some r.metrics := by
  obtain ⟨snap, hsnap, rfl⟩ := buildPeriodReport_eq_some h
  exact ⟨filterTradesInWindow_periodWindow allTrades period now, rfl, hsnap⟩

/-- A trade with a time of exit and a profit. -/
def ClosedTrade.ofExit (exitTime : Time) (netPnl : ℚ) : ClosedTrade :=
  { ClosedTrade.ofNetPnl netPnl with exitTime }

/-- The trades of 1 February and 10 March 2024. -/
def twoTrades : List ClosedTrade :=
  [.ofExit (19754 * dayMicros) 1, .ofExit (19792 * dayMicros) 3]

/-- An account with its starting balance and no curve. -/
def AccountContext.ofBalance (balance : ℚ) : AccountContext where
  startingBalance := balance
  currentBalance := balance
  unrealisedPnl := 0
  realisedPnl := 0
  equityCurve := none
  openPositionCount := 0

/-- The report of 15 March 2024 has the trade of 10 March. -/
theorem trades_buildPeriodReport_march :
    ∃ r, buildPeriodReport decimal28 twoTrades .monthly (.ofBalance 100) (19797 * dayMicros)
        (19797 * dayMicros) = some r ∧
      r.trades = [.ofExit (19792 * dayMicros) 3] := by
  have hsome : (buildPeriodReport decimal28 twoTrades .monthly (.ofBalance 100) (19797 * dayMicros)
      (19797 * dayMicros)).isSome := by decide +kernel
  obtain ⟨r, hr⟩ := Option.isSome_iff_exists.mp hsome
  refine ⟨r, hr, (trades_buildPeriodReport hr).1.trans ?_⟩
  decide +kernel

/-! ### The table of reports -/

/-- A row of the table, `PerformanceReportORM`. -/
structure PerformanceReport where
  id : String
  metrics : PerformanceSnapshot
  tradeCount : ℕ
  createdAt : Time
  deriving DecidableEq, Repr

/-- A later row with the identifier of an earlier one. -/
def PerformanceReport.keepId (row row' : PerformanceReport) : PerformanceReport :=
  { row' with id := row.id }

/-- The unique columns of the table. -/
abbrev ReportKey : Type := Period × Time × Time

/-- A call of `persist_report`, with the identifier that is drawn for a new row. -/
structure PersistCall where
  fresh : String
  report : Report
  now : Time

namespace PersistCall

/-- The window of a report. -/
def key (call : PersistCall) : ReportKey :=
  (call.report.period, call.report.periodStart, call.report.periodEnd)

/-- A new row. -/
def create (call : PersistCall) : PerformanceReport where
  id := call.fresh
  metrics := call.report.metrics
  tradeCount := call.report.tradeCount
  createdAt := call.now

/-- The row of a report that is there. -/
def update (call : PersistCall) (existing : PerformanceReport) : PerformanceReport :=
  { existing with
    metrics := call.report.metrics
    tradeCount := call.report.tradeCount
    createdAt := call.now }

end PersistCall

/-- `persist_report`: the identifier of the row, and the table. -/
def persistReport (reports : Dict ReportKey PerformanceReport) (call : PersistCall) :
    String × Dict ReportKey PerformanceReport :=
  let existing := reports.get? call.key
  (existing.elim call.fresh PerformanceReport.id,
    reports.upsert PersistCall.create PersistCall.update PersistCall.key call)

/-- Reports stored in turn. -/
def persistReports (calls : List PersistCall) : Dict ReportKey PerformanceReport :=
  calls.foldl (fun reports call => (persistReport reports call).2) ∅

/-- **A window has one row**: the first report of a window gives it its identifier, which the
reports after it are told as well, and the last one its metrics. -/
theorem persistReport_runs {calls : List PersistCall} {key : ReportKey} {first : PersistCall}
    {rest : List PersistCall} (h : calls.filter (fun call => call.key = key) = first :: rest) :
    (persistReports calls).get? key = some (first.create.keepId
        ((first :: rest).getLast (List.cons_ne_nil _ _)).create) ∧
      ∀ call : PersistCall, call.key = key →
        (persistReport (persistReports calls) call).1 = first.fresh := by
  have hget : (persistReports calls).get? key = Dict.rowOf PersistCall.create PersistCall.update
      none (calls.filter fun call => call.key = key) := Dict.get?_upsertAll ∅ calls key
  have hupdate : ∀ (call : PersistCall) (existing : PerformanceReport),
      call.update existing = existing.keepId call.create := fun _ _ => rfl
  have hrow := Dict.rowOf_replace hupdate (fun _ => rfl) (fun _ _ _ => rfl) first rest
  rw [h] at hget
  rw [← hget] at hrow
  refine ⟨hrow, fun call hkey => ?_⟩
  rw [persistReport, hkey, hrow]
  rfl

/-- A window that is reported three times. -/
theorem persistReport_runs_thrice :
    (persistReport (persistReports [⟨"first", default, 0⟩, ⟨"second", default, 1⟩])
      ⟨"third", default, 2⟩).1 = "first" :=
  (@persistReport_runs [⟨"first", default, 0⟩, ⟨"second", default, 1⟩] _ ⟨"first", default, 0⟩
    [⟨"second", default, 1⟩] (by simp [PersistCall.key])).2 ⟨"third", default, 2⟩ rfl

/-! ### The months -/

/-- A row of the monthly performance. -/
structure MonthRow where
  month : List Char
  tradeCount : ℕ
  netPnl : ℚ
  winRate : ℚ
  deriving DecidableEq, Repr

/-- The row of the trades of a month. -/
def monthRow (A : Arithmetic ℚ) (month : List Char) (group : List ClosedTrade) : MonthRow where
  month
  tradeCount := group.length
  netPnl := Quantize.quantize (1 / 100) (A.sum (group.map ClosedTrade.netPnl))
  winRate :=
    if group = [] then 0
    else Quantize.quantize (1 / 10000)
      (A.div (group.countP fun t => 0 < t.netPnl) group.length)

/-- The month in which a trade is closed. -/
def ClosedTrade.exitMonth (t : ClosedTrade) : List Char := monthText t.exitDay

/-- `monthly_performance` -/
def monthlyPerformance (A : Arithmetic ℚ) (trades : List ClosedTrade) : List MonthRow :=
  let buckets := Dict.groupBy ClosedTrade.exitMonth trades
  (buckets.keys.mergeSort fun month month' => month ≤ month').map fun month =>
    monthRow A month ((buckets.get? month).getD [])

/-! ### The strategies -/

/-- A row of the rankings. -/
structure RankingRow where
  strategyName : String
  tradeCount : ℕ
  netPnl : ℚ
  winRate : ℚ
  totalFees : ℚ
  capitalAllocationProxy : ℚ
  avgRoiPct : ℚ
  rank : ℕ := 0
  deriving DecidableEq, Repr

/-- The row of the trades of a strategy. -/
def rankingRow (A : Arithmetic ℚ) (start : ℚ) (name : String) (group : List ClosedTrade) :
    RankingRow :=
  let volume := A.sum (group.map fun t => A.mul t.entryPrice t.quantity)
  let count := group.length
  { strategyName := name
    tradeCount := count
    netPnl := Quantize.quantize (1 / 100) (A.sum (group.map ClosedTrade.netPnl))
    winRate :=
      if count = 0 then 0
      else Quantize.quantize (1 / 10000) (A.div (group.countP fun t => 0 < t.netPnl) count)
    totalFees := Quantize.quantize quantum8 (A.sum (group.map ClosedTrade.fees))
    capitalAllocationProxy :=
      Quantize.quantize (1 / 10000) (if 0 < start then A.div volume start else 0)
    avgRoiPct :=
      if count = 0 then 0
      else Quantize.quantize (1 / 10000) (A.div (A.sum (group.map ClosedTrade.roiPct)) count) }

/-- The rows with their places, from one on. -/
def ranked (rows : List RankingRow) : List RankingRow :=
  (rows.zipIdx 1).map fun e => { e.1 with rank := e.2 }

/-- `starting_balance or self.starting_balance` -/
def rankingStart (selfBalance : ℚ) (startingBalance : Option ℚ) : ℚ :=
  if startingBalance.getD 0 = 0 then selfBalance else startingBalance.getD 0

/-- The rows of the strategies, in the order of their first trades. -/
def strategyRows (A : Arithmetic ℚ) (start : ℚ) (trades : List ClosedTrade) : List RankingRow :=
  (Dict.groupBy ClosedTrade.strategyName trades).entries.map fun e => rankingRow A start e.1 e.2

/-- `strategy_rankings` -/
def strategyRankings (A : Arithmetic ℚ) (selfBalance : ℚ) (trades : List ClosedTrade)
    (startingBalance : Option ℚ := none) : List RankingRow :=
  ranked ((strategyRows A (rankingStart selfBalance startingBalance) trades).mergeSort
    fun row row' => row'.netPnl ≤ row.netPnl)

/-! ### The months share out the trades -/

/-- The rows of the months in any order. -/
theorem monthlyPerformance_perm (trades : List ClosedTrade) :
    (monthlyPerformance A trades).Perm
      ((Dict.groupBy ClosedTrade.exitMonth trades).entries.map fun e => monthRow A e.1 e.2) := by
  refine ((List.mergeSort_perm _ _).map _).trans (List.Perm.of_eq ?_)
  rw [Dict.keys, List.map_map]
  refine List.map_congr_left fun e he => ?_
  have hget : (Dict.groupBy ClosedTrade.exitMonth trades).get? e.1 = some e.2 :=
    Dict.mem_entries_iff.mp he
  rw [Function.comp_apply, hget, Option.getD_some]

/-- Each month is there once, after the months before it. -/
theorem pairwise_monthlyPerformance (trades : List ClosedTrade) :
    ((monthlyPerformance A trades).map MonthRow.month).Pairwise (· < ·) := by
  have hmonths : (monthlyPerformance A trades).map MonthRow.month =
      (Dict.groupBy ClosedTrade.exitMonth trades).keys.mergeSort fun a b => a ≤ b := by
    rw [monthlyPerformance, List.map_map]
    exact List.map_id _
  have hsorted := pairwise_mergeSort_le id (Dict.groupBy ClosedTrade.exitMonth trades).keys
  have hnodup := (List.mergeSort_perm (Dict.groupBy ClosedTrade.exitMonth trades).keys
    fun a b => a ≤ b).nodup_iff.mpr (Dict.groupBy ClosedTrade.exitMonth trades).nodup
  rw [hmonths]
  exact (hsorted.and hnodup).imp fun h => lt_of_le_of_ne h.1 h.2

/-- The rounded profits of the groups are the profit, up to half a cent for each of them and the
roundings of their sums. -/
theorem abs_sum_netPnl_sub_le {κ : Type*} [DecidableEq κ] (key : ClosedTrade → κ)
    (trades : List ClosedTrade) :
    |((Dict.groupBy key trades).entries.map fun e =>
        Quantize.quantize (1 / 100) (A.sum (e.2.map ClosedTrade.netPnl))).sum -
      (trades.map ClosedTrade.netPnl).sum| ≤
        (Dict.groupBy key trades).entries.length * (1 / 200) +
          A.drift trades.length * (trades.map fun t => |t.netPnl|).sum := by
  have hsum := Dict.sum_groupBy key trades ClosedTrade.netPnl
  have hsize := Dict.sum_groupBy key trades fun t => |t.netPnl|
  have hround := Quantize.abs_sum_quantize_sub_le (e := (1 / 100 : ℚ)) (by norm_num)
    ((Dict.groupBy key trades).entries.map fun e => A.sum (e.2.map ClosedTrade.netPnl))
  have hgroups : ∀ e ∈ (Dict.groupBy key trades).entries,
      A.Approx trades.length (e.2.map fun t => |t.netPnl|).sum
        (A.sum (e.2.map ClosedTrade.netPnl)) (e.2.map ClosedTrade.netPnl).sum := by
    intro e he
    have h := A.approx_sum (e.2.map ClosedTrade.netPnl)
    rw [List.map_map, List.length_map, ((Dict.mem_entries_groupBy key trades).mp he).2] at h
    rw [((Dict.mem_entries_groupBy key trades).mp he).2]
    exact h.mono (List.length_filter_le _ _) le_rfl
  have hnear := (Approx.list_sum hgroups).near
  rw [List.map_map, List.length_map] at hround
  rw [Dict.sum, Dict.values, List.map_map] at hsum hsize
  simp only [Function.comp_def] at hsum hsize hround
  rw [hsum, hsize] at hnear
  have hhalf : ((Dict.groupBy key trades).entries.length : ℚ) * (1 / 100 / 2) =
      (Dict.groupBy key trades).entries.length * (1 / 200) := by norm_num
  exact (abs_sub_le _ _ _).trans (add_le_add (hround.trans_eq hhalf) hnear)

/-- **The months share out the trades and their profit**: each has the trades that were closed in
it, they are in their order, and the rounded profits add up to the profit but for half a cent a
month and the roundings of the sums. -/
theorem monthlyPerformance_partition (trades : List ClosedTrade) :
    ((monthlyPerformance A trades).map MonthRow.month).Pairwise (· < ·) ∧
      (∀ row ∈ monthlyPerformance A trades,
        row = monthRow A row.month (trades.filter fun t => t.exitMonth = row.month)) ∧
      ((monthlyPerformance A trades).map MonthRow.tradeCount).sum = trades.length ∧
      |((monthlyPerformance A trades).map MonthRow.netPnl).sum -
          (trades.map ClosedTrade.netPnl).sum| ≤
        (monthlyPerformance A trades).length * (1 / 200) +
          A.drift trades.length * (trades.map fun t => |t.netPnl|).sum := by
  have hperm := @monthlyPerformance_perm A trades
  refine ⟨pairwise_monthlyPerformance trades, fun row hrow => ?_, ?_, ?_⟩
  · obtain ⟨e, he, rfl⟩ := List.mem_map.mp (hperm.mem_iff.mp hrow)
    obtain ⟨-, hgroup⟩ := (Dict.mem_entries_groupBy ClosedTrade.exitMonth trades).mp he
    rw [hgroup]
    rfl
  · rw [(hperm.map MonthRow.tradeCount).sum_eq, List.map_map]
    exact Dict.sum_length_groupBy ClosedTrade.exitMonth trades
  · rw [(hperm.map MonthRow.netPnl).sum_eq, hperm.length_eq, List.map_map, List.length_map]
    exact abs_sum_netPnl_sub_le ClosedTrade.exitMonth trades

/-! ### The last month and its report -/

/-- A month up to a year is not before the months that come before it. -/
theorem year_le_of_monthIndex_le {n m : ℤ} (h : monthIndex n ≤ monthIndex m) :
    (ofDays n).year ≤ (ofDays m).year := by
  obtain ⟨hnlow, hnhigh⟩ := month_ofDays n
  obtain ⟨hmlow, hmhigh⟩ := month_ofDays m
  unfold monthIndex at h
  omega

/-- The trades of the month of now are those with its text. -/
theorem filter_exitMonth {trades : List ClosedTrade} {now : Time}
    (hpast : ∀ t ∈ trades, t.exitTime ≤ now)
    (hyears : ∀ t ∈ trades, 0 ≤ (ofDays t.exitDay).year)
    (hnow : 0 ≤ (ofDays (now / dayMicros)).year ∧ (ofDays (now / dayMicros)).year ≤ 9999) :
    (trades.filter fun t => t.exitMonth = monthText (now / dayMicros)) =
      trades.filter fun t => t.exitTime ≤ now ∧
        periodIndex .monthly t.exitDay = periodIndex .monthly (now / dayMicros) := by
  refine List.filter_congr fun t ht => decide_eq_decide.mpr ?_
  have hday : t.exitDay ≤ now / dayMicros := Int.ediv_le_ediv (by decide) (hpast t ht)
  have hyear := year_le_of_monthIndex_le (monthIndex_mono hday)
  rw [and_iff_right (hpast t ht)]
  exact monthText_inj ⟨hyears t ht, hyear.trans hnow.2⟩ hnow

/-- The win rate of a month is that of the metrics, rounded. -/
theorem winRate_monthRow {startingBalance currentBalance unrealisedPnl : ℚ}
    {trades : List ClosedTrade} {realisedPnl : Option ℚ} {equityCurve : Option (List EquityPoint)}
    {openPositionCount : ℕ} {now : Time} {s : PerformanceSnapshot} (hsome : trades ≠ [])
    (h : compute A startingBalance trades currentBalance unrealisedPnl realisedPnl equityCurve
      openPositionCount now = some s) (month : List Char) :
    (monthRow A month trades).winRate = Quantize.quantize (1 / 10000) s.winRate := by
  simp only [compute, Option.bind_eq_bind, Option.bind_eq_some_iff, Option.some.injEq] at h
  obtain ⟨_, -, _, -, _, -, rfl⟩ := h
  have hcount : trades.length ≠ 0 := by simpa using hsome
  have hwins : ((trades.map ClosedTrade.netPnl).filter (0 < ·)).length =
      trades.countP fun t => 0 < t.netPnl := by
    rw [← List.countP_eq_length_filter, List.countP_map]
    rfl
  simp only [monthRow, if_neg hsome, if_neg hcount, hwins]

/-- The month of now is the last one of the journal, if a trade was closed in it and none after
now. -/
theorem isGreatest_exitMonth {trades group : List ClosedTrade} {now : Time}
    (hpast : ∀ t ∈ trades, t.exitTime ≤ now)
    (hyears : ∀ t ∈ trades, 0 ≤ (ofDays t.exitDay).year)
    (hnow : 0 ≤ (ofDays (now / dayMicros)).year ∧ (ofDays (now / dayMicros)).year ≤ 9999)
    (hget : (Dict.groupBy ClosedTrade.exitMonth trades).get? (monthText (now / dayMicros)) =
      some group) :
    IsGreatest {month | month ∈ (Dict.groupBy ClosedTrade.exitMonth trades).keys}
      (monthText (now / dayMicros)) := by
  refine ⟨List.mem_map.mpr ⟨(_, group), Dict.mem_entries_iff.mpr hget, rfl⟩, ?_⟩
  intro month hmonth
  obtain ⟨e, he, rfl⟩ := List.mem_map.mp hmonth
  obtain ⟨⟨t, ht, hkey⟩, -⟩ := (Dict.mem_entries_groupBy ClosedTrade.exitMonth trades).mp he
  have hday : t.exitDay ≤ now / dayMicros := Int.ediv_le_ediv (by decide) (hpast t ht)
  have hindex := monthIndex_mono hday
  rw [← hkey]
  refine not_lt.mp fun hlt => ?_
  have hback := (monthText_lt_iff hnow
    ⟨hyears t ht, (year_le_of_monthIndex_le hindex).trans hnow.2⟩).mp hlt
  exact absurd hindex (not_le.mpr hback)

/-- **The last month of the journal agrees with the report of the month**: if no trade was closed
after now and some was closed in the month of now, the last row of the months is that of the
report, with its number of trades, its profit and its win rate. -/
theorem monthlyPerformance_report {allTrades : List ClosedTrade} {ctx : AccountContext}
    {now later : Time} {r : Report}
    (h : buildPeriodReport A allTrades .monthly ctx now later = some r)
    (hpast : ∀ t ∈ allTrades, t.exitTime ≤ now)
    (hyears : ∀ t ∈ allTrades, 1000 ≤ (ofDays t.exitDay).year)
    (hnow : (ofDays (now / dayMicros)).year ≤ 9999) (hsome : r.trades ≠ []) :
    (monthlyPerformance A allTrades).getLast? = some
      { month := monthText (now / dayMicros)
        tradeCount := r.tradeCount
        netPnl := Quantize.quantize (1 / 100) (A.sum (r.trades.map ClosedTrade.netPnl))
        winRate := Quantize.quantize (1 / 10000) r.metrics.winRate } := by
  obtain ⟨snap, hmetrics, rfl⟩ := buildPeriodReport_eq_some h
  have htrades := filterTradesInWindow_periodWindow allTrades .monthly now
  have hwindow : filterTradesInWindow allTrades (periodWindow .monthly now).1
      (periodWindow .monthly now).2 ≠ [] := hsome
  have hyears0 : ∀ t ∈ allTrades, 0 ≤ (ofDays t.exitDay).year := fun t ht =>
    (by decide : (0 : ℤ) ≤ 1000).trans (hyears t ht)
  obtain ⟨first, hfirst⟩ := List.exists_mem_of_ne_nil _ hwindow
  -- the trade is of the month of now, so that this is not before the first year
  rw [htrades, List.mem_filter, decide_eq_true_eq] at hfirst
  obtain ⟨hmem, -, hmonth⟩ := hfirst
  have hnow0 : 0 ≤ (ofDays (now / dayMicros)).year :=
    (hyears0 first hmem).trans (year_le_of_monthIndex_le hmonth.le)
  have hgroup := filter_exitMonth hpast hyears0 ⟨hnow0, hnow⟩
  rw [← htrades] at hgroup
  have hget := Dict.get?_groupBy ClosedTrade.exitMonth allTrades (monthText (now / dayMicros))
  rw [hgroup, if_neg hwindow] at hget
  have hlast := isGreatest_exitMonth hpast hyears0 ⟨hnow0, hnow⟩ hget
  have hrate := winRate_monthRow hwindow hmetrics (monthText (now / dayMicros))
  rw [monthlyPerformance, List.getLast?_map, getLast?_mergeSort hlast, Option.map_some, hget,
    Option.getD_some]
  simp only [generateReportPayload, ← hrate]
  rfl

/-- March 2024 by its middle. -/
theorem monthlyPerformance_report_march :
    (monthlyPerformance decimal28 twoTrades).getLast? = some
      { month := "2024-03".toList, tradeCount := 1, netPnl := 3, winRate := 1 } := by
  have hsome : (buildPeriodReport decimal28 twoTrades .monthly (.ofBalance 100) (19797 * dayMicros)
      (19797 * dayMicros)).isSome := by decide +kernel
  obtain ⟨r, hr⟩ := Option.isSome_iff_exists.mp hsome
  have hvalues : (buildPeriodReport decimal28 twoTrades .monthly (.ofBalance 100) (19797 * dayMicros)
      (19797 * dayMicros)).map (fun r => (r.trades, r.tradeCount, r.metrics.winRate)) =
        some ([.ofExit (19792 * dayMicros) 3], 1, 1) := by decide +kernel
  rw [hr, Option.map_some, Option.some.injEq, Prod.mk.injEq, Prod.mk.injEq] at hvalues
  obtain ⟨htrades, hcount, hrate⟩ := hvalues
  have h := monthlyPerformance_report hr (by decide +kernel) (by decide +kernel)
    (by decide +kernel) (by rw [htrades]; exact List.cons_ne_nil _ _)
  rw [h, htrades, hcount, hrate]
  decide +kernel

/-! ### The strategies share out the trades -/

theorem map_rank_ranked (rows : List RankingRow) :
    (ranked rows).map RankingRow.rank = List.range' 1 rows.length := by
  rw [ranked, List.map_map]
  exact List.zipIdx_map_snd 1 rows

/-- The places change nothing else. -/
theorem map_ranked {β : Type*} {f : RankingRow → β}
    (hf : ∀ row rank, f { row with rank := rank } = f row) (rows : List RankingRow) :
    (ranked rows).map f = rows.map f := by
  have hrow : f ∘ (fun e : RankingRow × ℕ => { e.1 with rank := e.2 }) = f ∘ Prod.fst :=
    funext fun e => hf e.1 e.2
  rw [ranked, List.map_map, hrow, ← List.map_map, List.zipIdx_map_fst]

/-- What does not depend on the places is found in the rows of the strategies. -/
theorem map_strategyRankings_perm {β : Type*} {f : RankingRow → β}
    (hf : ∀ row rank, f { row with rank := rank } = f row) (selfBalance : ℚ)
    (trades : List ClosedTrade) (startingBalance : Option ℚ) :
    ((strategyRankings A selfBalance trades startingBalance).map f).Perm
      ((strategyRows A (rankingStart selfBalance startingBalance) trades).map f) := by
  rw [strategyRankings, map_ranked hf]
  exact (List.mergeSort_perm _ _).map f

theorem pairwise_strategyRankings (selfBalance : ℚ) (trades : List ClosedTrade)
    (startingBalance : Option ℚ) :
    ((strategyRankings A selfBalance trades startingBalance).map RankingRow.netPnl).Pairwise
      (· ≥ ·) := by
  rw [strategyRankings, map_ranked fun _ _ => rfl, List.pairwise_map]
  exact pairwise_mergeSort_ge RankingRow.netPnl _

theorem length_strategyRankings (selfBalance : ℚ) (trades : List ClosedTrade)
    (startingBalance : Option ℚ) :
    (strategyRankings A selfBalance trades startingBalance).length =
      (Dict.groupBy ClosedTrade.strategyName trades).entries.length := by
  rw [strategyRankings, ranked, List.length_map, List.length_zipIdx, List.length_mergeSort,
    strategyRows, List.length_map]

theorem map_rank_strategyRankings (selfBalance : ℚ) (trades : List ClosedTrade)
    (startingBalance : Option ℚ) :
    (strategyRankings A selfBalance trades startingBalance).map RankingRow.rank =
      List.range' 1 (strategyRankings A selfBalance trades startingBalance).length := by
  have hlength : (strategyRankings A selfBalance trades startingBalance).length =
      ((strategyRows A (rankingStart selfBalance startingBalance) trades).mergeSort
        fun row row' => row'.netPnl ≤ row.netPnl).length :=
    (List.length_map ..).trans (List.length_zipIdx ..)
  rw [hlength]
  exact map_rank_ranked _

/-- Each row is that of all trades of its strategy. -/
theorem eq_of_mem_strategyRankings {selfBalance : ℚ} {trades : List ClosedTrade}
    {startingBalance : Option ℚ} {row : RankingRow}
    (h : row ∈ strategyRankings A selfBalance trades startingBalance) :
    { row with rank := 0 } = rankingRow A (rankingStart selfBalance startingBalance)
      row.strategyName (trades.filter fun t => t.strategyName = row.strategyName) := by
  have hperm : ((strategyRankings A selfBalance trades startingBalance).map
      fun row => { row with rank := 0 }).Perm _ := map_strategyRankings_perm (fun _ _ => rfl) ..
  have hrow := hperm.mem_iff.mp (List.mem_map.mpr ⟨row, h, rfl⟩)
  obtain ⟨row', hrow', heq⟩ := List.mem_map.mp hrow
  obtain ⟨e, he, rfl⟩ := List.mem_map.mp hrow'
  obtain ⟨-, hgroup⟩ := (Dict.mem_entries_groupBy ClosedTrade.strategyName trades).mp he
  have hname : e.1 = row.strategyName := congrArg RankingRow.strategyName heq
  rw [← heq, ← hname, ← hgroup]
  rfl

/-- **The rankings share out the trades and their profit**: each strategy has one row, with all of
its trades; the places are 1, 2, … from the greatest profit down; and the rounded profits add up
to the profit but for half a cent a strategy and the roundings of the sums. -/
theorem strategyRankings_partition (selfBalance : ℚ) (trades : List ClosedTrade)
    (startingBalance : Option ℚ) :
    let rows := strategyRankings A selfBalance trades startingBalance
    rows.map RankingRow.rank = List.range' 1 rows.length ∧
      (rows.map RankingRow.netPnl).Pairwise (· ≥ ·) ∧
      (rows.map RankingRow.strategyName).Nodup ∧
      (∀ t ∈ trades, ∃ row ∈ rows, row.strategyName = t.strategyName) ∧
      (∀ row ∈ rows, { row with rank := 0 } =
        rankingRow A (rankingStart selfBalance startingBalance) row.strategyName
          (trades.filter fun t => t.strategyName = row.strategyName)) ∧
      (rows.map RankingRow.tradeCount).sum = trades.length ∧
      |(rows.map RankingRow.netPnl).sum - (trades.map ClosedTrade.netPnl).sum| ≤
        rows.length * (1 / 200) +
          A.drift trades.length * (trades.map fun t => |t.netPnl|).sum := by
  intro rows
  have hperm {β : Type} {f : RankingRow → β}
      (hf : ∀ row rank, f { row with rank := rank } = f row) :
      (rows.map f).Perm ((strategyRows A (rankingStart selfBalance startingBalance) trades).map f) :=
    map_strategyRankings_perm hf selfBalance trades startingBalance
  have hnames := hperm (f := RankingRow.strategyName) fun _ _ => rfl
  refine ⟨map_rank_strategyRankings .., pairwise_strategyRankings .., ?_, fun t ht => ?_,
    fun row => eq_of_mem_strategyRankings, ?_, ?_⟩
  · rw [hnames.nodup_iff, strategyRows, List.map_map]
    exact (Dict.groupBy ClosedTrade.strategyName trades).nodup
  · have hentry := (Dict.mem_entries_groupBy ClosedTrade.strategyName trades).mpr
      ⟨⟨t, ht, rfl⟩, rfl⟩
    refine List.mem_map.mp (hnames.mem_iff.mpr ?_)
    exact List.mem_map.mpr ⟨_, List.mem_map.mpr ⟨_, hentry, rfl⟩, rfl⟩
  · rw [(hperm fun _ _ => rfl).sum_eq, strategyRows, List.map_map]
    exact Dict.sum_length_groupBy ClosedTrade.strategyName trades
  · rw [(hperm fun _ _ => rfl).sum_eq, length_strategyRankings, strategyRows, List.map_map]
    exact abs_sum_netPnl_sub_le ClosedTrade.strategyName trades

end Analytics

end Atlas
