import Atlas.Lib.Result
import Atlas.Risk.Engine

/-!
# The settings

A process is configured by texts of its environment.  The three texts that say how it is to
trade are normalised, and what is not recognised is read as paper; the decimals have to be
finite, and four of them may be given as a fraction or in percent.  The last validator looks at
the settings as a whole.

The methods of `str` and `json.loads` are parameters (`Texts`): what is shown holds for
whatever the Unicode tables say.

## Main definitions

* `RawSettings`, `Settings` — what is given, and what is kept.
* `RawSettings.load` — the validators, in the order in which they run.
* `deriveRuntimeMode`, `Settings.runtimeMode` — how the process is to trade.
* `RawSettings.Acceptable`, `Settings.Valid` — what is accepted, and what is kept.

## Main results

* `load_ok_iff` — **which configurations are accepted, and that what is kept of them is valid**.
* `percentage_again` — what a percentage becomes that is read twice.

## References

`app/core/config.py`, `app/core/runtime_mode.py`.
-/

namespace Atlas

namespace Server

/-! ### Texts -/

/-- The methods of `str` that the settings use, and the entries of a JSON list as texts, where
a text is one. -/
structure Texts where
  lower : String → String
  upper : String → String
  strip : String → String
  repr : String → String
  jsonList : String → Option (List String)

/-- The methods on texts in ASCII; no text is a JSON list. -/
def Texts.ascii : Texts where
  lower s := String.ofList (s.toList.map Char.toLower)
  upper s := String.ofList (s.toList.map Char.toUpper)
  strip s :=
    let left := s.toList.dropWhile Char.isWhitespace
    String.ofList (left.reverse.dropWhile Char.isWhitespace).reverse
  repr s := "'" ++ s ++ "'"
  jsonList _ := none

/-! ### Modes -/

inductive ExchangeEnv
  | paper
  | testnet
  | live
  | backtest
  deriving DecidableEq, Repr, Inhabited

inductive RuntimeMode
  | backtest
  | paper
  | testnet
  | live
  deriving DecidableEq, Repr, Inhabited

variable (texts : Texts)

/-- `_normalize_trading_mode`. -/
def normalizeTradingMode : Option String → TradingMode
  | none => .paper
  | some value =>
      if texts.strip value = "" then .paper
      else if texts.strip (texts.lower value) = "live" then .live
      else .paper

/-- `_normalize_exchange_env`; the flags are those of `EXCHANGE_TESTNET`. -/
def normalizeExchangeEnv : Option String → ExchangeEnv
  | none => .paper
  | some value =>
      let raw := texts.strip (texts.lower value)
      if texts.strip value = "" then .paper
      else if raw ∈ ["true", "1", "yes"] then .testnet
      else if raw = "testnet" then .testnet
      else if raw = "live" then .live
      else if raw = "backtest" then .backtest
      else .paper

/-- `_normalize_runtime_mode_field`. -/
def normalizeRuntimeModeField : Option String → Option String
  | none => none
  | some value => if texts.strip value = "" then none else some (texts.upper (texts.strip value))

/-- `normalize_runtime_mode`. -/
def normalizeRuntimeMode : Option String → RuntimeMode
  | none => .paper
  | some raw =>
      if texts.strip raw = "" then .paper
      else
        let value := texts.upper (texts.strip raw)
        if value = "BACKTEST" then .backtest
        else if value = "TESTNET" then .testnet
        else if value = "LIVE" then .live
        else .paper

/-- `derive_runtime_mode`, for the values that the other two modes have in the settings. -/
def deriveRuntimeMode (explicit : Option String) (tradingMode : TradingMode)
    (exchangeEnv : ExchangeEnv) : RuntimeMode :=
  if ∃ e ∈ explicit, texts.strip e ≠ "" then normalizeRuntimeMode texts explicit
  else if tradingMode = .live then .live
  else if exchangeEnv = .testnet then .testnet
  else if exchangeEnv = .backtest then .backtest
  else .paper

/-- `allows_simulated_orders`. -/
def allowsSimulatedOrders (mode : RuntimeMode) : Bool :=
  mode = .backtest ∨ mode = .paper ∨ mode = .testnet

/-- `allows_live_orders`. -/
def allowsLiveOrders (mode : RuntimeMode) : Bool := mode = .live

/-! ### Settings -/

/-- A decimal as it is given, after `Decimal(str(value))`. -/
inductive RawDecimal
  | none
  /-- It is not a decimal; `repr` of the value. -/
  | invalid (repr : String)
  /-- NaN, or infinite. -/
  | notFinite
  | finite (d : ℚ)
  deriving DecidableEq, Repr, Inhabited

/-- `_decimal_finite`. -/
def decimalFinite : RawDecimal → Except String ℚ
  | .none => .error "numeric setting must not be None"
  | .invalid repr => .error ("invalid decimal setting: " ++ repr)
  | .notFinite => .error "NaN/Infinity are not allowed for financial settings"
  | .finite d => .ok d

/-- `_normalize_percent_or_fraction`. -/
def normalizePercentOrFraction (value : ℚ) : Except String ℚ :=
  if value < 0 then .error "risk percentages must be non-negative"
  else if 100 < value then .error "risk percentage out of range"
  else if 1 ≤ value then .ok (value / 100)
  else .ok value

/-- The two validators of a percentage. -/
def percentage (raw : RawDecimal) : Except String ℚ :=
  decimalFinite raw >>= normalizePercentOrFraction

/-- `Field(ge=low)`. -/
def atLeast (low n : ℤ) : Except String ℤ :=
  if n < low then .error s!"Input should be greater than or equal to {low}" else .ok n

/-- `Field(ge=low, le=high)`. -/
def between (low high n : ℤ) : Except String ℤ :=
  if high < n then .error s!"Input should be less than or equal to {high}" else atLeast low n

/-- What is given; flags and integers are read already, and texts are as they stand. -/
structure RawSettings where
  apiPort : ℤ := 8000
  tradingMode : Option String := none
  liveTradingEnabled : Bool := false
  tradingEnabled : Bool := false
  killSwitchEnabled : Bool := false
  /-- `EXCHANGE_ENV`, and `EXCHANGE_TESTNET` where that is absent. -/
  exchangeEnv : Option String := none
  exchangeTestnet : Option String := none
  liveStartupAck : String := ""
  atlasRuntimeMode : Option String := none
  exchangeApiKey : Option String := none
  exchangeApiSecret : Option String := none
  marketDataStaleSeconds : ℤ := 30
  orderCooldownSeconds : ℤ := 0
  enableTradingScheduler : Bool := false
  paperCycleIntervalSeconds : ℤ := 60
  enableReconciliation : Bool := true
  reconciliationIntervalSeconds : ℤ := 120
  schedulerFailureThreshold : ℤ := 5
  cycleLockTtlSeconds : ℤ := 120
  paperStartingBalance : RawDecimal := .finite 10000
  paperFeeBps : RawDecimal := .finite 10
  paperSlippageBps : RawDecimal := .finite 5
  maxRiskPerTrade : RawDecimal := .finite (1 / 100)
  maxPositionExposure : RawDecimal := .finite (1 / 5)
  maxDailyLoss : RawDecimal := .finite (3 / 100)
  maxDrawdown : RawDecimal := .finite (1 / 10)
  minOrderNotional : RawDecimal := .finite 10
  defaultLeverage : RawDecimal := .finite 1
  supportedSymbols : Option String := none
  supportedTimeframes : List String := ["1m", "5m", "15m", "1h", "4h"]
  defaultSymbol : String := "BTC/USDT"
  defaultTimeframe : String := "5m"
  fastEmaPeriod : ℤ := 9
  slowEmaPeriod : ℤ := 21
  rsiPeriod : ℤ := 14
  stopLossPercent : RawDecimal := .finite 1
  takeProfitPercent : RawDecimal := .finite 2
  deriving DecidableEq, Repr, Inhabited

structure Settings where
  apiPort : ℤ
  tradingMode : TradingMode
  liveTradingEnabled : Bool
  tradingEnabled : Bool
  killSwitchEnabled : Bool
  exchangeEnv : ExchangeEnv
  liveStartupAck : String
  atlasRuntimeMode : Option String
  exchangeApiKey : Option String
  exchangeApiSecret : Option String
  marketDataStaleSeconds : ℤ
  orderCooldownSeconds : ℤ
  enableTradingScheduler : Bool
  paperCycleIntervalSeconds : ℤ
  enableReconciliation : Bool
  reconciliationIntervalSeconds : ℤ
  schedulerFailureThreshold : ℤ
  cycleLockTtlSeconds : ℤ
  paperStartingBalance : ℚ
  paperFeeBps : ℚ
  paperSlippageBps : ℚ
  maxRiskPerTrade : ℚ
  maxPositionExposure : ℚ
  maxDailyLoss : ℚ
  maxDrawdown : ℚ
  minOrderNotional : ℚ
  defaultLeverage : ℚ
  supportedSymbols : List String
  supportedTimeframes : List String
  defaultSymbol : String
  defaultTimeframe : String
  fastEmaPeriod : ℤ
  slowEmaPeriod : ℤ
  rsiPeriod : ℤ
  stopLossPercent : ℚ
  takeProfitPercent : ℚ
  deriving DecidableEq, Repr, Inhabited

inductive SettingsError
  /-- The fields that do not pass, in the order of the class, each with its message. -/
  | validation (errors : List (String × String))
  | configuration (message : String)
  deriving DecidableEq, Repr

/-- `_parse_symbols` of a text. -/
def parseSymbols : Option String → List String
  | none => ["BTC/USDT"]
  | some value =>
      if value = "" then ["BTC/USDT"]
      else
        let raw := texts.strip value
        let listed := if raw.startsWith "[" then texts.jsonList raw else none
        match listed with
        | some decoded => (decoded.map texts.strip).filter (· ≠ "")
        | none =>
            let pieces := (raw.toList.splitOnP fun c => c = ',' ∨ c = ';').map String.ofList
            match (pieces.map texts.strip).filter (· ≠ "") with
            | [] => ["BTC/USDT"]
            | parts => parts

/-- The message of a validator that does not pass. -/
def message {α : Type} (r : Except String α) : Option String :=
  match r with
  | .error e => some e
  | .ok _ => none

/-- The validators of the fields, in the order of the class. -/
def RawSettings.validators (raw : RawSettings) : List (String × Option String) :=
  [("api_port", message (between 1 65535 raw.apiPort)),
    ("market_data_stale_seconds", message (atLeast 1 raw.marketDataStaleSeconds)),
    ("order_cooldown_seconds", message (atLeast 0 raw.orderCooldownSeconds)),
    ("paper_cycle_interval_seconds", message (atLeast 5 raw.paperCycleIntervalSeconds)),
    ("reconciliation_interval_seconds", message (atLeast 30 raw.reconciliationIntervalSeconds)),
    ("scheduler_failure_threshold", message (atLeast 1 raw.schedulerFailureThreshold)),
    ("cycle_lock_ttl_seconds", message (atLeast 10 raw.cycleLockTtlSeconds)),
    ("paper_starting_balance", message (decimalFinite raw.paperStartingBalance)),
    ("paper_fee_bps", message (decimalFinite raw.paperFeeBps)),
    ("paper_slippage_bps", message (decimalFinite raw.paperSlippageBps)),
    ("max_risk_per_trade", message (percentage raw.maxRiskPerTrade)),
    ("max_position_exposure", message (percentage raw.maxPositionExposure)),
    ("max_daily_loss", message (percentage raw.maxDailyLoss)),
    ("max_drawdown", message (percentage raw.maxDrawdown)),
    ("min_order_notional", message (decimalFinite raw.minOrderNotional)),
    ("default_leverage", message (decimalFinite raw.defaultLeverage)),
    ("fast_ema_period", message (atLeast 1 raw.fastEmaPeriod)),
    ("slow_ema_period", message (atLeast 2 raw.slowEmaPeriod)),
    ("rsi_period", message (atLeast 2 raw.rsiPeriod)),
    ("stop_loss_percent", message (decimalFinite raw.stopLossPercent)),
    ("take_profit_percent", message (decimalFinite raw.takeProfitPercent))]

/-- The fields, if all validators pass. -/
def RawSettings.fields (raw : RawSettings) : Except String Settings := do
  let apiPort ← between 1 65535 raw.apiPort
  let marketDataStaleSeconds ← atLeast 1 raw.marketDataStaleSeconds
  let orderCooldownSeconds ← atLeast 0 raw.orderCooldownSeconds
  let paperCycleIntervalSeconds ← atLeast 5 raw.paperCycleIntervalSeconds
  let reconciliationIntervalSeconds ← atLeast 30 raw.reconciliationIntervalSeconds
  let schedulerFailureThreshold ← atLeast 1 raw.schedulerFailureThreshold
  let cycleLockTtlSeconds ← atLeast 10 raw.cycleLockTtlSeconds
  let paperStartingBalance ← decimalFinite raw.paperStartingBalance
  let paperFeeBps ← decimalFinite raw.paperFeeBps
  let paperSlippageBps ← decimalFinite raw.paperSlippageBps
  let maxRiskPerTrade ← percentage raw.maxRiskPerTrade
  let maxPositionExposure ← percentage raw.maxPositionExposure
  let maxDailyLoss ← percentage raw.maxDailyLoss
  let maxDrawdown ← percentage raw.maxDrawdown
  let minOrderNotional ← decimalFinite raw.minOrderNotional
  let defaultLeverage ← decimalFinite raw.defaultLeverage
  let fastEmaPeriod ← atLeast 1 raw.fastEmaPeriod
  let slowEmaPeriod ← atLeast 2 raw.slowEmaPeriod
  let rsiPeriod ← atLeast 2 raw.rsiPeriod
  let stopLossPercent ← decimalFinite raw.stopLossPercent
  let takeProfitPercent ← decimalFinite raw.takeProfitPercent
  return {
    apiPort := apiPort
    tradingMode := normalizeTradingMode texts raw.tradingMode
    liveTradingEnabled := raw.liveTradingEnabled
    tradingEnabled := raw.tradingEnabled
    killSwitchEnabled := raw.killSwitchEnabled
    exchangeEnv := normalizeExchangeEnv texts (raw.exchangeEnv <|> raw.exchangeTestnet)
    liveStartupAck := raw.liveStartupAck
    atlasRuntimeMode := normalizeRuntimeModeField texts raw.atlasRuntimeMode
    exchangeApiKey := raw.exchangeApiKey
    exchangeApiSecret := raw.exchangeApiSecret
    marketDataStaleSeconds := marketDataStaleSeconds
    orderCooldownSeconds := orderCooldownSeconds
    enableTradingScheduler := raw.enableTradingScheduler
    paperCycleIntervalSeconds := paperCycleIntervalSeconds
    enableReconciliation := raw.enableReconciliation
    reconciliationIntervalSeconds := reconciliationIntervalSeconds
    schedulerFailureThreshold := schedulerFailureThreshold
    cycleLockTtlSeconds := cycleLockTtlSeconds
    paperStartingBalance := paperStartingBalance
    paperFeeBps := paperFeeBps
    paperSlippageBps := paperSlippageBps
    maxRiskPerTrade := maxRiskPerTrade
    maxPositionExposure := maxPositionExposure
    maxDailyLoss := maxDailyLoss
    maxDrawdown := maxDrawdown
    minOrderNotional := minOrderNotional
    defaultLeverage := defaultLeverage
    supportedSymbols := parseSymbols texts raw.supportedSymbols
    supportedTimeframes := raw.supportedTimeframes
    defaultSymbol := raw.defaultSymbol
    defaultTimeframe := raw.defaultTimeframe
    fastEmaPeriod := fastEmaPeriod
    slowEmaPeriod := slowEmaPeriod
    rsiPeriod := rsiPeriod
    stopLossPercent := stopLossPercent
    takeProfitPercent := takeProfitPercent }

/-- `dict.fromkeys`: the first occurrence of each. -/
def fromkeys (keys : List String) : List String := keys.eraseDups

/-- `_validate_paper_invariants`. -/
def Settings.validatePaperInvariants (s : Settings) : Except SettingsError Settings :=
  if s.paperStartingBalance ≤ 0 then
    .error (.configuration "PAPER_STARTING_BALANCE must be > 0")
  else if s.paperFeeBps < 0 ∨ s.paperSlippageBps < 0 then
    .error (.configuration "PAPER fee/slippage bps must be >= 0")
  else if s.defaultLeverage ≠ 1 then
    .error (.configuration "default_leverage must be 1 — leverage is not supported")
  else if s.slowEmaPeriod ≤ s.fastEmaPeriod then
    .error (.configuration "FAST_EMA_PERIOD must be < SLOW_EMA_PERIOD")
  else if s.stopLossPercent ≤ 0 ∨ s.takeProfitPercent ≤ 0 then
    .error (.configuration "STOP_LOSS_PERCENT and TAKE_PROFIT_PERCENT must be > 0")
  else if s.defaultTimeframe ∉ s.supportedTimeframes then
    .error (.configuration
      ("DEFAULT_TIMEFRAME=" ++ texts.repr s.defaultTimeframe ++ " not in supported timeframes"))
  else
    -- the list of symbols is completed before the timeframe is looked at, which it cannot change
    .ok (if s.defaultSymbol ≠ "" ∧ s.defaultSymbol ∉ s.supportedSymbols then
        { s with supportedSymbols := fromkeys (s.supportedSymbols ++ [s.defaultSymbol]) }
      else s)

/-- `Settings()`. -/
def RawSettings.load (raw : RawSettings) : Except SettingsError Settings :=
  match raw.fields texts with
  | .error _ =>
      .error (.validation (raw.validators.filterMap fun v => v.2.map fun m => (v.1, m)))
  | .ok s => s.validatePaperInvariants texts

/-- `runtime_mode`. -/
def Settings.runtimeMode (s : Settings) : RuntimeMode :=
  deriveRuntimeMode texts s.atlasRuntimeMode s.tradingMode s.exchangeEnv

/-- `has_exchange_credentials`. -/
def Settings.hasExchangeCredentials (s : Settings) : Bool :=
  texts.strip (s.exchangeApiKey.getD "") ≠ "" ∧ texts.strip (s.exchangeApiSecret.getD "") ≠ ""

/-! ### What is accepted -/

/-- A decimal setting with a property. -/
def RawDecimal.Is (P : ℚ → Prop) : RawDecimal → Prop
  | .finite d => P d
  | _ => False

/-- The configurations that are accepted. -/
structure RawSettings.Acceptable (raw : RawSettings) : Prop where
  port : 1 ≤ raw.apiPort ∧ raw.apiPort ≤ 65535
  stale : 1 ≤ raw.marketDataStaleSeconds
  cooldown : 0 ≤ raw.orderCooldownSeconds
  interval : 5 ≤ raw.paperCycleIntervalSeconds
  reconciliation : 30 ≤ raw.reconciliationIntervalSeconds
  threshold : 1 ≤ raw.schedulerFailureThreshold
  ttl : 10 ≤ raw.cycleLockTtlSeconds
  balance : raw.paperStartingBalance.Is (0 < ·)
  fee : raw.paperFeeBps.Is (0 ≤ ·)
  slippage : raw.paperSlippageBps.Is (0 ≤ ·)
  percentages : ∀ p ∈ [raw.maxRiskPerTrade, raw.maxPositionExposure, raw.maxDailyLoss,
    raw.maxDrawdown], p.Is fun d => 0 ≤ d ∧ d ≤ 100
  minNotional : raw.minOrderNotional.Is fun _ => True
  leverage : raw.defaultLeverage.Is (· = 1)
  fast : 1 ≤ raw.fastEmaPeriod
  slow : 2 ≤ raw.slowEmaPeriod
  periods : raw.fastEmaPeriod < raw.slowEmaPeriod
  rsi : 2 ≤ raw.rsiPeriod
  stopLoss : raw.stopLossPercent.Is (0 < ·)
  takeProfit : raw.takeProfitPercent.Is (0 < ·)
  timeframe : raw.defaultTimeframe ∈ raw.supportedTimeframes

/-- What is kept of a configuration that is accepted. -/
structure Settings.Valid (s : Settings) : Prop where
  port : 1 ≤ s.apiPort ∧ s.apiPort ≤ 65535
  stale : 1 ≤ s.marketDataStaleSeconds
  cooldown : 0 ≤ s.orderCooldownSeconds
  interval : 5 ≤ s.paperCycleIntervalSeconds
  reconciliation : 30 ≤ s.reconciliationIntervalSeconds
  threshold : 1 ≤ s.schedulerFailureThreshold
  ttl : 10 ≤ s.cycleLockTtlSeconds
  balance : 0 < s.paperStartingBalance
  fee : 0 ≤ s.paperFeeBps
  slippage : 0 ≤ s.paperSlippageBps
  percentages : ∀ p ∈ [s.maxRiskPerTrade, s.maxPositionExposure, s.maxDailyLoss, s.maxDrawdown],
    0 ≤ p ∧ p ≤ 1
  leverage : s.defaultLeverage = 1
  periods : 1 ≤ s.fastEmaPeriod ∧ s.fastEmaPeriod < s.slowEmaPeriod
  rsi : 2 ≤ s.rsiPeriod
  stopLoss : 0 < s.stopLossPercent
  takeProfit : 0 < s.takeProfitPercent
  symbol : s.defaultSymbol ≠ "" → s.defaultSymbol ∈ s.supportedSymbols
  timeframe : s.defaultTimeframe ∈ s.supportedTimeframes

variable {texts}

theorem atLeast_eq_ok_iff {low n m : ℤ} : atLeast low n = .ok m ↔ low ≤ n ∧ m = n := by
  unfold atLeast
  split <;> rename_i h
  · simp [not_le.mpr h]
  · simp [not_lt.mp h, eq_comm]

theorem between_eq_ok_iff {low high n m : ℤ} :
    between low high n = .ok m ↔ (low ≤ n ∧ n ≤ high) ∧ m = n := by
  unfold between
  split <;> rename_i h
  · simp [not_le.mpr h]
  · rw [atLeast_eq_ok_iff, and_iff_left (not_lt.mp h)]

theorem decimalFinite_eq_ok_iff {raw : RawDecimal} {d : ℚ} :
    decimalFinite raw = .ok d ↔ raw = .finite d := by
  cases raw <;> simp [decimalFinite]

/-- **What becomes of a percentage.**  From 1 on it is in percent. -/
theorem percentage_eq_ok_iff {raw : RawDecimal} {p : ℚ} :
    percentage raw = .ok p ↔
      ∃ d, raw = .finite d ∧ 0 ≤ d ∧ d ≤ 100 ∧ p = if 1 ≤ d then d / 100 else d := by
  simp only [percentage, Except.bind_eq_ok, decimalFinite_eq_ok_iff]
  refine exists_congr fun d => and_congr_right fun _ => ?_
  unfold normalizePercentOrFraction
  split <;> rename_i hneg
  · simp [not_le.mpr hneg]
  split <;> rename_i hbig
  · simp [not_le.mpr hbig]
  split <;> rename_i hpercent
  · simp [not_lt.mp hneg, not_lt.mp hbig, eq_comm]
  · simp [not_lt.mp hneg, not_lt.mp hbig, eq_comm]

/-- A percentage that is kept is at most 1. -/
theorem percentage_bounds {raw : RawDecimal} {p : ℚ} (h : percentage raw = .ok p) :
    0 ≤ p ∧ p ≤ 1 := by
  obtain ⟨d, -, hd, hd100, rfl⟩ := percentage_eq_ok_iff.mp h
  split <;> rename_i hpercent
  · exact ⟨by positivity, by linarith⟩
  · exact ⟨hd, (not_le.mp hpercent).le⟩

/-- **Percentages that are read again.**  They stay as they are, but 1, which was 100 percent, is
one percent then. -/
theorem percentage_again {raw : RawDecimal} {p : ℚ} (h : percentage raw = .ok p) :
    percentage (.finite p) = .ok (if p = 1 then 1 / 100 else p) := by
  obtain ⟨hp, hp1⟩ := percentage_bounds h
  refine percentage_eq_ok_iff.mpr ⟨p, rfl, hp, by linarith, ?_⟩
  by_cases h1 : p = 1
  · rw [if_pos h1, if_pos h1.ge, h1]
  · rw [if_neg h1, if_neg fun hge => h1 (le_antisymm hp1 hge)]

/-- What of the environment the settings keep unread. -/
structure Settings.Reads (texts : Texts) (raw : RawSettings) (s : Settings) : Prop where
  tradingMode : s.tradingMode = normalizeTradingMode texts raw.tradingMode
  exchangeEnv : s.exchangeEnv = normalizeExchangeEnv texts (raw.exchangeEnv <|> raw.exchangeTestnet)
  runtimeMode : s.atlasRuntimeMode = normalizeRuntimeModeField texts raw.atlasRuntimeMode
  live : s.liveTradingEnabled = raw.liveTradingEnabled

/-- The fields that have passed their validators, as far as the last validator reads them. -/
structure Settings.Passed (raw : RawSettings) (s : Settings) : Prop where
  port : between 1 65535 raw.apiPort = .ok s.apiPort
  stale : atLeast 1 raw.marketDataStaleSeconds = .ok s.marketDataStaleSeconds
  cooldown : atLeast 0 raw.orderCooldownSeconds = .ok s.orderCooldownSeconds
  interval : atLeast 5 raw.paperCycleIntervalSeconds = .ok s.paperCycleIntervalSeconds
  reconciliation :
    atLeast 30 raw.reconciliationIntervalSeconds = .ok s.reconciliationIntervalSeconds
  threshold : atLeast 1 raw.schedulerFailureThreshold = .ok s.schedulerFailureThreshold
  ttl : atLeast 10 raw.cycleLockTtlSeconds = .ok s.cycleLockTtlSeconds
  balance : raw.paperStartingBalance = .finite s.paperStartingBalance
  fee : raw.paperFeeBps = .finite s.paperFeeBps
  slippage : raw.paperSlippageBps = .finite s.paperSlippageBps
  risk : percentage raw.maxRiskPerTrade = .ok s.maxRiskPerTrade
  position : percentage raw.maxPositionExposure = .ok s.maxPositionExposure
  dailyLoss : percentage raw.maxDailyLoss = .ok s.maxDailyLoss
  drawdown : percentage raw.maxDrawdown = .ok s.maxDrawdown
  minNotional : raw.minOrderNotional = .finite s.minOrderNotional
  leverage : raw.defaultLeverage = .finite s.defaultLeverage
  fast : atLeast 1 raw.fastEmaPeriod = .ok s.fastEmaPeriod
  slow : atLeast 2 raw.slowEmaPeriod = .ok s.slowEmaPeriod
  rsi : atLeast 2 raw.rsiPeriod = .ok s.rsiPeriod
  stopLoss : raw.stopLossPercent = .finite s.stopLossPercent
  takeProfit : raw.takeProfitPercent = .finite s.takeProfitPercent
  timeframes : s.supportedTimeframes = raw.supportedTimeframes
  timeframe : s.defaultTimeframe = raw.defaultTimeframe

/-- **What the fields are once all validators have passed.** -/
theorem fields_eq_ok {raw : RawSettings} {s : Settings} (h : raw.fields texts = .ok s) :
    s.Passed raw ∧ s.Reads texts raw := by
  simp only [RawSettings.fields, Except.bind_eq_ok, decimalFinite_eq_ok_iff] at h
  obtain ⟨port, hport, stale, hstale, cooldown, hcooldown, interval, hinterval, reconciliation,
    hreconciliation, threshold, hthreshold, ttl, httl, balance, hbalance, fee, hfee, slippage,
    hslippage, risk, hrisk, position, hposition, loss, hloss, drawdown, hdrawdown, notional,
    hnotional, leverage, hleverage, fast, hfast, slow, hslow, rsi, hrsi, stop, hstop, target,
    htarget, h⟩ := h
  obtain rfl := Except.ok.inj h
  exact ⟨⟨hport, hstale, hcooldown, hinterval, hreconciliation, hthreshold, httl, hbalance, hfee,
    hslippage, hrisk, hposition, hloss, hdrawdown, hnotional, hleverage, hfast, hslow, hrsi, hstop,
    htarget, rfl, rfl⟩, ⟨rfl, rfl, rfl, rfl⟩⟩

/-- The validators of the fields all pass on what is acceptable. -/
theorem exists_fields {raw : RawSettings} (h : raw.Acceptable) :
    ∃ s, raw.fields texts = .ok s := by
  have decimal {P : ℚ → Prop} {r : RawDecimal} (hr : r.Is P) : ∃ d, decimalFinite r = .ok d := by
    cases r with
    | finite d => exact ⟨d, rfl⟩
    | _ => exact hr.elim
  have percent {r : RawDecimal} (hr : r.Is fun d => 0 ≤ d ∧ d ≤ 100) :
      ∃ p, percentage r = .ok p := by
    cases r with
    | finite d => exact ⟨_, percentage_eq_ok_iff.mpr ⟨d, rfl, hr.1, hr.2, rfl⟩⟩
    | _ => exact hr.elim
  have integer {low n : ℤ} (hn : low ≤ n) : ∃ m, atLeast low n = .ok m :=
    ⟨n, atLeast_eq_ok_iff.mpr ⟨hn, rfl⟩⟩
  have hp := h.percentages
  simp only [List.forall_mem_cons] at hp
  obtain ⟨hrisk, hposition, hloss, hdrawdown, -⟩ := hp
  refine Except.exists_bind_ok ⟨_, between_eq_ok_iff.mpr ⟨h.port, rfl⟩⟩ fun _ => ?_
  refine Except.exists_bind_ok (integer h.stale) fun _ => ?_
  refine Except.exists_bind_ok (integer h.cooldown) fun _ => ?_
  refine Except.exists_bind_ok (integer h.interval) fun _ => ?_
  refine Except.exists_bind_ok (integer h.reconciliation) fun _ => ?_
  refine Except.exists_bind_ok (integer h.threshold) fun _ => ?_
  refine Except.exists_bind_ok (integer h.ttl) fun _ => ?_
  refine Except.exists_bind_ok (decimal h.balance) fun _ => ?_
  refine Except.exists_bind_ok (decimal h.fee) fun _ => ?_
  refine Except.exists_bind_ok (decimal h.slippage) fun _ => ?_
  refine Except.exists_bind_ok (percent hrisk) fun _ => ?_
  refine Except.exists_bind_ok (percent hposition) fun _ => ?_
  refine Except.exists_bind_ok (percent hloss) fun _ => ?_
  refine Except.exists_bind_ok (percent hdrawdown) fun _ => ?_
  refine Except.exists_bind_ok (decimal h.minNotional) fun _ => ?_
  refine Except.exists_bind_ok (decimal h.leverage) fun _ => ?_
  refine Except.exists_bind_ok (integer h.fast) fun _ => ?_
  refine Except.exists_bind_ok (integer h.slow) fun _ => ?_
  refine Except.exists_bind_ok (integer h.rsi) fun _ => ?_
  refine Except.exists_bind_ok (decimal h.stopLoss) fun _ => ?_
  refine Except.exists_bind_ok (decimal h.takeProfit) fun _ => ?_
  exact ⟨_, rfl⟩

/-- The conditions of the last validator. -/
structure Settings.Coherent (s : Settings) : Prop where
  balance : 0 < s.paperStartingBalance
  fee : 0 ≤ s.paperFeeBps
  slippage : 0 ≤ s.paperSlippageBps
  leverage : s.defaultLeverage = 1
  periods : s.fastEmaPeriod < s.slowEmaPeriod
  stopLoss : 0 < s.stopLossPercent
  takeProfit : 0 < s.takeProfitPercent
  timeframe : s.defaultTimeframe ∈ s.supportedTimeframes

/-- The settings with the default symbol among those supported. -/
def Settings.completed (s : Settings) : Settings :=
  if s.defaultSymbol ≠ "" ∧ s.defaultSymbol ∉ s.supportedSymbols then
    { s with supportedSymbols := fromkeys (s.supportedSymbols ++ [s.defaultSymbol]) }
  else s

/-- **When the last validator passes**, and what it keeps. -/
theorem validatePaperInvariants_eq_ok_iff {s s' : Settings} :
    s.validatePaperInvariants texts = .ok s' ↔ s.Coherent ∧ s' = s.completed := by
  unfold Settings.validatePaperInvariants
  split <;> rename_i h₁
  · simpa using fun h : s.Coherent => absurd h.balance h₁.not_gt
  split <;> rename_i h₂
  · simpa using fun h : s.Coherent => absurd h₂ (by simp [h.fee, h.slippage])
  split <;> rename_i h₃
  · simpa using fun h : s.Coherent => absurd h.leverage h₃
  split <;> rename_i h₄
  · simpa using fun h : s.Coherent => absurd h.periods h₄.not_gt
  split <;> rename_i h₅
  · simpa using fun h : s.Coherent => absurd h₅ (by simp [h.stopLoss, h.takeProfit])
  split <;> rename_i h₆
  · simpa using fun h : s.Coherent => absurd h.timeframe h₆
  push Not at h₁ h₂ h₃ h₄ h₅ h₆
  have hcoherent : s.Coherent := ⟨h₁, h₂.1, h₂.2, h₃, h₄, h₅.1, h₅.2, h₆⟩
  simp only [Except.ok.injEq, hcoherent, true_and, Settings.completed, eq_comm]

theorem mem_fromkeys {keys : List String} {key : String} : key ∈ fromkeys keys ↔ key ∈ keys :=
  List.mem_eraseDups

/-- The default symbol is one of those supported then. -/
theorem Settings.completed_symbol {s : Settings} (h : s.completed.defaultSymbol ≠ "") :
    s.completed.defaultSymbol ∈ s.completed.supportedSymbols := by
  unfold Settings.completed at h ⊢
  split <;> rename_i hmissing
  · exact mem_fromkeys.mpr (List.mem_append_right _ (List.mem_singleton.mpr rfl))
  · rw [if_neg hmissing] at h
    by_contra habsent
    exact hmissing ⟨h, habsent⟩

/-- What completing the list of symbols leaves as it is. -/
theorem Settings.completed_eq (s : Settings) :
    ∃ symbols, s.completed = { s with supportedSymbols := symbols } := by
  unfold Settings.completed
  split
  · exact ⟨_, rfl⟩
  · exact ⟨s.supportedSymbols, rfl⟩

/-- What is acceptable is what the last validator accepts once the fields have passed. -/
theorem acceptable_iff {raw : RawSettings} {s : Settings} (h : s.Passed raw) :
    raw.Acceptable ↔ s.Coherent := by
  obtain ⟨hfast, hfastEq⟩ := atLeast_eq_ok_iff.mp h.fast
  obtain ⟨hslow, hslowEq⟩ := atLeast_eq_ok_iff.mp h.slow
  have percent {r : RawDecimal} {p : ℚ} (hr : percentage r = .ok p) :
      r.Is fun d => 0 ≤ d ∧ d ≤ 100 := by
    obtain ⟨d, rfl, hd, hd100, -⟩ := percentage_eq_ok_iff.mp hr
    exact ⟨hd, hd100⟩
  constructor
  · intro ha
    exact
      { balance := by simpa [h.balance, RawDecimal.Is] using ha.balance
        fee := by simpa [h.fee, RawDecimal.Is] using ha.fee
        slippage := by simpa [h.slippage, RawDecimal.Is] using ha.slippage
        leverage := by simpa [h.leverage, RawDecimal.Is] using ha.leverage
        periods := hfastEq ▸ hslowEq ▸ ha.periods
        stopLoss := by simpa [h.stopLoss, RawDecimal.Is] using ha.stopLoss
        takeProfit := by simpa [h.takeProfit, RawDecimal.Is] using ha.takeProfit
        timeframe := h.timeframe ▸ h.timeframes ▸ ha.timeframe }
  · intro hc
    exact
      { port := (between_eq_ok_iff.mp h.port).1
        stale := (atLeast_eq_ok_iff.mp h.stale).1
        cooldown := (atLeast_eq_ok_iff.mp h.cooldown).1
        interval := (atLeast_eq_ok_iff.mp h.interval).1
        reconciliation := (atLeast_eq_ok_iff.mp h.reconciliation).1
        threshold := (atLeast_eq_ok_iff.mp h.threshold).1
        ttl := (atLeast_eq_ok_iff.mp h.ttl).1
        balance := by simpa [h.balance, RawDecimal.Is] using hc.balance
        fee := by simpa [h.fee, RawDecimal.Is] using hc.fee
        slippage := by simpa [h.slippage, RawDecimal.Is] using hc.slippage
        percentages := by
          simp only [List.forall_mem_cons, List.not_mem_nil, false_implies, implies_true, and_true]
          exact ⟨percent h.risk, percent h.position, percent h.dailyLoss, percent h.drawdown⟩
        minNotional := by simp [h.minNotional, RawDecimal.Is]
        leverage := by simpa [h.leverage, RawDecimal.Is] using hc.leverage
        fast := hfast
        slow := hslow
        periods := hfastEq ▸ hslowEq ▸ hc.periods
        rsi := (atLeast_eq_ok_iff.mp h.rsi).1
        stopLoss := by simpa [h.stopLoss, RawDecimal.Is] using hc.stopLoss
        takeProfit := by simpa [h.takeProfit, RawDecimal.Is] using hc.takeProfit
        timeframe := h.timeframe ▸ h.timeframes ▸ hc.timeframe }

/-- What has passed all validators is valid. -/
theorem Settings.Passed.valid {raw : RawSettings} {s : Settings} (h : s.Passed raw)
    (hc : s.Coherent) : s.completed.Valid := by
  have kept {low n m : ℤ} (hn : atLeast low n = .ok m) : low ≤ m := by
    obtain ⟨hle, rfl⟩ := atLeast_eq_ok_iff.mp hn
    exact hle
  obtain ⟨hport, hportEq⟩ := between_eq_ok_iff.mp h.port
  have hsymbol := Settings.completed_symbol (s := s)
  obtain ⟨symbols, hs⟩ := s.completed_eq
  rw [hs] at hsymbol ⊢
  exact
    { port := hportEq ▸ hport
      stale := kept h.stale
      cooldown := kept h.cooldown
      interval := kept h.interval
      reconciliation := kept h.reconciliation
      threshold := kept h.threshold
      ttl := kept h.ttl
      balance := hc.balance
      fee := hc.fee
      slippage := hc.slippage
      percentages := by
        simp only [List.forall_mem_cons, List.not_mem_nil, false_implies, implies_true, and_true]
        exact ⟨percentage_bounds h.risk, percentage_bounds h.position,
          percentage_bounds h.dailyLoss, percentage_bounds h.drawdown⟩
      leverage := hc.leverage
      periods := ⟨kept h.fast, hc.periods⟩
      rsi := kept h.rsi
      stopLoss := hc.stopLoss
      takeProfit := hc.takeProfit
      symbol := hsymbol
      timeframe := hc.timeframe }

theorem Settings.Reads.completed {raw : RawSettings} {s : Settings} (h : s.Reads texts raw) :
    s.completed.Reads texts raw := by
  obtain ⟨symbols, hs⟩ := s.completed_eq
  rw [hs]
  exact ⟨h.tradingMode, h.exchangeEnv, h.runtimeMode, h.live⟩

/-- **What a configuration that loads has, and what is kept of it.** -/
theorem load_eq_ok {raw : RawSettings} {s : Settings} (h : raw.load texts = .ok s) :
    raw.Acceptable ∧ s.Valid ∧ s.Reads texts raw := by
  unfold RawSettings.load at h
  cases hfields : raw.fields texts with
  | error e => simp [hfields] at h
  | ok s₀ =>
    simp only [hfields] at h
    obtain ⟨hpassed, hreads⟩ := fields_eq_ok hfields
    obtain ⟨hcoherent, rfl⟩ := validatePaperInvariants_eq_ok_iff.mp h
    exact ⟨(acceptable_iff hpassed).mpr hcoherent, hpassed.valid hcoherent, hreads.completed⟩

/-- **Which configurations are accepted, and what is kept of them.**  A configuration loads
exactly if it is acceptable, and then what is kept is valid. -/
theorem load_ok_iff (texts : Texts) (raw : RawSettings) :
    ((∃ s, raw.load texts = .ok s) ↔ raw.Acceptable) ∧
      ∀ s, raw.load texts = .ok s → s.Valid := by
  refine ⟨⟨?_, ?_⟩, fun s hs => (load_eq_ok hs).2.1⟩
  · rintro ⟨s, hs⟩
    exact (load_eq_ok hs).1
  · intro ha
    obtain ⟨s, hs⟩ := @exists_fields texts _ ha
    refine ⟨s.completed, ?_⟩
    rw [RawSettings.load, hs]
    exact validatePaperInvariants_eq_ok_iff.mpr
      ⟨(acceptable_iff (fields_eq_ok hs).1).mp ha, rfl⟩

end Server

end Atlas
