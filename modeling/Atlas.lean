import Atlas.Lib.Transition
import Atlas.Lib.Unwinding
import Atlas.Lib.Interleaving
import Atlas.Lib.Commits
import Atlas.Lib.Dict
import Atlas.Lib.Quantize
import Atlas.Lib.Arithmetic
import Atlas.Lib.WeightedMean
import Atlas.Lib.AverageCost
import Atlas.Lib.Result
import Atlas.Lib.Causal
import Atlas.Lib.Base64
import Atlas.Lib.Unicode
import Atlas.Lib.Binary64
import Atlas.Lib.Json
import Atlas.Lib.Dialects
import Atlas.Lib.Calendar
import Atlas.Lib.Decimal
import Atlas.Lib.Isoformat
import Atlas.Lib.Grid
import Atlas.Lib.Drawdown
import Atlas.Lib.FirstSeen
import Atlas.Trading
import Atlas.Paper.Engine
import Atlas.Paper.Effect
import Atlas.Paper.Operation
import Atlas.Paper.Ledger
import Atlas.Paper.Reservation
import Atlas.Paper.Concurrent
import Atlas.Paper.Holding
import Atlas.Paper.Sound
import Atlas.Paper.Quiet
import Atlas.Paper.Booking
import Atlas.Paper.Lifecycle
import Atlas.Paper.Recorded
import Atlas.Paper.Sales
import Atlas.Paper.Invariants
import Atlas.Paper.Pricing
import Atlas.Paper.Value
import Atlas.Paper.Solvency
import Atlas.Paper.Checked
import Atlas.Paper.CostBasis
import Atlas.Paper.AverageCost
import Atlas.Paper.Market
import Atlas.Cycle.Lock
import Atlas.Cycle.Dedupe
import Atlas.Cycle.Saves
import Atlas.Risk.Engine
import Atlas.Lib.SlidingWindow
import Atlas.Risk.Exposure
import Atlas.Risk.Frequency
import Atlas.Risk.Sizing
import Atlas.Risk.Rounding
import Atlas.Risk.Filters
import Atlas.Risk.Limits
import Atlas.Risk.Cooldown
import Atlas.Risk.Inert
import Atlas.Indicators.MovingAverages
import Atlas.Indicators.Momentum
import Atlas.Indicators.Volatility
import Atlas.Indicators.Stability
import Atlas.Indicators.Bounds
import Atlas.Session.Session
import Atlas.Session.Moves
import Atlas.Session.Exposure
import Atlas.Session.Database
import Atlas.Session.Idempotency
import Atlas.Session.Equity
import Atlas.Session.Reconcile
import Atlas.Session.Recovery
import Atlas.Session.Cycle
import Atlas.Session.Restart
import Atlas.Session.RiskView
import Atlas.Analytics.TradeJournal
import Atlas.Analytics.Performance
import Atlas.Session.SaleJournal
import Atlas.Session.Trace
import Atlas.Session.FalseHalt
import Atlas.Session.Refusal
import Atlas.Session.Tasks
import Atlas.Session.KillSwitch
import Atlas.Session.Halt
import Atlas.Session.Account
import Atlas.Session.DailyLoss
import Atlas.Session.DurableSwitch
import Atlas.Session.Crash
import Atlas.Session.Orchestrator
import Atlas.Session.Warmup
import Atlas.Session.Feed
import Atlas.Session.Replay
import Atlas.Session.Timeframes
import Atlas.Paper.Twins
import Atlas.Paper.Immediate
import Atlas.Paper.Broker
import Atlas.Paper.Sweep
import Atlas.Paper.Completion
import Atlas.Paper.Balance
import Atlas.Paper.Shortfall
import Atlas.Paper.Placement
import Atlas.Paper.Resting
import Atlas.Session.Intake
import Atlas.Session.Twins
import Atlas.Session.Evaluation
import Atlas.Session.Alongside
import Atlas.Session.Steady
import Atlas.Session.Transparency
import Atlas.Session.CashJournal
import Atlas.Backtest.Metrics
import Atlas.Backtest.Engine
import Atlas.Backtest.Cash
import Atlas.Backtest.LookAhead
import Atlas.Backtest.Discipline
import Atlas.Backtest.Sizing
import Atlas.Backtest.Expectancy
import Atlas.Backtest.Exits
import Atlas.Backtest.Ratios
import Atlas.Market.Candles
import Atlas.Market.Facade
import Atlas.Market.Providers
import Atlas.Session.Stops
import Atlas.Session.Approval
import Atlas.Session.Close
import Atlas.Session.Codec
import Atlas.Session.OrderKeys
import Atlas.Session.Verdict
import Atlas.Strategies.Registered
import Atlas.Strategies.Parameters
import Atlas.Strategies.Discipline
import Atlas.Session.RecordedSignal
import Atlas.News.Sentiment
import Atlas.News.Repeatability
import Atlas.Auth.Tokens
import Atlas.Auth.Fields
import Atlas.Auth.Agreement
import Atlas.Auth.Credentials
import Atlas.Execution.Testnet
import Atlas.Market.WebSocket
import Atlas.Server.Settings
import Atlas.Server.Safety
import Atlas.Lib.Exclusion
import Atlas.Server.Scheduler
import Atlas.Server.Supervision
import Atlas.Lib.Writing
import Atlas.Auth.Issue
import Atlas.Lib.Table
import Atlas.Market.Store
import Atlas.Lib.Csv
import Atlas.Analytics.Export
import Atlas.Auth.Login
import Atlas.Lib.Grouping
import Atlas.Lib.Periods
import Atlas.Analytics.Snapshot
import Atlas.Analytics.Reports
