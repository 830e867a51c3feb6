import Mathlib.Data.Rat.Floor
import Atlas.Lib.Dict
import Atlas.Lib.Quantize

/-!
# Trading domain models

The records the paper engine, the risk engine and the session exchange.  A
`Decimal` is an exact rational; the places where the source rounds one are kept
(`quantize8`, `quantizeDown8`).  A timestamp is a number of microseconds.

## Main definitions

* `OrderSide`, `OrderType`, `OrderStatus`, `RiskDecision`, `RiskReasonCode` — the
  enumerations.
* `Ident` — the identifiers drawn from `uuid4`, and those taken from a text.
* `Metadata` — the metadata dictionary of an order.
* `OrderRequest`, `RiskEvaluation`, `Order`, `Fill`, `Position`,
  `PortfolioState` — the records.

## References

`app/models/domain/enums.py`, `app/models/domain/trading.py`.
-/

namespace Atlas

open Quantize

/-- A point in time, in microseconds. -/
abbrev Time := ℤ

/-- `Decimal("0.00000001")`. -/
def quantum8 : ℚ := 1 / 100000000

theorem quantum8_pos : 0 < quantum8 := by norm_num [quantum8]

/-- `x.quantize(Decimal("0.00000001"))`, in the default rounding. -/
def quantize8 (x : ℚ) : ℚ := quantize quantum8 x

/-- `x.quantize(Decimal("0.00000001"), rounding=ROUND_DOWN)`. -/
def quantizeDown8 (x : ℚ) : ℚ := quantizeDown quantum8 x

theorem quantize8_nonneg {x : ℚ} (hx : 0 ≤ x) : 0 ≤ quantize8 x :=
  quantize_nonneg quantum8_pos.le hx

theorem quantizeDown8_nonpos {x : ℚ} (hx : x ≤ 0) : quantizeDown8 x ≤ 0 :=
  quantizeDown_nonpos quantum8_pos.le hx

theorem quantizeDown8_idem (x : ℚ) : quantizeDown8 (quantizeDown8 x) = quantizeDown8 x :=
  quantizeDown_idem quantum8_pos.ne' x

theorem quantizeDown8_mono {x y : ℚ} (hx : 0 ≤ x) (hxy : x ≤ y) :
    quantizeDown8 x ≤ quantizeDown8 y := quantizeDown_mono quantum8_pos.le hx hxy

theorem quantizeDown8_le {x : ℚ} (hx : 0 ≤ x) : quantizeDown8 x ≤ x :=
  quantizeDown_le quantum8_pos hx

/-- Python's `a or b` on optional decimals: `None` and zero are falsy. -/
def pyOr (a b : Option ℚ) : Option ℚ :=
  match a with
  | some x => if x = 0 then b else some x
  | none => b

/-! ### Enumerations -/

inductive OrderSide
  | buy
  | sell
  deriving DecidableEq, Repr, Inhabited

inductive OrderType
  | market
  | limit
  | stopLoss
  | takeProfit
  deriving DecidableEq, Repr, Inhabited

inductive OrderStatus
  | created
  | riskPending
  | approved
  | submitted
  | partiallyFilled
  | filled
  | rejected
  | cancelled
  | expired
  | failed
  deriving DecidableEq, Repr, Inhabited

inductive RiskDecision
  | approved
  | rejected
  | reduced
  | halted
  deriving DecidableEq, Repr, Inhabited

inductive RiskReasonCode
  | ok
  | killSwitchActive
  | liveTradingDisabled
  | liveGatingIncomplete
  | dataStale
  | duplicateOrder
  | invalidPrice
  | invalidQuantity
  | minOrderSize
  | precisionInvalid
  | maxRiskPerTrade
  | maxPositionExposure
  | maxPortfolioExposure
  | maxOpenPositions
  | dailyLossLimitReached
  | maxDrawdownReached
  | maxConsecutiveLosses
  | maxOrderFrequency
  | circuitBreakerOpen
  | riskEngineUnhealthy
  | marketDataUnhealthy
  | databaseUnhealthy
  | reconciliationUnhealthy
  | invalidCredentials
  | invalidLiveApproval
  | newsExtremeUncertainty
  | sizeReducedByNews
  | sizeReducedByRisk
  | symbolNotAllowed
  | shortSellingDisabled
  | leverageNotAllowed
  | unsupportedSide
  | insufficientBalance
  | orderCooldown
  | stopLossRequired
  | minRewardRisk
  | dailyTradeLimit
  deriving DecidableEq, Repr, Inhabited

/-- A status no operation of the engine leaves again. -/
def OrderStatus.Terminal (s : OrderStatus) : Prop :=
  s = .filled ∨ s = .cancelled ∨ s = .expired ∨ s = .rejected ∨ s = .failed

instance (s : OrderStatus) : Decidable s.Terminal :=
  inferInstanceAs (Decidable (_ ∨ _ ∨ _ ∨ _ ∨ _))

/-! ### Identifiers and metadata -/

/-- An identifier.  The source draws `uuid4().hex` where it needs a new one;
here the draws are numbered, so that two draws differ. -/
inductive Ident
  /-- `uuid4().hex`, the draw with this number. -/
  | uuid4 (n : ℕ)
  /-- `f"{pre}{uuid4().hex[:len]}"`. -/
  | uuid4Prefix (pre : String) (len n : ℕ)
  /-- An identifier given as a text. -/
  | text (s : String)
  deriving DecidableEq, Repr, Inhabited

/-- The metadata of an order: the keys the engine reads and writes, and the
entries of the request it only carries.  The amounts are decimals written with
`str` and read back with `Decimal`; `reservation_open` is `"true"` or `"false"`. -/
structure Metadata where
  reservedNotional : Option ℚ := none
  reservedRemaining : Option ℚ := none
  reservationOpen : Option Bool := none
  error : Option String := none
  other : List (String × String) := []
  deriving DecidableEq, Repr, Inhabited

/-- `{**meta, **(extra or {})}`, where `extra` is absent or a single `error`. -/
def Metadata.withError (m : Metadata) : Option String → Metadata
  | none => m
  | some e => { m with error := some e }

/-- Metadata that a caller supplies: it carries no key of a reservation. -/
def Metadata.NoReservation (m : Metadata) : Prop :=
  m.reservedNotional = none ∧ m.reservedRemaining = none ∧ m.reservationOpen = none

instance (m : Metadata) : Decidable m.NoReservation :=
  inferInstanceAs (Decidable (_ ∧ _ ∧ _))

/-! ### Records -/

structure OrderRequest where
  symbol : String
  side : OrderSide
  orderType : OrderType
  quantity : ℚ
  price : Option ℚ := none
  stopLoss : Option ℚ := none
  takeProfit : Option ℚ := none
  strategyName : Option String := none
  signalId : Option String := none
  idempotencyKey : String
  clientOrderId : Option String := none
  reduceOnly : Bool := false
  metadata : Metadata := {}
  deriving DecidableEq, Repr, Inhabited

structure RiskEvaluation where
  decision : RiskDecision
  reasonCode : RiskReasonCode
  approvedQuantity : Option ℚ := none
  message : String := ""
  deriving DecidableEq, Repr, Inhabited

structure Order where
  id : Ident
  clientOrderId : Ident
  idempotencyKey : String
  symbol : String
  side : OrderSide
  orderType : OrderType
  quantity : ℚ
  filledQuantity : ℚ := 0
  price : Option ℚ := none
  averageFillPrice : Option ℚ := none
  status : OrderStatus
  strategyName : Option String := none
  signalId : Option String := none
  riskDecision : Option RiskDecision := none
  riskReasonCode : Option RiskReasonCode := none
  createdAt : Time
  updatedAt : Time
  fees : ℚ := 0
  metadata : Metadata := {}
  deriving DecidableEq, Repr, Inhabited

structure Fill where
  id : Ident
  orderId : Ident
  symbol : String
  side : OrderSide
  quantity : ℚ
  price : ℚ
  fee : ℚ
  feeAsset : String := "USDT"
  timestamp : Time
  deriving DecidableEq, Repr, Inhabited

structure Position where
  symbol : String
  quantity : ℚ
  entryPrice : ℚ
  currentPrice : ℚ
  unrealizedPnl : ℚ
  realizedPnl : ℚ := 0
  openedAt : Time
  strategyName : Option String := none
  stopLoss : Option ℚ := none
  takeProfit : Option ℚ := none
  deriving DecidableEq, Repr, Inhabited

/-- The portfolio as the risk engine reads it. -/
structure PortfolioState where
  cashBalance : ℚ
  equity : ℚ
  realizedPnl : ℚ := 0
  unrealizedPnl : ℚ := 0
  dailyPnl : ℚ := 0
  peakEquity : ℚ
  drawdown : ℚ := 0
  openPositions : List Position := []
  consecutiveLosses : ℕ := 0
  deriving DecidableEq, Repr, Inhabited

end Atlas
