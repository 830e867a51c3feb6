import Atlas.Lib.Decimal
import Atlas.Lib.Dict
import Atlas.Lib.Isoformat
import Atlas.Risk.Engine

/-!
# The orders and the fills of a checkpoint

A checkpoint holds the orders and the fills of the ledger as JSON values.  An order is
dumped in the JSON mode of its model, field by field with its metadata; the fields of a fill
are written by hand, without the asset of its fee.  A restart reads them back: numbers from
their texts, enumerations from their values, times from ISO 8601 texts, with defaults for
what is missing or empty.

Here decimals keep their exponents and times their offsets, so that what is read back can be
compared exactly.  The JSON mode leaves JSON values as they are and goes through lists and
dictionaries; what it makes of a decimal number and of a point in time comes from outside.
Metadata may hold other values: these come back as the texts or lists they were written as.
The database gives JSON values back as they are.

Offsets are whole minutes, and the dictionaries of metadata have texts for keys.  The texts of
floats, lists and dictionaries, dictionaries made of lists of pairs, orders and fills that are
no lists, and the case mapping outside ASCII are left out: the writer writes none of them.  So
are the other entries of a checkpoint.  The clock stands still during a restore.

## Main definitions

* `Value`, `Value.IsJson` — what metadata and checkpoints hold.
* `JsonMode`, `JsonMode.dump` — the JSON mode of a model.
* `OrderModel`, `FillModel` — orders and fills with all their fields.
* `serializeOrders`, `serializeFills`, `checkpointToOrders`, `checkpointToFills` — writing
  and reading.

## Main results

* `JsonMode.dump_eq_self_iff` — what the JSON mode leaves as it is.
* `membersJson_checkpoint` — what is written is JSON.
* `decodeOrder_dumpOrder_iff` — **when an order is read back**.
* `decodeFill_fields_iff` — **when a fill is read back**.
* `checkpoint_round_trip` — **the ledger of a checkpoint is read back**.

## References

`app/services/paper_persistence.py`, `app/models/domain/trading.py`,
`app/models/domain/enums.py`.
-/

namespace Atlas

namespace Codec

open Calendar

/-! ### Values -/

/-- A point in time that has a text. -/
abbrev Timestamp := { t : DateTime // t.Valid }

/-- A Python value, as metadata and checkpoints hold it. -/
inductive Value
  | none
  | bool (b : Bool)
  | int (n : ℤ)
  | float (x : ℚ)
  | str (s : String)
  | list (vs : List Value)
  | dict (ms : List (String × Value))
  | tuple (vs : List Value)
  | decimal (d : Decimal)
  | datetime (t : Timestamp)

mutual

/-- The value is one of JSON. -/
def Value.IsJson : Value → Prop
  | .list vs => Value.ElementsJson vs
  | .dict ms => Value.MembersJson ms
  | .tuple _ | .decimal _ | .datetime _ => False
  | .none | .bool _ | .int _ | .float _ | .str _ => True

def Value.ElementsJson : List Value → Prop
  | [] => True
  | v :: vs => v.IsJson ∧ Value.ElementsJson vs

def Value.MembersJson : List (String × Value) → Prop
  | [] => True
  | (_, v) :: ms => v.IsJson ∧ Value.MembersJson ms

end

/-! ### The JSON mode -/

/-- What the JSON mode of a model makes of the values that JSON does not have. -/
structure JsonMode where
  decimal : Decimal → String
  datetime : Timestamp → String

/-- The JSON mode as it is documented: a decimal number becomes its text, and a point in time
becomes an ISO 8601 text, with `Z` in UTC. -/
structure JsonMode.Documented (mode : JsonMode) : Prop where
  decimal : ∀ d, mode.decimal d = String.ofList d.toText
  datetime : ∀ t, mode.datetime t = String.ofList t.val.zulu

mutual

/-- The JSON mode of a value: a tuple becomes a list. -/
def JsonMode.dump (mode : JsonMode) : Value → Value
  | .none => .none
  | .bool b => .bool b
  | .int n => .int n
  | .float x => .float x
  | .str s => .str s
  | .list vs => .list (mode.dumpElements vs)
  | .dict ms => .dict (mode.dumpMembers ms)
  | .tuple vs => .list (mode.dumpElements vs)
  | .decimal d => .str (mode.decimal d)
  | .datetime t => .str (mode.datetime t)

def JsonMode.dumpElements (mode : JsonMode) : List Value → List Value
  | [] => []
  | v :: vs => mode.dump v :: mode.dumpElements vs

def JsonMode.dumpMembers (mode : JsonMode) : List (String × Value) → List (String × Value)
  | [] => []
  | (k, v) :: ms => (k, mode.dump v) :: mode.dumpMembers ms

end

mutual

/-- **What the JSON mode leaves as it is**: the values of JSON. -/
theorem JsonMode.dump_eq_self_iff (mode : JsonMode) : ∀ v : Value, mode.dump v = v ↔ v.IsJson
  | .none | .bool _ | .int _ | .float _ | .str _ => by simp [JsonMode.dump, Value.IsJson]
  | .list vs => by
      rw [JsonMode.dump, Value.list.injEq, Value.IsJson]
      exact mode.dumpElements_eq_self_iff vs
  | .dict ms => by
      rw [JsonMode.dump, Value.dict.injEq, Value.IsJson]
      exact mode.dumpMembers_eq_self_iff ms
  | .tuple _ | .decimal _ | .datetime _ => by simp [JsonMode.dump, Value.IsJson]

theorem JsonMode.dumpElements_eq_self_iff (mode : JsonMode) :
    ∀ vs : List Value, mode.dumpElements vs = vs ↔ Value.ElementsJson vs
  | [] => by simp [JsonMode.dumpElements, Value.ElementsJson]
  | v :: vs => by
      rw [JsonMode.dumpElements, List.cons.injEq, Value.ElementsJson, mode.dump_eq_self_iff v,
        mode.dumpElements_eq_self_iff vs]

theorem JsonMode.dumpMembers_eq_self_iff (mode : JsonMode) :
    ∀ ms : List (String × Value), mode.dumpMembers ms = ms ↔ Value.MembersJson ms
  | [] => by simp [JsonMode.dumpMembers, Value.MembersJson]
  | (k, v) :: ms => by
      rw [JsonMode.dumpMembers, List.cons.injEq, Prod.mk.injEq, Value.MembersJson,
        mode.dump_eq_self_iff v, mode.dumpMembers_eq_self_iff ms]
      simp

end

mutual

/-- What the JSON mode writes is JSON. -/
theorem JsonMode.isJson_dump (mode : JsonMode) : ∀ v : Value, (mode.dump v).IsJson
  | .none | .bool _ | .int _ | .float _ | .str _ | .decimal _ | .datetime _ => by
      simp [JsonMode.dump, Value.IsJson]
  | .list vs | .tuple vs => by
      rw [JsonMode.dump, Value.IsJson]
      exact mode.elementsJson_dump vs
  | .dict ms => by
      rw [JsonMode.dump, Value.IsJson]
      exact mode.membersJson_dump ms

theorem JsonMode.elementsJson_dump (mode : JsonMode) :
    ∀ vs : List Value, Value.ElementsJson (mode.dumpElements vs)
  | [] => trivial
  | v :: vs => ⟨mode.isJson_dump v, mode.elementsJson_dump vs⟩

theorem JsonMode.membersJson_dump (mode : JsonMode) :
    ∀ ms : List (String × Value), Value.MembersJson (mode.dumpMembers ms)
  | [] => trivial
  | (_, v) :: ms => ⟨mode.isJson_dump v, mode.membersJson_dump ms⟩

end

/-! ### Enumerations -/

/-- The enumerations whose members are texts. -/
class StrEnum (α : Type) where
  value : α → String
  members : List α
  find?_value : ∀ a, members.find? (fun b => value b = value a) = some a
  value_ne : ∀ a, value a ≠ ""

/-- The member with this value. -/
def StrEnum.ofValue (α : Type) [StrEnum α] (text : String) : Option α :=
  (members : List α).find? fun b => value b = text

@[simp] theorem StrEnum.ofValue_value {α : Type} [StrEnum α] (a : α) :
    StrEnum.ofValue α (value a) = some a := StrEnum.find?_value a

instance : StrEnum OrderSide where
  value
    | .buy => "buy"
    | .sell => "sell"
  members := [.buy, .sell]
  find?_value a := by cases a <;> decide
  value_ne a := by cases a <;> decide

instance : StrEnum OrderType where
  value := OrderType.value
  members := [.market, .limit, .stopLoss, .takeProfit]
  find?_value a := by cases a <;> decide
  value_ne a := by cases a <;> decide

instance : StrEnum OrderStatus where
  value
    | .created => "CREATED"
    | .riskPending => "RISK_PENDING"
    | .approved => "APPROVED"
    | .submitted => "SUBMITTED"
    | .partiallyFilled => "PARTIALLY_FILLED"
    | .filled => "FILLED"
    | .rejected => "REJECTED"
    | .cancelled => "CANCELLED"
    | .expired => "EXPIRED"
    | .failed => "FAILED"
  members := [.created, .riskPending, .approved, .submitted, .partiallyFilled, .filled,
    .rejected, .cancelled, .expired, .failed]
  find?_value a := by cases a <;> decide
  value_ne a := by cases a <;> decide

instance : StrEnum RiskDecision where
  value
    | .approved => "APPROVED"
    | .rejected => "REJECTED"
    | .reduced => "REDUCED"
    | .halted => "HALTED"
  members := [.approved, .rejected, .reduced, .halted]
  find?_value a := by cases a <;> decide
  value_ne a := by cases a <;> decide

instance : StrEnum RiskReasonCode where
  value
    | .ok => "OK"
    | .killSwitchActive => "KILL_SWITCH_ACTIVE"
    | .liveTradingDisabled => "LIVE_TRADING_DISABLED"
    | .liveGatingIncomplete => "LIVE_GATING_INCOMPLETE"
    | .dataStale => "DATA_STALE"
    | .duplicateOrder => "DUPLICATE_ORDER"
    | .invalidPrice => "INVALID_PRICE"
    | .invalidQuantity => "INVALID_QUANTITY"
    | .minOrderSize => "MIN_ORDER_SIZE"
    | .precisionInvalid => "PRECISION_INVALID"
    | .maxRiskPerTrade => "MAX_RISK_PER_TRADE"
    | .maxPositionExposure => "MAX_POSITION_EXPOSURE"
    | .maxPortfolioExposure => "MAX_PORTFOLIO_EXPOSURE"
    | .maxOpenPositions => "MAX_OPEN_POSITIONS"
    | .dailyLossLimitReached => "DAILY_LOSS_LIMIT_REACHED"
    | .maxDrawdownReached => "MAX_DRAWDOWN_REACHED"
    | .maxConsecutiveLosses => "MAX_CONSECUTIVE_LOSSES"
    | .maxOrderFrequency => "MAX_ORDER_FREQUENCY"
    | .circuitBreakerOpen => "CIRCUIT_BREAKER_OPEN"
    | .riskEngineUnhealthy => "RISK_ENGINE_UNHEALTHY"
    | .marketDataUnhealthy => "MARKET_DATA_UNHEALTHY"
    | .databaseUnhealthy => "DATABASE_UNHEALTHY"
    | .reconciliationUnhealthy => "RECONCILIATION_UNHEALTHY"
    | .invalidCredentials => "INVALID_CREDENTIALS"
    | .invalidLiveApproval => "INVALID_LIVE_APPROVAL"
    | .newsExtremeUncertainty => "NEWS_EXTREME_UNCERTAINTY"
    | .sizeReducedByNews => "SIZE_REDUCED_BY_NEWS"
    | .sizeReducedByRisk => "SIZE_REDUCED_BY_RISK"
    | .symbolNotAllowed => "SYMBOL_NOT_ALLOWED"
    | .shortSellingDisabled => "SHORT_SELLING_DISABLED"
    | .leverageNotAllowed => "LEVERAGE_NOT_ALLOWED"
    | .unsupportedSide => "UNSUPPORTED_SIDE"
    | .insufficientBalance => "INSUFFICIENT_BALANCE"
    | .orderCooldown => "ORDER_COOLDOWN"
    | .stopLossRequired => "STOP_LOSS_REQUIRED"
    | .minRewardRisk => "MIN_REWARD_RISK"
    | .dailyTradeLimit => "DAILY_TRADE_LIMIT"
  members := [.ok, .killSwitchActive, .liveTradingDisabled, .liveGatingIncomplete, .dataStale,
    .duplicateOrder, .invalidPrice, .invalidQuantity, .minOrderSize, .precisionInvalid,
    .maxRiskPerTrade, .maxPositionExposure, .maxPortfolioExposure, .maxOpenPositions,
    .dailyLossLimitReached, .maxDrawdownReached, .maxConsecutiveLosses, .maxOrderFrequency,
    .circuitBreakerOpen, .riskEngineUnhealthy, .marketDataUnhealthy, .databaseUnhealthy,
    .reconciliationUnhealthy, .invalidCredentials, .invalidLiveApproval,
    .newsExtremeUncertainty, .sizeReducedByNews, .sizeReducedByRisk, .symbolNotAllowed,
    .shortSellingDisabled, .leverageNotAllowed, .unsupportedSide, .insufficientBalance,
    .orderCooldown, .stopLossRequired, .minRewardRisk, .dailyTradeLimit]
  find?_value a := by cases a <;> decide
  value_ne a := by cases a <;> decide

/-! ### Orders and fills -/

/-- An order with all the fields of its model. -/
structure OrderModel where
  id : String
  clientOrderId : String
  idempotencyKey : String
  symbol : String
  side : OrderSide
  orderType : OrderType
  quantity : Decimal
  filledQuantity : Decimal := ⟨false, 0, 0⟩
  price : Option Decimal := none
  averageFillPrice : Option Decimal := none
  status : OrderStatus
  strategyName : Option String := none
  signalId : Option String := none
  riskDecision : Option RiskDecision := none
  riskReasonCode : Option RiskReasonCode := none
  createdAt : Timestamp
  updatedAt : Timestamp
  fees : Decimal := ⟨false, 0, 0⟩
  metadata : List (String × Value) := []

/-- A fill with all the fields of its model. -/
structure FillModel where
  id : String
  orderId : String
  symbol : String
  side : OrderSide
  quantity : Decimal
  price : Decimal
  fee : Decimal
  feeAsset : String := "USDT"
  timestamp : Timestamp
  deriving DecidableEq

/-! ### Writing -/

section Writing

variable (mode : JsonMode)

/-- A member of an enumeration as the text it is. -/
def Value.enum {α : Type} [StrEnum α] (a : α) : Value := .str (StrEnum.value a)

/-- A value that may be missing. -/
def Value.optional {α : Type} (f : α → Value) (a : Option α) : Value := a.elim .none f

/-- The fields of an order under their names. -/
def OrderModel.fields (o : OrderModel) : List (String × Value) :=
  [("id", .str o.id),
    ("client_order_id", .str o.clientOrderId),
    ("idempotency_key", .str o.idempotencyKey),
    ("symbol", .str o.symbol),
    ("side", .enum o.side),
    ("order_type", .enum o.orderType),
    ("quantity", .decimal o.quantity),
    ("filled_quantity", .decimal o.filledQuantity),
    ("price", .optional .decimal o.price),
    ("average_fill_price", .optional .decimal o.averageFillPrice),
    ("status", .enum o.status),
    ("strategy_name", .optional .str o.strategyName),
    ("signal_id", .optional .str o.signalId),
    ("risk_decision", .optional .enum o.riskDecision),
    ("risk_reason_code", .optional .enum o.riskReasonCode),
    ("created_at", .datetime o.createdAt),
    ("updated_at", .datetime o.updatedAt),
    ("fees", .decimal o.fees),
    ("metadata", .dict o.metadata)]

/-- `order.model_dump(mode="json")`. -/
def dumpOrder (o : OrderModel) : Value := .dict (mode.dumpMembers o.fields)

/-- The orders of a checkpoint. -/
def serializeOrders (orders : Dict String OrderModel) : List Value :=
  orders.values.map (dumpOrder mode)

/-- The text of a decimal number. -/
def Value.ofDecimal (d : Decimal) : Value := .str (String.ofList d.toText)

/-- What is written of a fill; the asset of its fee is not. -/
def FillModel.fields (f : FillModel) : List (String × Value) :=
  [("id", .str f.id),
    ("order_id", .str f.orderId),
    ("symbol", .str f.symbol),
    ("side", .enum f.side),
    ("quantity", .ofDecimal f.quantity),
    ("price", .ofDecimal f.price),
    ("fee", .ofDecimal f.fee),
    ("timestamp", .str (String.ofList f.timestamp.val.isoformat))]

/-- The fills of a checkpoint. -/
def serializeFills (fills : List FillModel) : List Value := fills.map fun f => .dict f.fields

/-- The fills and the orders of a checkpoint. -/
def checkpoint (orders : Dict String OrderModel) (fills : List FillModel) :
    List (String × Value) :=
  [("fills", .list (serializeFills fills)), ("orders", .list (serializeOrders mode orders))]

end Writing

theorem elementsJson_iff {vs : List Value} : Value.ElementsJson vs ↔ ∀ v ∈ vs, v.IsJson := by
  induction vs with
  | nil => simp [Value.ElementsJson]
  | cons v vs ih => rw [Value.ElementsJson, ih, List.forall_mem_cons]

/-- **A checkpoint is JSON**, whatever the metadata of its orders is. -/
theorem membersJson_checkpoint (mode : JsonMode) (orders : Dict String OrderModel)
    (fills : List FillModel) : Value.MembersJson (checkpoint mode orders fills) := by
  refine ⟨elementsJson_iff.mpr fun v hv => ?_, elementsJson_iff.mpr fun v hv => ?_, trivial⟩
  · obtain ⟨f, -, rfl⟩ := List.mem_map.mp hv
    simp [FillModel.fields, Value.enum, Value.ofDecimal, Value.IsJson, Value.MembersJson]
  · obtain ⟨o, -, rfl⟩ := List.mem_map.mp hv
    rw [dumpOrder, Value.IsJson]
    exact mode.membersJson_dump o.fields

/-! ### Reading -/

/-- `raw.get(key)`. -/
def get (raw : List (String × Value)) (key : String) : Value := (Dict.lookup key raw).getD .none

/-- What Python takes for true. -/
def Value.Truthy : Value → Prop
  | .none => False
  | .bool b => b = true
  | .int n => n ≠ 0
  | .float x => x ≠ 0
  | .str s => s ≠ ""
  | .list vs => vs.isEmpty = false
  | .dict ms => ms.isEmpty = false
  | .tuple vs => vs.isEmpty = false
  | .decimal d => d.coefficient ≠ 0
  | .datetime _ => True

instance : DecidablePred Value.Truthy
  | .none => inferInstanceAs (Decidable False)
  | .bool b => inferInstanceAs (Decidable (b = true))
  | .int n => inferInstanceAs (Decidable (n ≠ 0))
  | .float x => inferInstanceAs (Decidable (x ≠ 0))
  | .str s => inferInstanceAs (Decidable (s ≠ ""))
  | .list vs => inferInstanceAs (Decidable (vs.isEmpty = false))
  | .dict ms => inferInstanceAs (Decidable (ms.isEmpty = false))
  | .tuple vs => inferInstanceAs (Decidable (vs.isEmpty = false))
  | .decimal d => inferInstanceAs (Decidable (d.coefficient ≠ 0))
  | .datetime _ => inferInstanceAs (Decidable True)

/-- `v or w`. -/
def Value.or (v w : Value) : Value := if v.Truthy then v else w

/-- `str(v)`. -/
def textOf : Value → Option String
  | .none => some "None"
  | .bool b => some (if b then "True" else "False")
  | .int n => some (toString n)
  | .str s => some s
  | .decimal d => some (String.ofList d.toText)
  | .float _ | .list _ | .dict _ | .tuple _ | .datetime _ => none

/-- `_dec`: only finite numbers go into a model. -/
def dec (v : Value) : Option Decimal := (textOf v).bind fun s => Decimal.ofText s.toList

/-- `s.lower()`. -/
def lower (s : String) : String := String.ofList (s.toList.map Char.toLower)

/-- A point in time of a model, from its text. -/
def readTimestamp (s : String) : Option Timestamp :=
  (DateTime.fromisoformat (DateTime.replaceZulu s.toList)).bind fun t =>
    -- every point in time that Python reads is one
    if h : t.Valid then some ⟨t, h⟩ else none

/-- A point in time, which is now if there is no text. -/
def timestampOr (now : Timestamp) : Value → Option Timestamp
  | .str s => readTimestamp s
  | _ => some now

/-- A value that is read unless it is missing. -/
def unlessNone {α : Type} (f : Value → Option α) : Value → Option (Option α)
  | .none => some none
  | v => (f v).map some

/-- A value that is read if Python takes it for true. -/
def ifTruthy {α : Type} (f : Value → Option α) (v : Value) : Option (Option α) :=
  if v.Truthy then (f v).map some else some none

/-- A text or nothing, as the fields of a model take it. -/
def optionalText : Value → Option (Option String)
  | .none => some none
  | .str s => some (some s)
  | _ => none

/-- `dict(v or \x7b\x7d)`. -/
def dictOf (v : Value) : Option (List (String × Value)) :=
  if v.Truthy then
    match v with
    | .dict ms => some ms
    | _ => none
  else some []

/-- `str(v[:12])`. -/
def firstTwelve : Value → Option String
  | .str s => some (String.ofList (s.toList.take 12))
  | _ => none

/-- `str(v or rawId[:12])`. -/
def clientOrderIdOf (rawId v : Value) : Option String :=
  if v.Truthy then textOf v else firstTwelve rawId

/-- The member of an enumeration whose value this is. -/
def enumOf (α : Type) [StrEnum α] (v : Value) : Option α := (textOf v).bind (StrEnum.ofValue α)

/-- The same for a value in any case of the letters. -/
def enumOfLower (α : Type) [StrEnum α] (v : Value) : Option α :=
  (textOf v).bind fun s => StrEnum.ofValue α (lower s)

/-- The order of a checkpoint entry; an entry that raises is skipped. -/
def decodeOrder (now : Timestamp) (raw : List (String × Value)) : Option OrderModel := do
  let rawId ← Dict.lookup "id" raw
  let id ← textOf rawId
  let clientOrderId ← clientOrderIdOf rawId (get raw "client_order_id")
  let idempotencyKey ← textOf ((get raw "idempotency_key").or rawId)
  let symbol ← textOf (← Dict.lookup "symbol" raw)
  let side ← enumOfLower OrderSide ((get raw "side").or (.str "buy"))
  let orderType ← enumOfLower OrderType ((get raw "order_type").or (.str "market"))
  let quantity ← dec ((get raw "quantity").or (.str "0"))
  let filledQuantity ← dec ((get raw "filled_quantity").or (.str "0"))
  let price ← unlessNone dec (get raw "price")
  let averageFillPrice ← unlessNone dec (get raw "average_fill_price")
  let status ← enumOf OrderStatus ((get raw "status").or (.str "FILLED"))
  let strategyName ← optionalText (get raw "strategy_name")
  let signalId ← optionalText (get raw "signal_id")
  let riskDecision ← ifTruthy (enumOf RiskDecision) (get raw "risk_decision")
  let riskReasonCode ← ifTruthy (enumOf RiskReasonCode) (get raw "risk_reason_code")
  let createdAt ← timestampOr now (get raw "created_at")
  let updatedAt ← timestampOr now (get raw "updated_at")
  let fees ← dec ((get raw "fees").or (.str "0"))
  let metadata ← dictOf (get raw "metadata")
  return { id, clientOrderId, idempotencyKey, symbol, side, orderType, quantity, filledQuantity,
           price, averageFillPrice, status, strategyName, signalId, riskDecision, riskReasonCode,
           createdAt, updatedAt, fees, metadata }

/-- The entries of a list; other values are taken for empty. -/
def elements : Value → List Value
  | .list vs => vs
  | _ => []

/-- The order of an element of a list, if it is a dictionary and nothing raises. -/
def decodeOrderElement (now : Timestamp) : Value → Option OrderModel
  | .dict raw => decodeOrder now raw
  | _ => none

/-- `checkpoint_to_orders`. -/
def checkpointToOrders (now : Timestamp) (payload : List (String × Value)) :
    Dict String OrderModel :=
  Dict.empty.setAll OrderModel.id
    ((elements (get payload "orders")).filterMap (decodeOrderElement now))

/-- The fill of a checkpoint entry, with a fresh id if it has none. -/
def decodeFill (fresh : String) (now : Timestamp) (raw : List (String × Value)) :
    Option FillModel := do
  let timestamp ← timestampOr now (get raw "timestamp")
  let id ← textOf ((get raw "id").or (.str fresh))
  let orderId ← textOf ((get raw "order_id").or (.str ""))
  let symbol ← textOf ((get raw "symbol").or (.str ""))
  let side ← enumOfLower OrderSide ((get raw "side").or (.str "buy"))
  let quantity ← dec ((get raw "quantity").or (.str "0"))
  let price ← dec ((get raw "price").or (.str "0"))
  let fee ← dec ((get raw "fee").or (.str "0"))
  return { id, orderId, symbol, side, quantity, price, fee, timestamp }

/-- The fills of a list, with fresh ids from the `n`-th on; one that raises ends the restore. -/
def decodeFills (fresh : ℕ → String) (now : Timestamp) : ℕ → List Value → Option (List FillModel)
  | _, [] => some []
  | n, .dict raw :: vs => do
      let f ← decodeFill (fresh n) now raw
      let fs ← decodeFills fresh now (n + 1) vs
      return f :: fs
  | n, _ :: vs => decodeFills fresh now n vs

/-- `checkpoint_to_fills`. -/
def checkpointToFills (fresh : ℕ → String) (now : Timestamp) (payload : List (String × Value)) :
    Option (List FillModel) :=
  decodeFills fresh now 0 (elements (get payload "fills"))

/-! ### Reading back a field -/

theorem get_of_lookup {raw : List (String × Value)} {key : String} {v : Value}
    (h : Dict.lookup key raw = some v) : get raw key = v := by
  rw [get, h, Option.getD_some]

/-- A field is dumped where it is. -/
theorem lookup_dumpMembers (mode : JsonMode) (key : String) (ms : List (String × Value)) :
    Dict.lookup key (mode.dumpMembers ms) = (Dict.lookup key ms).map mode.dump := by
  induction ms with
  | nil => rfl
  | cons m ms ih =>
    obtain ⟨k, v⟩ := m
    simp only [JsonMode.dumpMembers, Dict.lookup]
    split_ifs
    · rfl
    · exact ih

/-- The default stands in for the empty text only. -/
theorem str_or {s : String} (hs : s ≠ "") (v : Value) : (Value.str s).or v = .str s :=
  if_pos hs

@[simp] theorem textOf_str (s : String) : textOf (.str s) = some s := rfl

/-- The empty text stands in for itself. -/
@[simp] theorem str_or_empty (s : String) : (Value.str s).or (.str "") = .str s := by
  by_cases hs : s = ""
  · rw [hs]
    rfl
  · exact str_or hs _

theorem decimalText_ne (d : Decimal) : String.ofList d.toText ≠ "" := by
  intro hnil
  have hempty : d.toText = [] := by simpa using congrArg String.toList hnil
  have hwhole : d.whole ≠ [] := d.pieces.1
  simp_all [Decimal.toText]

theorem dec_ofDecimal (d : Decimal) : dec (.ofDecimal d) = some d := by
  rw [dec, Value.ofDecimal, textOf_str, Option.bind_some, String.toList_ofList,
    Decimal.ofText_toText]

/-- A number is read back, also where its default is `0`. -/
theorem dec_ofDecimal_or (d : Decimal) (v : Value) : dec ((Value.ofDecimal d).or v) = some d := by
  rw [Value.ofDecimal, str_or (decimalText_ne d), ← Value.ofDecimal, dec_ofDecimal]

theorem enumOf_enum {α : Type} [StrEnum α] (a : α) : enumOf α (.enum a) = some a := by
  rw [enumOf, Value.enum, textOf_str, Option.bind_some, StrEnum.ofValue_value]

theorem enum_or {α : Type} [StrEnum α] (a : α) (v : Value) : (Value.enum a).or v = .enum a :=
  str_or (StrEnum.value_ne a) v

/-- The values of the sides and of the order types are in small letters. -/
theorem enumOfLower_side (side : OrderSide) :
    enumOfLower OrderSide (.enum side) = some side := by
  have hlower : lower (StrEnum.value side) = StrEnum.value side := by cases side <;> decide
  rw [enumOfLower, Value.enum, textOf_str, Option.bind_some, hlower, StrEnum.ofValue_value]

theorem enumOfLower_orderType (orderType : OrderType) :
    enumOfLower OrderType (.enum orderType) = some orderType := by
  have hlower : lower (StrEnum.value orderType) = StrEnum.value orderType := by
    cases orderType <;> decide
  rw [enumOfLower, Value.enum, textOf_str, Option.bind_some, hlower, StrEnum.ofValue_value]

theorem readTimestamp_of_replaceZulu {t : Timestamp} {cs : List Char}
    (h : DateTime.replaceZulu cs = t.val.isoformat) :
    readTimestamp (String.ofList cs) = some t := by
  rw [readTimestamp, String.toList_ofList, h, DateTime.fromisoformat_isoformat t.property,
    Option.bind_some, dif_pos t.property]

theorem timestampOr_isoformat (now t : Timestamp) :
    timestampOr now (.str (String.ofList t.val.isoformat)) = some t :=
  readTimestamp_of_replaceZulu t.val.replaceZulu_isoformat

variable {mode : JsonMode}

theorem JsonMode.Documented.timestampOr_datetime (h : mode.Documented) (now t : Timestamp) :
    timestampOr now (.str (mode.datetime t)) = some t := by
  rw [h.datetime]
  exact readTimestamp_of_replaceZulu t.val.replaceZulu_zulu

theorem JsonMode.Documented.dump_decimal (h : mode.Documented) (d : Decimal) :
    mode.dump (.decimal d) = .ofDecimal d := by
  rw [JsonMode.dump, h.decimal, Value.ofDecimal]

theorem JsonMode.Documented.unlessNone_decimal (h : mode.Documented) (d : Option Decimal) :
    unlessNone dec (mode.dump (.optional .decimal d)) = some d := by
  cases d with
  | none => rfl
  | some d =>
    have hdec : dec (mode.dump (.decimal d)) = some d := by rw [h.dump_decimal, dec_ofDecimal]
    rw [h.dump_decimal] at hdec
    simp only [Value.optional, Option.elim, h.dump_decimal, Value.ofDecimal, unlessNone] at hdec ⊢
    rw [hdec, Option.map_some]

theorem optionalText_optional (s : Option String) :
    optionalText (mode.dump (.optional .str s)) = some s := by
  cases s <;> rfl

theorem ifTruthy_enum {α : Type} [StrEnum α] (a : Option α) :
    ifTruthy (enumOf α) (mode.dump (.optional .enum a)) = some a := by
  cases a with
  | none => rfl
  | some a =>
    have htruthy : (Value.enum a).Truthy := StrEnum.value_ne a
    have hdump : mode.dump (.enum a) = .enum a := rfl
    simp only [Value.optional, Option.elim, hdump]
    rw [ifTruthy, if_pos htruthy, enumOf_enum, Option.map_some]

/-- The metadata that is read is what the JSON mode made of it. -/
theorem dictOf_dump (ms : List (String × Value)) :
    dictOf (mode.dump (.dict ms)) = some (mode.dumpMembers ms) := by
  rw [JsonMode.dump, dictOf]
  cases ms with
  | nil => rfl
  | cons m ms => rfl

/-! ### Reading back orders and fills -/

theorem dump_str (text : String) : mode.dump (.str text) = .str text := rfl

theorem dump_enum {α : Type} [StrEnum α] (a : α) : mode.dump (.enum a) = .enum a := rfl

theorem dump_datetime (t : Timestamp) : mode.dump (.datetime t) = .str (mode.datetime t) := rfl

theorem get_dumpMembers (key : String) (ms : List (String × Value)) :
    get (mode.dumpMembers ms) key = mode.dump (get ms key) := by
  rw [get, get, lookup_dumpMembers]
  cases Dict.lookup key ms <;> rfl

/-- An order comes back with the metadata that the JSON mode made. -/
theorem decodeOrder_dumpMembers (hmode : mode.Documented) (now : Timestamp) {o : OrderModel}
    (hclient : o.clientOrderId ≠ "") (hkey : o.idempotencyKey ≠ "") :
    decodeOrder now (mode.dumpMembers o.fields) =
      some { o with metadata := mode.dumpMembers o.metadata } := by
  have hfield : ∀ key v, get o.fields key = v →
      get (mode.dumpMembers o.fields) key = mode.dump v := by
    rintro key v rfl
    exact get_dumpMembers key _
  have hid : Dict.lookup "id" (mode.dumpMembers o.fields) = some (.str o.id) := by
    rw [lookup_dumpMembers]
    rfl
  have hsymbol : Dict.lookup "symbol" (mode.dumpMembers o.fields) = some (.str o.symbol) := by
    rw [lookup_dumpMembers]
    rfl
  -- no text that is written is empty, so no default takes its place
  have hclient' : ∀ v, clientOrderIdOf v (.str o.clientOrderId) = some o.clientOrderId := fun _ =>
    if_pos hclient
  unfold decodeOrder
  rw [hid, hsymbol, hfield "client_order_id" (.str o.clientOrderId) rfl,
    hfield "idempotency_key" (.str o.idempotencyKey) rfl, hfield "side" (.enum o.side) rfl,
    hfield "order_type" (.enum o.orderType) rfl, hfield "quantity" (.decimal o.quantity) rfl,
    hfield "filled_quantity" (.decimal o.filledQuantity) rfl,
    hfield "price" (.optional .decimal o.price) rfl,
    hfield "average_fill_price" (.optional .decimal o.averageFillPrice) rfl,
    hfield "status" (.enum o.status) rfl,
    hfield "strategy_name" (.optional .str o.strategyName) rfl,
    hfield "signal_id" (.optional .str o.signalId) rfl,
    hfield "risk_decision" (.optional .enum o.riskDecision) rfl,
    hfield "risk_reason_code" (.optional .enum o.riskReasonCode) rfl,
    hfield "created_at" (.datetime o.createdAt) rfl,
    hfield "updated_at" (.datetime o.updatedAt) rfl, hfield "fees" (.decimal o.fees) rfl,
    hfield "metadata" (.dict o.metadata) rfl]
  simp only [dump_str, dump_enum, dump_datetime, hclient', str_or hkey, textOf_str,
    enumOfLower_side, enumOfLower_orderType, enum_or, enumOf_enum, hmode.dump_decimal,
    dec_ofDecimal_or, hmode.unlessNone_decimal, optionalText_optional, ifTruthy_enum,
    hmode.timestampOr_datetime, dictOf_dump, Option.bind_eq_bind, Option.bind_some, Option.pure_def]

/-- **When an order is read back**: exactly if its metadata is JSON. -/
theorem decodeOrder_dumpOrder_iff (hmode : mode.Documented) (now : Timestamp) {o : OrderModel}
    (hclient : o.clientOrderId ≠ "") (hkey : o.idempotencyKey ≠ "") :
    decodeOrderElement now (dumpOrder mode o) = some o ↔ Value.MembersJson o.metadata := by
  rw [dumpOrder, decodeOrderElement, decodeOrder_dumpMembers hmode now hclient hkey,
    Option.some.injEq, ← mode.dumpMembers_eq_self_iff]
  constructor
  · intro heq
    exact congrArg OrderModel.metadata heq
  · intro heq
    rw [heq]

/-- A fill comes back with an id and the default asset of its fee. -/
theorem decodeFill_fields (fresh : String) (now : Timestamp) (f : FillModel) :
    decodeFill fresh now f.fields =
      some { f with id := if f.id = "" then fresh else f.id, feeAsset := "USDT" } := by
  have hfield : ∀ key v, Dict.lookup key f.fields = some v → get f.fields key = v := fun _ _ =>
    get_of_lookup
  -- of the texts with a default, only the id may be empty and not mean it
  have hid : textOf ((Value.str f.id).or (.str fresh)) =
      some (if f.id = "" then fresh else f.id) := by
    split_ifs with hnil
    · rw [hnil]
      rfl
    · rw [str_or hnil, textOf_str]
  unfold decodeFill
  rw [hfield "timestamp" _ rfl, hfield "id" _ rfl, hfield "order_id" _ rfl,
    hfield "symbol" _ rfl, hfield "side" _ rfl, hfield "quantity" _ rfl,
    hfield "price" _ rfl, hfield "fee" _ rfl]
  simp only [timestampOr_isoformat, hid, str_or_empty, textOf_str, enum_or, enumOfLower_side,
    dec_ofDecimal_or, Option.bind_eq_bind, Option.bind_some, Option.pure_def]

/-- **When a fill is read back**: exactly if its id is not empty or the fresh one, and the
asset of its fee is the default. -/
theorem decodeFill_fields_iff {fresh : String} (hfresh : fresh ≠ "") (now : Timestamp)
    (f : FillModel) :
    decodeFill fresh now f.fields = some f ↔ f.id ≠ "" ∧ f.feeAsset = "USDT" := by
  rw [decodeFill_fields, Option.some.injEq]
  constructor
  · intro heq
    have hid : (if f.id = "" then fresh else f.id) = f.id := congrArg FillModel.id heq
    have hasset : "USDT" = f.feeAsset := congrArg FillModel.feeAsset heq
    refine ⟨fun hnil => ?_, hasset.symm⟩
    rw [if_pos hnil, hnil] at hid
    exact hfresh hid
  · rintro ⟨hid, hasset⟩
    rw [if_neg hid, ← hasset]

/-! ### The ledger of a checkpoint -/

theorem decodeFills_serializeFills (fresh : ℕ → String) (now : Timestamp) {fills : List FillModel}
    (h : ∀ f ∈ fills, f.id ≠ "" ∧ f.feeAsset = "USDT") :
    ∀ n, decodeFills fresh now n (serializeFills fills) = some fills := by
  induction fills with
  | nil => exact fun _ => rfl
  | cons f fills ih =>
    intro n
    obtain ⟨hid, hasset⟩ := h f (List.mem_cons_self ..)
    have hrest := ih (fun g hg => h g (List.mem_cons_of_mem _ hg)) (n + 1)
    unfold serializeFills at hrest ⊢
    rw [List.map_cons, decodeFills, hrest, decodeFill_fields, if_neg hid, ← hasset]
    rfl

/-- **The fills of a checkpoint are read back**, if they have ids and the default fee asset. -/
theorem checkpointToFills_checkpoint (mode : JsonMode) (fresh : ℕ → String) (now : Timestamp)
    (orders : Dict String OrderModel) {fills : List FillModel}
    (h : ∀ f ∈ fills, f.id ≠ "" ∧ f.feeAsset = "USDT") :
    checkpointToFills fresh now (checkpoint mode orders fills) = some fills :=
  decodeFills_serializeFills fresh now h 0

/-- **The orders of a checkpoint are read back**, if they have keys and their metadata is
JSON. -/
theorem checkpointToOrders_checkpoint (hmode : mode.Documented) (now : Timestamp)
    {orders : Dict String OrderModel} (fills : List FillModel)
    (hids : ∀ {id o}, orders.get? id = some o → o.id = id)
    (h : ∀ o ∈ orders.values, o.clientOrderId ≠ "" ∧ o.idempotencyKey ≠ "" ∧
      Value.MembersJson o.metadata) :
    checkpointToOrders now (checkpoint mode orders fills) = orders := by
  have hread : (serializeOrders mode orders).filterMap (decodeOrderElement now) =
      orders.values := by
    rw [serializeOrders, List.filterMap_map]
    refine (List.filterMap_congr fun o ho => ?_).trans (List.filterMap_some ..)
    obtain ⟨hclient, hkey, hjson⟩ := h o ho
    exact (decodeOrder_dumpOrder_iff hmode now hclient hkey).mpr hjson
  rw [checkpointToOrders]
  show Dict.empty.setAll OrderModel.id
    ((serializeOrders mode orders).filterMap (decodeOrderElement now)) = orders
  rw [hread, Dict.setAll_values hids]

/-- **The ledger of a checkpoint is read back**: the orders if they have keys and JSON for
metadata, and the fills if they have ids and the default fee asset, each field as it was. -/
theorem checkpoint_round_trip (hmode : mode.Documented) (fresh : ℕ → String) (now : Timestamp)
    {orders : Dict String OrderModel} {fills : List FillModel}
    (hids : ∀ {id o}, orders.get? id = some o → o.id = id)
    (horders : ∀ o ∈ orders.values, o.clientOrderId ≠ "" ∧ o.idempotencyKey ≠ "" ∧
      Value.MembersJson o.metadata)
    (hfills : ∀ f ∈ fills, f.id ≠ "" ∧ f.feeAsset = "USDT") :
    checkpointToOrders now (checkpoint mode orders fills) = orders ∧
      checkpointToFills fresh now (checkpoint mode orders fills) = some fills :=
  ⟨checkpointToOrders_checkpoint hmode now fills hids horders,
    checkpointToFills_checkpoint mode fresh now orders hfills⟩

/-- A mode that is as documented. -/
def JsonMode.standard : JsonMode where
  decimal d := String.ofList d.toText
  datetime t := String.ofList t.val.zulu

theorem JsonMode.documented_standard : JsonMode.standard.Documented := ⟨fun _ => rfl, fun _ => rfl⟩

/-- 2024-05-01T09:30:00.000001 in UTC. -/
def morning : Timestamp := ⟨⟨1714555800000001, some 0⟩, by decide +kernel⟩

/-- A resting order to buy 0.50 at 95.00. -/
def restingOrder : OrderModel where
  id := "4f1d"
  clientOrderId := "atlas-4f1d"
  idempotencyKey := "cycle-5e"
  symbol := "BTC/USDT"
  side := .buy
  orderType := .limit
  quantity := ⟨false, 50, -2⟩
  price := some ⟨false, 9500, -2⟩
  status := .submitted
  riskDecision := some .approved
  riskReasonCode := some .ok
  createdAt := morning
  updatedAt := morning
  metadata := [("reservation_open", .str "true")]

/-- A fill of 0.50 at 95.00. -/
def firstFill : FillModel where
  id := "77ab"
  orderId := "4f1d"
  symbol := "BTC/USDT"
  side := .buy
  quantity := ⟨false, 50, -2⟩
  price := ⟨false, 9500, -2⟩
  fee := ⟨false, 475, -4⟩
  timestamp := morning

theorem checkpoint_round_trip_resting :
    checkpointToOrders morning
        (checkpoint .standard (Dict.empty.set "4f1d" restingOrder) [firstFill]) =
      Dict.empty.set "4f1d" restingOrder ∧
      checkpointToFills (fun _ => "0d") morning
        (checkpoint .standard (Dict.empty.set "4f1d" restingOrder) [firstFill]) =
      some [firstFill] := by
  refine checkpoint_round_trip JsonMode.documented_standard _ morning (fun {id o} ho => ?_) ?_ ?_
  · rw [Dict.get?_set, Dict.get?_empty] at ho
    split_ifs at ho with hid
    rw [← Option.some.inj ho, ← hid]
    rfl
  · intro o ho
    rw [List.mem_singleton.mp ho]
    exact ⟨by decide, by decide, trivial, trivial⟩
  · intro f hf
    rw [List.mem_singleton.mp hf]
    exact ⟨by decide, rfl⟩

/-- The order with a decimal number in its metadata. -/
def limitedOrder : OrderModel :=
  { restingOrder with metadata := [("limit", .decimal ⟨false, 1, 0⟩)] }

/-- The fill without an id. -/
def anonymousFill : FillModel := { firstFill with id := "" }

/-- **What does not come back**: the decimal number comes back as its text, and the fill with
a fresh id. -/
theorem checkpoint_changes :
    JsonMode.standard.Documented ∧
      (limitedOrder.id ≠ "" ∧ limitedOrder.clientOrderId ≠ "" ∧
        limitedOrder.idempotencyKey ≠ "") ∧
      (checkpointToOrders morning
          (checkpoint .standard (Dict.empty.set "4f1d" limitedOrder) [])).get? "4f1d" =
        some { limitedOrder with metadata := [("limit", .str "1")] } ∧
      { limitedOrder with metadata := [("limit", .str "1")] } ≠ limitedOrder ∧
      anonymousFill.feeAsset = "USDT" ∧
      checkpointToFills (fun _ => "0d") morning (checkpoint .standard {} [anonymousFill]) =
        some [{ anonymousFill with id := "0d" }] ∧
      { anonymousFill with id := "0d" } ≠ anonymousFill := by
  refine ⟨JsonMode.documented_standard, ⟨by decide, by decide, by decide⟩, rfl, ?_, rfl, rfl, ?_⟩
  · intro heq
    have hmetadata := congrArg OrderModel.metadata heq
    simp [limitedOrder] at hmetadata
  · intro heq
    have hid : "0d" = "" := congrArg FillModel.id heq
    exact absurd hid (by decide)

end Codec

end Atlas
