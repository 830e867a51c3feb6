import Mathlib.Data.List.Sort
import Atlas.Session.Moves

/-!
# What a session writes to the database, and what it reads back

The runtime keeps its state in two stores.  The checkpoint is one row that
`persist_paper_session` replaces as a whole, together with the row of the risk state.
The journal is a table of orders and one of fills, to which a cycle adds a row for
each order and each fill of its own.  A restart hydrates a fresh session: first from
the checkpoint, then from the risk state, then from the journal, and where the journal
has no orders or no fills, again from the checkpoint.

The numbers of the checkpoint are texts and come back as they were written.  Those of
the risk state and of the journal are `Numeric(36, 18)` columns: what such a column
gives back for a number is the parameter `column`.

Left out are the rows that a restart with a checkpoint does not read: the account,
the balance, the snapshots, the equity curve and the strategy state, and with them the
branches of the hydration for a database without a checkpoint.  The fallbacks for an
absent or empty field of the checkpoint are left out too: every field is written, and
no identifier or key is empty.

## Main definitions

* `Checkpoint`, `RiskRow`, `Database` — the rows.
* `persist` — `persist_paper_session`.
* `Database.recordOrder`, `Database.recordFill` — the journal.
* `hydrate` — `hydrate_paper_session_from_db`.

## References

`app/services/paper_session.py`, `app/services/paper_persistence.py`,
`app/journal/store.py`.
-/

namespace Atlas

/-- The key of a processed cycle. -/
structure CycleKey where
  symbol : String
  strategyVersion : String
  timeframe : String
  openTime : Time
  deriving DecidableEq, Repr, Inhabited

/-! ### Rows -/

/-- A position in the checkpoint. -/
structure PositionRow where
  quantity : ℚ
  entryPrice : ℚ
  currentPrice : ℚ
  unrealizedPnl : ℚ
  openedAt : Time
  strategyName : Option String
  deriving DecidableEq, Repr, Inhabited

/-- A fill in the checkpoint. -/
structure FillRow where
  id : Ident
  orderId : Ident
  symbol : String
  side : OrderSide
  quantity : ℚ
  price : ℚ
  fee : ℚ
  timestamp : Time
  deriving DecidableEq, Repr, Inhabited

/-- The value of `paper_checkpoint`.  The orders are dumped with all their fields. -/
structure Checkpoint where
  cash : ℚ
  reservedCash : ℚ
  realizedPnl : ℚ
  peakEquity : ℚ
  dailyStartEquity : ℚ
  consecutiveLosses : ℕ
  idempotencyIndex : Dict String Ident
  positions : Dict String PositionRow
  fills : List FillRow
  orders : List Order
  deriving DecidableEq, Repr, Inhabited

/-- The row of the risk state. -/
structure RiskRow where
  circuitBreakerOpen : Bool
  circuitBreakerReason : String
  seenIdempotencyKeys : List String
  reconciliationHealthy : Bool
  riskEngineHealthy : Bool
  databaseHealthy : Bool
  marketDataHealthy : Bool
  peakEquity : ℚ
  dailyStartEquity : ℚ
  consecutiveLosses : ℕ
  killSwitchEnabled : Bool
  deriving DecidableEq, Repr, Inhabited

/-- The tables that a restart reads. -/
structure Database where
  killSwitch : Option Bool := none
  reconciliationHalt : Option Bool := none
  checkpoint : Option Checkpoint := none
  riskState : Option RiskRow := none
  /-- The table `orders` of the journal. -/
  orders : List Order := []
  /-- The table `fills` of the journal. -/
  fills : List Fill := []
  cycleKeys : List CycleKey := []
  deriving DecidableEq, Repr, Inhabited

def Position.row (p : Position) : PositionRow where
  quantity := p.quantity
  entryPrice := p.entryPrice
  currentPrice := p.currentPrice
  unrealizedPnl := p.unrealizedPnl
  openedAt := p.openedAt
  strategyName := p.strategyName

/-- `checkpoint_to_positions`, for one position: the fields without an entry have
their defaults. -/
def PositionRow.position (name : String) (r : PositionRow) : Position where
  symbol := name
  quantity := r.quantity
  entryPrice := r.entryPrice
  currentPrice := r.currentPrice
  unrealizedPnl := r.unrealizedPnl
  openedAt := r.openedAt
  strategyName := r.strategyName

def Fill.row (f : Fill) : FillRow where
  id := f.id
  orderId := f.orderId
  symbol := f.symbol
  side := f.side
  quantity := f.quantity
  price := f.price
  fee := f.fee
  timestamp := f.timestamp

/-- `checkpoint_to_fills`, for one fill. -/
def FillRow.fill (r : FillRow) : Fill where
  id := r.id
  orderId := r.orderId
  symbol := r.symbol
  side := r.side
  quantity := r.quantity
  price := r.price
  fee := r.fee
  timestamp := r.timestamp

/-! ### The journal -/

/-- The row `record_order` adds. -/
def Order.stored (column : ℚ → ℚ) (o : Order) : Order :=
  { o with
    quantity := column o.quantity
    filledQuantity := column o.filledQuantity
    price := o.price.map column
    averageFillPrice := o.averageFillPrice.map column
    fees := column o.fees }

/-- The order `list_orders` makes of a row: it does not read the risk outcome. -/
def Order.listed (o : Order) : Order := { o with riskDecision := none, riskReasonCode := none }

/-- The row `record_fill` adds. -/
def Fill.stored (column : ℚ → ℚ) (f : Fill) : Fill :=
  { f with
    quantity := column f.quantity
    price := column f.price
    fee := column f.fee
    feeAsset := "USDT" }

namespace Database

/-- The constraints of the table `orders`: the identifier and the key are unique. -/
def acceptsOrder (db : Database) (o : Order) : Bool :=
  !db.orders.any fun r => r.id = o.id ∨ r.idempotencyKey = o.idempotencyKey

/-- The constraint of the table `fills`. -/
def acceptsFill (db : Database) (f : Fill) : Bool := !db.fills.any fun r => r.id = f.id

/-- `record_order`. -/
def recordOrder (column : ℚ → ℚ) (db : Database) (o : Order) : Database :=
  { db with orders := db.orders ++ [o.stored column] }

/-- `record_fill`. -/
def recordFill (column : ℚ → ℚ) (db : Database) (f : Fill) : Database :=
  { db with fills := db.fills ++ [f.stored column] }

/-- The newest 500 rows, in ascending order of their time. -/
def newest {α : Type*} (time : α → Time) (rows : List α) : List α :=
  ((rows.insertionSort fun a b => time b ≤ time a).take 500).reverse

/-- `list_orders`. -/
def listOrders (db : Database) : List Order :=
  (newest Order.createdAt db.orders).map Order.listed

/-- `list_fills`. -/
def listFills (db : Database) : List Fill := newest Fill.timestamp db.fills

end Database

namespace Session

variable (cfg : PaperConfig) (column : ℚ → ℚ)

/-! ### Writing -/

/-- The checkpoint `save_paper_checkpoint` writes. -/
def checkpoint (s : Session) : Checkpoint where
  cash := s.paper.cash
  reservedCash := s.paper.reservedCash
  realizedPnl := s.paper.realizedPnl
  peakEquity := s.peakEquity
  dailyStartEquity := s.dailyStartEquity
  consecutiveLosses := s.consecutiveLosses
  idempotencyIndex := s.paper.idempotencyIndex
  positions := s.paper.positions.map fun _ => Position.row
  fills := s.paper.fills.map Fill.row
  orders := s.paper.orders.values

/-- The row `save_risk_state` writes: of the keys at most 5000. -/
def riskRow (s : Session) : RiskRow where
  circuitBreakerOpen := s.risk.circuitBreakerOpen
  circuitBreakerReason := s.risk.circuitBreakerReason
  seenIdempotencyKeys := s.risk.seenIdempotencyKeys.take 5000
  reconciliationHealthy := s.risk.reconciliationHealthy
  riskEngineHealthy := s.risk.riskEngineHealthy
  databaseHealthy := s.risk.databaseHealthy
  marketDataHealthy := s.risk.marketDataHealthy
  peakEquity := column s.peakEquity
  dailyStartEquity := column s.dailyStartEquity
  consecutiveLosses := s.consecutiveLosses
  killSwitchEnabled := s.killSwitchEnabled

/-- `persist_paper_session`: one commit. -/
def persist (s : Session) (db : Database) : Database :=
  { db with
    killSwitch := some s.killSwitchEnabled
    checkpoint := some s.checkpoint
    riskState := some (s.riskRow column) }

/-! ### Reading -/

/-- The ledger with the cash, the positions and the index of the checkpoint. -/
def loadLedger (paper : PaperState) (c : Checkpoint) : PaperState :=
  { paper with
    cash := c.cash
    reservedCash := c.reservedCash
    realizedPnl := c.realizedPnl
    positions := c.positions.map PositionRow.position
    idempotencyIndex := c.idempotencyIndex }

/-- Every position is marked at its own price. -/
def remark (paper : PaperState) (now : Time) : PaperState :=
  paper.positions.entries.foldl
    (fun paper e => Paper.setMarkPrice cfg paper e.1 e.2.currentPrice now) paper

/-- The part of the checkpoint that is read first. -/
def hydrateCheckpoint (s : Session) (c : Checkpoint) (now : Time) : Session :=
  raisePeak
    { s with
      paper := remark cfg (loadLedger s.paper c) now
      peakEquity := c.peakEquity
      dailyStartEquity := c.dailyStartEquity
      consecutiveLosses := c.consecutiveLosses }

/-- The risk state; a stored zero is falsy, and leaves what the checkpoint gave. -/
def hydrateRisk (s : Session) (r : RiskRow) : Session :=
  { s with
    risk := { s.risk with
      circuitBreakerOpen := r.circuitBreakerOpen
      circuitBreakerReason := r.circuitBreakerReason
      seenIdempotencyKeys := r.seenIdempotencyKeys
      reconciliationHealthy := r.reconciliationHealthy
      riskEngineHealthy := r.riskEngineHealthy
      databaseHealthy := r.databaseHealthy
      marketDataHealthy := r.marketDataHealthy }
    peakEquity := if r.peakEquity = 0 then s.peakEquity else r.peakEquity
    dailyStartEquity := if r.dailyStartEquity = 0 then s.dailyStartEquity else r.dailyStartEquity
    consecutiveLosses := if r.consecutiveLosses = 0 then s.consecutiveLosses else r.consecutiveLosses
    killSwitchEnabled := r.killSwitchEnabled || s.killSwitchEnabled }

/-- Without seen keys, the keys of the index are seen. -/
def seedKeys (s : Session) : Session :=
  { s with
    risk := { s.risk with
      seenIdempotencyKeys :=
        if s.risk.seenIdempotencyKeys = [] then s.paper.idempotencyIndex.keys
        else s.risk.seenIdempotencyKeys } }

/-- The ledger with more orders, each in the index under its key. -/
def putOrders (paper : PaperState) (orders : List Order) : PaperState :=
  { paper with
    orders := paper.orders.setAll Order.id orders
    idempotencyIndex :=
      orders.foldl (fun index o => index.set o.idempotencyKey o.id) paper.idempotencyIndex }

/-- The orders of a store, with their keys seen. -/
def hydrateOrders (s : Session) (orders : List Order) : Session :=
  { s with
    paper := putOrders s.paper orders
    risk := { s.risk with
      seenIdempotencyKeys :=
        (orders.map Order.idempotencyKey).reverse ++ s.risk.seenIdempotencyKeys } }

/-- The ledger with the fills of a store, unless the store has none. -/
def putFills (paper : PaperState) (fills : List Fill) : PaperState :=
  if fills = [] then paper else { paper with fills := fills }

/-- The fills of a store. -/
def hydrateFills (s : Session) (fills : List Fill) : Session :=
  { s with paper := putFills s.paper fills }

/-- The orders `checkpoint_to_orders` restores. -/
def restoredOrders (c : Checkpoint) : Dict Ident Order := Dict.empty.setAll Order.id c.orders

/-- The fills of the checkpoint, for a ledger without fills. -/
def missingFills (paper : PaperState) (c : Checkpoint) : List Fill :=
  if paper.fills = [] then c.fills.map FillRow.fill else []

/-- The orders of the checkpoint, for a ledger without orders. -/
def missingOrders (paper : PaperState) (c : Checkpoint) : List Order :=
  if paper.orders.entries = [] then (restoredOrders c).values else []

/-- The part of the checkpoint that is read last. -/
def hydrateLedger (s : Session) (c : Checkpoint) : Session :=
  hydrateOrders (hydrateFills s (missingFills s.paper c)) (missingOrders s.paper c)

/-- `hydrate_paper_session_from_db`, of the session `s`. -/
def hydrate (s : Session) (db : Database) (now : Time) : Session :=
  let s := db.killSwitch.elim s fun enabled => { s with killSwitchEnabled := enabled }
  let s := db.reconciliationHalt.elim s fun halted =>
    { s with risk := { s.risk with reconciliationHealthy := !halted } }
  let s := db.checkpoint.elim s fun c => hydrateCheckpoint cfg s c now
  let s := db.riskState.elim s s.hydrateRisk
  let s := s.seedKeys
  let s := hydrateFills (hydrateOrders s db.listOrders) db.listFills
  db.checkpoint.elim s s.hydrateLedger

/-- A session of a new process; `draws` identifiers have been drawn before. -/
def restarted (settings : RiskSettings) (draws : ℕ) : Session :=
  { fresh settings cfg with paper := { Paper.fresh cfg ∅ with nextUuid := draws } }

end Session

end Atlas
