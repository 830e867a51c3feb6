import Atlas.Paper.Sales
import Atlas.Session.Account

/-!
# The risk views of one account

The limits on losses are those of the account, but the risk engine is told of the losses
by the path of each order, and every path tells of its own: the highest equity it has
read itself, and the losses in a row among its own sales.  A sale of another path is in
none of these, and a sale that a mark triggers is in no path's.

So two paths report the same risk exactly when they happen to have lost as often in a
row and to have read as high, and the limit on losses in a row holds for the account
exactly where the path of the order has made as many losses itself.

## Main definitions

* `ViewRun` — a run of an account, with what each path has read and sold, and with all
  the sales of the ledger.
* `ViewRun.Told` — what the paths keep is what they have seen themselves.
* `SameRisk` — two paths report the same risk.

## Main results

* `ViewRun.Told.step` — a step keeps this.
* `risk_views_iff` — **when the paths report the same risk, and when the limit on losses
  in a row holds for the account**.
* `losses_of_other_path` — the account has reached the limit, and a strategy buys.

## References

`app/services/paper_session.py`, `app/services/trading_orchestrator.py`,
`app/risk/engine.py`.
-/

namespace Atlas

open Session Transition Risk

/-! ### Runs -/

/-- An account, with what each path has read and sold, and the profits of all sales. -/
structure ViewRun (ι : Type*) where
  account : Account ι
  reads : Option ι → List ℚ := fun _ => []
  own : Option ι → List ℚ := fun _ => []
  sales : List ℚ := []

/-- A new account: the session and the orchestrators have the initial cash. -/
structure Account.New {ι : Type*} (d : Deployment) (a : Account ι) : Prop where
  session : a.session = Session.fresh d.settings d.paper
  peak : ∀ i, (a.traders i).state.peakEquity = d.paper.initialCash
  losses : ∀ i, (a.traders i).state.consecutiveLosses = 0

variable {ι : Type*} [DecidableEq ι] {d : Deployment}

/-- The account after an action; every action is enabled. -/
def ViewRun.step (d : Deployment) (run : ViewRun ι) (action : AccountAction ι) :
    Option (ViewRun ι) :=
  let p := action.path
  some
    { account := run.account.step d action
      reads := Function.update run.reads p (run.reads p ++ run.account.readsOf d action)
      own := Function.update run.own p (run.own p ++ run.account.saleOf d action)
      sales := run.sales ++
        (Paper.salesAlong d.paper run.account.session.paper (run.account.ops d action)).map
          Paper.Sale.profit }

/-- What the paths keep is what they have seen themselves. -/
structure ViewRun.Told (d : Deployment) (run : ViewRun ι) : Prop where
  start : run.account.session.dailyStartEquity = d.paper.initialCash
  peak : ∀ p, run.account.peak p = highest d.paper.initialCash (run.reads p)
  losses : ∀ p, run.account.losses p = losingStreak 0 (run.own p)

omit [DecidableEq ι] in
theorem ViewRun.Told.init {account : Account ι} (hnew : account.New d) :
    ViewRun.Told d ⟨account, fun _ => [], fun _ => [], []⟩ := by
  refine ⟨?_, fun p => ?_, fun p => ?_⟩
  · rw [hnew.session]
    rfl
  · cases p with
    | none => exact congrArg Session.peakEquity hnew.session
    | some i => exact hnew.peak i
  · cases p with
    | none => exact congrArg Session.consecutiveLosses hnew.session
    | some i => exact hnew.losses i

/-- A fold over what a path has seen, when one path has seen more. -/
theorem foldl_update {β : Type*} (f : β → ℚ → β) (b : β) (seen : Option ι → List ℚ)
    (p q : Option ι) (more : List ℚ) :
    (Function.update seen p (seen p ++ more) q).foldl f b =
      (if p = q then more else []).foldl f ((seen q).foldl f b) := by
  by_cases hpq : p = q
  · subst hpq
    rw [Function.update_self, if_pos rfl, List.foldl_append]
  · rw [Function.update_of_ne (Ne.symm hpq), if_neg hpq]
    rfl

/-- **A step keeps what the paths keep in step with what they have seen.** -/
theorem ViewRun.Told.step {run run' : ViewRun ι} {action : AccountAction ι} (h : run.Told d)
    (hstep : run.step d action = some run') : run'.Told d := by
  rw [← Option.some.inj hstep]
  refine ⟨(Account.step_dailyStartEquity action).trans h.start, fun p => ?_, fun p => ?_⟩ <;>
    obtain ⟨hpeak, hlosses⟩ := @Account.step_seen ι _ d run.account action p
  · rw [h.peak] at hpeak
    exact hpeak.trans (foldl_update ..).symm
  · rw [h.losses] at hlosses
    exact hlosses.trans (foldl_update ..).symm

/-! ### What the paths report -/

/-- Two portfolios report the same risk. -/
def SameRisk (p q : PortfolioState) : Prop :=
  p.peakEquity = q.peakEquity ∧ p.drawdown = q.drawdown ∧ p.dailyPnl = q.dailyPnl ∧
    p.consecutiveLosses = q.consecutiveLosses

instance (p q : PortfolioState) : Decidable (SameRisk p q) :=
  inferInstanceAs (Decidable (_ ∧ _ ∧ _ ∧ _))

theorem max_eq_max_right_iff {a b c : ℚ} : max a c = max b c ↔ a = b ∨ max a b ≤ c := by
  constructor
  · intro h
    by_cases hc : max a b ≤ c
    · exact .inr hc
    · left
      rcases lt_max_iff.mp (not_le.mp hc) with ha | hb
      · rw [max_eq_left ha.le] at h
        rcases max_choice b c with hm | hm
        · exact h.trans hm
        · exact absurd (h.trans hm) ha.ne'
      · rw [max_eq_left hb.le] at h
        rcases max_choice a c with hm | hm
        · exact hm.symm.trans h
        · exact absurd (h.symm.trans hm) hb.ne'
  · rintro (rfl | h)
    · rfl
    · obtain ⟨ha, hb⟩ := max_le_iff.mp h
      rw [max_eq_right ha, max_eq_right hb]

omit [DecidableEq ι] in
/-- What a path reports, from what it keeps. -/
theorem portfolio_reports {a : Account ι} (hstart : a.session.dailyStartEquity = d.paper.initialCash)
    (p : Option ι) :
    let equity := a.session.paper.equity
    (a.portfolio d p).peakEquity = max (a.peak p) equity ∧
      (a.portfolio d p).drawdown = drawdown (max (a.peak p) equity) equity ∧
      (a.portfolio d p).dailyPnl = equity - d.paper.initialCash ∧
      (a.portfolio d p).consecutiveLosses = a.losses p := by
  cases p with
  | none => exact ⟨rfl, rfl, congrArg (a.session.paper.equity - ·) hstart, rfl⟩
  | some i => exact ⟨rfl, rfl, rfl, rfl⟩

omit [DecidableEq ι] in
theorem sameRisk_iff {a : Account ι} (hstart : a.session.dailyStartEquity = d.paper.initialCash)
    (p q : Option ι) :
    SameRisk (a.portfolio d p) (a.portfolio d q) ↔
      (a.peak p = a.peak q ∨ max (a.peak p) (a.peak q) ≤ a.session.paper.equity) ∧
        a.losses p = a.losses q := by
  obtain ⟨hpeak, hdrawdown, hdaily, hlosses⟩ := portfolio_reports hstart p
  obtain ⟨hpeak', hdrawdown', hdaily', hlosses'⟩ := portfolio_reports hstart q
  rw [SameRisk, hpeak, hpeak', hdrawdown, hdrawdown', hdaily, hdaily', hlosses, hlosses',
    max_eq_max_right_iff]
  constructor
  · rintro ⟨hsame, -, -, hcount⟩
    exact ⟨hsame, hcount⟩
  · rintro ⟨hsame, hcount⟩
    have hmax : max (a.peak p) a.session.paper.equity = max (a.peak q) a.session.paper.equity :=
      max_eq_max_right_iff.mpr hsame
    exact ⟨hsame, by rw [hmax], rfl, hcount⟩

/-- **When the paths report the same risk, and when the limit on losses in a row holds for
the account**, in every state that a run reaches from a new account.  Two paths report the
same where they have lost as often in a row and have read as high, or no higher than the
equity is.  An order that comes as far as the limit is rejected for the losses of the
account where its own path has made as many. -/
theorem risk_views_iff {account : Account ι} {run : ViewRun ι} (hnew : account.New d)
    (h : Reachable (ViewRun.step d) (fun _ _ => True)
      ⟨account, fun _ => [], fun _ => [], []⟩ run) :
    (∀ p q : Option ι,
      let peak := fun p => highest d.paper.initialCash (run.reads p)
      SameRisk (run.account.portfolio d p) (run.account.portfolio d q) ↔
        (peak p = peak q ∨ max (peak p) (peak q) ≤ run.account.session.paper.equity) ∧
          losingStreak 0 (run.own p) = losingStreak 0 (run.own q)) ∧
      (∀ (args : OrderArgs) (key : String) (around : Surroundings) (price : ℚ),
        let s := run.account.session
        let context := riskContext d.settings d.paper s args.symbol around
        let reached := d.settings.maxConsecutiveLosses ≤ losingStreak 0 run.sales
        PassesUntil 4 d.settings context.2.risk (args.request key) context.1 around.now price →
          ((reached →
              (submit d.settings d.paper s args key around).1.RejectedWith .maxConsecutiveLosses) ↔
            (reached → d.settings.maxConsecutiveLosses ≤ losingStreak 0 (run.own none)))) ∧
      ∀ (i : ι) (feed : CandleFeed) (decision : StrategyDecision) (request : OrderRequest)
        (price : ℚ),
        let t := ((run.account.trader i).received.taken d feed).counted decision
        let reached := d.settings.maxConsecutiveLosses ≤ losingStreak 0 run.sales
        PassesUntil 4 d.settings t.session.risk request
            (Runtime.cycleContext d t.session.paper (t.cycleInput feed decision))
            feed.around.now price →
          ((reached →
              ∃ o, (t.send d feed decision request).1 = some o ∧
                o.RejectedWith .maxConsecutiveLosses) ↔
            (reached → d.settings.maxConsecutiveLosses ≤ losingStreak 0 (run.own (some i)))) := by
  have htold : run.Told d :=
    h.invariant (I := ViewRun.Told d) (.init hnew) fun _ _ _ hs _ hstep => hs.step hstep
  refine ⟨fun p q => ?_, ?_, ?_⟩
  · rw [sameRisk_iff htold.start, htold.peak, htold.peak, htold.losses, htold.losses]
  · intro args key around price s context reached hpass
    have hcount : context.1.portfolio.consecutiveLosses = losingStreak 0 (run.own none) :=
      htold.losses none
    rw [submit_evaluation, consecutiveLosses_iff hpass, hcount]
  · intro i feed decision request price t reached hpass
    have hkept : t.state.consecutiveLosses = _ := congrArg Prod.snd
      (@TradingOrchestrator.taken_kept d (run.account.trader i).received feed)
    have hcount : (Runtime.cycleContext d t.session.paper
        (t.cycleInput feed decision)).portfolio.consecutiveLosses =
          losingStreak 0 (run.own (some i)) := hkept.trans (htold.losses (some i))
    rw [TradingOrchestrator.send_rejectedWith, consecutiveLosses_iff hpass, hcount]

/-! ### Two losses -/

namespace ViewRun

/-- Two losses in a row are the limit. -/
def twoLosses : Deployment := { FeedRun.defaultDeployment with settings := { maxConsecutiveLosses := 2 } }

/-- A new account with one orchestrator. -/
def newAccount : Account Unit where
  session := Session.fresh twoLosses.settings twoLosses.paper
  traders := fun _ =>
    .fresh twoLosses "session" false none (1 / 10)
      (Session.fresh twoLosses.settings twoLosses.paper)

theorem newAccount_new : newAccount.New twoLosses := ⟨rfl, fun _ => rfl, fun _ => rfl⟩

/-- One unit at the market, with a stop. -/
def unit (side : OrderSide) : OrderArgs where
  symbol := "BTC/USDT"
  side := side
  orderType := .market
  quantity := 1
  stopLoss := some 99

def atMinute (minute : ℤ) : Surroundings := { now := seconds (60 * minute), seriesMark := 100 }

/-- A purchase and a sale of the session, each at 100: a loss of the costs. -/
def manualLoss (minute : ℤ) : List (AccountAction Unit) :=
  [.session (.submit (unit .buy) ("buy" ++ toString minute) (atMinute minute)),
    .session (.submit (unit .sell) ("sell" ++ toString minute) (atMinute (minute + 1)))]

/-- A candle that a strategy answers with a purchase. -/
def signalled : CandleFeed where
  candle := FeedRun.minuteCandle 9 100
  strategyName := "buys"
  evaluate := fun _ => some { signal := { direction := .buy }, fingerprint := "f" }
  around := atMinute 9

/-- The purchase of the strategy. -/
def strategyRequest : OrderRequest where
  symbol := "BTC/USDT"
  side := .buy
  orderType := .market
  quantity := 1
  strategyName := some "buys"
  idempotencyKey := "session-BTCUSDT-540000-buy"
  clientOrderId := some "session-BTCUSDT-540000-buy"

/-- The mark is set to 100. -/
def mark : AccountAction Unit := .session (.setMarkPrice "BTC/USDT" 100 0)

/-- The purchase of the strategy fills. -/
def StrategyBuys (run : ViewRun Unit) : Prop :=
  ((((run.account.trader ()).received.taken twoLosses signalled).send twoLosses signalled
    { signal := { direction := .buy }, fingerprint := "f" } strategyRequest).1.any
      fun o => o.status = .filled) = true

instance (run : ViewRun Unit) : Decidable run.StrategyBuys := inferInstanceAs (Decidable (_ = true))

/-- What the risk engine is shown of a further purchase of the session. -/
def shown (run : ViewRun Unit) : RiskContext × Session :=
  riskContext twoLosses.settings twoLosses.paper run.account.session "BTC/USDT" (atMinute 9)

/-- The purchase comes as far as the limit on losses in a row. -/
def Reaches (run : ViewRun Unit) : Prop :=
  PassesUntil 4 twoLosses.settings run.shown.2.risk ((unit .buy).request "last") run.shown.1
    (atMinute 9).now 100

instance (run : ViewRun Unit) : Decidable run.Reaches := inferInstanceAs (Decidable (PassesUntil ..))

/-- The answer to the purchase. -/
def answer (run : ViewRun Unit) : RiskEvaluation :=
  (submit twoLosses.settings twoLosses.paper run.account.session (unit .buy) "last" (atMinute 9)).1

end ViewRun

/-- Two losses of the session itself: its next order is rejected. -/
theorem risk_views_iff_manual_losses :
    ∃ run, Reachable (ViewRun.step ViewRun.twoLosses) (fun _ _ => True)
        ⟨ViewRun.newAccount, fun _ => [], fun _ => [], []⟩ run ∧
      run.answer.RejectedWith .maxConsecutiveLosses := by
  obtain ⟨run, hreach, hreaches, hsales, hown⟩ :
      ∃ run, Reachable (ViewRun.step ViewRun.twoLosses) (fun _ _ => True)
          ⟨ViewRun.newAccount, fun _ => [], fun _ => [], []⟩ run ∧ run.Reaches ∧
        ViewRun.twoLosses.settings.maxConsecutiveLosses ≤ losingStreak 0 run.sales ∧
        ViewRun.twoLosses.settings.maxConsecutiveLosses ≤ losingStreak 0 (run.own none) :=
    exists_reachable (ViewRun.mark :: ViewRun.manualLoss 0 ++ ViewRun.manualLoss 2)
      (by decide +kernel) (by decide +kernel)
  have hlimit := (risk_views_iff ViewRun.newAccount_new hreach).2.1 (ViewRun.unit .buy) "last"
    (ViewRun.atMinute 9) 100 hreaches
  exact ⟨run, hreach, hlimit.mpr (fun _ => hown) hsales⟩

/-- **Two losses of the session are none of the orchestrator's**: the account has lost as
often in a row as it may, the two report different risks, and the order of a strategy is
let through and fills. -/
theorem losses_of_other_path :
    ∃ run, Reachable (ViewRun.step ViewRun.twoLosses) (fun _ _ => True)
        ⟨ViewRun.newAccount, fun _ => [], fun _ => [], []⟩ run ∧
      ViewRun.twoLosses.settings.maxConsecutiveLosses ≤ losingStreak 0 run.sales ∧
      ¬SameRisk (run.account.portfolio ViewRun.twoLosses none)
        (run.account.portfolio ViewRun.twoLosses (some ())) ∧
      run.StrategyBuys :=
  exists_reachable (ViewRun.mark :: ViewRun.manualLoss 0 ++ ViewRun.manualLoss 2)
    (by decide +kernel) (by decide +kernel)

end Atlas
