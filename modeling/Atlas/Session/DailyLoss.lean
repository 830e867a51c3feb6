import Atlas.Session.Account

/-!
# The limit on the loss of the day

The risk engine limits the loss of a day, and is told the profit of the day by the path
of the order.  No path keeps the equity a day began with: the session measures from the
equity it was created with or hydrated, an orchestrator from the initial cash, and
neither is moved when a UTC day begins.  An evaluation answers for the day exactly when
this makes no difference, which is when equity and limit together do not come between
the two.

## Main definitions

* `DailyRun` — a run of an account, with the equity each day was first observed with.
* `lostToday` — the loss since that observation.
* `Separates` — the limit tells the two equities apart.

## Main results

* `loss_limit_iff` — when two baselines give the same answer.
* `DailyRun.Based.step` — no step moves a baseline.
* `daily_loss_limit_iff` — **the limit is daily exactly when it does not separate the
  baseline from the equity of the day**, on both kinds of path.
* `yesterdays_loss_rejects` — a loss of the day before rejects an order.

## References

`app/services/paper_session.py`, `app/services/trading_orchestrator.py`,
`app/risk/engine.py`.
-/

namespace Atlas

open Session Transition Risk

/-! ### Days -/

/-- The UTC day of a time. -/
def utcDay (now : Time) : ℤ := now / seconds 86400

/-- When the equity is read in an action. -/
def AccountAction.time {ι : Type*} : AccountAction ι → Option Time
  | .session (.submit _ _ around) => some around.now
  | .portfolio now => some now
  | .processCandle _ feed => some feed.around.now
  | .snapshot _ now => some now
  | _ => none

/-- An account, and the equity that each day was first observed with. -/
structure DailyRun (ι : Type*) where
  account : Account ι
  dayStart : Dict ℤ ℚ := ∅

namespace DailyRun

variable {ι : Type*} [DecidableEq ι] (d : Deployment) (run : DailyRun ι)

/-- The equity the day of `now` was first observed with, if not now. -/
def startOf (now : Time) (equity : ℚ) : ℚ := (run.dayStart.get? (utcDay now)).getD equity

/-- The equity lost since the first observation of the day. -/
def lostToday (now : Time) (equity : ℚ) : ℚ := max (run.startOf now equity - equity) 0

/-- The observations after an equity is read. -/
def observe (now : Option Time) (equity : Option ℚ) : Dict ℤ ℚ :=
  match now, equity with
  | some now, some equity => run.dayStart.set (utcDay now) (run.startOf now equity)
  | _, _ => run.dayStart

/-- The account after an action; every action is enabled. -/
def step (run : DailyRun ι) (action : AccountAction ι) : Option (DailyRun ι) :=
  some
    { account := run.account.step d action
      dayStart := run.observe action.time (run.account.readsOf d action).head? }

end DailyRun

/-! ### Two baselines -/

/-- Equity and limit together come above the lower baseline, but not above the other: a
loss from one of them reaches the limit, and a loss from the other does not. -/
def Separates (limit equity baseline start : ℚ) : Prop :=
  0 < limit ∧ min baseline start < equity + limit ∧ equity + limit ≤ max baseline start

instance (limit equity baseline start : ℚ) : Decidable (Separates limit equity baseline start) :=
  inferInstanceAs (Decidable (_ ∧ _ ∧ _))

/-- **When two baselines give the same answer.** -/
theorem loss_limit_iff (limit equity baseline start : ℚ) :
    (limit ≤ max (baseline - equity) 0 ↔ limit ≤ max (start - equity) 0) ↔
      ¬Separates limit equity baseline start := by
  by_cases hpos : 0 < limit
  · have hreached : ∀ b : ℚ, limit ≤ max (b - equity) 0 ↔ equity + limit ≤ b := by
      intro b
      rw [le_max_iff, or_iff_left (not_le.mpr hpos), le_sub_iff_add_le']
    rw [hreached, hreached, Separates, min_lt_iff, le_max_iff]
    constructor
    · rintro hiff ⟨-, hlow | hlow, hhigh⟩
      · exact hlow.not_ge (hhigh.elim id hiff.mpr)
      · exact hlow.not_ge (hhigh.elim hiff.mp id)
    · intro hnot
      constructor
      · intro hb
        by_contra hs
        exact hnot ⟨hpos, .inr (not_le.mp hs), .inl hb⟩
      · intro hs
        by_contra hb
        exact hnot ⟨hpos, .inl (not_le.mp hb), .inr hs⟩
  · have hzero : ∀ b : ℚ, limit ≤ max (b - equity) 0 := fun b =>
      (not_lt.mp hpos).trans (le_max_right ..)
    exact ⟨fun _ hsep => hpos hsep.1, fun _ => ⟨fun _ => hzero _, fun _ => hzero _⟩⟩

/-! ### Baselines that stay -/

variable {ι : Type*} [DecidableEq ι] {d : Deployment}

/-- The session measures from `baseline`, and no highest equity is lost. -/
structure DailyRun.Based (baseline : ℚ) (run : DailyRun ι) : Prop where
  session : run.account.session.dailyStartEquity = baseline
  peak_pos : ∀ p, 0 < run.account.peak p

/-- **No step moves a baseline**, whatever day it is. -/
theorem DailyRun.Based.step {baseline : ℚ} {run run' : DailyRun ι} {action : AccountAction ι}
    (h : run.Based baseline) (hstep : run.step d action = some run') : run'.Based baseline := by
  rw [← Option.some.inj hstep]
  refine ⟨(Account.step_dailyStartEquity action).trans h.session, fun p => ?_⟩
  rw [(Account.step_seen action p).1]
  exact (h.peak_pos p).trans_le (le_highest _ _)

/-- **The limit on the loss of the day is daily exactly when it does not separate the
baseline from the equity of the day**, in every state that a run reaches from an account
whose highest equities are positive.  The baseline is the one the session began the run
with, and for an orchestrator the initial cash. -/
theorem daily_loss_limit_iff {account : Account ι} {dayStart : Dict ℤ ℚ} {run : DailyRun ι}
    (hpeak : ∀ p, 0 < account.peak p)
    (h : Reachable (DailyRun.step d) (fun _ _ => True) ⟨account, dayStart⟩ run) :
    (∀ (args : OrderArgs) (key : String) (around : Surroundings) (price : ℚ),
      let s := run.account.session
      let context := riskContext d.settings d.paper s args.symbol around
      let limit := d.settings.maxDailyLoss * max s.peakEquity s.paper.equity
      PassesUntil 2 d.settings context.2.risk (args.request key) context.1 around.now price →
        (((submit d.settings d.paper s args key around).1.RejectedWith .dailyLossLimitReached ↔
            limit ≤ run.lostToday around.now s.paper.equity) ↔
          ¬Separates limit s.paper.equity account.session.dailyStartEquity
            (run.startOf around.now s.paper.equity))) ∧
      ∀ (i : ι) (feed : CandleFeed) (decision : StrategyDecision) (request : OrderRequest)
        (price : ℚ),
        let t := ((run.account.trader i).received.taken d feed).counted decision
        let limit := d.settings.maxDailyLoss * max t.state.peakEquity t.session.paper.equity
        PassesUntil 2 d.settings t.session.risk request
            (Runtime.cycleContext d t.session.paper (t.cycleInput feed decision))
            feed.around.now price →
          (((∃ o, (t.send d feed decision request).1 = some o ∧
                o.RejectedWith .dailyLossLimitReached) ↔
              limit ≤ run.lostToday feed.around.now t.session.paper.equity) ↔
            ¬Separates limit t.session.paper.equity d.paper.initialCash
              (run.startOf feed.around.now t.session.paper.equity)) := by
  have hbased : run.Based account.session.dailyStartEquity :=
    h.invariant (I := DailyRun.Based account.session.dailyStartEquity) ⟨rfl, hpeak⟩
      fun _ _ _ hs _ hstep => hs.step hstep
  constructor
  · intro args key around price s context limit hpass
    have hpos : 0 < context.1.portfolio.peakEquity :=
      (hbased.peak_pos none).trans_le (le_max_left ..)
    rw [submit_evaluation, dailyLoss_iff hpass hpos]
    show (limit ≤ max (-(s.paper.equity - s.dailyStartEquity)) 0 ↔ _) ↔ _
    rw [neg_sub, show s.dailyStartEquity = _ from hbased.session]
    exact loss_limit_iff ..
  · intro i feed decision request price t limit hpass
    have hkept : t.state.peakEquity = _ := congrArg Prod.fst
      (@TradingOrchestrator.taken_kept d (run.account.trader i).received feed)
    have hpos : 0 < max t.state.peakEquity t.session.paper.equity := by
      rw [hkept]
      exact ((hbased.peak_pos (some i)).trans_le (le_max_left ..)).trans_le (le_max_left ..)
    rw [TradingOrchestrator.send_rejectedWith, dailyLoss_iff hpass hpos]
    show (limit ≤ max (-(t.session.paper.equity - d.paper.initialCash)) 0 ↔ _) ↔ _
    rw [neg_sub]
    exact loss_limit_iff ..

/-! ### Two days -/

namespace DailyRun

/-- A new account with one orchestrator. -/
def newAccount : Account Unit where
  session := Session.fresh {} FeedRun.defaultDeployment.paper
  traders := fun _ =>
    .fresh FeedRun.defaultDeployment "session" false none (1 / 10)
      (Session.fresh {} FeedRun.defaultDeployment.paper)

/-- A purchase at the market, with a stop. -/
def purchase (quantity stop : ℚ) : OrderArgs where
  symbol := "BTC/USDT"
  side := .buy
  orderType := .market
  quantity := quantity
  stopLoss := some stop

/-- The start of a day. -/
def onDay (day : ℤ) : Surroundings := { now := seconds (86400 * day), seriesMark := 100 }

/-- Twenty are bought at 100, and the mark falls to 80, all on one day. -/
def lossOfFirstDay : List (AccountAction Unit) :=
  [.session (.setMarkPrice "BTC/USDT" 100 0),
    .session (.submit (purchase 20 99) "first" (onDay 0)),
    .session (.setMarkPrice "BTC/USDT" 80 0)]

/-- What the risk engine is shown of an order of that account on a day. -/
def shown (run : DailyRun Unit) (day : ℤ) : RiskContext × Session :=
  riskContext FeedRun.defaultDeployment.settings FeedRun.defaultDeployment.paper
    run.account.session "BTC/USDT" (onDay day)

/-- The order comes as far as the limit on the loss of the day. -/
def Reaches (run : DailyRun Unit) (day : ℤ) : Prop :=
  PassesUntil 2 FeedRun.defaultDeployment.settings (run.shown day).2.risk
    ((purchase 1 79).request "second") (run.shown day).1 (onDay day).now 80

instance (run : DailyRun Unit) (day : ℤ) : Decidable (run.Reaches day) :=
  inferInstanceAs (Decidable (PassesUntil ..))

/-- The answer to the order. -/
def answer (run : DailyRun Unit) (day : ℤ) : RiskEvaluation :=
  (submit FeedRun.defaultDeployment.settings FeedRun.defaultDeployment.paper run.account.session
    (purchase 1 79) "second" (onDay day)).1

/-- The loss at which the limit is reached. -/
def limitAt (run : DailyRun Unit) : ℚ :=
  FeedRun.defaultDeployment.settings.maxDailyLoss *
    max run.account.session.peakEquity run.account.session.paper.equity

end DailyRun

/-- **On the first day the limit is daily**: the loss of that day rejects the order. -/
theorem daily_loss_limit_iff_first_day :
    ∃ run, Reachable (DailyRun.step FeedRun.defaultDeployment) (fun _ _ => True)
        ⟨DailyRun.newAccount, ∅⟩ run ∧
      ((run.answer 0).RejectedWith .dailyLossLimitReached ↔
        run.limitAt ≤ run.lostToday (DailyRun.onDay 0).now run.account.session.paper.equity) ∧
      run.limitAt ≤ run.lostToday (DailyRun.onDay 0).now run.account.session.paper.equity := by
  obtain ⟨run, hreach, hreaches, hnot, hlost⟩ :
      ∃ run, Reachable (DailyRun.step FeedRun.defaultDeployment) (fun _ _ => True)
          ⟨DailyRun.newAccount, ∅⟩ run ∧ run.Reaches 0 ∧
        ¬Separates run.limitAt run.account.session.paper.equity
          DailyRun.newAccount.session.dailyStartEquity
          (run.startOf (DailyRun.onDay 0).now run.account.session.paper.equity) ∧
        run.limitAt ≤ run.lostToday (DailyRun.onDay 0).now run.account.session.paper.equity :=
    exists_reachable DailyRun.lossOfFirstDay (by decide +kernel) (by decide +kernel)
  have hpeak : ∀ p, 0 < DailyRun.newAccount.peak p := by
    intro p
    cases p with
    | none => decide +kernel
    | some i => exact show 0 < DailyRun.newAccount.peak (some ()) by decide +kernel
  have hdaily :=
    ((daily_loss_limit_iff hpeak hreach).1 (DailyRun.purchase 1 79) "second" (DailyRun.onDay 0)
      80 hreaches).mpr hnot
  exact ⟨run, hreach, hdaily, hlost⟩

/-- **On the next day it is not**: nothing is lost since the day was first observed, and
the order is rejected for the loss of the day before. -/
theorem yesterdays_loss_rejects :
    ∃ run, Reachable (DailyRun.step FeedRun.defaultDeployment) (fun _ _ => True)
        ⟨DailyRun.newAccount, ∅⟩ run ∧
      run.Reaches 1 ∧ (run.answer 1).RejectedWith .dailyLossLimitReached ∧
      run.lostToday (DailyRun.onDay 1).now run.account.session.paper.equity = 0 ∧
      0 < run.limitAt :=
  exists_reachable DailyRun.lossOfFirstDay (by decide +kernel) (by decide +kernel)

end Atlas
