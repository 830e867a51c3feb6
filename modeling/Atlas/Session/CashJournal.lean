import Atlas.Paper.Market
import Atlas.Session.SaleJournal

/-!
# The journal and the cash

The journal reports a net profit for each sale.  It estimates the entry fee of a sale from
the entry price of the position, so that a single record does not match the fees of any
purchase.  Over a run that ends flat the estimates and the fees meet: the entry price of a
position is the weighted mean of its purchases, and the fee rate is one.  What is left is the
rounding: of the gross profit and the entry fee of each sale, and of the fee of each purchase.

## Main definitions

* `Grounded` — the trades of the journal are those of recorded fills.
* `Action.IsMarket` — an action that sends no order that could rest.
* `JournalRun.reported` — the net profits of the journal.

## Main results

* `net_profit_error` — the error of one record.
* `JournalRun.step_discrepancy` — the error of one action.
* `journal_reconciles` — **the journal reconciles with the cash**, up to rounding.

## References

`app/analytics/trade_journal.py`, `app/services/paper_session.py`,
`app/execution/paper/engine.py`.
-/

namespace Atlas

open Paper Session Transition Analytics Quantize

/-- Rounding two amounts is a quantum off at most. -/
theorem net_profit_error (gross entryFee : ℚ) :
    |quantize8 gross - quantize8 entryFee - (gross - entryFee)| ≤ quantum8 := by
  have hgross : |quantize8 gross - gross| ≤ quantum8 / 2 := abs_quantize_sub_le quantum8_pos gross
  have hentry : |quantize8 entryFee - entryFee| ≤ quantum8 / 2 :=
    abs_quantize_sub_le quantum8_pos entryFee
  calc |quantize8 gross - quantize8 entryFee - (gross - entryFee)|
      = |quantize8 gross - gross - (quantize8 entryFee - entryFee)| := by ring_nf
    _ ≤ |quantize8 gross - gross| + |quantize8 entryFee - entryFee| := abs_sub _ _
    _ ≤ quantum8 / 2 + quantum8 / 2 := add_le_add hgross hentry
    _ = quantum8 := add_halves quantum8

/-- Without a sale the account carries what it did, up to the rounding of a fee. -/
theorem Paper.Deals.error_unsold {rate : ℚ} {symbol : String} {s s' : PaperState}
    (h : Deals rate symbol s s' []) :
    |carried rate s' - carried rate s| ≤ quantum8 * ((s'.fills.length : ℚ) - s.fills.length) := by
  cases h with
  | nothing hcarried hle =>
    have hgrow : (s.fills.length : ℚ) ≤ s'.fills.length := by exact_mod_cast hle
    rw [hcarried, sub_self, abs_zero]
    exact mul_nonneg quantum8_pos.le (sub_nonneg.mpr hgrow)
  | bought notional hcarried hone =>
    have hone' : (s'.fills.length : ℚ) - s.fills.length = 1 := by
      rw [hone]
      push_cast
      ring
    rw [hone', hcarried, add_sub_cancel_left, mul_one, abs_sub_comm]
    exact (abs_quantize_sub_le quantum8_pos _).trans (half_le_self quantum8_pos.le)

/-- **The record of a sale is what the account carries more**, up to rounding. -/
theorem Paper.Deals.error_sold {rate : ℚ} {symbol : String} {s s' : PaperState} {sale : Sale}
    {p : Position} (h : Deals rate symbol s s' [sale]) (hposition : s.positions.get? symbol = some p)
    (order : Order) {exit : Exit} (hrate : exit.feeRate = rate) (riskScore : ℚ)
    (marketRegime : String) :
    |(buildClosedTradeFromExit p order sale.fill exit riskScore marketRegime).netPnl -
        (carried rate s' - carried rate s)| ≤
      quantum8 * ((s'.fills.length : ℚ) - s.fills.length) := by
  cases h with
  | sold _ p' exact hposition' hfee hcarried hone =>
    have hone' : (s'.fills.length : ℚ) - s.fills.length = 1 := by
      rw [hone]
      push_cast
      ring
    rw [hposition', Option.some.injEq] at hposition
    subst hposition
    rw [buildClosedTradeFromExit_netPnl p' order sale.fill exit riskScore marketRegime hfee, hrate,
      hone', hcarried, mul_one]
    refine le_trans (le_of_eq ?_) (net_profit_error ((sale.fill.price - p'.entryPrice) *
      sale.fill.quantity) (p'.entryPrice * sale.fill.quantity * rate))
    ring_nf

/-- The action sends no order that could rest. -/
def Session.Action.IsMarket : Action → Prop
  | .submit args _ _ => args.orderType = .market
  | _ => True

instance : (action : Action) → Decidable action.IsMarket
  | .submit args _ _ => inferInstanceAs (Decidable (args.orderType = .market))
  | .setMarkPrice .. | .cancel .. | .expire .. => inferInstanceAs (Decidable True)

namespace Session

variable {settings : RiskSettings} {cfg : PaperConfig} {s : Session} {rate : ℚ}

/-- An action moves the ledger by operations of the engine. -/
theorem step_moves (s : Session) (action : Action) :
    Moves cfg (fun _ => True) s.paper (Session.step settings cfg s action).paper := by
  cases action with
  | submit args key around => exact submit_moves (fun _ _ _ => trivial) (fun _ => trivial) s
  | setMarkPrice symbol price now => exact .op s.paper (.setMarkPrice symbol price now) trivial
  | cancel orderId now => exact .op s.paper (.cancel orderId now) trivial
  | expire orderId now => exact .op s.paper (.expire orderId now) trivial

/-- The operations of a market action send no order that could rest. -/
theorem step_moves_market {action : Action} (h : action.IsMarket) (s : Session) :
    Moves cfg Op.IsMarket s.paper (Session.step settings cfg s action).paper := by
  cases action with
  | submit args key around =>
    refine submit_moves (fun _ _ _ => trivial) (fun e => ?_) s
    exact (approvedRequest_same (args.request key) e).2.2.trans h
  | setMarkPrice symbol price now => exact .op s.paper (.setMarkPrice symbol price now) trivial
  | cancel orderId now => exact .op s.paper (.cancel orderId now) trivial
  | expire orderId now => exact .op s.paper (.expire orderId now) trivial

theorem Moves.noneRests {paper paper' : PaperState} (h : Moves cfg Op.IsMarket paper paper')
    (hk : Keyed paper) (hl : LongOnly paper) (hn : NoneRests cfg paper) : NoneRests cfg paper' := by
  have hall : (Keyed paper' ∧ LongOnly paper') ∧ NoneRests cfg paper' :=
    h.invariant (I := fun paper => (Keyed paper ∧ LongOnly paper) ∧ NoneRests cfg paper)
      (fun hop hs => ⟨LongOnly.step _ hs.1.1 hs.1.2, hs.2.step hs.1.1 hop⟩) ⟨⟨hk, hl⟩, hn⟩
  exact hall.2

theorem Moves.longOnly {paper paper' : PaperState} (h : Moves cfg (fun _ => True) paper paper')
    (hk : Keyed paper) (hl : LongOnly paper) : LongOnly paper' := by
  have hboth : Keyed paper' ∧ LongOnly paper' :=
    h.invariant (I := fun paper => Keyed paper ∧ LongOnly paper)
      (fun _ hs => LongOnly.step _ hs.1 hs.2) ⟨hk, hl⟩
  exact hboth.2

/-- While no order rests, the ledger an order is evaluated on differs by a mark at most. -/
structure Remarked (cfg : PaperConfig) (rate : ℚ) (paper paper' : PaperState) : Prop where
  noneRests : NoneRests cfg paper'
  longOnly : LongOnly paper'
  carried : carried rate paper' = carried rate paper
  fills : paper'.fills = paper.fills

theorem riskContext_remarked {symbol : String} {around : Surroundings}
    (hk : Keyed s.paper) (hl : LongOnly s.paper) (hn : NoneRests cfg s.paper) :
    Remarked cfg rate s.paper (riskContext settings cfg s symbol around).2.paper := by
  have hlong : LongOnly (riskContext settings cfg s symbol around).2.paper :=
    (riskContext_moves (fun _ _ _ => trivial) s symbol around).longOnly hk hl
  have hmark : (riskContext settings cfg s symbol around).2.paper = s.paper ∨
      ∃ price, (riskContext settings cfg s symbol around).2.paper = markState s.paper symbol price := by
    simp only [riskContext, portfolioState, raisePeak, mark]
    split
    · exact .inl rfl
    · exact .inr ⟨around.seriesMark, (hn.quiet symbol around.seriesMark).setMarkPrice_eq around.now⟩
  refine ⟨?_, hlong, ?_, ?_⟩
  · rcases hmark with h | ⟨price, h⟩ <;> rw [h] <;> exact hn
  · rcases hmark with h | ⟨price, h⟩ <;> rw [h]
    exact carried_markState symbol price
  · rcases hmark with h | ⟨price, h⟩ <;> rw [h]
    rfl

end Session

namespace JournalRun

variable {settings : RiskSettings} {cfg : PaperConfig} {paperSessionId : String}
  {run run' : JournalRun} {action : Action} {rate : ℚ}

/-- The trades of the journal are those of recorded fills, and every position is positive. -/
structure Grounded (run : JournalRun) : Prop where
  kept : Kept run.session.risk.seenIdempotencyKeys run.session.paper.fills run.session.paper
  backed : ∀ t ∈ run.trades, ∃ f ∈ run.session.paper.fills, t.id = tradeId f.id
  longOnly : LongOnly run.session.paper

theorem Grounded.fresh (settings : RiskSettings) (cfg : PaperConfig) :
    Grounded ⟨Session.fresh settings cfg, [], []⟩ where
  kept := ⟨.fresh ∅, .fresh ∅, fun _ hf => hf, fun _ _ hget => by cases hget⟩
  backed := fun _ ht => (List.not_mem_nil ht).elim
  longOnly := .fresh ∅

theorem mem_persistClosedTrades {journal : List ClosedTrade} {trade t : ClosedTrade}
    (h : t ∈ (persistClosedTrades journal [trade]).1) : t ∈ journal ∨ t = trade := by
  simp only [persistClosedTrades, List.foldl, record] at h
  split_ifs at h
  · exact .inl h
  · exact (List.mem_append.mp h).imp_right List.mem_singleton.mp

/-- The trades an action journals are those of fills it records. -/
theorem journaled_backed (h : run.Grounded) (action : Action) :
    run.journaled settings cfg paperSessionId action = [] ∨
      ∃ trade, run.journaled settings cfg paperSessionId action = [trade] ∧
        ∃ f ∈ (Session.step settings cfg run.session action).paper.fills,
          trade.id = tradeId f.id ∧ ∀ old ∈ run.session.paper.fills, old.id ≠ f.id := by
  cases action with
  | submit args key around =>
    have hsends : Sends cfg (riskContext settings cfg run.session args.symbol around).2.paper
        run.session.paper.fills args (submit settings cfg run.session args key around).2.2.paper _
        (closedTrades settings cfg paperSessionId run.session args key around) :=
      closedTrades_sends h.kept
    simp only [journaled, Session.step]
    generalize closedTrades settings cfg paperSessionId run.session args key around = trades
      at hsends ⊢
    generalize (submit settings cfg run.session args key around).2.2.paper = after at hsends ⊢
    generalize salesAlong cfg _ _ = sold at hsends
    cases hsends with
    | refused => exact .inl rfl
    | unsold => exact .inl rfl
    | sold _ _ _ _ sale p order exit riskScore marketRegime _ _ _ _ _ hknown hnew =>
      exact .inr ⟨_, rfl, sale.fill, hknown, rfl, hnew⟩
  | setMarkPrice symbol price now => exact .inl rfl
  | cancel orderId now => exact .inl rfl
  | expire orderId now => exact .inl rfl

theorem Grounded.step (h : run.Grounded)
    (hstep : run.step settings cfg paperSessionId action = some run') : run'.Grounded := by
  have hkept : Kept (Session.step settings cfg run.session action).risk.seenIdempotencyKeys
      run.session.paper.fills (Session.step settings cfg run.session action).paper :=
    step_kept h.kept action
  have hlong : LongOnly (Session.step settings cfg run.session action).paper :=
    (step_moves run.session action).longOnly h.kept.keyed h.longOnly
  have hjournaled := @journaled_backed settings cfg paperSessionId run h action
  rw [JournalRun.step, Option.some.injEq] at hstep
  subst hstep
  refine ⟨⟨hkept.keyed, hkept.drawn, fun _ hf => hf, hkept.indexed⟩, fun t ht => ?_, hlong⟩
  have hold : t ∈ run.trades →
      ∃ f ∈ (Session.step settings cfg run.session action).paper.fills, t.id = tradeId f.id := by
    intro ht
    obtain ⟨f, hf, hid⟩ := h.backed t ht
    exact ⟨f, hkept.known f hf, hid⟩
  rcases hjournaled with hnone | ⟨trade, hone, f, hf, hid, -⟩
  · rw [hnone] at ht
    exact hold ht
  · rw [hone] at ht
    rcases mem_persistClosedTrades ht with ht | rfl
    · exact hold ht
    · exact ⟨f, hf, hid⟩

/-- A trade of a new fill is added to the journal. -/
theorem Grounded.persist {trade : ClosedTrade} {f : Fill} {keys : List String} {after : PaperState}
    (h : run.Grounded) (hkept : Kept keys run.session.paper.fills after) (hf : f ∈ after.fills)
    (hid : trade.id = tradeId f.id) (hnew : ∀ old ∈ run.session.paper.fills, old.id ≠ f.id) :
    (persistClosedTrades run.trades [trade]).1 = run.trades ++ [trade] := by
  refine persistClosedTrades_new fun t ht heq => ?_
  obtain ⟨old, hold, htrade⟩ := h.backed t ht
  have hsame : tradeId old.id = tradeId f.id := htrade.symm.trans (heq.trans hid)
  exact hnew old hold (hkept.drawn.id_eq (hkept.known old hold) hf hsame)

/-- The net profits of the journal. -/
def reported (run : JournalRun) : ℚ := (run.trades.map ClosedTrade.netPnl).sum

/-- What the journal reports beside what the account carries. -/
def discrepancy (rate : ℚ) (run : JournalRun) : ℚ :=
  run.reported - carried rate run.session.paper

/-- The fills that are recorded in the ledger. -/
def fills (run : JournalRun) : ℕ := run.session.paper.fills.length

/-- The error of an order: half a quantum for a purchase, and one for a sale. -/
theorem submit_discrepancy {args : OrderArgs} {key : String} {around : Surroundings}
    (hg : run.Grounded) (hn : NoneRests cfg run.session.paper) (hmarket : args.orderType = .market)
    (hrate : feeRateFor cfg false = cfg.feeRate)
    (hstep : run.step settings cfg paperSessionId (.submit args key around) = some run') :
    |run'.discrepancy cfg.feeRate - run.discrepancy cfg.feeRate| ≤
      quantum8 * ((run'.fills : ℚ) - run.fills) := by
  have hremarked : Remarked cfg cfg.feeRate run.session.paper
      (riskContext settings cfg run.session args.symbol around).2.paper :=
    riskContext_remarked hg.kept.keyed hg.longOnly hn
  have hsends : Sends cfg (riskContext settings cfg run.session args.symbol around).2.paper
      run.session.paper.fills args (submit settings cfg run.session args key around).2.2.paper _
      (closedTrades settings cfg paperSessionId run.session args key around) :=
    closedTrades_sends hg.kept
  have hkept : Kept _ run.session.paper.fills
      (submit settings cfg run.session args key around).2.2.paper := submit_kept hg.kept
  rw [JournalRun.step, Option.some.injEq] at hstep
  subst hstep
  simp only [discrepancy, reported, fills, journaled, Session.step]
  generalize closedTrades settings cfg paperSessionId run.session args key around = trades
    at hsends ⊢
  generalize (submit settings cfg run.session args key around).2.2.paper = after at hsends hkept ⊢
  generalize (riskContext settings cfg run.session args.symbol around).2.paper = paper
    at hsends hremarked
  generalize salesAlong cfg _ _ = sold at hsends
  rw [← hremarked.carried, ← hremarked.fills]
  cases hsends with
  | refused => simp [persistClosedTrades]
  | unsold request e roll now hside htype hsold =>
    have hdeals : Deals cfg.feeRate request.symbol paper
        (submitAfterLatency cfg paper request e roll now).2 [] :=
      hsold ▸ submitAfterLatency_deals hremarked.longOnly (htype.trans hmarket) hrate
    have herror := hdeals.error_unsold
    rw [abs_sub_comm] at herror
    simpa [persistClosedTrades] using herror
  | sold request e roll now sale p order exit riskScore marketRegime hside htype hsold hposition
      hexit hknown hnew =>
    have hdeals : Deals cfg.feeRate request.symbol paper
        (submitAfterLatency cfg paper request e roll now).2 [sale] :=
      hsold ▸ submitAfterLatency_deals hremarked.longOnly (htype.trans hmarket) hrate
    have herror := hdeals.error_sold hposition order hexit riskScore marketRegime
    rw [hg.persist hkept hknown rfl hnew, List.map_append, List.sum_append, List.map_singleton,
      List.sum_singleton]
    refine le_trans (le_of_eq ?_) herror
    ring_nf

/-- **The error of an action**: a quantum for each fill. -/
theorem step_discrepancy (hg : run.Grounded) (hn : NoneRests cfg run.session.paper)
    (hmarket : action.IsMarket) (hrate : feeRateFor cfg false = cfg.feeRate)
    (hstep : run.step settings cfg paperSessionId action = some run') :
    |run'.discrepancy cfg.feeRate - run.discrepancy cfg.feeRate| ≤
      quantum8 * ((run'.fills : ℚ) - run.fills) := by
  cases action with
  | submit args key around => exact submit_discrepancy hg hn hmarket hrate hstep
  | setMarkPrice symbol price now =>
    rw [JournalRun.step, Option.some.injEq] at hstep
    subst hstep
    simp only [discrepancy, reported, fills, journaled, Session.step,
      (hn.quiet symbol price).setMarkPrice_eq now, carried_markState]
    simp [persistClosedTrades, markState]
  | cancel orderId now =>
    have hclosing : Closing run.session.paper (cancel run.session.paper orderId now).2 :=
      cancel_closing orderId hg.kept.keyed
    rw [JournalRun.step, Option.some.injEq] at hstep
    subst hstep
    simp only [discrepancy, reported, fills, journaled, Session.step, hclosing.carried,
      hclosing.fills]
    simp [persistClosedTrades]
  | expire orderId now =>
    have hclosing : Closing run.session.paper (expire run.session.paper orderId now).2 :=
      expire_closing orderId hg.kept.keyed
    rw [JournalRun.step, Option.some.injEq] at hstep
    subst hstep
    simp only [discrepancy, reported, fills, journaled, Session.step, hclosing.carried,
      hclosing.fills]
    simp [persistClosedTrades]

/-- What a run of market orders keeps, from its start on. -/
structure Reconciling (cfg : PaperConfig) (start run : JournalRun) : Prop where
  grounded : run.Grounded
  noneRests : NoneRests cfg run.session.paper
  trades : start.trades <+: run.trades
  error : |run.discrepancy cfg.feeRate - start.discrepancy cfg.feeRate| ≤
    quantum8 * ((run.fills : ℚ) - start.fills)

theorem Reconciling.step {start : JournalRun} (h : Reconciling cfg start run)
    (hmarket : action.IsMarket) (hrate : feeRateFor cfg false = cfg.feeRate)
    (hstep : run.step settings cfg paperSessionId action = some run') :
    Reconciling cfg start run' := by
  have herror := step_discrepancy h.grounded h.noneRests hmarket hrate hstep
  have hnone : NoneRests cfg (Session.step settings cfg run.session action).paper :=
    (step_moves_market hmarket run.session).noneRests h.grounded.kept.keyed h.grounded.longOnly
      h.noneRests
  refine ⟨h.grounded.step hstep, ?_, ?_, ?_⟩
  · rw [JournalRun.step, Option.some.injEq] at hstep
    exact hstep ▸ hnone
  · rw [JournalRun.step, Option.some.injEq] at hstep
    rw [← hstep]
    exact h.trades.trans (persistClosedTrades_extends ..)
  · calc |run'.discrepancy cfg.feeRate - start.discrepancy cfg.feeRate|
        ≤ |run'.discrepancy cfg.feeRate - run.discrepancy cfg.feeRate| +
            |run.discrepancy cfg.feeRate - start.discrepancy cfg.feeRate| := abs_sub_le ..
      _ ≤ quantum8 * ((run'.fills : ℚ) - run.fills) +
            quantum8 * ((run.fills : ℚ) - start.fills) := add_le_add herror h.error
      _ = quantum8 * ((run'.fills : ℚ) - start.fills) := by ring

end JournalRun

/-- Nothing is held and nothing is reserved. -/
structure PaperState.IsFlat (s : PaperState) : Prop where
  positions : ∀ p ∈ s.positions.values, p.quantity = 0
  reservedCash : s.reservedCash = 0

/-- A flat account carries its cash. -/
theorem PaperState.IsFlat.carried {s : PaperState} (h : s.IsFlat) (rate : ℚ) :
    carried rate s = s.cash := by
  have hcost : costBasis s = 0 := by
    refine (Dict.sum_congr_values (g := fun _ => 0) fun p hp => ?_).trans ?_
    · rw [Position.cost, h.positions p hp, mul_zero]
    · simp [Dict.sum]
  rw [Paper.carried, hcost, h.reservedCash]
  ring

/-- **The journal reconciles with the cash**: over a run of market orders and marks, from one
flat account in which no order rests to another, the net profits it journals differ from the
change of the cash by at most a quantum for each fill. -/
theorem journal_reconciles {settings : RiskSettings} {cfg : PaperConfig} {paperSessionId : String}
    {start run : JournalRun} (hrate : feeRateFor cfg false = cfg.feeRate)
    (hstart : Reachable (JournalRun.step settings cfg paperSessionId) (fun _ _ => True)
      ⟨Session.fresh settings cfg, [], []⟩ start)
    (hnone : NoneRests cfg start.session.paper) (hflat : start.session.paper.IsFlat)
    (hrun : Reachable (JournalRun.step settings cfg paperSessionId)
      (fun _ action => action.IsMarket) start run)
    (hflat' : run.session.paper.IsFlat) :
    ∃ trades, run.trades = start.trades ++ trades ∧
      |(trades.map ClosedTrade.netPnl).sum -
          (run.session.paper.cash - start.session.paper.cash)| ≤
        1 / 100000000 *
          ((run.session.paper.fills.length : ℚ) - start.session.paper.fills.length) := by
  have hgrounded : start.Grounded :=
    hstart.invariant (.fresh settings cfg) fun _ _ _ h _ hstep => h.step hstep
  have hbegin : JournalRun.Reconciling cfg start start :=
    ⟨hgrounded, hnone, List.prefix_rfl, by simp⟩
  have hend : JournalRun.Reconciling cfg start run :=
    hrun.invariant hbegin fun _ _ _ h hmarket hstep => h.step hmarket hrate hstep
  obtain ⟨trades, htrades⟩ := hend.trades
  refine ⟨trades, htrades.symm, ?_⟩
  have herror := hend.error
  simp only [JournalRun.discrepancy, JournalRun.reported, hflat.carried, hflat'.carried,
    ← htrades, List.map_append, List.sum_append] at herror
  refine le_trans (le_of_eq ?_) herror
  ring_nf

instance (s : PaperState) : Decidable s.IsFlat :=
  decidable_of_iff ((∀ p ∈ s.positions.values, p.quantity = 0) ∧ s.reservedCash = 0)
    ⟨fun h => ⟨h.1, h.2⟩, fun h => ⟨h.positions, h.reservedCash⟩⟩

/-- A second purchase, at another mark. -/
def secondBuy : Action :=
  .submit
    { symbol := "BTC/USDT", side := .buy, orderType := .market, quantity := 1333333 / 100000000,
      stopLoss := some 49950 }
    "c" { now := 2, seriesMark := 50000 }

/-- A purchase, a sale, a purchase at another mark and a sale. -/
theorem journal_reconciles_two_round_trips :
    ∃ run : JournalRun, run.trades.length = 2 ∧ run.session.paper.fills.length = 4 ∧
      |(run.trades.map ClosedTrade.netPnl).sum - (run.session.paper.cash - 10000)| ≤
        1 / 100000000 * 4 := by
  obtain ⟨run, hrun, htrades, hfills, hflat⟩ : ∃ run,
      Reachable (JournalRun.step {} {} "session") (fun _ action => action.IsMarket)
          ⟨Session.fresh {} {}, [], []⟩ run ∧
        run.trades.length = 2 ∧ run.session.paper.fills.length = 4 ∧ run.session.paper.IsFlat :=
    exists_reachable
      [marketBuy, marketSale, .setMarkPrice "BTC/USDT" (50123 + 1 / 7) 2, secondBuy,
        .submit (Runtime.closeArgs "BTC/USDT" (1333333 / 100000000) 50123) "d"
          { now := 3, seriesMark := 50000 }]
      (by decide +kernel) (by decide +kernel)
  obtain ⟨trades, happended, herror⟩ := journal_reconciles (by decide +kernel) .init
    (NoneRests.fresh ∅) (by decide +kernel) hrun hflat
  rw [hfills] at herror
  refine ⟨run, htrades, hfills, ?_⟩
  rw [happended]
  simpa [Session.fresh, Paper.fresh] using herror

end Atlas
