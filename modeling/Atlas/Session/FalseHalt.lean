import Atlas.Session.Trace

/-!
# Halts of a ledger nobody has touched

The accounting check after a cycle and the reconciliation derive the ledger again, each
in its own way, and halt trading where it differs.  Neither should find anything in a
ledger that the session has made itself, by orders, closings, cancellations, marks and
cycles.

They agree as long as every fill of the run is clean.  The engine records a fill before
it knows that it can be delivered: a sale it refuses for want of a position is sold for
good in the eyes of the reconciliation, which counts its proceeds and misses them.

## Main definitions

* `CarefulStep` — every fill an action attempts is clean, and every mark valid.

## Main results

* `Checked.healthy` — a checked ledger is healthy.
* `no_false_halt` — **a run whose fills are clean reaches only ledgers that pass both
  checks**.
* `refused_sale_halts` — two resting sales of one position halt trading.

## References

`app/services/reconciliation.py`, `app/accounting/invariants.py`,
`app/execution/paper/engine.py`.
-/

namespace Atlas

open Paper Session Transition

/-! ### The reconciliation -/

/-- What the fills leave of some symbol is not held: the history is incomplete. -/
theorem Paper.Overstated.incomplete {s : PaperState} (h : Overstated s) :
    ¬Reconciliation.LedgerComplete s := by
  obtain ⟨symbol, hover⟩ := h
  rintro ⟨hpositions, hfills⟩
  cases hget : s.positions.get? symbol with
  | some p =>
    have hle : |netQuantity s.fills symbol - p.quantity| ≤ quantum8 :=
      hpositions (symbol, p) (Dict.mem_entries_iff.mpr hget)
    have hheld : held s symbol = p.quantity := by rw [held, hget, Option.elim]
    have habs := le_abs_self (netQuantity s.fills symbol - p.quantity)
    linarith
  | none =>
    have hheld : held s symbol = 0 := by rw [held, hget, Option.elim]
    have hnet : 0 < netQuantity s.fills symbol := by
      have hpos := quantum8_pos
      linarith
    -- without a fill of the symbol nothing would be net of it
    have hsome : ∃ f ∈ s.fills, f.symbol = symbol := by
      by_contra hnone
      have hnil : s.fills.filter (·.symbol = symbol) = [] :=
        List.filter_eq_nil_iff.mpr fun f hf => by
          simpa using fun he => hnone ⟨f, hf, he⟩
      rw [netQuantity, hnil] at hnet
      exact absurd hnet (lt_irrefl 0)
    obtain ⟨f, hf, rfl⟩ := hsome
    exact hfills f hf hnet hget

/-- **A checked ledger is healthy.** -/
theorem Paper.Checked.healthy {C : ℚ} {s : PaperState} (h : Checked C s) (enabled : Bool) :
    Reconciliation.Healthy enabled C s := by
  refine fun _ => ⟨⟨h.solvent.cash, h.solvent.reserved⟩, fun p hp => ?_, fun o ho => ?_, ?_⟩
  · obtain ⟨name, hget⟩ := Dict.mem_values_iff.mp hp
    obtain ⟨hentry, hmark⟩ := h.priced name p hget
    exact ⟨(h.longOnly name p hget).le, hentry, hmark⟩
  · obtain ⟨id, hget⟩ := Dict.mem_values_iff.mp ho
    exact (h.fillsWithin id o hget).within
  · rcases h.explained with hexact | hover
    · refine .inr (.inr ?_)
      rw [Reconciliation.reconstructed, hexact.cash, sub_self, abs_zero]
      norm_num
    · exact .inr (.inl hover.incomplete)

/-! ### Runs -/

namespace Runtime

variable {d : Deployment} {r : Runtime}

/-- Every fill an action attempts is clean, and none of its marks is negative. -/
def CarefulStep (d : Deployment) (r : Runtime) (action : DeskAction) : Prop :=
  Along (engineStep d.paper) ((careful d.paper).Meets d.paper) r.session.paper (deskOps d r action)

instance (action : DeskAction) : Decidable (CarefulStep d r action) :=
  inferInstanceAs (Decidable (Along _ _ _ _))

/-- An action whose fills are clean keeps the ledger checked. -/
theorem deskStep_checked {r' : Runtime} {action : DeskAction} {C : ℚ}
    (hfrac : d.paper.partialFillFraction ≤ 1) (hok : CarefulStep d r action)
    (h : deskStep d r action = some r') (hs : Checked C r.session.paper) :
    Checked C r'.session.paper := (deskStep_traced h).checked hfrac hok hs

/-- A purchase at the market, with a stop just below the mark. -/
def buyOrder : DeskAction :=
  .runtime (.placeOrder
    { symbol := "BTC/USDT", side := .buy, orderType := .market, quantity := 1 / 50,
      stopLoss := some 49950 }
    "a" { now := 0, seriesMark := 50000 })

/-- A sale of what it bought, at a limit above the mark. -/
def sellOrder (key : String) : DeskAction :=
  .runtime (.placeOrder
    { symbol := "BTC/USDT", side := .sell, orderType := .limit, quantity := 1 / 50,
      price := some 51000, stopLoss := some 50949, reduceOnly := true }
    key { now := 0, seriesMark := 50000 })

/-- The mark rises to the limit. -/
def limitReached : DeskAction := .session (.setMarkPrice "BTC/USDT" 51000 1)

/-- **No false halt.**  In a run from the starting balance whose fills are all clean, every
ledger passes the accounting check and the reconciliation. -/
theorem no_false_halt (hbalance : 0 ≤ d.paper.initialCash)
    (hfrac : d.paper.partialFillFraction ≤ 1)
    (h : Reachable (deskStep d) (CarefulStep d) (initial d) r) :
    (Accounting.checkCycleInvariants r.session.paper).ok = true ∧ Healthy d r.session.paper := by
  have hchecked : Checked d.paper.initialCash r.session.paper :=
    h.invariant (I := fun r => Checked d.paper.initialCash r.session.paper)
      (Checked.fresh hbalance ∅) fun _ _ _ hs hok hstep => deskStep_checked hfrac hok hstep hs
  exact ⟨hchecked.ok, hchecked.healthy _⟩

/-- A purchase, and its sale when the mark reaches the limit. -/
theorem no_false_halt_bought_and_sold :
    let d := exactDeployment
    ∃ r, Reachable (deskStep d) (CarefulStep d) (initial d) r ∧ r.session.paper.fills.length = 2 ∧
      (Accounting.checkCycleInvariants r.session.paper).ok = true ∧ Healthy d r.session.paper := by
  intro d
  obtain ⟨r, hr, hfills⟩ : ∃ r, Reachable (deskStep d) (CarefulStep d) (initial d) r ∧
      r.session.paper.fills.length = 2 :=
    exists_reachable [buyOrder, sellOrder "b", limitReached] (by decide +kernel)
      (by decide +kernel)
  exact ⟨r, hr, hfills, no_false_halt (by decide +kernel) (by decide +kernel) hr⟩

/-- **A refused sale halts trading.**  Two resting sales of one position are triggered by
one mark: the second is refused, but its fill is recorded, and the reconciliation misses
the proceeds. -/
theorem refused_sale_halts :
    let d := exactDeployment
    ∃ r, Reachable (deskStep d) (fun _ _ => True) (initial d) r ∧
      ¬((Accounting.checkCycleInvariants r.session.paper).ok = true ∧
        Healthy d r.session.paper) := by
  intro d
  exact exists_reachable [buyOrder, sellOrder "b", sellOrder "c", limitReached]
    (by decide +kernel) (by decide +kernel)

end Runtime

end Atlas
