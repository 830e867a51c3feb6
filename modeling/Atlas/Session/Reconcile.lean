import Atlas.Paper.Ledger

/-!
# Reconciliation

`run_paper_reconciliation` compares the ledger with the fills it has.  Cash, positions
and filled quantities have to be valid.  The cash has to be what the fills leave of the
starting balance, but only if there are fills and if they explain every open position:
a history that does not is incomplete, and does not count against the ledger.

The list of mismatches is left out; trading is halted when the verdict is unhealthy.

## Main definitions

* `CashOk`, `PositionsOk`, `FillsOk`, `DriftOk` — the checks.
* `LedgerComplete` — the fills explain the open positions.
* `Healthy` — the verdict.

## References

`app/services/reconciliation.py`.
-/

namespace Atlas

namespace Reconciliation

/-- Available and reserved cash are not negative. -/
def CashOk (s : PaperState) : Prop := 0 ≤ s.cash ∧ 0 ≤ s.reservedCash

/-- The quantities and the prices of the positions are valid. -/
def PositionsOk (s : PaperState) : Prop :=
  ∀ p ∈ s.positions.values, 0 ≤ p.quantity ∧ 0 < p.entryPrice ∧ 0 ≤ p.currentPrice

/-- No order is filled beyond its quantity. -/
def FillsOk (s : PaperState) : Prop :=
  ∀ o ∈ s.orders.values, ((fillsOf s.fills o.id).map Fill.quantity).sum ≤ o.quantity

/-- The fills explain the open positions: they leave the quantity of each, and nothing
of a symbol without one. -/
def LedgerComplete (s : PaperState) : Prop :=
  (∀ e ∈ s.positions.entries, |netQuantity s.fills e.1 - e.2.quantity| ≤ quantum8) ∧
    ∀ f ∈ s.fills, 0 < netQuantity s.fills f.symbol → s.positions.get? f.symbol ≠ none

instance (s : PaperState) : Decidable (LedgerComplete s) := inferInstanceAs (Decidable (_ ∧ _))

/-- The cash the fills leave of the starting balance. -/
def reconstructed (startingBalance : ℚ) (s : PaperState) : ℚ :=
  startingBalance + (s.fills.map Fill.signedCash).sum

/-- The cash is what the fills leave, up to 0.05; this is not checked without fills or
with an incomplete history. -/
def DriftOk (startingBalance : ℚ) (s : PaperState) : Prop :=
  s.fills = [] ∨ ¬LedgerComplete s ∨
    |reconstructed startingBalance s - (s.cash + s.reservedCash)| ≤ 5 / 100

/-- The verdict; without `enable_reconciliation` there is none to fail. -/
def Healthy (enabled : Bool) (startingBalance : ℚ) (s : PaperState) : Prop :=
  enabled = true → CashOk s ∧ PositionsOk s ∧ FillsOk s ∧ DriftOk startingBalance s

instance (s : PaperState) : Decidable (CashOk s) := inferInstanceAs (Decidable (_ ∧ _))
instance (s : PaperState) : Decidable (PositionsOk s) := inferInstanceAs (Decidable (∀ _ ∈ _, _))
instance (s : PaperState) : Decidable (FillsOk s) := inferInstanceAs (Decidable (∀ _ ∈ _, _))

instance (startingBalance : ℚ) (s : PaperState) : Decidable (DriftOk startingBalance s) :=
  inferInstanceAs (Decidable (_ ∨ _ ∨ _))

instance (enabled : Bool) (startingBalance : ℚ) (s : PaperState) :
    Decidable (Healthy enabled startingBalance s) := inferInstanceAs (Decidable (_ → _))

end Reconciliation

end Atlas
