import Atlas.Paper.Booking

/-!
# Solvent and long-only

The engine never lends: a purchase is refused when the available cash does not pay for
it, a reservation is made only from available cash, and a sale is refused when the
position does not hold it.  So a position is never short, and the cash is never negative,
but for one thing: the fee of a sale is rounded to the quantum, and a fee rate above one
half can round it above the proceeds.  Where every sale repays its fee the ledger stays
solvent.

## Main definitions

* `LongOnly s` — every stored position is positive.
* `Attempt.Repaid` — a sale pays its fee from its proceeds and the available cash.

## Main results

* `Booking.longOnly` — positions stay positive.
* `solvent_and_long_only` — **a run whose sales repay their fees is solvent and
  long-only**.
* `sale_fee_exceeds_cash` — a sale whose fee is rounded above its proceeds.

## References

`app/execution/paper/engine.py`, `app/accounting/invariants.py`.
-/

namespace Atlas

namespace Paper

variable {cfg : PaperConfig} {T : Terms} {s s' : PaperState}

/-! ### Positions -/

/-- Every stored position is positive. -/
def LongOnly (s : PaperState) : Prop := ∀ name p, s.positions.get? name = some p → 0 < p.quantity

/-- A mark moves no quantity, a bought fill adds to a position, and a sold one leaves
something of it. -/
theorem PositionChange.pos {name : String} {p : Position} (h : PositionChange s name p)
    (hl : LongOnly s) : 0 < p.quantity := by
  cases h with
  | kept hp => exact hl name p hp
  | marked _ hp =>
    have hold : 0 < Position.quantity _ := hl name _ hp
    exact hold
  | bought order qty price now _ hq =>
    rw [boughtPosition_quantity]
    cases hp : s.positions.get? order.symbol with
    | none => simpa using hq
    | some q => exact add_pos (hl _ q hp) hq
  | sold order qty price fee _ hp hq => exact sub_pos.mpr hq

/-- **A booking keeps every position positive.** -/
theorem Booking.longOnly (h : Booking cfg T s s') (hl : LongOnly s) : LongOnly s' :=
  fun _ _ hget => (h.position_change hget).pos hl

theorem LongOnly.fresh (marks : Dict String ℚ) : LongOnly (Paper.fresh cfg marks) :=
  fun _ _ h => by cases h

/-! ### Cash -/

/-- A sale that is delivered pays its fee from its proceeds and the available cash. -/
def Attempt.Repaid (cfg : PaperConfig) (a : Attempt) : Prop :=
  0 < a.fillQty → a.order.side = .sell → a.Covered cfg →
    a.fee cfg ≤ a.state.cash + a.price * a.fillQty

instance (a : Attempt) : Decidable (a.Repaid cfg) := by
  unfold Attempt.Repaid
  infer_instance

/-- The terms of a run whose sales repay their fees. -/
def salesRepaid (cfg : PaperConfig) : Terms where
  attempt := Attempt.Repaid cfg

instance (s : PaperState) (request : OrderRequest) : Decidable ((salesRepaid cfg).request s request) :=
  inferInstanceAs (Decidable True)

instance (s : PaperState) (symbol : String) (price : ℚ) :
    Decidable ((salesRepaid cfg).mark s symbol price) := inferInstanceAs (Decidable True)

instance : DecidablePred (salesRepaid cfg).attempt :=
  inferInstanceAs (DecidablePred (Attempt.Repaid cfg))

/-- **One booking keeps the ledger solvent**, if its sales repay their fees. -/
theorem Booking.solvent (h : Booking cfg (salesRepaid cfg) s s') (hs : Solvent s) : Solvent s' := by
  cases h with
  | create _ _ _ _ _ => exact ⟨hs.cash, hs.reserved⟩
  | mark _ _ _ _ => exact ⟨hs.cash, hs.reserved⟩
  | idle _ _ _ _ _ hidle => exact hidle.books.solvent hs
  | attempt a hp hok =>
    have hbooked : a.Booked cfg (a.apply cfg) := Attempt.apply_booked hp.live_ne
    generalize a.apply cfg = r at hbooked ⊢
    cases hbooked with
    | refused books _ => exact books.solvent hs
    | bought _ _ hcash _ _ _ _ _ => exact hcash hs
    | sold p hq hside _ _ hcash _ _ _ _ hcov => exact hcash hs (hok hq hside hcov)

/-- **Solvent and long-only.**  From initial cash that is not negative, a run whose
sales repay their fees reaches only states with no negative cash, no negative reserve
and no position that is not positive. -/
theorem solvent_and_long_only {marks : Dict String ℚ} (hcash : 0 ≤ cfg.initialCash)
    (h : Admitted cfg (salesRepaid cfg) marks s) :
    0 ≤ s.cash ∧ 0 ≤ s.reservedCash ∧ ∀ name p, s.positions.get? name = some p → 0 < p.quantity := by
  have hsol : Solvent s := h.invariant ⟨hcash, le_rfl⟩ fun _ hb hs => hb.solvent hs
  have hlong : LongOnly s := h.invariant (LongOnly.fresh marks) fun _ hb hl => hb.longOnly hl
  exact ⟨hsol.cash, hsol.reserved, hlong⟩

/-- A purchase and a sale of half of it, on an account of 1000 with the default fees. -/
theorem solvent_and_long_only_half_sold :
    let cfg : PaperConfig := { initialCash := 1000 }
    let s := run cfg (markAt 100) [marketOrder .buy "a" 2, marketOrder .sell "b" 1]
    s.fills.length = 2 ∧ 0 ≤ s.cash ∧ 0 ≤ s.reservedCash ∧
      ∀ name p, s.positions.get? name = some p → 0 < p.quantity := by
  intro cfg s
  have hok : RunMeets cfg (salesRepaid cfg) (markAt 100)
      [marketOrder .buy "a" 2, marketOrder .sell "b" 1] := by decide +kernel
  exact ⟨by decide +kernel, solvent_and_long_only (by decide +kernel) (Admitted.run hok)⟩

/-- **A sale can cost more than it brings.**  At a fee rate of nine tenths a purchase
spends all the cash; a sale of the smallest quantity at the mark 0.6 brings 0.6 quanta
and its fee, 0.54 quanta, is rounded to one. -/
theorem sale_fee_exceeds_cash :
    let cfg : PaperConfig :=
      { initialCash := 114 / 100, feeRate := 9 / 10, slippageRate := 0, spreadRate := 0 }
    let s := run cfg (markAt (6 / 10)) [marketOrder .buy "a" 1, marketOrder .sell "b" quantum8]
    Reached cfg (fun _ => True) (markAt (6 / 10)) s ∧ s.cash < 0 := by
  intro cfg s
  have hok : RunOk cfg (fun _ => True) (markAt (6 / 10))
      [marketOrder .buy "a" 1, marketOrder .sell "b" quantum8] := by decide +kernel
  exact ⟨Reached.run hok, by decide +kernel⟩

end Paper

end Atlas
