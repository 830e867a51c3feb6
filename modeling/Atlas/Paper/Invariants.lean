import Atlas.Paper.Reservation

/-!
# The check of the accounting invariants

After a cycle the ledger is checked against the invariants of its accounting, and a
violation that is critical halts trading.  The check derives what it compares again: the
equity, the reserved cash from the metadata of the orders, and the uniqueness of the
fills from their identifiers.

The texts of the violations are left out; a violation carries what they are made from.

## Main definitions

* `InvariantViolation`, `InvariantReport` — what the check reports.
* `checkCycleInvariants` — the check.

## Main results

* `checkCycleInvariants_ok_iff` — **the check is passed exactly by ledgers without a
  critical violation**, one clause for each code.

## References

`app/accounting/invariants.py`.
-/

namespace Atlas

namespace Accounting

inductive Severity
  | critical
  | high
  | medium
  deriving DecidableEq, Repr, Inhabited

/-- A violation: its code, and what its message names. -/
inductive InvariantViolation
  | equityIdentity (equity recomputed : ℚ)
  | negativeCash (cash : ℚ)
  | negativeReserved (reservedCash : ℚ)
  | reservationMismatch (openReservations reservedCash : ℚ)
  | negativePosition (symbol : String) (quantity : ℚ)
  | negativePrice (symbol : String) (entry mark : ℚ)
  | unrealizedMismatch (symbol : String) (observed expected : ℚ)
  | duplicateFill (id : Ident)
  | doubleExit (pair : String)
  | staleReservation (id : Ident) (status : OrderStatus)
  deriving DecidableEq, Repr

def InvariantViolation.severity : InvariantViolation → Severity
  | .equityIdentity _ _ => .critical
  | .negativeCash _ => .critical
  | .negativeReserved _ => .critical
  | .reservationMismatch _ _ => .critical
  | .negativePosition _ _ => .critical
  | .negativePrice _ _ _ => .critical
  | .unrealizedMismatch _ _ _ => .high
  | .duplicateFill _ => .critical
  | .doubleExit _ => .critical
  | .staleReservation _ _ => .critical

structure InvariantReport where
  ok : Bool
  equity : ℚ
  cash : ℚ
  reservedCash : ℚ
  markedPositionValue : ℚ
  violations : List InvariantViolation := []
  deriving DecidableEq, Repr

/-- A violation, if the test finds one. -/
def reportIf (p : Prop) [Decidable p] (v : InvariantViolation) : List InvariantViolation :=
  if p then [v] else []

/-- `equity_from_cash_and_positions`: the equity, and the value of the positions. -/
def equityFromCashAndPositions (cash : ℚ) (positions : Dict String Position) (reservedCash : ℚ) :
    ℚ × ℚ :=
  let marked := positions.sum fun p => p.quantity * p.currentPrice
  (cash + reservedCash + marked, marked)

/-- `_open_reservation_total`. -/
def openReservationTotal (orders : Dict Ident Order) : ℚ :=
  orders.sum fun o => if o.metadata.reservationOpen = some true then o.metadata.remaining else 0

/-- The tests of one position. -/
def positionViolations (symbol : String) (p : Position) : List InvariantViolation :=
  let expected := (p.currentPrice - p.entryPrice) * p.quantity
  reportIf (p.quantity < 0) (.negativePosition symbol p.quantity) ++
    reportIf (p.entryPrice < 0 ∨ p.currentPrice < 0)
      (.negativePrice symbol p.entryPrice p.currentPrice) ++
    reportIf (1 / 100 < |expected - p.unrealizedPnl|)
      (.unrealizedMismatch symbol p.unrealizedPnl expected)

/-- The fills that repeat an identifier which is not empty. -/
def duplicateFills : List Ident → List Fill → List InvariantViolation
  | _, [] => []
  | seen, f :: fills =>
      if f.id = .text "" then duplicateFills seen fills
      else reportIf (f.id ∈ seen) (.duplicateFill f.id) ++ duplicateFills (f.id :: seen) fills

/-- `meta.get("exit_pair_id")`, where it is not empty. -/
def exitPairId (o : Order) : Option String :=
  (o.metadata.other.lookup "exit_pair_id").filter (· ≠ "")

/-- Another filled order of the same exit pair. -/
def Sibling (orders : Dict Ident Order) (o : Order) (pair : String) : Prop :=
  ∃ other ∈ orders.values, other.metadata.other.lookup "exit_pair_id" = some pair ∧
    other.status = .filled ∧ other.id ≠ o.id

instance (orders : Dict Ident Order) (o : Order) (pair : String) :
    Decidable (Sibling orders o pair) := inferInstanceAs (Decidable (∃ other ∈ orders.values, _))

/-- The tests of one order. -/
def orderViolations (orders : Dict Ident Order) (o : Order) : List InvariantViolation :=
  ((exitPairId o).elim [] fun pair =>
      reportIf (o.status = .filled ∧ Sibling orders o pair) (.doubleExit pair)) ++
    reportIf (o.status.Terminal ∧ o.metadata.reservationOpen = some true)
      (.staleReservation o.id o.status)

/-- The violations of a ledger, in the order they are found. -/
def violations (s : PaperState) : List InvariantViolation :=
  let equity := equityFromCashAndPositions s.cash s.positions s.reservedCash
  let recomputed := s.cash + s.reservedCash + equity.2
  let openReservations := openReservationTotal s.orders
  reportIf (quantum8 < |equity.1 - recomputed|) (.equityIdentity equity.1 recomputed) ++
    reportIf (s.cash < 0) (.negativeCash s.cash) ++
    reportIf (s.reservedCash < 0) (.negativeReserved s.reservedCash) ++
    reportIf (quantum8 < |openReservations - s.reservedCash|)
      (.reservationMismatch openReservations s.reservedCash) ++
    s.positions.entries.flatMap (fun e => positionViolations e.1 e.2) ++
    duplicateFills [] s.fills ++
    s.orders.values.flatMap (orderViolations s.orders)

/-- `check_cycle_invariants`, on the ledger of the session. -/
def checkCycleInvariants (s : PaperState) : InvariantReport :=
  let equity := equityFromCashAndPositions s.cash s.positions s.reservedCash
  { ok := decide (∀ v ∈ violations s, v.severity ≠ .critical)
    equity := equity.1
    cash := s.cash
    reservedCash := s.reservedCash
    markedPositionValue := equity.2
    violations := violations s }

/-! ### What passes -/

/-- No critical violation is among these. -/
def Passes (vs : List InvariantViolation) : Prop := ∀ v ∈ vs, v.severity ≠ .critical

theorem passes_append {vs ws : List InvariantViolation} :
    Passes (vs ++ ws) ↔ Passes vs ∧ Passes ws := List.forall_mem_append

theorem passes_flatMap {α : Type*} {l : List α} {f : α → List InvariantViolation} :
    Passes (l.flatMap f) ↔ ∀ x ∈ l, Passes (f x) := by
  simp only [Passes, List.mem_flatMap, forall_exists_index, and_imp]
  exact ⟨fun h x hx v hv => h v x hx hv, fun h v x hx hv => h x hx v hv⟩

/-- A test counts only if its violation is critical. -/
theorem passes_reportIf {p : Prop} [Decidable p] {v : InvariantViolation} :
    Passes (reportIf p v) ↔ (p → v.severity ≠ .critical) := by
  unfold reportIf
  split_ifs with hp
  · simp [Passes, hp]
  · simp [Passes, hp]

/-- A test whose violation is critical has to fail. -/
theorem passes_critical {p : Prop} [Decidable p] {v : InvariantViolation}
    (hv : v.severity = .critical) : Passes (reportIf p v) ↔ ¬p := by
  rw [passes_reportIf, hv]
  exact ⟨fun h hp => h hp rfl, fun h hp => absurd hp h⟩

theorem passes_positionViolations {symbol : String} {p : Position} :
    Passes (positionViolations symbol p) ↔ 0 ≤ p.quantity ∧ 0 ≤ p.entryPrice ∧ 0 ≤ p.currentPrice := by
  have hhigh : ∀ e : ℚ, Passes (reportIf (1 / 100 < |e - p.unrealizedPnl|)
      (.unrealizedMismatch symbol p.unrealizedPnl e)) :=
    fun _ => passes_reportIf.mpr fun _ => by nofun
  rw [positionViolations, passes_append, passes_append, passes_critical rfl, passes_critical rfl,
    not_lt, not_or, not_lt, not_lt]
  exact ⟨fun h => h.1, fun h => ⟨h, hhigh _⟩⟩

/-- The fills repeat no identifier, none of which was seen before. -/
def NoDuplicate (seen : List Ident) (fills : List Fill) : Prop :=
  let ids := (fills.map Fill.id).filter (· ≠ .text "")
  ids.Nodup ∧ ∀ id ∈ ids, id ∉ seen

theorem passes_duplicateFills (fills : List Fill) : ∀ {seen : List Ident},
    Passes (duplicateFills seen fills) ↔ NoDuplicate seen fills := by
  induction fills with
  | nil => exact fun {_} => by simp [duplicateFills, NoDuplicate, Passes]
  | cons f fills ih =>
    intro seen
    by_cases hempty : f.id = .text ""
    · simp only [duplicateFills, if_pos hempty, ih, NoDuplicate, List.map_cons]
      rw [List.filter_cons_of_neg (by simp [hempty])]
    · rw [duplicateFills, if_neg hempty, passes_append, passes_critical rfl, ih]
      simp only [NoDuplicate, List.map_cons]
      rw [List.filter_cons_of_pos (by simp [hempty])]
      simp only [List.nodup_cons, List.mem_cons, not_or, forall_eq_or_imp]
      constructor
      · rintro ⟨hseen, hnodup, hrest⟩
        exact ⟨⟨fun hmem => (hrest _ hmem).1 rfl, hnodup⟩, hseen, fun id hid => (hrest id hid).2⟩
      · rintro ⟨⟨hnew, hnodup⟩, hseen, hrest⟩
        exact ⟨hseen, hnodup, fun id hid => ⟨fun he => hnew (he ▸ hid), hrest id hid⟩⟩

theorem passes_orderViolations {orders : Dict Ident Order} {o : Order} :
    Passes (orderViolations orders o) ↔
      (∀ pair ∈ exitPairId o, ¬(o.status = .filled ∧ Sibling orders o pair)) ∧
        ¬(o.status.Terminal ∧ o.metadata.reservationOpen = some true) := by
  simp only [orderViolations, passes_append]
  refine and_congr ?_ (passes_critical rfl)
  cases exitPairId o with
  | none => simp [Passes]
  | some pair =>
    rw [Option.elim, passes_critical rfl]
    simp

/-- **The check is passed exactly by ledgers without a critical violation.**  The equity
is compared with itself, so that test never fails. -/
theorem checkCycleInvariants_ok_iff {s : PaperState} :
    (checkCycleInvariants s).ok = true ↔
      (0 ≤ s.cash ∧ 0 ≤ s.reservedCash) ∧
        |openReservationTotal s.orders - s.reservedCash| ≤ quantum8 ∧
        (∀ e ∈ s.positions.entries, 0 ≤ e.2.quantity ∧ 0 ≤ e.2.entryPrice ∧ 0 ≤ e.2.currentPrice) ∧
        NoDuplicate [] s.fills ∧
        ∀ o ∈ s.orders.values,
          (∀ pair ∈ exitPairId o, ¬(o.status = .filled ∧ Sibling s.orders o pair)) ∧
            ¬(o.status.Terminal ∧ o.metadata.reservationOpen = some true) := by
  have hequity : ¬quantum8 < |(equityFromCashAndPositions s.cash s.positions s.reservedCash).1 -
      (s.cash + s.reservedCash + (equityFromCashAndPositions s.cash s.positions s.reservedCash).2)| := by
    simp only [equityFromCashAndPositions, sub_self, abs_zero]
    exact not_lt.mpr quantum8_pos.le
  have hok : (checkCycleInvariants s).ok = true ↔ Passes (violations s) := decide_eq_true_iff
  rw [hok]
  simp only [violations, passes_append, passes_flatMap, passes_positionViolations,
    passes_duplicateFills, passes_orderViolations, passes_reportIf, InvariantViolation.severity,
    ne_eq, not_true_eq_false, imp_false, hequity, not_false_eq_true, true_and, not_lt, and_assoc]

end Accounting

end Atlas
