import Atlas.Session.Reconcile

/-!
# The report of a reconciliation

`run_paper_reconciliation` answers with a report: the verdict, the mismatches it has found,
and a detail.  A negative balance, an invalid position, an order filled beyond its quantity
and a drift of the cash are critical mismatches; a position that the fills do not explain is
a high one, which does not count against the ledger.

A drift is a mismatch only while the fills explain every position.  So the verdict on a
ledger whose cash has drifted can be healed by one more damage: a quantity that the fills do
not explain.  The report then has the position as a mismatch, and warns.

The texts of the expected and the observed values are left out.

## Main definitions

* `Mismatch`, `mismatches` — what is found.
* `report` — the result of `run_paper_reconciliation`.
* `Drifted` — the cash has drifted from what the fills leave.
* `withPosition`, `setQuantity` — a position, or its quantity, is changed.

## Main results

* `report_healthy_iff` — the verdict of the report.
* `Drifted.healthy_withPosition_iff` — **when a replaced position heals a drifted ledger**.
* `report_setQuantity_iff` — the same for a changed quantity, with what the healed report says.

## References

`app/services/reconciliation.py`.
-/

namespace Atlas

namespace Reconciliation

inductive Severity
  | critical
  | high
  | medium
  | low
  deriving DecidableEq, Repr, Inhabited

/-- What a mismatch is about. -/
inductive Field
  | cash
  | quantity (symbol : String)
  | price (symbol : String)
  | vsFills (symbol : String)
  | cashVsFillLedger
  | filledQty (order : Ident)
  deriving DecidableEq, Repr, Inhabited

/-- A mismatch; invalid prices have no difference. -/
structure Mismatch where
  field : Field
  difference : Option ℚ
  severity : Severity
  deriving DecidableEq, Repr, Inhabited

/-! ### Mismatches -/

variable (startingBalance : ℚ) (s : PaperState)

def cashMismatches : List Mismatch :=
  if CashOk s then [] else [⟨.cash, some (min s.cash s.reservedCash), .critical⟩]

/-- The mismatches of a position in itself. -/
def positionMismatches (symbol : String) (p : Position) : List Mismatch :=
  (if p.quantity < 0 then [⟨.quantity symbol, some p.quantity, .critical⟩] else []) ++
    (if p.entryPrice ≤ 0 ∨ p.currentPrice < 0 then [⟨.price symbol, none, .critical⟩] else [])

/-- The mismatch of a position and the fills. -/
def explanationMismatches (symbol : String) (p : Position) : List Mismatch :=
  if quantum8 < |netQuantity s.fills symbol - p.quantity| then
    [⟨.vsFills symbol, some (p.quantity - netQuantity s.fills symbol), .high⟩]
  else []

/-- How far the cash is from what the fills leave. -/
def drift : ℚ := |reconstructed startingBalance s - (s.cash + s.reservedCash)|

def driftMismatches : List Mismatch :=
  if DriftOk startingBalance s then []
  else [⟨.cashVsFillLedger, some (drift startingBalance s), .critical⟩]

/-- The mismatch of an order and its fills. -/
def orderMismatches (o : Order) : List Mismatch :=
  if o.quantity < ((fillsOf s.fills o.id).map Fill.quantity).sum then
    [⟨.filledQty o.id, some (((fillsOf s.fills o.id).map Fill.quantity).sum - o.quantity),
      .critical⟩]
  else []

/-- All mismatches, in the order of the checks. -/
def mismatches : List Mismatch :=
  cashMismatches s ++
    (s.positions.entries.flatMap fun e => positionMismatches e.1 e.2) ++
    (s.positions.entries.flatMap fun e => explanationMismatches s e.1 e.2) ++
    driftMismatches startingBalance s ++
    s.orders.values.flatMap (orderMismatches s)

/-- There is a critical mismatch. -/
def Critical (l : List Mismatch) : Prop := ∃ m ∈ l, m.severity = .critical

instance (l : List Mismatch) : Decidable (Critical l) := inferInstanceAs (Decidable (∃ _ ∈ _, _))

/-! ### The report -/

/-- The detail of a report. -/
inductive Detail
  | disabled
  | ok
  | okWithWarnings
  | negativeCash
  | invalidState
  | cashDrift (drift : ℚ)
  | mismatch (field : Field)
  | failed
  deriving DecidableEq, Repr, Inhabited

/-- `ReconciliationResult`. -/
structure Report where
  healthy : Bool
  cashOk : Bool
  positionsOk : Bool
  detail : Detail
  cash : ℚ
  positionCount : ℕ
  mismatches : List Mismatch := []
  equity : ℚ := 0
  reconstructedCash : ℚ := 0
  deriving DecidableEq, Repr, Inhabited

/-- The detail of an unhealthy report. -/
def unhealthyDetail : Detail :=
  if ¬CashOk s then .negativeCash
  else if ¬(PositionsOk s ∧ FillsOk s) then .invalidState
  else if ¬DriftOk startingBalance s then .cashDrift (drift startingBalance s)
  else
    match (mismatches startingBalance s).find? (·.severity = .critical),
        (mismatches startingBalance s).head? with
    | some m, _ => .mismatch m.field
    | none, some m => .mismatch m.field
    | none, none => .failed

/-- `run_paper_reconciliation`. -/
def report (enabled : Bool) : Report :=
  if ¬enabled then
    { healthy := true, cashOk := true, positionsOk := true, detail := .disabled, cash := 0
      positionCount := 0 }
  else
    let found := mismatches startingBalance s
    let healthy : Bool := CashOk s ∧ (PositionsOk s ∧ FillsOk s) ∧ DriftOk startingBalance s ∧
      ¬Critical found
    { healthy := healthy
      cashOk := CashOk s ∧ DriftOk startingBalance s
      positionsOk := PositionsOk s ∧ FillsOk s
      detail :=
        if ¬healthy then unhealthyDetail startingBalance s
        else if found ≠ [] then .okWithWarnings
        else .ok
      cash := s.cash + s.reservedCash
      positionCount := s.positions.entries.length
      mismatches := found
      equity := s.cash + s.reservedCash + s.positions.sum fun p => p.quantity * p.currentPrice
      reconstructedCash :=
        if s.fills = [] then s.cash + s.reservedCash else reconstructed startingBalance s }

variable {startingBalance s}

theorem critical_append {l l' : List Mismatch} :
    Critical (l ++ l') ↔ Critical l ∨ Critical l' := by
  simp [Critical, or_and_right, exists_or]

theorem critical_flatMap {α : Type*} {f : α → List Mismatch} {l : List α} :
    Critical (l.flatMap f) ↔ ∃ x ∈ l, Critical (f x) := by
  simp only [Critical, List.mem_flatMap]
  constructor
  · rintro ⟨m, ⟨x, hx, hm⟩, hcritical⟩
    exact ⟨x, hx, m, hm, hcritical⟩
  · rintro ⟨x, hx, m, hm, hcritical⟩
    exact ⟨m, ⟨x, hx, hm⟩, hcritical⟩

theorem critical_cashMismatches : Critical (cashMismatches s) ↔ ¬CashOk s := by
  unfold cashMismatches
  split_ifs with h <;> simp [Critical, h]

theorem critical_positionMismatches (symbol : String) (p : Position) :
    Critical (positionMismatches symbol p) ↔
      ¬(0 ≤ p.quantity ∧ 0 < p.entryPrice ∧ 0 ≤ p.currentPrice) := by
  unfold positionMismatches
  rw [critical_append, not_and_or, not_and_or, not_le, not_lt, not_le]
  refine or_congr ?_ ?_
  · split_ifs with h <;> simp [Critical, h]
  · split_ifs with h <;> simp [Critical, h]

/-- A position that the fills do not explain is no critical mismatch. -/
theorem not_critical_explanationMismatches (symbol : String) (p : Position) :
    ¬Critical (explanationMismatches s symbol p) := by
  unfold explanationMismatches
  split_ifs <;> simp [Critical]

theorem critical_driftMismatches :
    Critical (driftMismatches startingBalance s) ↔ ¬DriftOk startingBalance s := by
  unfold driftMismatches
  split_ifs with h <;> simp [Critical, h]

theorem critical_orderMismatches (o : Order) : Critical (orderMismatches s o) ↔
    ¬((fillsOf s.fills o.id).map Fill.quantity).sum ≤ o.quantity := by
  unfold orderMismatches
  rw [not_le]
  split_ifs with h <;> simp [Critical, h]

/-- **A critical mismatch is a failed check.** -/
theorem critical_mismatches_iff : Critical (mismatches startingBalance s) ↔
    ¬(CashOk s ∧ PositionsOk s ∧ FillsOk s ∧ DriftOk startingBalance s) := by
  have hpositions : (∃ e ∈ s.positions.entries, Critical (positionMismatches e.1 e.2)) ↔
      ¬PositionsOk s := by
    simp only [critical_positionMismatches, PositionsOk, Dict.values, List.forall_mem_map,
      not_forall, exists_prop]
  have hfills : (∃ o ∈ s.orders.values, Critical (orderMismatches s o)) ↔ ¬FillsOk s := by
    simp only [critical_orderMismatches, FillsOk, not_forall, exists_prop]
  simp only [mismatches, critical_append, critical_flatMap, critical_cashMismatches, hpositions,
    not_critical_explanationMismatches, critical_driftMismatches, hfills, and_false, exists_false]
  tauto

/-- **The verdict of the report.** -/
theorem report_healthy_iff (enabled : Bool) :
    (report startingBalance s enabled).healthy = true ↔ Healthy enabled startingBalance s := by
  unfold report Healthy
  cases enabled with
  | false => simp
  | true =>
    simp only [not_true_eq_false, if_false, decide_eq_true_eq, true_imp_iff]
    rw [critical_mismatches_iff]
    tauto

/-! ### Drift -/

/-- The cash has drifted from what the fills leave. -/
def Drifted (startingBalance : ℚ) (s : PaperState) : Prop :=
  s.fills ≠ [] ∧ LedgerComplete s ∧ 5 / 100 < drift startingBalance s

/-- The position in a symbol is replaced. -/
def withPosition (s : PaperState) (symbol : String) (p : Position) : PaperState :=
  { s with positions := s.positions.set symbol p }

/-- The quantity of the open position in a symbol becomes `q`. -/
def setQuantity (s : PaperState) (symbol : String) (q : ℚ) : PaperState :=
  match s.positions.get? symbol with
  | none => s
  | some p => withPosition s symbol { p with quantity := q }

theorem drifted_iff : Drifted startingBalance s ↔ ¬DriftOk startingBalance s := by
  unfold Drifted DriftOk drift
  push Not
  rfl

/-- A replaced position leaves the history complete if the fills explain it. -/
theorem ledgerComplete_withPosition {symbol : String} {p : Position}
    (hcomplete : LedgerComplete s) :
    LedgerComplete (withPosition s symbol p) ↔
      |netQuantity s.fills symbol - p.quantity| ≤ quantum8 := by
  obtain ⟨hpositions, hfills⟩ := hcomplete
  constructor
  · rintro ⟨hchanged, -⟩
    exact hchanged (symbol, p) (Dict.mem_entries_iff.mpr (Dict.get?_set_self ..))
  · intro hexplained
    -- all other symbols are as they were
    refine ⟨fun e he => ?_, fun f hf hnet => ?_⟩
    · have hget : (s.positions.set symbol p).get? e.1 = some e.2 := Dict.mem_entries_iff.mp he
      by_cases hsymbol : symbol = e.1
      · rw [← hsymbol, Dict.get?_set_self, Option.some.injEq] at hget
        rw [← hget, ← hsymbol]
        exact hexplained
      · rw [Dict.get?_set_ne _ hsymbol] at hget
        exact hpositions e (Dict.mem_entries_iff.mpr hget)
    · by_cases hsymbol : symbol = f.symbol
      · simp [withPosition, hsymbol]
      · rw [withPosition, Dict.get?_set_ne _ hsymbol]
        exact hfills f hf hnet

/-- **When a replaced position heals a drifted ledger**: the fills do not explain it, and
nothing else is wrong. -/
theorem Drifted.healthy_withPosition_iff {symbol : String} {p : Position}
    (h : Drifted startingBalance s) :
    Healthy true startingBalance (withPosition s symbol p) ↔
      quantum8 < |netQuantity s.fills symbol - p.quantity| ∧ CashOk s ∧
        PositionsOk (withPosition s symbol p) ∧ FillsOk s := by
  obtain ⟨hsome, hcomplete, hdrift⟩ := h
  have hdriftOk : DriftOk startingBalance (withPosition s symbol p) ↔
      quantum8 < |netQuantity s.fills symbol - p.quantity| := by
    rw [← not_le, ← ledgerComplete_withPosition hcomplete]
    -- fills and cash are those of the drifted ledger
    constructor
    · rintro (hnone | hincomplete | hsmall)
      · exact absurd hnone hsome
      · exact hincomplete
      · exact absurd hsmall (not_le.mpr hdrift)
    · exact fun hincomplete => .inr (.inl hincomplete)
  have hcash : CashOk (withPosition s symbol p) ↔ CashOk s := Iff.rfl
  have hfills : FillsOk (withPosition s symbol p) ↔ FillsOk s := Iff.rfl
  rw [Healthy, hdriftOk, hcash, hfills]
  tauto

/-- A healed report has the position as a mismatch, and warns. -/
theorem report_withPosition_warns {symbol : String} {p : Position}
    (hhealthy : Healthy true startingBalance (withPosition s symbol p))
    (hunexplained : quantum8 < |netQuantity s.fills symbol - p.quantity|) :
    let r := report startingBalance (withPosition s symbol p) true
    r.detail = .okWithWarnings ∧
      ⟨.vsFills symbol, some (p.quantity - netQuantity s.fills symbol), .high⟩ ∈ r.mismatches := by
  intro r
  have hr : r.healthy = true := (report_healthy_iff true).mpr hhealthy
  have hmem : (⟨.vsFills symbol, some (p.quantity - netQuantity s.fills symbol), .high⟩ : Mismatch) ∈
      mismatches startingBalance (withPosition s symbol p) := by
    have hown : (⟨.vsFills symbol, some (p.quantity - netQuantity s.fills symbol), .high⟩ :
        Mismatch) ∈ explanationMismatches (withPosition s symbol p) symbol p := by
      rw [explanationMismatches, withPosition, if_pos hunexplained]
      exact List.mem_singleton_self _
    have hentry : (symbol, p) ∈ (withPosition s symbol p).positions.entries :=
      Dict.mem_entries_iff.mpr (Dict.get?_set_self ..)
    simp only [mismatches, List.mem_append, List.mem_flatMap]
    exact .inl (.inl (.inr ⟨_, hentry, hown⟩))
  have hdetail : r.detail = if ¬r.healthy then
      unhealthyDetail startingBalance (withPosition s symbol p)
      else if mismatches startingBalance (withPosition s symbol p) ≠ [] then .okWithWarnings
      else .ok := rfl
  refine ⟨?_, hmem⟩
  rw [hdetail, hr, if_neg (by simp), if_pos (List.ne_nil_of_mem hmem)]

/-- **What a changed quantity does to the report of a drifted ledger**: it is healthy exactly
if the fills do not explain the quantity and nothing else is wrong, and then it has the
position as a mismatch, and warns. -/
theorem report_setQuantity_iff (startingBalance : ℚ) (s : PaperState) (enabled : Bool)
    (symbol : String) (q : ℚ) (hunhealthy : (report startingBalance s enabled).healthy = false)
    (hdrift : Drifted startingBalance s) (hopen : s.positions.get? symbol ≠ none) :
    let r := report startingBalance (setQuantity s symbol q) enabled
    (r.healthy = true ↔ quantum8 < |netQuantity s.fills symbol - q| ∧ CashOk s ∧
      PositionsOk (setQuantity s symbol q) ∧ FillsOk s) ∧
    (r.healthy = true → r.detail = .okWithWarnings ∧
      ⟨.vsFills symbol, some (q - netQuantity s.fills symbol), .high⟩ ∈ r.mismatches) := by
  have henabled : enabled = true := by
    cases enabled with
    | false => cases hunhealthy
    | true => rfl
  subst henabled
  obtain ⟨p, hp⟩ := Option.ne_none_iff_exists'.mp hopen
  have hset : setQuantity s symbol q = withPosition s symbol { p with quantity := q } := by
    rw [setQuantity, hp]
  rw [hset]
  intro r
  have hiff : r.healthy = true ↔ quantum8 < |netQuantity s.fills symbol - q| ∧ CashOk s ∧
      PositionsOk (withPosition s symbol { p with quantity := q }) ∧ FillsOk s :=
    (report_healthy_iff true).trans hdrift.healthy_withPosition_iff
  refine ⟨hiff, fun hr => ?_⟩
  exact report_withPosition_warns ((report_healthy_iff true).mp hr) (hiff.mp hr).1

/-! ### A ledger that is healed -/

/-- A purchase of one coin at 100 whose ledger keeps 50 too much. -/
def driftedLedger : PaperState where
  cash := 9950
  positions := (∅ : Dict String Position).set "BTC/USDT"
    { symbol := "BTC/USDT"
      quantity := 1
      entryPrice := 100
      currentPrice := 100
      unrealizedPnl := 0
      openedAt := 0 }
  fills :=
    [{ id := .uuid4 1
       orderId := .uuid4 0
       symbol := "BTC/USDT"
       side := .buy
       quantity := 1
       price := 100
       fee := 0
       timestamp := 0 }]

/-- **Damage heals**: with a second error the drifted ledger is healthy. -/
theorem driftedLedger_heals :
    (report 10000 driftedLedger true).healthy = false ∧
      (report 10000 driftedLedger true).detail = .cashDrift 50 ∧
      (report 10000 (setQuantity driftedLedger "BTC/USDT" 2) true).healthy = true := by
  decide +kernel

/-- The healed report names the position. -/
theorem driftedLedger_warns :
    (report 10000 (setQuantity driftedLedger "BTC/USDT" 2) true).detail = .okWithWarnings ∧
      ⟨.vsFills "BTC/USDT", some (2 - netQuantity driftedLedger.fills "BTC/USDT"), .high⟩ ∈
        (report 10000 (setQuantity driftedLedger "BTC/USDT" 2) true).mismatches := by
  have hunhealthy : (report 10000 driftedLedger true).healthy = false := by decide +kernel
  have hdrift : Drifted 10000 driftedLedger := drifted_iff.mpr (by decide +kernel)
  obtain ⟨-, hwarns⟩ := report_setQuantity_iff 10000 driftedLedger true "BTC/USDT" 2 hunhealthy
    hdrift (by decide +kernel)
  exact hwarns (by decide +kernel)

end Reconciliation

end Atlas
