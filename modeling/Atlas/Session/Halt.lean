import Atlas.Session.Tasks

/-!
# Failing closed

When the invariants of the accounting fail after a cycle, when the cycle cannot be
written, or when the reconciliation raises, the process fails closed: trading is paused,
the flags of the database and of the reconciliation go down, and the verdict of the
reconciliation is a halt.

The verdict says no more than the last reconciliation.  A halt of this kind lasts as long
as every later reconciliation finds the ledger unhealthy, the one at the end of the same
cycle included: as long as it does, every order is refused, by the verdict that the
session reads and by the flag that a cycle reads.  A reconciliation of a healthy ledger
lifts the halt without an operator.  A cycle that could not be written is reconciled a
moment later, and its ledger is as healthy as before; the pause that is left is not read
by the manual orders, and the flag of the database comes back with the next health probe.

## Main definitions

* `FailsClosed` — the step fails closed.
* `NoOperator` — the step is not one of an operator.
* `FindsUnhealthy` — the step does not reconcile a healthy ledger.

## Main results

* `fail_closed_sticky` — **the halt lasts while every reconciliation finds the ledger
  unhealthy**.
* `fail_closed_lifted` — the reconciliation of the same cycle lifts it.

## References

`app/services/paper_cycle.py`, `app/services/reconciliation.py`,
`app/services/paper_session.py`, `app/main.py`.
-/

namespace Atlas

open Paper Session Interleaving Transition

variable {d : Deployment} {ι : Type*} {s : Tasks ι}

/-- The step fails closed. -/
def FailsClosed (s : Tasks ι) : Move ι TaskAction ProcessEvent → Prop
  | .act _ (.check raises) =>
      raises = true ∨ (Accounting.checkCycleInvariants s.shared.paper).ok = false
  | .act _ (.store raises) => raises = true
  | .act _ (.reconcile raises) => raises = true
  | _ => False

/-- The step is not an operator's: trading is not resumed, the halt is not cleared, and no
reconciliation is run by hand. -/
def NoOperator : Move ι TaskAction ProcessEvent → Prop
  | .env (.setPaused paused) => paused = true
  | .env .operatorReconcile => False
  | .env .clearHalt => False
  | _ => True

variable (d) in
/-- If the step reconciles, it finds the ledger unhealthy. -/
def FindsUnhealthy (s : Tasks ι) : Move ι TaskAction ProcessEvent → Prop
  | .env .reconcile => ¬Runtime.Healthy d s.shared.paper
  | .act _ (.reconcile raises) => raises = false → ¬Runtime.Healthy d s.shared.paper
  | _ => True

instance (m : Move ι TaskAction ProcessEvent) : Decidable (FailsClosed s m) := by
  unfold FailsClosed
  split <;> infer_instance

instance (m : Move ι TaskAction ProcessEvent) : Decidable (NoOperator m) := by
  unfold NoOperator
  split <;> infer_instance

instance (m : Move ι TaskAction ProcessEvent) : Decidable (FindsUnhealthy d s m) := by
  unfold FindsUnhealthy
  split <;> infer_instance

/-! ### The halt -/

/-- The verdict is a halt, and the risk engine has been told. -/
structure Process.Halted (p : Process) : Prop where
  verdict : p.verdict.isHealthy = false
  flag : p.session.risk.reconciliationHealthy = false

theorem failClosedPersistence_halted (p : Process) : p.failClosedPersistence.Halted := ⟨rfl, rfl⟩

/-- A reconciliation that finds the ledger unhealthy is a halt. -/
theorem runPaperReconciliation_halted {p : Process} (hbad : ¬Runtime.Healthy d p.paper) :
    (p.runPaperReconciliation d).Halted := by
  -- without `enable_reconciliation` every ledger is healthy
  have henabled : d.enableReconciliation = true := by
    by_contra hoff
    exact hbad fun hon => (hoff hon).elim
  simp only [Process.runPaperReconciliation, if_pos henabled, decide_eq_false hbad]
  exact ⟨rfl, rfl⟩

/-- What fails closed halts. -/
theorem FailsClosed.halted {i : ι} {a : TaskAction} {r : Process × CyclePhase}
    (hfires : FailsClosed s (.act i a)) (h : taskStep d a s.shared (s.locals i) = some r) :
    r.1.Halted := by
  have hgoes : TaskGoes d s.shared a (s.locals i) r := taskStep_goes h
  generalize s.locals i = phase at hgoes
  cases hgoes with
  | check raises =>
    rw [show s.shared.checkInvariants raises = s.shared.failClosedPersistence from if_pos hfires]
    exact failClosedPersistence_halted s.shared
  | store raises =>
    obtain rfl : raises = true := hfires
    exact failClosedPersistence_halted s.shared
  | reconcile raises =>
    obtain rfl : raises = true := hfires
    exact failClosedPersistence_halted s.shared
  | start caller key => exact hfires.elim
  | attach caller key => exact hfires.elim
  | enter key => exact hfires.elim
  | warm key input => exact hfires.elim
  | evaluate key input => exact hfires.elim
  | leave => exact hfires.elim

/-- **A step of a task keeps the halt.** -/
theorem taskStep_halted {i : ι} {a : TaskAction} {r : Process × CyclePhase}
    (hok : FindsUnhealthy d s (.act i a)) (h : taskStep d a s.shared (s.locals i) = some r)
    (hs : s.shared.Halted) : r.1.Halted := by
  have hgoes : TaskGoes d s.shared a (s.locals i) r := taskStep_goes h
  generalize s.locals i = phase at hgoes
  cases hgoes with
  | start caller key => exact hs
  | attach caller key =>
    refine ⟨?_, ?_⟩
    · rw [Process.attach_verdict]
      exact hs.verdict
    · rw [Process.attach_session]
      exact hs.flag
  | enter key => exact hs
  | warm key input =>
    have hrisk : (Runtime.primed d s.shared.session input).risk = s.shared.session.risk :=
      (Runtime.primed_controls s.shared.session input).2
    exact ⟨hs.verdict, (congrArg RiskEngineState.reconciliationHealthy hrisk).trans hs.flag⟩
  -- a cycle does not ask for the verdict again: it is the flag that stops its order
  | evaluate key input => exact ⟨hs.verdict, Runtime.processCandle_controls.2.trans hs.flag⟩
  | check raises =>
    unfold Process.checkInvariants
    split_ifs
    · exact failClosedPersistence_halted s.shared
    · exact hs
  | store raises =>
    split_ifs
    · exact failClosedPersistence_halted s.shared
    · exact hs
  | reconcile raises =>
    cases raises with
    | true => exact failClosedPersistence_halted s.shared
    | false => exact runPaperReconciliation_halted (hok rfl)
  | leave => exact hs

/-- **A step of anything but an operator keeps the halt**: what an order leaves in the flag
is the verdict. -/
theorem eventStep_halted {e : ProcessEvent}
    (hoperator : NoOperator (.env e : Move ι TaskAction ProcessEvent))
    (hok : FindsUnhealthy d s (.env e)) (hs : s.shared.Halted) :
    (eventStep d e s.shared).Halted := by
  cases e with
  | placeOrder args key around =>
    exact ⟨hs.verdict, Runtime.placeOrder_controls.2.trans hs.verdict⟩
  | closePass symbol key around =>
    refine ⟨hs.verdict, ?_⟩
    -- a pass without an order leaves the flag, another one writes the verdict to it
    rcases (@Runtime.closePass_controls d s.shared.session key symbol
      (s.shared.surroundings around)).2 with hflag | hflag
    · exact hflag.trans hs.flag
    · exact hflag.trans hs.verdict
  | persist raises => cases raises <;> exact ⟨hs.verdict, hs.flag⟩
  | setMarkPrice symbol price now => exact ⟨hs.verdict, hs.flag⟩
  | cancel orderId now => exact ⟨hs.verdict, hs.flag⟩
  | reconcile => exact runPaperReconciliation_halted hok
  | health probe => cases probe <;> exact ⟨hs.verdict, hs.flag⟩
  | ready probe => exact ⟨hs.verdict, hs.flag⟩
  | setKillSwitch enabled => exact ⟨hs.verdict, hs.flag⟩
  | setPaused paused => exact ⟨hs.verdict, hs.flag⟩
  | operatorReconcile => exact hoperator.elim
  | clearHalt => exact hoperator.elim

/-- A halted process submits nothing, whatever step comes next. -/
theorem Process.Halted.noOrder (hs : s.shared.Halted) (m : Move ι TaskAction ProcessEvent) :
    NoOrder (moveOps d s m) :=
  moveOps_noOrder (fun _ => .inr hs.verdict) (fun _ _ _ _ => .inr hs.flag) m

variable [DecidableEq ι] {s₀ s₁ : Tasks ι} {m₀ : Move ι TaskAction ProcessEvent}

/-- **A halt by failing closed lasts.**  Once a step has failed closed, the reconciliation
stays unhealthy and no order is submitted by any step, in every run in which no operator
acts and every reconciliation finds the ledger unhealthy. -/
theorem fail_closed_sticky (hfires : FailsClosed s₀ m₀) (hstep : processStep d s₀ m₀ = some s₁)
    (h : Reachable (processStep d) (fun s m => NoOperator m ∧ FindsUnhealthy d s m) s₁ s) :
    s.shared.verdict.isHealthy = false ∧ ∀ m, NoOrder (moveOps d s m) := by
  have hfirst : s₁.shared.Halted := by
    cases m₀ with
    | act i a =>
      obtain ⟨r, hr, rfl⟩ := Option.map_eq_some_iff.mp hstep
      exact hfires.halted hr
    | env e => exact hfires.elim
  have hhalted : s.shared.Halted := by
    refine h.invariant (I := fun s => s.shared.Halted) hfirst fun s m s' hs hok hnext => ?_
    cases m with
    | act i a =>
      obtain ⟨r, hr, rfl⟩ := Option.map_eq_some_iff.mp hnext
      exact taskStep_halted hok.2 hr hs
    | env e =>
      rw [← Option.some.inj hnext]
      exact eventStep_halted hok.1 hok.2 hs
  exact ⟨hhalted.verdict, hhalted.noOrder⟩

/-- A purchase at the market. -/
def buyEvent (key : String) : Move Unit TaskAction ProcessEvent :=
  .env (.placeOrder
    { symbol := "BTC/USDT", side := .buy, orderType := .market, quantity := 1 / 50,
      stopLoss := some 49950 }
    key { now := 0, seriesMark := 50000 })

/-- A sale of what was bought, at a limit above the mark. -/
def sellEvent (key : String) : Move Unit TaskAction ProcessEvent :=
  .env (.placeOrder
    { symbol := "BTC/USDT", side := .sell, orderType := .limit, quantity := 1 / 50,
      price := some 51000, stopLoss := some 50949, reduceOnly := true }
    key { now := 0, seriesMark := 50000 })

/-- The call of the scheduler, up to the check of its invariants, without a signal. -/
def quietCall : List (Move Unit TaskAction ProcessEvent) :=
  [.act () (.start .scheduler "ema_crossover:BTC/USDT"), .act () .attach, .act () .enter,
    .act () (.evaluate { Runtime.buyCycle with close := 50000, signal := none }),
    .act () (.check false)]

/-- The cycle cannot be written. -/
def writeFails : Move Unit TaskAction ProcessEvent := .act () (.store true)

/-- The reconciliation of the cycle, and a probe that finds the database. -/
def reconciledAndProbed : List (Move Unit TaskAction ProcessEvent) :=
  [.act () (.reconcile false), .env (.health true)]

/-- Two resting sales of one position are triggered by one mark, and the reconciliation
misses the proceeds of the second: the halt outlives it. -/
theorem fail_closed_sticky_refused_sale :
    let d := Runtime.exactDeployment
    ∃ s : Tasks Unit, s.shared.session.risk.databaseHealthy = true ∧
      s.shared.verdict.isHealthy = false ∧ NoOrder (moveOps d s (buyEvent "d")) := by
  intro d
  obtain ⟨s₀, s₁, -, hstep, s, hs, hdatabase⟩ : ∃ s₀ s₁ : Tasks Unit,
      Reachable (processStep d) (fun _ _ => True) (Tasks.initial d Unit) s₀ ∧
      processStep d s₀ writeFails = some s₁ ∧
      ∃ s, Reachable (processStep d) (fun s m => NoOperator m ∧ FindsUnhealthy d s m) s₁ s ∧
        s.shared.session.risk.databaseHealthy = true :=
    exists_reachable_after
      ([buyEvent "a", sellEvent "b", sellEvent "c", .env (.setMarkPrice "BTC/USDT" 51000 1)] ++
        quietCall)
      writeFails reconciledAndProbed (by decide +kernel) (by decide +kernel)
  have hfires : FailsClosed s₀ writeFails := rfl
  obtain ⟨hverdict, horders⟩ := fail_closed_sticky hfires hstep hs
  exact ⟨s, hdatabase, hverdict, horders _⟩

/-- **The halt is lifted** by the reconciliation of the cycle that failed, and an order is
submitted that no operator has allowed. -/
theorem fail_closed_lifted :
    let d := Runtime.exactDeployment
    ∃ s₀ s₁ : Tasks Unit, Reachable (processStep d) (fun _ _ => True) (Tasks.initial d Unit) s₀ ∧
      processStep d s₀ writeFails = some s₁ ∧ FailsClosed s₀ writeFails ∧
      ∃ s, Reachable (processStep d) (fun _ m => NoOperator m) s₁ s ∧
        s.shared.verdict.isHealthy = true ∧ ¬NoOrder (moveOps d s (buyEvent "a")) := by
  intro d
  obtain ⟨s₀, s₁, h₀, hstep, hlifted⟩ : ∃ s₀ s₁ : Tasks Unit,
      Reachable (processStep d) (fun _ _ => True) (Tasks.initial d Unit) s₀ ∧
      processStep d s₀ writeFails = some s₁ ∧
      ∃ s, Reachable (processStep d) (fun _ m => NoOperator m) s₁ s ∧
        s.shared.verdict.isHealthy = true ∧ ¬NoOrder (moveOps d s (buyEvent "a")) :=
    exists_reachable_after quietCall writeFails reconciledAndProbed (by decide +kernel)
      (by decide +kernel)
  exact ⟨s₀, s₁, h₀, hstep, rfl, hlifted⟩

end Atlas
