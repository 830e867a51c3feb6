import Atlas.Lib.Interleaving
import Atlas.Session.Refusal

/-!
# The tasks of the process

The cycles of a process are tasks of one event loop: the scheduler, the endpoints and
the strategy ticks each run calls of `run_paper_trading_cycle`, and between two awaits of
a call anything else can happen, the other calls, the orders of the dashboard, the
reconciliation loop, the health probes and the operator.  A step here is what a task does
between two awaits; the order of the steps is arbitrary.

The tasks share the session, the verdict of the last reconciliation, the pause, and the
copies of the kill switch that the cached orchestrators hold.  Before a call its caller
checks what it checks, copies the kill switch into the orchestrator, and starts the
call; the call checks the reconciliation, warms up, and evaluates its candle.  Then it
checks the invariants of the accounting, writes, and reconciles; each of the three can
fail closed.

What is written is left out, and so are the flag `trading_enabled` and the pause of the
scheduler after failures: a start they forbid does not take place.

## Main definitions

* `Verdict`, `Process` — what the tasks share.
* `failClosedPersistence`, `runPaperReconciliation` — the two writers of the verdict.
* `Caller`, `CyclePhase`, `TaskAction`, `taskStep` — the steps of a call.
* `ProcessEvent`, `eventStep` — everything else.
* `taskOps`, `eventOps`, `moveOps` — the operations a step makes on the ledger.

## Main results

* `move_traced` — **a step leads where its operations lead**.
* `moveOps_noOrder` — a step submits nothing where orders are refused.

## References

`app/services/paper_cycle.py`, `app/services/trading_scheduler.py`,
`app/services/reconciliation.py`, `app/services/paper_session.py`,
`app/services/paper_soak.py`, `app/api/mvp.py`, `app/api/v1.py`, `app/main.py`.
-/

namespace Atlas

open Paper Session Interleaving

/-- `_STATE` of the reconciliation. -/
structure Verdict where
  healthy : Bool := true
  halted : Bool := false
  deriving DecidableEq, Repr, Inhabited

/-- `is_reconciliation_healthy`. -/
def Verdict.isHealthy (v : Verdict) : Bool := v.healthy && !v.halted

/-- `apply_halt_from_storage`. -/
def Verdict.ofHalt (halted : Bool) : Verdict where
  healthy := !halted
  halted := halted

/-- What the tasks share; `copies` are the kill switches of the cached orchestrators. -/
structure Process where
  session : Session
  verdict : Verdict := {}
  tradingPaused : Bool := false
  copies : Dict String Bool := ∅
  deriving DecidableEq, Repr, Inhabited

/-- Who runs a cycle; the soak harness takes a cached orchestrator as it is. -/
inductive Caller
  | scheduler
  | endpoint
  | tick
  | soak
  deriving DecidableEq, Repr, Inhabited

/-- Where a task stands with its call.  The text is the key of the orchestrator. -/
inductive CyclePhase
  | idle
  /-- The caller has made its checks. -/
  | admitted (caller : Caller) (key : String)
  /-- The orchestrator has its copy of the kill switch. -/
  | attached (key : String)
  /-- The call has checked the reconciliation. -/
  | running (key : String)
  /-- The candle is evaluated. -/
  | evaluated
  /-- The invariants are checked. -/
  | checked
  /-- The cycle is written. -/
  | stored
  deriving DecidableEq, Repr, Inhabited

/-- What a task does next. -/
inductive TaskAction
  | start (caller : Caller) (key : String)
  | attach
  | enter
  | warm (input : CycleInput)
  | evaluate (input : CycleInput)
  | check (raises : Bool)
  | store (raises : Bool)
  | reconcile (raises : Bool)
  /-- The call returns before its end. -/
  | leave
  deriving DecidableEq, Repr

/-- What else can happen in the process. -/
inductive ProcessEvent
  | placeOrder (args : OrderArgs) (key : String) (around : Surroundings)
  /-- One pass of `_close_symbol`. -/
  | closePass (symbol : String) (key : String) (around : Surroundings)
  /-- The session is written after an order. -/
  | persist (raises : Bool)
  | setMarkPrice (symbol : String) (price : ℚ) (now : Time)
  | cancel (orderId : Ident) (now : Time)
  /-- The reconciliation loop. -/
  | reconcile
  /-- `/health`, and `/ready`, which also writes the failure of its probe. -/
  | health (probe : Bool)
  | ready (probe : Bool)
  | setKillSwitch (enabled : Bool)
  /-- `set_paused`, the reconciliation of an operator, `clear_reconciliation_halt`. -/
  | setPaused (paused : Bool)
  | operatorReconcile
  | clearHalt
  deriving DecidableEq, Repr

namespace Process

variable (d : Deployment)

/-- The ledger of the session. -/
def paper (p : Process) : PaperState := p.session.paper

/-- A new process. -/
def initial : Process where
  session := Session.fresh d.settings d.paper

/-- What an order reads from outside: the verdict is that of the process. -/
def surroundings (p : Process) (around : Surroundings) : Surroundings :=
  { around with reconciled := p.verdict.isHealthy }

/-- What a cycle reads from outside: the kill switch is its orchestrator's copy, and the
pause is that of the process. -/
def cycleInput (p : Process) (key : String) (input : CycleInput) : CycleInput :=
  { input with
    killSwitchEnabled := (p.copies.get? key).getD false
    tradingPaused := p.tradingPaused }

/-- `_fail_closed_persistence`. -/
def failClosedPersistence (p : Process) : Process :=
  { p with
    session := Runtime.failClosed p.session
    verdict := .ofHalt true
    tradingPaused := true }

/-- `run_paper_reconciliation`. -/
def runPaperReconciliation (p : Process) : Process :=
  let healthy := decide (Runtime.Healthy d p.paper)
  if d.enableReconciliation then
    { p with
      session := { p.session with risk := { p.session.risk with reconciliationHealthy := healthy } }
      verdict := .ofHalt (!healthy) }
  else { p with verdict := .ofHalt false }

/-- The flag of the database in the risk engine. -/
def setDatabaseHealthy (p : Process) (healthy : Bool) : Process :=
  { p with session := { p.session with risk := { p.session.risk with databaseHealthy := healthy } } }

/-- The kill switch of the session, or of the settings. -/
def Killed (p : Process) : Prop :=
  p.session.killSwitchEnabled = true ∨ d.settings.killSwitchEnabled = true

/-- The reconciliation forbids a cycle. -/
def ReconciliationHalt (p : Process) : Prop :=
  d.enableReconciliation = true ∧ p.verdict.isHealthy = false

instance (p : Process) : Decidable (p.Killed d) := inferInstanceAs (Decidable (_ ∨ _))
instance (p : Process) : Decidable (p.ReconciliationHalt d) := inferInstanceAs (Decidable (_ ∧ _))

/-- What a caller checks before it starts a call. -/
def Admits (p : Process) : Caller → Prop
  | .scheduler => ¬p.Killed d ∧ ¬p.tradingPaused = true ∧ ¬p.ReconciliationHalt d
  | .endpoint => ¬p.Killed d
  | .tick => True
  | .soak => True

instance (p : Process) (caller : Caller) : Decidable (p.Admits d caller) := by
  cases caller <;> unfold Admits <;> infer_instance

/-- The orchestrator of a key is cached, with a copy of the kill switch; the soak harness
leaves a cached one as it is. -/
def attach (p : Process) (caller : Caller) (key : String) : Process :=
  if caller = .soak ∧ (p.copies.get? key).isSome = true then p
  else { p with copies := p.copies.set key p.session.killSwitchEnabled }

@[simp] theorem attach_session (p : Process) (caller : Caller) (key : String) :
    (p.attach caller key).session = p.session := by
  unfold attach
  split_ifs <;> rfl

@[simp] theorem attach_verdict (p : Process) (caller : Caller) (key : String) :
    (p.attach caller key).verdict = p.verdict := by
  unfold attach
  split_ifs <;> rfl

/-- The check of the invariants after a cycle; it fails closed also when it raises. -/
def checkInvariants (p : Process) (raises : Bool) : Process :=
  if raises = true ∨ (Accounting.checkCycleInvariants p.paper).ok = false then
    p.failClosedPersistence
  else p

end Process

variable (d : Deployment)

/-! ### Steps -/

/-- One step of a task. -/
def taskStep (a : TaskAction) (p : Process) (phase : CyclePhase) : Option (Process × CyclePhase) :=
  match a, phase with
  | .start caller key, .idle => some (p, if p.Admits d caller then .admitted caller key else .idle)
  | .attach, .admitted caller key => some (p.attach caller key, .attached key)
  | .enter, .attached key => some (p, if p.ReconciliationHalt d then .idle else .running key)
  | .warm input, .running key =>
      some ({ p with session := Runtime.primed d p.session input }, .running key)
  | .evaluate input, .running key =>
      some ({ p with session := (Runtime.processCandle d p.session (p.cycleInput key input)).session },
        .evaluated)
  | .check raises, .evaluated => some (p.checkInvariants raises, .checked)
  | .store raises, .checked => some (if raises then p.failClosedPersistence else p, .stored)
  | .reconcile raises, .stored =>
      some (if raises then p.failClosedPersistence else p.runPaperReconciliation d, .idle)
  | .leave, _ => some (p, .idle)
  | _, _ => none

/-- A step of anything else. -/
def eventStep (e : ProcessEvent) (p : Process) : Process :=
  match e with
  | .placeOrder args key around =>
      { p with session := Runtime.placeOrder d p.session args key (p.surroundings around) }
  | .closePass symbol key around =>
      { p with session := Runtime.closeSymbol d symbol [(key, p.surroundings around)] p.session }
  | .persist raises => if raises then p.setDatabaseHealthy false else p
  | .setMarkPrice symbol price now =>
      { p with session := { p.session with paper := setMarkPrice d.paper p.paper symbol price now } }
  | .cancel orderId now =>
      { p with session := { p.session with paper := (cancel p.paper orderId now).2 } }
  | .reconcile => p.runPaperReconciliation d
  | .health probe => if probe then p.setDatabaseHealthy true else p
  | .ready probe => p.setDatabaseHealthy probe
  | .setKillSwitch enabled => { p with session := { p.session with killSwitchEnabled := enabled } }
  | .setPaused paused => { p with tradingPaused := paused }
  | .operatorReconcile => p.runPaperReconciliation d
  | .clearHalt =>
      { p with
        session := { p.session with risk := { p.session.risk with reconciliationHealthy := true } }
        verdict := .ofHalt false }

section

variable (ι : Type*)

/-- The process and its tasks. -/
abbrev Tasks := Joint ι Process CyclePhase

/-- A new process, with no call under way. -/
def Tasks.initial : Tasks ι := ⟨Process.initial d, fun _ => .idle⟩

end

variable {ι : Type*}

/-- The steps of the process and its tasks, in any order. -/
def processStep [DecidableEq ι] : Tasks ι → Move ι TaskAction ProcessEvent → Option (Tasks ι) :=
  next (fun _ => taskStep d) fun e p => some (eventStep d e p)

/-! ### Operations -/

/-- The operations of a step of a task. -/
def taskOps (a : TaskAction) (p : Process) (phase : CyclePhase) : List Op :=
  match a, phase with
  | .warm input, .running _ =>
      input.primed.map fun close => .setMarkPrice input.symbol close input.around.now
  | .evaluate input, .running key => Runtime.candleOps d p.session (p.cycleInput key input)
  | _, _ => []

/-- The operations of a step of anything else. -/
def eventOps (e : ProcessEvent) (p : Process) : List Op :=
  match e with
  | .placeOrder args key around =>
      Runtime.placeOrderOps d p.session args key (p.surroundings around)
  | .closePass symbol key around =>
      Runtime.closeSymbolOps d symbol [(key, p.surroundings around)] p.session
  | .setMarkPrice symbol price now => [.setMarkPrice symbol price now]
  | .cancel orderId now => [.cancel orderId now]
  | _ => []

/-- The operations of a step. -/
def moveOps (s : Tasks ι) : Move ι TaskAction ProcessEvent → List Op
  | .act i a => taskOps d a s.shared (s.locals i)
  | .env e => eventOps d e s.shared

/-! ### How a task goes on -/

variable {d} {p p' : Process} {phase phase' : CyclePhase} {a : TaskAction}

/-- The steps a task can take. -/
inductive TaskGoes (d : Deployment) (p : Process) : TaskAction → CyclePhase → Process × CyclePhase → Prop
  | start (caller : Caller) (key : String) :
      TaskGoes d p (.start caller key) .idle
        (p, if p.Admits d caller then .admitted caller key else .idle)
  | attach (caller : Caller) (key : String) :
      TaskGoes d p .attach (.admitted caller key) (p.attach caller key, .attached key)
  | enter (key : String) :
      TaskGoes d p .enter (.attached key) (p, if p.ReconciliationHalt d then .idle else .running key)
  | warm (key : String) (input : CycleInput) :
      TaskGoes d p (.warm input) (.running key)
        ({ p with session := Runtime.primed d p.session input }, .running key)
  | evaluate (key : String) (input : CycleInput) :
      TaskGoes d p (.evaluate input) (.running key)
        ({ p with session := (Runtime.processCandle d p.session (p.cycleInput key input)).session },
          .evaluated)
  | check (raises : Bool) : TaskGoes d p (.check raises) .evaluated (p.checkInvariants raises, .checked)
  | store (raises : Bool) :
      TaskGoes d p (.store raises) .checked (if raises then p.failClosedPersistence else p, .stored)
  | reconcile (raises : Bool) :
      TaskGoes d p (.reconcile raises) .stored
        (if raises then p.failClosedPersistence else p.runPaperReconciliation d, .idle)
  | leave (phase : CyclePhase) : TaskGoes d p .leave phase (p, .idle)

theorem taskStep_goes {r : Process × CyclePhase} (h : taskStep d a p phase = some r) :
    TaskGoes d p a phase r := by
  unfold taskStep at h
  split at h <;> first | (rw [← Option.some.inj h]; constructor) | cases h

theorem runPaperReconciliation_paper : (p.runPaperReconciliation d).paper = p.paper := by
  simp only [Process.runPaperReconciliation]
  split_ifs <;> rfl

/-- **A step of a task leads where its operations lead.** -/
theorem taskStep_traced {r : Process × CyclePhase} (h : taskStep d a p phase = some r) :
    Traced d.paper p.paper (taskOps d a p phase) r.1.paper := by
  have hgoes : TaskGoes d p a phase r := taskStep_goes h
  cases hgoes with
  | start caller key => exact .nil p.paper
  | attach caller key =>
    have hpaper : (p.attach caller key).paper = p.paper :=
      congrArg Session.paper (p.attach_session caller key)
    rw [hpaper]
    exact .nil p.paper
  | enter key => exact .nil p.paper
  | warm key input =>
    exact Runtime.marks_traced input.symbol input.around.now input.primed p.session
  | evaluate key input => exact Runtime.processCandle_traced p.session (p.cycleInput key input)
  | check raises =>
    have hpaper : (p.checkInvariants raises).paper = p.paper := by
      unfold Process.checkInvariants
      split_ifs <;> rfl
    rw [hpaper]
    exact .nil p.paper
  | store raises => cases raises <;> exact .nil p.paper
  | reconcile raises =>
    cases raises with
    | false =>
      rw [if_neg (by decide), runPaperReconciliation_paper]
      exact .nil p.paper
    | true => exact .nil p.paper
  | leave => cases phase <;> exact .nil p.paper

/-- **A step of anything else leads where its operations lead.** -/
theorem eventStep_traced (e : ProcessEvent) (p : Process) :
    Traced d.paper p.paper (eventOps d e p) (eventStep d e p).paper := by
  cases e with
  | placeOrder args key around => exact Runtime.placeOrder_traced p.session args key _
  | closePass symbol key around => exact Runtime.closeSymbol_traced symbol _ p.session
  | persist raises => cases raises <;> exact .nil p.paper
  | setMarkPrice symbol price now => exact .mark ..
  | cancel orderId now => exact .one trivial
  | reconcile =>
    rw [eventStep, runPaperReconciliation_paper]
    exact .nil p.paper
  | health probe => cases probe <;> exact .nil p.paper
  | ready probe => exact .nil p.paper
  | setKillSwitch enabled => exact .nil p.paper
  | setPaused paused => exact .nil p.paper
  | operatorReconcile =>
    rw [eventStep, runPaperReconciliation_paper]
    exact .nil p.paper
  | clearHalt => exact .nil p.paper

/-- **A step leads where its operations lead.** -/
theorem move_traced [DecidableEq ι] {s s' : Tasks ι} {m : Move ι TaskAction ProcessEvent}
    (h : processStep d s m = some s') :
    Traced d.paper s.shared.paper (moveOps d s m) s'.shared.paper := by
  cases m with
  | act i a =>
    obtain ⟨r, hr, rfl⟩ := Option.map_eq_some_iff.mp h
    exact taskStep_traced hr
  | env e =>
    rw [← Option.some.inj h]
    exact eventStep_traced e s.shared

/-- **A step submits no order** where an order of the session is refused, and the candle
that a running call evaluates is barred. -/
theorem moveOps_noOrder {s : Tasks ι}
    (hsession : ∀ around, s.shared.session.Barred (s.shared.surroundings around))
    (hcycle : ∀ i key, s.locals i = .running key → ∀ input,
      (s.shared.cycleInput key input).killSwitchEnabled = true ∨
        s.shared.session.risk.reconciliationHealthy = false)
    (m : Move ι TaskAction ProcessEvent) : NoOrder (moveOps d s m) := by
  cases m with
  | act i a =>
    simp only [moveOps]
    unfold taskOps
    split
    · exact NoOrder.marks _ _ id _
    · next input key hphase => exact Runtime.candleOps_noOrder (hcycle i key hphase input)
    · exact .nil
  | env e =>
    simp only [moveOps]
    unfold eventOps
    split
    · exact Runtime.placeOrderOps_noOrder (hsession _)
    · exact Runtime.closePassOps_noOrder (hsession _)
    · next symbol price now => exact NoOrder.marks [()] (fun _ => symbol) (fun _ => price) now
    · exact fun op hop => by rw [List.mem_singleton.mp hop]; exact id
    · exact .nil

end Atlas
