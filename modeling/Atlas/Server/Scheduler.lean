import Atlas.Lib.Exclusion
import Atlas.Server.Safety

/-!
# The trading scheduler

The scheduler is a task that runs a cycle, waits, and runs the next.  Its state is kept in
globals, which the endpoints change between any two awaits of the task; and since a stop that
waits does not hold off a start, more than one task can be alive.  The tasks are processes here,
over the globals as their shared state, and a step is what happens between two awaits.

A cycle that raises is counted, and too many in a row pause the scheduler.  The count is looked
at after another await, and it is reset from outside.  What raises before the cycle has its
session of the database is not counted; it only makes the task wait longer.

`settings` are those of the process; the endpoints change only whether the scheduler is enabled.
The rows of `scheduler_runs` are left out, and so is the cycle itself, of which it matters here
whether it raises.

## Main definitions

* `SchedulerState`, `LoopPhase` — the globals, and where a task stands.
* `LoopAction`, `loopStep` — the steps of `_loop` and `_run_one_cycle`.
* `Control`, `control` — the steps of everything else.

## Main results

* `cycles_exclude` — **no two tasks are in a cycle, and the guard is held exactly while one is**.

## References

`app/services/trading_scheduler.py`, `app/services/paper_session.py`, `app/api/mvp.py`,
`app/api/dashboard.py`, `tests/unit/test_trading_scheduler.py`.
-/

namespace Atlas

namespace Server

open Transition Interleaving

/-! ### The model -/

/-- The flags of a session that the scheduler reads. -/
structure SessionFlags where
  killSwitchEnabled : Bool
  tradingEnabled : Bool
  tradingPaused : Bool := false
  deriving DecidableEq, Repr, Inhabited

/-- The globals of the scheduler; the current session, with its number; and the tasks: how many
have been created, which of them have ended (with `true` if they were cancelled) or are being
cancelled, and for which task each call of `stop_scheduler` waits. -/
structure SchedulerState where
  task : Option ℕ := none
  stop : Bool := false
  lastOk : Option Time := none
  lastError : Option String := none
  lastFailureAt : Option Time := none
  cycleCount : ℕ := 0
  consecutiveFailures : ℕ := 0
  pausedByFailures : Bool := false
  heartbeatAt : Option Time := none
  overlapGuard : Bool := false
  enableTradingScheduler : Bool
  reconciliationHealthy : Bool := true
  session : SessionFlags
  sessionNumber : ℕ := 0
  created : ℕ := 0
  ended : List (ℕ × Bool) := []
  cancelling : List ℕ := []
  stopping : List ℕ := []
  deriving DecidableEq, Repr, Inhabited

/-- How a cycle has ended. -/
inductive CycleEnd
  | success
  | failure
  | cancelled
  deriving DecidableEq, Repr, Inhabited

/-- Where a task stands; `backoff` is that of `_loop`, and `session` the number of the session
that the cycle has. -/
inductive LoopPhase
  /-- It has not run yet. -/
  | unborn
  /-- It waits for `_STOP`, for `backoff` seconds. -/
  | waiting (backoff : ℤ)
  /-- The gates are passed, and the candles are looked for. -/
  | resolving (backoff : ℤ) (session : ℕ)
  /-- The cycle runs. -/
  | trading (backoff : ℤ) (session : ℕ)
  /-- The cycle has succeeded, and the run is written. -/
  | closing (backoff : ℤ) (session : ℕ)
  /-- The cycle has raised, and the run is written. -/
  | failing (backoff : ℤ) (session : ℕ)
  /-- The engine of the database is disposed of. -/
  | disposing (backoff : ℤ) (result : CycleEnd)
  | done
  deriving DecidableEq, Repr, Inhabited

/-- The next step of a task. -/
inductive LoopAction
  /-- `_loop` up to its next await. -/
  | turn (now : Time)
  /-- The source is found, and the engine is created or not. -/
  | resolved (raises : Bool)
  | succeed (now : Time)
  | fail (text : String) (now : Time)
  /-- The run is written. -/
  | persisted
  | disposed (raises : Bool)
  /-- `CancelledError` arrives. -/
  | cancelled
  deriving DecidableEq, Repr

variable (texts : Texts) (settings : Settings)

/-- The longest wait: `max(interval * 8, 300)`. -/
def backoffCap : ℤ := max (settings.paperCycleIntervalSeconds * 8) 300

/-- The wait after a turn that has raised. -/
def nextBackoff (backoff : ℤ) : ℤ := min (backoff * 2) (backoffCap settings)

/-- The gates of `_run_one_cycle`: the error that is left where one is shut. -/
def gate (g : SchedulerState) : Option String :=
  if g.pausedByFailures then some "paused_after_failure_threshold"
  else if g.session.killSwitchEnabled ∨ settings.killSwitchEnabled then some "kill_switch_active"
  else if g.session.tradingPaused then some "trading_paused"
  else if ¬g.session.tradingEnabled ∧ ¬settings.tradingEnabled then some "trading_disabled"
  else if settings.enableReconciliation ∧ ¬g.reconciliationHealthy then some "reconciliation_halt"
  else none

/-- The task ends. -/
def SchedulerState.finish (g : SchedulerState) (i : ℕ) (cancelled : Bool) : SchedulerState :=
  { g with ended := (i, cancelled) :: g.ended, cancelling := g.cancelling.filter (· ≠ i) }

/-- `_loop` from the test of `_STOP` to the next await. -/
def turn (i : ℕ) (backoff : ℤ) (now : Time) (g : SchedulerState) : SchedulerState × LoopPhase :=
  if g.stop then (g.finish i false, .done)
  else if g.overlapGuard then (g, .waiting settings.paperCycleIntervalSeconds)
  else
    match SafetyGuard.assertPaperOnly texts ⟨settings⟩ with
    | .error _ => (g, .waiting (nextBackoff settings backoff))
    | .ok () =>
        let g := { g with heartbeatAt := some now }
        match gate settings g with
        | some error =>
            ({ g with lastError := some error }, .waiting settings.paperCycleIntervalSeconds)
        | none => ({ g with overlapGuard := true }, .resolving backoff g.sessionNumber)

/-- The cycle has raised: `str(exc)[:500]` is kept. -/
def SchedulerState.failed (g : SchedulerState) (text : String) (now : Time) : SchedulerState :=
  { g with
    lastError := some (String.ofList (text.toList.take 500))
    lastFailureAt := some now
    consecutiveFailures := g.consecutiveFailures + 1 }

/-- Too many failures in a row pause the scheduler, and the session of the cycle. -/
def SchedulerState.judge (g : SchedulerState) (session : ℕ) : SchedulerState :=
  if settings.schedulerFailureThreshold ≤ g.consecutiveFailures then
    { g with
      pausedByFailures := true
      session :=
        if g.sessionNumber = session then { g.session with tradingPaused := true }
        else g.session }
  else g

/-- The guard is given back. -/
def SchedulerState.release (g : SchedulerState) : SchedulerState := { g with overlapGuard := false }

/-- A step of a task that is not being cancelled. -/
def advance (i : ℕ) (a : LoopAction) (g : SchedulerState) (t : LoopPhase) :
    Option (SchedulerState × LoopPhase) :=
  match a, t with
  | .turn now, .unborn =>
      if i < g.created then some (turn texts settings i settings.paperCycleIntervalSeconds now g)
      else none
  | .turn now, .waiting backoff => some (turn texts settings i backoff now g)
  | .resolved raises, .resolving backoff session =>
      some (if raises then (g.release, .waiting (nextBackoff settings backoff))
        else (g, .trading backoff session))
  | .succeed now, .trading backoff session =>
      some
        ({ g with
            cycleCount := g.cycleCount + 1
            lastOk := some now
            lastError := none
            consecutiveFailures := 0 }, .closing backoff session)
  | .fail text now, .trading backoff session => some (g.failed text now, .failing backoff session)
  | .fail text now, .closing backoff session => some (g.failed text now, .failing backoff session)
  | .persisted, .closing backoff _ => some (g, .disposing backoff .success)
  | .persisted, .failing backoff session =>
      some (g.judge settings session, .disposing backoff .failure)
  | .disposed raises, .disposing backoff result =>
      some
        (if result = .success ∧ ¬raises then
          (g.release, .waiting settings.paperCycleIntervalSeconds)
        else if result = .cancelled ∧ ¬raises then (g.release.finish i true, .done)
        else (g.release, .waiting (nextBackoff settings backoff)))
  | _, _ => none

/-- `CancelledError` in a task that is being cancelled. -/
def cancel (i : ℕ) (g : SchedulerState) (t : LoopPhase) : Option (SchedulerState × LoopPhase) :=
  let heard := { g with cancelling := g.cancelling.filter (· ≠ i) }
  match t with
  | .unborn => some (g.finish i true, .done)
  | .waiting _ => some (g.finish i true, .done)
  | .resolving _ _ => some (g.release.finish i true, .done)
  | .trading backoff _ | .closing backoff _ | .failing backoff _ =>
      some (heard, .disposing backoff .cancelled)
  | .disposing _ _ => some (g.release.finish i true, .done)
  | .done => none

/-- A step of a task: `CancelledError` comes before anything else. -/
def loopStep (i : ℕ) (a : LoopAction) (g : SchedulerState) (t : LoopPhase) :
    Option (SchedulerState × LoopPhase) :=
  if i ∈ g.cancelling then if a = .cancelled then cancel i g t else none
  else advance texts settings i a g t

/-- What else happens.  An endpoint that does several of these does them in turn. -/
inductive Control
  /-- `start_scheduler`. -/
  | start (force : Bool)
  /-- `stop_scheduler` up to its wait. -/
  | stop
  /-- Five seconds have passed for one of the calls that wait. -/
  | stopTimeout (k : ℕ)
  /-- The task that one of them waits for has ended. -/
  | stopReturn (k : ℕ)
  /-- `pause_scheduler`, and `set_paused` of the other endpoints. -/
  | setPaused (paused : Bool)
  /-- `resume_scheduler`. -/
  | resume
  | setKillSwitch (enabled : Bool)
  | setTradingEnabled (enabled : Bool)
  | setEnableTradingScheduler (enabled : Bool)
  /-- A reconciliation. -/
  | reconciled (healthy : Bool)
  /-- `reset_paper_session`. -/
  | resetSession
  deriving DecidableEq, Repr

/-- A session as it is built. -/
def SessionFlags.fresh : SessionFlags where
  killSwitchEnabled := settings.killSwitchEnabled
  tradingEnabled := settings.tradingEnabled

/-- `clear_failure_pause`. -/
def SchedulerState.clearFailurePause (g : SchedulerState) : SchedulerState :=
  { g with pausedByFailures := false, consecutiveFailures := 0 }

/-- `task.done()`. -/
def SchedulerState.hasEnded (g : SchedulerState) (i : ℕ) : Bool := g.ended.any (·.1 = i)

/-- `_TASK is not None and not _TASK.done()`. -/
def SchedulerState.running (g : SchedulerState) : Bool := g.task.any fun i => !g.hasEnded i

/-- `task.cancel()`. -/
def SchedulerState.cancelTask (g : SchedulerState) (i : ℕ) : SchedulerState :=
  if g.hasEnded i then g else { g with cancelling := i :: g.cancelling }

/-- `stop_scheduler` after its wait: a task that was cancelled is cancelled again, or whichever
task there is by then. -/
def SchedulerState.stopped (g : SchedulerState) (cancelled : Bool) : SchedulerState :=
  match g.task, cancelled with
  -- `None.cancel()` raises
  | none, _ => g
  | some i, true => { g.cancelTask i with task := none }
  | some _, false => { g with task := none }

/-- One step of everything else. -/
def control (e : Control) (g : SchedulerState) : Option SchedulerState :=
  match e with
  | .start force =>
      some
        (if ¬force ∧ ¬g.enableTradingScheduler then g
        else if g.running then g
        else
          { g.clearFailurePause with
            stop := false
            task := some g.created
            created := g.created + 1 })
  | .stop => some { g with stop := true, stopping := g.stopping ++ g.task.toList }
  | .stopTimeout k => g.stopping[k]?.map fun i => g.cancelTask i
  | .stopReturn k =>
      match g.stopping[k]? with
      | some i =>
          match g.ended.find? (·.1 = i) with
          | some (_, cancelled) =>
              some ({ g with stopping := g.stopping.eraseIdx k }.stopped cancelled)
          | none => none
      | none => none
  | .setPaused paused => some { g with session := { g.session with tradingPaused := paused } }
  | .resume =>
      some
        { g.clearFailurePause with session := { g.session with tradingPaused := false } }
  | .setKillSwitch enabled =>
      some { g with session := { g.session with killSwitchEnabled := enabled } }
  | .setTradingEnabled enabled =>
      some { g with session := { g.session with tradingEnabled := enabled } }
  | .setEnableTradingScheduler enabled => some { g with enableTradingScheduler := enabled }
  | .reconciled healthy => some { g with reconciliationHealthy := healthy }
  | .resetSession =>
      some
        { g with session := SessionFlags.fresh settings, sessionNumber := g.sessionNumber + 1 }

/-- The tasks with the globals. -/
abbrev Scheduler := Joint ℕ SchedulerState LoopPhase

/-- The scheduler of a process that has just been loaded. -/
def Scheduler.initial : Scheduler where
  shared :=
    { enableTradingScheduler := settings.enableTradingScheduler
      session := SessionFlags.fresh settings }
  locals _ := .unborn

/-- The steps of the scheduler. -/
abbrev schedulerStep := next (loopStep texts settings) (control settings)

/-! ### The guard -/

/-- The task is in a cycle. -/
def LoopPhase.InCycle : LoopPhase → Prop
  | .resolving _ _ | .trading _ _ | .closing _ _ | .failing _ _ | .disposing _ _ => True
  | .unborn | .waiting _ | .done => False

/-- `_OVERLAP_GUARD.locked()`. -/
def SchedulerState.Held (g : SchedulerState) : Prop := g.overlapGuard = true

/-- The turn of a task that is over with this step has raised: on the assertion that trading is
on paper, on the source of the candles, on the cycle, or on the engine. -/
def raised (g : SchedulerState) : LoopAction → LoopPhase → Bool
  | .turn _, _ => !g.overlapGuard && !(SafetyGuard.assertPaperOnly texts ⟨settings⟩).isOk
  | .resolved raises, _ => raises
  | .disposed raises, .disposing _ result => raises || result ≠ .success
  | _, _ => false

/-- The wait after a turn. -/
def waitAfter (backoff : ℤ) (raised : Bool) : ℤ :=
  if raised then nextBackoff settings backoff else settings.paperCycleIntervalSeconds

variable {texts settings} {g g' : SchedulerState} {t t' : LoopPhase} {i : ℕ}

/-- **What a turn does.**  The task ends, or it waits again with the guard as it was, or it enters
a cycle: then the guard was free and every gate is open. -/
theorem turn_cases (i : ℕ) (backoff : ℤ) (now : Time) (g : SchedulerState) :
    (turn texts settings i backoff now g = (g.finish i false, .done) ∧ g.stop = true) ∨
    (∃ heartbeat error next, turn texts settings i backoff now g =
        ({ g with heartbeatAt := heartbeat, lastError := error }, .waiting next) ∧
      ∀ t, next = waitAfter settings backoff (raised texts settings g (.turn now) t)) ∨
    (turn texts settings i backoff now g =
        ({ g with heartbeatAt := some now, overlapGuard := true },
          .resolving backoff g.sessionNumber) ∧
      g.stop = false ∧ ¬g.Held ∧ gate settings g = none) := by
  unfold turn
  split <;> rename_i hstop
  · exact .inl ⟨rfl, hstop⟩
  right
  split <;> rename_i hheld
  · exact .inl ⟨g.heartbeatAt, g.lastError, _, rfl, fun t => by simp [raised, hheld, waitAfter]⟩
  split <;> rename_i hpaper
  · refine .inl ⟨g.heartbeatAt, g.lastError, _, rfl, fun t => ?_⟩
    simp [raised, hheld, hpaper, Except.isOk, Except.toBool, waitAfter]
  dsimp only
  split <;> rename_i hgate
  · refine .inl ⟨some now, _, _, rfl, fun t => ?_⟩
    simp [raised, hpaper, Except.isOk, Except.toBool, waitAfter]
  · exact .inr ⟨rfl, by simpa using hstop, hheld, hgate⟩

/-- A phase from which a turn is taken, with its `backoff`. -/
inductive LoopPhase.Idle (settings : Settings) : LoopPhase → ℤ → Prop
  | unborn : Idle settings .unborn settings.paperCycleIntervalSeconds
  | waiting (backoff : ℤ) : Idle settings (.waiting backoff) backoff

/-- **What a task does in a step**, each kind with all that is known of it. -/
inductive Moves (texts : Texts) (settings : Settings) (i : ℕ) (g : SchedulerState) :
    LoopAction → LoopPhase → SchedulerState → LoopPhase → Prop
  | finish {now t backoff} : t.Idle settings backoff → g.stop = true →
      Moves texts settings i g (.turn now) t (g.finish i false) .done
  | wait {now t backoff} (heartbeat error next) : t.Idle settings backoff →
      next = waitAfter settings backoff (raised texts settings g (.turn now) t) →
      Moves texts settings i g (.turn now) t
        { g with heartbeatAt := heartbeat, lastError := error } (.waiting next)
  | enter {now t backoff} : t.Idle settings backoff → g.stop = false → ¬g.Held →
      gate settings g = none →
      Moves texts settings i g (.turn now) t
        { g with heartbeatAt := some now, overlapGuard := true }
        (.resolving backoff g.sessionNumber)
  | unprepared {backoff session} :
      Moves texts settings i g (.resolved true) (.resolving backoff session) g.release
        (.waiting (nextBackoff settings backoff))
  | prepared {backoff session} :
      Moves texts settings i g (.resolved false) (.resolving backoff session) g
        (.trading backoff session)
  | succeed {now backoff session} :
      Moves texts settings i g (.succeed now) (.trading backoff session)
        { g with
          cycleCount := g.cycleCount + 1
          lastOk := some now
          lastError := none
          consecutiveFailures := 0 } (.closing backoff session)
  | fail {text now t backoff session} :
      t = .trading backoff session ∨ t = .closing backoff session →
      Moves texts settings i g (.fail text now) t (g.failed text now) (.failing backoff session)
  | closed {backoff session} :
      Moves texts settings i g .persisted (.closing backoff session) g
        (.disposing backoff .success)
  | judged {backoff session} :
      Moves texts settings i g .persisted (.failing backoff session) (g.judge settings session)
        (.disposing backoff .failure)
  | disposed {raises backoff result} (next) :
      next = waitAfter settings backoff
        (raised texts settings g (.disposed raises) (.disposing backoff result)) →
      Moves texts settings i g (.disposed raises) (.disposing backoff result) g.release
        (.waiting next)
  | disposedCancelled {backoff} :
      Moves texts settings i g (.disposed false) (.disposing backoff .cancelled)
        (g.release.finish i true) .done
  | cancelledIdle {t backoff} : t.Idle settings backoff →
      Moves texts settings i g .cancelled t (g.finish i true) .done
  | cancelledCycle {t backoff session} : t = .trading backoff session ∨
      t = .closing backoff session ∨ t = .failing backoff session →
      Moves texts settings i g .cancelled t
        { g with cancelling := g.cancelling.filter (· ≠ i) } (.disposing backoff .cancelled)
  | cancelledEnd {t backoff} : (∃ session, t = .resolving backoff session) ∨
      (∃ result, t = .disposing backoff result) →
      Moves texts settings i g .cancelled t (g.release.finish i true) .done

theorem Moves.ofTurn {backoff : ℤ} {now : Time} (ht : t.Idle settings backoff) :
    Moves texts settings i g (.turn now) t (turn texts settings i backoff now g).1
      (turn texts settings i backoff now g).2 := by
  rcases @turn_cases texts settings i backoff now g with
    ⟨hturn, hstop⟩ | ⟨heartbeat, error, next, hturn, hnext⟩ | ⟨hturn, hstop, hfree, hgate⟩
  · rw [hturn]
    exact .finish ht hstop
  · rw [hturn]
    exact .wait heartbeat error next ht (hnext t)
  · rw [hturn]
    exact .enter ht hstop hfree hgate

theorem Moves.of_advance {a : LoopAction} (h : advance texts settings i a g t = some (g', t')) :
    Moves texts settings i g a t g' t' := by
  unfold advance at h
  split at h
  · split at h <;> simp only [Option.some.injEq, reduceCtorEq] at h
    obtain ⟨rfl, rfl⟩ := Prod.ext_iff.mp h
    exact .ofTurn .unborn
  · simp only [Option.some.injEq] at h
    obtain ⟨rfl, rfl⟩ := Prod.ext_iff.mp h
    exact .ofTurn (.waiting _)
  · rw [Option.some.injEq] at h
    split at h <;> rename_i hraises <;> obtain ⟨rfl, rfl⟩ := Prod.ext_iff.mp h
    · exact hraises ▸ .unprepared
    · exact Bool.eq_false_of_not_eq_true hraises ▸ .prepared
  · obtain ⟨rfl, rfl⟩ := Prod.ext_iff.mp (Option.some.inj h)
    exact .succeed
  · obtain ⟨rfl, rfl⟩ := Prod.ext_iff.mp (Option.some.inj h)
    exact .fail (.inl rfl)
  · obtain ⟨rfl, rfl⟩ := Prod.ext_iff.mp (Option.some.inj h)
    exact .fail (.inr rfl)
  · obtain ⟨rfl, rfl⟩ := Prod.ext_iff.mp (Option.some.inj h)
    exact .closed
  · obtain ⟨rfl, rfl⟩ := Prod.ext_iff.mp (Option.some.inj h)
    exact .judged
  · rw [Option.some.injEq] at h
    split at h <;> rename_i hsuccess
    · obtain ⟨rfl, rfl⟩ := Prod.ext_iff.mp h
      exact .disposed _ (by simp [raised, hsuccess, waitAfter])
    split at h <;> rename_i hcancelled <;> obtain ⟨rfl, rfl⟩ := Prod.ext_iff.mp h
    · obtain ⟨rfl, hraises⟩ := hcancelled
      exact Bool.eq_false_of_not_eq_true hraises ▸ .disposedCancelled
    · have hraised := not_and_or.mp hsuccess
      rw [not_not] at hraised
      exact .disposed _ (by simp [raised, waitAfter, hraised.symm])
  · cases h

theorem Moves.of_cancel (h : cancel i g t = some (g', t')) :
    Moves texts settings i g .cancelled t g' t' := by
  cases t with
  | done => cases h
  | unborn =>
    obtain ⟨rfl, rfl⟩ := Prod.ext_iff.mp (Option.some.inj h)
    exact .cancelledIdle .unborn
  | waiting backoff =>
    obtain ⟨rfl, rfl⟩ := Prod.ext_iff.mp (Option.some.inj h)
    exact .cancelledIdle (.waiting backoff)
  | resolving backoff session =>
    obtain ⟨rfl, rfl⟩ := Prod.ext_iff.mp (Option.some.inj h)
    exact .cancelledEnd (.inl ⟨session, rfl⟩)
  | trading backoff session =>
    obtain ⟨rfl, rfl⟩ := Prod.ext_iff.mp (Option.some.inj h)
    exact .cancelledCycle (.inl rfl)
  | closing backoff session =>
    obtain ⟨rfl, rfl⟩ := Prod.ext_iff.mp (Option.some.inj h)
    exact .cancelledCycle (.inr (.inl rfl))
  | failing backoff session =>
    obtain ⟨rfl, rfl⟩ := Prod.ext_iff.mp (Option.some.inj h)
    exact .cancelledCycle (.inr (.inr rfl))
  | disposing backoff result =>
    obtain ⟨rfl, rfl⟩ := Prod.ext_iff.mp (Option.some.inj h)
    exact .cancelledEnd (.inr ⟨result, rfl⟩)

/-- A step of a task is one of its moves. -/
theorem Moves.of_loopStep {a : LoopAction}
    (h : loopStep texts settings i a g t = some (g', t')) :
    Moves texts settings i g a t g' t' := by
  unfold loopStep at h
  split at h
  · split at h <;> rename_i ha
    · exact ha ▸ .of_cancel h
    · cases h
  · exact .of_advance h

theorem LoopPhase.Idle.not_inCycle {backoff : ℤ} (h : t.Idle settings backoff) : ¬t.InCycle := by
  cases h <;> exact id

theorem held_judge (g : SchedulerState) (session : ℕ) :
    (g.judge settings session).Held ↔ g.Held := by
  unfold SchedulerState.judge
  split <;> rfl

theorem not_held_release (g : SchedulerState) : ¬g.release.Held := by
  simp [SchedulerState.Held, SchedulerState.release]

/-- A step of a task keeps to the discipline of the guard. -/
theorem Moves.passage {a : LoopAction} (h : Moves texts settings i g a t g' t') :
    Passage SchedulerState.Held LoopPhase.InCycle g t g' t' := by
  cases h with
  | finish ht | wait _ _ _ ht | cancelledIdle ht =>
    exact .inl ⟨iff_of_false id ht.not_inCycle, Iff.rfl⟩
  | enter ht hstop hfree hgate => exact .inr (.inl ⟨hfree, trivial, rfl⟩)
  | unprepared | disposed | disposedCancelled =>
    exact .inr (.inr ⟨trivial, id, not_held_release g⟩)
  | prepared | succeed | closed => exact .inl ⟨Iff.rfl, Iff.rfl⟩
  | fail ht => rcases ht with rfl | rfl <;> exact .inl ⟨Iff.rfl, Iff.rfl⟩
  | judged => exact .inl ⟨Iff.rfl, held_judge g _⟩
  | cancelledCycle ht => rcases ht with rfl | rfl | rfl <;> exact .inl ⟨Iff.rfl, Iff.rfl⟩
  | cancelledEnd ht =>
    rcases ht with ⟨session, rfl⟩ | ⟨result, rfl⟩ <;>
      exact .inr (.inr ⟨trivial, id, not_held_release g⟩)

/-- **What the rest of the process does in a step**, each kind with all that is known of it. -/
inductive Controls (g : SchedulerState) : Control → SchedulerState → Prop
  | ignored {force} : Controls g (.start force) g
  | started {force} : g.running = false →
      Controls g (.start force)
        { g.clearFailurePause with
          stop := false
          task := some g.created
          created := g.created + 1 }
  | stop : Controls g .stop { g with stop := true, stopping := g.stopping ++ g.task.toList }
  | stopTimeout {k i} : g.stopping[k]? = some i → Controls g (.stopTimeout k) (g.cancelTask i)
  | stopReturn {k i cancelled} : g.stopping[k]? = some i → (i, cancelled) ∈ g.ended →
      Controls g (.stopReturn k) ({ g with stopping := g.stopping.eraseIdx k }.stopped cancelled)
  | resume (session) : Controls g .resume { g.clearFailurePause with session := session }
  | flags {e} (session number enabled healthy) :
      Controls g e
        { g with
          session := session
          sessionNumber := number
          enableTradingScheduler := enabled
          reconciliationHealthy := healthy }

theorem Controls.of_control {e : Control} (h : control settings e g = some g') :
    Controls g e g' := by
  cases e with
  | start force =>
    rw [control, Option.some.injEq] at h
    subst h
    split
    · exact .ignored
    split <;> rename_i hrunning
    · exact .ignored
    · exact .started (by simpa using hrunning)
  | stop =>
    obtain rfl := Option.some.inj h
    exact .stop
  | stopTimeout k =>
    obtain ⟨i, hi, rfl⟩ := Option.map_eq_some_iff.mp h
    exact .stopTimeout hi
  | stopReturn k =>
    simp only [control] at h
    split at h
    next i hi =>
      split at h
      next j cancelled hended =>
        obtain rfl := Option.some.inj h
        have hj : j = i := by simpa using List.find?_some hended
        exact .stopReturn hi (hj ▸ List.mem_of_find?_eq_some hended)
      next => cases h
    next => cases h
  | setPaused paused | setKillSwitch enabled | setTradingEnabled enabled
  | setEnableTradingScheduler enabled | reconciled healthy | resetSession =>
    obtain rfl := Option.some.inj h
    exact .flags _ _ _ _
  | resume =>
    obtain rfl := Option.some.inj h
    exact .resume _

theorem SchedulerState.cancelTask_eq (g : SchedulerState) (i : ℕ) :
    ∃ cancelling, g.cancelTask i = { g with cancelling := cancelling } := by
  unfold SchedulerState.cancelTask
  split
  · exact ⟨g.cancelling, rfl⟩
  · exact ⟨_, rfl⟩

theorem SchedulerState.stopped_eq (g : SchedulerState) (cancelled : Bool) :
    ∃ cancelling, g.stopped cancelled = { g with task := none, cancelling := cancelling } := by
  unfold SchedulerState.stopped
  split
  next htask => exact ⟨g.cancelling, by rw [← htask]⟩
  next i htask =>
    obtain ⟨cancelling, hg⟩ := g.cancelTask_eq i
    exact ⟨cancelling, by rw [hg]⟩
  next => exact ⟨g.cancelling, rfl⟩

/-- What the rest of the process does to the guard and to the failures: it leaves them alone, or
it clears the failures. -/
theorem Controls.keeps {e : Control} (h : Controls g e g') :
    g'.overlapGuard = g.overlapGuard ∧
      (g'.consecutiveFailures = g.consecutiveFailures ∧ g'.pausedByFailures = g.pausedByFailures ∨
        g'.consecutiveFailures = 0 ∧ g'.pausedByFailures = false) := by
  cases h with
  | ignored | stop | flags => exact ⟨rfl, .inl ⟨rfl, rfl⟩⟩
  | started | resume => exact ⟨rfl, .inr ⟨rfl, rfl⟩⟩
  | stopTimeout hi =>
    obtain ⟨cancelling, hg⟩ := g.cancelTask_eq _
    rw [hg]
    exact ⟨rfl, .inl ⟨rfl, rfl⟩⟩
  | @stopReturn k i cancelled hi hended =>
    obtain ⟨cancelling, hg⟩ :=
      SchedulerState.stopped_eq { g with stopping := g.stopping.eraseIdx k } cancelled
    rw [hg]
    exact ⟨rfl, .inl ⟨rfl, rfl⟩⟩

/-- **No two tasks are in a cycle**, whatever is started and stopped, and the guard is held exactly
as long as one is. -/
theorem cycles_exclude (texts : Texts) (settings : Settings) (s : Scheduler)
    (h : Reachable (schedulerStep texts settings) (fun _ _ => True)
      (Scheduler.initial settings) s) :
    (∀ i j, (s.locals i).InCycle → (s.locals j).InCycle → i = j) ∧
      (s.shared.overlapGuard = true ↔ ∃ i, (s.locals i).InCycle) := by
  have hguarded : Guarded SchedulerState.Held LoopPhase.InCycle s := by
    refine Guarded.reachable h ?_ (fun i a g t g' t' hstep => (Moves.of_loopStep hstep).passage)
      fun e g g' hstep => ?_
    · exact ⟨fun i j hi => hi.elim, by simp [Scheduler.initial, SchedulerState.Held,
        LoopPhase.InCycle]⟩
    · rw [SchedulerState.Held, SchedulerState.Held, (Controls.of_control hstep).keeps.1]
  exact ⟨hguarded.exclusive, hguarded.held_iff⟩

/-- Settings under which the scheduler trades, and gives up after two failures. -/
def watched : Settings where
  apiPort := 8000
  tradingMode := .paper
  liveTradingEnabled := false
  tradingEnabled := true
  killSwitchEnabled := false
  exchangeEnv := .testnet
  liveStartupAck := ""
  atlasRuntimeMode := none
  exchangeApiKey := none
  exchangeApiSecret := none
  marketDataStaleSeconds := 30
  orderCooldownSeconds := 0
  enableTradingScheduler := true
  paperCycleIntervalSeconds := 60
  enableReconciliation := true
  reconciliationIntervalSeconds := 120
  schedulerFailureThreshold := 2
  cycleLockTtlSeconds := 120
  paperStartingBalance := 10000
  paperFeeBps := 10
  paperSlippageBps := 5
  maxRiskPerTrade := 1 / 100
  maxPositionExposure := 1 / 5
  maxDailyLoss := 3 / 100
  maxDrawdown := 1 / 10
  minOrderNotional := 10
  defaultLeverage := 1
  supportedSymbols := ["BTC/USDT"]
  supportedTimeframes := ["5m"]
  defaultSymbol := "BTC/USDT"
  defaultTimeframe := "5m"
  fastEmaPeriod := 9
  slowEmaPeriod := 21
  rsiPeriod := 14
  stopLossPercent := 1
  takeProfitPercent := 2

/-- A task is in a cycle that nobody knows of any more, and another waits beside it. -/
theorem cycles_exclude_watched : ∃ s : Scheduler,
    (s.locals 1 = .trading 60 0 ∧ s.locals 2 = .waiting 60) ∧
      ∀ i, (s.locals i).InCycle → i = 1 := by
  obtain ⟨s, hs, htrading, hwaiting⟩ :
      ∃ s, Reachable (schedulerStep .ascii watched) (fun _ _ => True)
          (Scheduler.initial watched) s ∧
        s.locals 1 = .trading 60 0 ∧ s.locals 2 = .waiting 60 :=
    exists_reachable
      [.env (.start false), .env .stop, .act 0 (.turn 0), .env (.start false),
        .env (.stopReturn 0), .env (.start false), .act 1 (.turn 1), .act 2 (.turn 2),
        .act 1 (.resolved false)] (by decide +kernel) (by decide +kernel)
  obtain ⟨hexclude, -⟩ := cycles_exclude .ascii watched s hs
  exact ⟨s, ⟨htrading, hwaiting⟩, fun i hi => hexclude i 1 hi (htrading ▸ trivial)⟩

end Server

end Atlas
