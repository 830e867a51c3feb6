import Atlas.Server.Scheduler

/-!
# What the scheduler counts, waits for and reports

The scheduler is to pause itself after a number of failures in a row, to wait longer after each
turn that raises, and to say whether it runs.  The count is right as long as no task is cancelled
between counting a failure and judging it; the waits are right in any case; and the report is
right as long as nothing is started while a stop waits.

## Main definitions

* `KeepsCount` — no task is cancelled while it writes a failure.
* `Counted` — the invariant of the count.
* `KeepsReport` — nothing is started while a stop waits.
* `Reported` — the invariant of the report.

## Main results

* `failures_le_threshold` — **the failures in a row never exceed the threshold, and reach it
  exactly if the scheduler is paused or about to be**.
* `failing_cycles_le` — **so many cycles can fail until someone clears the pause, and no more**.
* `waits_double` — **the waits double with the turns that raise**.
* `running_iff_alive` — **it is reported that the scheduler runs exactly if a task is alive**.

## References

`app/services/trading_scheduler.py`, `tests/unit/test_trading_scheduler.py`.
-/

namespace Atlas

namespace Server

open Transition Interleaving

variable {texts : Texts} {settings : Settings} {g g' : SchedulerState} {t t' : LoopPhase}
  {s s' : Scheduler} {i : ℕ} {a : LoopAction}

/-! ### The count of the failures -/

/-- The task writes a failure that it has counted. -/
def LoopPhase.Failing : LoopPhase → Prop
  | .failing _ _ => True
  | _ => False

instance : DecidablePred LoopPhase.Failing
  | .failing _ _ => isTrue trivial
  | .unborn => isFalse id
  | .waiting _ => isFalse id
  | .resolving _ _ => isFalse id
  | .trading _ _ => isFalse id
  | .closing _ _ => isFalse id
  | .disposing _ _ => isFalse id
  | .done => isFalse id

/-- No task is cancelled while it writes a failure. -/
def KeepsCount (s : Scheduler) : Move ℕ LoopAction Control → Prop
  | .act i a => a = .cancelled → ¬(s.locals i).Failing
  | .env _ => True

instance (s : Scheduler) : ∀ m, Decidable (KeepsCount s m)
  | .act _ _ => inferInstanceAs (Decidable (_ → ¬_))
  | .env _ => isTrue trivial

/-- What a task in a cycle may rely on. -/
def LoopPhase.Expects (settings : Settings) (g : SchedulerState) : LoopPhase → Prop
  | .resolving _ _ | .trading _ _ =>
      (g.consecutiveFailures : ℤ) < settings.schedulerFailureThreshold ∧
        g.pausedByFailures = false
  | .closing _ _ => g.consecutiveFailures = 0 ∧ g.pausedByFailures = false
  | .failing _ _ => g.pausedByFailures = false
  | .unborn | .waiting _ | .disposing _ _ | .done => True

/-- The invariant of the count. -/
structure Counted (settings : Settings) (s : Scheduler) : Prop where
  guarded : Guarded SchedulerState.Held LoopPhase.InCycle s
  le : (s.shared.consecutiveFailures : ℤ) ≤ settings.schedulerFailureThreshold
  paused : s.shared.pausedByFailures = true →
    (s.shared.consecutiveFailures : ℤ) = settings.schedulerFailureThreshold
  reached : (s.shared.consecutiveFailures : ℤ) = settings.schedulerFailureThreshold →
    s.shared.pausedByFailures = true ∨ ∃ i, (s.locals i).Failing
  expects : ∀ i, (s.locals i).Expects settings s.shared

theorem LoopPhase.Failing.inCycle (h : t.Failing) : t.InCycle := by
  cases t with
  | failing => trivial
  | _ => exact h.elim

/-- A task outside of a cycle relies on nothing. -/
theorem LoopPhase.Expects.of_not_inCycle (h : ¬t.InCycle) : t.Expects settings g := by
  cases t with
  | unborn | waiting | done => trivial
  | resolving | trading | closing | failing | disposing => exact absurd trivial h

/-- What a task relies on is about the count only. -/
theorem LoopPhase.Expects.congr (h : t.Expects settings g)
    (hcount : g'.consecutiveFailures = g.consecutiveFailures)
    (hpaused : g'.pausedByFailures = g.pausedByFailures) : t.Expects settings g' := by
  cases t with
  | unborn | waiting | disposing | done => trivial
  | resolving | trading | closing =>
    unfold LoopPhase.Expects
    rw [hcount, hpaused]
    exact h
  | failing => exact hpaused.trans h

/-- A count that is cleared is what every task may rely on. -/
theorem LoopPhase.Expects.of_cleared (hvalid : settings.Valid) (hcount : g.consecutiveFailures = 0)
    (hpaused : g.pausedByFailures = false) : t.Expects settings g := by
  have hpos : ((0 : ℕ) : ℤ) < settings.schedulerFailureThreshold := by
    have := hvalid.threshold
    omega
  cases t with
  | unborn | waiting | disposing | done => trivial
  | resolving | trading => exact ⟨hcount ▸ hpos, hpaused⟩
  | closing => exact ⟨hcount, hpaused⟩
  | failing => exact hpaused

/-- A step of a task that leaves the count alone, and is no end of a failure. -/
theorem Counted.update_of_same {i : ℕ} (h : Counted settings s)
    (hp : Passage SchedulerState.Held LoopPhase.InCycle s.shared (s.locals i) g t)
    (hcount : g.consecutiveFailures = s.shared.consecutiveFailures)
    (hpaused : g.pausedByFailures = s.shared.pausedByFailures)
    (hfailing : (s.locals i).Failing → t.Failing) (hself : t.Expects settings g) :
    Counted settings ⟨g, Function.update s.locals i t⟩ where
  guarded := h.guarded.update hp
  le := hcount ▸ h.le
  paused := hcount ▸ hpaused ▸ h.paused
  reached := by
    intro hreached
    rcases h.reached (hcount ▸ hreached) with hpause | ⟨j, hj⟩
    · exact .inl (hpaused.trans hpause)
    · refine .inr ⟨j, ?_⟩
      by_cases hji : j = i
      · subst hji
        simpa using hfailing hj
      · simpa [hji] using hj
  expects := by
    intro j
    by_cases hji : j = i
    · subst hji
      simpa using hself
    · simpa [hji] using (h.expects j).congr hcount hpaused

/-- A step of the task that is in a cycle.  It alone relies on anything. -/
theorem Counted.update_of_inCycle {i : ℕ} (h : Counted settings s)
    (hp : Passage SchedulerState.Held LoopPhase.InCycle s.shared (s.locals i) g t)
    (hin : (s.locals i).InCycle)
    (hle : (g.consecutiveFailures : ℤ) ≤ settings.schedulerFailureThreshold)
    (hpaused : g.pausedByFailures = true →
      (g.consecutiveFailures : ℤ) = settings.schedulerFailureThreshold)
    (hreached : (g.consecutiveFailures : ℤ) = settings.schedulerFailureThreshold →
      g.pausedByFailures = true ∨ t.Failing)
    (hself : t.Expects settings g) :
    Counted settings ⟨g, Function.update s.locals i t⟩ where
  guarded := h.guarded.update hp
  le := hle
  paused := hpaused
  reached := fun heq => (hreached heq).imp_right fun ht => ⟨i, by simpa using ht⟩
  expects := by
    intro j
    by_cases hji : j = i
    · subst hji
      simpa using hself
    · simpa [hji] using LoopPhase.Expects.of_not_inCycle fun hj =>
        hji (h.guarded.exclusive j i hj hin)

/-- A gate that is open, with the guard free: the count is below the threshold. -/
theorem Counted.lt_of_enter (h : Counted settings s) (hfree : ¬s.shared.Held)
    (hgate : gate settings s.shared = none) :
    (s.shared.consecutiveFailures : ℤ) < settings.schedulerFailureThreshold ∧
      s.shared.pausedByFailures = false := by
  have hpaused : s.shared.pausedByFailures = false := by
    by_contra hpause
    rw [gate, if_pos (by simpa using hpause)] at hgate
    cases hgate
  refine ⟨lt_of_le_of_ne h.le fun heq => ?_, hpaused⟩
  rcases h.reached heq with hpause | ⟨i, hi⟩
  · simp [hpaused] at hpause
  · exact hfree (h.guarded.held_iff.mpr ⟨i, hi.inCycle⟩)

theorem LoopPhase.Idle.not_failing {backoff : ℤ} (h : t.Idle settings backoff) : ¬t.Failing := by
  cases h <;> exact id

/-- A step of a task keeps the count. -/
theorem Counted.act (hvalid : settings.Valid) (h : Counted settings s)
    (hok : KeepsCount s (.act i a)) (hm : Moves texts settings i s.shared a (s.locals i) g t) :
    Counted settings ⟨g, Function.update s.locals i t⟩ := by
  have hp := hm.passage
  have hexpects := h.expects i
  generalize hlocal : s.locals i = before at hm hexpects
  -- only a success, a failure and its judgement touch the count; the other moves keep it, and
  -- the task need not expect anything new
  cases hm with
  | finish ht | wait _ _ _ ht | cancelledIdle ht =>
    exact h.update_of_same hp rfl rfl (fun hf => absurd (hlocal ▸ hf) ht.not_failing) trivial
  | enter ht hstop hfree hgate =>
    -- the gate has been open, so the count that the cycle starts from is below the threshold
    exact h.update_of_same hp rfl rfl (fun hf => absurd (hlocal ▸ hf) ht.not_failing)
      (h.lt_of_enter hfree hgate)
  | unprepared | disposed | disposedCancelled =>
    exact h.update_of_same hp rfl rfl (fun hf => (hlocal ▸ hf :).elim) trivial
  | prepared => exact h.update_of_same hp rfl rfl (fun hf => (hlocal ▸ hf :).elim) hexpects
  | succeed =>
    have hpos := hvalid.threshold
    refine h.update_of_inCycle hp (hlocal ▸ trivial) ?_ ?_ ?_ ⟨rfl, hexpects.2⟩
    · exact_mod_cast (zero_le_one.trans hpos)
    · intro hpause
      simp [hexpects.2] at hpause
    · intro heq
      simp only [Nat.cast_zero] at heq
      omega
  | @fail text now backoff session _ ht =>
    -- from below the threshold one failure reaches it at most, and then this task judges it
    have hlt : (s.shared.consecutiveFailures : ℤ) < settings.schedulerFailureThreshold ∧
        s.shared.pausedByFailures = false := by
      rcases ht with rfl | rfl
      · exact hexpects
      · have hpos := hvalid.threshold
        rw [hexpects.1]
        exact ⟨by omega, hexpects.2⟩
    have hin : (s.locals i).InCycle := by
      rw [hlocal]
      rcases ht with rfl | rfl <;> trivial
    refine h.update_of_inCycle hp hin ?_ ?_ (fun _ => .inr trivial) hlt.2
    · simp only [SchedulerState.failed, Nat.cast_add, Nat.cast_one]
      omega
    · intro hpause
      simp [SchedulerState.failed, hlt.2] at hpause
  | closed => exact h.update_of_same hp rfl rfl (fun hf => (hlocal ▸ hf :).elim) trivial
  | @judged backoff session =>
    -- the pause comes with the threshold, and below it nothing changes
    have hin : (s.locals i).InCycle := hlocal ▸ trivial
    by_cases hjudge : settings.schedulerFailureThreshold ≤ s.shared.consecutiveFailures
    · simp only [SchedulerState.judge, if_pos hjudge] at hp ⊢
      exact h.update_of_inCycle hp hin h.le (fun _ => le_antisymm h.le hjudge)
        (fun _ => .inl rfl) trivial
    · simp only [SchedulerState.judge, if_neg hjudge] at hp ⊢
      exact h.update_of_inCycle hp hin h.le h.paused (fun heq => absurd heq.ge hjudge) trivial
  | cancelledCycle ht =>
    -- a task that is cancelled here counts no failure that it has not judged
    refine h.update_of_same hp rfl rfl (fun hf => absurd hf (hok rfl)) trivial
  | cancelledEnd ht =>
    refine h.update_of_same hp rfl rfl (fun hf => ?_) trivial
    rw [hlocal] at hf
    rcases ht with ⟨session, rfl⟩ | ⟨result, rfl⟩ <;> exact hf.elim

/-- A step of the rest of the process keeps the count. -/
theorem Counted.env {e : Control} (hvalid : settings.Valid) (h : Counted settings s)
    (hc : Controls s.shared e g) : Counted settings { s with shared := g } := by
  obtain ⟨hheld, ⟨hcount, hpaused⟩ | ⟨hcount, hpaused⟩⟩ := hc.keeps
  · exact
      { guarded := ⟨h.guarded.exclusive, by
          rw [SchedulerState.Held, hheld]
          exact h.guarded.held_iff⟩
        le := hcount ▸ h.le
        paused := hcount ▸ hpaused ▸ h.paused
        reached := hcount ▸ hpaused ▸ h.reached
        expects := fun i => (h.expects i).congr hcount hpaused }
  · have hpos := hvalid.threshold
    exact
      { guarded := ⟨h.guarded.exclusive, by
          rw [SchedulerState.Held, hheld]
          exact h.guarded.held_iff⟩
        le := by
          rw [hcount]
          exact_mod_cast zero_le_one.trans hpos
        paused := fun hpause => by simp [hpaused] at hpause
        reached := fun heq => by
          rw [hcount, Nat.cast_zero] at heq
          omega
        expects := fun i => .of_cleared hvalid hcount hpaused }

theorem Counted.initial (hvalid : settings.Valid) :
    Counted settings (Scheduler.initial settings) := by
  have hpos := hvalid.threshold
  exact
    { guarded := ⟨fun i j hi => hi.elim, by
        simp [Scheduler.initial, SchedulerState.Held, LoopPhase.InCycle]⟩
      le := by
        simp only [Scheduler.initial, Nat.cast_zero]
        omega
      paused := fun hpause => by simp [Scheduler.initial] at hpause
      reached := fun heq => by
        simp only [Scheduler.initial, Nat.cast_zero] at heq
        omega
      expects := fun i => trivial }

/-- The count is right in every state that is reached. -/
theorem counted_of_reachable (hvalid : settings.Valid)
    (h : Reachable (schedulerStep texts settings) KeepsCount (Scheduler.initial settings) s) :
    Counted settings s := by
  refine h.invariant (.initial hvalid) fun s m s' hs hok hstep => ?_
  cases m with
  | act i a =>
    obtain ⟨⟨g, t⟩, hr, rfl⟩ := Option.map_eq_some_iff.mp hstep
    exact hs.act hvalid hok (Moves.of_loopStep hr)
  | env e =>
    obtain ⟨g, hr, rfl⟩ := Option.map_eq_some_iff.mp hstep
    exact hs.env hvalid (Controls.of_control hr)

/-- **The failures in a row never exceed the threshold.**  The scheduler is paused only at the
threshold; at the threshold it is paused, or a task is about to judge its failure; and while it
is paused a task in a cycle has nothing left to do but to dispose of its engine. -/
theorem failures_le_threshold (texts : Texts) (settings : Settings) (hvalid : settings.Valid)
    (s : Scheduler)
    (h : Reachable (schedulerStep texts settings) KeepsCount (Scheduler.initial settings) s) :
    (s.shared.consecutiveFailures : ℤ) ≤ settings.schedulerFailureThreshold ∧
      (s.shared.pausedByFailures = true →
        (s.shared.consecutiveFailures : ℤ) = settings.schedulerFailureThreshold ∧
          ∀ i, (s.locals i).InCycle → ∃ backoff result, s.locals i = .disposing backoff result) ∧
      ((s.shared.consecutiveFailures : ℤ) = settings.schedulerFailureThreshold →
        s.shared.pausedByFailures = true ∨ ∃ i, (s.locals i).Failing) := by
  have hcounted := counted_of_reachable hvalid h
  refine ⟨hcounted.le, fun hpause => ⟨hcounted.paused hpause, fun i hin => ?_⟩, hcounted.reached⟩
  have hexpects := hcounted.expects i
  cases hlocal : s.locals i with
  | disposing backoff result => exact ⟨backoff, result, rfl⟩
  | unborn | waiting | done =>
    rw [hlocal] at hin
    exact hin.elim
  | resolving | trading | closing =>
    -- the phase relies on a scheduler that is not paused
    rw [hlocal] at hexpects
    simp [hexpects.2] at hpause
  | failing =>
    rw [hlocal, LoopPhase.Expects] at hexpects
    simp [hexpects] at hpause

theorem watched_valid : watched.Valid where
  port := by decide
  stale := by decide
  cooldown := by decide
  interval := by decide
  reconciliation := by decide
  threshold := by decide
  ttl := by decide
  balance := by norm_num [watched]
  fee := by norm_num [watched]
  slippage := by norm_num [watched]
  percentages := by norm_num [watched]
  leverage := rfl
  periods := by decide
  rsi := by decide
  stopLoss := by norm_num [watched]
  takeProfit := by norm_num [watched]
  symbol := by decide
  timeframe := by decide

/-- Two cycles have failed, and the second is judged next. -/
theorem failures_le_threshold_watched : ∃ s : Scheduler,
    s.shared.consecutiveFailures = 2 ∧ (s.shared.pausedByFailures = true ∨
      ∃ i, (s.locals i).Failing) := by
  obtain ⟨s, hs, hcount⟩ :
      ∃ s, Reachable (schedulerStep .ascii watched) KeepsCount (Scheduler.initial watched) s ∧
        s.shared.consecutiveFailures = 2 :=
    exists_reachable
      [.env (.start false), .act 0 (.turn 0), .act 0 (.resolved false), .act 0 (.fail "x" 1),
        .act 0 .persisted, .act 0 (.disposed false), .act 0 (.turn 121), .act 0 (.resolved false),
        .act 0 (.fail "x" 122)] (by decide +kernel) (by decide +kernel)
  obtain ⟨-, -, hreached⟩ := failures_le_threshold .ascii watched watched_valid s hs
  exact ⟨s, hcount, hreached (by rw [hcount]; rfl)⟩

/-! ### How many cycles may fail -/

/-- The failures that a move counts. -/
def failures : Move ℕ LoopAction Control → ℕ
  | .act _ (.fail _ _) => 1
  | _ => 0

/-- The move clears the count: a cycle succeeds, the scheduler is resumed, or it is started and
was not running. -/
def clears (g : SchedulerState) : Move ℕ LoopAction Control → Bool
  | .act _ (.succeed _) | .env .resume => true
  | .env (.start force) => (force || g.enableTradingScheduler) && !g.running
  | _ => false

/-- No failure is lost, and none is cleared. -/
def Unbroken (s : Scheduler) (m : Move ℕ LoopAction Control) : Prop :=
  KeepsCount s m ∧ clears s.shared m = false

instance (s : Scheduler) (m : Move ℕ LoopAction Control) : Decidable (Unbroken s m) :=
  inferInstanceAs (Decidable (_ ∧ _ = _))

/-- A move of a task counts its failure and nothing else. -/
theorem Moves.count_eq (h : Moves texts settings i g a t g' t') (ha : ∀ now, a ≠ .succeed now) :
    g'.consecutiveFailures = g.consecutiveFailures + failures (.act i a) := by
  cases h with
  | succeed => exact absurd rfl (ha _)
  | judged =>
    unfold SchedulerState.judge
    split <;> rfl
  | _ => rfl

/-- A step of the rest of the process does not count, and clears nothing while the count is
unbroken. -/
theorem count_control {e : Control} (h : control settings e s.shared = some g)
    (hok : Unbroken s (.env e)) : g.consecutiveFailures = s.shared.consecutiveFailures := by
  have hc := Controls.of_control h
  cases hc with
  | ignored | stop | flags => rfl
  | @started force hrunning =>
    have hignored : control settings (.start force) s.shared = some s.shared := by
      have hdisabled : force = false ∧ s.shared.enableTradingScheduler = false := by
        simpa [clears, hrunning] using hok.2
      simp [control, hdisabled]
    exact congrArg SchedulerState.consecutiveFailures (Option.some.inj (h.symm.trans hignored))
  | resume => cases hok.2
  | stopTimeout hi =>
    obtain ⟨cancelling, hg⟩ := s.shared.cancelTask_eq _
    rw [hg]
  | @stopReturn k i cancelled hi hended =>
    obtain ⟨cancelling, hg⟩ := SchedulerState.stopped_eq
      { s.shared with stopping := s.shared.stopping.eraseIdx k } cancelled
    rw [hg]

/-- **So many cycles can fail, and no more**, until a cycle succeeds or someone clears the
failures, whatever else is done to the scheduler meanwhile. -/
theorem failing_cycles_le (texts : Texts) (settings : Settings) (hvalid : settings.Valid)
    (s s' : Scheduler) (ms : List (Move ℕ LoopAction Control))
    (h : Reachable (schedulerStep texts settings) KeepsCount (Scheduler.initial settings) s)
    (hexec : exec (schedulerStep texts settings) s ms = some s')
    (hms : Along (schedulerStep texts settings) Unbroken s ms) :
    s'.shared.consecutiveFailures = s.shared.consecutiveFailures + (ms.map failures).sum ∧
      ((s.shared.consecutiveFailures + (ms.map failures).sum : ℕ) : ℤ) ≤
        settings.schedulerFailureThreshold := by
  have hcount : s'.shared.consecutiveFailures =
      s.shared.consecutiveFailures + (ms.map failures).sum := by
    refine exec_sum (I := fun _ => True) (f := fun s : Scheduler => s.shared.consecutiveFailures)
      (fun s m s' _ hok hstep => ⟨trivial, ?_⟩) trivial hexec hms
    cases m with
    | act i a =>
      obtain ⟨⟨g, t⟩, hr, rfl⟩ := Option.map_eq_some_iff.mp hstep
      refine (Moves.of_loopStep hr).count_eq ?_
      rintro now rfl
      cases hok.2
    | env e =>
      obtain ⟨g, hr, rfl⟩ := Option.map_eq_some_iff.mp hstep
      exact count_control hr hok
  have hreached : Reachable (schedulerStep texts settings) KeepsCount
      (Scheduler.initial settings) s' :=
    h.trans ((reachable_of_exec hexec hms).mono fun _ _ hok => hok.1)
  exact ⟨hcount, hcount ▸ (counted_of_reachable hvalid hreached).le⟩

/-- After a failure, one more: then the scheduler is paused, and a turn opens no cycle. -/
theorem failing_cycles_le_watched : ∃ s s' : Scheduler,
    s.shared.consecutiveFailures = 1 ∧ s'.shared.pausedByFailures = true ∧
      s'.shared.consecutiveFailures = 1 + 1 := by
  have hreach : ∃ s, Reachable (schedulerStep .ascii watched) KeepsCount
      (Scheduler.initial watched) s ∧ s.shared.consecutiveFailures = 1 ∧
      ((exec (schedulerStep .ascii watched) s
        [.act 0 (.turn 121), .act 0 (.resolved false), .act 0 (.fail "x" 122), .act 0 .persisted,
          .act 0 (.disposed false), .act 0 (.turn 243)]).any fun s' =>
        s'.shared.pausedByFailures) = true ∧
      Along (schedulerStep .ascii watched) Unbroken s
        [.act 0 (.turn 121), .act 0 (.resolved false), .act 0 (.fail "x" 122), .act 0 .persisted,
          .act 0 (.disposed false), .act 0 (.turn 243)] :=
    exists_reachable
      [.env (.start false), .act 0 (.turn 0), .act 0 (.resolved false), .act 0 (.fail "x" 1),
        .act 0 .persisted, .act 0 (.disposed false)] (by decide +kernel) (by decide +kernel)
  obtain ⟨s, hs, hone, hafter, halong⟩ := hreach
  obtain ⟨s', hexec, hpaused⟩ := (Option.any_eq_true ..).mp hafter
  refine ⟨s, s', hone, hpaused, ?_⟩
  rw [(failing_cycles_le .ascii watched watched_valid s s' _ hs hexec halong).1, hone]
  rfl

/-! ### The waits -/

/-- The turns that have raised since one that has not, after a step to the phase `t`. -/
def LoopPhase.turns (t : LoopPhase) (raised : Bool) (n : ℕ) : ℕ :=
  match t with
  | .waiting _ => if raised then n + 1 else 0
  | _ => n

/-- How many turns of the task `i` in a row have raised. -/
def addTurn (texts : Texts) (settings : Settings) (i : ℕ) (s : Scheduler) :
    Move ℕ LoopAction Control → Scheduler → ℕ → ℕ
  | .act j a, s', n =>
      if j = i then (s'.locals i).turns (raised texts settings s.shared a (s.locals i)) n else n
  | .env _, _, n => n

/-- The wait after `n` turns in a row that have raised. -/
def backoffAfter (settings : Settings) (n : ℕ) : ℤ :=
  min (settings.paperCycleIntervalSeconds * 2 ^ n) (backoffCap settings)

@[simp]
theorem backoffAfter_zero : backoffAfter settings 0 = settings.paperCycleIntervalSeconds := by
  unfold backoffAfter backoffCap
  omega

@[simp]
theorem nextBackoff_backoffAfter (n : ℕ) :
    nextBackoff settings (backoffAfter settings n) = backoffAfter settings (n + 1) := by
  have hcap : 0 ≤ backoffCap settings := le_trans (by decide) (le_max_right _ _)
  unfold nextBackoff backoffAfter
  rw [pow_succ, ← mul_assoc]
  omega

/-- The `backoff` of a task is that after `n` turns that have raised. -/
def LoopPhase.Waited (settings : Settings) (n : ℕ) : LoopPhase → Prop
  | .unborn => n = 0
  | .waiting backoff | .resolving backoff _ | .trading backoff _ | .closing backoff _
  | .failing backoff _ | .disposing backoff _ => backoff = backoffAfter settings n
  | .done => True

theorem LoopPhase.Waited.idle {backoff : ℤ} {n : ℕ} (h : t.Waited settings n)
    (ht : t.Idle settings backoff) : backoff = backoffAfter settings n := by
  cases ht with
  | unborn =>
    obtain rfl := h
    exact backoffAfter_zero.symm
  | waiting => exact h

/-- The wait after a turn, by the turns that have raised. -/
theorem waitAfter_backoffAfter (n : ℕ) (raised : Bool) :
    waitAfter settings (backoffAfter settings n) raised =
      backoffAfter settings (if raised then n + 1 else 0) := by
  cases raised <;> simp [waitAfter]

/-- **A move of a task keeps its `backoff`**, or ends its turn and goes by whether it has raised. -/
theorem Moves.waited {n : ℕ} (h : Moves texts settings i g a t g' t') (ht : t.Waited settings n) :
    t'.Waited settings (t'.turns (raised texts settings g a t) n) := by
  cases h with
  | finish | disposedCancelled | cancelledIdle | cancelledEnd => trivial
  | wait heartbeat error next hidle hnext =>
    rw [ht.idle hidle, waitAfter_backoffAfter] at hnext
    exact hnext
  | enter hidle => exact ht.idle hidle
  | unprepared =>
    obtain rfl := ht
    exact nextBackoff_backoffAfter n
  | prepared | succeed | closed | judged => exact ht
  | fail hcycle => rcases hcycle with rfl | rfl <;> exact ht
  | disposed next hnext =>
    obtain rfl := ht
    rw [waitAfter_backoffAfter] at hnext
    exact hnext
  | cancelledCycle hcycle => rcases hcycle with rfl | rfl | rfl <;> exact ht

/-- **The waits double.**  In every run a task that waits does so for the interval, doubled as
often as its last turns in a row have raised, up to the cap. -/
theorem waits_double (texts : Texts) (settings : Settings) (s : Scheduler)
    (ms : List (Move ℕ LoopAction Control))
    (h : exec (schedulerStep texts settings) (Scheduler.initial settings) ms = some s) (i : ℕ)
    (backoff : ℤ) (hwaiting : s.locals i = .waiting backoff) :
    backoff = min (settings.paperCycleIntervalSeconds *
        2 ^ note (schedulerStep texts settings) (addTurn texts settings i)
          (Scheduler.initial settings) ms 0)
      (max (settings.paperCycleIntervalSeconds * 8) 300) := by
  have hwaited : (s.locals i).Waited settings (note (schedulerStep texts settings)
      (addTurn texts settings i) (Scheduler.initial settings) ms 0) := by
    refine exec_note (J := fun s n => (s.locals i).Waited settings n) (fun s m s' n hs hstep => ?_)
      rfl h
    cases m with
    | act j a =>
      obtain ⟨⟨g, t⟩, hr, rfl⟩ := Option.map_eq_some_iff.mp hstep
      by_cases hj : j = i
      · subst hj
        simpa [addTurn] using (Moves.of_loopStep hr).waited hs
      · simpa [addTurn, hj, Ne.symm hj] using hs
    | env e =>
      obtain ⟨g, hr, rfl⟩ := Option.map_eq_some_iff.mp hstep
      exact hs
  rw [hwaiting] at hwaited
  exact hwaited

/-- The source is not found two times in a row, and the task waits four times as long. -/
theorem waits_double_watched : ∃ s : Scheduler, ∃ backoff, s.locals 0 = .waiting backoff ∧
    backoff = min (60 * 2 ^ 2) (max (60 * 8) 300) := by
  have hrun : ((exec (schedulerStep .ascii watched) (Scheduler.initial watched)
      [.env (.start false), .act 0 (.turn 0), .act 0 (.resolved true), .act 0 (.turn 120),
        .act 0 (.resolved true)]).any fun s => s.locals 0 = .waiting 240) = true := by
    decide +kernel
  obtain ⟨s, hexec, hwaiting⟩ := (Option.any_eq_true ..).mp hrun
  refine ⟨s, 240, of_decide_eq_true hwaiting, ?_⟩
  exact waits_double .ascii watched s _ hexec 0 240 (of_decide_eq_true hwaiting)

/-! ### The report -/

/-- The task has been created, and has not ended. -/
def Scheduler.Alive (s : Scheduler) (i : ℕ) : Prop := i < s.shared.created ∧ s.locals i ≠ .done

instance (s : Scheduler) (i : ℕ) : Decidable (s.Alive i) := inferInstanceAs (Decidable (_ ∧ _))

/-- Nothing is started while a stop waits, except what runs already. -/
def KeepsReport (s : Scheduler) (m : Move ℕ LoopAction Control) : Prop :=
  (match m with
    | .env (.start _) => s.shared.running || s.shared.stopping.isEmpty
    | _ => true) = true

instance (s : Scheduler) (m : Move ℕ LoopAction Control) : Decidable (KeepsReport s m) :=
  inferInstanceAs (Decidable (_ = _))

/-- The invariant of the report. -/
structure Reported (s : Scheduler) : Prop where
  ended_iff : ∀ i, (∃ cancelled, (i, cancelled) ∈ s.shared.ended) ↔ s.locals i = .done
  unborn : ∀ i, s.shared.created ≤ i → s.locals i = .unborn
  cancelling : ∀ i ∈ s.shared.cancelling, i < s.shared.created
  task_lt : ∀ i, s.shared.task = some i → i < s.shared.created
  stopping_lt : ∀ i ∈ s.shared.stopping, i < s.shared.created
  alive : ∀ i, s.Alive i → s.shared.task = some i
  stopping : ∀ i ∈ s.shared.stopping, ∀ j, s.shared.task = some j → j = i

theorem hasEnded_iff : g.hasEnded i = true ↔ ∃ cancelled, (i, cancelled) ∈ g.ended := by
  simp [SchedulerState.hasEnded]

/-- What a step of a task does to the globals that the report is about. -/
structure SchedulerState.Reports (g g' : SchedulerState) (i : ℕ) (t' : LoopPhase) : Prop where
  task : g'.task = g.task
  created : g'.created = g.created
  stopping : g'.stopping = g.stopping
  cancelling : ∀ j ∈ g'.cancelling, j ∈ g.cancelling
  ended : ∀ j, (∃ cancelled, (j, cancelled) ∈ g'.ended) ↔
    (∃ cancelled, (j, cancelled) ∈ g.ended) ∨ j = i ∧ t' = .done

/-- A step that does not end the task. -/
theorem SchedulerState.Reports.of_eq (ht : t' ≠ .done) (htask : g'.task = g.task)
    (hcreated : g'.created = g.created) (hstopping : g'.stopping = g.stopping)
    (hcancelling : ∀ j ∈ g'.cancelling, j ∈ g.cancelling) (hended : g'.ended = g.ended) :
    g.Reports g' i t' where
  task := htask
  created := hcreated
  stopping := hstopping
  cancelling := hcancelling
  ended := by simp [hended, ht]

theorem SchedulerState.Reports.finish (g : SchedulerState) (cancelled : Bool) :
    g.Reports (g.finish i cancelled) i .done where
  task := rfl
  created := rfl
  stopping := rfl
  cancelling := fun j hj => (List.mem_filter.mp hj).1
  ended := by
    intro j
    simp only [SchedulerState.finish, List.mem_cons, Prod.mk.injEq, exists_or, and_true]
    constructor
    · rintro (⟨c, rfl, -⟩ | h)
      · exact .inr rfl
      · exact .inl h
    · rintro (h | rfl)
      · exact .inr h
      · exact .inl ⟨cancelled, rfl, rfl⟩

theorem SchedulerState.Reports.of_release (h : g.release.Reports g' i t') : g.Reports g' i t' :=
  ⟨h.task, h.created, h.stopping, h.cancelling, h.ended⟩

theorem Moves.reports (h : Moves texts settings i g a t g' t') : g.Reports g' i t' := by
  have hsame : ∀ j ∈ g.cancelling, j ∈ g.cancelling := fun _ hj => hj
  cases h with
  | finish | cancelledIdle => exact .finish g _
  | disposedCancelled | cancelledEnd => exact .of_release (.finish g.release true)
  | cancelledCycle =>
    exact .of_eq LoopPhase.noConfusion rfl rfl rfl (fun j hj => (List.mem_filter.mp hj).1) rfl
  | judged =>
    unfold SchedulerState.judge
    split <;> exact .of_eq LoopPhase.noConfusion rfl rfl rfl hsame rfl
  | _ => exact .of_eq LoopPhase.noConfusion rfl rfl rfl hsame rfl

/-- A task that moves has been created, and has not ended. -/
theorem Reported.alive_of_step {r : SchedulerState × LoopPhase} (h : Reported s)
    (hr : loopStep texts settings i a s.shared (s.locals i) = some r) : s.Alive i := by
  unfold loopStep at hr
  split at hr <;> rename_i hcancelling
  · refine ⟨h.cancelling i hcancelling, fun hdone => ?_⟩
    rw [hdone] at hr
    split at hr <;> cases hr
  · by_contra hdead
    rw [Scheduler.Alive, not_and_or, not_lt, not_not] at hdead
    rcases hdead with hcreated | hdone
    · rw [h.unborn i hcreated] at hr
      cases a <;> simp [advance, hcreated.not_gt] at hr
    · rw [hdone] at hr
      cases a <;> cases hr

/-- A step of a task keeps the report. -/
theorem Reported.act (h : Reported s)
    (hr : loopStep texts settings i a s.shared (s.locals i) = some (g, t)) :
    Reported ⟨g, Function.update s.locals i t⟩ := by
  obtain ⟨hcreated, halive⟩ := h.alive_of_step hr
  have hg := (Moves.of_loopStep hr).reports
  have hother {j : ℕ} (hj : j ≠ i) : Function.update s.locals i t j = s.locals j :=
    Function.update_of_ne hj t s.locals
  exact
    { ended_iff := by
        intro j
        rw [hg.ended j, h.ended_iff j]
        by_cases hj : j = i
        · subst hj
          simp [halive]
        · simp [hj]
      unborn := by
        intro j hj
        rw [hg.created] at hj
        exact (hother (by omega)).trans (h.unborn j hj)
      cancelling := fun j hj => hg.created ▸ h.cancelling j (hg.cancelling j hj)
      task_lt := fun j hj => hg.created ▸ h.task_lt j (hg.task ▸ hj)
      stopping_lt := fun j hj => hg.created ▸ h.stopping_lt j (hg.stopping ▸ hj)
      alive := by
        rintro j ⟨hlt, hj⟩
        rw [hg.task]
        by_cases hji : j = i
        · exact hji ▸ h.alive i ⟨hcreated, halive⟩
        · exact h.alive j ⟨hg.created ▸ hlt, hother hji ▸ hj⟩
      stopping := fun j hj k hk => h.stopping j (hg.stopping ▸ hj) k (hg.task ▸ hk) }

theorem running_iff : g.running = true ↔ ∃ i, g.task = some i ∧ ¬g.hasEnded i = true := by
  rw [SchedulerState.running, Option.any_eq_true]
  simp

theorem cancelTask_lt {n : ℕ} (h : ∀ j ∈ g.cancelling, j < n) (hi : i < n) :
    ∀ j ∈ (g.cancelTask i).cancelling, j < n := by
  unfold SchedulerState.cancelTask
  split
  · exact h
  · intro j hj
    rcases List.mem_cons.mp hj with rfl | hj
    · exact hi
    · exact h j hj

theorem stopped_lt {n : ℕ} (h : ∀ j ∈ g.cancelling, j < n) (htask : ∀ i, g.task = some i → i < n)
    (cancelled : Bool) : ∀ j ∈ (g.stopped cancelled).cancelling, j < n := by
  unfold SchedulerState.stopped
  split
  next => exact h
  next i hi => exact cancelTask_lt h (htask i hi)
  next => exact h

/-- While it is reported that nothing runs, nothing is alive. -/
theorem Reported.not_alive_of_not_running (h : Reported s) (hrunning : s.shared.running = false)
    (i : ℕ) : ¬s.Alive i := by
  intro hi
  have hrun : s.shared.running = true :=
    running_iff.mpr ⟨i, h.alive i hi, fun hended =>
      hi.2 ((h.ended_iff i).mp (hasEnded_iff.mp hended))⟩
  simp [hrunning] at hrun

/-- Once the task has ended that a stop waits for, nothing is alive. -/
theorem Reported.not_alive_of_ended {cancelled : Bool} (h : Reported s)
    (hi : i ∈ s.shared.stopping) (hended : (i, cancelled) ∈ s.shared.ended) (j : ℕ) :
    ¬s.Alive j := by
  intro hj
  obtain rfl := h.stopping i hi j (h.alive j hj)
  exact hj.2 ((h.ended_iff j).mp ⟨cancelled, hended⟩)

/-- A start creates the one task that is alive. -/
theorem Reported.started (h : Reported s) (hrunning : s.shared.running = false)
    (hstopping : s.shared.stopping = []) :
    Reported { s with
      shared :=
        { s.shared.clearFailurePause with
          stop := false
          task := some s.shared.created
          created := s.shared.created + 1 } } where
  ended_iff := h.ended_iff
  unborn := fun i hi => h.unborn i (Nat.le_of_succ_le hi)
  cancelling := fun i hi => Nat.lt_succ_of_lt (h.cancelling i hi)
  task_lt := by
    intro i hi
    obtain rfl := Option.some.inj hi
    exact Nat.lt_succ_self _
  stopping_lt := fun i hi => Nat.lt_succ_of_lt (h.stopping_lt i hi)
  alive := by
    rintro i ⟨hlt, hi⟩
    rcases Nat.lt_succ_iff_lt_or_eq.mp hlt with hlt | rfl
    · exact absurd ⟨hlt, hi⟩ (h.not_alive_of_not_running hrunning i)
    · rfl
  stopping := by
    intro i hi
    simp [SchedulerState.clearFailurePause, hstopping] at hi

/-- A stop waits for the task that it finds. -/
theorem Reported.stop (h : Reported s) :
    Reported { s with
      shared :=
        { s.shared with
          stop := true
          stopping := s.shared.stopping ++ s.shared.task.toList } } := by
  have hmem {i : ℕ} (hi : i ∈ s.shared.stopping ++ s.shared.task.toList) :
      i ∈ s.shared.stopping ∨ s.shared.task = some i := by
    simpa using hi
  exact
    { h with
      stopping_lt := fun i hi => (hmem hi).elim (h.stopping_lt i) (h.task_lt i)
      stopping := by
        intro i hi j hj
        rcases hmem hi with hi | hi
        · exact h.stopping i hi j hj
        · exact Option.some.inj (hj.symm.trans hi) }

/-- A stop that returns leaves no task. -/
theorem Reported.stopReturn {k : ℕ} {cancelled : Bool} (h : Reported s)
    (hi : s.shared.stopping[k]? = some i) (hended : (i, cancelled) ∈ s.shared.ended) :
    Reported { s with
      shared :=
        { s.shared with stopping := s.shared.stopping.eraseIdx k }.stopped cancelled } := by
  have hlt := stopped_lt (g := { s.shared with stopping := s.shared.stopping.eraseIdx k })
    h.cancelling h.task_lt cancelled
  obtain ⟨cancelling, hg⟩ := SchedulerState.stopped_eq
    { s.shared with stopping := s.shared.stopping.eraseIdx k } cancelled
  rw [hg] at hlt ⊢
  exact
    { h with
      cancelling := hlt
      task_lt := fun j hj => by cases hj
      stopping_lt := fun j hj => h.stopping_lt j (List.mem_of_mem_eraseIdx hj)
      alive := fun j hj =>
        absurd hj (h.not_alive_of_ended (List.mem_of_getElem? hi) hended j)
      stopping := fun _ _ j hj => by cases hj }

/-- A step of the rest of the process keeps the report. -/
theorem Reported.env {e : Control} (h : Reported s) (hok : KeepsReport s (.env e))
    (hc : Controls s.shared e g) : Reported { s with shared := g } := by
  cases hc with
  | ignored => exact h
  | started hrunning => exact h.started hrunning (by simpa [KeepsReport, hrunning] using hok)
  | stop => exact h.stop
  | @stopTimeout k i hi =>
    have hlt := cancelTask_lt h.cancelling (h.stopping_lt i (List.mem_of_getElem? hi))
    obtain ⟨cancelling, hg⟩ := s.shared.cancelTask_eq i
    rw [hg] at hlt ⊢
    exact { h with cancelling := hlt }
  | stopReturn hi hended => exact h.stopReturn hi hended
  | resume session => exact { h with }
  | flags => exact { h with }

theorem Reported.initial : Reported (Scheduler.initial settings) where
  ended_iff := by simp [Scheduler.initial]
  unborn := fun _ _ => rfl
  cancelling := by simp [Scheduler.initial]
  task_lt := by simp [Scheduler.initial]
  stopping_lt := by simp [Scheduler.initial]
  alive := by
    rintro i ⟨hlt, -⟩
    exact absurd hlt (Nat.not_lt_zero i)
  stopping := by simp [Scheduler.initial]

/-- **The report is right**, as long as nothing is started while a stop waits: at most one task is
alive, and it is reported that the scheduler runs exactly if one is. -/
theorem running_iff_alive (texts : Texts) (settings : Settings) (s : Scheduler)
    (h : Reachable (schedulerStep texts settings) KeepsReport (Scheduler.initial settings) s) :
    (∀ i j, s.Alive i → s.Alive j → i = j) ∧ (s.shared.running = true ↔ ∃ i, s.Alive i) := by
  have hreported : Reported s := by
    refine h.invariant .initial fun s m s' hs hok hstep => ?_
    cases m with
    | act i a =>
      obtain ⟨⟨g, t⟩, hr, rfl⟩ := Option.map_eq_some_iff.mp hstep
      exact hs.act hr
    | env e =>
      obtain ⟨g, hr, rfl⟩ := Option.map_eq_some_iff.mp hstep
      exact hs.env hok (Controls.of_control hr)
  constructor
  · intro i j hi hj
    exact Option.some.inj ((hreported.alive i hi).symm.trans (hreported.alive j hj))
  · rw [running_iff]
    constructor
    · rintro ⟨i, htask, hended⟩
      refine ⟨i, hreported.task_lt i htask, fun hdone => hended ?_⟩
      exact hasEnded_iff.mpr ((hreported.ended_iff i).mpr hdone)
    · rintro ⟨i, hi⟩
      refine ⟨i, hreported.alive i hi, fun hended => hi.2 ?_⟩
      exact (hreported.ended_iff i).mp (hasEnded_iff.mp hended)

/-- The scheduler is stopped and started again, and its second task is alive. -/
theorem running_iff_alive_watched : ∃ s : Scheduler,
    s.Alive 1 ∧ s.shared.running = true ∧ ∀ i, s.Alive i → i = 1 := by
  obtain ⟨s, hs, halive⟩ :
      ∃ s : Scheduler, Reachable (schedulerStep .ascii watched) KeepsReport
        (Scheduler.initial watched) s ∧ s.Alive 1 :=
    exists_reachable
      [.env (.start false), .act 0 (.turn 0), .env .stop, .act 0 (.resolved false),
        .env (.stopTimeout 0), .act 0 .cancelled, .act 0 (.disposed false), .env (.stopReturn 0),
        .env (.start false)] (by decide +kernel) (by decide +kernel)
  obtain ⟨hunique, hrunning⟩ := running_iff_alive .ascii watched s hs
  exact ⟨s, halive, hrunning.mpr ⟨1, halive⟩, fun i hi => hunique i 1 hi halive⟩

/-- A start between the end of a task and the return of the stop that waits for it: the new task
is forgotten, and is alive while it is reported that nothing runs. -/
example : ((exec (schedulerStep .ascii watched) (Scheduler.initial watched)
    [.env (.start false), .env .stop, .act 0 (.turn 0), .env (.start false),
      .env (.stopReturn 0)]).any fun s =>
        !s.shared.running && decide (Scheduler.Alive s 1)) = true := by
  decide +kernel

end Server

end Atlas
