import Mathlib.Data.Fintype.Basic
import Atlas.Session.Tasks

/-!
# The kill switch

The kill switch of the session is read at every manual order, and copied into the
orchestrator before every call of a cycle.  A call that has its copy goes through several
awaits before it evaluates its candle, and it is the copy that its order is shown.  An
operator who sets the switch in between is not heard: the order is submitted with the
switch of the session on.

The switch holds if it is set between the calls, so that no call stands between its copy
and its evaluation with a copy that is off, and if no call starts on a cached
orchestrator without copying.  The callers with a copy of their own need no more: what
they copy while the switch is on is on.

## Main definitions

* `CyclePhase.copied` — the orchestrator whose copy a call is going to use.
* `SetBetweenCalls` — the condition on a step.

## Main results

* `kill_switch_obeyed` — **in runs that meet it no order is submitted while the switch is
  on**.
* `kill_switch_missed` — the scheduler's order goes through.

## References

`app/services/paper_session.py`, `app/services/trading_scheduler.py`,
`app/services/trading_orchestrator.py`, `app/services/paper_cycle.py`.
-/

namespace Atlas

open Paper Session Interleaving Transition

/-- The orchestrator whose copy of the kill switch the call is going to use. -/
def CyclePhase.copied : CyclePhase → Option String
  | .attached key => some key
  | .running key => some key
  | _ => none

variable {d : Deployment} {ι : Type*} {s : Tasks ι}

/-- The kill switch is set while every copy that is going to be used is on; and while it is
on, no call takes a cached orchestrator with a copy that is off. -/
def SetBetweenCalls (s : Tasks ι) : Move ι TaskAction ProcessEvent → Prop
  | .env (.setKillSwitch true) => ∀ i, ∀ key ∈ (s.locals i).copied, s.shared.copies.get? key = some true
  | .act i .attach =>
      match s.locals i with
      | .admitted .soak key =>
          s.shared.session.killSwitchEnabled = true → s.shared.copies.get? key ≠ some false
      | _ => True
  | _ => True

instance [Fintype ι] : (m : Move ι TaskAction ProcessEvent) → Decidable (SetBetweenCalls s m)
  | .env (.setKillSwitch true) => inferInstanceAs (Decidable (∀ i, ∀ key ∈ _, _ = some true))
  | .act i .attach => by
      dsimp only [SetBetweenCalls]
      split <;> infer_instance
  | .env (.setKillSwitch false) | .env (.placeOrder ..) | .env (.closePass ..)
  | .env (.persist _) | .env (.setMarkPrice ..) | .env (.cancel ..) | .env .reconcile
  | .env (.health _) | .env (.ready _) | .env (.setPaused _) | .env .operatorReconcile
  | .env .clearHalt | .act _ (.start ..) | .act _ .enter | .act _ (.warm _)
  | .act _ (.evaluate _) | .act _ (.check _) | .act _ (.store _) | .act _ (.reconcile _)
  | .act _ .leave => inferInstanceAs (Decidable True)

/-! ### The copies -/

/-- While the switch is on, the copy the call is going to use is on. -/
def CopyOn (p : Process) (phase : CyclePhase) : Prop :=
  ∀ key ∈ phase.copied, p.session.killSwitchEnabled = true → p.copies.get? key = some true

theorem CopyOn.of_none {p : Process} {phase : CyclePhase} (h : phase.copied = none) :
    CopyOn p phase := fun key hkey => by rw [h] at hkey; cases hkey

/-- A step that leaves the switch and the copies leaves what a call has. -/
theorem CopyOn.of_same {p p' : Process} {phase : CyclePhase} (h : CopyOn p phase)
    (hkill : p'.session.killSwitchEnabled = p.session.killSwitchEnabled)
    (hcopies : p'.copies = p.copies) : CopyOn p' phase := by
  intro key hkey hon
  rw [hcopies]
  exact h key hkey (hkill ▸ hon)

/-- A caller that copies leaves a copy that agrees with the switch, and no other. -/
theorem CopyOn.attach {p : Process} {phase : CyclePhase} (h : CopyOn p phase) (caller : Caller)
    (key : String) : CopyOn (p.attach caller key) phase := by
  unfold Process.attach
  split_ifs
  · exact h
  · intro k hk hon
    simp only [Dict.get?_set]
    split_ifs
    · exact congrArg some hon
    · exact h k hk hon

/-- The copy of a call that has just attached. -/
theorem copyOn_attached {p : Process} {caller : Caller} {key : String}
    (hok : caller = .soak → p.session.killSwitchEnabled = true → p.copies.get? key ≠ some false) :
    CopyOn (p.attach caller key) (.attached key) := by
  intro k hk hon
  cases hk
  unfold Process.attach at hon ⊢
  split_ifs at hon ⊢ with hreuse
  · obtain ⟨b, hb⟩ := Option.isSome_iff_exists.mp hreuse.2
    have hne : p.copies.get? key ≠ some false := hok hreuse.1 hon
    rw [hb] at hne ⊢
    cases b with
    | false => exact absurd rfl hne
    | true => rfl
  · rw [Dict.get?_set_self]
    exact congrArg some hon

/-- What failing closed and reconciling leave alone. -/
theorem runPaperReconciliation_controls (p : Process) :
    (p.runPaperReconciliation d).session.killSwitchEnabled = p.session.killSwitchEnabled ∧
      (p.runPaperReconciliation d).copies = p.copies := by
  simp only [Process.runPaperReconciliation]
  split_ifs <;> exact ⟨rfl, rfl⟩

/-- **A step of a task leaves the copies of the others**, and its own is on if it attaches
under the condition. -/
theorem taskStep_copyOn {i : ι} {a : TaskAction} {r : Process × CyclePhase}
    (hok : SetBetweenCalls s (.act i a)) (h : taskStep d a s.shared (s.locals i) = some r) :
    (∀ phase, CopyOn s.shared phase → CopyOn r.1 phase) ∧
      (CopyOn s.shared (s.locals i) → CopyOn r.1 r.2) := by
  have hgoes : TaskGoes d s.shared a (s.locals i) r := taskStep_goes h
  have hfail : ∀ phase, CopyOn s.shared phase → CopyOn s.shared.failClosedPersistence phase :=
    fun _ h => h.of_same rfl rfl
  generalize hphase : s.locals i = phase at hgoes
  cases hgoes with
  | start caller key =>
    refine ⟨fun _ => id, fun _ => .of_none ?_⟩
    split_ifs <;> rfl
  | attach caller key =>
    simp only [SetBetweenCalls, hphase] at hok
    refine ⟨fun _ h => h.attach caller key, fun _ => copyOn_attached ?_⟩
    rintro rfl
    exact hok
  | enter key =>
    refine ⟨fun _ => id, fun h => ?_⟩
    split_ifs
    · exact .of_none rfl
    · exact h
  | warm key input =>
    have hkill := (@Runtime.primed_controls d s.shared.session input).1
    exact ⟨fun _ h => h.of_same hkill rfl, fun h => h.of_same hkill rfl⟩
  | evaluate key input =>
    -- past its evaluation a call does not use the copy again
    exact ⟨fun _ h => h.of_same Runtime.processCandle_controls.1 rfl, fun _ => .of_none rfl⟩
  | check raises =>
    refine ⟨fun phase h => ?_, fun _ => .of_none rfl⟩
    unfold Process.checkInvariants
    split_ifs
    · exact hfail phase h
    · exact h
  | store raises =>
    refine ⟨fun phase h => ?_, fun _ => .of_none rfl⟩
    split_ifs
    · exact hfail phase h
    · exact h
  | reconcile raises =>
    refine ⟨fun phase h => ?_, fun _ => .of_none rfl⟩
    split_ifs
    · exact hfail phase h
    · exact h.of_same (runPaperReconciliation_controls s.shared).1
        (runPaperReconciliation_controls s.shared).2
  | leave => exact ⟨fun _ => id, fun _ => .of_none rfl⟩

/-- **A step of anything else leaves the copies on**, if the switch is set under the
condition. -/
theorem eventStep_copyOn {e : ProcessEvent} {i : ι} (hok : SetBetweenCalls s (.env e))
    (h : CopyOn s.shared (s.locals i)) : CopyOn (eventStep d e s.shared) (s.locals i) := by
  cases e with
  | placeOrder args key around => exact h.of_same Runtime.placeOrder_controls.1 rfl
  | closePass symbol key around => exact h.of_same Runtime.closePass_controls.1 rfl
  | persist raises => cases raises <;> exact h.of_same rfl rfl
  | setMarkPrice symbol price now => exact h.of_same rfl rfl
  | cancel orderId now => exact h.of_same rfl rfl
  | reconcile =>
    exact h.of_same (runPaperReconciliation_controls s.shared).1
      (runPaperReconciliation_controls s.shared).2
  | health probe => cases probe <;> exact h.of_same rfl rfl
  | ready probe => exact h.of_same rfl rfl
  | setKillSwitch enabled =>
    cases enabled with
    -- with the switch off nothing is claimed of the copies
    | false => exact fun _ _ hon => by cases hon
    | true => exact fun key hkey _ => hok i key hkey
  | setPaused paused => exact h.of_same rfl rfl
  | operatorReconcile =>
    exact h.of_same (runPaperReconciliation_controls s.shared).1
      (runPaperReconciliation_controls s.shared).2
  | clearHalt => exact h.of_same rfl rfl

variable [DecidableEq ι]

/-- In a run that meets the condition, every copy that is going to be used is on while the
switch is. -/
theorem copyOn_of_reachable
    (h : Reachable (processStep d) SetBetweenCalls (Tasks.initial d ι) s) (i : ι) :
    CopyOn s.shared (s.locals i) := by
  have hinv : Holds (fun _ => True) (fun _ => CopyOn) (fun _ _ _ _ => True) s :=
    Holds.reachable h ⟨trivial, fun _ => .of_none rfl, fun _ => trivial⟩
      (fun s i a p phase hs hok hstep =>
        have hcopies := taskStep_copyOn hok hstep
        ⟨trivial, hcopies.2 (hs.each i), fun j _ => hcopies.1 _ (hs.each j),
          fun _ _ => ⟨trivial, trivial⟩⟩)
      (fun s e p hs hok hstep => by
        rw [← Option.some.inj hstep]
        exact ⟨trivial, fun j => eventStep_copyOn hok (hs.each j)⟩)
  exact hinv.each i

/-! ### Orders -/

/-- **No order is submitted while the kill switch is on**, whatever step comes next, in a
run in which it is set between the calls. -/
theorem kill_switch_obeyed
    (h : Reachable (processStep d) SetBetweenCalls (Tasks.initial d ι) s)
    (hon : s.shared.session.killSwitchEnabled = true) (m : Move ι TaskAction ProcessEvent) :
    NoOrder (moveOps d s m) := by
  refine moveOps_noOrder (fun _ => .inl hon) (fun i key hphase input => .inl ?_) m
  have hcopy : CopyOn s.shared (.running key) := hphase ▸ copyOn_of_reachable h i
  show (s.shared.copies.get? key).getD false = true
  rw [hcopy key rfl hon, Option.getD_some]

/-- The scheduler copies the switch and starts its call. -/
def schedulerAttached : List (Move Unit TaskAction ProcessEvent) :=
  [.act () (.start .scheduler "ema_crossover:BTC/USDT"), .act () .attach]

/-- The switch is set once the scheduler's call has evaluated its candle. -/
theorem kill_switch_obeyed_after_candle :
    let d := Runtime.exactDeployment
    ∃ s : Tasks Unit, Reachable (processStep d) SetBetweenCalls (Tasks.initial d Unit) s ∧
      s.shared.session.killSwitchEnabled = true ∧ s.shared.session.paper.fills ≠ [] ∧
      NoOrder (moveOps d s (.act () (.evaluate Runtime.buyCycle))) := by
  intro d
  obtain ⟨s, hs, hon, hfills⟩ : ∃ s : Tasks Unit,
      Reachable (processStep d) SetBetweenCalls (Tasks.initial d Unit) s ∧
      s.shared.session.killSwitchEnabled = true ∧ s.shared.session.paper.fills ≠ [] :=
    exists_reachable
      (schedulerAttached ++ [.act () .enter, .act () (.evaluate Runtime.buyCycle),
        .env (.setKillSwitch true)])
      (by decide +kernel) (by decide +kernel)
  exact ⟨s, hs, hon, hfills, kill_switch_obeyed hs hon _⟩

/-- **The switch is missed.**  It is set while the scheduler's call, which has its copy, is
under way: the order that the call then sends is submitted. -/
theorem kill_switch_missed :
    let d := Runtime.exactDeployment
    ∃ s : Tasks Unit, Reachable (processStep d) (fun _ _ => True) (Tasks.initial d Unit) s ∧
      s.shared.session.killSwitchEnabled = true ∧
      ¬NoOrder (moveOps d s (.act () (.evaluate Runtime.buyCycle))) := by
  intro d
  exact exists_reachable
    (schedulerAttached ++ [.act () .enter, .env (.setKillSwitch true)])
    (by decide +kernel) (by decide +kernel)

end Atlas
