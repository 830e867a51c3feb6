import Mathlib.Data.Fintype.Basic
import Atlas.Lib.Interleaving
import Atlas.Session.Database

/-!
# The durable kill switch

The kill switch is stored in two places: in its own row of the system state, and as a flag
of the risk state.  A call of `set_kill_switch` spawns a task, which saves the row over a
connection of its own, and leaves the flag; `persist_paper_session` writes both, each as
it finds the switch on its way to the one commit.  A restart takes the row, and is on as
well if the flag is.

Nothing orders the tasks, so an older call can be saved last; and a flag that was
persisted on stays on when the switch is released.  The restart follows the operator as
long as neither happens: a save never replaces a newer call's other value, no call
releases the switch while the flag is on, and no persist commits a flag that has been
released.

## Main definitions

* `SwitchState`, `SwitchStage` — what the tasks share, and where a task stands.
* `switchStep` — one step of a call, of a task or of a persist.
* `InOrder` — the condition on a step.

## Main results

* `hydrate_killSwitch` — what a restart makes of the two places.
* `switchStep_keeps` — what a step keeps.
* `kill_switch_durable` — **in runs in order a restart has the last call's value**.
* `older_call_saved_last`, `flag_left_on` — two runs after which it has not.

## References

`app/services/paper_session.py`, `app/services/paper_persistence.py`.
-/

namespace Atlas

open Session Interleaving Transition

/-! ### What is read back -/

/-- **What a restart makes of the two places.** -/
theorem hydrate_killSwitch (cfg : PaperConfig) (s : Session) (db : Database) (now : Time) :
    (hydrate cfg s db now).killSwitchEnabled =
      (db.riskState.any RiskRow.killSwitchEnabled ||
        db.killSwitch.getD s.killSwitchEnabled) := by
  obtain ⟨row, halt, checkpoint, riskState, orders, fills, keys⟩ := db
  cases row <;> cases halt <;> cases checkpoint <;> cases riskState <;>
    simp [hydrate, hydrateRisk, seedKeys, hydrateOrders, hydrateFills, hydrateLedger,
      hydrateCheckpoint, raisePeak]

/-! ### Tasks -/

/-- The switch of the session, and the database.  `calls` counts the calls; `savedCall` is
the latest call whose value the row of the switch has, and `lastTask` the task of the last
call. -/
structure SwitchState (ι : Type*) where
  killSwitchEnabled : Bool
  db : Database
  calls : ℕ := 0
  savedCall : ℕ := 0
  lastTask : Option ι := none

/-- Where a task stands: `call` is the call whose value it has. -/
inductive SwitchStage
  | idle
  /-- The task of a call is created. -/
  | spawned (call : ℕ) (enabled : Bool)
  /-- It has looked for the row. -/
  | read (call : ℕ) (enabled found : Bool)
  /-- The row is committed. -/
  | saved
  /-- The event is committed. -/
  | recorded
  /-- A persist has staged the row. -/
  | staged (call : ℕ) (enabled found : Bool)
  /-- It has staged the flag. -/
  | flagged (call : ℕ) (enabled found flag : Bool)
  deriving DecidableEq, Repr

/-- What happens next in a task. -/
inductive SwitchAction
  | setKillSwitch (enabled : Bool)
  | get
  | save
  | recordEvent
  | auditEvent
  | persist
  | stageRisk
  /-- The commit of a persist, with the session it has read. -/
  | commit (session : Session)

/-- The task is that of a call, and has not finished. -/
def SwitchStage.Running : SwitchStage → Prop
  | .spawned .. | .read .. | .saved | .recorded => True
  | _ => False

instance (stage : SwitchStage) : Decidable stage.Running := by
  cases stage <;> unfold SwitchStage.Running <;> infer_instance

/-- The call that the task has still to save. -/
def SwitchStage.unsaved : SwitchStage → Option ℕ
  | .spawned call _ => some call
  | .read call _ _ => some call
  | _ => none

/-- The call and the value that the task has. -/
def SwitchStage.value : SwitchStage → Option (ℕ × Bool)
  | .spawned call enabled => some (call, enabled)
  | .read call enabled _ => some (call, enabled)
  | .staged call enabled _ => some (call, enabled)
  | .flagged call enabled _ _ => some (call, enabled)
  | _ => none

variable {ι : Type*}

/-- The row is saved with the value of a call. -/
def SwitchState.saveRow (g : SwitchState ι) (call : ℕ) (enabled : Bool) : SwitchState ι :=
  { g with
    db := { g.db with killSwitch := some enabled }
    savedCall := max g.savedCall call }

/-- The commit of a persist: the row and the flag have the values that were staged. -/
def SwitchState.commitPersist (column : ℚ → ℚ) (g : SwitchState ι) (session : Session)
    (call : ℕ) (enabled flag : Bool) : SwitchState ι :=
  SwitchState.saveRow
    { g with db := { session with killSwitchEnabled := flag }.persist column g.db } call enabled

/-- A row that was not found is not there: a second one would be refused. -/
def SwitchState.accepts (g : SwitchState ι) (found : Bool) : Prop :=
  found = true ∨ g.db.killSwitch = none

instance (g : SwitchState ι) (found : Bool) : Decidable (g.accepts found) :=
  inferInstanceAs (Decidable (_ ∨ _))

/-- The next step of a task. -/
def switchStep (column : ℚ → ℚ) (i : ι) (a : SwitchAction) (g : SwitchState ι)
    (stage : SwitchStage) : Option (SwitchState ι × SwitchStage) :=
  match a, stage with
  | .setKillSwitch enabled, .idle =>
      some
        ({ g with killSwitchEnabled := enabled, calls := g.calls + 1, lastTask := some i },
          .spawned (g.calls + 1) enabled)
  | .get, .spawned call enabled => some (g, .read call enabled g.db.killSwitch.isSome)
  | .save, .read call enabled found =>
      if g.accepts found then some (g.saveRow call enabled, .saved) else none
  | .recordEvent, .saved => some (g, .recorded)
  | .auditEvent, .recorded => some (g, .idle)
  | .persist, .idle => some (g, .staged g.calls g.killSwitchEnabled g.db.killSwitch.isSome)
  -- the switch is read again, and may have been set in between
  | .stageRisk, .staged call enabled found =>
      some (g, .flagged call enabled found g.killSwitchEnabled)
  | .commit session, .flagged call enabled found flag =>
      if g.accepts found then some (g.commitPersist column session call enabled flag, .idle)
      else none
  | _, _ => none

/-- Nothing else writes the switch. -/
def noOtherSwitch (e : Empty) (_ : SwitchState ι) : Option (SwitchState ι) := nomatch e

/-- The tasks, and the state they share. -/
abbrev Switches (ι : Type*) := Joint ι (SwitchState ι) SwitchStage

/-- A session and its database, before any call. -/
def uncalled (ι : Type*) (enabled : Bool) (db : Database) : Switches ι :=
  ⟨{ killSwitchEnabled := enabled, db := db }, fun _ => .idle⟩

/-- The save does not replace the other value of a newer call. -/
def SwitchState.Newest (g : SwitchState ι) (call : ℕ) (enabled : Bool) : Prop :=
  g.savedCall ≤ call ∨ g.db.killSwitch = some enabled

instance (g : SwitchState ι) (call : ℕ) (enabled : Bool) : Decidable (g.Newest call enabled) :=
  inferInstanceAs (Decidable (_ ∨ _))

/-- The condition on a step: the saves are in the order of the calls, and the flag is off
when the switch is released, and stays off. -/
def InOrder (s : Switches ι) : Move ι SwitchAction Empty → Prop
  | .act _ (.setKillSwitch false) => s.shared.db.riskState.any RiskRow.killSwitchEnabled = false
  | .act i .save =>
      match s.locals i with
      | .read call enabled _ => s.shared.Newest call enabled
      | _ => True
  | .act i (.commit _) =>
      match s.locals i with
      | .flagged call enabled _ flag =>
          s.shared.Newest call enabled ∧ (flag = true → s.shared.killSwitchEnabled = true)
      | _ => True
  | _ => True

instance (s : Switches ι) (m : Move ι SwitchAction Empty) : Decidable (InOrder s m) := by
  unfold InOrder
  split
  · infer_instance
  · split <;> infer_instance
  · split <;> infer_instance
  · infer_instance

/-! ### The invariant -/

/-- The row with the last call's value has the value of the session, and the flag is on
only if the session is. -/
structure Followed (g : SwitchState ι) : Prop where
  called : 0 < g.calls → g.lastTask.isSome = true
  saved_le : g.savedCall ≤ g.calls
  row : 0 < g.calls → g.savedCall = g.calls → g.db.killSwitch = some g.killSwitchEnabled
  flag : 0 < g.calls → g.db.riskState.any RiskRow.killSwitchEnabled = true →
    g.killSwitchEnabled = true

/-- The task of the last call has saved it, or is going to; and a task that has the last
call's value has the session's. -/
structure TaskInv (i : ι) (g : SwitchState ι) (stage : SwitchStage) : Prop where
  last : g.lastTask = some i → g.savedCall = g.calls ∨ stage.unsaved = some g.calls
  value : ∀ {call enabled}, stage.value = some (call, enabled) →
    call ≤ g.calls ∧ (call = g.calls → enabled = g.killSwitchEnabled)

/-- The invariant of the tasks. -/
abbrev SwitchesInv : Switches ι → Prop := Holds Followed TaskInv (fun _ _ _ _ => True)

/-- What a step owes the invariant. -/
abbrev KeepsSwitches : Switches ι → ι → SwitchState ι → SwitchStage → Prop :=
  Keeps Followed TaskInv (fun _ _ _ _ => True)

variable {column : ℚ → ℚ} {s : Switches ι} {i j : ι} {g g' : SwitchState ι}
  {stage stage' : SwitchStage}

/-- A step that leaves what is shared, and does not forget its call. -/
theorem keeps_of_unshared (h : SwitchesInv s)
    (hlast : stage'.unsaved = (s.locals i).unsaved)
    (hvalue : ∀ v, stage'.value = some v →
      (s.locals i).value = some v ∨ v = (s.shared.calls, s.shared.killSwitchEnabled)) :
    KeepsSwitches s i s.shared stage' where
  shared := h.shared
  self :=
    { last := by
        rw [hlast]
        exact (h.each i).last
      value := fun hv => by
        rcases hvalue _ hv with hold | hnew
        · exact (h.each i).value hold
        · rw [Prod.mk.injEq] at hnew
          exact ⟨hnew.1.le, fun _ => hnew.2⟩ }
  other := fun j _ => h.each j
  pair := fun _ _ => ⟨trivial, trivial⟩

/-- A save in order leaves the value of the last call in the row, once it is there. -/
theorem Followed.saveRow {call : ℕ} {enabled : Bool} (h : Followed g) (hcall : call ≤ g.calls)
    (hvalue : call = g.calls → enabled = g.killSwitchEnabled) (hnewest : g.Newest call enabled) :
    Followed (g.saveRow call enabled) where
  called := h.called
  saved_le := max_le h.saved_le hcall
  row := by
    intro hcalled hlast
    show some enabled = some g.killSwitchEnabled
    rcases hnewest with hle | hsame
    · have hmax : max g.savedCall call = g.calls := hlast
      rw [max_eq_right hle] at hmax
      rw [hvalue hmax]
    · -- the row had this value before: it is the last call's value, or this call is the last
      rcases max_choice g.savedCall call with hmax | hmax
      · rw [← hsame]
        exact h.row hcalled (hmax.symm.trans hlast)
      · rw [hvalue (hmax.symm.trans hlast)]
  flag := h.flag

/-- A save disturbs no other task. -/
theorem TaskInv.saveRow {call : ℕ} {enabled : Bool} (h : TaskInv j g stage) (hcall : call ≤ g.calls) :
    TaskInv j (g.saveRow call enabled) stage where
  last := by
    intro hlast
    refine (h.last hlast).imp_left fun hsaved => ?_
    show max g.savedCall call = g.calls
    rw [hsaved]
    exact max_eq_left hcall
  value := h.value

/-- **A call of the operator.** -/
theorem setKillSwitch_keeps {enabled : Bool} (h : SwitchesInv s)
    (hok : InOrder s (.act i (.setKillSwitch enabled))) :
    KeepsSwitches s i
      { s.shared with
        killSwitchEnabled := enabled, calls := s.shared.calls + 1, lastTask := some i }
      (.spawned (s.shared.calls + 1) enabled) where
  shared :=
    { called := fun _ => rfl
      saved_le := h.shared.saved_le.trans (Nat.le_succ _)
      row := by
        intro _ hsaved
        have hle : s.shared.savedCall ≤ s.shared.calls := h.shared.saved_le
        have heq : s.shared.savedCall = s.shared.calls + 1 := hsaved
        omega
      flag := by
        intro _ hflag
        cases enabled with
        | true => rfl
        | false =>
          have hoff : s.shared.db.riskState.any RiskRow.killSwitchEnabled = false := hok
          rw [hoff] at hflag
          cases hflag }
  self :=
    { last := fun _ => .inr rfl
      value := fun hv => by
        simp only [SwitchStage.value, Option.some.injEq, Prod.mk.injEq] at hv
        exact ⟨hv.1.ge, fun _ => hv.2.symm⟩ }
  other := by
    intro j hj
    refine ⟨fun hlast => absurd (Option.some.inj hlast).symm hj, fun hv => ?_⟩
    obtain ⟨hle, -⟩ := (h.each j).value hv
    refine ⟨hle.trans (Nat.le_succ _), fun heq => ?_⟩
    have hlast : _ = s.shared.calls + 1 := heq
    omega
  pair := fun _ _ => ⟨trivial, trivial⟩

/-- **A task saves its row**, in order. -/
theorem save_keeps {call : ℕ} {enabled found : Bool} (h : SwitchesInv s)
    (hst : s.locals i = .read call enabled found) (hnewest : s.shared.Newest call enabled) :
    KeepsSwitches s i (s.shared.saveRow call enabled) .saved := by
  obtain ⟨hcall, hvalue⟩ := (h.each i).value (by rw [hst]; rfl : _ = some (call, enabled))
  refine ⟨h.shared.saveRow hcall hvalue hnewest, ⟨fun hlast => .inl ?_, nofun⟩,
    fun j _ => (h.each j).saveRow hcall, fun _ _ => ⟨trivial, trivial⟩⟩
  -- the task of the last call saves this call
  show max s.shared.savedCall call = s.shared.calls
  rcases (h.each i).last hlast with hsaved | hunsaved
  · rw [hsaved]
    exact max_eq_left hcall
  · rw [hst, SwitchStage.unsaved, Option.some.injEq] at hunsaved
    rw [hunsaved]
    exact max_eq_right h.shared.saved_le

/-- **A persist commits**, in order. -/
theorem commit_keeps {session : Session} {call : ℕ} {enabled found flag : Bool}
    (h : SwitchesInv s) (hst : s.locals i = .flagged call enabled found flag)
    (hnewest : s.shared.Newest call enabled)
    (hflag : flag = true → s.shared.killSwitchEnabled = true) :
    KeepsSwitches s i (s.shared.commitPersist column session call enabled flag) .idle := by
  obtain ⟨hcall, hvalue⟩ := (h.each i).value (by rw [hst]; rfl : _ = some (call, enabled))
  have hrow : Followed (s.shared.saveRow call enabled) := h.shared.saveRow hcall hvalue hnewest
  have hother : ∀ j, TaskInv j (s.shared.saveRow call enabled) (s.locals j) :=
    fun j => (h.each j).saveRow hcall
  refine ⟨⟨hrow.called, hrow.saved_le, hrow.row, fun _ hon => hflag hon⟩, ⟨fun hlast => .inl ?_, nofun⟩,
    fun j _ => ⟨(hother j).last, (hother j).value⟩, fun _ _ => ⟨trivial, trivial⟩⟩
  -- a persist has no call to save, so the last one is saved already
  show max s.shared.savedCall call = s.shared.calls
  rcases (h.each i).last hlast with hsaved | hunsaved
  · rw [hsaved]
    exact max_eq_left hcall
  · rw [hst] at hunsaved
    cases hunsaved

/-- **What a step keeps**, in order. -/
theorem switchStep_keeps {a : SwitchAction} (h : SwitchesInv s) (hok : InOrder s (.act i a))
    (hstep : switchStep column i a s.shared (s.locals i) = some (g', stage')) :
    KeepsSwitches s i g' stage' := by
  cases hst : s.locals i with
  | idle =>
    cases a <;> simp only [hst, switchStep, Option.some.injEq, Prod.mk.injEq, reduceCtorEq] at hstep
    all_goals obtain ⟨rfl, rfl⟩ := hstep
    · exact setKillSwitch_keeps h hok
    · refine keeps_of_unshared h (by rw [hst]; rfl) fun v hv => .inr ?_
      simpa [SwitchStage.value] using hv.symm
  | spawned call enabled =>
    cases a <;> simp only [hst, switchStep, Option.some.injEq, Prod.mk.injEq, reduceCtorEq] at hstep
    obtain ⟨rfl, rfl⟩ := hstep
    exact keeps_of_unshared h (by rw [hst]; rfl) fun v hv => .inl (by rw [hst]; exact hv)
  | read call enabled found =>
    cases a <;> simp only [hst, switchStep, reduceCtorEq] at hstep
    split_ifs at hstep
    simp only [Option.some.injEq, Prod.mk.injEq] at hstep
    obtain ⟨rfl, rfl⟩ := hstep
    simp only [InOrder, hst] at hok
    exact save_keeps h hst hok
  | saved =>
    cases a <;> simp only [hst, switchStep, Option.some.injEq, Prod.mk.injEq, reduceCtorEq] at hstep
    obtain ⟨rfl, rfl⟩ := hstep
    exact keeps_of_unshared h (by rw [hst]; rfl) nofun
  | recorded =>
    cases a <;> simp only [hst, switchStep, Option.some.injEq, Prod.mk.injEq, reduceCtorEq] at hstep
    obtain ⟨rfl, rfl⟩ := hstep
    exact keeps_of_unshared h (by rw [hst]; rfl) nofun
  | staged call enabled found =>
    cases a <;> simp only [hst, switchStep, Option.some.injEq, Prod.mk.injEq, reduceCtorEq] at hstep
    obtain ⟨rfl, rfl⟩ := hstep
    exact keeps_of_unshared h (by rw [hst]; rfl) fun v hv => .inl (by rw [hst]; exact hv)
  | flagged call enabled found flag =>
    cases a <;> simp only [hst, switchStep, reduceCtorEq] at hstep
    split_ifs at hstep
    simp only [Option.some.injEq, Prod.mk.injEq] at hstep
    obtain ⟨rfl, rfl⟩ := hstep
    simp only [InOrder, hst] at hok
    exact commit_keeps h hst hok.1 hok.2

variable [DecidableEq ι]

/-- **A restart has the last call's value**: in every run in order, in which a call has
been made and the tasks of all calls have finished. -/
theorem kill_switch_durable {enabled : Bool} {db : Database}
    (h : Reachable (next (switchStep column) noOtherSwitch) InOrder (uncalled ι enabled db) s)
    (hcalled : 0 < s.shared.calls) (hdone : ∀ i, ¬(s.locals i).Running)
    (settings : RiskSettings) (cfg : PaperConfig) (draws : ℕ) (now : Time) :
    (hydrate cfg (restarted cfg settings draws) s.shared.db now).killSwitchEnabled =
      s.shared.killSwitchEnabled := by
  have hI : SwitchesInv s := by
    refine Holds.reachable h ⟨⟨nofun, le_rfl, nofun, nofun⟩, fun _ => ⟨nofun, nofun⟩,
      fun _ => trivial⟩ ?_ ?_
    · exact fun s i a g stage hs hok hstep => switchStep_keeps hs hok hstep
    · exact fun _ e => nomatch e
  -- the task of the last call has finished, so the row has the last call's value
  obtain ⟨i, hlast⟩ := Option.isSome_iff_exists.mp (hI.shared.called hcalled)
  have hsaved : s.shared.savedCall = s.shared.calls := by
    refine ((hI.each i).last hlast).resolve_right fun hunsaved => hdone i ?_
    generalize s.locals i = stage at hunsaved ⊢
    cases stage with
    | spawned | read => trivial
    | _ => cases hunsaved
  rw [hydrate_killSwitch, hI.shared.row hcalled hsaved, Option.getD_some]
  cases hflag : s.shared.db.riskState.any RiskRow.killSwitchEnabled with
  | false => exact Bool.false_or _
  | true => rw [hI.shared.flag hcalled hflag, Bool.true_or]

/-! ### Runs of two tasks -/

/-- A database with the switch off. -/
def switchedOff : Database := { killSwitch := some false }

/-- What a task of a call has left to do, once it has looked for the row. -/
def finishTask (i : Bool) : List (Move Bool SwitchAction Empty) :=
  [.act i .save, .act i .recordEvent, .act i .auditEvent]

/-- The switch is set and released, and the saves are in the order of the calls. -/
theorem kill_switch_durable_released :
    ∃ s, Reachable (next (switchStep id) noOtherSwitch) InOrder (uncalled Bool false switchedOff) s ∧
      s.shared.calls = 2 ∧ s.shared.killSwitchEnabled = false ∧
      (hydrate {} (restarted {} {} 0) s.shared.db 0).killSwitchEnabled =
        s.shared.killSwitchEnabled := by
  obtain ⟨s, hreach, hcalls, hoff, hdone⟩ :
      ∃ s, Reachable (next (switchStep id) noOtherSwitch) InOrder (uncalled Bool false switchedOff) s ∧
        s.shared.calls = 2 ∧ s.shared.killSwitchEnabled = false ∧ ∀ i, ¬(s.locals i).Running :=
    exists_reachable
      ([.act false (.setKillSwitch true), .act true (.setKillSwitch false), .act false .get,
        .act true .get] ++ finishTask false ++ finishTask true)
      (by decide +kernel) (by decide +kernel)
  exact ⟨s, hreach, hcalls, hoff, kill_switch_durable hreach (by omega) hdone {} {} 0 0⟩

/-- **The older call is saved last**: the switch is set and released, the task of the
release is the faster one, and a restart finds the switch on. -/
theorem older_call_saved_last :
    ∃ s, Reachable (next (switchStep id) noOtherSwitch) (fun _ _ => True)
        (uncalled Bool false switchedOff) s ∧
      0 < s.shared.calls ∧ (∀ i, ¬(s.locals i).Running) ∧
      s.shared.killSwitchEnabled = false ∧
      (hydrate {} (restarted {} {} 0) s.shared.db 0).killSwitchEnabled = true :=
  exists_reachable
    ([.act false (.setKillSwitch true), .act true (.setKillSwitch false), .act false .get,
      .act true .get] ++ finishTask true ++ finishTask false)
    (by decide +kernel) (by decide +kernel)

/-- The session persisted in between. -/
def switchedOnSession : Session := { Session.fresh {} {} with killSwitchEnabled := true }

/-- **The flag is left on**: the switch is set, the session is persisted, and the switch is
released, one after another. -/
theorem flag_left_on :
    ∃ s, Reachable (next (switchStep id) noOtherSwitch) (fun _ _ => True)
        (uncalled Bool false switchedOff) s ∧
      0 < s.shared.calls ∧ (∀ i, ¬(s.locals i).Running) ∧
      s.shared.killSwitchEnabled = false ∧
      (hydrate {} (restarted {} {} 0) s.shared.db 0).killSwitchEnabled = true :=
  exists_reachable
    ([.act false (.setKillSwitch true), .act false .get] ++ finishTask false ++
      [.act true .persist, .act true .stageRisk, .act true (.commit switchedOnSession),
        .act false (.setKillSwitch false), .act false .get] ++ finishTask false)
    (by decide +kernel) (by decide +kernel)

end Atlas
