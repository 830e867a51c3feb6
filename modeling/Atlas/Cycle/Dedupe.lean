import Mathlib.Data.Finset.Lattice.Lemmas
import Mathlib.Data.Fintype.Basic
import Atlas.Lib.Interleaving

/-!
# One trading cycle for a candle

Several workers run paper cycles over one database.  Each worker keeps the keys
of the candles it has processed in its own memory.  A cycle checks the key of its
candle there, takes the cycle lock, evaluates the candle and perhaps submits an
order, adds the key to its worker's memory, persists the keys and releases the
lock.  The calls of all workers are interleaved between these steps.  The lock
itself is taken to exclude, and not to expire during a cycle.

The check comes before the lock and sees one worker's memory, so a worker that
takes the lock after another one has released it trades the candle again.  A
candle is traded by one worker as long as no call does that (`StepOk`).

## Main definitions

* `CycleState` — the memories, the persisted keys, the lock, the submissions.
* `Stage` — where a call of `run_paper_trading_cycle` stands.
* `cycleStep`, `hydrate` — one step of a call; a worker loads the persisted keys.
* `StepOk` — no other worker has processed the candle whose lock is taken.

## Main results

* `traded_by_one_worker` — then one worker at most submits an order for a candle.

## References

`app/services/paper_cycle.py`, `app/services/paper_persistence.py`,
`tests/integration/test_concurrent_cycles.py`.
-/

namespace Atlas

open Transition Interleaving

namespace Cycle

/-- The state the calls share.  The database holds the keys twice: as one value,
overwritten by each worker, and as a table to which keys are added. -/
structure CycleState (ι W K C : Type*) where
  processed : W → Finset C
  keysValue : Finset C
  keysTable : Finset C
  lock : K → Option ι
  submissions : List ι

/-- Where a call stands. -/
inductive Stage
  | ready
  /-- The key was not in the worker's memory. -/
  | checked
  /-- Past the lock section; `owner` is false if the call goes on without the lock. -/
  | locked (owner : Bool)
  /-- The candle is evaluated, with or without an order. -/
  | evaluated (owner submitted : Bool)
  /-- The key is in the worker's memory. -/
  | recorded (owner : Bool)
  /-- The keys are persisted. -/
  | persisted (owner : Bool)
  | done
  deriving DecidableEq, Repr

/-- What a call does next. -/
inductive CycleAction
  /-- The next step; `trades` says whether the evaluation submits an order. -/
  | advance (trades : Bool)
  /-- The lock layer is unavailable. -/
  | unavailable
  /-- The step raises. -/
  | fail
  deriving DecidableEq, Repr

variable {ι W K C : Type*}

/-- What a call is about: the worker that runs it, its lock key (account, strategy,
version, symbol, timeframe, candle), and its processed key, which leaves the
account and the strategy out. -/
structure Cycles (ι W K C : Type*) where
  worker : ι → W
  lockKey : ι → K
  cycleKey : K → C

/-- `release_cycle_lock`, of a call that owns the lock. -/
def CycleState.release [DecidableEq K] (t : CycleState ι W K C) (owner : Bool) (key : K) :
    CycleState ι W K C :=
  if owner then { t with lock := Function.update t.lock key none } else t

/-- `save_cycle_keys`: the value is overwritten, the table is extended. -/
def CycleState.saveKeys [DecidableEq C] (t : CycleState ι W K C) (keys : Finset C) :
    CycleState ι W K C :=
  { t with keysValue := keys, keysTable := t.keysTable ∪ keys }

/-- `load_cycle_keys`: the value, unless it is empty. -/
def CycleState.loadKeys (t : CycleState ι W K C) : Finset C :=
  if t.keysValue.Nonempty then t.keysValue else t.keysTable

/-- One step of a call of `run_paper_trading_cycle`. -/
def cycleStep [DecidableEq W] [DecidableEq K] [DecidableEq C] (failClosed : Bool)
    (cs : Cycles ι W K C) (i : ι) (a : CycleAction) (t : CycleState ι W K C) (stage : Stage) :
    Option (CycleState ι W K C × Stage) :=
  let w := cs.worker i
  let key := cs.lockKey i
  match a, stage with
  | .advance _, .ready =>
      some (t, if cs.cycleKey key ∈ t.processed w then .done else .checked)
  | .advance _, .checked =>
      match t.lock key with
      | some _ => some (t, .done)
      | none => some ({ t with lock := Function.update t.lock key (some i) }, .locked true)
  | .unavailable, .checked => some (t, if failClosed then .done else .locked false)
  | .advance trades, .locked owner =>
      some (if trades then { t with submissions := i :: t.submissions } else t,
        .evaluated owner trades)
  | .advance _, .evaluated owner _ =>
      some ({ t with
        processed := Function.update t.processed w (insert (cs.cycleKey key) (t.processed w)) },
        .recorded owner)
  | .advance _, .recorded owner => some (t.saveKeys (t.processed w), .persisted owner)
  | .advance _, .persisted owner => some (t.release owner key, .done)
  -- The lock is released in `finally`, whatever was raised.
  | .fail, .locked owner => some (t.release owner key, .done)
  | .fail, .evaluated owner _ => some (t.release owner key, .done)
  | .fail, .recorded owner => some (t.release owner key, .done)
  | .fail, .persisted owner => some (t.release owner key, .done)
  | .fail, _ => some (t, .done)
  | _, _ => none

/-- A worker replaces its memory by the persisted keys. -/
def hydrate [DecidableEq W] (w : W) (t : CycleState ι W K C) : Option (CycleState ι W K C) :=
  some { t with processed := Function.update t.processed w t.loadKeys }

/-- The calls and the state they share. -/
abbrev CycleCalls (ι W K C : Type*) := Joint ι (CycleState ι W K C) Stage

/-- Calls that have not started, of workers with some keys in memory. -/
def unstarted (ι K : Type*) {W C : Type*} (processed : W → Finset C)
    (keysValue keysTable : Finset C) : CycleCalls ι W K C :=
  ⟨⟨processed, keysValue, keysTable, fun _ => none, []⟩, fun _ => .ready⟩

/-- The condition on a step: a call that takes the lock has a candle no other worker
has in its memory, and none goes on without the lock; none fails between its
submission and the recording of its key; no worker forgets a key. -/
def StepOk (failClosed : Bool) (cs : Cycles ι W K C) (s : CycleCalls ι W K C) :
    Move ι CycleAction W → Prop
  | .act i (.advance _) => s.locals i = .checked → s.shared.lock (cs.lockKey i) = none →
      ∀ w, w ≠ cs.worker i → cs.cycleKey (cs.lockKey i) ∉ s.shared.processed w
  | .act i .unavailable => s.locals i = .checked → failClosed = true
  | .act i .fail => ∀ owner, s.locals i ≠ .evaluated owner true
  | .env w => s.shared.processed w ⊆ s.shared.loadKeys

instance [Fintype W] [DecidableEq ι] [DecidableEq W] [DecidableEq C] (failClosed : Bool)
    (cs : Cycles ι W K C) (s : CycleCalls ι W K C) (m : Move ι CycleAction W) :
    Decidable (StepOk failClosed cs s m) := by
  cases m with
  | env w => unfold StepOk; infer_instance
  | act i a => cases a <;> unfold StepOk <;> infer_instance

/-- **The candle of a lock key is traded by one worker**: all calls that have
submitted an order for it are one worker's. -/
def TradedByOne (cs : Cycles ι W K C) (s : CycleCalls ι W K C) : Prop :=
  ∀ i ∈ s.shared.submissions, ∀ j ∈ s.shared.submissions, cs.lockKey i = cs.lockKey j →
    cs.worker i = cs.worker j

/-! ### The invariant of a call -/

/-- Past the lock section: whether the call owns the lock. -/
def Stage.owner? : Stage → Option Bool
  | .locked owner => some owner
  | .evaluated owner _ => some owner
  | .recorded owner => some owner
  | .persisted owner => some owner
  | _ => none

/-- The invariant of a call: past the lock section it owns the lock; before its
evaluation only its own worker has traded the candle; and once it has submitted,
it is about to record the key, or its worker has it in memory. -/
structure CycleInv (cs : Cycles ι W K C) (i : ι) (t : CycleState ι W K C) (stage : Stage) :
    Prop where
  owns : ∀ {owner}, stage.owner? = some owner → owner = true ∧ t.lock (cs.lockKey i) = some i
  locked : stage = .locked true → ∀ j ∈ t.submissions, cs.lockKey j = cs.lockKey i →
    cs.worker j = cs.worker i
  recorded : i ∈ t.submissions → stage = .evaluated true true ∨
    cs.cycleKey (cs.lockKey i) ∈ t.processed (cs.worker i)

/-- The submissions for a candle are one worker's. -/
def OneWorker (cs : Cycles ι W K C) (t : CycleState ι W K C) : Prop :=
  ∀ i ∈ t.submissions, ∀ j ∈ t.submissions, cs.lockKey i = cs.lockKey j → cs.worker i = cs.worker j

/-- The invariant of the calls. -/
abbrev CyclesInv (cs : Cycles ι W K C) : CycleCalls ι W K C → Prop :=
  Holds (OneWorker cs) (CycleInv cs) (fun _ _ _ _ => True)

/-- What a step owes the invariant. -/
abbrev KeepsCycles (cs : Cycles ι W K C) : CycleCalls ι W K C → ι → CycleState ι W K C → Stage →
    Prop :=
  Keeps (OneWorker cs) (CycleInv cs) (fun _ _ _ _ => True)

variable {failClosed : Bool} {cs : Cycles ι W K C} {i j : ι} {t t' : CycleState ι W K C}
  {stage stage' : Stage} {s : CycleCalls ι W K C}

/-- A call is not disturbed while its lock stays, no key is forgotten, and a new
submission is another call's that owns its own lock. -/
theorem CycleInv.other (h : CycleInv cs j t stage)
    (hlock : ∀ k, t.lock k = some j → t'.lock k = some j)
    (hsub : ∀ x ∈ t'.submissions, x ∈ t.submissions ∨ x ≠ j ∧ t.lock (cs.lockKey x) = some x)
    (hproc : ∀ w, t.processed w ⊆ t'.processed w) : CycleInv cs j t' stage where
  owns := fun ho => ⟨(h.owns ho).1, hlock _ (h.owns ho).2⟩
  locked := fun hst x hx hkey => by
    rcases hsub x hx with hold | ⟨hne, hown⟩
    · exact h.locked hst x hold hkey
    · have hj : t.lock (cs.lockKey j) = some j := (h.owns (by rw [hst]; rfl)).2
      rw [hkey, hj, Option.some.injEq] at hown
      exact absurd hown.symm hne
  recorded := fun hx => by
    rcases hsub j hx with hold | ⟨hne, -⟩
    · exact (h.recorded hold).imp_right fun hm => hproc _ hm
    · exact absurd rfl hne

/-- A step that submits nothing and leaves the lock to the others. -/
theorem keeps_of_quiet (h : CyclesInv cs s) (hself : CycleInv cs i t' stage')
    (hlock : ∀ j, j ≠ i → ∀ k, s.shared.lock k = some j → t'.lock k = some j)
    (hsub : t'.submissions = s.shared.submissions)
    (hproc : ∀ w, s.shared.processed w ⊆ t'.processed w) : KeepsCycles cs s i t' stage' where
  shared := by
    intro x hx y hy
    rw [hsub] at hx hy
    exact h.shared x hx y hy
  self := hself
  other := fun j hj => (h.each j).other (hlock j hj) (fun x hx => .inl (hsub ▸ hx)) hproc
  pair := fun _ _ => ⟨trivial, trivial⟩

/-- A call that has submitted and is not about to record its key has it recorded. -/
theorem CycleInv.recorded_of_ne (h : CycleInv cs i t stage) (hst : stage ≠ .evaluated true true)
    (hi : i ∈ t.submissions) : cs.cycleKey (cs.lockKey i) ∈ t.processed (cs.worker i) :=
  (h.recorded hi).resolve_left hst

/-- A call that ends, or goes on to the lock, without having touched anything. -/
theorem keeps_of_same (h : CyclesInv cs s) (ho : stage'.owner? = none)
    (hst : s.locals i ≠ .evaluated true true) : KeepsCycles cs s i s.shared stage' := by
  refine keeps_of_quiet h ⟨fun he => ?_, fun he => ?_, fun hi => .inr ?_⟩ (fun _ _ _ hk => hk) rfl
    fun _ => subset_rfl
  · rw [ho] at he
    cases he
  · rw [he] at ho
    cases ho
  · exact (h.each i).recorded_of_ne hst hi

/-- A call that goes on past the lock section, and submits nothing. -/
theorem keeps_of_owned {owner : Bool} (h : CyclesInv cs s)
    (howner : (s.locals i).owner? = some owner) (howner' : stage'.owner? = some owner)
    (hnext : stage' ≠ .locked true) (hlock : t'.lock = s.shared.lock)
    (hsub : t'.submissions = s.shared.submissions)
    (hproc : ∀ w, s.shared.processed w ⊆ t'.processed w)
    (hrecorded : i ∈ s.shared.submissions →
      cs.cycleKey (cs.lockKey i) ∈ t'.processed (cs.worker i)) : KeepsCycles cs s i t' stage' := by
  obtain ⟨htrue, hown⟩ := (h.each i).owns howner
  refine keeps_of_quiet h ⟨fun ho => ?_, fun he => absurd he hnext, fun hi => .inr ?_⟩
    (fun j _ k hk => by rwa [hlock]) hsub hproc
  · rw [howner', Option.some.injEq] at ho
    exact ⟨ho ▸ htrue, by rwa [hlock]⟩
  · rw [hsub] at hi
    exact hrecorded hi

/-- A submission: it is its own worker's, like all before it for this candle. -/
theorem submit_keeps (h : CyclesInv cs s) (hst : s.locals i = .locked true) :
    KeepsCycles cs s i { s.shared with submissions := i :: s.shared.submissions }
      (.evaluated true true) := by
  have hlock : s.shared.lock (cs.lockKey i) = some i := ((h.each i).owns (by rw [hst]; rfl)).2
  have hsole : ∀ j ∈ s.shared.submissions, cs.lockKey j = cs.lockKey i →
      cs.worker j = cs.worker i := (h.each i).locked hst
  refine ⟨fun x hx y hy hkey => ?_, ⟨fun ho => ?_, fun he => (by cases he), fun _ => .inl rfl⟩,
    fun j hj => ?_, fun _ _ => ⟨trivial, trivial⟩⟩
  · rcases List.mem_cons.mp hx with rfl | hx'
    · rcases List.mem_cons.mp hy with rfl | hy'
      · rfl
      · exact (hsole y hy' hkey.symm).symm
    · rcases List.mem_cons.mp hy with rfl | hy'
      · exact hsole x hx' hkey
      · exact h.shared x hx' y hy' hkey
  · cases ho
    exact ⟨rfl, hlock⟩
  · refine (h.each j).other (fun _ hk => hk) (fun x hx => ?_) fun _ => subset_rfl
    rcases List.mem_cons.mp hx with rfl | hx'
    · exact .inr ⟨hj.symm, hlock⟩
    · exact .inl hx'

variable [DecidableEq K]

/-- A call that ends, and releases the lock if it owns it. -/
theorem release_keeps (h : CyclesInv cs s) {owner : Bool} (howner : (s.locals i).owner? = some owner)
    (hst : s.locals i ≠ .evaluated true true) :
    KeepsCycles cs s i (s.shared.release owner (cs.lockKey i)) .done := by
  obtain ⟨rfl, hlock⟩ := (h.each i).owns howner
  refine keeps_of_quiet h ⟨fun ho => (by cases ho), fun he => (by cases he), fun hi => .inr ?_⟩
    (fun j hj k hk => ?_) rfl fun _ => subset_rfl
  · exact (h.each i).recorded_of_ne hst hi
  · have hne : k ≠ cs.lockKey i := by
      rintro rfl
      exact hj (Option.some.inj (hk.symm.trans hlock))
    simpa [CycleState.release, hne] using hk

/-- The lock is taken: whoever has submitted for this candle owned its lock, or has it in
its memory. -/
theorem takeLock_keeps (h : CyclesInv cs s) (hst : s.locals i = .checked)
    (hlock : s.shared.lock (cs.lockKey i) = none)
    (hok : ∀ w, w ≠ cs.worker i → cs.cycleKey (cs.lockKey i) ∉ s.shared.processed w) :
    KeepsCycles cs s i
      { s.shared with lock := Function.update s.shared.lock (cs.lockKey i) (some i) }
      (.locked true) := by
  refine keeps_of_quiet h ⟨fun ho => ?_, fun _ j hj hkey => ?_, fun hmem => .inr ?_⟩
    (fun j _ k hk => ?_) rfl fun _ => subset_rfl
  · cases ho
    exact ⟨rfl, Function.update_self ..⟩
  · rcases (h.each j).recorded hj with hev | hmem
    · have hown := ((h.each j).owns (by rw [hev]; rfl)).2
      rw [hkey, hlock] at hown
      cases hown
    · by_contra hne
      exact hok _ hne (hkey ▸ hmem)
  · exact (h.each i).recorded_of_ne (by simp [hst]) hmem
  · have hne : k ≠ cs.lockKey i := by
      rintro rfl
      rw [hlock] at hk
      cases hk
    simpa [hne] using hk

variable [DecidableEq W] [DecidableEq C]

/-- **The next step of a call keeps the invariant**, if no other worker has in its
memory the candle whose lock is taken. -/
theorem advance_keeps_cycles {trades : Bool} (h : CyclesInv cs s)
    (hok : StepOk failClosed cs s (.act i (.advance trades)))
    (hstep : cycleStep failClosed cs i (.advance trades) s.shared (s.locals i) =
      some (t', stage')) : KeepsCycles cs s i t' stage' := by
  have hi : CycleInv cs i s.shared (s.locals i) := h.each i
  cases hst : s.locals i with
  | ready =>
    simp only [hst, cycleStep, Option.some.injEq, Prod.mk.injEq] at hstep
    obtain ⟨rfl, rfl⟩ := hstep
    refine keeps_of_same h ?_ (by simp [hst])
    split_ifs <;> rfl
  | checked =>
    simp only [hst, cycleStep] at hstep
    cases hlock : s.shared.lock (cs.lockKey i) with
    | some x =>
      simp only [hlock, Option.some.injEq, Prod.mk.injEq] at hstep
      obtain ⟨rfl, rfl⟩ := hstep
      exact keeps_of_same h rfl (by simp [hst])
    | none =>
      simp only [hlock, Option.some.injEq, Prod.mk.injEq] at hstep
      obtain ⟨rfl, rfl⟩ := hstep
      exact takeLock_keeps h hst hlock (hok hst hlock)
  | locked owner =>
    simp only [hst, cycleStep, Option.some.injEq, Prod.mk.injEq] at hstep
    obtain ⟨rfl, rfl⟩ := hstep
    obtain rfl : owner = true := (hi.owns (by rw [hst]; rfl)).1
    cases trades with
    | false =>
      exact keeps_of_owned h (by rw [hst]; rfl) rfl (by simp) rfl rfl (fun _ => subset_rfl)
        (hi.recorded_of_ne (by simp [hst]))
    | true => exact submit_keeps h hst
  | evaluated owner submitted =>
    simp only [hst, cycleStep, Option.some.injEq, Prod.mk.injEq] at hstep
    obtain ⟨rfl, rfl⟩ := hstep
    refine keeps_of_owned h (by rw [hst]; rfl) rfl (by simp) rfl rfl (fun w => ?_) fun _ => ?_
    · by_cases hw : w = cs.worker i
      · subst hw
        simp
      · simp [hw]
    · simp
  | recorded owner =>
    simp only [hst, cycleStep, Option.some.injEq, Prod.mk.injEq] at hstep
    obtain ⟨rfl, rfl⟩ := hstep
    exact keeps_of_owned h (by rw [hst]; rfl) rfl (by simp) rfl rfl (fun _ => subset_rfl)
      (hi.recorded_of_ne (by simp [hst]))
  | persisted owner =>
    simp only [hst, cycleStep, Option.some.injEq, Prod.mk.injEq] at hstep
    obtain ⟨rfl, rfl⟩ := hstep
    exact release_keeps h (by rw [hst]; rfl) (by simp [hst])
  | done => simp [hst, cycleStep] at hstep

/-- One step of a call keeps the invariant. -/
theorem cycleStep_keeps {a : CycleAction} (h : CyclesInv cs s)
    (hok : StepOk failClosed cs s (.act i a))
    (hstep : cycleStep failClosed cs i a s.shared (s.locals i) = some (t', stage')) :
    KeepsCycles cs s i t' stage' := by
  cases a with
  | advance trades => exact advance_keeps_cycles h hok hstep
  | unavailable =>
    cases hst : s.locals i with
    | checked =>
      simp only [hst, cycleStep, Option.some.injEq, Prod.mk.injEq, hok hst, if_true] at hstep
      obtain ⟨rfl, rfl⟩ := hstep
      exact keeps_of_same h rfl (by simp [hst])
    | _ => simp [hst, cycleStep] at hstep
  | fail =>
    have hne : s.locals i ≠ .evaluated true true := hok true
    cases hst : s.locals i with
    | ready | checked | done =>
      simp only [hst, cycleStep, Option.some.injEq, Prod.mk.injEq] at hstep
      obtain ⟨rfl, rfl⟩ := hstep
      exact keeps_of_same h rfl hne
    | locked owner | evaluated owner submitted | recorded owner | persisted owner =>
      simp only [hst, cycleStep, Option.some.injEq, Prod.mk.injEq] at hstep
      obtain ⟨rfl, rfl⟩ := hstep
      exact release_keeps h (by rw [hst]; rfl) hne

variable [DecidableEq ι]

/-- **A candle is traded by one worker**, as long as no call takes the lock of a
candle another worker has in its memory. -/
theorem traded_by_one_worker {processed : W → Finset C} {keysValue keysTable : Finset C}
    (h : Reachable (next (cycleStep failClosed cs) hydrate) (StepOk failClosed cs)
      (unstarted ι K processed keysValue keysTable) s) : TradedByOne cs s := by
  have hI : CyclesInv cs s := by
    refine Holds.reachable h ⟨fun i hi => (by cases hi), fun i => ?_, fun _ => trivial⟩ ?_ ?_
    · exact ⟨fun ho => (by cases ho), fun he => (by cases he), fun hi => (by cases hi)⟩
    · exact fun s i a t stage hs hok hstep => cycleStep_keeps hs hok hstep
    · intro s w t hs hok hstep
      obtain rfl := Option.some.inj hstep
      refine ⟨hs.shared, fun i => (hs.each i).other (fun _ hk => hk) (fun _ hx => .inl hx) ?_⟩
      intro w'
      by_cases hw : w' = w
      · subst hw
        simpa using (show s.shared.processed w' ⊆ s.shared.loadKeys from hok)
      · simp [hw]
  exact hI.shared

/-- A call for each of two workers, on one candle. -/
def twoWorkers : Cycles Bool Bool Unit Unit := ⟨id, fun _ => (), id⟩

/-- The second worker has loaded the keys the first one has persisted. -/
theorem traded_once_after_hydrate :
    ∃ s, Reachable (next (cycleStep true twoWorkers) hydrate) (StepOk true twoWorkers)
        (unstarted Bool Unit (fun _ => ∅) ∅ ∅) s ∧
      s.shared.submissions = [false] ∧ s.locals true = .done ∧ TradedByOne twoWorkers s := by
  obtain ⟨s, hreach, hsub, hdone⟩ : ∃ s, Reachable (next (cycleStep true twoWorkers) hydrate)
      (StepOk true twoWorkers) (unstarted Bool Unit (fun _ => ∅) ∅ ∅) s ∧
      s.shared.submissions = [false] ∧ s.locals true = .done :=
    exists_reachable [.act false (.advance true), .act false (.advance true),
      .act false (.advance true), .act false (.advance true), .act false (.advance true),
      .act false (.advance true), .env true, .act true (.advance true)]
      (by decide +kernel) (by decide +kernel)
  exact ⟨s, hreach, hsub, hdone, traded_by_one_worker hreach⟩

/-- **Two workers in turn trade one candle.**  The second one takes the lock after
the first has released it, and does not find the key in its own memory. -/
theorem two_workers_trade_in_turn :
    ∃ s, Reachable (next (cycleStep true twoWorkers) hydrate) (fun _ _ => True)
        (unstarted Bool Unit (fun _ => ∅) ∅ ∅) s ∧
      s.shared.submissions = [true, false] ∧ ¬ TradedByOne twoWorkers s := by
  obtain ⟨s, hreach, hsub⟩ : ∃ s, Reachable (next (cycleStep true twoWorkers) hydrate)
      (fun _ _ => True) (unstarted Bool Unit (fun _ => ∅) ∅ ∅) s ∧
      s.shared.submissions = [true, false] :=
    exists_reachable [.act false (.advance true), .act false (.advance true),
      .act false (.advance true), .act false (.advance true), .act false (.advance true),
      .act false (.advance true), .act true (.advance true), .act true (.advance true),
      .act true (.advance true)] (by decide +kernel) (by decide +kernel)
  refine ⟨s, hreach, hsub, fun h => ?_⟩
  have heq := h true (by simp [hsub]) false (by simp [hsub]) rfl
  exact absurd heq (by decide)

end Cycle

end Atlas
