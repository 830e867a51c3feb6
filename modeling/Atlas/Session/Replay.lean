import Atlas.Session.Orchestrator
import Atlas.Session.Restart

/-!
# Replayed cycles

A call is skipped as a replay when the key of its candle has been processed.  The key
has the version of the strategy, not its identifier, and the registered strategies share
their versions: so a call can be skipped because another strategy has processed the
candle.  The key of the lock has the identifier too.

Every key that is remembered, in the process or in the database, belongs to a call that
has completed.  So a call is only skipped for a cycle of its own strategy exactly when
no other strategy of its version has come first.

## Main definitions

* `CompletedCall`, `ServiceRun` — the calls that have completed, and what is remembered.
* `ServiceAction`, `step` — calls, and saving and loading the keys in between.
* `Accounted` — every remembered key belongs to a completed call.
* `OwnReplay`, `NotForestalled` — what a replay should be, and when it is.

## Main results

* `Accounted.step` — one step accounts for every key it remembers.
* `own_replay_iff` — **a replay is of the strategy's own cycle** exactly where no other
  strategy of its version has forestalled it.
* `other_strategy_suppressed` — two strategies of one version on one candle.

## References

`app/services/paper_cycle.py`, `app/services/paper_persistence.py`,
`app/services/cycle_lock.py`, `app/strategies/registry.py`.
-/

namespace Atlas

open Session Transition

/-- A call that has completed: the strategy, and the candle it has processed. -/
structure CompletedCall where
  strategyId : String
  symbol : String
  timeframe : String
  openTime : Time
  deriving DecidableEq, Repr, Inhabited

/-- The key a completed call leaves behind. -/
def CompletedCall.key (registry : Registry) (c : CompletedCall) : CycleKey where
  symbol := c.symbol
  strategyVersion := (registry c.strategyId).version
  timeframe := c.timeframe
  openTime := c.openTime

/-- What a call completes when it processes the candle `target`. -/
def CycleCall.completes (call : CycleCall) (target : Candle) : CompletedCall where
  strategyId := call.strategyId
  symbol := call.symbol
  timeframe := call.timeframe
  openTime := target.openTime

@[simp] theorem CycleCall.completes_key (registry : Registry) (call : CycleCall) (target : Candle) :
    (call.completes target).key registry = call.key registry target := rfl

/-- The service, the table of processed keys, whose rows are never deleted, and the
calls that have completed. -/
structure ServiceRun where
  service : Service
  keyRows : List CycleKey := []
  completed : List CompletedCall := []
  deriving DecidableEq, Repr

namespace ServiceRun

/-- The keys the process skips. -/
def processed (r : ServiceRun) : List CycleKey := r.service.runtime.processed

/-- The keys stored under `paper_cycle_keys`. -/
def storedKeys (r : ServiceRun) : List CycleKey := r.service.runtime.db.cycleKeys

/-- The run with these keys in the process. -/
def withProcessed (r : ServiceRun) (keys : List CycleKey) : ServiceRun :=
  { r with service := { r.service with runtime := { r.service.runtime with processed := keys } } }

/-- The run with these keys in the database. -/
def withStoredKeys (r : ServiceRun) (keys : List CycleKey) : ServiceRun :=
  { r with
    service :=
      { r.service with
        runtime := { r.service.runtime with db := { r.service.runtime.db with cycleKeys := keys } } } }

/-- `save_cycle_keys`: one value, and a row for each key that has none. -/
def save (r : ServiceRun) : ServiceRun :=
  { r.withStoredKeys r.processed with
    keyRows := r.keyRows ++ r.processed.filter fun k => k ∉ r.keyRows }

/-- `load_cycle_keys`: the rows stand in for an empty value. -/
def loadKeys (r : ServiceRun) : List CycleKey :=
  if r.storedKeys = [] then r.keyRows else r.storedKeys

/-- The keys that are remembered anywhere. -/
def Remembers (r : ServiceRun) (k : CycleKey) : Prop :=
  k ∈ r.processed ∨ k ∈ r.storedKeys ∨ k ∈ r.keyRows

end ServiceRun

/-! ### Runs -/

/-- What happens to a service. -/
inductive ServiceAction
  /-- A call; its keys reach the database, or the write fails. -/
  | call (call : CycleCall) (written : Bool)
  /-- `persist_cycle_keys`. -/
  | save
  /-- `set_processed_cycle_keys` of `load_persisted_cycle_keys`. -/
  | reload
  /-- `reset_cycle_state`; a new process starts from it too. -/
  | reset
  /-- Anything that happens to the session alone. -/
  | session (s : Session)
  deriving Repr

namespace ServiceRun

variable (d : Deployment) (registry : Registry) (failClosed : Bool)

/-- What the call completes, if it does. -/
def completion (call : CycleCall) (ending : CycleEnd) : List CompletedCall :=
  if ending = .complete then call.candles.getLast?.toList.map call.completes else []

/-- The run after a call. -/
def afterCall (r : ServiceRun) (call : CycleCall) (written : Bool) : ServiceRun :=
  let result := runCycle d registry failClosed r.service call
  let after : ServiceRun :=
    { r with
      service := result.2
      completed := completion call result.1.ending ++ r.completed }
  if result.1.ending = .complete then
    if written then after.save else after.withStoredKeys r.storedKeys
  else after

/-- A step of a run; every action is possible. -/
def step (r : ServiceRun) : ServiceAction → Option ServiceRun
  | .call call written => some (afterCall d registry failClosed r call written)
  | .save => some r.save
  | .reload => some (r.withProcessed r.loadKeys)
  | .reset => some { r.withProcessed [] with service.orchestrators := ∅ }
  | .session s => some { r with service.runtime.session := s }

/-- The runs of a service that starts with an empty database. -/
abbrev Reached : ServiceRun → Prop :=
  Reachable (step d registry failClosed) (fun _ _ => True)
    { service := { runtime := Runtime.initial d } }

end ServiceRun

/-! ### What is remembered -/

/-- Every remembered key belongs to a call that has completed. -/
def Accounted (registry : Registry) (r : ServiceRun) : Prop :=
  ∀ k, r.Remembers k → ∃ c ∈ r.completed, c.key registry = k

/-- What a call does to the keys: nothing, or it adds its own. -/
theorem runCycle_keys (d : Deployment) (registry : Registry) (failClosed : Bool) (svc : Service)
    (call : CycleCall) :
    let r := runCycle d registry failClosed svc call
    (r.1.ending ≠ .complete ∧ r.2.runtime.processed = svc.runtime.processed ∧
        r.2.runtime.db = svc.runtime.db) ∨
      ∃ target, call.candles.getLast? = some target ∧ r.1.ending = .complete ∧
        r.2.runtime.processed = call.key registry target :: svc.runtime.processed := by
  intro r
  have hgoes : call.Goes d registry svc r := runCycle_goes ..
  generalize r = r' at hgoes ⊢
  cases hgoes with
  | halted _ => exact .inl ⟨nofun, rfl, rfl⟩
  | noCandles _ _ => exact .inl ⟨nofun, rfl, rfl⟩
  | replayed _ _ _ _ => exact .inl ⟨nofun, rfl, rfl⟩
  | locked _ ending _ _ _ hending _ =>
    refine .inl ⟨?_, rfl, rfl⟩
    rcases hending with rfl | rfl <;> exact nofun
  | evaluated target _ hlast _ =>
    right
    obtain ⟨input, hkey, hruntime⟩ := evaluateCandle_runtime d registry (svc.warmed d call) call
      (svc.primed d call).orchestrator target
    refine ⟨target, hlast, evaluateCandle_ending .., ?_⟩
    rw [hruntime, ← hkey]
    rfl

namespace ServiceRun

variable {d : Deployment} {registry : Registry} {failClosed : Bool} {r r' : ServiceRun}

/-- Loaded keys were remembered. -/
theorem remembers_of_mem_loadKeys {k : CycleKey} (h : k ∈ r.loadKeys) : r.Remembers k := by
  unfold loadKeys at h
  split_ifs at h
  · exact .inr (.inr h)
  · exact .inr (.inl h)

/-- Saved keys were in the process or had a row. -/
theorem mem_of_save_remembers {k : CycleKey} (h : r.save.Remembers k) :
    k ∈ r.processed ∨ k ∈ r.keyRows := by
  rcases h with h | h | h
  · exact .inl h
  · exact .inl h
  · rcases List.mem_append.mp h with h | h
    · exact .inr h
    · exact .inl (List.mem_of_mem_filter h)

/-- After a call the keys it had before are remembered, and its own if it has completed. -/
theorem afterCall_remembers {call : CycleCall} {written : Bool} {k : CycleKey}
    (h : (afterCall d registry failClosed r call written).Remembers k) :
    r.Remembers k ∨ ∃ c ∈ completion call (runCycle d registry failClosed r.service call).1.ending,
      c.key registry = k := by
  unfold afterCall at h
  rcases runCycle_keys d registry failClosed r.service call with
    ⟨hending, hprocessed, hdb⟩ | ⟨target, hlast, hending, hprocessed⟩
  · left
    simp only [if_neg hending] at h
    unfold Remembers processed storedKeys at h ⊢
    rwa [hprocessed, hdb] at h
  · have hprocess : k ∈ (runCycle d registry failClosed r.service call).2.runtime.processed →
        r.Remembers k ∨ ∃ c ∈ completion call .complete, c.key registry = k := by
      intro hk
      rw [hprocessed] at hk
      rcases List.mem_cons.mp hk with rfl | hk
      · exact .inr ⟨call.completes target, by simp [completion, hlast], rfl⟩
      · exact .inl (.inl hk)
    rw [hending]
    simp only [if_pos hending] at h
    -- the saved keys are those of the process, so they add nothing
    cases written with
    | true =>
      rcases mem_of_save_remembers h with hk | hk
      · exact hprocess hk
      · exact .inl (.inr (.inr hk))
    | false =>
      rcases h with hk | hk | hk
      · exact hprocess hk
      · exact .inl (.inr (.inl hk))
      · exact .inl (.inr (.inr hk))

theorem afterCall_completed (call : CycleCall) (written : Bool) :
    (afterCall d registry failClosed r call written).completed =
      completion call (runCycle d registry failClosed r.service call).1.ending ++ r.completed := by
  unfold afterCall
  dsimp only
  split_ifs <;> rfl

/-- **One step accounts for every key it remembers.** -/
theorem accounted_step {action : ServiceAction} (h : Accounted registry r)
    (hstep : step d registry failClosed r action = some r') : Accounted registry r' := by
  intro k hk
  cases action with
  | call call written =>
    rw [← Option.some.inj hstep] at hk ⊢
    rw [afterCall_completed]
    rcases afterCall_remembers hk with hk | ⟨c, hc, hkey⟩
    · obtain ⟨c, hc, hkey⟩ := h k hk
      exact ⟨c, List.mem_append_right _ hc, hkey⟩
    · exact ⟨c, List.mem_append_left _ hc, hkey⟩
  | save =>
    rw [← Option.some.inj hstep] at hk ⊢
    exact h k ((mem_of_save_remembers hk).imp_right .inr)
  | reload =>
    rw [← Option.some.inj hstep] at hk ⊢
    rcases hk with hk | hk
    · exact h k (remembers_of_mem_loadKeys hk)
    · exact h k (.inr hk)
  | reset =>
    rw [← Option.some.inj hstep] at hk ⊢
    rcases hk with hk | hk
    · exact (List.not_mem_nil hk).elim
    · exact h k (.inr hk)
  | session s =>
    rw [← Option.some.inj hstep] at hk ⊢
    exact h k hk

/-- **Every key that is remembered belongs to a call that has completed**, in every run. -/
theorem accounted_of_reached (h : Reached d registry failClosed r) : Accounted registry r := by
  refine h.invariant (I := Accounted registry) ?_ fun _ _ _ hacc _ hstep => accounted_step hacc hstep
  rintro k (hk | hk | hk) <;> exact (List.not_mem_nil hk).elim

/-! ### Replays -/

/-- An earlier call of this strategy has completed the candle of the call. -/
def HasCompleted (r : ServiceRun) (call : CycleCall) (target : Candle) : Prop :=
  call.completes target ∈ r.completed

/-- The call is only skipped as a replay if its own strategy has processed its candle. -/
def OwnReplay (d : Deployment) (registry : Registry) (failClosed : Bool) (r : ServiceRun)
    (call : CycleCall) : Prop :=
  (runCycle d registry failClosed r.service call).1.ending = .idempotentReplay →
    ∃ target, call.candles.getLast? = some target ∧ r.HasCompleted call target

/-- Another strategy of the same version has completed a call for the same candle. -/
def CompletedByOther (registry : Registry) (r : ServiceRun) (call : CycleCall) (target : Candle) :
    Prop :=
  ∃ c ∈ r.completed, c.strategyId ≠ call.strategyId ∧
    (registry c.strategyId).version = (registry call.strategyId).version ∧
    c.symbol = call.symbol ∧ c.timeframe = call.timeframe ∧ c.openTime = target.openTime

/-- No other strategy of its version has forestalled the call: unless it is halted, its
candle is not remembered only because of another strategy. -/
def NotForestalled (d : Deployment) (registry : Registry) (r : ServiceRun) (call : CycleCall) :
    Prop :=
  ¬call.Halted d → ∀ target, call.candles.getLast? = some target →
    call.key registry target ∈ r.processed → CompletedByOther registry r call target →
      r.HasCompleted call target

/-- A call that has completed under the key of this one is of its strategy, or of
another one of the same version. -/
theorem completed_cases {call : CycleCall} {target : Candle} {c : CompletedCall}
    (hc : c ∈ r.completed) (hkey : c.key registry = call.key registry target) :
    r.HasCompleted call target ∨ CompletedByOther registry r call target := by
  simp only [CompletedCall.key, CycleCall.key, CycleKey.mk.injEq] at hkey
  obtain ⟨hsymbol, hversion, htimeframe, htime⟩ := hkey
  by_cases hid : c.strategyId = call.strategyId
  · left
    have heq : c = call.completes target := by
      cases c
      simp_all [CycleCall.completes]
    rw [HasCompleted, ← heq]
    exact hc
  · exact .inr ⟨c, hc, hid, hversion, hsymbol, htimeframe, htime⟩

/-- **When a replay is of the strategy's own cycle.**  In every run, a call is skipped
only for a candle its own strategy has processed, exactly where no other strategy of the
same version has forestalled it. -/
theorem own_replay_iff (h : Reached d registry failClosed r) (call : CycleCall) :
    OwnReplay d registry failClosed r call ↔ NotForestalled d registry r call := by
  rw [OwnReplay, runCycle_replay_iff]
  constructor
  · intro hown hopen target hlast hkey _
    obtain ⟨target', hlast', hdone⟩ := hown ⟨hopen, target, hlast, hkey⟩
    rw [hlast] at hlast'
    cases hlast'
    exact hdone
  · rintro hfirst ⟨hopen, target, hlast, hkey⟩
    refine ⟨target, hlast, ?_⟩
    obtain ⟨c, hc, hsame⟩ := accounted_of_reached h (call.key registry target) (.inl hkey)
    rcases completed_cases hc hsame with hdone | hother
    · exact hdone
    · exact hfirst hopen target hlast hkey hother

/-- Strategies with different versions never forestall one another. -/
theorem notForestalled_of_versions {call : CycleCall}
    (h : ∀ c ∈ r.completed, (registry c.strategyId).version = (registry call.strategyId).version →
      c.strategyId = call.strategyId) : NotForestalled d registry r call := by
  rintro - target - - ⟨c, hc, hid, hversion, -⟩
  exact absurd (h c hc hversion) hid

/-- Two strategies of one version, as the source registers them, that hold. -/
def holdRegistry : Registry := fun id =>
  { name := id
    version := "1.0.0"
    evaluate := fun _ => { signal := { direction := .hold }, fingerprint := id } }

/-- A call for the first candle of BTC/USDT. -/
def firstCandleCall (strategyId timeframe : String) : CycleCall where
  strategyId := strategyId
  symbol := "BTC/USDT"
  timeframe := timeframe
  candles :=
    [{ symbol := "BTC/USDT", timeframe := timeframe, openTime := 0, openPrice := 100, high := 100,
       low := 100, close := 100, volume := 1 }]
  around := { now := 0, seriesMark := 100 }

/-- The run in which one of them has processed that candle. -/
def afterFirstCandle : ServiceRun :=
  afterCall Runtime.exactDeployment holdRegistry true
    { service := { runtime := Runtime.initial Runtime.exactDeployment } }
    (firstCandleCall "ema_rsi" "1m") true

theorem afterFirstCandle_reached : Reached Runtime.exactDeployment holdRegistry true afterFirstCandle :=
  .step (a := .call (firstCandleCall "ema_rsi" "1m") true) .init trivial rfl

/-- The strategy itself comes back to the candle. -/
theorem own_replay_same_strategy :
    Reached Runtime.exactDeployment holdRegistry true afterFirstCandle ∧
      (runCycle Runtime.exactDeployment holdRegistry true afterFirstCandle.service
        (firstCandleCall "ema_rsi" "1m")).1.ending = .idempotentReplay ∧
      OwnReplay Runtime.exactDeployment holdRegistry true afterFirstCandle
        (firstCandleCall "ema_rsi" "1m") := by
  refine ⟨afterFirstCandle_reached, by decide +kernel,
    (own_replay_iff afterFirstCandle_reached _).mpr (notForestalled_of_versions ?_)⟩
  decide +kernel

/-- **Another strategy is suppressed.**  `ema_trend` has the version of `ema_rsi`; its
call for the candle that `ema_rsi` has processed is skipped, and it has completed none. -/
theorem other_strategy_suppressed :
    Reached Runtime.exactDeployment holdRegistry true afterFirstCandle ∧
      (∀ c ∈ afterFirstCandle.completed, c.strategyId ≠ "ema_trend") ∧
      ¬ OwnReplay Runtime.exactDeployment holdRegistry true afterFirstCandle
        (firstCandleCall "ema_trend" "1m") := by
  refine ⟨afterFirstCandle_reached, by decide +kernel, fun hown => ?_⟩
  have hreplay : (runCycle Runtime.exactDeployment holdRegistry true afterFirstCandle.service
      (firstCandleCall "ema_trend" "1m")).1.ending = .idempotentReplay := by decide +kernel
  obtain ⟨target, -, hdone⟩ := hown hreplay
  have hnone : ∀ c ∈ afterFirstCandle.completed, c.strategyId ≠ "ema_trend" := by decide +kernel
  exact hnone _ hdone rfl

end ServiceRun

end Atlas
