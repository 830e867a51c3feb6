import Mathlib.Data.List.Dedup
import Atlas.Lib.Transition
import Atlas.Risk.Frequency
import Atlas.Session.Database

/-!
# The seen keys across restarts

The risk engine refuses an idempotency key it has seen.  The seen keys are a set; a
persist writes them to the row of the risk state, in the order the interpreter lists the
set in, and of a longer list only the last 5000.  A restart puts the keys of the row in
the place of the set, and adds those of the orders it restores.

So a key that was accepted is never accepted again as long as every persist is made with
at most 5000 seen keys.  With one key more a persist forgets one, and which one is up to
the order of the set.

## Main definitions

* `Lists`, `lastKeys`, `Session.persistListed` — what a persist writes of the set.
* `KeyAction`, `KeyRun` — evaluations and round trips through the database.
* `KeyRun.WithinCap` — a round trip is made with at most 5000 seen keys.

## Main results

* `hydrate_seen` — a restart has seen the keys of the row.
* `accepted_keys_distinct` — **no key is accepted twice within the cap**.
* `key_accepted_twice` — **over the cap one can be**.

## References

`app/risk/engine.py`, `app/services/paper_persistence.py`, `app/services/paper_session.py`.
-/

namespace Atlas

open Session Transition

/-! ### Round trips -/

/-- A listing of the set of keys: each of them once, in any order. -/
def Lists (listing keys : List String) : Prop :=
  listing.Nodup ∧ (∀ k ∈ listing, k ∈ keys) ∧ ∀ k ∈ keys, k ∈ listing

instance (listing keys : List String) : Decidable (Lists listing keys) :=
  inferInstanceAs (Decidable (_ ∧ _ ∧ _))

/-- `keys[-5000:]`, of a longer list. -/
def lastKeys (listing : List String) : List String := listing.drop (listing.length - 5000)

namespace Session

/-- `persist_paper_session`, with the listing of the seen keys. -/
def persistListed (column : ℚ → ℚ) (s : Session) (listing : List String) (db : Database) :
    Database :=
  { s.persist column db with
    riskState := some { s.riskRow column with seenIdempotencyKeys := lastKeys listing } }

variable {cfg : PaperConfig} {s : Session} {db : Database} {now : Time} {k : String}

theorem seedKeys_seen (h : k ∈ s.risk.seenIdempotencyKeys) :
    k ∈ s.seedKeys.risk.seenIdempotencyKeys := by
  simp only [seedKeys]
  rw [if_neg (List.ne_nil_of_mem h)]
  exact h

theorem hydrateOrders_seen (orders : List Order) (h : k ∈ s.risk.seenIdempotencyKeys) :
    k ∈ (s.hydrateOrders orders).risk.seenIdempotencyKeys :=
  List.mem_append_right _ h

/-- **A restart has seen the keys of the row**, whatever else it restores. -/
theorem hydrate_seen {r : RiskRow} (hrow : db.riskState = some r) (h : k ∈ r.seenIdempotencyKeys) :
    k ∈ (hydrate cfg s db now).risk.seenIdempotencyKeys := by
  simp only [hydrate, hrow, Option.elim_some]
  generalize db.checkpoint.elim _ (fun c => hydrateCheckpoint cfg _ c now) = s'
  have hrisk : k ∈ (hydrateFills (hydrateOrders (s'.hydrateRisk r).seedKeys db.listOrders)
      db.listFills).risk.seenIdempotencyKeys :=
    hydrateOrders_seen db.listOrders (seedKeys_seen (s := s'.hydrateRisk r) h)
  cases db.checkpoint with
  | none => exact hrisk
  | some c => exact hydrateOrders_seen _ hrisk

theorem persistListed_riskState {column : ℚ → ℚ} (s : Session) (listing : List String)
    (db : Database) :
    (s.persistListed column listing db).riskState =
      some { s.riskRow column with seenIdempotencyKeys := lastKeys listing } := by
  unfold persistListed
  dsimp only

/-- After a round trip the keys that were written are seen. -/
theorem persistListed_seen {column : ℚ → ℚ} {listing : List String} {s' : Session}
    (h : k ∈ lastKeys listing) :
    k ∈ (hydrate cfg s' (s.persistListed column listing db) now).risk.seenIdempotencyKeys := by
  refine hydrate_seen (persistListed_riskState s listing db) ?_
  dsimp only
  exact h

end Session

/-! ### Runs -/

/-- What happens to the seen keys. -/
inductive KeyAction
  | evaluate (request : OrderRequest) (context : RiskContext) (now : Time)
  /-- The session is persisted, with its keys listed in this order, and a new process
  restores it; `draws` identifiers have been drawn before. -/
  | roundTrip (listing : List String) (draws : ℕ) (now : Time)
  /-- All else changes: the ledger, the flags, the journal. -/
  | outside (session : Session) (db : Database)

/-- A session with its database, and the keys it has accepted. -/
structure KeyRun where
  session : Session
  db : Database := {}
  accepted : List String := []
  deriving DecidableEq, Repr

namespace KeyRun

variable (settings : RiskSettings) (cfg : PaperConfig) (column : ℚ → ℚ)

/-- An evaluation, a round trip, or a change of all but the seen keys. -/
def step (run : KeyRun) : KeyAction → Option KeyRun
  | .evaluate request context now =>
      let r := Risk.evaluate settings run.session.risk request context now
      some
        { run with
          session := { run.session with risk := r.2 }
          accepted :=
            if r.1.Accepts then run.accepted ++ [request.idempotencyKey] else run.accepted }
  | .roundTrip listing draws now =>
      if Lists listing run.session.risk.seenIdempotencyKeys then
        let db := run.session.persistListed column listing run.db
        some { run with session := hydrate cfg (restarted cfg settings draws) db now, db := db }
      else none
  | .outside session db =>
      some
        { run with
          session :=
            { session with
              risk := { session.risk with
                seenIdempotencyKeys := run.session.risk.seenIdempotencyKeys } }
          db := db }

/-- A round trip is made with at most 5000 seen keys. -/
def WithinCap (run : KeyRun) : KeyAction → Prop
  | .roundTrip .. => run.session.risk.seenIdempotencyKeys.dedup.length ≤ 5000
  | _ => True

instance (run : KeyRun) (a : KeyAction) : Decidable (run.WithinCap a) := by
  cases a <;> unfold WithinCap <;> infer_instance

/-- The accepted keys are seen, and none of them twice. -/
structure Remembered (run : KeyRun) : Prop where
  seen : ∀ k ∈ run.accepted, k ∈ run.session.risk.seenIdempotencyKeys
  nodup : run.accepted.Nodup

variable {settings : RiskSettings} {cfg : PaperConfig} {column : ℚ → ℚ}

theorem step_roundTrip {run : KeyRun} {listing : List String}
    (h : Lists listing run.session.risk.seenIdempotencyKeys) (draws : ℕ) (now : Time) :
    run.step settings cfg column (.roundTrip listing draws now) =
      some
        { run with
          session := hydrate cfg (restarted cfg settings draws)
            (run.session.persistListed column listing run.db) now
          db := run.session.persistListed column listing run.db } := by
  simp only [step]
  rw [if_pos h]

theorem step_evaluate {run : KeyRun} {e : RiskEvaluation} {state : RiskEngineState}
    {request : OrderRequest} {context : RiskContext} {now : Time}
    (h : Risk.evaluate settings run.session.risk request context now = (e, state))
    (haccepts : e.Accepts) :
    run.step settings cfg column (.evaluate request context now) =
      some
        { run with
          session := { run.session with risk := state }
          accepted := run.accepted ++ [request.idempotencyKey] } := by
  simp only [step, h, if_pos haccepts]

/-- A listing has one entry for each key. -/
theorem length_of_lists {listing keys : List String} (h : Lists listing keys) :
    listing.length = keys.dedup.length := by
  refine List.Perm.length_eq ((List.perm_ext_iff_of_nodup h.1 keys.nodup_dedup).mpr fun k => ?_)
  rw [List.mem_dedup]
  exact ⟨h.2.1 k, h.2.2 k⟩

/-- Within the cap a persist writes every key. -/
theorem mem_lastKeys {listing keys : List String} {k : String} (h : Lists listing keys)
    (hcap : keys.dedup.length ≤ 5000) (hk : k ∈ keys) : k ∈ lastKeys listing := by
  have hlength : listing.length = keys.dedup.length := length_of_lists h
  rw [lastKeys, show listing.length - 5000 = 0 by omega, List.drop_zero]
  exact h.2.2 k hk

/-- **What a step does to the seen keys**: within the cap none of the accepted is lost, and
none of them is accepted again. -/
theorem Remembered.step {run run' : KeyRun} {a : KeyAction} (h : run.Remembered)
    (hcap : run.WithinCap a) (hstep : run.step settings cfg column a = some run') :
    run'.Remembered := by
  cases a with
  | outside session db =>
    simp only [KeyRun.step, Option.some.injEq] at hstep
    subst hstep
    exact ⟨h.seen, h.nodup⟩
  | roundTrip listing draws now =>
    simp only [KeyRun.step] at hstep
    split_ifs at hstep with hlists
    rw [Option.some.injEq] at hstep
    subst hstep
    refine ⟨fun k hk => ?_, h.nodup⟩
    have hsaved : k ∈ lastKeys listing := mem_lastKeys hlists hcap (h.seen k hk)
    exact persistListed_seen hsaved
  | evaluate request context now =>
    simp only [KeyRun.step, Option.some.injEq] at hstep
    subst hstep
    have hevaluates : Risk.Evaluates settings run.session.risk request context now
        (Risk.evaluate settings run.session.risk request context now) := Risk.evaluate_evaluates
    generalize Risk.evaluate settings run.session.risk request context now = r at hevaluates ⊢
    cases hevaluates with
    | refused answer hrefuses =>
      simp only [if_neg hrefuses]
      exact ⟨h.seen, h.nodup⟩
    | refusedLate answer hrefuses =>
      simp only [if_neg hrefuses]
      exact ⟨h.seen, h.nodup⟩
    | accepted price z hpassed hsize =>
      have hnew : request.idempotencyKey ∉ run.accepted :=
        fun hmem => hpassed.unseen (h.seen _ hmem)
      simp only [if_pos (Risk.accept_accepts z)]
      refine ⟨fun k hk => ?_, ?_⟩
      · rcases List.mem_append.mp hk with hk | hk
        · exact List.mem_cons_of_mem _ (h.seen k hk)
        · rw [List.mem_singleton.mp hk]
          exact List.mem_cons_self ..
      · exact List.nodup_append.mpr ⟨h.nodup, List.nodup_singleton _, by
          rintro k hk _ hk' rfl
          exact hnew (List.mem_singleton.mp hk' ▸ hk)⟩

end KeyRun

/-- **No key is accepted twice**, along every run of evaluations and round trips that are
made with at most 5000 seen keys. -/
theorem accepted_keys_distinct {settings : RiskSettings} {cfg : PaperConfig} {column : ℚ → ℚ}
    {session : Session} {db : Database} {run : KeyRun}
    (h : Reachable (KeyRun.step settings cfg column) KeyRun.WithinCap ⟨session, db, []⟩ run) :
    run.accepted.Nodup := by
  have hremembered : run.Remembered :=
    h.invariant ⟨fun _ hk => absurd hk List.not_mem_nil, List.nodup_nil⟩
      fun _ _ _ hs hcap hstep => hs.step hcap hstep
  exact hremembered.nodup

/-- A key is refused after a round trip, and another one accepted. -/
theorem accepted_keys_distinct_round_trip :
    ∃ run, Reachable (KeyRun.step {} {} id) KeyRun.WithinCap ⟨Session.fresh {} {}, {}, []⟩ run ∧
      run.accepted = ["a", "b"] ∧ run.accepted.Nodup := by
  obtain ⟨run, hreach, haccepted⟩ : ∃ run,
      Reachable (KeyRun.step {} {} id) KeyRun.WithinCap ⟨Session.fresh {} {}, {}, []⟩ run ∧
        run.accepted = ["a", "b"] :=
    exists_reachable
      [.evaluate (Risk.smallBuy "a") Risk.smallBuyContext 0, .roundTrip ["a"] 0 0,
        .evaluate (Risk.smallBuy "a") Risk.smallBuyContext 0,
        .evaluate (Risk.smallBuy "b") Risk.smallBuyContext 0]
      (by decide +kernel) (by decide +kernel)
  exact ⟨run, hreach, haccepted, accepted_keys_distinct hreach⟩

/-! ### Over the cap -/

namespace KeyRun

/-- As many keys as wanted. -/
def longKey (n : ℕ) : String := String.ofList (List.replicate n 'k')

theorem longKey_injective : Function.Injective longKey := by
  intro m n h
  have hlist : (longKey m).toList = (longKey n).toList := congrArg String.toList h
  simpa [longKey] using congrArg List.length hlist

/-- A healthy engine, with these order times and keys. -/
def healthy (times : List Time) (keys : List String) : RiskEngineState where
  recentOrderTimes := times
  seenIdempotencyKeys := keys

/-- A healthy engine without an order in the last minute accepts a purchase under a new
key. -/
theorem smallBuy_accepted {times : List Time} {keys : List String} {key : String} {now : Time}
    (hold : (times.filter fun t => now - seconds 60 ≤ t) = []) (hnew : key ∉ keys) :
    ∃ e : RiskEvaluation, e.Accepts ∧
      Risk.evaluate {} (healthy times keys) (Risk.smallBuy key) Risk.smallBuyContext now =
        (e, healthy [now] (key :: keys)) := by
  have htrimmed : Risk.trimmed (healthy times keys) now = healthy [] keys := by
    simp only [Risk.trimmed, healthy, hold]
  have hvalues : Risk.firstRefusal (Risk.requestGates {} (healthy times keys) (Risk.smallBuy key)
      Risk.smallBuyContext now) = none := by
    rw [Risk.firstRefusal_eq_none]
    simp only [Risk.requestGates, List.forall_mem_cons, Risk.rejectIf_fails,
      decide_eq_false_iff_not]
    refine ⟨?_, hnew, ?_, ?_, ?_, ?_, List.forall_mem_nil _⟩
    · simp [Risk.stale, Risk.smallBuyContext, healthy]
    all_goals simp [Risk.smallBuy, Risk.smallBuyContext]
  -- the other gates do not read the key
  have hsize : Risk.firstRefusal (Risk.sizeGates {} (Risk.smallBuy key) Risk.smallBuyContext 50) =
      none := by
    show Risk.firstRefusal (Risk.sizeGates {} (Risk.smallBuy "") Risk.smallBuyContext 50) = none
    decide +kernel
  have haccount : Risk.firstRefusal (Risk.accountGates {} (healthy [] keys) (Risk.smallBuy key)
      Risk.smallBuyContext now) = none := by
    show Risk.firstRefusal (Risk.accountGates {} {} (Risk.smallBuy "") Risk.smallBuyContext 0) = none
    decide +kernel
  have happroved : Risk.approvedSize {} (Risk.smallBuy key) Risk.smallBuyContext 50 =
      .ok ⟨1, false⟩ := by
    show Risk.approvedSize {} (Risk.smallBuy "") Risk.smallBuyContext 50 = .ok ⟨1, false⟩
    decide +kernel
  have hpassed : Risk.Passed {} (healthy times keys) (Risk.smallBuy key) Risk.smallBuyContext now 50 :=
    ⟨rfl, hvalues, rfl, by norm_num, hsize, htrimmed ▸ haccount⟩
  refine ⟨_, Risk.accept_accepts ⟨1, false⟩, ?_⟩
  rw [Risk.evaluate_of_passed hpassed happroved, htrimmed]
  rfl

/-- A new session whose engine has these order times and keys. -/
def freshWith (times : List Time) (keys : List String) : Session :=
  { Session.fresh {} {} with risk := healthy times keys }

/-- One purchase every 61 seconds: all keys are accepted. -/
theorem reachable_longKeys (n : ℕ) :
    ∃ times, (∀ t ∈ times, t ≤ seconds (61 * ((n : ℤ) - 1))) ∧
      Reachable (step {} {} id) (fun _ _ => True) ⟨Session.fresh {} {}, {}, []⟩
        ⟨freshWith times ((List.range n).reverse.map longKey), {}, (List.range n).map longKey⟩ := by
  induction n with
  | zero => exact ⟨[], fun t ht => absurd ht List.not_mem_nil, .init⟩
  | succ n ih =>
    obtain ⟨times, htimes, hreach⟩ := ih
    have hold : (times.filter fun t => seconds (61 * (n : ℤ)) - seconds 60 ≤ t) = [] := by
      rw [List.filter_eq_nil_iff]
      intro t ht hle
      have hbound : 0 ≤ (61 * ((n : ℤ) - 1)) * 1000000 - t := sub_nonneg.mpr (htimes t ht)
      have hle' : (61 * (n : ℤ)) * 1000000 - 60 * 1000000 ≤ t := of_decide_eq_true hle
      omega
    have hnew : longKey n ∉ (List.range n).reverse.map longKey := by
      simp [longKey_injective.eq_iff]
    obtain ⟨e, haccepts, heq⟩ := smallBuy_accepted hold hnew
    refine ⟨[seconds (61 * (n : ℤ))], ?_, hreach.step (a := .evaluate (Risk.smallBuy (longKey n))
      Risk.smallBuyContext (seconds (61 * (n : ℤ)))) trivial ?_⟩
    · intro t ht
      rw [List.mem_singleton.mp ht]
      simp
    · simp only [step, freshWith, heq, if_pos haccepts, List.range_succ]
      simp [Risk.smallBuy]

/-- A session without orders restores the keys that were written, and no other. -/
theorem restored_risk {times : List Time} {keys listing : List String}
    (hwritten : lastKeys listing ≠ []) :
    (hydrate {} (restarted {} {} 0) ((freshWith times keys).persistListed id listing {}) 0).risk =
      healthy [] (lastKeys listing) := by
  simp only [persistListed]
  generalize lastKeys listing = written at hwritten ⊢
  cases written with
  | nil => exact absurd rfl hwritten
  | cons k written => rfl

/-- The first key of a listing over the cap is not written. -/
theorem longKeys_first_dropped {n : ℕ} (hn : 5000 < n) :
    longKey 0 ∉ lastKeys ((List.range n).map longKey) := by
  obtain ⟨m, rfl⟩ : ∃ m, n = m + 1 := ⟨n - 1, by omega⟩
  have hdrop : m + 1 - 5000 = m - 5000 + 1 := by omega
  rw [lastKeys, List.length_map, List.length_range, hdrop, List.range_succ_eq_map, List.map_cons,
    List.drop_succ_cons, List.map_map]
  intro hmem
  obtain ⟨j, -, hj⟩ := List.mem_map.mp (List.mem_of_mem_drop hmem)
  exact absurd (longKey_injective hj) (Nat.succ_ne_zero j)

/-- After any number of accepted keys over the cap, a round trip that lists the first of
them before the others lets it be accepted again. -/
theorem accepted_twice_over_cap {n : ℕ} (hn : 5000 < n) :
    ∃ run, Reachable (step {} {} id) (fun _ _ => True) ⟨Session.fresh {} {}, {}, []⟩ run ∧
      ¬run.accepted.Nodup := by
  obtain ⟨times, -, hreach⟩ := reachable_longKeys n
  have hlists : Lists ((List.range n).map longKey) ((List.range n).reverse.map longKey) := by
    refine ⟨List.nodup_range.map longKey_injective, fun k hk => ?_, fun k hk => ?_⟩
    · rw [List.map_reverse]
      exact List.mem_reverse.mpr hk
    · rw [List.map_reverse] at hk
      exact List.mem_reverse.mp hk
  have hwritten : lastKeys ((List.range n).map longKey) ≠ [] := by
    refine List.ne_nil_of_length_pos ?_
    rw [lastKeys, List.length_drop, List.length_map, List.length_range]
    omega
  -- the first key is not restored, so it is accepted again
  obtain ⟨e, haccepts, heq⟩ := @smallBuy_accepted [] (lastKeys ((List.range n).map longKey))
    (longKey 0) 0 rfl (longKeys_first_dropped hn)
  rw [← restored_risk hwritten] at heq
  have htrip := hreach.step trivial (step_roundTrip hlists 0 0)
  refine ⟨_, htrip.step trivial (step_evaluate heq haccepts), fun hnodup => ?_⟩
  have hdisjoint := (List.nodup_append.mp hnodup).2.2
  have hfirst : longKey 0 ∈ (List.range n).map longKey :=
    List.mem_map_of_mem (List.mem_range.mpr (by omega))
  exact hdisjoint _ hfirst _ (List.mem_singleton_self _) rfl

end KeyRun

/-- **A key is accepted twice**: 5001 keys are accepted, a round trip lists the first of
them before the others, and the first is accepted again. -/
theorem key_accepted_twice :
    ∃ run, Reachable (KeyRun.step {} {} id) (fun _ _ => True) ⟨Session.fresh {} {}, {}, []⟩ run ∧
      ¬run.accepted.Nodup :=
  KeyRun.accepted_twice_over_cap (by norm_num : 5000 < 5001)

end Atlas
