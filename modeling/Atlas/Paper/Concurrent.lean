import Mathlib.Data.Fintype.Basic
import Atlas.Lib.Interleaving
import Atlas.Paper.Operation

/-!
# Concurrent submissions to one engine

`submit` is a coroutine with one suspension, the simulated latency between the
lookup of the idempotency key and the creation of the order.  Any number of calls
are interleaved at that point, with marks, cancellations and expiries in between.

Two calls with the same key that are both past the lookup create two orders.  A
key is submitted once as long as no call with it starts while another one is
suspended; without latency no call is ever suspended.

## Main definitions

* `Call` — where a call of `submit` stands.
* `callStep`, `marketStep` — one atomic block of a call; an operation in between.
* `Alone k` — no call with the key `k` starts while another one is suspended.
* `SubmittedOnce k` — one order, whose fills alone reach the ledger, and which all
  calls return.

## Main results

* `submitted_once` — a key whose calls start alone is submitted once.
* `submitted_once_without_latency` — without latency every call starts alone.

## References

`app/execution/paper/engine.py`, `tests/unit/test_paper_engine.py`.
-/

namespace Atlas

open Transition Interleaving

namespace Paper

/-- Where a call of `submit` stands. -/
inductive Call
  | ready
  /-- Suspended in `asyncio.sleep`. -/
  | waiting
  /-- Returned, or failed with a `KeyError`. -/
  | done (result : Option Order)
  deriving DecidableEq, Repr

/-- What a call reads when it runs: the draw of the random generator, and the clock. -/
structure Tick where
  roll : ℚ := 0
  now : Time := 0
  deriving DecidableEq, Repr

variable {ι : Type*} (cfg : PaperConfig) (requests : ι → OrderRequest × RiskEvaluation)

/-- The idempotency key a call carries. -/
def callKey (i : ι) : String := (requests i).1.idempotencyKey

/-- `submit` after the suspension. -/
def finishCall (i : ι) (t : Tick) (s : PaperState) : PaperState × Call :=
  let r := submitAfterLatency cfg s (requests i).1 (requests i).2 t.roll t.now
  (r.2, .done (some r.1))

/-- One atomic block of a call: the lookup of the key, up to the suspension if the
latency asks for one; then the rest. -/
def callStep (i : ι) (t : Tick) (s : PaperState) : Call → Option (PaperState × Call)
  | .ready =>
      match s.idempotencyIndex.get? (callKey requests i) with
      | some id => some (s, .done (s.orders.get? id))
      | none => if 0 < cfg.latencyMs then some (s, .waiting) else some (finishCall cfg requests i t s)
  | .waiting => some (finishCall cfg requests i t s)
  | .done _ => none

/-- An operation of the engine between two blocks; it is not a submission. -/
def marketStep (op : Op) (s : PaperState) : Option PaperState :=
  match op with
  | .submit _ _ _ _ => none
  | op => some (step cfg s op)

/-- The engine and the calls on it. -/
abbrev Calls (ι : Type*) := Joint ι PaperState Call

/-- A new engine, and calls that have not started. -/
def idle (ι : Type*) (marks : Dict String ℚ) : Calls ι := ⟨fresh cfg marks, fun _ => .ready⟩

/-- No call with the key `k` starts while another one is suspended. -/
def Alone (k : String) (s : Calls ι) : Move ι Tick Op → Prop
  | .act i _ => callKey requests i = k → s.locals i = .ready →
      ∀ j, callKey requests j = k → s.locals j ≠ .waiting
  | .env _ => True

instance [Fintype ι] (k : String) (s : Calls ι) (m : Move ι Tick Op) :
    Decidable (Alone requests k s m) := by
  cases m <;> unfold Alone <;> infer_instance

/-- The key of the order a fill belongs to. -/
def fillKey (s : PaperState) (f : Fill) : Option String :=
  (s.orders.get? f.orderId).map Order.idempotencyKey

/-- **The key `k` is submitted once**: there is one order with it, the fills of
orders with it are that order's, and each call with it has returned that order. -/
structure SubmittedOnce (k : String) (s : Calls ι) : Prop where
  order : ∀ {id id' o o'}, s.shared.orders.get? id = some o → s.shared.orders.get? id' = some o' →
    o.idempotencyKey = k → o'.idempotencyKey = k → id = id'
  fills : ∀ f ∈ s.shared.fills, ∀ f' ∈ s.shared.fills, fillKey s.shared f = some k →
    fillKey s.shared f' = some k → f.orderId = f'.orderId
  returned : ∀ {i r}, callKey requests i = k → s.locals i = .done r →
    ∃ o, r = some o ∧ ∃ o', s.shared.orders.get? o.id = some o' ∧ o'.idempotencyKey = k

/-! ### The index of a key -/

/-- The index names the orders with the key `k`, and nothing else. -/
structure KeyIndexed (k : String) (s : PaperState) : Prop where
  indexed : ∀ {id o}, s.orders.get? id = some o → o.idempotencyKey = k →
    s.idempotencyIndex.get? k = some id
  named : ∀ {id}, s.idempotencyIndex.get? k = some id →
    ∃ o, s.orders.get? id = some o ∧ o.idempotencyKey = k

/-- The orders keep their keys, and the index is the same. -/
structure SameKeys (s s' : PaperState) : Prop where
  index : s'.idempotencyIndex = s.idempotencyIndex
  orders : ∀ id, (s'.orders.get? id).map Order.idempotencyKey =
    (s.orders.get? id).map Order.idempotencyKey

variable {cfg} {s s' s'' : PaperState} {order : Order} {k : String}

theorem SameKeys.refl (s : PaperState) : SameKeys s s := ⟨rfl, fun _ => rfl⟩

theorem SameKeys.trans (h₁ : SameKeys s s') (h₂ : SameKeys s' s'') : SameKeys s s'' :=
  ⟨h₂.index.trans h₁.index, fun id => (h₂.orders id).trans (h₁.orders id)⟩

theorem Works.sameKeys {r : Order × PaperState} (h : Works s order r) (hs : Stored s order) :
    SameKeys s r.2 where
  index := h.frame.index
  orders := fun id => by
    by_cases hid : order.id = id
    · have hstored : r.2.orders.get? id = some r.1 := hid ▸ h.same.id ▸ h.stored
      have hold : s.orders.get? id = some order := hid ▸ hs
      rw [hstored, hold, Option.map_some, Option.map_some, h.same.key]
    · rw [h.frame.orders hid]

/-- The loop over the resting orders keeps the keys. -/
theorem restingLoop_sameKeys {symbol : String} {mark : ℚ} {now : Time} {orders : List Order} :
    ∀ {s : PaperState}, (orders.map Order.id).Nodup → (∀ o ∈ orders, Stored s o) →
      SameKeys s (orders.foldl (triggerOne cfg symbol mark now) s) := by
  induction orders with
  | nil => exact fun _ _ => .refl _
  | cons order orders ih =>
    intro s hids hs
    have hso : Stored s order := hs order (List.mem_cons_self ..)
    obtain ⟨o, hworks⟩ : ∃ o, Works s order (o, triggerOne cfg symbol mark now s order) :=
      triggerOne_works symbol mark hso
    have hlater : Effects cfg (fun _ => True) s _ ∧ ∀ o ∈ orders,
        Stored (triggerOne cfg symbol mark now s order) o :=
      triggerOne_carries hids hs fun _ _ => trivial
    exact (hworks.sameKeys hso).trans (ih (List.nodup_cons.mp hids).2 hlater.2)

theorem Closing.sameKeys (h : Closing s s') : SameKeys s s' := by
  cases h with
  | unchanged => exact .refl s
  | closed order st now hs _ _ => exact (closeOrder_works st hs).sameKeys hs

/-- An operation that is not a submission keeps the keys. -/
theorem marketStep_sameKeys {op : Op} (hk : Keyed s) (h : marketStep cfg op s = some s') :
    SameKeys s s' ∧ Keyed s' := by
  have hkeyed : op.Valid → Keyed (step cfg s op) := fun hop => by
    have heff : Effects cfg (fun _ => True) s (step cfg s op) :=
      step_effects hk hop fun _ _ => trivial
    exact heff.keyed hk
  cases op with
  | submit _ _ _ _ => cases h
  | setMarkPrice symbol price now =>
    obtain rfl := Option.some.inj h
    have hs : ∀ o ∈ s.orders.values, Stored (Paper.markState s symbol price) o :=
      fun o ho => hk.stored_of_mem ho
    have hmark : SameKeys s (Paper.markState s symbol price) := ⟨rfl, fun _ => rfl⟩
    exact ⟨hmark.trans (restingLoop_sameKeys hk.values_nodup hs), hkeyed trivial⟩
  | cancel orderId now =>
    obtain rfl := Option.some.inj h
    exact ⟨(cancel_closing orderId hk).sameKeys, hkeyed trivial⟩
  | expire orderId now =>
    obtain rfl := Option.some.inj h
    exact ⟨(expire_closing orderId hk).sameKeys, hkeyed trivial⟩

theorem KeyIndexed.sameKeys (h : KeyIndexed k s) (hs : SameKeys s s') : KeyIndexed k s' where
  indexed := fun {id o} ho hkey => by
    have hmap := hs.orders id
    rw [ho, Option.map_some, eq_comm, Option.map_eq_some_iff] at hmap
    obtain ⟨o', ho', he⟩ := hmap
    rw [hs.index]
    exact h.indexed ho' (he.trans hkey)
  named := fun {id} hid => by
    rw [hs.index] at hid
    obtain ⟨o, ho, hkey⟩ := h.named hid
    have hmap := hs.orders id
    rw [ho, Option.map_some, Option.map_eq_some_iff] at hmap
    obtain ⟨o', ho', he⟩ := hmap
    exact ⟨o', ho', he.trans hkey⟩

/-- **A submission past the lookup** creates its order under its key, and touches
no other key; the key is still indexed if no order had it. -/
theorem submitAfterLatency_keyIndexed (request : OrderRequest) (risk : RiskEvaluation) (roll : ℚ)
    (now : Time) (hk : Keyed s) (h : KeyIndexed k s)
    (hnew : request.idempotencyKey = k → s.idempotencyIndex.get? k = none) :
    let r := submitAfterLatency cfg s request risk roll now
    (Keyed r.2 ∧ KeyIndexed k r.2) ∧ r.2.idempotencyIndex.get? k =
      if request.idempotencyKey = k then some r.1.id else s.idempotencyIndex.get? k := by
  intro r
  have hworks : Works (created s request now) (newOrder s request now) r :=
    submitAfterLatency_works s request risk roll now
  have hid : r.1.id = .uuid4 s.nextUuid := hworks.same.id
  have hkey : r.1.idempotencyKey = request.idempotencyKey := hworks.same.key
  have hstored : r.2.orders.get? (.uuid4 s.nextUuid) = some r.1 := hid ▸ hworks.stored
  have hindex : r.2.idempotencyIndex.get? k =
      if request.idempotencyKey = k then some r.1.id else s.idempotencyIndex.get? k := by
    rw [hworks.frame.index, hid]
    exact Dict.get?_set ..
  have hother : ∀ {id}, Ident.uuid4 s.nextUuid ≠ id → r.2.orders.get? id = s.orders.get? id := by
    intro id hne
    rw [hworks.frame.orders hne]
    exact Dict.get?_set_ne _ hne _
  refine ⟨⟨hworks.keyed (hk.created request now) (Dict.get?_set_self ..), ?_, ?_⟩, hindex⟩
  · -- the new order is indexed by the submission, the old ones of this key by the lookup
    intro id o ho hok
    rw [hindex]
    by_cases hne : Ident.uuid4 s.nextUuid = id
    · rw [← hne, hstored, Option.some.injEq] at ho
      rw [if_pos (by rw [← hkey, ho, hok]), hid, hne]
    · rw [hother hne] at ho
      have hold := h.indexed ho hok
      have hne' : request.idempotencyKey ≠ k := fun he => by
        rw [hnew he] at hold
        cases hold
      rw [if_neg hne', hold]
  · intro id hget
    rw [hindex] at hget
    split_ifs at hget with he
    · rw [← Option.some.inj hget, hid]
      exact ⟨r.1, hstored, hkey.trans he⟩
    · obtain ⟨o, ho, hok⟩ := h.named hget
      refine ⟨o, ?_, hok⟩
      rwa [hother fun hne => by rw [← hne, hk.get?_next] at ho; cases ho]

/-! ### The invariant of the calls -/

/-- What holds of a call: suspended, it has found no order with the key; returned,
it has returned the order the index names. -/
def CallInv (k : String) (i : ι) (s : PaperState) : Call → Prop
  | .ready => True
  | .waiting => callKey requests i = k → s.idempotencyIndex.get? k = none
  | .done r => callKey requests i = k → ∃ o, r = some o ∧ s.idempotencyIndex.get? k = some o.id

/-- No two calls with the key are suspended. -/
def PairInv (k : String) (i j : ι) (c d : Call) : Prop :=
  callKey requests i = k → callKey requests j = k → c = .waiting → d ≠ .waiting

/-- The invariant of the calls with the key `k`. -/
abbrev CallsInv (k : String) : Calls ι → Prop :=
  Holds (fun s => Keyed s ∧ KeyIndexed k s) (CallInv requests k) (PairInv requests k)

variable {requests}

theorem CallInv.congr {i : ι} {c : Call} (h : CallInv requests k i s c)
    (hindex : s'.idempotencyIndex.get? k = s.idempotencyIndex.get? k) :
    CallInv requests k i s' c := by
  cases c with
  | ready => trivial
  | waiting => exact fun hkey => hindex.trans (h hkey)
  | done r => exact fun hkey => (h hkey).imp fun o ho => ⟨ho.1, hindex.trans ho.2⟩

theorem PairInv.of_ne {i : ι} {c : Call} (hc : c ≠ .waiting) (j : ι) (d : Call) :
    PairInv requests k i j c d ∧ PairInv requests k j i d c :=
  ⟨fun _ _ he => absurd he hc, fun _ _ _ => hc⟩

/-- The rest of a call keeps the invariant, if no other call with the key is past
the lookup. -/
theorem finishCall_keeps {s : Calls ι} {i : ι} (t : Tick) {g : PaperState} {c : Call}
    (h : CallsInv requests k s) (hfinish : finishCall cfg requests i t s.shared = (g, c))
    (hnone : callKey requests i = k → s.shared.idempotencyIndex.get? k = none)
    (halone : callKey requests i = k →
      ∀ j, j ≠ i → callKey requests j = k → s.locals j ≠ .waiting) :
    Keeps (fun s => Keyed s ∧ KeyIndexed k s) (CallInv requests k) (PairInv requests k) s i g c := by
  cases hfinish
  obtain ⟨hshared, hindex⟩ : _ ∧
      (submitAfterLatency cfg s.shared _ _ _ _).2.idempotencyIndex.get? k = _ :=
    submitAfterLatency_keyIndexed (requests i).1 (requests i).2 t.roll t.now h.shared.1 h.shared.2
      hnone
  refine ⟨hshared, fun hkey => ⟨_, rfl, hindex.trans (if_pos hkey)⟩, fun j hj => ?_,
    fun j _ => PairInv.of_ne (by rintro ⟨⟩) j _⟩
  by_cases hkey : callKey requests i = k
  · -- a call with the key cannot have returned: the key would be indexed
    have hj' : CallInv requests k j s.shared (s.locals j) := h.each j
    cases hc : s.locals j with
    | ready => trivial
    | waiting => exact fun hjk => absurd hc (halone hkey j hj hjk)
    | done r =>
      intro hjk
      rw [hc] at hj'
      obtain ⟨o, -, hsome⟩ := hj' hjk
      rw [hnone hkey] at hsome
      cases hsome
  · exact (h.each j).congr (hindex.trans (if_neg hkey))

/-- **One block of a call keeps the invariant**, if it starts alone. -/
theorem callStep_keeps {s : Calls ι} {i : ι} {t : Tick} {g : PaperState} {c : Call}
    (h : CallsInv requests k s) (hok : Alone requests k s (.act i t))
    (hstep : callStep cfg requests i t s.shared (s.locals i) = some (g, c)) :
    Keeps (fun s => Keyed s ∧ KeyIndexed k s) (CallInv requests k) (PairInv requests k) s i g c := by
  cases hc : s.locals i with
  | ready =>
    simp only [hc, callStep] at hstep
    cases hget : s.shared.idempotencyIndex.get? (callKey requests i) with
    | some id =>
      simp only [hget, Option.some.injEq, Prod.mk.injEq] at hstep
      obtain ⟨rfl, rfl⟩ := hstep
      refine ⟨h.shared, fun hkey => ?_, fun j _ => h.each j, fun j _ => PairInv.of_ne (by simp) j _⟩
      obtain ⟨o, ho, -⟩ := h.shared.2.named (hkey ▸ hget)
      exact ⟨o, ho, hkey ▸ hget.trans (congrArg some (h.shared.1.id_eq ho).symm)⟩
    | none =>
      have hnone : callKey requests i = k → s.shared.idempotencyIndex.get? k = none :=
        fun hkey => hkey ▸ hget
      simp only [hget] at hstep
      split_ifs at hstep
      · simp only [Option.some.injEq, Prod.mk.injEq] at hstep
        obtain ⟨rfl, rfl⟩ := hstep
        refine ⟨h.shared, hnone, fun j _ => h.each j, fun j _ => ⟨?_, ?_⟩⟩
        · exact fun hi hj _ => hok hi hc j hj
        · exact fun hj hi hw => absurd hw (hok hi hc j hj)
      · exact finishCall_keeps t h (Option.some.inj hstep) hnone fun hkey j _ => hok hkey hc j
  | waiting =>
    simp only [hc, callStep] at hstep
    have hi : CallInv requests k i s.shared (s.locals i) := h.each i
    rw [hc] at hi
    exact finishCall_keeps t h (Option.some.inj hstep) hi
      fun hkey j hj hjk => h.pair hj.symm hkey hjk hc
  | done r =>
    simp [hc, callStep] at hstep

variable [DecidableEq ι]

/-- In a run whose calls with the key start alone, the invariant holds. -/
theorem callsInv_of_reachable {marks : Dict String ℚ} {s : Calls ι}
    (h : Reachable (next (callStep cfg requests) (marketStep cfg)) (Alone requests k)
      (idle cfg ι marks) s) : CallsInv requests k s := by
  refine Holds.reachable h ⟨⟨Keyed.fresh marks, ?_⟩, fun _ => trivial, ?_⟩ ?_ ?_
  · exact ⟨fun ho => (by cases ho), fun hid => (by cases hid)⟩
  · exact fun _ _ _ hw => (by cases hw)
  · exact fun s i t g c hs hok hstep => callStep_keeps hs hok hstep
  · intro s op g hs _ hstep
    obtain ⟨hsame, hkeyed⟩ := marketStep_sameKeys hs.shared.1 hstep
    exact ⟨⟨hkeyed, hs.shared.2.sameKeys hsame⟩, fun i => (hs.each i).congr (by rw [hsame.index])⟩

omit [DecidableEq ι] in
/-- What the invariant says of the key. -/
theorem CallsInv.submittedOnce {s : Calls ι} (hI : CallsInv requests k s) :
    SubmittedOnce requests k s := by
  -- the index has one order for the key
  have horder : ∀ {id id' o o'}, s.shared.orders.get? id = some o →
      s.shared.orders.get? id' = some o' → o.idempotencyKey = k → o'.idempotencyKey = k →
      id = id' := fun ho ho' hkey hkey' => by
    have hid := hI.shared.2.indexed ho hkey
    rw [hI.shared.2.indexed ho' hkey', Option.some.injEq] at hid
    exact hid.symm
  refine ⟨horder, fun f _ f' _ hf hf' => ?_, fun {i r} hkey hdone => ?_⟩
  · obtain ⟨o, ho, hkey⟩ := Option.map_eq_some_iff.mp hf
    obtain ⟨o', ho', hkey'⟩ := Option.map_eq_some_iff.mp hf'
    exact horder ho ho' hkey hkey'
  · have hi : CallInv requests k i s.shared (s.locals i) := hI.each i
    rw [hdone] at hi
    obtain ⟨o, hr, hindex⟩ := hi hkey
    exact ⟨o, hr, hI.shared.2.named hindex⟩

/-- **A key whose calls start alone is submitted once**, whatever is interleaved. -/
theorem submitted_once {marks : Dict String ℚ} {s : Calls ι}
    (h : Reachable (next (callStep cfg requests) (marketStep cfg)) (Alone requests k)
      (idle cfg ι marks) s) : SubmittedOnce requests k s := by
  have hI : CallsInv requests k s := callsInv_of_reachable h
  exact hI.submittedOnce

/-- Two calls with one key, the second after the first has returned. -/
theorem submitted_once_in_turn :
    let cfg : PaperConfig := { latencyMs := 1 }
    let requests : Bool → OrderRequest × RiskEvaluation := fun _ => marketRequest .buy "a" 1
    ∃ s, Reachable (next (callStep cfg requests) (marketStep cfg)) (Alone requests "a")
        (idle cfg Bool (markAt 100)) s ∧
      s.shared.fills.length = 1 ∧ s.locals true ≠ .ready ∧ SubmittedOnce requests "a" s := by
  intro cfg requests
  obtain ⟨s, hreach, hlen, hdone⟩ : ∃ s, Reachable (next (callStep cfg requests) (marketStep cfg))
      (Alone requests "a") (idle cfg Bool (markAt 100)) s ∧
      s.shared.fills.length = 1 ∧ s.locals true ≠ .ready :=
    exists_reachable [.act false {}, .act false {}, .act true {}] (by decide +kernel)
      (by decide +kernel)
  exact ⟨s, hreach, hlen, hdone, submitted_once hreach⟩

/-- **Two suspended calls with one key create two orders.**  Both pass the lookup
before either is resumed. -/
theorem suspended_calls_submit_twice :
    let cfg : PaperConfig := { latencyMs := 1 }
    let requests : Bool → OrderRequest × RiskEvaluation := fun _ => marketRequest .buy "a" 1
    ∃ s, Reachable (next (callStep cfg requests) (marketStep cfg)) (fun _ _ => True)
        (idle cfg Bool (markAt 100)) s ∧
      s.shared.fills.length = 2 ∧ ¬ SubmittedOnce requests "a" s := by
  intro cfg requests
  obtain ⟨s, hreach, hlen, hfills⟩ : ∃ s, Reachable
      (next (callStep cfg requests) (marketStep cfg)) (fun _ _ => True)
      (idle cfg Bool (markAt 100)) s ∧ s.shared.fills.length = 2 ∧
      ¬ ∀ f ∈ s.shared.fills, ∀ f' ∈ s.shared.fills, fillKey s.shared f = some "a" →
        fillKey s.shared f' = some "a" → f.orderId = f'.orderId :=
    exists_reachable [.act false {}, .act true {}, .act false {}, .act true {}] (by decide +kernel)
      (by decide +kernel)
  exact ⟨s, hreach, hlen, fun h => hfills h.fills⟩

omit [DecidableEq ι] in
/-- Without latency a block of a call does not end in the wait. -/
theorem callStep_not_waiting {i : ι} {t : Tick} {g s : PaperState} {c c' : Call}
    (hlat : cfg.latencyMs = 0) (hc : c ≠ .waiting)
    (hstep : callStep cfg requests i t s c = some (g, c')) : c' ≠ .waiting := by
  cases c with
  | ready =>
    simp only [callStep, hlat, lt_irrefl, if_false] at hstep
    split at hstep
    · rw [Option.some.injEq, Prod.mk.injEq] at hstep
      simp [← hstep.2]
    · cases hstep
      simp
  | waiting => exact absurd rfl hc
  | done r => cases hstep

/-- **Without latency every key is submitted once**: no call is ever suspended. -/
theorem submitted_once_without_latency (hlat : cfg.latencyMs = 0) (k : String)
    {marks : Dict String ℚ} {s : Calls ι}
    (h : Reachable (next (callStep cfg requests) (marketStep cfg)) (fun _ _ => True)
      (idle cfg ι marks) s) : SubmittedOnce requests k s := by
  have hstep : ∀ (s : Calls ι) m s', (∀ j, s.locals j ≠ .waiting) → True →
      next (callStep cfg requests) (marketStep cfg) s m = some s' →
      ∀ j, s'.locals j ≠ .waiting := by
    intro s m s' hs _ hnext
    cases m with
    | env op =>
      obtain ⟨g, -, rfl⟩ := Option.map_eq_some_iff.mp hnext
      exact hs
    | act i t =>
      obtain ⟨⟨g, c⟩, hr, rfl⟩ := Option.map_eq_some_iff.mp hnext
      intro j
      by_cases hj : j = i
      · subst hj
        simpa using callStep_not_waiting hlat (hs j) hr
      · simpa [hj] using hs j
  -- where no call waits, every call starts alone
  have halone : ∀ (s : Calls ι) m, (∀ j, s.locals j ≠ .waiting) → True → Alone requests k s m := by
    intro s m hs _
    cases m with
    | env op => trivial
    | act i t => exact fun _ _ j _ => hs j
  have hreach := Reachable.of_invariant (I := fun s : Calls ι => ∀ j, s.locals j ≠ .waiting) h
    (fun j => by simp [idle]) hstep halone
  exact (callsInv_of_reachable hreach.1).submittedOnce

end Paper

end Atlas
