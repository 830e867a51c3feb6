import Mathlib.Data.Fintype.Basic
import Atlas.Lib.Interleaving
import Atlas.Trading

/-!
# The cycle lock

A row of the table `cycle_locks` is a lease: its primary key is the lock key, and
it names an owner and a time of expiry.  `acquire_cycle_lock` reads the row,
deletes it if it has expired, inserts its own and commits; `release_cycle_lock`
reads the row, and deletes it if it is its own.  Each of these statements is a
step here, and the steps of any number of workers are interleaved in any order.

The database is modelled as far as the lock relies on it: a read sees committed
rows, a key has at most one row, and a key with an uncommitted write blocks the
writes of others.  A delete removes by primary key whatever row is there, so a
worker that has read an expired row can delete the live row of the worker that
took it over in between.  As long as no delete does that (`DeletesOwn`), the lock
excludes.

## Main definitions

* `LockTable` — rows, uncommitted writes, the clock.
* `Phase` — where a worker stands in a call.
* `lockStep`, `tick` — one step of a worker; the passing of time.
* `DeletesOwn` — a delete finds no row, the row the worker has read, or an expired one.

## Main results

* `cycle_lock_excludes` — two workers never hold unexpired leases of one key.

## References

`app/services/cycle_lock.py`, `tests/unit/test_cycle_lock_and_control_plane.py`.
-/

namespace Atlas

open Transition Interleaving

namespace Cycle

/-- A row of `cycle_locks`; the owner is a draw of `uuid4`. -/
structure LockRow where
  owner : ℕ
  expiresAt : Time
  deriving DecidableEq, Repr

/-- The table: the committed rows, and for each key the worker that has an
uncommitted write, with the row it leaves. -/
structure LockTable (ι K : Type*) where
  rows : K → Option LockRow
  pending : K → Option (ι × Option LockRow)
  clock : Time
  draws : ℕ

/-- Where a worker stands. -/
inductive Phase (K : Type*)
  | idle
  /-- `acquire_cycle_lock` has read the clock. -/
  | started (key : K) (ttl now : Time)
  /-- It has read no row, or an expired one. -/
  | looked (key : K) (ttl now : Time) (existing : Option LockRow)
  /-- It has deleted the expired row. -/
  | deleted (key : K) (ttl now : Time)
  /-- It has inserted its row. -/
  | inserted (key : K) (row : LockRow)
  /-- It has returned `ACQUIRED`. -/
  | owner (key : K) (row : LockRow)
  /-- `release_cycle_lock` is called. -/
  | releasing (key : K) (row : LockRow)
  /-- It has read its own row. -/
  | releaseLooked (key : K) (row : LockRow)
  /-- It has deleted the row. -/
  | releaseDeleted (key : K) (row : LockRow)
  deriving DecidableEq, Repr

/-- What a worker does next. -/
inductive LockAction (K : Type*)
  | acquire (key : K) (ttl : Time)
  | release
  /-- The next statement of the call. -/
  | advance
  /-- The statement raises, or the worker dies. -/
  | fail
  deriving DecidableEq, Repr

variable {ι K : Type*} [DecidableEq K]

/-- An uncommitted write: it leaves the row `v` under the key. -/
def LockTable.write (t : LockTable ι K) (i : ι) (key : K) (v : Option LockRow) : LockTable ι K :=
  { t with pending := Function.update t.pending key (some (i, v)) }

/-- The commit of a write. -/
def LockTable.commit (t : LockTable ι K) (key : K) (v : Option LockRow) : LockTable ι K :=
  { t with
    rows := Function.update t.rows key v
    pending := Function.update t.pending key none }

/-- The rollback of what a worker has not committed. -/
def LockTable.rollback [DecidableEq ι] (t : LockTable ι K) (i : ι) : LockTable ι K :=
  { t with pending := fun key => (t.pending key).filter fun w => w.1 ≠ i }

/-- `session.get` of `acquire_cycle_lock`: a row that has not expired ends the call
with `HELD`. -/
def lookup (t : LockTable ι K) (key : K) (ttl now : Time) : Phase K :=
  match t.rows key with
  | some row => if now < row.expiresAt then .idle else .looked key ttl now (some row)
  | none => .looked key ttl now none

/-- The row a worker inserts. -/
def LockTable.newRow (t : LockTable ι K) (ttl now : Time) : LockRow := ⟨t.draws, now + ttl⟩

/-- The insertion of a row, where the key is free. -/
def insertRow (t : LockTable ι K) (i : ι) (key : K) (ttl now : Time) : LockTable ι K × Phase K :=
  ({ t.write i key (some (t.newRow ttl now)) with draws := t.draws + 1 },
    .inserted key (t.newRow ttl now))

/-- The next statement of a call.  A write waits while another worker has an
uncommitted write under the key. -/
def advance (i : ι) (t : LockTable ι K) : Phase K → Option (LockTable ι K × Phase K)
  | .started key ttl now => some (t, lookup t key ttl now)
  | .looked key ttl now (some _) =>
      if (t.pending key).isSome then none
      else
        match t.rows key with
        -- The delete matches no row, and writes nothing.
        | none => some (t, .looked key ttl now none)
        | some _ => some (t.write i key none, .deleted key ttl now)
  | .looked key ttl now none =>
      if (t.pending key).isSome then none
      else
        match t.rows key with
        | none => some (insertRow t i key ttl now)
        -- The primary key is taken: `IntegrityError`, and the call ends with `HELD`.
        | some _ => some (t, .idle)
  | .deleted key ttl now => some (insertRow t i key ttl now)
  | .inserted key row => some (t.commit key (some row), .owner key row)
  | .releasing key row =>
      match t.rows key with
      | some r => some (t, if r.owner = row.owner then .releaseLooked key row else .idle)
      | none => some (t, .idle)
  | .releaseLooked key row =>
      if (t.pending key).isSome then none
      else
        match t.rows key with
        | none => some (t, .idle)
        | some _ => some (t.write i key none, .releaseDeleted key row)
  | .releaseDeleted key _ => some (t.commit key none, .idle)
  | _ => none

/-- One step of a worker. -/
def lockStep [DecidableEq ι] (i : ι) (a : LockAction K) (t : LockTable ι K) (p : Phase K) :
    Option (LockTable ι K × Phase K) :=
  match a, p with
  | .acquire key ttl, .idle => some (t, .started key ttl t.clock)
  | .release, .owner key row => some (t, .releasing key row)
  | .advance, p => advance i t p
  | .fail, _ => some (t.rollback i, .idle)
  | _, _ => none

/-- Time passes. -/
def tick (d : ℕ) (t : LockTable ι K) : Option (LockTable ι K) :=
  some { t with clock := t.clock + d }

/-- The workers and the table they share. -/
abbrev Workers (ι K : Type*) := Joint ι (LockTable ι K) (Phase K)

/-- An empty table, and workers outside a call. -/
def idle (ι K : Type*) (clock : Time) : Workers ι K :=
  ⟨⟨fun _ => none, fun _ => none, clock, 0⟩, fun _ => .idle⟩

/-- The lease of a worker that has returned as owner and has not released. -/
def Phase.lease : Phase K → Option (K × LockRow)
  | .owner key row => some (key, row)
  | .releasing key row => some (key, row)
  | .releaseLooked key row => some (key, row)
  | .releaseDeleted key row => some (key, row)
  | _ => none

/-- A delete under `key` by a worker that has read the row `seen` finds no row, that
row, or an expired one. -/
def FindsOwn (t : LockTable ι K) (key : K) (seen : LockRow) : Prop :=
  ∀ row ∈ t.rows key, row = seen ∨ row.expiresAt ≤ t.clock

/-- **No delete removes the live row of another worker.** -/
def DeletesOwn (s : Workers ι K) : Move ι (LockAction K) ℕ → Prop
  | .act i .advance =>
      match s.locals i with
      | .looked key _ _ (some seen) => FindsOwn s.shared key seen
      | .releaseLooked key row => FindsOwn s.shared key row
      | _ => True
  | _ => True

instance (s : Workers ι K) (m : Move ι (LockAction K) ℕ) : Decidable (DeletesOwn s m) := by
  unfold DeletesOwn FindsOwn
  split
  · split <;> infer_instance
  · infer_instance

/-- **Mutual exclusion**: no two workers hold unexpired leases of one key. -/
def Excludes (s : Workers ι K) : Prop :=
  ∀ i j key row row', i ≠ j → (s.locals i).lease = some (key, row) →
    (s.locals j).lease = some (key, row') → s.shared.clock < row.expiresAt →
    row'.expiresAt ≤ s.shared.clock

/-! ### The invariant of a worker -/

/-- The owner a worker has drawn. -/
def Phase.draw : Phase K → Option ℕ
  | .inserted _ row => some row.owner
  | p => p.lease.map fun l => l.2.owner

/-- What a worker knows between two statements of a call. -/
def Knows (i : ι) (t : LockTable ι K) : Phase K → Prop
  | .started _ _ now => now ≤ t.clock
  | .looked _ _ _ (some seen) => seen.expiresAt ≤ t.clock
  | .deleted key _ _ => t.pending key = some (i, none)
  | .inserted key row => t.pending key = some (i, some row)
  | .releaseDeleted key _ => t.pending key = some (i, none)
  | _ => True

/-- The lease of the worker `i` is in force: the row is committed, and no other
worker is writing under the key. -/
def InForce (i : ι) (t : LockTable ι K) (key : K) (row : LockRow) : Prop :=
  t.rows key = some row ∧ ∀ w v, t.pending key = some (w, v) → w = i

/-- The invariant of a worker: what it knows is so, its unexpired lease is in
force, and its owner has been drawn. -/
structure WorkerInv (i : ι) (t : LockTable ι K) (p : Phase K) : Prop where
  knows : Knows i t p
  lease : ∀ {key row}, p.lease = some (key, row) → t.clock < row.expiresAt → InForce i t key row
  drawn : ∀ o ∈ p.draw, o < t.draws

/-- Two workers have drawn different owners. -/
def Distinct (_ _ : ι) (p q : Phase K) : Prop := ∀ o ∈ p.draw, o ∉ q.draw

/-- The invariant of the lock. -/
abbrev LockInv : Workers ι K → Prop := Holds (fun _ => True) WorkerInv Distinct

variable {i j : ι} {t t' : LockTable ι K} {p q : Phase K} {key : K} {row : LockRow}

omit [DecidableEq K] in
theorem Phase.draw_of_lease (h : p.lease = some (key, row)) : p.draw = some row.owner := by
  cases p <;> simp_all [Phase.lease, Phase.draw]

omit [DecidableEq K] in
/-- A worker is not disturbed by a step that keeps its uncommitted write and its
unexpired lease. -/
theorem WorkerInv.other (h : WorkerInv j t q) (hclock : t'.clock = t.clock)
    (hdraws : t.draws ≤ t'.draws)
    (hpending : ∀ key v, t.pending key = some (j, v) → t'.pending key = some (j, v))
    (hlease : ∀ key row, q.lease = some (key, row) → t.clock < row.expiresAt →
      InForce j t key row → InForce j t' key row) : WorkerInv j t' q where
  knows := by
    have hk := h.knows
    cases q with
    | started key ttl now => exact le_of_le_of_eq hk hclock.symm
    | looked key ttl now existing =>
      cases existing with
      | none => trivial
      | some seen => exact le_of_le_of_eq hk hclock.symm
    | deleted key ttl now => exact hpending _ _ hk
    | inserted key row => exact hpending _ _ hk
    | releaseDeleted key row => exact hpending _ _ hk
    | _ => trivial
  lease := fun {key row} hl hlive => by
    rw [hclock] at hlive
    exact hlease key row hl hlive (h.lease hl hlive)
  drawn := fun o ho => (h.drawn o ho).trans_le hdraws

/-- A write under a key disturbs no worker without an unexpired lease of it. -/
theorem WorkerInv.write (h : WorkerInv j t q) (hij : j ≠ i) (v : Option LockRow) (n : ℕ)
    (hfree : ∀ w, t.pending key = some w → w.1 = i)
    (hlease : ∀ row, q.lease = some (key, row) → t.clock < row.expiresAt → ¬ InForce j t key row) :
    WorkerInv j { t.write i key v with draws := t.draws + n } q := by
  refine h.other rfl (Nat.le_add_right ..) (fun key' v' hp => ?_) fun key' row hl hlive hf => ?_
  · have hne : key' ≠ key := fun he => hij (hfree _ (he ▸ hp))
    simpa [LockTable.write, hne] using hp
  · have hne : key' ≠ key := fun he => hlease row (he ▸ hl) hlive (he ▸ hf)
    simpa [InForce, LockTable.write, hne] using hf

/-- The commit of a write disturbs no other worker: the key was blocked for it. -/
theorem WorkerInv.commit (h : WorkerInv j t q) (hij : j ≠ i) {v v' : Option LockRow}
    (hpending : t.pending key = some (i, v)) : WorkerInv j (t.commit key v') q := by
  refine h.other rfl le_rfl (fun key' w hp => ?_) fun key' row hl hlive hf => ?_
  · have hne : key' ≠ key := by
      rintro rfl
      rw [hpending, Option.some.injEq, Prod.mk.injEq] at hp
      exact hij hp.1.symm
    simpa [LockTable.commit, hne] using hp
  · have hne : key' ≠ key := fun he => hij (hf.2 i v (he ▸ hpending)).symm
    simpa [InForce, LockTable.commit, hne] using hf

omit [DecidableEq K] in
/-- A rollback disturbs no other worker. -/
theorem WorkerInv.rollback [DecidableEq ι] (h : WorkerInv j t q) (hij : j ≠ i) :
    WorkerInv j (t.rollback i) q := by
  refine h.other rfl le_rfl (fun key' w hp => ?_) fun key' row hl hlive hf => ⟨hf.1, ?_⟩
  · simp [LockTable.rollback, hp, hij]
  · intro w v hp
    obtain ⟨hp', -⟩ := Option.filter_eq_some_iff.mp hp
    exact hf.2 w v hp'

omit [DecidableEq K] in
/-- Time passing keeps the invariant of a worker. -/
theorem WorkerInv.tick (h : WorkerInv j t q) (d : ℕ) :
    WorkerInv j { t with clock := t.clock + d } q where
  knows := by
    have hk := h.knows
    have hle : t.clock ≤ t.clock + d := Int.le_add_of_nonneg_right (Int.natCast_nonneg d)
    cases q with
    | started key ttl now => exact le_trans hk hle
    | looked key ttl now existing =>
      cases existing with
      | none => trivial
      | some seen => exact le_trans hk hle
    | _ => exact hk
  lease := fun hl hlive => h.lease hl
    (lt_of_le_of_lt (Int.le_add_of_nonneg_right (Int.natCast_nonneg d)) hlive)
  drawn := h.drawn

variable {s : Workers ι K}

omit [DecidableEq K] in
/-- A step that draws no owner keeps the owners distinct. -/
theorem keeps_of_draw (h : LockInv s) (hself : WorkerInv i t' p)
    (hother : ∀ j, j ≠ i → WorkerInv j t' (s.locals j))
    (hdraw : ∀ o ∈ p.draw, o ∈ (s.locals i).draw) :
    Keeps (fun _ => True) WorkerInv Distinct s i t' p where
  shared := trivial
  self := hself
  other := hother
  pair := fun _ hj => ⟨fun o ho => h.pair hj.symm o (hdraw o ho),
    fun o ho ho' => h.pair hj o ho (hdraw o ho')⟩

omit [DecidableEq K] in
/-- A step to a phase without lease and owner. -/
theorem keeps_of_draw_none (h : LockInv s) (hdraw : p.draw = none) (hknows : Knows i t' p)
    (hother : ∀ j, j ≠ i → WorkerInv j t' (s.locals j)) :
    Keeps (fun _ => True) WorkerInv Distinct s i t' p := by
  refine keeps_of_draw h ⟨hknows, fun hl => ?_, fun o ho => ?_⟩ hother fun o ho => ?_
  · rw [Phase.draw_of_lease hl] at hdraw
    cases hdraw
  · rw [hdraw] at ho
    cases ho
  · rw [hdraw] at ho
    cases ho

/-- An insertion keeps the invariant where no other worker writes under the key or
has an unexpired lease of it. -/
theorem insertRow_keeps (ttl now : Time) (h : LockInv s)
    (hfree : ∀ w, s.shared.pending key = some w → w.1 = i)
    (hlease : ∀ j, j ≠ i → ∀ row, ¬ InForce j s.shared key row)
    (hstep : insertRow s.shared i key ttl now = (t', p)) :
    Keeps (fun _ => True) WorkerInv Distinct s i t' p := by
  cases hstep
  have hlt : ∀ j, ∀ o ∈ (s.locals j).draw, o ≠ s.shared.draws := fun j o ho =>
    ((h.each j).drawn o ho).ne
  refine ⟨trivial, ⟨?_, fun hl => ?_, fun o ho => ?_⟩, fun j hj => ?_, fun j hj => ⟨?_, ?_⟩⟩
  · simp [Knows, LockTable.write]
  · cases hl
  · rw [← Option.some.inj ho]
    exact Nat.lt_succ_self _
  · exact (h.each j).write hj _ 1 hfree fun row _ _ => hlease j hj row
  · exact fun o ho ho' => hlt j o ho' (Option.some.inj ho).symm
  · exact fun o ho ho' => hlt j o ho (Option.some.inj ho').symm

/-- A delete keeps the invariant of the other workers where the row it removes is
no other worker's unexpired lease. -/
theorem delete_other (h : LockInv s) (hpend : (s.shared.pending key).isSome = false)
    (hlease : ∀ j, j ≠ i → ∀ row, (s.locals j).lease = some (key, row) →
      s.shared.clock < row.expiresAt → s.shared.rows key ≠ some row) :
    ∀ j, j ≠ i → WorkerInv j (s.shared.write i key none) (s.locals j) := by
  intro j hj
  refine (h.each j).write hj none 0 (fun w hw => ?_) fun row hl hlive hf => ?_
  · rw [hw] at hpend
    cases hpend
  · exact hlease j hj row hl hlive hf.1

/-! ### The statements of a call -/

/-- The statements of a call, with what they find in the table. -/
inductive Advances (i : ι) (t : LockTable ι K) : Phase K → LockTable ι K → Phase K → Prop
  | look (key : K) (ttl now : Time) :
      Advances i t (.started key ttl now) t (lookup t key ttl now)
  | deleteNothing (key : K) (ttl now : Time) (seen : LockRow) :
      Advances i t (.looked key ttl now (some seen)) t (.looked key ttl now none)
  | delete (key : K) (ttl now : Time) (seen : LockRow) (hfree : (t.pending key).isSome = false) :
      Advances i t (.looked key ttl now (some seen)) (t.write i key none) (.deleted key ttl now)
  | taken (key : K) (ttl now : Time) : Advances i t (.looked key ttl now none) t .idle
  | insert (key : K) (ttl now : Time) (hfree : (t.pending key).isSome = false)
      (hrow : t.rows key = none) :
      Advances i t (.looked key ttl now none) (insertRow t i key ttl now).1
        (insertRow t i key ttl now).2
  | insertAgain (key : K) (ttl now : Time) :
      Advances i t (.deleted key ttl now) (insertRow t i key ttl now).1
        (insertRow t i key ttl now).2
  | commitInsert (key : K) (row : LockRow) :
      Advances i t (.inserted key row) (t.commit key (some row)) (.owner key row)
  | ownerFound (key : K) (row : LockRow) :
      Advances i t (.releasing key row) t (.releaseLooked key row)
  | ownerGone (key : K) (row : LockRow) : Advances i t (.releasing key row) t .idle
  | releaseNothing (key : K) (row : LockRow) : Advances i t (.releaseLooked key row) t .idle
  | releaseDelete (key : K) (row : LockRow) (hfree : (t.pending key).isSome = false) :
      Advances i t (.releaseLooked key row) (t.write i key none) (.releaseDeleted key row)
  | commitRelease (key : K) (row : LockRow) :
      Advances i t (.releaseDeleted key row) (t.commit key none) .idle

theorem advance_advances (hstep : advance i t q = some (t', p)) : Advances i t q t' p := by
  cases q with
  | idle => cases hstep
  | started key ttl now =>
    cases hstep
    exact .look key ttl now
  | looked key ttl now existing =>
    cases existing with
    | some seen =>
      simp only [advance] at hstep
      split_ifs at hstep with hpend
      split at hstep <;> cases hstep
      · exact .deleteNothing key ttl now seen
      · exact .delete key ttl now seen (Bool.eq_false_of_not_eq_true hpend)
    | none =>
      simp only [advance] at hstep
      split_ifs at hstep with hpend
      split at hstep
      · next hrow =>
        cases hstep
        exact .insert key ttl now (Bool.eq_false_of_not_eq_true hpend) hrow
      · cases hstep
        exact .taken key ttl now
  | deleted key ttl now =>
    cases hstep
    exact .insertAgain key ttl now
  | inserted key row =>
    cases hstep
    exact .commitInsert key row
  | owner key row => cases hstep
  | releasing key row =>
    simp only [advance] at hstep
    split at hstep <;> cases hstep
    · split_ifs
      · exact .ownerFound key row
      · exact .ownerGone key row
    · exact .ownerGone key row
  | releaseLooked key row =>
    simp only [advance] at hstep
    split_ifs at hstep with hpend
    split at hstep <;> cases hstep
    · exact .releaseNothing key row
    · exact .releaseDelete key row (Bool.eq_false_of_not_eq_true hpend)
  | releaseDeleted key row =>
    cases hstep
    exact .commitRelease key row

omit [DecidableEq K] in
/-- The look at the row: what is taken over has been read as expired. -/
theorem lookup_keeps (ttl now : Time) (h : LockInv s) (hnow : now ≤ s.shared.clock) :
    Keeps (fun _ => True) WorkerInv Distinct s i s.shared (lookup s.shared key ttl now) := by
  have hsame : ∀ j, j ≠ i → WorkerInv j s.shared (s.locals j) := fun j _ => h.each j
  unfold lookup
  split
  · split_ifs with hlive
    · exact keeps_of_draw_none h rfl trivial hsame
    · exact keeps_of_draw_none h rfl ((not_lt.mp hlive).trans hnow) hsame
  · exact keeps_of_draw_none h rfl trivial hsame

/-- The delete of a takeover. -/
theorem delete_keeps {seen : LockRow} (ttl now : Time) (h : LockInv s)
    (hfree : (s.shared.pending key).isSome = false) (hseen : seen.expiresAt ≤ s.shared.clock)
    (hok : FindsOwn s.shared key seen) :
    Keeps (fun _ => True) WorkerInv Distinct s i (s.shared.write i key none)
      (.deleted key ttl now) := by
  have hknows : Knows i (s.shared.write i key none) (.deleted key ttl now) := by
    simp [Knows, LockTable.write]
  refine keeps_of_draw_none h rfl hknows (delete_other h hfree fun j _ row _ hlive he => ?_)
  -- the row in force is the one deleted: it was read as expired, or has expired
  rcases hok row he with rfl | hexp
  · exact absurd hlive (not_lt.mpr hseen)
  · exact absurd hlive (not_lt.mpr hexp)

/-- The delete of a release. -/
theorem releaseDelete_keeps (h : LockInv s) (hp : s.locals i = .releaseLooked key row)
    (hfree : (s.shared.pending key).isSome = false) (hok : FindsOwn s.shared key row) :
    Keeps (fun _ => True) WorkerInv Distinct s i (s.shared.write i key none)
      (.releaseDeleted key row) := by
  have hi : WorkerInv i s.shared (.releaseLooked key row) := hp ▸ h.each i
  refine keeps_of_draw h ⟨by simp [Knows, LockTable.write], fun hl hlive => ?_, hi.drawn⟩
    (delete_other h hfree fun j hj row' hl hlive he => ?_) fun o ho => by rwa [hp]
  · cases hl
    have hf : InForce i s.shared key row := hi.lease rfl hlive
    refine ⟨hf.1, fun w v hw => ?_⟩
    simp only [LockTable.write, Function.update_self, Option.some.injEq, Prod.mk.injEq] at hw
    exact hw.1.symm
  · -- a live row is the worker's own, and two workers never have the same owner
    rcases hok row' he with rfl | hexp
    · exact h.pair hj _ (Phase.draw_of_lease hl) (by rw [hp]; rfl)
    · exact absurd hlive (not_lt.mpr hexp)

/-- **One statement of a call keeps the invariant**, if a delete finds its own row. -/
theorem advance_keeps (h : LockInv s) (hok : DeletesOwn s (.act i .advance))
    (hstep : advance i s.shared (s.locals i) = some (t', p)) :
    Keeps (fun _ => True) WorkerInv Distinct s i t' p := by
  have hi : WorkerInv i s.shared (s.locals i) := h.each i
  have hsame : ∀ j, j ≠ i → WorkerInv j s.shared (s.locals j) := fun j _ => h.each j
  have hadvances : Advances i s.shared (s.locals i) t' p := advance_advances hstep
  simp only [DeletesOwn] at hok
  generalize hp : s.locals i = q at hadvances hi hok
  cases hadvances with
  | look key ttl now => exact lookup_keeps ttl now h hi.knows
  | deleteNothing key ttl now seen => exact keeps_of_draw_none h rfl trivial hsame
  | delete key ttl now seen hfree => exact delete_keeps ttl now h hfree hi.knows hok
  | taken key ttl now => exact keeps_of_draw_none h rfl trivial hsame
  | insert key ttl now hfree hrow =>
    refine insertRow_keeps ttl now h (fun w hw => ?_) (fun j _ row hf => ?_) rfl
    · rw [hw] at hfree
      cases hfree
    · rw [hf.1] at hrow
      cases hrow
  | insertAgain key ttl now =>
    have hpend : s.shared.pending key = some (i, none) := hi.knows
    refine insertRow_keeps ttl now h (fun w hw => ?_) (fun j hj row hf => ?_) rfl
    · rw [hpend, Option.some.injEq] at hw
      rw [← hw]
    · exact hj (hf.2 i none hpend).symm
  | commitInsert key row =>
    refine keeps_of_draw h ⟨trivial, fun hl _ => ?_, hi.drawn⟩
      (fun j hj => (h.each j).commit hj hi.knows) fun o ho => by rwa [hp]
    cases hl
    simp [InForce, LockTable.commit]
  | ownerFound key row =>
    exact keeps_of_draw h ⟨trivial, hi.lease, hi.drawn⟩ hsame fun o ho => by rwa [hp]
  | ownerGone key row => exact keeps_of_draw_none h rfl trivial hsame
  | releaseNothing key row => exact keeps_of_draw_none h rfl trivial hsame
  | releaseDelete key row hfree => exact releaseDelete_keeps h hp hfree hok
  | commitRelease key row =>
    exact keeps_of_draw_none h rfl trivial fun j hj => (h.each j).commit hj hi.knows

variable [DecidableEq ι]

/-- One step of a worker keeps the invariant, if a delete finds its own row. -/
theorem lockStep_keeps {a : LockAction K} (h : LockInv s) (hok : DeletesOwn s (.act i a))
    (hstep : lockStep i a s.shared (s.locals i) = some (t', p)) :
    Keeps (fun _ => True) WorkerInv Distinct s i t' p := by
  have hsame : ∀ j, j ≠ i → WorkerInv j s.shared (s.locals j) := fun j _ => h.each j
  cases a with
  | advance => exact advance_keeps h hok hstep
  | fail =>
    simp only [lockStep, Option.some.injEq, Prod.mk.injEq] at hstep
    obtain ⟨rfl, rfl⟩ := hstep
    exact keeps_of_draw_none h rfl trivial fun j hj => (h.each j).rollback hj
  | acquire key ttl =>
    cases hp : s.locals i with
    | idle =>
      simp only [hp, lockStep, Option.some.injEq, Prod.mk.injEq] at hstep
      obtain ⟨rfl, rfl⟩ := hstep
      exact keeps_of_draw_none h rfl le_rfl hsame
    | _ => simp [hp, lockStep] at hstep
  | release =>
    have hi : WorkerInv i s.shared (s.locals i) := h.each i
    cases hp : s.locals i with
    | owner key row =>
      rw [hp] at hi
      simp only [hp, lockStep, Option.some.injEq, Prod.mk.injEq] at hstep
      obtain ⟨rfl, rfl⟩ := hstep
      exact keeps_of_draw h ⟨trivial, fun hl => hi.lease hl, hi.drawn⟩ hsame fun o ho => by rwa [hp]
    | _ => simp [hp, lockStep] at hstep

/-- **The cycle lock excludes**, as long as no delete removes the live row of another
worker. -/
theorem cycle_lock_excludes {clock : Time}
    (h : Reachable (next lockStep tick) DeletesOwn (idle ι K clock) s) : Excludes s := by
  have hI : LockInv s := by
    refine Holds.reachable h ⟨trivial, fun _ => ?_, fun _ o ho => by cases ho⟩ ?_ ?_
    · exact ⟨trivial, fun hl => (by cases hl), fun o ho => (by cases ho)⟩
    · exact fun s i a t p hs hok hstep => lockStep_keeps hs hok hstep
    · intro s d t hs _ hstep
      cases hstep
      exact ⟨trivial, fun j => (hs.each j).tick d⟩
  intro i j key row row' hij hi hj hlive
  by_contra hlive'
  have hrow : s.shared.rows key = some row := ((hI.each i).lease hi hlive).1
  have hrow' : s.shared.rows key = some row' := ((hI.each j).lease hj (not_le.mp hlive')).1
  have hsame : row = row' := Option.some.inj (hrow.symm.trans hrow')
  subst hsame
  exact hI.pair hij row.owner (Phase.draw_of_lease hi) (Phase.draw_of_lease hj)

/-- A worker that dies, and one that takes over its expired lease. -/
theorem cycle_lock_taken_over :
    ∃ s, Reachable (next lockStep tick) DeletesOwn (idle (Fin 2) Unit 0) s ∧
      s.locals 1 = .owner () ⟨1, 15⟩ ∧ Excludes s := by
  obtain ⟨s, hreach, howner⟩ : ∃ s, Reachable (next lockStep tick) DeletesOwn
      (idle (Fin 2) Unit 0) s ∧ s.locals 1 = .owner () ⟨1, 15⟩ :=
    exists_reachable [.act 0 (.acquire () 5), .act 0 .advance, .act 0 .advance, .act 0 .advance,
      .act 0 .fail, .env 10, .act 1 (.acquire () 5), .act 1 .advance, .act 1 .advance,
      .act 1 .advance, .act 1 .advance] (by decide +kernel) (by decide +kernel)
  exact ⟨s, hreach, howner, cycle_lock_excludes hreach⟩

/-- **Two takeovers of one expired lease both succeed.**  Both have read the expired
row; the second deletes the row the first has put in its place. -/
theorem takeovers_share_lease :
    ∃ s, Reachable (next lockStep tick) (fun _ _ => True) (idle (Fin 3) Unit 0) s ∧
      s.locals 1 = .owner () ⟨1, 15⟩ ∧ s.locals 2 = .owner () ⟨2, 15⟩ ∧ ¬ Excludes s := by
  obtain ⟨s, hreach, hone, htwo, hclock⟩ : ∃ s, Reachable (next lockStep tick) (fun _ _ => True)
      (idle (Fin 3) Unit 0) s ∧ s.locals 1 = .owner () ⟨1, 15⟩ ∧ s.locals 2 = .owner () ⟨2, 15⟩ ∧
      s.shared.clock = 10 :=
    exists_reachable [.act 0 (.acquire () 5), .act 0 .advance, .act 0 .advance, .act 0 .advance,
      .act 0 .fail, .env 10,
      .act 1 (.acquire () 5), .act 1 .advance, .act 2 (.acquire () 5), .act 2 .advance,
      .act 1 .advance, .act 1 .advance, .act 1 .advance,
      .act 2 .advance, .act 2 .advance, .act 2 .advance] (by decide +kernel) (by decide +kernel)
  refine ⟨s, hreach, hone, htwo, fun h => ?_⟩
  have hexp := h 1 2 () ⟨1, 15⟩ ⟨2, 15⟩ (by decide) (by rw [hone]; rfl) (by rw [htwo]; rfl)
    (by rw [hclock]; decide)
  rw [hclock] at hexp
  exact absurd hexp (by decide)

end Cycle

end Atlas
