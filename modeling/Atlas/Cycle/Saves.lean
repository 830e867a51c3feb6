import Mathlib.Data.Finset.Basic
import Atlas.Lib.Interleaving

/-!
# Saving the keys of the processed cycles

Every worker saves its own set of processed keys.  A save is a transaction: it looks for
the row of the keys, puts its set in the place of the value, looks up which of its keys
the table lacks, adds these, and commits.  A load returns the value, or the table if the
value has no keys.  The saves of all workers are interleaved between these steps.

The table never loses a key, but it is read only when the value is empty; and the value
is one worker's set.  So a commit loses the keys of the others that its worker has not
in memory.  No key is lost as long as every commit is of a set that covers what a load
returns, or of an empty one.

The keys are those a worker exports, so their times parse.

## Main definitions

* `KeyStore`, `KeyStore.load` — the value, the table, and `load_cycle_keys`.
* `SaveStage`, `saveStep` — where a save stands, and its next step.
* `CommitCovers` — the set of a commit covers what a load returns, or is empty.

## Main results

* `saveStep_keeps` — what a step of a save keeps.
* `committed_keys_loaded` — **every committed key is loaded if the commits cover**.
* `committed_key_lost` — a second worker's save loses the first one's key.

## References

`app/services/paper_persistence.py`, `app/services/paper_cycle.py`.
-/

namespace Atlas

open Transition Interleaving

namespace Cycle

/-- The two places the keys are stored in, and the keys whose save has committed. -/
structure KeyStore (C : Type*) where
  /-- The row of the keys in `system_state`, if there is one. -/
  value : Option (Finset C)
  table : Finset C
  committed : Finset C

/-- Where a save stands. -/
inductive SaveStage (C : Type*)
  | idle
  | started (keys : Finset C)
  /-- The row was found, or not. -/
  | read (keys : Finset C) (found : Bool)
  /-- The value is staged, and a row for each key the table lacked. -/
  | written (keys : Finset C) (found : Bool) (missing : Finset C)

/-- What a worker does next. -/
inductive SaveAction (C : Type*)
  /-- `save_cycle_keys` is called with these keys. -/
  | start (keys : Finset C)
  | read
  | write
  | commit
  /-- The save raises, and its transaction is rolled back. -/
  | abort
  deriving DecidableEq

variable {ι C : Type*} [DecidableEq C]

/-- `load_cycle_keys`. -/
def KeyStore.load (g : KeyStore C) : Finset C :=
  match g.value with
  | some keys => if keys.Nonempty then keys else g.table
  | none => g.table

/-- What a commit writes. -/
def KeyStore.commit (g : KeyStore C) (keys missing : Finset C) : KeyStore C where
  value := some keys
  table := g.table ∪ missing
  committed := g.committed ∪ keys

/-- The constraints of the two tables allow the commit: a new row, of the value or of a
key, has not been added by another worker. -/
def KeyStore.accepts (g : KeyStore C) (found : Bool) (missing : Finset C) : Prop :=
  (found = true ∨ g.value = none) ∧ Disjoint missing g.table

instance (g : KeyStore C) (found : Bool) (missing : Finset C) : Decidable (g.accepts found missing) :=
  inferInstanceAs (Decidable (_ ∧ _))

/-- The next step of a worker's save. -/
def saveStep (_ : ι) (a : SaveAction C) (g : KeyStore C) (stage : SaveStage C) :
    Option (KeyStore C × SaveStage C) :=
  match a, stage with
  | .start keys, .idle => some (g, .started keys)
  | .read, .started keys => some (g, .read keys g.value.isSome)
  | .write, .read keys found => some (g, .written keys found (keys \ g.table))
  | .commit, .written keys found missing =>
      if g.accepts found missing then some (g.commit keys missing, .idle) else none
  | .abort, _ => some (g, .idle)
  | _, _ => none

/-- Nothing else writes the keys. -/
def noOther (e : Empty) (_ : KeyStore C) : Option (KeyStore C) := nomatch e

/-- The saves of the workers, and the store they share. -/
abbrev Saves (ι C : Type*) := Joint ι (KeyStore C) (SaveStage C)

/-- No save has started: a database with some keys. -/
def unsaved (ι : Type*) (value : Option (Finset C)) (table : Finset C) : Saves ι C :=
  ⟨⟨value, table, ∅⟩, fun _ => .idle⟩

/-- The condition on a commit: the worker's set has every key a load returns, or is
empty. -/
def CommitCovers (s : Saves ι C) : Move ι (SaveAction C) Empty → Prop
  | .act i .commit =>
      match s.locals i with
      | .written keys _ _ => keys = ∅ ∨ s.shared.load ⊆ keys
      | _ => True
  | _ => True

instance (s : Saves ι C) (m : Move ι (SaveAction C) Empty) : Decidable (CommitCovers s m) := by
  unfold CommitCovers
  split
  · split <;> infer_instance
  · infer_instance

/-! ### The invariant -/

/-- A committed key is in the table, and is loaded. -/
structure Kept (g : KeyStore C) : Prop where
  table : g.committed ⊆ g.table
  loaded : g.committed ⊆ g.load

/-- The keys of a save that is about to commit are in the table, or are added to it. -/
def SaveInv (_ : ι) (g : KeyStore C) : SaveStage C → Prop
  | .written keys _ missing => keys ⊆ g.table ∪ missing
  | _ => True

/-- The invariant of the saves. -/
abbrev SavesInv : Saves ι C → Prop := Holds Kept SaveInv (fun _ _ _ _ => True)

/-- What a step owes the invariant. -/
abbrev KeepsSaves : Saves ι C → ι → KeyStore C → SaveStage C → Prop :=
  Keeps Kept SaveInv (fun _ _ _ _ => True)

variable {s : Saves ι C} {i : ι} {g g' : KeyStore C} {stage : SaveStage C}

/-- The table only grows, so it disturbs no save. -/
theorem SaveInv.mono (h : SaveInv i g stage) (hle : g.table ⊆ g'.table) : SaveInv i g' stage := by
  cases stage with
  | written keys found missing =>
    exact fun k hk => Finset.union_subset_union_left hle (h hk)
  | _ => trivial

/-- A step that leaves the store. -/
theorem keeps_of_unsaved (h : SavesInv s) (hself : SaveInv i s.shared stage) :
    KeepsSaves s i s.shared stage where
  shared := h.shared
  self := hself
  other := fun j _ => h.each j
  pair := fun _ _ => ⟨trivial, trivial⟩

/-- **A commit that covers what is loaded keeps every committed key.** -/
theorem Kept.commit {keys missing : Finset C} (h : Kept g) (hkeys : keys ⊆ g.table ∪ missing)
    (hcovers : keys = ∅ ∨ g.load ⊆ keys) : Kept (g.commit keys missing) := by
  have htable : g.committed ∪ keys ⊆ g.table ∪ missing :=
    Finset.union_subset (h.table.trans Finset.subset_union_left) hkeys
  refine ⟨htable, ?_⟩
  by_cases hne : keys.Nonempty
  · -- the value is the worker's set, which covers what was loaded before
    have hload : (g.commit keys missing).load = keys := by
      simp only [KeyStore.load, KeyStore.commit, if_pos hne]
    rw [hload]
    have hall : g.load ⊆ keys := hcovers.resolve_left hne.ne_empty
    exact Finset.union_subset (h.loaded.trans hall) subset_rfl
  · -- the value is empty, so the table is loaded
    have hload : (g.commit keys missing).load = g.table ∪ missing := by
      simp only [KeyStore.load, KeyStore.commit, if_neg hne]
    rw [hload]
    exact htable

/-- **What a step of a save keeps.** -/
theorem saveStep_keeps {a : SaveAction C} {stage' : SaveStage C} (h : SavesInv s)
    (hok : CommitCovers s (.act i a))
    (hstep : saveStep i a s.shared (s.locals i) = some (g', stage')) :
    KeepsSaves s i g' stage' := by
  cases a with
  | abort =>
    simp only [saveStep, Option.some.injEq, Prod.mk.injEq] at hstep
    obtain ⟨rfl, rfl⟩ := hstep
    exact keeps_of_unsaved h trivial
  | start keys =>
    cases hst : s.locals i <;> simp only [hst, saveStep, Option.some.injEq, Prod.mk.injEq,
      reduceCtorEq] at hstep
    obtain ⟨rfl, rfl⟩ := hstep
    exact keeps_of_unsaved h trivial
  | read =>
    cases hst : s.locals i <;> simp only [hst, saveStep, Option.some.injEq, Prod.mk.injEq,
      reduceCtorEq] at hstep
    obtain ⟨rfl, rfl⟩ := hstep
    exact keeps_of_unsaved h trivial
  | write =>
    cases hst : s.locals i <;> simp only [hst, saveStep, Option.some.injEq, Prod.mk.injEq,
      reduceCtorEq] at hstep
    obtain ⟨rfl, rfl⟩ := hstep
    refine keeps_of_unsaved h fun k hk => ?_
    by_cases htable : k ∈ s.shared.table
    · exact Finset.mem_union_left _ htable
    · exact Finset.mem_union_right _ (Finset.mem_sdiff.mpr ⟨hk, htable⟩)
  | commit =>
    cases hst : s.locals i with
    | written keys found missing =>
      simp only [hst, saveStep] at hstep
      split_ifs at hstep with haccepts
      simp only [Option.some.injEq, Prod.mk.injEq] at hstep
      obtain ⟨rfl, rfl⟩ := hstep
      have hkeys : SaveInv i s.shared (s.locals i) := h.each i
      simp only [CommitCovers, hst] at hok
      rw [hst] at hkeys
      exact
        { shared := h.shared.commit hkeys hok
          self := trivial
          other := fun j _ => (h.each j).mono Finset.subset_union_left
          pair := fun _ _ => ⟨trivial, trivial⟩ }
    | _ => simp [hst, saveStep] at hstep

variable [DecidableEq ι]

/-- **Every committed key is loaded**, in every interleaving of saves whose commits cover
what a load returns. -/
theorem committed_keys_loaded {value : Option (Finset C)} {table : Finset C}
    (h : Reachable (next saveStep noOther) CommitCovers (unsaved ι value table) s) :
    s.shared.committed ⊆ s.shared.load := by
  have hI : SavesInv s := by
    refine Holds.reachable h ⟨⟨Finset.empty_subset _, Finset.empty_subset _⟩, fun _ => trivial,
      fun _ => trivial⟩ ?_ ?_
    · exact fun s i a g stage hs hok hstep => saveStep_keeps hs hok hstep
    · exact fun _ e => nomatch e
  exact hI.shared.loaded

/-! ### Two workers -/

/-- A save of a worker, from its start to its commit. -/
def saveMoves (i : Bool) (keys : Finset ℕ) : List (Move Bool (SaveAction ℕ) Empty) :=
  [.act i (.start keys), .act i .read, .act i .write, .act i .commit]

/-- The second worker has the first one's key in memory. -/
theorem committed_keys_loaded_hydrated :
    ∃ s, Reachable (next saveStep noOther) CommitCovers (unsaved Bool none (∅ : Finset ℕ)) s ∧
      s.shared.committed = {1, 2} ∧ s.shared.committed ⊆ s.shared.load := by
  obtain ⟨s, hreach, hcommitted⟩ : ∃ s, Reachable (next saveStep noOther) CommitCovers
      (unsaved Bool none (∅ : Finset ℕ)) s ∧ s.shared.committed = {1, 2} :=
    exists_reachable (saveMoves false {1} ++ saveMoves true {1, 2})
      (by decide +kernel) (by decide +kernel)
  exact ⟨s, hreach, hcommitted, committed_keys_loaded hreach⟩

/-- **A committed key is lost**: the second worker started before the first one's save,
and its own save replaces the value. -/
theorem committed_key_lost :
    ∃ s, Reachable (next saveStep noOther) (fun _ _ => True) (unsaved Bool none (∅ : Finset ℕ)) s ∧
      s.shared.committed = {1, 2} ∧ s.shared.load = {2} ∧ ¬s.shared.committed ⊆ s.shared.load := by
  obtain ⟨s, hreach, hcommitted, hload⟩ : ∃ s, Reachable (next saveStep noOther) (fun _ _ => True)
      (unsaved Bool none (∅ : Finset ℕ)) s ∧ s.shared.committed = {1, 2} ∧ s.shared.load = {2} :=
    exists_reachable (saveMoves false {1} ++ saveMoves true {2})
      (by decide +kernel) (by decide +kernel)
  refine ⟨s, hreach, hcommitted, hload, fun h => ?_⟩
  rw [hcommitted, hload] at h
  exact absurd h (by decide)

end Cycle

end Atlas
