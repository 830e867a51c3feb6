import Mathlib.Data.List.Induction
import Mathlib.Data.List.Sort
import Atlas.Lib.Dict

/-!
# Tables with a unique key

A row is written by looking for one with its key: if there is one it is updated, and else one is
created.  After any number of writes a key has what the first of them has created and the others
have updated in turn.

A query for the latest rows orders them from the last to the first, takes so many, and gives them
back in ascending order.

## Main definitions

* `Dict.upsert`, `Dict.upsertAll` — a write, and writes in turn.
* `Dict.latest` — the latest elements of a list in an order.

## Main results

* `Dict.get?_upsertAll` — **what is found under a key after some writes**.
* `Dict.mem_latest` — **an element is among the latest exactly if fewer come after it**.
-/

namespace Dict

/-! ### Writes -/

section Upsert

variable {κ α ω : Type*} [DecidableEq κ] (create : ω → α) (update : ω → α → α) (key : ω → κ)

/-- Update the row of a key, or create it. -/
def upsert (d : Dict κ α) (w : ω) : Dict κ α :=
  d.set (key w) ((d.get? (key w)).elim (create w) (update w))

/-- Write each in turn. -/
def upsertAll (d : Dict κ α) (ws : List ω) : Dict κ α := ws.foldl (upsert create update key) d

/-- The row that some writes under one key lead to. -/
def rowOf (row : Option α) (ws : List ω) : Option α :=
  ws.foldl (fun row w => some (row.elim (create w) (update w))) row

variable {create update key}

/-- **What is found under a key**: what was there, with the writes under that key in turn. -/
theorem get?_upsertAll (d : Dict κ α) (ws : List ω) (k : κ) :
    (d.upsertAll create update key ws).get? k =
      rowOf create update (d.get? k) (ws.filter fun w => key w = k) := by
  induction ws generalizing d with
  | nil => rfl
  | cons w ws ih =>
    have hstep := ih (d.upsert create update key w)
    rw [upsertAll, List.foldl_cons] at *
    rw [hstep, upsert, get?_set]
    by_cases hk : key w = k
    · rw [List.filter_cons_of_pos (by simpa using hk), if_pos hk, ← hk]
      rfl
    · rw [List.filter_cons_of_neg (by simpa using hk), if_neg hk]

theorem upsertAll_append (d : Dict κ α) (ws vs : List ω) :
    d.upsertAll create update key (ws ++ vs) =
      (d.upsertAll create update key ws).upsertAll create update key vs :=
  List.foldl_append

/-- Of updates that replace a row but for what `stamp` keeps, the last one counts, with the stamp
of the first. -/
theorem rowOf_replace {stamp : α → α → α} (hupdate : ∀ w row, update w row = stamp row (create w))
    (hself : ∀ a, stamp a a = a) (hstamp : ∀ a b c, stamp (stamp a b) c = stamp a c) (w : ω)
    (ws : List ω) :
    rowOf create update none (w :: ws) =
      some (stamp (create w) (create ((w :: ws).getLast (List.cons_ne_nil _ _)))) := by
  induction ws using List.reverseRecOn with
  | nil => simp [rowOf, hself]
  | append_singleton ws v ih =>
    have hlast : rowOf create update none (w :: (ws ++ [v])) =
        some ((rowOf create update none (w :: ws)).elim (create v) (update v)) := by
      rw [rowOf, rowOf, ← List.cons_append, List.foldl_append]
      rfl
    rw [hlast, ih]
    simp [hupdate, hstamp]

end Upsert

/-! ### The latest rows -/

section Latest

variable {α κ : Type*} [LinearOrder κ] (key : α → κ)

/-- The latest `n` elements, in ascending order. -/
def latest (n : ℕ) (l : List α) : List α :=
  ((l.insertionSort fun a b => key b ≤ key a).take n).reverse

variable {key} {n : ℕ} {l : List α}

theorem pairwise_insertionSort_key (l : List α) :
    (l.insertionSort fun a b => key b ≤ key a).Pairwise fun a b => key b ≤ key a := by
  have : Std.Total fun a b : α => key b ≤ key a := ⟨fun a b => le_total (key b) (key a)⟩
  have : IsTrans α fun a b => key b ≤ key a := ⟨fun _ _ _ hab hbc => hbc.trans hab⟩
  exact List.pairwise_insertionSort _ _

/-- Elements in strictly descending order are among the first `n` if fewer come before them. -/
theorem mem_take_iff_of_pairwise {x : α} (h : l.Pairwise fun a b => key b < key a) :
    x ∈ l.take n ↔ x ∈ l ∧ l.countP (fun y => key x < key y) < n := by
  induction l generalizing n with
  | nil => simp
  | cons a l ih =>
    obtain ⟨ha, hl⟩ := List.pairwise_cons.mp h
    cases n with
    | zero => simp
    | succ n =>
      rw [List.take_succ_cons, List.mem_cons, List.mem_cons, ih hl]
      by_cases hx : x = a
      · subst hx
        have hnone : (x :: l).countP (fun y => key x < key y) = 0 := by
          rw [List.countP_eq_zero]
          intro y hy
          rcases List.mem_cons.mp hy with rfl | hy
          · simp
          · simpa using (ha y hy).le
        simp [hnone]
      · simp only [hx, false_or]
        refine and_congr_right fun hmem => ?_
        rw [List.countP_cons_of_pos (by simpa using ha x hmem)]
        omega

theorem nodup_insertionSort_key (hnodup : (l.map key).Nodup) :
    (l.insertionSort fun a b => key b ≤ key a).Pairwise fun a b => key b < key a := by
  have hperm := List.perm_insertionSort (fun a b : α => key b ≤ key a) l
  have hne := List.pairwise_map.mp ((hperm.map key).nodup_iff.mpr hnodup)
  exact (pairwise_insertionSort_key l).imp₂ (fun a b hle hne => lt_of_le_of_ne hle hne.symm) hne

/-- **An element is among the latest `n` exactly if fewer than `n` come after it.** -/
theorem mem_latest {x : α} (hnodup : (l.map key).Nodup) :
    x ∈ latest key n l ↔ x ∈ l ∧ l.countP (fun y => key x < key y) < n := by
  have hperm := List.perm_insertionSort (fun a b : α => key b ≤ key a) l
  rw [latest, List.mem_reverse, mem_take_iff_of_pairwise (nodup_insertionSort_key hnodup),
    hperm.mem_iff, hperm.countP_eq]

/-- The latest are given in ascending order. -/
theorem pairwise_latest (hnodup : (l.map key).Nodup) :
    (latest key n l).Pairwise fun a b => key a < key b := by
  rw [latest, List.pairwise_reverse]
  exact (nodup_insertionSort_key hnodup).sublist (List.take_sublist n _)

end Latest

end Dict
