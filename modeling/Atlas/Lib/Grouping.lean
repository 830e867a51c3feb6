import Atlas.Lib.Dict
import Mathlib.Algebra.BigOperators.Ring.Finset
import Mathlib.Data.List.Induction
import Mathlib.Order.Bounds.Basic

/-!
# Groups and blocks of a list

A list is gone through once.  Either its elements are collected by a key, in a dictionary of
lists that has the keys in the order of their first appearance; or the elements with a property
are counted as long as they follow each other, and the greatest count is kept.  The keys are then
sorted.

## Main definitions

* `Dict.groupBy key l` — the elements of `l` by their keys.
* `longest p l` — the length of the longest block of elements with the property `p`.

## Main results

* `Dict.get?_groupBy` — **a group has the elements of its key, in their order**.
* `Dict.sum_groupBy` — what is summed up over the groups is summed up over the list.
* `isGreatest_longest` — **the greatest count is the greatest length of a block**.
* `pairwise_mergeSort_le`, `getLast?_mergeSort` — a sorted list, and the greatest element at its
  end.
-/

namespace Dict

variable {κ α β : Type*} [DecidableEq κ]

/-! ### Groups -/

/-- `d.setdefault(k, []).append(a)` -/
def push (d : Dict κ (List α)) (k : κ) (a : α) : Dict κ (List α) :=
  d.set k ((d.get? k).getD [] ++ [a])

/-- The elements of a list by their keys. -/
def groupBy (key : α → κ) (l : List α) : Dict κ (List α) :=
  l.foldl (fun d a => d.push (key a) a) ∅

variable (key : α → κ) (l : List α)

theorem groupBy_concat (a : α) : groupBy key (l ++ [a]) = (groupBy key l).push (key a) a := by
  rw [groupBy, List.foldl_append]
  rfl

/-- **A group has the elements of its key, in their order**; there is no empty group. -/
theorem get?_groupBy (k : κ) :
    (groupBy key l).get? k =
      if l.filter (key · = k) = [] then none else some (l.filter (key · = k)) := by
  induction l using List.reverseRecOn with
  | nil => rfl
  | append_singleton l a ih =>
    rw [groupBy_concat, push, get?_set]
    by_cases hk : key a = k
    · subst hk
      rw [if_pos rfl, ih]
      by_cases hnil : l.filter (key · = key a) = []
      · simp [hnil]
      · simp [hnil]
    · rw [if_neg hk, ih]
      simp [hk]

/-- The groups are those of the elements of the list. -/
theorem mem_entries_groupBy {k : κ} {group : List α} :
    (k, group) ∈ (groupBy key l).entries ↔ (∃ a ∈ l, key a = k) ∧ group = l.filter (key · = k) := by
  have hsome : (∃ a ∈ l, key a = k) ↔ l.filter (key · = k) ≠ [] := by
    simp [List.filter_eq_nil_iff]
  rw [mem_entries_iff, get?_groupBy, hsome]
  by_cases hnil : l.filter (key · = k) = []
  · rw [if_pos hnil]
    exact iff_of_false nofun fun h => h.1 hnil
  · rw [if_neg hnil, Option.some.injEq, eq_comm]
    exact (and_iff_right hnil).symm

/-- What is summed up over the groups is summed up over the list. -/
theorem sum_groupBy [AddCommGroup β] (f : α → β) :
    (groupBy key l).sum (fun group => (group.map f).sum) = (l.map f).sum := by
  induction l using List.reverseRecOn with
  | nil => rfl
  | append_singleton l a ih =>
    rw [groupBy_concat, push, sum_set, ih]
    cases (groupBy key l).get? (key a) with
    | none => simp
    | some group => simp [← add_assoc]

/-- The groups have the elements of the list. -/
theorem sum_length_groupBy :
    ((groupBy key l).entries.map fun e => e.2.length).sum = l.length := by
  have hsum : (groupBy key l).sum (fun group => (group.map fun _ => (1 : ℤ)).sum) =
      (l.map fun _ => (1 : ℤ)).sum := sum_groupBy key l fun _ => (1 : ℤ)
  simp only [Dict.sum, values, List.map_map, List.map_const', List.sum_replicate,
    nsmul_eq_mul, mul_one] at hsum
  rw [← Nat.cast_inj (R := ℤ), ← hsum, Nat.cast_list_sum, List.map_map]
  rfl

end Dict

/-! ### Blocks -/

section

variable {α : Type*} (p : α → Prop)

/-- The lengths of the blocks of elements with the property. -/
def blockLengths (l : List α) : Set ℕ :=
  {n | ∃ block, block <:+: l ∧ (∀ a ∈ block, p a) ∧ block.length = n}

/-- The lengths of those blocks that end where the list ends. -/
def lastLengths (l : List α) : Set ℕ :=
  {n | ∃ block, block <:+ l ∧ (∀ a ∈ block, p a) ∧ block.length = n}

variable {p}

theorem mem_blockLengths_concat {l : List α} {a : α} {n : ℕ} :
    n ∈ blockLengths p (l ++ [a]) ↔ n ∈ lastLengths p (l ++ [a]) ∨ n ∈ blockLengths p l := by
  simp only [blockLengths, lastLengths, Set.mem_ofPred_eq, List.infix_concat_iff, or_and_right,
    exists_or]

theorem mem_lastLengths_concat {l : List α} {a : α} {n : ℕ} :
    n ∈ lastLengths p (l ++ [a]) ↔ n = 0 ∨ p a ∧ ∃ m ∈ lastLengths p l, n = m + 1 := by
  constructor
  · rintro ⟨block, hsuffix, hall, rfl⟩
    rw [List.suffix_concat_iff] at hsuffix
    rcases hsuffix with rfl | ⟨block, rfl, hsuffix⟩
    · exact .inl rfl
    · refine .inr ⟨hall a (by simp), block.length, ⟨block, hsuffix, ?_, rfl⟩, by simp⟩
      exact fun b hb => hall b (by simp [hb])
  · rintro (rfl | ⟨ha, m, ⟨block, hsuffix, hall, rfl⟩, rfl⟩)
    · exact ⟨[], List.nil_suffix, by simp, rfl⟩
    · refine ⟨block ++ [a], ?_, ?_, by simp⟩
      · obtain ⟨before, rfl⟩ := hsuffix
        exact ⟨before, by simp⟩
      · intro b hb
        rcases List.mem_append.mp hb with hb | hb
        · exact hall b hb
        · rwa [List.mem_singleton.mp hb]

variable (p) [DecidablePred p]

/-- The greatest count so far, and the current one. -/
def countStep (acc : ℕ × ℕ) (a : α) : ℕ × ℕ :=
  if p a then (max acc.1 (acc.2 + 1), acc.2 + 1) else (acc.1, 0)

/-- The length of the longest block of elements with a property. -/
def longest (l : List α) : ℕ := (l.foldl (countStep p) (0, 0)).1

variable {p}

/-- The current count is the greatest length of a block at the end, the greatest one that of any
block. -/
theorem isGreatest_foldl_countStep (l : List α) :
    IsGreatest (blockLengths p l) (l.foldl (countStep p) (0, 0)).1 ∧
      IsGreatest (lastLengths p l) (l.foldl (countStep p) (0, 0)).2 := by
  induction l using List.reverseRecOn with
  | nil =>
    have hblocks : blockLengths p [] = {0} := by
      ext n
      simp [blockLengths, eq_comm]
    have hlast : lastLengths p [] = {0} := by
      ext n
      simp [lastLengths, eq_comm]
    rw [hblocks, hlast]
    exact ⟨isGreatest_singleton, isGreatest_singleton⟩
  | append_singleton l a ih =>
    obtain ⟨⟨hbest, hbestle⟩, hcur, hcurle⟩ := ih
    rw [List.foldl_append, List.foldl_cons, List.foldl_nil]
    generalize l.foldl (countStep p) (0, 0) = acc at hbest hbestle hcur hcurle
    have hlast : IsGreatest (lastLengths p (l ++ [a])) (countStep p acc a).2 := by
      rw [countStep]
      split
      · rename_i ha
        refine ⟨mem_lastLengths_concat.mpr (.inr ⟨ha, acc.2, hcur, rfl⟩), fun n hn => ?_⟩
        rcases mem_lastLengths_concat.mp hn with rfl | ⟨-, m, hm, rfl⟩
        · exact Nat.zero_le _
        · exact Nat.succ_le_succ (hcurle hm)
      · rename_i ha
        refine ⟨mem_lastLengths_concat.mpr (.inl rfl), fun n hn => ?_⟩
        rcases mem_lastLengths_concat.mp hn with rfl | ⟨ha', -⟩
        · exact le_rfl
        · exact absurd ha' ha
    refine ⟨?_, hlast⟩
    have hmax : (countStep p acc a).1 = max acc.1 (countStep p acc a).2 := by
      rw [countStep]
      split
      · rfl
      · exact (max_eq_left (Nat.zero_le _)).symm
    rw [hmax]
    refine ⟨?_, fun n hn => ?_⟩
    · rcases max_choice acc.1 (countStep p acc a).2 with h | h <;> rw [h]
      · exact mem_blockLengths_concat.mpr (.inr hbest)
      · exact mem_blockLengths_concat.mpr (.inl hlast.1)
    · rcases mem_blockLengths_concat.mp hn with hn | hn
      · exact le_max_of_le_right (hlast.2 hn)
      · exact le_max_of_le_left (hbestle hn)

/-- **The greatest count is the greatest length of a block.** -/
theorem isGreatest_longest (l : List α) : IsGreatest (blockLengths p l) (longest p l) :=
  (isGreatest_foldl_countStep l).1

end

/-! ### Sorted lists -/

section

variable {α β : Type*} [LinearOrder β]

/-- A list sorted by a key. -/
theorem pairwise_mergeSort_le (key : α → β) (l : List α) :
    (l.mergeSort fun a b => key a ≤ key b).Pairwise (key · ≤ key ·) := by
  have htrans : ∀ a b c, decide (key a ≤ key b) → decide (key b ≤ key c) →
      decide (key a ≤ key c) := by
    intro a b c hab hbc
    exact decide_eq_true ((of_decide_eq_true hab).trans (of_decide_eq_true hbc))
  have htotal : ∀ a b, decide (key a ≤ key b) || decide (key b ≤ key a) := by
    intro a b
    simpa using le_total (key a) (key b)
  exact (List.pairwise_mergeSort htrans htotal l).imp of_decide_eq_true

/-- A list sorted by a key, from the greatest one down. -/
theorem pairwise_mergeSort_ge (key : α → β) (l : List α) :
    (l.mergeSort fun a b => key b ≤ key a).Pairwise (key · ≥ key ·) :=
  @pairwise_mergeSort_le α βᵒᵈ _ key l

/-- The greatest element is at the end of the sorted list. -/
theorem getLast?_mergeSort {l : List β} {m : β} (h : IsGreatest {a | a ∈ l} m) :
    (l.mergeSort fun a b => a ≤ b).getLast? = some m := by
  obtain ⟨hm, hle⟩ := h
  have hsorted : (l.mergeSort fun a b => a ≤ b).Pairwise (· ≤ ·) := pairwise_mergeSort_le id l
  have hmem : m ∈ l.mergeSort fun a b => a ≤ b := List.mem_mergeSort.mpr hm
  have hbound : ∀ a ∈ l.mergeSort fun a b => a ≤ b, a ≤ m := fun a ha =>
    hle (List.mem_mergeSort.mp ha)
  rcases List.eq_nil_or_concat' (l.mergeSort fun a b => a ≤ b) with hnil | ⟨front, last, hlast⟩
  · rw [hnil] at hmem
    cases hmem
  · rw [hlast] at hsorted hmem hbound ⊢
    have hend : last = m := by
      refine le_antisymm (hbound last (by simp)) ?_
      rcases List.mem_append.mp hmem with hfront | hlast
      · exact (List.pairwise_append.mp hsorted).2.2 m hfront last (List.mem_singleton_self _)
      · exact (List.mem_singleton.mp hlast).le
    rw [List.getLast?_concat, hend]

end
