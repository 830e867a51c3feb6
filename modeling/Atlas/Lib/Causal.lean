import Mathlib.Data.List.Basic

/-!
# Causal functions of a series

A function of a series answers each input in turn, and an answer may only use the inputs
up to its own.  Such a function may also start late: the first `n` inputs have no answer.
`Delayed n f` says both at once: the answers to the first `k` inputs are the first `k - n`
answers to all of them.  With `n = 0` there is an answer to every input.

Late functions compose, and their delays add up.  A function that is late by `n` can be
filled up with `n` empty answers, which makes it causal again.

## Main definitions

* `Delayed n f` — the first `k` inputs determine the first `k - n` answers.
* `seeded n seed step` — a recurrence that starts from a seed over `n + 1` inputs.
* `differences op` — an answer for each pair of neighbours.
* `padded n f` — the answers, after `n` empty ones.

## Main results

* `Delayed.comp`, `Delayed.zipWith`, `Delayed.drop` — **how delays compose**.
* `Delayed.tabulate`, `Delayed.seeded`, `Delayed.differences` — what is causal.
* `seeded_induction` — **an invariant of a recurrence**, with the inputs of each value.
* `seeded_map` — a recurrence over translated inputs.
* `Delayed.padded` — **a late function is causal when it is filled up**.
-/

namespace Causal

variable {α β γ δ σ : Type*}

/-- The first `k` inputs determine the first `k - n` answers, and there are no others. -/
structure Delayed (n : ℕ) (f : List α → List β) : Prop where
  length : ∀ xs, (f xs).length = xs.length - n
  take : ∀ xs k, f (xs.take k) = (f xs).take (k - n)

/-! ### How delays compose -/

theorem Delayed.map (g : α → β) : Delayed 0 (List.map g) where
  length := fun _ => List.length_map ..
  take := fun _ _ => List.map_take ..

/-- **Delays add up.** -/
theorem Delayed.comp {m n : ℕ} {f : List α → List β} {g : List β → List γ} (hg : Delayed n g)
    (hf : Delayed m f) : Delayed (m + n) fun xs => g (f xs) where
  length := by
    intro xs
    rw [hg.length, hf.length]
    omega
  take := by
    intro xs k
    rw [hf.take, hg.take, Nat.sub_sub]

theorem Delayed.zipWith {n : ℕ} {f : List α → List β} {g : List α → List γ} (op : β → γ → δ)
    (hf : Delayed n f) (hg : Delayed n g) : Delayed n fun xs => List.zipWith op (f xs) (g xs) where
  length := by
    intro xs
    rw [List.length_zipWith, hf.length, hg.length, Nat.min_self]
  take := by
    intro xs k
    rw [hf.take, hg.take, List.take_zipWith]

/-- Leaving out the first answers is a further delay. -/
theorem Delayed.drop {n : ℕ} {f : List α → List β} (hf : Delayed n f) (m : ℕ) :
    Delayed (n + m) fun xs => (f xs).drop m where
  length := by
    intro xs
    rw [List.length_drop, hf.length, Nat.sub_sub]
  take := by
    intro xs k
    rw [hf.take, List.drop_take, Nat.sub_sub]

/-! ### What is causal -/

/-- An answer computed for each index, from the inputs up to it. -/
theorem Delayed.tabulate {g : List α → ℕ → β}
    (h : ∀ xs k i, i < k → i < xs.length → g (xs.take k) i = g xs i) :
    Delayed 0 fun xs => (List.range xs.length).map (g xs) where
  length := by simp
  take := by
    intro xs k
    refine List.ext_getElem (by simp) fun i hi hi' => ?_
    simp only [List.length_map, List.length_range, List.length_take] at hi
    simp only [List.getElem_map, List.getElem_range, List.getElem_take]
    exact h xs k i (by omega) (by omega)

/-- A recurrence: the first answer is the seed over the first `n + 1` inputs, and every later
one comes from the one before and its input. -/
def seeded (n : ℕ) (seed : List α → σ) (step : σ → α → σ) (xs : List α) : List σ :=
  if xs.length ≤ n then [] else (xs.drop (n + 1)).scanl step (seed (xs.take (n + 1)))

theorem Delayed.seeded (n : ℕ) (seed : List α → σ) (step : σ → α → σ) :
    Delayed n (seeded n seed step) where
  length := by
    intro xs
    unfold Causal.seeded
    split_ifs with hshort
    · rw [List.length_nil, Nat.sub_eq_zero_of_le hshort]
    · rw [List.length_scanl, List.length_drop]
      omega
  take := by
    intro xs k
    unfold Causal.seeded
    rw [List.length_take]
    by_cases hlong : n < xs.length ∧ n < k
    · obtain ⟨hxs, hk⟩ := hlong
      have htaken : ¬min k xs.length ≤ n := by omega
      rw [if_neg htaken, if_neg (Nat.not_le.mpr hxs), List.take_take, List.drop_take,
        Nat.min_eq_left hk, ← List.take_scanl]
      congr 1
      omega
    · -- the recurrence has not started on the first inputs
      have htaken : min k xs.length ≤ n := by omega
      rw [if_pos htaken]
      split_ifs with hxs
      · rw [List.take_nil]
      · have hk : k - n = 0 := by omega
        rw [hk, List.take_zero]

/-- A running state, after each input. -/
theorem Delayed.accumulate (step : σ → α → σ) (init : σ) :
    Delayed 0 fun xs => (xs.scanl step init).tail where
  length := by simp
  take := by
    intro xs k
    rw [← List.take_scanl, Nat.sub_zero]
    cases List.scanl step init xs with
    | nil => simp
    | cons s later => rfl

/-- An answer for each pair of neighbours. -/
def differences (op : α → α → β) (xs : List α) : List β := List.zipWith op xs xs.tail

theorem Delayed.differences (op : α → α → β) : Delayed 1 (differences op) where
  length := by
    intro xs
    rw [Causal.differences, List.length_zipWith, List.length_tail]
    omega
  take := by
    intro xs k
    unfold Causal.differences
    refine List.ext_getElem (by simp; omega) fun i hi hi' => ?_
    simp only [List.getElem_zipWith, List.getElem_take, List.getElem_tail]

/-! ### Invariants of a recurrence -/

section Recurrence

variable {τ : Type*} {n : ℕ} {seed : List α → σ} {step : σ → α → σ}

/-- **What the seed has and a step keeps holds of every value**, together with the inputs
that the value was computed from. -/
theorem seeded_induction {P : List α → σ → Prop}
    (hseed : ∀ first, first.length = n + 1 → P first (seed first))
    (hstep : ∀ before s x, P before s → P (before ++ [x]) (step s x)) {xs : List α} {k : ℕ}
    {s : σ} (h : (seeded n seed step xs)[k]? = some s) : P (xs.take (n + 1 + k)) s := by
  unfold seeded at h
  split_ifs at h with hshort
  · simp at h
  · rw [Nat.not_le] at hshort
    induction k generalizing s with
    | zero =>
      rw [List.getElem?_scanl_zero, Option.some_inj] at h
      subst h
      exact hseed _ (by rw [List.length_take]; omega)
    | succ k ih =>
      rw [List.getElem?_succ_scanl] at h
      obtain ⟨before, hbefore, hlast⟩ := Option.bind_eq_some_iff.mp h
      obtain ⟨x, hx, rfl⟩ := Option.map_eq_some_iff.mp hlast
      rw [List.getElem?_drop] at hx
      have hinputs : xs.take (n + 1 + (k + 1)) = xs.take (n + 1 + k) ++ [x] := by
        rw [← Nat.add_assoc, List.take_add_one, hx, Option.toList_some]
      rw [hinputs]
      exact hstep _ _ _ (ih hbefore)

theorem scanl_map_map {f : α → β} {g : σ → τ} {step' : τ → β → τ}
    (hstep : ∀ s x, step' (g s) (f x) = g (step s x)) (s : σ) (xs : List α) :
    (xs.map f).scanl step' (g s) = (xs.scanl step s).map g := by
  induction xs generalizing s with
  | nil => simp
  | cons x xs ih => rw [List.map_cons, List.scanl_cons, List.scanl_cons, List.map_cons, hstep, ih]

/-- **A recurrence over translated inputs has the translated values**, when seed and step
respect the translation. -/
theorem seeded_map {f : α → β} {g : σ → τ} {seed' : List β → τ} {step' : τ → β → τ}
    (hseed : ∀ first, seed' (first.map f) = g (seed first))
    (hstep : ∀ s x, step' (g s) (f x) = g (step s x)) (xs : List α) :
    seeded n seed' step' (xs.map f) = (seeded n seed step xs).map g := by
  unfold seeded
  rw [List.length_map]
  split_ifs with hshort
  · rfl
  · rw [← List.map_take, ← List.map_drop, hseed, scanl_map_map hstep]

end Recurrence

/-! ### Filling up -/

/-- The answers, after `n` empty ones. -/
def padded (n : ℕ) (f : List α → List β) (xs : List α) : List (Option β) :=
  List.replicate (min n xs.length) none ++ (f xs).map some

/-- **A late function is causal when it is filled up.** -/
theorem Delayed.padded {n : ℕ} {f : List α → List β} (hf : Delayed n f) :
    Delayed 0 (padded n f) where
  length := by
    intro xs
    rw [Causal.padded, List.length_append, List.length_replicate, List.length_map, hf.length]
    omega
  take := by
    intro xs k
    rw [Causal.padded, Causal.padded, hf.take, List.length_take, List.take_append,
      List.take_replicate, List.length_replicate, List.map_take, Nat.sub_zero]
    by_cases hlate : n ≤ xs.length
    · have hempty : min n (min k xs.length) = min k (min n xs.length) := by omega
      rw [hempty, Nat.min_eq_left hlate]
    · -- too short a series has no answer at all
      have hempty : min n (min k xs.length) = min k (min n xs.length) := by omega
      have hnone : f xs = [] := by
        refine List.eq_nil_of_length_eq_zero ?_
        rw [hf.length]
        omega
      rw [hempty, hnone, List.map_nil, List.take_nil, List.take_nil]

theorem length_padded {n : ℕ} {f : List α → List β} (hf : Delayed n f) (xs : List α) :
    (padded n f xs).length = xs.length := hf.padded.length xs

/-- The answer to one input. -/
theorem getElem?_padded {n : ℕ} {f : List α → List β} (hf : Delayed n f) {xs : List α} {i : ℕ}
    (hi : i < xs.length) :
    (padded n f xs)[i]? = some (if i < n then none else (f xs)[i - n]?) := by
  rw [padded, List.getElem?_append, List.length_replicate]
  by_cases hearly : i < n
  · rw [if_pos (by omega), if_pos hearly, List.getElem?_replicate_of_lt (by omega)]
  · rw [if_neg (by omega), if_neg hearly, Nat.min_eq_left (by omega), List.getElem?_map]
    have hin : i - n < (f xs).length := by
      rw [hf.length]
      omega
    rw [List.getElem?_eq_getElem hin]
    rfl

/-- An input has an answer when the function has started. -/
theorem getElem?_padded_eq_some_iff {n : ℕ} {f : List α → List β} (hf : Delayed n f) {xs : List α}
    {i : ℕ} {b : β} :
    (padded n f xs)[i]? = some (some b) ↔ n ≤ i ∧ (f xs)[i - n]? = some b := by
  by_cases hi : i < xs.length
  · rw [getElem?_padded hf hi]
    split_ifs with hearly
    · simp [Nat.not_le.mpr hearly]
    · simp [Nat.not_lt.mp hearly]
  · have hout : (padded n f xs)[i]? = none :=
      List.getElem?_eq_none (by rw [length_padded hf]; exact Nat.not_lt.mp hi)
    have hnone : (f xs)[i - n]? = none :=
      List.getElem?_eq_none (by rw [hf.length]; omega)
    simp [hout, hnone]

end Causal
