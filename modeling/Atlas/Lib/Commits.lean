import Mathlib.Data.List.Infix

/-!
# Sequences of durable commits

A program that writes to a store by several commits can stop between any two of them.
The store it leaves behind is that after the first `n` commits, for some `n`.

A writer whose commits can be refused stops writing at the first refusal; what it has
written is a prefix of what it set out to write.

## Main definitions

* `after apply d cs n` — the store after the first `n` of the commits `cs`.
* `written accepts apply d cs` — the commits that are made before the first refusal.

## Main results

* `after_invariant` — what each commit keeps holds at every point.
* `after_append_le`, `after_append_add` — a point in a sequence of two parts.
* `written_prefix` — the commits that are made are the first ones.
-/

namespace Commits

variable {δ γ : Type*} {apply : δ → γ → δ} {accepts : δ → γ → Bool} {d : δ} {as bs : List γ}

/-- The store after the first `n` of the commits `cs`. -/
def after (apply : δ → γ → δ) (d : δ) (cs : List γ) (n : ℕ) : δ := (cs.take n).foldl apply d

/-- What each commit keeps holds when all have been made. -/
theorem foldl_invariant {I : δ → Prop} {cs : List γ}
    (hI : ∀ c ∈ cs, ∀ d, I d → I (apply d c)) (hd : I d) : I (cs.foldl apply d) := by
  induction cs generalizing d with
  | nil => exact hd
  | cons c cs ih =>
    exact ih (fun c' hc' => hI c' (List.mem_cons_of_mem c hc'))
      (hI c (List.mem_cons_self ..) d hd)

/-- What each commit keeps holds at every point. -/
theorem after_invariant {I : δ → Prop} {cs : List γ}
    (hI : ∀ c ∈ cs, ∀ d, I d → I (apply d c)) (hd : I d) (n : ℕ) : I (after apply d cs n) :=
  foldl_invariant (fun c hc => hI c (List.mem_of_mem_take hc)) hd

/-- Every commit has been made. -/
theorem after_length (cs : List γ) (d : δ) : after apply d cs cs.length = cs.foldl apply d := by
  rw [after, List.take_length]

/-- A point in the first of two parts. -/
theorem after_append_le {n : ℕ} (h : n ≤ as.length) :
    after apply d (as ++ bs) n = after apply d as n := by
  rw [after, List.take_append_of_le_length h, after]

/-- A point in the second of two parts. -/
theorem after_append_add (k : ℕ) :
    after apply d (as ++ bs) (as.length + k) = after apply (as.foldl apply d) bs k := by
  rw [after, List.take_length_add_append, List.foldl_append, after]

/-- A point in a prefix is one in the whole. -/
theorem after_prefix (h : as <+: bs) (n : ℕ) :
    after apply d as n = after apply d bs (min n as.length) := by
  obtain ⟨cs, rfl⟩ := h
  rw [after_append_le (min_le_right n as.length), after, after]
  rw [List.take_eq_take_min]

/-- The commits that are made before the first refusal. -/
def written (accepts : δ → γ → Bool) (apply : δ → γ → δ) : δ → List γ → List γ
  | _, [] => []
  | d, c :: cs => if accepts d c then c :: written accepts apply (apply d c) cs else []

/-- **The commits that are made are the first ones.** -/
theorem written_prefix (cs : List γ) (d : δ) : written accepts apply d cs <+: cs := by
  induction cs generalizing d with
  | nil => exact List.prefix_refl _
  | cons c cs ih =>
    rw [written]
    split_ifs
    · exact (List.prefix_cons_inj c).mpr (ih (apply d c))
    · exact List.nil_prefix

end Commits
