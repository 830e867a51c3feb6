import Atlas.Lib.Transition

/-!
# Unwinding

A machine answers every input and moves on.  The answers to some of its inputs do not
depend on the others if the others can be taken out of the run.  That follows from what
a single input does to two states of the machine that are related: an input that is
watched has the same answer in both and leads to related states, and one that is not
watched, taken in the first state alone, leads to a state that is still related.

The inputs of the run may be restricted by a guard, which is only asked for in the run
that has them all.

## Main definitions

* `answers next out p s as` — the answers to the inputs that satisfy `p`.
* `Unwinds` — the relation that is needed.

## Main results

* `Unwinds.answers_filter` — **the answers are those of the run without the others**.
-/

namespace Unwinding

open Transition

variable {σ α ω : Type*} (next : σ → α → σ) (out : σ → α → ω)

/-- The answers of a run to the inputs that satisfy `p`. -/
def answers (p : α → Prop) [DecidablePred p] : σ → List α → List ω
  | _, [] => []
  | s, a :: as =>
      if p a then out s a :: answers p (next s a) as else answers p (next s a) as

/-- Every input of the run meets the guard in the state it comes to. -/
abbrev Guarded (ok : σ → α → Prop) (s : σ) (as : List α) : Prop :=
  Along (fun s a => some (next s a)) ok s as

/-- The relation is kept by the inputs of two runs, of which the second has only those
that satisfy `p`; these have the same answers. -/
structure Unwinds (ok : σ → α → Prop) (p : α → Prop) (R : σ → σ → Prop) : Prop where
  watched : ∀ {s t a}, R s t → ok s a → p a → out s a = out t a ∧ R (next s a) (next t a)
  hidden : ∀ {s t a}, R s t → ok s a → ¬p a → R (next s a) t

variable {next out} {ok : σ → α → Prop} {p : α → Prop} [DecidablePred p] {R : σ → σ → Prop}

/-- **The answers are those of the run without the other inputs.** -/
theorem Unwinds.answers_filter (h : Unwinds next out ok p R) (as : List α) : ∀ {s t : σ}, R s t →
    Guarded next ok s as → answers next out p s as = answers next out p t (as.filter p) := by
  induction as with
  | nil => exact fun _ _ => rfl
  | cons a as ih =>
    intro s t hrel hok
    obtain ⟨ha, has⟩ := hok
    by_cases hp : p a
    · obtain ⟨hout, hnext⟩ := h.watched hrel ha hp
      rw [List.filter_cons_of_pos (by simpa using hp), answers, answers, if_pos hp, if_pos hp, hout,
        ih hnext has]
    · rw [List.filter_cons_of_neg (by simpa using hp), answers, if_neg hp]
      exact ih (h.hidden hrel ha hp) has

/-- A property of states that the guarded inputs keep holds after the run. -/
theorem Guarded.invariant {I : σ → Prop} (hI : ∀ {s a}, I s → ok s a → I (next s a))
    (as : List α) : ∀ {s : σ}, I s → Guarded next ok s as → I (as.foldl next s) := by
  induction as with
  | nil => exact fun hs _ => hs
  | cons a as ih =>
    intro s hs hok
    exact ih (hI hs hok.1) hok.2

end Unwinding
