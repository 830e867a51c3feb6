import Atlas.Lib.Interleaving

/-!
# Locks held across steps

Processes over a shared state enter and leave a section that a lock guards.  The lock is a flag
of the shared state: it says that it is held, and not by whom.  If a step enters only where the
lock is free and takes it, leaves only with giving it back, and otherwise leaves both alone, the
section excludes, and the lock is held exactly as long as a process is inside.

## Main definitions

* `Passage` — what a step may do with the lock and the section.
* `Guarded` — the section excludes, and the lock is held exactly if a process is inside.

## Main results

* `Guarded.reachable` — **steps that keep to the discipline keep the section guarded**.
-/

namespace Interleaving

open Transition

variable {ι γ τ α ε : Type*} [DecidableEq ι]

/-- What a step may do: neither enter nor leave, enter where the lock is free, or leave. -/
def Passage (held : γ → Prop) (inside : τ → Prop) (g : γ) (t : τ) (g' : γ) (t' : τ) : Prop :=
  ((inside t' ↔ inside t) ∧ (held g' ↔ held g)) ∨ (¬held g ∧ inside t' ∧ held g') ∨
    (inside t ∧ ¬inside t' ∧ ¬held g')

/-- No two processes are inside, and the lock is held exactly if one is. -/
structure Guarded (held : γ → Prop) (inside : τ → Prop) (s : Joint ι γ τ) : Prop where
  exclusive : ∀ i j, inside (s.locals i) → inside (s.locals j) → i = j
  held_iff : held s.shared ↔ ∃ i, inside (s.locals i)

variable {held : γ → Prop} {inside : τ → Prop} {s : Joint ι γ τ}

/-- One step of a process. -/
theorem Guarded.update {i : ι} {g : γ} {t : τ} (h : Guarded held inside s)
    (hp : Passage held inside s.shared (s.locals i) g t) :
    Guarded held inside ⟨g, Function.update s.locals i t⟩ := by
  have hother {j : ι} (hj : j ≠ i) : Function.update s.locals i t j = s.locals j :=
    Function.update_of_ne hj t s.locals
  rcases hp with ⟨hinside, hheld⟩ | ⟨hfree, hin, htaken⟩ | ⟨hin, hout, hgiven⟩
  · -- each process is inside exactly if it was
    have hsame (j : ι) : inside (Function.update s.locals i t j) ↔ inside (s.locals j) := by
      by_cases hj : j = i
      · subst hj
        simpa using hinside
      · rw [hother hj]
    constructor
    · intro j k hj hk
      exact h.exclusive j k ((hsame j).mp hj) ((hsame k).mp hk)
    · rw [hheld, h.held_iff]
      exact exists_congr fun j => (hsame j).symm
  · -- nobody was inside
    have honly (j : ι) (hj : inside (Function.update s.locals i t j)) : j = i := by
      by_contra hne
      rw [hother hne] at hj
      exact hfree (h.held_iff.mpr ⟨j, hj⟩)
    constructor
    · intro j k hj hk
      rw [honly j hj, honly k hk]
    · exact ⟨fun _ => ⟨i, by simpa using hin⟩, fun _ => htaken⟩
  · -- nobody else was inside
    have hnone (j : ι) : ¬inside (Function.update s.locals i t j) := by
      intro hj
      by_cases hji : j = i
      · subst hji
        exact hout (by simpa using hj)
      · rw [hother hji] at hj
        exact hji (h.exclusive j i hj hin)
    constructor
    · exact fun j _ hj => absurd hj (hnone j)
    · exact ⟨fun hg => absurd hg hgiven, fun ⟨j, hj⟩ => absurd hj (hnone j)⟩

variable {act : ι → α → γ → τ → Option (γ × τ)} {env : ε → γ → Option γ}
  {ok : Joint ι γ τ → Move ι α ε → Prop} {s₀ : Joint ι γ τ}

/-- **The rule for a lock.** -/
theorem Guarded.reachable (h : Reachable (next act env) ok s₀ s) (h₀ : Guarded held inside s₀)
    (hact : ∀ i a g t g' t', act i a g t = some (g', t') → Passage held inside g t g' t')
    (henv : ∀ e g g', env e g = some g' → (held g' ↔ held g)) : Guarded held inside s := by
  refine h.invariant h₀ fun s m s' hs _ hstep => ?_
  cases m with
  | act i a =>
    obtain ⟨⟨g, t⟩, hr, rfl⟩ := Option.map_eq_some_iff.mp hstep
    exact hs.update (hact i a _ _ g t hr)
  | env e =>
    obtain ⟨g, hr, rfl⟩ := Option.map_eq_some_iff.mp hstep
    exact ⟨hs.exclusive, (henv e _ g hr).trans hs.held_iff⟩

end Interleaving
