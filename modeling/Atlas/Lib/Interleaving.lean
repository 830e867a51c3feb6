import Mathlib.Data.Prod.Basic
import Atlas.Lib.Transition

/-!
# Processes interleaved over a shared state

A system of any number of processes over one shared state.  A move is one atomic
step of one process, which reads and writes the shared state and its own local
state, or a step of the environment.  Every order of moves is a run.

An invariant of such a system has three parts: one about the shared state, one
about each process and the shared state, and one about each pair of processes.
The rule below asks for no more than that a step keeps its own process's part and
does not interfere with the others.

## Main definitions

* `Joint ι γ τ` — the shared state, and the local state of each process.
* `next act env` — the moves as a transition system.
* `Holds G L P` — an invariant in its three parts.

## Main results

* `Holds.reachable` — the rule: an invariant that holds initially, and that no step
  breaks for its own process or for another one, holds in every state reached.
-/

namespace Interleaving

open Transition

/-- The shared state, and the local state of each process. -/
structure Joint (ι γ τ : Type*) where
  shared : γ
  locals : ι → τ

/-- A step of a process, or of the environment. -/
inductive Move (ι α ε : Type*)
  | act (i : ι) (a : α)
  | env (e : ε)

variable {ι γ τ α ε : Type*} [DecidableEq ι]

/-- The moves of a system, from the steps of its processes and its environment. -/
def next (act : ι → α → γ → τ → Option (γ × τ)) (env : ε → γ → Option γ) (s : Joint ι γ τ) :
    Move ι α ε → Option (Joint ι γ τ)
  | .act i a => (act i a s.shared (s.locals i)).map fun r =>
      ⟨r.1, Function.update s.locals i r.2⟩
  | .env e => (env e s.shared).map fun g => { s with shared := g }

/-- An invariant: of the shared state, of each process, and of each two of them. -/
structure Holds (G : γ → Prop) (L : ι → γ → τ → Prop) (P : ι → ι → τ → τ → Prop)
    (s : Joint ι γ τ) : Prop where
  shared : G s.shared
  each : ∀ i, L i s.shared (s.locals i)
  pair : ∀ {i j}, i ≠ j → P i j (s.locals i) (s.locals j)

/-- What a step of the process `i` to `g` and `t` owes the invariant. -/
structure Keeps (G : γ → Prop) (L : ι → γ → τ → Prop) (P : ι → ι → τ → τ → Prop)
    (s : Joint ι γ τ) (i : ι) (g : γ) (t : τ) : Prop where
  shared : G g
  self : L i g t
  other : ∀ j, j ≠ i → L j g (s.locals j)
  pair : ∀ j, j ≠ i → P i j t (s.locals j) ∧ P j i (s.locals j) t

variable {act : ι → α → γ → τ → Option (γ × τ)} {env : ε → γ → Option γ}
  {ok : Joint ι γ τ → Move ι α ε → Prop} {G : γ → Prop} {L : ι → γ → τ → Prop}
  {P : ι → ι → τ → τ → Prop} {s₀ s : Joint ι γ τ}

theorem Holds.update {i : ι} {g : γ} {t : τ} (h : Holds G L P s) (hk : Keeps G L P s i g t) :
    Holds G L P ⟨g, Function.update s.locals i t⟩ where
  shared := hk.shared
  each := fun j => by
    by_cases hj : j = i
    · subst hj
      simpa using hk.self
    · simpa [hj] using hk.other j hj
  pair := fun {j k} hjk => by
    by_cases hj : j = i
    · subst hj
      simpa [Ne.symm hjk] using (hk.pair k hjk.symm).1
    · by_cases hk' : k = i
      · subst hk'
        simpa [hj] using (hk.pair j hj).2
      · simpa [hj, hk'] using h.pair hjk

/-- **The rule for interleaved processes.** -/
theorem Holds.reachable (h : Reachable (next act env) ok s₀ s) (h₀ : Holds G L P s₀)
    (hact : ∀ (s : Joint ι γ τ) i a g t, Holds G L P s → ok s (.act i a) →
      act i a s.shared (s.locals i) = some (g, t) → Keeps G L P s i g t)
    (henv : ∀ (s : Joint ι γ τ) e g, Holds G L P s → ok s (.env e) → env e s.shared = some g →
      G g ∧ ∀ i, L i g (s.locals i)) :
    Holds G L P s := by
  refine h.invariant h₀ fun s m s' hs hok hstep => ?_
  cases m with
  | act i a =>
    obtain ⟨⟨g, t⟩, hr, rfl⟩ := Option.map_eq_some_iff.mp hstep
    exact hs.update (hact s i a g t hs hok hr)
  | env e =>
    obtain ⟨g, hr, rfl⟩ := Option.map_eq_some_iff.mp hstep
    obtain ⟨hG, hL⟩ := henv s e g hs hok hr
    exact ⟨hG, hL, hs.pair⟩

end Interleaving
