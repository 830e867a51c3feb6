import Mathlib.Algebra.BigOperators.Group.List.Basic
import Mathlib.Data.List.Basic
import Mathlib.Logic.Function.Basic

/-!
# Transition systems with a partial step function

A system is a state type, an action type and a partial step function: an action
that is not enabled in a state has no successor.  Two things are proved about a
system: what one step preserves, and from it what every run preserves.  The rule
that turns the first into the second is stated once, here.

A run may be *guarded*: `Reachable step ok s₀ s` says that `s` is reached from
`s₀` by steps each of which meets `ok` in the state it is taken from.  An
unguarded run is one whose guard is `fun _ _ => True`.

## Main definitions

* `Reachable step ok s₀ s` — `s` is reached from `s₀` by steps meeting `ok`.
* `exec step s as` — the state after the actions `as`, if each is enabled.
* `Along step ok s as` — every step of that run meets `ok`.
* `note step add s as b` — a history of that run.

## Main results

* `Reachable.invariant` — a property preserved by the guarded steps holds of
  every state reached.
* `reachable_of_exec` — a run that can be executed reaches its last state.
* `exec_iff_along` — a property that a step keeps exactly if it meets the guard.
* `exec_sum` — a quantity that each action raises by its weight.
* `exec_note` — the invariant rule with a history.
* `along_congr` — guards that agree as long as they are met.
-/

namespace Transition

variable {σ α : Type*} {step : σ → α → Option σ} {ok ok' : σ → α → Prop} {s₀ s s' : σ}

/-- The states reached from `s₀` by steps each of which meets `ok` in the state
it is taken from. -/
inductive Reachable (step : σ → α → Option σ) (ok : σ → α → Prop) (s₀ : σ) : σ → Prop
  /-- The initial state. -/
  | init : Reachable step ok s₀ s₀
  /-- One more enabled step that meets the guard. -/
  | step {s s' : σ} {a : α} : Reachable step ok s₀ s → ok s a → step s a = some s' →
      Reachable step ok s₀ s'

/-- **The invariant rule.**  A property of the initial state that every guarded
step preserves holds of every state reached. -/
theorem Reachable.invariant {I : σ → Prop} (h : Reachable step ok s₀ s) (h₀ : I s₀)
    (hstep : ∀ s a s', I s → ok s a → step s a = some s' → I s') : I s := by
  induction h with
  | init => exact h₀
  | step _ hok hs ih => exact hstep _ _ _ ih hok hs

/-- A weaker guard reaches more. -/
theorem Reachable.mono (h : Reachable step ok s₀ s) (hle : ∀ s a, ok s a → ok' s a) :
    Reachable step ok' s₀ s := by
  induction h with
  | init => exact .init
  | step _ hok hs ih => exact .step ih (hle _ _ hok) hs

/-- A run along which an invariant implies another guard meets that guard. -/
theorem Reachable.of_invariant {I : σ → Prop} (h : Reachable step ok s₀ s) (h₀ : I s₀)
    (hstep : ∀ s a s', I s → ok s a → step s a = some s' → I s')
    (hle : ∀ s a, I s → ok s a → ok' s a) : Reachable step ok' s₀ s ∧ I s := by
  induction h with
  | init => exact ⟨.init, h₀⟩
  | step _ hok hs ih => exact ⟨.step ih.1 (hle _ _ ih.2 hok) hs, hstep _ _ _ ih.2 hok hs⟩

/-- Runs compose. -/
theorem Reachable.trans {s₁ : σ} (h₁ : Reachable step ok s₀ s₁) (h₂ : Reachable step ok s₁ s) :
    Reachable step ok s₀ s := by
  induction h₂ with
  | init => exact h₁
  | step _ hok hs ih => exact .step ih hok hs

/-- The state after the actions `as`, if each of them is enabled in turn. -/
def exec (step : σ → α → Option σ) : σ → List α → Option σ
  | s, [] => some s
  | s, a :: as => (step s a).elim none fun s' => exec step s' as

/-- Every step of the run `as` from `s` meets `ok` in the state it is taken from. -/
def Along (step : σ → α → Option σ) (ok : σ → α → Prop) : σ → List α → Prop
  | _, [] => True
  | s, a :: as => ok s a ∧ (step s a).elim True fun s' => Along step ok s' as

instance Along.decidable (step : σ → α → Option σ) (ok : σ → α → Prop)
    [∀ s a, Decidable (ok s a)] : ∀ (s : σ) (as : List α), Decidable (Along step ok s as)
  | _, [] => isTrue trivial
  | s, a :: as =>
      match h : step s a with
      | none => decidable_of_iff (ok s a) (by simp [Along, h])
      | some s' =>
          have := Along.decidable step ok s' as
          decidable_of_iff (ok s a ∧ Along step ok s' as) (by simp [Along, h])

/-- A run that can be executed and whose steps meet the guard reaches its last
state. -/
theorem reachable_of_exec : ∀ {as : List α} {s₀ s : σ}, exec step s₀ as = some s →
    Along step ok s₀ as → Reachable step ok s₀ s := by
  intro as
  induction as with
  | nil =>
    intro s₀ s h _
    rw [exec, Option.some.injEq] at h
    exact h ▸ .init
  | cons a as ih =>
    intro s₀ s h hok
    cases hs : step s₀ a with
    | none => simp [exec, hs] at h
    | some s₁ =>
      simp only [exec, hs, Option.elim] at h
      simp only [Along, hs, Option.elim] at hok
      exact (Reachable.step .init hok.1 hs).trans (ih h hok.2)

/-- A run whose actions meet the guard in every state. -/
theorem along_of_forall : ∀ {as : List α} {s₀ : σ}, (∀ s, ∀ a ∈ as, ok s a) →
    Along step ok s₀ as := by
  intro as
  induction as with
  | nil => exact fun _ => trivial
  | cons a as ih =>
    intro s₀ hall
    refine ⟨hall s₀ a (List.mem_cons_self ..), ?_⟩
    cases step s₀ a with
    | none => trivial
    | some s₁ => exact ih fun s b hb => hall s b (List.mem_cons_of_mem _ hb)

/-- **Two guards that agree as long as they are met.**  The invariant that makes them agree has
to be kept by the steps that meet them only. -/
theorem along_congr {I : σ → Prop} (hguard : ∀ s a, I s → (ok s a ↔ ok' s a))
    (hstep : ∀ s a s', I s → ok' s a → step s a = some s' → I s') :
    ∀ {as : List α} {s₀ : σ}, I s₀ → (Along step ok s₀ as ↔ Along step ok' s₀ as) := by
  intro as
  induction as with
  | nil => exact fun _ => Iff.rfl
  | cons a as ih =>
    intro s₀ h₀
    rw [Along, Along, hguard s₀ a h₀]
    refine and_congr_right fun hok => ?_
    cases hs : step s₀ a with
    | none => exact Iff.rfl
    | some s₁ => exact ih (hstep s₀ a s₁ h₀ hok hs)

/-- **A property that a step keeps or breaks, as its guard says.**  After a run it holds exactly
if it held before and every step met the guard. -/
theorem exec_iff_along {I P : σ → Prop}
    (hstep : ∀ s a s', I s → step s a = some s' → I s' ∧ (P s' ↔ P s ∧ ok s a)) :
    ∀ {as : List α} {s₀ s : σ}, I s₀ → exec step s₀ as = some s →
      (P s ↔ P s₀ ∧ Along step ok s₀ as) := by
  intro as
  induction as with
  | nil =>
    intro s₀ s _ h
    rw [exec, Option.some.injEq] at h
    simp [Along, h]
  | cons a as ih =>
    intro s₀ s h₀ h
    cases hs : step s₀ a with
    | none => simp [exec, hs] at h
    | some s₁ =>
      simp only [exec, hs, Option.elim] at h
      obtain ⟨h₁, hP⟩ := hstep s₀ a s₁ h₀ hs
      rw [ih h₁ h, hP, and_assoc]
      simp only [Along, hs, Option.elim]

/-- **A quantity that a step raises by the weight of its action.**  A run raises it by the weights
of its actions. -/
theorem exec_sum {M : Type*} [AddMonoid M] {I : σ → Prop} {f : σ → M} {w : α → M}
    (hstep : ∀ s a s', I s → ok s a → step s a = some s' → I s' ∧ f s' = f s + w a) :
    ∀ {as : List α} {s₀ s : σ}, I s₀ → exec step s₀ as = some s → Along step ok s₀ as →
      f s = f s₀ + (as.map w).sum := by
  intro as
  induction as with
  | nil =>
    intro s₀ s _ h _
    rw [exec, Option.some.injEq] at h
    simp [h]
  | cons a as ih =>
    intro s₀ s h₀ h hok
    cases hs : step s₀ a with
    | none => simp [exec, hs] at h
    | some s₁ =>
      simp only [exec, hs, Option.elim] at h
      simp only [Along, hs, Option.elim] at hok
      obtain ⟨h₁, hf⟩ := hstep s₀ a s₁ h₀ hok.1 hs
      rw [ih h₁ h hok.2, hf, List.map_cons, List.sum_cons, add_assoc]

/-- What is noted of a run, starting from a note. -/
def note {β : Type*} (step : σ → α → Option σ) (add : σ → α → σ → β → β) : σ → List α → β → β
  | _, [], b => b
  | s, a :: as, b => (step s a).elim b fun s' => note step add s' as (add s a s' b)

/-- **The invariant rule with a history.** -/
theorem exec_note {β : Type*} {add : σ → α → σ → β → β} {J : σ → β → Prop}
    (hstep : ∀ s a s' b, J s b → step s a = some s' → J s' (add s a s' b)) :
    ∀ {as : List α} {s₀ s : σ} {b : β}, J s₀ b → exec step s₀ as = some s →
      J s (note step add s₀ as b) := by
  intro as
  induction as with
  | nil =>
    intro s₀ s b h₀ h
    rw [exec, Option.some.injEq] at h
    exact h ▸ h₀
  | cons a as ih =>
    intro s₀ s b h₀ h
    cases hs : step s₀ a with
    | none => simp [exec, hs] at h
    | some s₁ =>
      simp only [exec, hs, Option.elim] at h
      simp only [note, hs, Option.elim]
      exact ih (hstep s₀ a s₁ b h₀ hs) h

/-- A run that can be executed reaches a state with what its last state has. -/
theorem exists_reachable {P : σ → Prop} [DecidablePred P] (as : List α)
    (hexec : ((exec step s₀ as).any fun s => P s) = true) (hok : Along step ok s₀ as) :
    ∃ s, Reachable step ok s₀ s ∧ P s := by
  obtain ⟨s, hs, hP⟩ := (Option.any_eq_true ..).mp hexec
  exact ⟨s, reachable_of_exec hs hok, of_decide_eq_true hP⟩

/-- A run that can be executed through the step `a`, and another guard from there on. -/
theorem exists_reachable_after {P : σ → Prop} [DecidablePred P] [∀ s a, Decidable (ok' s a)]
    (as : List α) (a : α) (bs : List α)
    (hexec : ((exec step s₀ as).any fun s => (step s a).any fun s' =>
      decide (Along step ok' s' bs) && (exec step s' bs).any fun s => P s) = true)
    (hok : Along step ok s₀ as) :
    ∃ s s', Reachable step ok s₀ s ∧ step s a = some s' ∧ ∃ t, Reachable step ok' s' t ∧ P t := by
  obtain ⟨s, hs, hrest⟩ := (Option.any_eq_true ..).mp hexec
  obtain ⟨s', hstep, hafter⟩ := (Option.any_eq_true ..).mp hrest
  obtain ⟨halong, hlast⟩ := Bool.and_eq_true_iff.mp hafter
  exact ⟨s, s', reachable_of_exec hs hok, hstep,
    exists_reachable bs hlast (of_decide_eq_true halong)⟩

end Transition
