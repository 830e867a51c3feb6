import Mathlib.Data.List.Forall2
import Mathlib.Logic.Basic

/-!
# Sequenced computations that may fail

What a successful or a failed sequence of `Except` computations says about its
steps, and what a list of `Option` computations gives.

## Main results

* `Except.bind_eq_ok` — a sequence succeeds when each step succeeds in turn.
* `Except.bind_eq_error` — it fails when one step fails after the others succeeded.
* `Except.exists_bind_ok`, `Except.exists_bind_ok_and` — a sequence of steps that all succeed.
* `Except.mapM_eq_ok` — a list of computations that all succeed.
* `Except.map_eq_map_of_mapM_eq_ok` — what a list of computations keeps.
* `Except.eq_of_mapM_eq_ok` — a list of computations that change nothing.
* `Option.mapM_eq_some`, `Option.mapM_map` — a list of computations with their results.
-/

namespace Except

universe u v

variable {ε : Type u} {α β : Type v} {x : Except ε α} {f : α → Except ε β}

theorem bind_eq_ok {b : β} : (x >>= f) = .ok b ↔ ∃ a, x = .ok a ∧ f a = .ok b := by
  cases x with
  | error e => simp [bind, Except.bind]
  | ok a => simp [bind, Except.bind]

theorem bind_eq_error {e : ε} :
    (x >>= f) = .error e ↔ x = .error e ∨ ∃ a, x = .ok a ∧ f a = .error e := by
  cases x with
  | error e' => simp [bind, Except.bind]
  | ok a => simp [bind, Except.bind]

/-- A sequence of steps that all succeed succeeds. -/
theorem exists_bind_ok (hx : ∃ a, x = .ok a) (hf : ∀ a, ∃ b, f a = .ok b) :
    ∃ b, (x >>= f) = .ok b := by
  obtain ⟨a, ha⟩ := hx
  obtain ⟨b, hb⟩ := hf a
  exact ⟨b, bind_eq_ok.mpr ⟨a, ha, hb⟩⟩

/-- A sequence of steps that all succeed has what the last of them gives it. -/
theorem exists_bind_ok_and {P : β → Prop} (hx : ∃ a, x = .ok a)
    (hf : ∀ a, ∃ b, f a = .ok b ∧ P b) : ∃ b, (x >>= f) = .ok b ∧ P b := by
  obtain ⟨a, ha⟩ := hx
  obtain ⟨b, hb, hP⟩ := hf a
  exact ⟨b, bind_eq_ok.mpr ⟨a, ha, hb⟩, hP⟩

theorem mapError_eq_ok {ε' : Type u} {g : ε → ε'} {y : Except ε β} {b : β} :
    y.mapError g = .ok b ↔ y = .ok b := by
  cases y with
  | error e =>
    constructor <;> intro h <;> cases h
  | ok b' =>
    constructor <;> intro h
    · rw [Except.ok.inj h]
    · rw [Except.ok.inj h]
      rfl

/-- What is tested of a result is had by one. -/
theorem exists_of_any_toOption {p : α → Bool} (h : x.toOption.any p) :
    ∃ a, x = .ok a ∧ p a = true := by
  cases x with
  | error e => cases h
  | ok a => exact ⟨a, rfl, h⟩

/-- Computations over a list that all succeed give the list of their results. -/
theorem mapM_eq_ok {γ : Type u} {g : γ → Except ε α} {h : γ → α} {l : List γ}
    (hall : ∀ c ∈ l, g c = .ok (h c)) : l.mapM g = .ok (l.map h) := by
  induction l with
  | nil => rfl
  | cons c l ih =>
    rw [List.mapM_cons, hall c (List.mem_cons_self ..),
      ih fun c' hc' => hall c' (List.mem_cons_of_mem _ hc')]
    rfl

/-- What computations over a list keep of their inputs is read off their results. -/
theorem map_eq_map_of_mapM_eq_ok {γ : Type u} {δ : Type*} {g : γ → Except ε α} {l : List γ}
    {results : List α} {before : γ → δ} {after : α → δ}
    (hkept : ∀ c a, g c = .ok a → after a = before c) (h : l.mapM g = .ok results) :
    results.map after = l.map before := by
  induction l generalizing results with
  | nil =>
    rw [← Except.ok.inj h]
    rfl
  | cons c l ih =>
    rw [List.mapM_cons] at h
    obtain ⟨a, ha, hrest⟩ := bind_eq_ok.1 h
    obtain ⟨rest, hl, hcons⟩ := bind_eq_ok.1 hrest
    rw [← Except.ok.inj hcons, List.map_cons, List.map_cons, hkept c a ha, ih hl]

/-- Computations that return what they are given, if anything, do so for a list. -/
theorem eq_of_mapM_eq_ok {γ : Type u} {g : γ → Except ε γ} {l l' : List γ}
    (hsame : ∀ c c', g c = .ok c' → c' = c) (h : l.mapM g = .ok l') : l' = l := by
  induction l generalizing l' with
  | nil => exact (Except.ok.inj h).symm
  | cons c l ih =>
    rw [List.mapM_cons] at h
    obtain ⟨c', hc, hrest⟩ := bind_eq_ok.1 h
    obtain ⟨rest, hl, hcons⟩ := bind_eq_ok.1 hrest
    rw [← Except.ok.inj hcons, hsame c c' hc, ih hl]

/-- A list is passed unchanged exactly if each of its elements is. -/
theorem mapM_eq_ok_iff_self {γ : Type u} {g : γ → Except ε γ} {P : γ → Prop} {l l' : List γ}
    (hsame : ∀ c c', g c = .ok c' ↔ c' = c ∧ P c) :
    l.mapM g = .ok l' ↔ l' = l ∧ ∀ c ∈ l, P c := by
  constructor
  · intro h
    have hl := eq_of_mapM_eq_ok (fun c c' hc => ((hsame c c').mp hc).1) h
    subst hl
    refine ⟨rfl, ?_⟩
    induction l' with
    | nil => exact fun c hc => absurd hc List.not_mem_nil
    | cons c l ih =>
      rw [List.mapM_cons] at h
      obtain ⟨c', hc, hrest⟩ := bind_eq_ok.1 h
      obtain ⟨l', hl, hcons⟩ := bind_eq_ok.1 hrest
      obtain ⟨rfl, rfl⟩ := List.cons.inj (Except.ok.inj hcons)
      intro d hd
      rcases List.mem_cons.mp hd with rfl | hd
      · exact ((hsame _ _).mp hc).2
      · exact ih hl d hd
  · rintro ⟨rfl, hall⟩
    have hmap := mapM_eq_ok (h := id) fun c hc => (hsame c c).mpr ⟨rfl, hall c hc⟩
    rwa [List.map_id] at hmap

end Except

namespace Option

universe u v

variable {α β : Type v} {γ : Type u}

/-- Computations over a list that all have a result give the list of the results. -/
theorem mapM_eq_some {g : γ → Option α} {l : List γ} {results : List α}
    (h : List.Forall₂ (fun c a => g c = some a) l results) : l.mapM g = some results := by
  induction h with
  | nil => rfl
  | cons hc _ ih => rw [List.mapM_cons, hc, ih]; rfl

/-- What is made of each result is made of the list of the results. -/
theorem mapM_map (g : γ → Option α) (f : α → β) (l : List γ) :
    (l.mapM fun c => (g c).map f) = (l.mapM g).map (List.map f) := by
  induction l with
  | nil => rfl
  | cons c l ih =>
    rw [List.mapM_cons, List.mapM_cons, ih]
    cases g c with
    | none => rfl
    | some a => cases l.mapM g <;> rfl

/-- Two sequences that start with one step are compared behind it. -/
theorem bind_bind_eq_map_bind {δ ε : Type v} {x : Option α} {f : α → Option β} {g : β → Option ε}
    {f' : α → Option δ} {h : δ → ε} (hsame : ∀ a, (f a).bind g = (f' a).map h) :
    (x.bind f).bind g = (x.bind f').map h := by
  cases x with
  | none => rfl
  | some a => exact hsame a

end Option
