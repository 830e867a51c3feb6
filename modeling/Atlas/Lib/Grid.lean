import Mathlib.Data.List.Nodup
import Mathlib.Algebra.Order.Ring.Int
import Mathlib.Tactic.Linarith
import Mathlib.Tactic.Ring

/-!
# Points of a grid of integers

A step that is positive makes a grid of every integer: the points that some number of steps
lead to.  `walk` takes the steps up to a bound, and `gaps` walks between each point of a list
and the next.  The gaps of a sorted list of grid points are what it lacks to have every grid
point from its first to its last.

## Main definitions

* `Step` — a positive step.
* `walk` — the points from one on, below a bound.
* `gaps` — the points that a list leaves out.

## Main results

* `walk_eq_map_range` — **a walk comes to an end**, after a number of steps that is given by
  the bound.
* `mem_walk` — the points of a walk.
* `mem_gaps_or_mem` — **the gaps of a sorted list complete it**, and
  `nodup_gaps`, `disjoint_gaps`: with points that it does not have, each once.
-/

namespace Grid

/-- A positive step. -/
structure Step where
  val : ℤ
  pos : 0 < val
  deriving DecidableEq

variable {step : Step} {cursor stop p t : ℤ} {times : List ℤ}

/-! ### Walks -/

/-- The points at a number of steps from the cursor, below a bound. -/
def walk (step : Step) (cursor stop : ℤ) : List ℤ :=
  if cursor < stop then cursor :: walk step (cursor + step.val) stop else []
termination_by (stop - cursor).toNat
decreasing_by
  have hpos := step.pos
  omega

theorem walk_of_lt (h : cursor < stop) :
    walk step cursor stop = cursor :: walk step (cursor + step.val) stop := by
  rw [walk, if_pos h]

theorem walk_of_le (h : stop ≤ cursor) : walk step cursor stop = [] := by
  rw [walk, if_neg h.not_gt]

/-- **A walk comes to an end**: the bound is reached after some number of steps, and not
before. -/
theorem walk_eq_map_range (step : Step) (cursor stop : ℤ) :
    ∃ n : ℕ, (∀ m < n, cursor + m * step.val < stop) ∧ stop ≤ cursor + n * step.val ∧
      walk step cursor stop = (List.range n).map fun m : ℕ => cursor + m * step.val := by
  induction cursor using walk.induct step stop with
  | case1 cursor hlt ih =>
    obtain ⟨n, hbefore, hafter, heq⟩ := ih
    refine ⟨n + 1, ?_, ?_, ?_⟩
    · intro m hm
      cases m with
      | zero => simpa using hlt
      | succ m =>
        have hm' := hbefore m (by omega)
        push_cast
        linarith
    · push_cast
      linarith
    · rw [walk_of_lt hlt, heq, List.range_succ_eq_map, List.map_cons, List.map_map]
      congr 1
      · simp
      · refine List.map_congr_left fun m _ => ?_
        simp only [Function.comp_apply]
        push_cast
        ring
  | case2 cursor hle =>
    refine ⟨0, fun m hm => absurd hm m.not_lt_zero, by simpa using hle, ?_⟩
    rw [walk_of_le (not_lt.1 hle)]
    rfl

/-- The points of a walk. -/
theorem mem_walk : t ∈ walk step cursor stop ↔
    (∃ k : ℕ, t = cursor + k * step.val) ∧ t < stop := by
  obtain ⟨n, hbefore, hafter, heq⟩ := walk_eq_map_range step cursor stop
  rw [heq]
  simp only [List.mem_map, List.mem_range]
  constructor
  · rintro ⟨m, hm, rfl⟩
    exact ⟨⟨m, rfl⟩, hbefore m hm⟩
  · rintro ⟨⟨k, rfl⟩, hlt⟩
    refine ⟨k, ?_, rfl⟩
    by_contra hk
    have hmul : (n : ℤ) * step.val ≤ k * step.val :=
      mul_le_mul_of_nonneg_right (by exact_mod_cast not_lt.1 hk) step.pos.le
    linarith

theorem le_of_mem_walk (h : t ∈ walk step cursor stop) : cursor ≤ t ∧ t < stop := by
  obtain ⟨⟨k, rfl⟩, hlt⟩ := mem_walk.1 h
  have hk : 0 ≤ (k : ℤ) * step.val := mul_nonneg (Int.natCast_nonneg k) step.pos.le
  exact ⟨by linarith, hlt⟩

theorem nodup_walk : (walk step cursor stop).Nodup := by
  obtain ⟨n, -, -, heq⟩ := walk_eq_map_range step cursor stop
  rw [heq]
  refine List.Nodup.map ?_ List.nodup_range
  intro a b hab
  have hmul : (a : ℤ) * step.val = b * step.val := by simpa using hab
  exact_mod_cast mul_right_cancel₀ step.pos.ne' hmul

/-! ### Gaps -/

/-- The points between each point of a list and the next, after a first point. -/
def gaps (step : Step) (p : ℤ) : List ℤ → List ℤ
  | [] => []
  | t :: times => walk step (p + step.val) t ++ gaps step t times

/-- Two points are on one grid. -/
def Aligned (step : Step) (a b : ℤ) : Prop := ∃ k : ℤ, b = a + k * step.val

theorem Aligned.symm {a b : ℤ} (h : Aligned step a b) : Aligned step b a := by
  obtain ⟨k, rfl⟩ := h
  exact ⟨-k, by ring⟩

theorem Aligned.trans {a b c : ℤ} (hab : Aligned step a b) (hbc : Aligned step b c) :
    Aligned step a c := by
  obtain ⟨k, rfl⟩ := hab
  obtain ⟨l, rfl⟩ := hbc
  exact ⟨k + l, by ring⟩

/-- From one grid point to the next, the walk and its start are the grid points. -/
theorem mem_walk_or_eq (h : Aligned step p stop) :
    t ∈ walk step (p + step.val) stop ∨ t = p ↔
      t = p ∨ (Aligned step p t ∧ p ≤ t ∧ t < stop) := by
  rw [mem_walk]
  constructor
  · rintro (⟨⟨k, rfl⟩, hlt⟩ | rfl)
    · have hk : 0 ≤ (k : ℤ) * step.val := mul_nonneg (Int.natCast_nonneg k) step.pos.le
      have hpos := step.pos
      exact .inr ⟨⟨k + 1, by ring⟩, by linarith, hlt⟩
    · exact .inl rfl
  · rintro (rfl | ⟨⟨k, rfl⟩, hle, hlt⟩)
    · exact .inr rfl
    · have hk : 0 ≤ k := by
        by_contra hneg
        have hmul : k * step.val < 0 := mul_neg_of_neg_of_pos (not_le.1 hneg) step.pos
        linarith
      obtain ⟨n, rfl⟩ := Int.eq_ofNat_of_zero_le hk
      -- no step is the start, and the others are those of the walk
      cases n with
      | zero => exact .inr (by simp)
      | succ n => exact .inl ⟨⟨n, by push_cast; ring⟩, hlt⟩

/-- **The gaps of a sorted list complete it**: with them it has the grid points from its first
to its last. -/
theorem mem_gaps_or_mem (hsorted : (p :: times).Pairwise (· ≤ ·))
    (haligned : ∀ u ∈ times, Aligned step p u) :
    t ∈ gaps step p times ∨ t ∈ p :: times ↔
      Aligned step p t ∧ p ≤ t ∧ ∃ u ∈ p :: times, t ≤ u := by
  induction times generalizing p with
  | nil =>
    simp only [gaps, List.not_mem_nil, false_or, List.mem_singleton, exists_eq_left]
    constructor
    · rintro rfl
      exact ⟨⟨0, by ring⟩, le_rfl, le_rfl⟩
    · rintro ⟨-, hle, hge⟩
      exact le_antisymm hge hle
  | cons q times ih =>
    have hpq : p ≤ q := (List.pairwise_cons.1 hsorted).1 q List.mem_cons_self
    have hq : Aligned step p q := haligned q List.mem_cons_self
    have hrest := @ih q hsorted.tail fun u hu =>
      hq.symm.trans (haligned u (List.mem_cons_of_mem _ hu))
    have hstep := @mem_walk_or_eq step q p t hq
    -- the walk up to the second point, and the gaps from there on
    calc t ∈ gaps step p (q :: times) ∨ t ∈ p :: q :: times
        ↔ (t ∈ walk step (p + step.val) q ∨ t = p) ∨
            (t ∈ gaps step q times ∨ t ∈ q :: times) := by
          rw [gaps, List.mem_append, List.mem_cons, or_or_or_comm]
      _ ↔ (t = p ∨ (Aligned step p t ∧ p ≤ t ∧ t < q)) ∨
            (Aligned step q t ∧ q ≤ t ∧ ∃ u ∈ q :: times, t ≤ u) := by rw [hstep, hrest]
      _ ↔ Aligned step p t ∧ p ≤ t ∧ ∃ u ∈ p :: q :: times, t ≤ u := by
          constructor
          · rintro ((rfl | ⟨halign, hle, hlt⟩) | ⟨halign, hle, u, hu, htu⟩)
            · exact ⟨⟨0, by ring⟩, le_rfl, t, List.mem_cons_self, le_rfl⟩
            · exact ⟨halign, hle, q, List.mem_cons_of_mem _ List.mem_cons_self, hlt.le⟩
            · exact ⟨hq.trans halign, hpq.trans hle, u, List.mem_cons_of_mem _ hu, htu⟩
          · rintro ⟨halign, hle, u, hu, htu⟩
            rcases lt_or_ge t q with hlt | hge
            · exact .inl (.inr ⟨halign, hle, hlt⟩)
            · refine .inr ⟨hq.symm.trans halign, hge, ?_⟩
              rcases List.mem_cons.1 hu with rfl | hu
              · exact ⟨q, List.mem_cons_self, htu.trans hpq⟩
              · exact ⟨u, hu, htu⟩

theorem lt_of_mem_gaps (hsorted : (p :: times).Pairwise (· ≤ ·)) (h : t ∈ gaps step p times) :
    p < t := by
  induction times generalizing p with
  | nil => exact absurd h List.not_mem_nil
  | cons q times ih =>
    rcases List.mem_append.1 h with h | h
    · have hpos := step.pos
      linarith [(le_of_mem_walk h).1]
    · exact ((List.pairwise_cons.1 hsorted).1 q List.mem_cons_self).trans_lt (ih hsorted.tail h)

/-- No gap is a point of the list. -/
theorem disjoint_gaps (hsorted : (p :: times).Pairwise (· ≤ ·)) (h : t ∈ gaps step p times) :
    t ∉ p :: times := by
  induction times generalizing p with
  | nil => exact absurd h List.not_mem_nil
  | cons q times ih =>
    have hpt : p < t := lt_of_mem_gaps hsorted h
    intro hmem
    have hmem' : t ∈ q :: times := (List.mem_cons.1 hmem).resolve_left hpt.ne'
    rcases List.mem_append.1 h with h | h
    · have hlt : t < q := (le_of_mem_walk h).2
      rcases List.mem_cons.1 hmem' with rfl | hmem'
      · exact lt_irrefl t hlt
      · exact hlt.not_ge ((List.pairwise_cons.1 hsorted.tail).1 t hmem')
    · exact ih hsorted.tail h hmem'

/-- Every gap is found once. -/
theorem nodup_gaps (hsorted : (p :: times).Pairwise (· ≤ ·)) : (gaps step p times).Nodup := by
  induction times generalizing p with
  | nil => exact List.nodup_nil
  | cons q times ih =>
    refine List.nodup_append.2 ⟨nodup_walk, ih hsorted.tail, ?_⟩
    intro a ha b hb hab
    subst hab
    exact (le_of_mem_walk ha).2.not_gt (lt_of_mem_gaps hsorted.tail hb)

end Grid
