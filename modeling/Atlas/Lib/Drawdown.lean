import Mathlib.Algebra.Order.Field.Basic
import Mathlib.Data.List.Induction
import Mathlib.Order.Bounds.Basic
import Mathlib.Order.Bounds.Lattice
import Mathlib.Tactic.FieldSimp
import Mathlib.Tactic.Linarith

/-!
# Drawdowns

The drawdowns of a sequence of positive values are the relative falls from a value to a
later one.  The greatest of them is found in one pass, which keeps the highest value so far
and the deepest fall below it.

## Main definitions

* `drawdowns l` — the relative falls from a value of `l` to the same or a later one.
* `step` — one value of the pass.

## Main results

* `isGreatest_foldl` — **one pass finds the greatest drawdown**.
* `isGreatest_concat`, `isGreatest_concat_iff` — what one more value does to the greatest
  drawdown, and when it does nothing.
-/

namespace Drawdown

variable {α : Type*} [Field α]

/-- The relative falls from a value to the same or a later one. -/
def drawdowns (l : List α) : Set α :=
  {d | ∃ (i j : ℕ) (a b : α), i ≤ j ∧ l[i]? = some a ∧ l[j]? = some b ∧ d = (a - b) / a}

variable {l rest : List α} {peak dd v d : α}

/-- A drawdown of a longer list ends at its last value, or was there before. -/
theorem mem_drawdowns_concat :
    d ∈ drawdowns (l ++ [v]) ↔ d ∈ drawdowns l ∨ ∃ a ∈ l ++ [v], d = (a - v) / a := by
  constructor
  · rintro ⟨i, j, a, b, hij, hi, hj, rfl⟩
    -- the fall ends before the new value, or at it
    rcases lt_or_ge j l.length with hlt | hge
    · rw [List.getElem?_append_left (hij.trans_lt hlt)] at hi
      rw [List.getElem?_append_left hlt] at hj
      exact .inl ⟨i, j, a, b, hij, hi, hj, rfl⟩
    · rw [List.getElem?_append_right hge, List.getElem?_singleton] at hj
      split_ifs at hj
      rw [Option.some.injEq] at hj
      exact .inr ⟨a, List.mem_of_getElem? hi, by rw [hj]⟩
  · rintro (⟨i, j, a, b, hij, hi, hj, rfl⟩ | ⟨a, ha, rfl⟩)
    · obtain ⟨hlt, -⟩ := List.getElem?_eq_some_iff.1 hj
      refine ⟨i, j, a, b, hij, ?_, ?_, rfl⟩
      · rwa [List.getElem?_append_left (hij.trans_lt hlt)]
      · rwa [List.getElem?_append_left hlt]
    · obtain ⟨i, hi⟩ := List.mem_iff_getElem?.1 ha
      obtain ⟨hlt, -⟩ := List.getElem?_eq_some_iff.1 hi
      rw [List.length_append, List.length_singleton] at hlt
      exact ⟨i, l.length, a, v, Nat.le_of_lt_succ hlt, hi, List.getElem?_concat_length, rfl⟩

theorem drawdowns_singleton (v : α) : drawdowns [v] = {0} := by
  ext d
  have hempty : d ∉ drawdowns ([] : List α) := by
    rintro ⟨i, -, a, -, -, hi, -⟩
    cases hi
  have hconcat := @mem_drawdowns_concat α _ [] v d
  rw [List.nil_append] at hconcat
  rw [hconcat, or_iff_right hempty, Set.mem_singleton_iff]
  simp

/-- Not to fall is a drawdown. -/
theorem zero_mem_drawdowns (hne : l ≠ []) : (0 : α) ∈ drawdowns l := by
  obtain ⟨a, rest, rfl⟩ := List.exists_cons_of_ne_nil hne
  exact ⟨0, 0, a, a, le_rfl, rfl, rfl, by rw [sub_self, zero_div]⟩

variable [LinearOrder α]

/-- With one more value, the greatest drawdown stays what it is exactly if no fall to that value
is deeper than one before. -/
theorem isGreatest_concat_iff (hne : l ≠ []) (hdd : IsGreatest (drawdowns l) dd) :
    IsGreatest (drawdowns (l ++ [v])) dd ↔
      ∀ a ∈ l, ∃ d ∈ drawdowns l, (a - v) / a ≤ d := by
  constructor
  · intro h a ha
    exact ⟨dd, hdd.1, h.2 (mem_drawdowns_concat.2 (.inr ⟨a, List.mem_append_left _ ha, rfl⟩))⟩
  · intro h
    refine ⟨mem_drawdowns_concat.2 (.inl hdd.1), ?_⟩
    intro d hd
    rcases mem_drawdowns_concat.1 hd with hd | ⟨a, ha, rfl⟩
    · exact hdd.2 hd
    · rcases List.mem_append.1 ha with ha | ha
      · obtain ⟨d, hd, hle⟩ := h a ha
        exact hle.trans (hdd.2 hd)
      · rw [List.mem_singleton.1 ha, sub_self, zero_div]
        exact hdd.2 (zero_mem_drawdowns hne)

/-- One value of the pass: the highest value so far, and the deepest fall below it. -/
def step (acc : α × α) (v : α) : α × α :=
  let peak := max acc.1 v
  (peak, if 0 < peak then max acc.2 ((peak - v) / peak) else acc.2)

variable [IsStrictOrderedRing α]

/-- The falls to a value are the deepest from the highest value. -/
theorem isGreatest_falls (hpos : ∀ a ∈ l, 0 < a) (hv : 0 < v)
    (hpeak : IsGreatest {a | a ∈ l} peak) :
    IsGreatest {d | ∃ a ∈ l, d = (a - v) / a} ((peak - v) / peak) := by
  refine ⟨⟨peak, hpeak.1, rfl⟩, ?_⟩
  rintro d ⟨a, ha, rfl⟩
  have ha' : 0 < a := hpos a ha
  have hle : a ≤ peak := hpeak.2 ha
  rw [div_le_div_iff₀ ha' (ha'.trans_le hle)]
  have hmul : v * a ≤ v * peak := mul_le_mul_of_nonneg_left hle hv.le
  linarith

omit [Field α] [IsStrictOrderedRing α] in
/-- The highest value, with one more. -/
theorem isGreatest_mem_concat (hpeak : IsGreatest {a | a ∈ l} peak) :
    IsGreatest {a | a ∈ l ++ [v]} (max peak v) := by
  have hset : {a | a ∈ l ++ [v]} = {a | a ∈ l} ∪ {v} := by
    ext a
    simp [or_comm]
  rw [hset]
  exact hpeak.union isGreatest_singleton

/-- **One more value**: the greatest drawdown is the one before, or the fall from the highest
value to the new one. -/
theorem isGreatest_concat (hpos : ∀ a ∈ l ++ [v], 0 < a) (hpeak : IsGreatest {a | a ∈ l} peak)
    (hdd : IsGreatest (drawdowns l) dd) :
    IsGreatest (drawdowns (l ++ [v])) (max dd ((max peak v - v) / max peak v)) := by
  have hset : drawdowns (l ++ [v]) = drawdowns l ∪ {d | ∃ a ∈ l ++ [v], d = (a - v) / a} := by
    ext d
    exact mem_drawdowns_concat
  rw [hset]
  exact hdd.union (isGreatest_falls hpos (hpos v (by simp)) (isGreatest_mem_concat hpeak))

/-- One value of the pass keeps the highest value and the greatest drawdown. -/
theorem isGreatest_step (hpos : ∀ a ∈ l ++ [v], 0 < a) (hpeak : IsGreatest {a | a ∈ l} peak)
    (hdd : IsGreatest (drawdowns l) dd) :
    IsGreatest {a | a ∈ l ++ [v]} (step (peak, dd) v).1 ∧
      IsGreatest (drawdowns (l ++ [v])) (step (peak, dd) v).2 := by
  have hhigh : 0 < max peak v := lt_max_of_lt_right (hpos v (by simp))
  refine ⟨isGreatest_mem_concat hpeak, ?_⟩
  simp only [step, if_pos hhigh]
  exact isGreatest_concat hpos hpeak hdd

/-- **One pass finds the greatest drawdown** of positive values, and the highest of them. -/
theorem isGreatest_foldl (hpos : ∀ a ∈ v :: rest, 0 < a) :
    IsGreatest {a | a ∈ v :: rest} (rest.foldl step (v, 0)).1 ∧
      IsGreatest (drawdowns (v :: rest)) (rest.foldl step (v, 0)).2 := by
  induction rest using List.reverseRecOn with
  | nil =>
    rw [List.foldl_nil, drawdowns_singleton]
    refine ⟨?_, isGreatest_singleton⟩
    simp [isGreatest_singleton]
  | append_singleton rest w ih =>
    obtain ⟨hpeak, hdd⟩ := ih fun a ha => hpos a (by
      rw [← List.cons_append]
      exact List.mem_append_left _ ha)
    rw [List.foldl_concat, ← List.cons_append]
    exact isGreatest_step (by rwa [List.cons_append]) hpeak hdd

end Drawdown
