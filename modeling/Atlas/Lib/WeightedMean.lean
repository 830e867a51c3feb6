import Mathlib.Algebra.BigOperators.Group.List.Basic
import Mathlib.Algebra.Order.BigOperators.Group.List
import Mathlib.Algebra.Order.Field.Basic
import Mathlib.Tactic.FieldSimp
import Mathlib.Tactic.Ring

/-!
# Weighted means kept while the data arrive

The mean of values with positive weights, and the rule that keeps it without
storing the values: from the mean so far and its total weight, and the next
value with its weight.

## Main definitions

* `weightedMean l` — the mean of the pairs (value, weight) of `l`, if there are any.
* `extendMean mean weight x w` — the mean after one more value.

## Main results

* `weightedMean_append` — the rule computes the mean.
-/

namespace WeightedMean

variable {α : Type*} [Field α]

/-- The total weight of a list of values with weights. -/
def weight (l : List (α × α)) : α := (l.map Prod.snd).sum

/-- The weighted mean of a list of values with weights; none of an empty list. -/
def weightedMean (l : List (α × α)) : Option α :=
  if l.isEmpty then none else some ((l.map fun e => e.1 * e.2).sum / weight l)

/-- The mean after one more value `x` of weight `w`. -/
def extendMean (mean : Option α) (weight x w : α) : Option α :=
  some (match mean with
    | none => x
    | some m => (m * weight + x * w) / (weight + w))

@[simp] theorem weight_append (l l' : List (α × α)) : weight (l ++ l') = weight l + weight l' := by
  simp [weight]

variable [LinearOrder α] [IsStrictOrderedRing α]

theorem weight_pos {l : List (α × α)} (hne : l ≠ []) (hpos : ∀ e ∈ l, 0 < e.2) : 0 < weight l := by
  refine List.sum_pos _ (fun w hw => ?_) (by simpa using hne)
  obtain ⟨e, he, rfl⟩ := List.mem_map.mp hw
  exact hpos e he

/-- **One more value extends the mean.** -/
theorem weightedMean_append {l : List (α × α)} {x w : α} (hpos : ∀ e ∈ l, 0 < e.2) (hw : 0 < w) :
    weightedMean (l ++ [(x, w)]) = extendMean (weightedMean l) (weight l) x w := by
  rcases eq_or_ne l [] with rfl | hne
  · simp [weightedMean, extendMean, weight, hw.ne']
  · have hl : 0 < weight l := weight_pos hne hpos
    have hempty : l.isEmpty = false := by simpa using hne
    have happ : (l ++ [(x, w)]).isEmpty = false := by simp
    simp only [weightedMean, extendMean, hempty, happ, Bool.false_eq_true, if_false]
    rw [div_mul_cancel₀ _ hl.ne']
    simp [weight]

end WeightedMean
