import Mathlib.Algebra.Order.Field.Basic
import Mathlib.Tactic.Linarith
import Mathlib.Tactic.Ring

/-!
# Holdings at average cost

A holding of one good is a quantity and an average price, or nothing.  What is bought
enters at its own price, and the average becomes the mean of the two, weighted by quantity;
what is sold leaves at the average.  A holding that is sold out is nothing again.

An account keeps, besides the holding, the prices paid since it was last empty.  The
average never leaves their range.

## Main definitions

* `trade` — a holding after a trade.
* `cost` — what a holding has cost.
* `Account` — a holding and the prices paid for it.
* `Account.Averaged` — the average is in the range of the prices paid.

## Main results

* `cost_buy`, `cost_sell` — a purchase adds its notional to the cost, and a sale takes its
  quantity out at the average, which it leaves as it is.
* `Account.Averaged.trade` — **a trade keeps the average in the range of the prices paid.**
-/

namespace AverageCost

/-- A trade in a good: a quantity bought at a price, or sold. -/
inductive Trade (α : Type*)
  | buy (quantity price : α)
  | sell (quantity : α)
  deriving DecidableEq, Repr

variable {α : Type*} [Field α] [LinearOrder α]

/-- A holding after a trade. -/
def trade (h : Option (α × α)) : Trade α → Option (α × α)
  | .buy quantity price =>
      match h with
      | none => some (quantity, price)
      | some (held, average) =>
          some (held + quantity, (average * held + price * quantity) / (held + quantity))
  | .sell quantity =>
      h.bind fun h => if h.1 - quantity = 0 then none else some (h.1 - quantity, h.2)

/-- What a holding has cost. -/
def cost (h : Option (α × α)) : α := h.elim 0 fun h => h.2 * h.1

/-- The trade is one the holding allows: something is bought, or no more is sold than held. -/
def Trade.Fits (h : Option (α × α)) : Trade α → Prop
  | .buy quantity _ => 0 < quantity
  | .sell quantity => ∃ held average, h = some (held, average) ∧ quantity ≤ held

/-- A holding, and the prices paid since it was last empty. -/
structure Account (α : Type*) where
  held : Option (α × α)
  paid : List α
  deriving DecidableEq, Repr

/-- The account before the first trade. -/
def Account.empty : Account α := ⟨none, []⟩

/-- An account after a trade. -/
def Account.trade (a : Account α) (t : Trade α) : Account α where
  held := AverageCost.trade a.held t
  paid :=
    match t with
    | .buy _ price => price :: a.paid
    | .sell _ => if (AverageCost.trade a.held t).isNone then [] else a.paid

/-- The average of an account is in the range of the prices paid, and an empty account has
paid none. -/
structure Account.Averaged (a : Account α) : Prop where
  pos : ∀ {held average}, a.held = some (held, average) → 0 < held
  least : ∀ {held average}, a.held = some (held, average) → ∃ p ∈ a.paid, p ≤ average
  greatest : ∀ {held average}, a.held = some (held, average) → ∃ p ∈ a.paid, average ≤ p
  flat : a.held = none → a.paid = []

theorem Account.Averaged.empty : (Account.empty : Account α).Averaged where
  pos := fun h => by cases h
  least := fun h => by cases h
  greatest := fun h => by cases h
  flat := fun _ => rfl

variable [IsStrictOrderedRing α] {held average quantity price : α}

/-! ### Costs -/

/-- A purchase adds its notional to the cost. -/
theorem cost_buy {h : Option (α × α)} (hpos : ∀ held average, h = some (held, average) → 0 < held)
    (hq : 0 < quantity) (price : α) :
    cost (trade h (.buy quantity price)) = cost h + price * quantity := by
  cases h with
  | none => simp [trade, cost]
  | some h =>
    have hne : h.1 + quantity ≠ 0 := (add_pos (hpos h.1 h.2 rfl) hq).ne'
    simp only [trade, cost, Option.elim]
    rw [div_mul_cancel₀ _ hne]

omit [IsStrictOrderedRing α] in
/-- A sale takes its quantity out at the average. -/
theorem cost_sell (held average quantity : α) :
    cost (trade (some (held, average)) (.sell quantity)) =
      cost (some (held, average)) - average * quantity := by
  simp only [trade, cost, Option.bind_some]
  split_ifs with hall
  · rw [sub_eq_zero.mp hall]
    simp
  · simp only [Option.elim]
    ring

omit [IsStrictOrderedRing α] in
/-- A sale leaves the average as it is. -/
theorem average_sell {h : α × α}
    (hsold : trade (some (held, average)) (.sell quantity) = some h) : h.2 = average := by
  simp only [trade, Option.bind_some] at hsold
  split_ifs at hsold
  rw [← Option.some.inj hsold]

/-! ### The range of the average -/

/-- A weighted mean is not below what both its parts are not below. -/
theorem le_mean {lo : α} (hheld : 0 < held) (hq : 0 < quantity) (haverage : lo ≤ average)
    (hprice : lo ≤ price) :
    lo ≤ (average * held + price * quantity) / (held + quantity) := by
  rw [le_div_iff₀ (add_pos hheld hq), mul_add]
  exact add_le_add (mul_le_mul_of_nonneg_right haverage hheld.le)
    (mul_le_mul_of_nonneg_right hprice hq.le)

/-- A weighted mean is not above what both its parts are not above. -/
theorem mean_le {hi : α} (hheld : 0 < held) (hq : 0 < quantity) (haverage : average ≤ hi)
    (hprice : price ≤ hi) :
    (average * held + price * quantity) / (held + quantity) ≤ hi := by
  rw [div_le_iff₀ (add_pos hheld hq), mul_add]
  exact add_le_add (mul_le_mul_of_nonneg_right haverage hheld.le)
    (mul_le_mul_of_nonneg_right hprice hq.le)

/-- A purchase keeps the average in the range of the prices paid. -/
theorem Account.Averaged.buy {a : Account α} (h : a.Averaged) (hq : 0 < quantity) (price : α) :
    (a.trade (.buy quantity price)).Averaged := by
  cases hheld : a.held with
  | none =>
    -- the first purchase is its own average
    have hnew : (a.trade (.buy quantity price)).held = some (quantity, price) := by
      simp [Account.trade, AverageCost.trade, hheld]
    refine ⟨?_, ?_, ?_, ?_⟩ <;> rw [hnew]
    · rintro _ _ ⟨⟩
      exact hq
    · rintro _ _ ⟨⟩
      exact ⟨price, List.mem_cons_self .., le_rfl⟩
    · rintro _ _ ⟨⟩
      exact ⟨price, List.mem_cons_self .., le_rfl⟩
    · rintro ⟨⟩
  | some old =>
    obtain ⟨held, average⟩ := old
    have hpos : 0 < held := h.pos hheld
    have hnew : (a.trade (.buy quantity price)).held =
        some (held + quantity, (average * held + price * quantity) / (held + quantity)) := by
      simp [Account.trade, AverageCost.trade, hheld]
    refine ⟨?_, ?_, ?_, ?_⟩ <;> rw [hnew]
    · rintro _ _ ⟨⟩
      exact add_pos hpos hq
    · rintro _ _ ⟨⟩
      obtain ⟨lo, hmem, hlo⟩ := h.least hheld
      rcases le_total lo price with hle | hle
      · exact ⟨lo, List.mem_cons_of_mem _ hmem, le_mean hpos hq hlo hle⟩
      · exact ⟨price, List.mem_cons_self .., le_mean hpos hq (hle.trans hlo) le_rfl⟩
    · rintro _ _ ⟨⟩
      obtain ⟨hi, hmem, hhi⟩ := h.greatest hheld
      rcases le_total price hi with hle | hle
      · exact ⟨hi, List.mem_cons_of_mem _ hmem, mean_le hpos hq hhi hle⟩
      · exact ⟨price, List.mem_cons_self .., mean_le hpos hq (hhi.trans hle) le_rfl⟩
    · rintro ⟨⟩

/-- A sale of what is held keeps the average. -/
theorem Account.Averaged.sell {a : Account α} (h : a.Averaged) (hheld : a.held = some (held, average))
    (hle : quantity ≤ held) : (a.trade (.sell quantity)).Averaged := by
  by_cases hall : held - quantity = 0
  · -- sold out, and no price is kept
    have hnew : a.trade (.sell quantity) = Account.empty := by
      simp [Account.trade, AverageCost.trade, hheld, hall, Account.empty]
    rw [hnew]
    exact .empty
  · have hnew : a.trade (.sell quantity) = ⟨some (held - quantity, average), a.paid⟩ := by
      simp [Account.trade, AverageCost.trade, hheld, hall]
    rw [hnew]
    refine ⟨?_, ?_, ?_, ?_⟩
    · rintro _ _ ⟨⟩
      exact lt_of_le_of_ne (sub_nonneg.mpr hle) (Ne.symm hall)
    · rintro _ _ ⟨⟩
      exact h.least hheld
    · rintro _ _ ⟨⟩
      exact h.greatest hheld
    · rintro ⟨⟩

/-- **A trade keeps the average in the range of the prices paid.** -/
theorem Account.Averaged.trade {a : Account α} {t : Trade α} (h : a.Averaged)
    (ht : t.Fits a.held) : (a.trade t).Averaged := by
  cases t with
  | buy quantity price => exact h.buy ht price
  | sell quantity =>
    obtain ⟨held, average, hheld, hle⟩ := ht
    exact h.sell hheld hle

end AverageCost
