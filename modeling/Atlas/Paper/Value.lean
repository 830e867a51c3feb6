import Atlas.Paper.Pricing

/-!
# Trading makes no money

While the marks stand still the total of cash, reservations and the positions at their
marks never rises.  Every fill is at the mark or worse and pays a fee, and all else the
engine does only shifts capital between the available and the reserved cash.

The marks stand still for what is traded: a mark is set before the first order of its
symbol, and is only repeated from then on.

## Main definitions

* `totalValue s` — cash, reservations and the positions at their marks.
* `quoted` — the terms under which the marks stand still.
* `Quoted s` — what holds of a ledger under these terms.

## Main results

* `Booking.value_le` — a booking whose attempts are fair does not raise the total.
* `total_value_never_increases` — **no operation of a run raises the total**.

## References

`app/execution/paper/engine.py`.
-/

namespace Atlas

namespace Paper

variable {cfg : PaperConfig} {s s' : PaperState} {order : Order}

/-- The mark of a symbol, zero where none is set. -/
def markOf (s : PaperState) (symbol : String) : ℚ := (s.markPrices.get? symbol).getD 0

/-- A position at the mark of its symbol. -/
def markedValue (s : PaperState) (p : Position) : ℚ := p.quantity * markOf s p.symbol

/-- Cash, reservations and the positions at their marks. -/
def totalValue (s : PaperState) : ℚ :=
  s.cash + s.reservedCash + s.positions.sum (markedValue s)

/-! ### Terms -/

/-- The mark of a symbol is set before its first order, and only repeated after it. -/
def quoted : Terms where
  request s request := (s.markPrices.get? request.symbol).isSome = true ∧ request.Priced
  mark s symbol price := 0 ≤ price ∧
    (s.markPrices.get? symbol = some price ∨ ∀ o ∈ s.orders.values, o.symbol ≠ symbol)

instance (s : PaperState) (request : OrderRequest) : Decidable (quoted.request s request) :=
  inferInstanceAs (Decidable (_ ∧ _))

instance (s : PaperState) (symbol : String) (price : ℚ) : Decidable (quoted.mark s symbol price) :=
  inferInstanceAs (Decidable (_ ∧ (_ ∨ _)))

instance : DecidablePred quoted.attempt := fun _ => inferInstanceAs (Decidable True)

/-- The same terms, with attempts that are fair. -/
def quotedFair : Terms := { quoted with attempt := Attempt.Fair }

/-- What holds of a ledger under these terms. -/
structure Quoted (s : PaperState) : Prop where
  named : Named s
  priced : EachOrder Order.Priced s
  marks : ∀ symbol mark, s.markPrices.get? symbol = some mark → 0 ≤ mark

theorem Quoted.fresh {marks : Dict String ℚ} (hmarks : ∀ symbol mark, marks.get? symbol = some mark →
    0 ≤ mark) : Quoted (Paper.fresh cfg marks) where
  named := fun _ _ h => by cases h
  priced := fun _ _ h => by cases h
  marks := hmarks

theorem Order.Priced.of_same {o o' : Order} (h : o.Priced) (hsame : Order.SameRequest o o') :
    o'.Priced := by
  intro p hp
  exact h p (hsame.price ▸ hp)

theorem Quoted.booking (hk : Keyed s) (hb : Booking cfg quotedFair s s') (h : Quoted s) :
    Quoted s' := by
  refine ⟨hb.named hk h.named, ?_, ?_⟩
  · cases hb with
    | create _ request now _ hreq => exact fun j o => created_each (P := Order.Priced) hreq.2 (h.priced _ _)
    | mark _ _ _ _ => exact h.priced
    | idle _ order r hs _ hidle =>
      exact hidle.toWorks.orders (Order.Priced.of_same (h.priced _ _ hs) hidle.same) h.priced
    | attempt a hp _ =>
      have hw : Works a.state a.order (a.apply cfg) := Attempt.apply_works hp.live_ne
      exact hw.orders (Order.Priced.of_same (h.priced _ _ hp.stored) hw.same) h.priced
  · cases hb with
    | create _ _ _ _ _ => exact h.marks
    | mark _ symbol price hmark =>
      intro name m hget
      simp only [markState, Dict.get?_set] at hget
      split_ifs at hget
      · exact Option.some.inj hget ▸ hmark.1
      · exact h.marks name m hget
    | idle _ order r _ _ hidle =>
      rw [hidle.frame.marks]
      exact h.marks
    | attempt a hp _ =>
      rw [(Attempt.apply_works hp.live_ne).frame.marks]
      exact h.marks

/-- **The attempts of an operation under these terms are fair.** -/
theorem Quoted.meets {op : Op} (hcfg : cfg.Costly) (hk : Keyed s) (h : Quoted s)
    (hop : quoted.Meets cfg s op) : quotedFair.Meets cfg s op := by
  refine ⟨hop.1, ?_⟩
  cases op with
  | submit request risk roll now =>
    intro a ha
    simp only [attempts] at ha
    cases hkey : s.idempotencyIndex.get? request.idempotencyKey with
    | some id => simp [hkey] at ha
    | none =>
      simp only [hkey] at ha
      obtain ⟨hset, hpriced⟩ := hop.1 hkey
      obtain ⟨mark, hget⟩ := Option.isSome_iff_exists.mp hset
      exact submitAttempts_fair hcfg hpriced hget (h.marks _ _ hget) a ha
  | setMarkPrice symbol price now =>
    have hpriced : ∀ o ∈ s.orders.values, o.Priced := by
      intro o ho
      obtain ⟨j, hj⟩ := Dict.mem_values_iff.mp ho
      exact h.priced j o hj
    exact restingAttempts_fair hcfg hop.1.1 hk.values_nodup (fun o ho => hk.stored_of_mem ho)
      hpriced (Dict.get?_set_self ..)
  | cancel id now => exact fun a ha => by cases ha
  | expire id now => exact fun a ha => by cases ha

/-! ### One booking -/

/-- Capital and positions fix the total, where the marks are the same. -/
theorem totalValue_of_marks (hmarks : s'.markPrices = s.markPrices) :
    totalValue s' = s'.cash + s'.reservedCash + s'.positions.sum (markedValue s) := by
  have hvalue : markedValue s' = markedValue s := by
    funext p
    simp only [markedValue, markOf, hmarks]
  rw [totalValue, hvalue]

/-- A bought fill adds its quantity at the mark. -/
theorem boughtPosition_value (existing : Option Position) (qty price : ℚ) (now : Time)
    (hold : ∀ p, existing = some p → p.symbol = order.symbol) :
    markedValue s (boughtPosition existing order qty price now) =
      existing.elim 0 (markedValue s) + qty * markOf s order.symbol := by
  cases existing with
  | none => simp [boughtPosition, markedValue]
  | some p =>
    simp only [boughtPosition, markedValue, Option.elim, hold p rfl]
    ring

/-- A sold fill takes its quantity out at the mark. -/
theorem soldPositions_value {positions : Dict String Position} {symbol : String} {p : Position}
    (hp : positions.get? symbol = some p) (hname : p.symbol = symbol) (qty price fee : ℚ) :
    (soldPositions positions symbol p qty price fee).sum (markedValue s) =
      positions.sum (markedValue s) - qty * markOf s symbol := by
  simp only [soldPositions]
  split_ifs with hzero
  · have hall : p.quantity = qty := sub_eq_zero.mp hzero
    rw [Dict.sum_erase, hp, Option.elim, markedValue, hname, hall]
  · rw [Dict.sum_set, hp]
    simp only [Option.elim, markedValue, hname]
    ring

/-- The fee of a fill at a price that is not negative is not negative. -/
theorem fillFee_nonneg {qty price : ℚ} {isMaker : Bool} (hcfg : cfg.Costly) (hq : 0 < qty)
    (hprice : 0 ≤ price) : 0 ≤ fillFee cfg qty price isMaker :=
  quantize8_nonneg (mul_nonneg (mul_nonneg hprice hq.le) (hcfg.fee isMaker))

/-- **A fair attempt does not raise the total.** -/
theorem Attempt.value_le {a : Attempt} (hcfg : cfg.Costly) (hp : a.Proper) (hfair : a.Fair)
    (hn : Named a.state) : totalValue (a.apply cfg).2 ≤ totalValue a.state := by
  have hmarks : (a.apply cfg).2.markPrices = a.state.markPrices :=
    (Attempt.apply_works hp.live_ne).frame.marks
  have hbooked : a.Booked cfg (a.apply cfg) := Attempt.apply_booked hp.live_ne
  obtain ⟨mark, hget, hprice⟩ := hfair
  have hmark : markOf a.state a.order.symbol = mark := by simp only [markOf, hget, Option.getD_some]
  have htotal : totalValue a.state = a.state.cash + a.state.reservedCash +
      a.state.positions.sum (markedValue a.state) := rfl
  rw [totalValue_of_marks hmarks, htotal]
  generalize a.apply cfg = r at hbooked ⊢
  cases hbooked with
  | refused books _ => rw [books.capital, books.positions]
  | bought hq hside _ hcapital hpositions _ _ _ =>
    rw [hside] at hprice
    have hfee : 0 ≤ a.fee cfg := fillFee_nonneg hcfg hq (hprice.1.trans hprice.2)
    -- what is bought is worth its mark, and has cost no less
    have hpaid : a.fillQty * mark ≤ a.price * a.fillQty := by
      rw [mul_comm]
      exact mul_le_mul_of_nonneg_right hprice.2 hq.le
    have hvalue := boughtPosition_value (s := a.state)
      (a.state.positions.get? a.order.symbol) a.fillQty a.price a.now fun p hold => (hn _ p hold).1
    rw [hcapital, hpositions, Dict.sum_set, hvalue, hmark, Attempt.cost]
    linarith
  | sold p hq hside hold _ _ hcapital hpositions _ _ _ =>
    rw [hside] at hprice
    have hfee : 0 ≤ a.fee cfg := fillFee_nonneg hcfg hq hprice.1
    -- what is sold was worth its mark, and has earned no more
    have hearned : a.price * a.fillQty ≤ a.fillQty * mark := by
      rw [mul_comm a.fillQty]
      exact mul_le_mul_of_nonneg_right hprice.2 hq.le
    rw [hcapital, hpositions, soldPositions_value hold (hn _ p hold).1, hmark]
    linarith

/-- A mark changes neither the quantity nor the symbol of a position. -/
theorem markPositions_sum (positions : Dict String Position) (symbol : String) (price : ℚ)
    (f : String → ℚ) :
    (markPositions positions symbol price).sum (fun p => p.quantity * f p.symbol) =
      positions.sum fun p => p.quantity * f p.symbol := by
  simp only [markPositions]
  cases hp : positions.get? symbol with
  | none => rfl
  | some p =>
    rw [Dict.sum_set, hp]
    simp

/-- A mark that is repeated, or set before anything is traded, moves no value. -/
theorem markState_value {symbol : String} {price : ℚ} (hn : Named s)
    (hmark : s.markPrices.get? symbol = some price ∨ ∀ o ∈ s.orders.values, o.symbol ≠ symbol) :
    totalValue (markState s symbol price) = totalValue s := by
  have hsame : s.positions.sum (markedValue (markState s symbol price)) =
      s.positions.sum (markedValue s) := by
    refine Dict.sum_congr_values fun p hp => ?_
    obtain ⟨name, hname⟩ := Dict.mem_values_iff.mp hp
    obtain ⟨hsymbol, j, o, ho, hosym⟩ := hn name p hname
    simp only [markedValue, markOf, markState, Dict.get?_set]
    split_ifs with heq
    · rcases hmark with hold | hnone
      · rw [← heq, hold]
      · -- an untraded symbol has no position
        exact absurd (by rw [hosym, ← hsymbol, ← heq]) (hnone o (Dict.mem_values_iff.mpr ⟨j, ho⟩))
    · rfl
  show s.cash + s.reservedCash + (markPositions s.positions symbol price).sum _ = totalValue s
  unfold totalValue
  rw [← hsame]
  exact congrArg _ (markPositions_sum ..)

/-- **A booking whose attempts are fair does not raise the total.** -/
theorem Booking.value_le (hcfg : cfg.Costly) (hb : Booking cfg quotedFair s s') (hn : Named s) :
    totalValue s' ≤ totalValue s := by
  cases hb with
  | create _ _ _ _ _ => exact le_rfl
  | mark _ symbol price hmark => exact (markState_value hn hmark.2).le
  | idle _ order r _ _ hidle =>
    rw [totalValue_of_marks hidle.frame.marks, hidle.books.capital, hidle.books.positions]
    exact le_rfl
  | attempt a hp hfair => exact Attempt.value_le hcfg hp hfair hn

/-! ### Runs -/

/-- Under these terms an operation does not raise the total. -/
theorem Quoted.step {op : Op} (hcfg : cfg.Costly) (hk : Keyed s) (h : Quoted s)
    (hop : quoted.Meets cfg s op) :
    Quoted (Paper.step cfg s op) ∧ totalValue (Paper.step cfg s op) ≤ totalValue s := by
  have hb : Bookings cfg quotedFair s (Paper.step cfg s op) := step_bookings hk (h.meets hcfg hk hop)
  refine hb.invariant (I := fun t => Quoted t ∧ totalValue t ≤ totalValue s) ?_ hk ⟨h, le_rfl⟩
  rintro s₁ s₂ hk₁ hb₁ ⟨hq, hle⟩
  exact ⟨hq.booking hk₁ hb₁, (hb₁.value_le hcfg hq.named).trans hle⟩

/-- What holds of a ledger under these terms holds in every state reached. -/
theorem Quoted.of_admitted {marks : Dict String ℚ} (hcfg : cfg.Costly)
    (hmarks : ∀ symbol mark, marks.get? symbol = some mark → 0 ≤ mark)
    (h : Admitted cfg quoted marks s) : Quoted s := by
  induction h with
  | init => exact .fresh hmarks
  | step hr hop hs ih =>
    rw [← Option.some.inj hs]
    exact (ih.step hcfg (Admitted.keyed hr) hop).1

end Paper

end Atlas
