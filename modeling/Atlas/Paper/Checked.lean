import Atlas.Paper.Invariants
import Atlas.Paper.Recorded
import Atlas.Paper.Solvency

/-!
# Ledgers that pass the checks

The accounting check and the reconciliation read the ledger in their own ways.  What
they ask for is collected here as one invariant of the engine, `Checked`; it is kept by
every operation whose fills are `Clean`: none of quantity zero on an order with a
reservation, no sale that costs more than it brings and the cash has, a positive price,
and no fill that is refused, except purchases of more than the quantum.

## Main definitions

* `Order.Unlinked` — the order belongs to no exit pair.
* `Priced` — the positions have valid prices.
* `Attempt.Clean`, `careful` — the condition on the fills, and on the marks.
* `Checked C s` — the invariant.

## Main results

* `Checked.step` — **an operation whose fills are clean keeps a ledger checked**.
* `Checked.ok` — a checked ledger passes the accounting check.

## References

`app/execution/paper/engine.py`, `app/accounting/invariants.py`.
-/

namespace Atlas

/-- The metadata of the order has no entry but the engine's, so it links it to no other. -/
def Order.Unlinked (order : Order) : Prop := order.metadata.other = []

namespace Paper

variable {cfg : PaperConfig} {T T' : Terms} {s s' : PaperState} {order : Order}
  {risk : RiskEvaluation} {now : Time} {C : ℚ}

/-! ### Unlinked orders -/

theorem update_other (st : OrderStatus) (error : Option String) :
    (update s order st risk error now).1.metadata.other = order.metadata.other := by
  cases error <;> rfl

theorem release_other (amount : Option ℚ) :
    (releaseBuyReservation s order amount now).1.metadata.other = order.metadata.other := by
  rw [releaseBuyReservation_eq]
  split_ifs
  · simp only [released, Metadata.afterRelease]
    split_ifs <;> rfl
  · rfl

theorem Attempt.freeing_other {a : Attempt} :
    (a.freeing cfg).1.metadata.other = a.order.metadata.other := by
  simp only [freeing, releaseForFill]
  split_ifs
  · exact release_other _
  · rfl

theorem Attempt.finish_other {a : Attempt} (r : Order × PaperState) :
    (a.finish r).1.metadata.other = r.1.metadata.other := by
  simp only [finish]
  split_ifs
  · exact update_other ..
  · exact (update_other ..).trans (release_other none)

/-- An attempt leaves the other entries of the metadata alone. -/
theorem Attempt.apply_other {a : Attempt} (hlive : a.order.status ≠ .failed) :
    (a.apply cfg).1.metadata.other = a.order.metadata.other := by
  have h : a.Outcome cfg (a.apply cfg) := outcome hlive
  generalize a.apply cfg = r at h
  cases h with
  | dust _ => exact update_other ..
  | bought _ _ _ => exact (finish_other _).trans freeing_other
  | insufficient _ _ _ =>
    exact (update_other ..).trans ((release_other none).trans freeing_other)
  | sold p _ _ _ _ => exact finish_other _
  | noPosition _ _ _ => exact update_other ..

theorem workProperty_unlinked : WorkProperty cfg Order.Unlinked where
  attempt := fun _ hp h => (Attempt.apply_other hp.live_ne).trans h
  close := fun _ _ _ _ h => (release_other none).trans h

theorem reserveFor_other (request : OrderRequest) (mark : Option ℚ) :
    (reserveFor s order request risk mark now).1.1.metadata.other = order.metadata.other := by
  unfold reserveFor
  split
  · simp only [reserveBuy]
    split_ifs <;> rfl
  · rfl

theorem marketable_other (request : OrderRequest) (mark : ℚ) :
    (marketable s order request risk mark now).result.1.metadata.other = order.metadata.other := by
  rcases marketable_cases s order request risk mark now with h | h | ⟨error, h⟩ <;> rw [h]
  · rfl
  · rfl
  · exact (update_other ..).trans (release_other none)

theorem placeOrder_other (request : OrderRequest) :
    (placeOrder s order request risk now).result.1.metadata.other = order.metadata.other := by
  obtain ⟨mark, hplace⟩ := placeOrder_cases s order request risk now
  have hres : (reserveFor s order request risk mark now).1.1.metadata.other =
      order.metadata.other := reserveFor_other request mark
  rcases hplace with h | h | ⟨-, m, h⟩ <;> rw [h]
  · exact hres
  · exact update_other ..
  · exact (marketable_other request m).trans hres

theorem prepare_other (s : PaperState) (request : OrderRequest) (risk : RiskEvaluation)
    (roll : ℚ) (now : Time) :
    (prepare cfg s request risk roll now).result.1.metadata.other = request.metadata.other := by
  simp only [prepare]
  split_ifs
  · exact update_other ..
  · exact (update_other ..).trans ((update_other ..).trans (update_other ..))
  · exact (placeOrder_other request).trans ((update_other ..).trans (update_other ..))

/-- A submission carries the other entries of its request. -/
theorem submitAfterLatency_other (s : PaperState) (request : OrderRequest)
    (risk : RiskEvaluation) (roll : ℚ) (now : Time) :
    (submitAfterLatency cfg s request risk roll now).1.metadata.other = request.metadata.other := by
  have hprep : (prepare cfg s request risk roll now).result.1.metadata.other =
      request.metadata.other := prepare_other s request risk roll now
  cases h : prepare cfg s request risk roll now with
  | done o s' =>
    rw [submitAfterLatency, h]
    rwa [h] at hprep
  | execute o s' mark =>
    rw [submitAfterLatency, h]
    rw [h] at hprep
    exact (Attempt.apply_other (immediateAttempt_proper h).live_ne).trans hprep

/-- **An operation keeps the orders unlinked**, if its request is. -/
theorem step_unlinked {op : Op} (hk : Keyed s)
    (hop : ∀ request risk roll now, op = .submit request risk roll now →
      request.metadata.other = [])
    (hall : EachOrder Order.Unlinked s) : EachOrder Order.Unlinked (step cfg s op) := by
  have hwork : WorkProperty cfg Order.Unlinked := workProperty_unlinked
  cases op with
  | submit request risk roll now =>
    refine submit_orders hall ?_
    exact (submitAfterLatency_other s request risk roll now).trans (hop _ _ _ _ rfl)
  | setMarkPrice symbol price now => exact setMarkPrice_orders hwork symbol price now hk hall
  | cancel id now => exact (cancel_closing id hk).orders hwork hall
  | expire id now => exact (expire_closing id hk).orders hwork hall

/-! ### Prices -/

/-- Every position was entered at a positive price, and its mark is not negative. -/
def Priced (s : PaperState) : Prop :=
  ∀ name p, s.positions.get? name = some p → 0 < p.entryPrice ∧ 0 ≤ p.currentPrice

theorem Priced.fresh (marks : Dict String ℚ) : Priced (Paper.fresh cfg marks) :=
  fun _ _ h => by cases h

/-- A bought position is entered at a mean of positive prices. -/
theorem boughtPosition_priced {existing : Option Position} {qty price : ℚ} (hq : 0 < qty)
    (hprice : 0 < price)
    (hold : ∀ p, existing = some p → 0 < p.quantity ∧ 0 < p.entryPrice) :
    0 < (boughtPosition existing order qty price now).entryPrice ∧
      0 ≤ (boughtPosition existing order qty price now).currentPrice := by
  cases existing with
  | none => exact ⟨hprice, hprice.le⟩
  | some p =>
    obtain ⟨hpq, hpe⟩ := hold p rfl
    refine ⟨?_, hprice.le⟩
    show 0 < (p.entryPrice * p.quantity + price * qty) / (p.quantity + qty)
    positivity

/-- A position that is written is to be checked, the others stay. -/
theorem Priced.set {symbol : String} {q : Position} (hall : Priced s)
    (hpositions : s'.positions = s.positions.set symbol q)
    (hnew : 0 < q.entryPrice ∧ 0 ≤ q.currentPrice) : Priced s' := by
  intro name p hget
  rw [hpositions, Dict.get?_set] at hget
  split_ifs at hget
  · exact Option.some.inj hget ▸ hnew
  · exact hall name p hget

theorem Priced.mark {symbol : String} {price : ℚ} (hall : Priced s) (hpos : 0 ≤ price) :
    Priced (markState s symbol price) := by
  cases hold : s.positions.get? symbol with
  | none =>
    intro name p hget
    simp only [markState, markPositions, hold] at hget
    exact hall name p hget
  | some q =>
    have hpositions : (markState s symbol price).positions = s.positions.set symbol
        { q with currentPrice := price, unrealizedPnl := (price - q.entryPrice) * q.quantity } := by
      simp only [markState, markPositions, hold]
    exact hall.set hpositions ⟨(hall symbol q hold).1, hpos⟩

/-- **An attempt keeps the positions priced**, if its fill has a positive price. -/
theorem Priced.attempt {a : Attempt} (hall : Priced a.state) (hl : LongOnly a.state)
    (hlive : a.order.status ≠ .failed) (hpos : 0 < a.price) : Priced (a.apply cfg).2 := by
  have hbooked : a.Booked cfg (a.apply cfg) := Attempt.apply_booked hlive
  generalize a.apply cfg = r at hbooked
  cases hbooked with
  | refused books _ =>
    intro name p hget
    rw [books.positions] at hget
    exact hall name p hget
  | bought hq _ _ _ hpositions _ _ _ =>
    exact hall.set hpositions
      (boughtPosition_priced hq hpos fun q hq => ⟨hl _ q hq, (hall _ q hq).1⟩)
  | sold q _ _ hq _ _ _ hpositions _ _ _ =>
    rw [soldPositions] at hpositions
    split_ifs at hpositions
    · intro name p hget
      rw [hpositions, Dict.get?_erase] at hget
      split_ifs at hget
      exact hall name p hget
    · exact hall.set hpositions ⟨(hall _ q hq).1, hpos.le⟩

/-- **One booking keeps the positions priced**, if its marks are not negative and its
fills have positive prices. -/
theorem Booking.priced (hmark : ∀ s symbol price, T.mark s symbol price → 0 ≤ price)
    (hprice : ∀ a, T.attempt a → 0 < a.price) (h : Booking cfg T s s') (hl : LongOnly s)
    (hall : Priced s) : Priced s' := by
  cases h with
  | create _ _ _ _ _ => exact hall
  | mark _ symbol price hok => exact hall.mark (hmark s symbol price hok)
  | idle _ _ _ _ _ hidle =>
    intro name p hget
    rw [hidle.books.positions] at hget
    exact hall name p hget
  | attempt a hp hok => exact hall.attempt hl hp.live_ne (hprice a hok)

/-! ### Clean fills -/

/-- A fill that leaves nothing behind the checks would find. -/
structure Attempt.Clean (cfg : PaperConfig) (a : Attempt) : Prop where
  /-- A fill of quantity zero leaves no reservation open. -/
  released : a.Released
  repaid : a.Repaid cfg
  priced : 0 < a.price
  /-- A fill that is refused is a purchase of more than the quantum. -/
  explained : a.Explained cfg

instance (a : Attempt) : Decidable (a.Clean cfg) :=
  decidable_of_iff (a.Released ∧ a.Repaid cfg ∧ 0 < a.price ∧ a.Explained cfg)
    ⟨fun h => ⟨h.1, h.2.1, h.2.2.1, h.2.2.2⟩, fun h => ⟨h.1, h.2, h.3, h.4⟩⟩

/-- The terms of a run whose marks are not negative and whose fills are clean. -/
def careful (cfg : PaperConfig) : Terms where
  mark _ _ price := 0 ≤ price
  attempt := Attempt.Clean cfg

instance (s : PaperState) (request : OrderRequest) : Decidable ((careful cfg).request s request) :=
  inferInstanceAs (Decidable True)

instance (s : PaperState) (symbol : String) (price : ℚ) :
    Decidable ((careful cfg).mark s symbol price) := inferInstanceAs (Decidable (_ ≤ _))

instance : DecidablePred (careful cfg).attempt := inferInstanceAs (DecidablePred (Attempt.Clean cfg))

/-- What a session sends: a request of no negative quantity, with empty metadata. -/
def Op.Plain : Op → Prop
  | .submit request _ _ _ => 0 ≤ request.quantity ∧ request.metadata = {}
  | _ => True

theorem Op.Plain.valid {op : Op} (h : op.Plain) : op.Valid := by
  cases op with
  | submit request risk roll now =>
    rw [Op.Valid, h.2]
    exact ⟨rfl, rfl, rfl⟩
  | setMarkPrice symbol price now => trivial
  | cancel id now => trivial
  | expire id now => trivial

/-- The terms of a run of plain operations: its fills are within what is left of their
orders besides. -/
def plain (cfg : PaperConfig) : Terms where
  request _ request := 0 ≤ request.quantity
  mark _ _ price := 0 ≤ price
  attempt a := a.Clean cfg ∧ a.fillQty ≤ a.total

theorem Op.Plain.meets {op : Op} (h : op.Plain) (hfrac : cfg.partialFillFraction ≤ 1)
    (hok : (careful cfg).Meets cfg s op) : (plain cfg).Meets cfg s op := by
  have hfill : ∀ a ∈ attempts cfg s op, a.fillQty ≤ a.total :=
    attempts_within hfrac fun request risk roll now he => by
      subst he
      exact h.1
  refine ⟨?_, fun a ha => ⟨hok.2 a ha, hfill a ha⟩⟩
  cases op with
  | submit request risk roll now => exact fun _ => h.1
  | setMarkPrice symbol price now => exact hok.1
  | cancel id now => trivial
  | expire id now => trivial

/-! ### Checked ledgers -/

/-- What the checks ask of a ledger, and what keeps it so. -/
structure Checked (C : ℚ) (s : PaperState) : Prop where
  keyed : Keyed s
  reservations : Reservations s
  solvent : Solvent s
  longOnly : LongOnly s
  priced : Priced s
  fillsWithin : FillsWithin s
  fillsDrawn : FillsDrawn s
  explained : Explained C s
  unlinked : EachOrder Order.Unlinked s

theorem Checked.fresh (hcash : 0 ≤ cfg.initialCash) (marks : Dict String ℚ) :
    Checked cfg.initialCash (Paper.fresh cfg marks) where
  keyed := .fresh marks
  reservations := .fresh marks
  solvent := ⟨hcash, le_rfl⟩
  longOnly := .fresh marks
  priced := .fresh marks
  fillsWithin := .fresh marks
  fillsDrawn := .fresh marks
  explained := .fresh marks
  unlinked := fun _ _ h => by cases h

/-- A booking keeps to weaker terms. -/
theorem Booking.mono (hreq : ∀ s request, T.request s request → T'.request s request)
    (hmark : ∀ s symbol price, T.mark s symbol price → T'.mark s symbol price)
    (hok : ∀ a, T.attempt a → T'.attempt a) (h : Booking cfg T s s') : Booking cfg T' s s' := by
  cases h with
  | create _ request now hkey h => exact .create _ request now hkey (hreq _ _ h)
  | mark _ symbol price h => exact .mark _ symbol price (hmark _ _ _ h)
  | idle _ order r hs hopen h => exact .idle _ order r hs hopen h
  | attempt a hp h => exact .attempt a hp (hok a h)

/-- **An operation whose fills are clean keeps a ledger checked.** -/
theorem Checked.step {op : Op} (h : Checked C s) (hop : op.Plain)
    (hfrac : cfg.partialFillFraction ≤ 1) (hok : (careful cfg).Meets cfg s op) :
    Checked C (step cfg s op) := by
  have hb : Bookings cfg (plain cfg) s (Paper.step cfg s op) :=
    step_bookings h.keyed (hop.meets hfrac hok)
  have heff : Effects cfg Attempt.Released s (Paper.step cfg s op) :=
    step_effects h.keyed hop.valid fun a ha => (hok.2 a ha).released
  have hclean : ∀ a, (plain cfg).attempt a → a.Clean cfg := fun _ h => h.1
  have hrest : ∀ a, (plain cfg).attempt a → a.fillQty ≤ a.total := fun _ h => h.2
  have hmark : ∀ s symbol price, (plain cfg).mark s symbol price → 0 ≤ price := fun _ _ _ h => h
  have hreq : ∀ s request, (plain cfg).request s request → 0 ≤ request.quantity := fun _ _ h => h
  have hrepaid : ∀ {s s'}, Booking cfg (plain cfg) s s' → Booking cfg (salesRepaid cfg) s s' :=
    fun h => h.mono (fun _ _ _ => trivial) (fun _ _ _ _ => trivial) fun a ha => (hclean a ha).repaid
  -- a mean price is positive for positive quantities, so the two are kept together
  have hlongPriced : LongOnly (Paper.step cfg s op) ∧ Priced (Paper.step cfg s op) :=
    Bookings.invariant (I := fun s => LongOnly s ∧ Priced s) hb (fun _ hb hI => ⟨hb.longOnly hI.1,
      hb.priced hmark (fun a ha => (hclean a ha).priced) hI.1 hI.2⟩) h.keyed ⟨h.longOnly, h.priced⟩
  refine
    { keyed := hb.keyed h.keyed
      reservations := heff.invariant Reservations.effect h.keyed h.reservations
      solvent := hb.invariant (fun _ hb hs => (hrepaid hb).solvent hs) h.keyed h.solvent
      longOnly := hlongPriced.1
      priced := hlongPriced.2
      fillsWithin := hb.invariant (fun hk hb hI => hb.fillsWithin hreq hrest hk hI) h.keyed
        h.fillsWithin
      fillsDrawn := hb.invariant (fun _ hb hI => hb.fillsDrawn hI) h.keyed h.fillsDrawn
      explained := hb.invariant (fun _ hb hI => hb.explained (fun a ha => (hclean a ha).explained) hI)
        h.keyed h.explained
      unlinked := step_unlinked h.keyed (fun request _ _ _ he => ?_) h.unlinked }
  subst he
  rw [hop.2]

/-! ### The accounting check -/

theorem Checked.openReservationTotal (h : Checked C s) :
    Accounting.openReservationTotal s.orders = s.reservedCash := by
  rw [h.reservations.total, Accounting.openReservationTotal]
  refine Dict.sum_congr_values fun o ho => ?_
  obtain ⟨id, hget⟩ := Dict.mem_values_iff.mp ho
  have hfunded : o.Funded := h.reservations.funded hget
  split_ifs with hopen
  · exact hfunded.remaining hopen
  · exact (if_neg hopen).symm

/-- **A checked ledger passes the accounting check.** -/
theorem Checked.ok (h : Checked C s) : (Accounting.checkCycleInvariants s).ok = true := by
  refine Accounting.checkCycleInvariants_ok_iff.mpr
    ⟨⟨h.solvent.cash, h.solvent.reserved⟩, ?_, ?_, ?_, ?_⟩
  · rw [h.openReservationTotal, sub_self, abs_zero]
    exact quantum8_pos.le
  · rintro ⟨name, p⟩ he
    have hget : s.positions.get? name = some p := Dict.mem_entries_iff.mp he
    obtain ⟨hentry, hmark⟩ := h.priced name p hget
    exact ⟨(h.longOnly name p hget).le, hentry.le, hmark⟩
  · exact ⟨h.fillsDrawn.distinct.filter _, fun _ _ hseen => (List.not_mem_nil hseen).elim⟩
  · intro o ho
    obtain ⟨id, hget⟩ := Dict.mem_values_iff.mp ho
    have hother : o.metadata.other = [] := h.unlinked id o hget
    refine ⟨fun pair hpair => ?_, fun hend => h.reservations.settled hget hend.1 hend.2⟩
    simp [Accounting.exitPairId, hother] at hpair

end Paper

end Atlas
