import Atlas.Paper.Lifecycle
import Atlas.Paper.Quiet

/-!
# What is recorded of a fill that is refused

The engine records a fill before it knows whether it can be delivered, so the list of
fills may hold some that moved neither cash nor position.  Such a fill ends its order,
which no fill is attempted on again.  Three things are kept all the same: the fills of an
order never exceed its quantity, their identifiers are distinct, and the list either
explains the ledger or leaves more of some symbol than is held.

The last needs that the fills refused are purchases of more than the quantum: a refused
sale takes away what another fill has explained.

## Main definitions

* `FillsWithin`, `FillsDrawn` — the fills of each order, and the identifiers.
* `Attempt.Explained`, `Explained` — the history is exact or says too much.

## Main results

* `Attempt.apply_refused` — a fill that is not delivered ends its order.
* `Booking.fillsWithin`, `Booking.fillsDrawn`, `Booking.explained` — **one booking keeps
  each of the three**.

## References

`app/execution/paper/engine.py`, `app/services/reconciliation.py`,
`app/accounting/invariants.py`.
-/

namespace Atlas

namespace Paper

variable {cfg : PaperConfig} {T : Terms} {s s' : PaperState} {order : Order} {C : ℚ}

/-! ### Refused fills -/

/-- **A fill that is not delivered ends its order** as failed. -/
theorem Attempt.apply_refused {a : Attempt} (hlive : a.order.status ≠ .failed)
    (hno : ¬ (a.Covered cfg ∧ 0 < a.fillQty)) : (a.apply cfg).1.status = .failed := by
  have h : a.Outcome cfg (a.apply cfg) := outcome hlive
  generalize a.apply cfg = r at h
  cases h with
  | dust _ => rfl
  | bought hq hside hcash =>
    refine absurd ⟨.inr ?_, hq⟩ hno
    simp only [hside]
    rw [← freeing_snd.2.1]
    exact hcash
  | insufficient _ _ _ => rfl
  | sold p hq hside hp hqty =>
    refine absurd ⟨.inr ?_, hq⟩ hno
    simp only [hside, held, hp]
    exact hqty
  | noPosition _ _ _ => rfl

/-- An attempt at nothing records nothing. -/
theorem Attempt.apply_dust {a : Attempt} (hq : ¬ 0 < a.fillQty) :
    (a.apply cfg).2.fills = a.state.fills := by
  rw [apply, if_pos (not_lt.mp hq)]
  rfl

theorem release_next (amount : Option ℚ) (now : Time) :
    (releaseBuyReservation s order amount now).2.nextUuid = s.nextUuid := by
  rw [releaseBuyReservation_eq]
  split_ifs <;> rfl

theorem Attempt.finish_next {a : Attempt} (r : Order × PaperState) :
    (a.finish r).2.nextUuid = r.2.nextUuid := by
  simp only [finish]
  split_ifs
  · rfl
  · exact release_next none a.now

/-- The fill of an attempt takes the next identifier. -/
theorem Attempt.apply_next {a : Attempt} (hlive : a.order.status ≠ .failed) (hq : 0 < a.fillQty) :
    (a.apply cfg).2.nextUuid = a.state.nextUuid + 1 := by
  have hfree : (a.freeing cfg).2.nextUuid = a.state.nextUuid + 1 := by
    simp only [freeing, releaseForFill]
    split_ifs
    · exact release_next ..
    · rfl
  have h : a.Outcome cfg (a.apply cfg) := outcome hlive
  generalize a.apply cfg = r at h
  cases h with
  | dust hle => exact absurd hq (not_lt.mpr hle)
  | bought _ _ _ => exact (finish_next _).trans hfree
  | insufficient _ _ _ => exact (release_next none a.now).trans hfree
  | sold p _ _ _ _ => exact finish_next _
  | noPosition _ _ _ => rfl

/-! ### The fills of an order -/

/-- The quantity of the recorded fills of an order. -/
def filledOf (fills : List Fill) (id : Ident) : ℚ := ((fillsOf fills id).map Fill.quantity).sum

theorem filledOf_append_of_ne {fills gs : List Fill} {id : Ident} (h : ∀ g ∈ gs, g.orderId ≠ id) :
    filledOf (fills ++ gs) id = filledOf fills id := by
  rw [filledOf, fillsOf_append, fillsOf_eq_nil h, List.append_nil]
  rfl

theorem filledOf_append_self {fills : List Fill} {f : Fill} :
    filledOf (fills ++ [f]) f.orderId = filledOf fills f.orderId + f.quantity := by
  have hown : fillsOf [f] f.orderId = [f] := by simp [fillsOf]
  simp [filledOf, fillsOf_append, hown]

/-- The recorded fills of the order are within its quantity, and those of an open order
are what it carries. -/
structure FilledBy (fills : List Fill) (order : Order) : Prop where
  within : filledOf fills order.id ≤ order.quantity
  carried : ¬ order.status.Terminal → filledOf fills order.id = order.filledQuantity

/-- The recorded fills of every order are within its quantity. -/
def FillsWithin (s : PaperState) : Prop :=
  ∀ id o, s.orders.get? id = some o → FilledBy s.fills o

theorem FillsWithin.fresh (marks : Dict String ℚ) : FillsWithin (Paper.fresh cfg marks) :=
  fun _ _ h => by cases h

/-- Work on one order: its own fills are to be checked, those of the others stay. -/
theorem FillsWithin.works {r : Order × PaperState} (h : FillsWithin s) (hk : Keyed s)
    (hw : Works s order r) (hnew : FilledBy r.2.fills r.1) :
    FillsWithin r.2 := by
  intro id o ho
  by_cases hid : order.id = id
  · rw [← hid, ← hw.same.id, show r.2.orders.get? r.1.id = some r.1 from hw.stored,
      Option.some.injEq] at ho
    exact ho ▸ hnew
  · rw [hw.frame.orders hid] at ho
    have hold : FilledBy s.fills o := h id o ho
    obtain ⟨fs, hfs, hown⟩ := hw.frame.fills
    have hsame : filledOf r.2.fills o.id = filledOf s.fills o.id := by
      rw [hfs]
      refine filledOf_append_of_ne fun f hf => ?_
      rw [hown f hf, hk.id_eq ho]
      exact hid
    exact ⟨hsame ▸ hold.within, fun hopen => hsame.trans (hold.carried hopen)⟩

/-- **An attempt within what is left keeps the fills of its order within its quantity.** -/
theorem FillsWithin.attempt {a : Attempt} (h : FillsWithin a.state) (hp : a.Proper)
    (hrest : a.fillQty ≤ a.total) : FilledBy (a.apply cfg).2.fills (a.apply cfg).1 := by
  have hw : Works a.state a.order (a.apply cfg) := Attempt.apply_works hp.live_ne
  have hold : FilledBy a.state.fills a.order := h _ _ hp.stored
  have hcarried : filledOf a.state.fills a.order.id = a.order.filledQuantity := hold.carried hp.open
  have hbooked : a.Booked cfg (a.apply cfg) := Attempt.apply_booked hp.live_ne
  by_cases hq : 0 < a.fillQty
  · have hfills : (a.apply cfg).2.fills = a.state.fills ++ [a.fill cfg] :=
      Attempt.apply_records hp.live_ne hq
    have hsum : filledOf (a.apply cfg).2.fills (a.apply cfg).1.id =
        a.order.filledQuantity + a.fillQty := by
      rw [hfills, hw.same.id, ← hcarried]
      exact filledOf_append_self
    refine ⟨?_, fun hopen => ?_⟩
    · have hle : a.fillQty ≤ a.order.quantity - a.order.filledQuantity := hp.total ▸ hrest
      rw [hsum, hw.same.quantity]
      linarith
    · -- an order that is still open has been delivered its fill
      have hcovered : a.Covered cfg := by
        by_contra hno
        exact hopen (.inr (.inr (.inr (.inr (Attempt.apply_refused hp.live_ne fun hc => hno hc.1)))))
      rw [hsum, hbooked.filled.2.1 hcovered hq]
  · have hfills : (a.apply cfg).2.fills = a.state.fills := Attempt.apply_dust hq
    refine ⟨?_, fun hopen => ?_⟩
    · rw [hfills, hw.same.id, hw.same.quantity]
      exact hold.within
    · refine absurd (.inr (.inr (.inr (.inr ?_)))) hopen
      exact Attempt.apply_refused hp.live_ne fun hc => hq hc.2

/-- No fill is that of an order yet to be made. -/
theorem Keyed.fillsOf_next (hk : Keyed s) : fillsOf s.fills (.uuid4 s.nextUuid) = [] := by
  refine fillsOf_eq_nil fun f hmem he => ?_
  have hsome := hk.fills f hmem
  rw [he, hk.get?_next] at hsome
  cases hsome

/-- **One booking keeps the fills of every order within its quantity.** -/
theorem Booking.fillsWithin (hreq : ∀ s request, T.request s request → 0 ≤ request.quantity)
    (hrest : ∀ a, T.attempt a → a.fillQty ≤ a.total) (h : Booking cfg T s s') (hk : Keyed s)
    (hall : FillsWithin s) : FillsWithin s' := by
  cases h with
  | create _ request now _ hok =>
    intro id o ho
    simp only [created, Dict.get?_set] at ho
    split_ifs at ho with hid
    · -- no recorded fill names the identifier that is drawn
      have hzero : filledOf (created s request now).fills (newOrder s request now).id = 0 := by
        show ((fillsOf s.fills (.uuid4 s.nextUuid)).map Fill.quantity).sum = 0
        rw [hk.fillsOf_next]
        rfl
      rw [← Option.some.inj ho]
      exact ⟨hzero.trans_le (hreq s request hok), fun _ => hzero⟩
    · exact hall id o ho
  | mark _ _ _ _ => exact hall
  | idle _ order r hs hopen hidle =>
    have hold : FilledBy s.fills order := hall _ _ hs
    have hfilled : r.1.filledQuantity = order.filledQuantity :=
      congrArg Totals.filled hidle.books.totals
    refine hall.works hk hidle.toWorks ⟨?_, fun _ => ?_⟩
    · rw [hidle.fills, hidle.same.id, hidle.same.quantity]
      exact hold.within
    · rw [hidle.fills, hidle.same.id, hfilled]
      exact hold.carried hopen
  | attempt a hp hok =>
    exact hall.works hk (Attempt.apply_works hp.live_ne) (hall.attempt hp (hrest a hok))

/-! ### The identifiers of the fills -/

/-- The fills have been given distinct identifiers. -/
structure FillsDrawn (s : PaperState) : Prop where
  drawn : ∀ f ∈ s.fills, ∃ n < s.nextUuid, f.id = .uuid4 n
  distinct : (s.fills.map Fill.id).Nodup

theorem FillsDrawn.fresh (marks : Dict String ℚ) : FillsDrawn (Paper.fresh cfg marks) :=
  ⟨fun _ hf => (List.not_mem_nil hf).elim, List.nodup_nil⟩

theorem FillsDrawn.of_eq (h : FillsDrawn s) (hfills : s'.fills = s.fills)
    (hnext : s.nextUuid ≤ s'.nextUuid) : FillsDrawn s' := by
  refine ⟨fun f hf => ?_, hfills ▸ h.distinct⟩
  rw [hfills] at hf
  obtain ⟨n, hn, hid⟩ := h.drawn f hf
  exact ⟨n, hn.trans_le hnext, hid⟩

/-- A fill with the next identifier. -/
theorem FillsDrawn.append {f : Fill} (h : FillsDrawn s) (hfills : s'.fills = s.fills ++ [f])
    (hid : f.id = .uuid4 s.nextUuid) (hnext : s'.nextUuid = s.nextUuid + 1) : FillsDrawn s' := by
  refine ⟨fun g hg => ?_, ?_⟩
  · rw [hfills] at hg
    rw [hnext]
    rcases List.mem_append.mp hg with hold | hg
    · obtain ⟨n, hn, hgid⟩ := h.drawn g hold
      exact ⟨n, hn.trans (Nat.lt_succ_self _), hgid⟩
    · rw [List.mem_singleton.mp hg]
      exact ⟨_, Nat.lt_succ_self _, hid⟩
  · rw [hfills, List.map_append, List.map_singleton, hid]
    refine List.nodup_append.mpr ⟨h.distinct, List.nodup_singleton _, ?_⟩
    rintro i hi j hj rfl
    obtain ⟨g, hg, hgid⟩ := List.mem_map.mp hi
    obtain ⟨n, hn, hn'⟩ := h.drawn g hg
    rw [List.mem_singleton.mp hj, hn', Ident.uuid4.injEq] at hgid
    omega

/-- **One booking gives a fill an identifier of its own.** -/
theorem Booking.fillsDrawn (h : Booking cfg T s s') (hall : FillsDrawn s) : FillsDrawn s' := by
  cases h with
  | create _ _ _ _ _ => exact hall.of_eq rfl (Nat.le_succ _)
  | mark _ _ _ _ => exact hall.of_eq rfl le_rfl
  | idle _ _ _ _ _ hidle => exact hall.of_eq hidle.fills hidle.frame.next
  | attempt a hp _ =>
    have hw : Works a.state a.order (a.apply cfg) := Attempt.apply_works hp.live_ne
    by_cases hq : 0 < a.fillQty
    · exact hall.append (Attempt.apply_records hp.live_ne hq) rfl (Attempt.apply_next hp.live_ne hq)
    · exact hall.of_eq (Attempt.apply_dust hq) hw.frame.next

/-! ### What the history explains -/

/-- The fills account for the capital and for what is held. -/
structure Accounted (C : ℚ) (s : PaperState) : Prop where
  cash : s.cash + s.reservedCash = C + (s.fills.map Fill.signedCash).sum
  position : ∀ symbol, held s symbol = netQuantity s.fills symbol

/-- The fills leave more of some symbol than is held, by more than the quantum. -/
def Overstated (s : PaperState) : Prop :=
  ∃ symbol, held s symbol + quantum8 < netQuantity s.fills symbol

/-- The history accounts for the ledger, or it overstates what is held. -/
def Explained (C : ℚ) (s : PaperState) : Prop := Accounted C s ∨ Overstated s

/-- The fill is delivered, or it is a purchase of more than the quantum. -/
def Attempt.Explained (cfg : PaperConfig) (a : Attempt) : Prop :=
  a.Covered cfg ∨ (a.order.side = .buy ∧ quantum8 < a.fillQty)

instance (a : Attempt) : Decidable (a.Explained cfg) := inferInstanceAs (Decidable (_ ∨ _ ∧ _))

theorem Explained.fresh (marks : Dict String ℚ) : Explained cfg.initialCash (Paper.fresh cfg marks) := by
  refine .inl ⟨?_, fun _ => rfl⟩
  simp [Paper.fresh]

/-- Fills that move what they say keep a history as good as it was. -/
theorem Explained.posts {fs : List Fill} (h : Explained C s) (hfills : s'.fills = s.fills ++ fs)
    (hcash : s'.cash + s'.reservedCash = s.cash + s.reservedCash + (fs.map Fill.signedCash).sum)
    (hheld : ∀ symbol, held s' symbol = held s symbol + netQuantity fs symbol) : Explained C s' := by
  rcases h with h | ⟨symbol, h⟩
  · refine .inl ⟨?_, fun symbol => ?_⟩
    · rw [hcash, h.cash, hfills, List.map_append, List.sum_append, add_assoc]
    · rw [hheld, h.position, hfills, netQuantity_append]
  · refine .inr ⟨symbol, ?_⟩
    rw [hheld, hfills, netQuantity_append]
    linarith

/-- What books nothing and records nothing changes nothing of this. -/
theorem Explained.same (h : Explained C s) (hfills : s'.fills = s.fills)
    (hcash : s'.cash + s'.reservedCash = s.cash + s.reservedCash)
    (hheld : ∀ symbol, held s' symbol = held s symbol) : Explained C s' := by
  have hnil : ∀ symbol, netQuantity ([] : List Fill) symbol = 0 := fun _ => rfl
  have hnone : s'.fills = s.fills ++ [] := by rw [hfills, List.append_nil]
  refine h.posts hnone ?_ fun symbol => ?_
  · rw [hcash, List.map_nil, List.sum_nil, add_zero]
  · rw [hheld, hnil, add_zero]

/-- A refused purchase of more than the quantum overstates what is held. -/
theorem Explained.refused {f : Fill} (h : Explained C s) (hfills : s'.fills = s.fills ++ [f])
    (hside : f.side = .buy) (hq : quantum8 < f.quantity)
    (hheld : ∀ symbol, held s' symbol = held s symbol) : Explained C s' := by
  have hadd : ∀ symbol, netQuantity s'.fills symbol =
      netQuantity s.fills symbol + if f.symbol = symbol then f.quantity else 0 := by
    intro symbol
    rw [hfills, netQuantity_append, netQuantity_single, Fill.signedQuantity, hside]
  have hpos : 0 < quantum8 := by decide +kernel
  rcases h with h | ⟨symbol, h⟩
  · -- what was exact is now too much by the fill that is not held
    refine .inr ⟨f.symbol, ?_⟩
    rw [hadd, if_pos rfl, hheld, h.position]
    linarith
  · refine .inr ⟨symbol, ?_⟩
    rw [hadd, hheld]
    split_ifs
    · linarith
    · linarith

/-- **An attempt that is delivered, or a refused purchase, keeps the history as good as it
was.** -/
theorem Explained.attempt {a : Attempt} (h : Explained C a.state) (hp : a.Proper)
    (hok : a.Explained cfg) : Explained C (a.apply cfg).2 := by
  by_cases hcov : a.Covered cfg
  · obtain ⟨fs, hposts⟩ := Attempt.apply_posts hp.live_ne hcov
    exact h.posts hposts.fills hposts.cash hposts.position
  · obtain ⟨hside, hq⟩ := hok.resolve_left hcov
    have hpos : 0 < a.fillQty := not_le.mp fun hle => hcov (.inl hle)
    have hbooked : a.Booked cfg (a.apply cfg) := Attempt.apply_booked hp.live_ne
    -- what is not covered is refused, and moves no position
    have hpositions : (a.apply cfg).2.positions = a.state.positions := by
      generalize a.apply cfg = r at hbooked ⊢
      cases hbooked with
      | refused books _ => exact books.positions
      | bought _ _ _ _ _ _ _ hc => exact absurd hc hcov
      | sold _ _ _ _ _ _ _ _ _ _ hc => exact absurd hc hcov
    refine h.refused (Attempt.apply_records hp.live_ne hpos) hside hq fun symbol => ?_
    rw [held, hpositions]
    rfl

/-- **One booking keeps the history as good as it was.** -/
theorem Booking.explained (hexp : ∀ a, T.attempt a → a.Explained cfg) (h : Booking cfg T s s')
    (hall : Explained C s) : Explained C s' := by
  cases h with
  | create _ _ _ _ _ => exact hall.same rfl rfl fun _ => rfl
  | mark _ symbol price _ => exact hall.same rfl rfl fun name => markPositions_quantity ..
  | idle _ _ _ _ _ hidle =>
    refine hall.same hidle.fills hidle.books.capital fun symbol => ?_
    rw [held, hidle.books.positions]
    rfl
  | attempt a hp hok => exact hall.attempt hp (hexp a hok)

end Paper

end Atlas
