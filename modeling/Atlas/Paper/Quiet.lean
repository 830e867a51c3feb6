import Atlas.Paper.Sound

/-!
# Marks that trade nothing

A mark sweeps the stored orders and fills those it triggers, so a mark is a trade in
disguise.  It leaves the orders, the fills, the cash and the holdings alone exactly when
no stored order is triggered: a triggered order is always recorded as a fill, delivered
or not, and fills are never taken back.

## Main definitions

* `Untouched s s'` — the same orders, fills, cash and holdings.
* `Quiet cfg s symbol mark` — the mark triggers no stored order.
* `markAll` — several marks in turn.

## Main results

* `setMarkPrice_fills` — a mark adds fills, and none only where it is quiet.
* `markAll_untouched_iff` — **marks leave the ledger untouched exactly when each is
  quiet**.

## References

`app/execution/paper/engine.py`.
-/

namespace Atlas

namespace Paper

variable {cfg : PaperConfig} {s s' s'' : PaperState} {now : Time}

/-- What is held of a symbol, and what was paid for it. -/
def holding (s : PaperState) (symbol : String) : Option (ℚ × ℚ) :=
  (s.positions.get? symbol).map fun p => (p.quantity, p.entryPrice)

/-- The same orders, fills, cash and holdings. -/
structure Untouched (s s' : PaperState) : Prop where
  orders : s'.orders = s.orders
  fills : s'.fills = s.fills
  cash : s'.cash = s.cash
  reservedCash : s'.reservedCash = s.reservedCash
  holding : ∀ symbol, holding s' symbol = holding s symbol

theorem Untouched.refl (s : PaperState) : Untouched s s := ⟨rfl, rfl, rfl, rfl, fun _ => rfl⟩

theorem Untouched.symm (h : Untouched s s') : Untouched s' s where
  orders := h.orders.symm
  fills := h.fills.symm
  cash := h.cash.symm
  reservedCash := h.reservedCash.symm
  holding := fun symbol => (h.holding symbol).symm

theorem Untouched.trans (h₁ : Untouched s s') (h₂ : Untouched s' s'') : Untouched s s'' where
  orders := h₂.orders.trans h₁.orders
  fills := h₂.fills.trans h₁.fills
  cash := h₂.cash.trans h₁.cash
  reservedCash := h₂.reservedCash.trans h₁.reservedCash
  holding := fun symbol => (h₂.holding symbol).trans (h₁.holding symbol)

/-- The mark triggers no stored order. -/
def Quiet (cfg : PaperConfig) (s : PaperState) (symbol : String) (mark : ℚ) : Prop :=
  ∀ order ∈ s.orders.values, restingFill cfg order symbol mark = none

instance (s : PaperState) (symbol : String) (mark : ℚ) : Decidable (Quiet cfg s symbol mark) :=
  inferInstanceAs (Decidable (∀ order ∈ s.orders.values, _))

theorem Untouched.quiet_iff (h : Untouched s s') (symbol : String) (mark : ℚ) :
    Quiet cfg s' symbol mark ↔ Quiet cfg s symbol mark := by
  unfold Quiet
  rw [h.orders]

/-! ### One mark -/

/-- An attempt at a positive quantity records its fill, whatever becomes of it. -/
theorem Attempt.apply_records {a : Attempt} (hlive : a.order.status ≠ .failed)
    (hq : 0 < a.fillQty) : (a.apply cfg).2.fills = a.state.fills ++ [a.fill cfg] := by
  have hfree : (a.freeing cfg).2.fills = a.state.fills ++ [a.fill cfg] := freeing_snd.1.1
  have h : a.Outcome cfg (a.apply cfg) := outcome hlive
  generalize a.apply cfg = r at h
  cases h with
  | dust hle => exact absurd hq (not_lt.mpr hle)
  | bought _ _ _ => exact (finish_fills _).trans hfree
  | insufficient _ _ _ => exact (release_fills none).trans hfree
  | sold p _ _ _ _ => exact finish_fills _
  | noPosition _ _ _ => rfl

/-- A triggered order is recorded as a fill. -/
theorem triggerOne_fills (symbol : String) (mark : ℚ) (now : Time) (s : PaperState) (order : Order) :
    (restingFill cfg order symbol mark = none ∧ triggerOne cfg symbol mark now s order = s) ∨
      ∃ f, (triggerOne cfg symbol mark now s order).fills = s.fills ++ [f] := by
  rw [triggerOne_eq]
  cases h : restingFill cfg order symbol mark with
  | none =>
    left
    simp [restingAttempt, h]
  | some fillQty =>
    right
    obtain ⟨hst, -, hpos, -⟩ := restingFill_eq_some cfg h
    have hlive : order.status ≠ .failed := by rcases hst with hst | hst <;> simp [hst]
    rw [show restingAttempt cfg symbol mark now s order = some _ by rw [restingAttempt, h]; rfl]
    exact ⟨_, Attempt.apply_records hlive hpos⟩

/-- The loop over the resting orders adds fills, and none only where it triggers none. -/
theorem restingLoop_fills {symbol : String} {mark : ℚ} {orders : List Order} :
    ∀ {s : PaperState}, let s' := orders.foldl (triggerOne cfg symbol mark now) s
      s.fills.length ≤ s'.fills.length ∧
        (s'.fills.length = s.fills.length →
          (∀ o ∈ orders, restingFill cfg o symbol mark = none) ∧ s' = s) := by
  induction orders with
  | nil => exact ⟨le_rfl, fun _ => ⟨fun _ ho => (List.not_mem_nil ho).elim, rfl⟩⟩
  | cons order orders ih =>
    intro s s'
    obtain ⟨hle, heq⟩ := ih (s := triggerOne cfg symbol mark now s order)
    rcases triggerOne_fills symbol mark now s order with ⟨hnone, hsame⟩ | ⟨f, hf⟩
    · rw [hsame] at hle heq
      have hs' : s' = orders.foldl (triggerOne cfg symbol mark now) s := by
        show orders.foldl _ (triggerOne cfg symbol mark now s order) = _
        rw [hsame]
      rw [hs']
      refine ⟨hle, fun h => ⟨fun o ho => ?_, (heq h).2⟩⟩
      rcases List.mem_cons.mp ho with rfl | ho
      · exact hnone
      · exact (heq h).1 o ho
    · rw [hf, List.length_append] at hle
      have hlt : s.fills.length < s'.fills.length := hle
      exact ⟨hlt.le, fun h => absurd h hlt.ne'⟩

/-- Setting a mark touches nothing before the sweep. -/
theorem markState_untouched (s : PaperState) (symbol : String) (price : ℚ) :
    Untouched s (markState s symbol price) := by
  refine ⟨rfl, rfl, rfl, rfl, fun name => ?_⟩
  simp only [holding, markState, markPositions]
  cases hp : s.positions.get? symbol with
  | none => rfl
  | some p =>
    simp only [Dict.get?_set]
    split_ifs with hname
    · rw [← hname, hp]
      rfl
    · rfl

/-- **A mark adds fills, and none only where it is quiet.** -/
theorem setMarkPrice_fills (s : PaperState) (symbol : String) (price : ℚ) (now : Time) :
    s.fills.length ≤ (setMarkPrice cfg s symbol price now).fills.length ∧
      ((setMarkPrice cfg s symbol price now).fills.length = s.fills.length →
        Quiet cfg s symbol price) := by
  obtain ⟨hle, heq⟩ :=
    @restingLoop_fills cfg now symbol price s.orders.values (markState s symbol price)
  exact ⟨hle, fun h => (heq h).1⟩

/-- The loop over orders that are not triggered changes nothing. -/
theorem restingLoop_quiet {symbol : String} {price : ℚ} {orders : List Order}
    (hall : ∀ o ∈ orders, restingFill cfg o symbol price = none) (s : PaperState) :
    orders.foldl (triggerOne cfg symbol price now) s = s := by
  induction orders with
  | nil => rfl
  | cons order orders ih =>
    have hfirst : triggerOne cfg symbol price now s order = s := by
      unfold triggerOne
      rw [hall order (List.mem_cons_self ..)]
    rw [List.foldl_cons, hfirst]
    exact ih fun o ho => hall o (List.mem_cons_of_mem _ ho)

/-- A quiet mark only marks. -/
theorem Quiet.setMarkPrice_eq {symbol : String} {price : ℚ} (h : Quiet cfg s symbol price)
    (now : Time) : setMarkPrice cfg s symbol price now = markState s symbol price :=
  restingLoop_quiet h (markState s symbol price)

/-! ### Several marks -/

/-- Several marks in turn. -/
def markAll (cfg : PaperConfig) (now : Time) (s : PaperState) (marks : List (String × ℚ)) :
    PaperState :=
  marks.foldl (fun s m => setMarkPrice cfg s m.1 m.2 now) s

theorem markAll_fills (marks : List (String × ℚ)) : ∀ (s : PaperState),
    s.fills.length ≤ (markAll cfg now s marks).fills.length := by
  induction marks with
  | nil => exact fun _ => le_rfl
  | cons m marks ih =>
    intro s
    exact (setMarkPrice_fills s m.1 m.2 now).1.trans (ih _)

/-- **Marks leave the ledger untouched exactly when each is quiet.**  The orders of the
ledger decide it: before the first order is triggered they stay as they are. -/
theorem markAll_untouched_iff (marks : List (String × ℚ)) : ∀ (s : PaperState),
    Untouched s (markAll cfg now s marks) ↔ ∀ m ∈ marks, Quiet cfg s m.1 m.2 := by
  induction marks with
  | nil => exact fun s => ⟨fun _ m hm => (List.not_mem_nil hm).elim, fun _ => .refl s⟩
  | cons m marks ih =>
    intro s
    have hstep : markAll cfg now s (m :: marks) =
        markAll cfg now (setMarkPrice cfg s m.1 m.2 now) marks := rfl
    -- once the first mark is quiet, the rest is the statement for the marked ledger
    have hrest : Quiet cfg s m.1 m.2 →
        (Untouched s (markAll cfg now s (m :: marks)) ↔ ∀ m' ∈ marks, Quiet cfg s m'.1 m'.2) := by
      intro hquiet
      have hmarked : Untouched s (markState s m.1 m.2) := markState_untouched s m.1 m.2
      have hsame : ∀ m' : String × ℚ, Quiet cfg (markState s m.1 m.2) m'.1 m'.2 ↔
          Quiet cfg s m'.1 m'.2 := fun m' => hmarked.quiet_iff m'.1 m'.2
      rw [hstep, hquiet.setMarkPrice_eq now]
      have hih := ih (markState s m.1 m.2)
      simp only [hsame] at hih
      rw [← hih]
      exact ⟨fun h => hmarked.symm.trans h, fun h => hmarked.trans h⟩
    constructor
    · intro h
      have hfirst : (setMarkPrice cfg s m.1 m.2 now).fills.length = s.fills.length := by
        have hgrow : s.fills.length ≤ (setMarkPrice cfg s m.1 m.2 now).fills.length :=
          (setMarkPrice_fills s m.1 m.2 now).1
        have hafter : (setMarkPrice cfg s m.1 m.2 now).fills.length ≤
            (markAll cfg now s (m :: marks)).fills.length := markAll_fills marks _
        rw [h.fills] at hafter
        omega
      have hquiet : Quiet cfg s m.1 m.2 := (setMarkPrice_fills s m.1 m.2 now).2 hfirst
      intro m' hm'
      rcases List.mem_cons.mp hm' with rfl | hm'
      · exact hquiet
      · exact (hrest hquiet).mp h m' hm'
    · intro h
      exact (hrest (h m (List.mem_cons_self ..))).mpr fun m' hm' => h m' (List.mem_cons_of_mem _ hm')

end Paper

end Atlas
