import Atlas.Session.Feed
import Atlas.Session.Timeframes

/-!
# What an orchestrator has taken

The candles of one symbol that an orchestrator has taken are its window.  The seen
candles and the time of the last one, which decide about a candle, say no more than the
window does.  So two orchestrators with the same window take the same candles of a list,
and one whose window is a beginning of the other's catches up with it on a list that
begins with the longer window.

The key of an order carries the time of its candle in milliseconds, behind eight characters
of the session's identifier and the symbol.  So two orders for the symbol that have one key
are for candles of one time, whichever orchestrators send them.

## Main definitions

* `newer` — the candles of a list that are taken into a window.
* `Orchestrator.Intake` — an orchestrator that decides by its window.

## Main results

* `newer_of_extension` — **catching up**.
* `Intake.rejectReason_iff`, `Intake.primedOf` — which candles are taken.
* `clientOrderId_openTime` — **orders with one key are for candles of one time**.

## References

`app/services/trading_orchestrator.py`.
-/

namespace Atlas

open Session

/-! ### Windows -/

/-- The candles of a list that are taken into a window: each is later than all before. -/
def newer : List Candle → List Candle → List Candle
  | _, [] => []
  | window, candle :: candles =>
      if ∀ c ∈ window, c.openTime < candle.openTime then
        candle :: newer (window ++ [candle]) candles
      else newer window candles

/-- The candles are in the order of their times. -/
abbrev Increasing (candles : List Candle) : Prop :=
  candles.Pairwise fun a b => a.openTime < b.openTime

theorem newer_append (later : List Candle) : ∀ (window earlier : List Candle),
    newer window (earlier ++ later) =
      newer window earlier ++ newer (window ++ newer window earlier) later := by
  intro window earlier
  induction earlier generalizing window with
  | nil => simp [newer]
  | cons candle earlier ih =>
    rw [List.cons_append, newer, newer]
    split_ifs
    · rw [ih, List.append_assoc, List.singleton_append, List.cons_append]
    · exact ih window

/-- Old candles are not taken. -/
theorem newer_of_old {window candles : List Candle}
    (h : ∀ candle ∈ candles, ∃ c ∈ window, candle.openTime ≤ c.openTime) :
    newer window candles = [] := by
  induction candles with
  | nil => rfl
  | cons candle candles ih =>
    obtain ⟨c, hc, hle⟩ := h candle (List.mem_cons_self ..)
    rw [newer, if_neg fun hall => absurd (hall c hc) (not_lt.mpr hle)]
    exact ih fun x hx => h x (List.mem_cons_of_mem _ hx)

/-- The rest of an increasing list is taken. -/
theorem newer_of_increasing {candles : List Candle} : ∀ {window : List Candle},
    Increasing (window ++ candles) → newer window candles = candles := by
  induction candles with
  | nil => exact fun _ => rfl
  | cons candle candles ih =>
    intro window h
    have hlater : ∀ c ∈ window, c.openTime < candle.openTime := fun c hc =>
      (List.pairwise_append.mp h).2.2 c hc candle (List.mem_cons_self ..)
    rw [newer, if_pos hlater, ih (by rwa [List.append_assoc])]

theorem newer_self (window : List Candle) : newer window window = [] :=
  newer_of_old fun c hc => ⟨c, hc, le_rfl⟩

/-- A beginning of the window has nothing new. -/
theorem newer_of_beginning {window candles : List Candle} (h : candles <+: window) :
    newer window candles = [] :=
  newer_of_old fun c hc => ⟨c, h.subset hc, le_rfl⟩

/-- A beginning of a window takes the window up. -/
theorem append_newer {short window : List Candle} (hshort : short <+: window)
    (h : Increasing window) : short ++ newer short window = window := by
  obtain ⟨rest, rfl⟩ := hshort
  rw [newer_append, newer_self, List.nil_append, List.append_nil, newer_of_increasing h]

/-- On a beginning of the window, a beginning of it remains one. -/
theorem newer_beginning {short window candles : List Candle} (hshort : short <+: window)
    (hcandles : candles <+: window) (h : Increasing window) :
    short ++ newer short candles <+: window := by
  rcases List.prefix_or_prefix_of_prefix hshort hcandles with hle | hle
  · rw [append_newer hle (h.sublist hcandles.sublist)]
    exact hcandles
  · rw [newer_of_beginning hle, List.append_nil]
    exact hshort

/-- **Catching up**: on a list that begins with the window, a beginning of the window
becomes what the window becomes. -/
theorem newer_of_extension {short window candles : List Candle} (hshort : short <+: window)
    (hcandles : window <+: candles) (h : Increasing window) :
    short ++ newer short candles = window ++ newer window candles := by
  obtain ⟨rest, rfl⟩ := hcandles
  rw [newer_append, newer_append, newer_self, List.nil_append, List.append_nil, ← List.append_assoc,
    append_newer hshort h]

theorem newer_subset {candles : List Candle} {c : Candle} : ∀ {window : List Candle},
    c ∈ newer window candles → c ∈ candles := by
  induction candles with
  | nil => exact fun h => h
  | cons candle candles ih =>
    intro window h
    rw [newer] at h
    split_ifs at h
    · rcases List.mem_cons.mp h with rfl | h
      · exact List.mem_cons_self ..
      · exact List.mem_cons_of_mem _ (ih h)
    · exact List.mem_cons_of_mem _ (ih h)

/-! ### Orchestrators -/

namespace Orchestrator

variable {o : Orchestrator} {symbol : String} {candle : Candle} {now : Time}

/-- What an orchestrator goes by in the candles of the symbol is their window: no candle
is too old for it, the seen candles and the last time are those of candles in it. -/
structure Intake (symbol : String) (o : Orchestrator) : Prop where
  ageless : o.maxCandleAge = none
  seen : ∀ {t}, (symbol, t) ∈ o.seenCandles → ∃ c ∈ o.windowOf symbol, c.openTime = t
  last : ∀ {t}, o.lastOpenTime.get? symbol = some t → ∃ c ∈ o.windowOf symbol, c.openTime = t
  ordered : o.Ordered

/-- A candle as the sources load them. -/
def Loads (symbol : String) (candle : Candle) : Prop :=
  candle.symbol = symbol ∧ candle.isClosed = true

theorem Intake.new (sessionId : String) (peakEquity : ℚ) (killSwitchEnabled : Bool) :
    Intake symbol
      { sessionId := sessionId, peakEquity := peakEquity, killSwitchEnabled := killSwitchEnabled } where
  ageless := rfl
  seen := fun h => (List.not_mem_nil h).elim
  last := fun h => by cases h
  ordered := ⟨fun _ => .nil, fun _ _ h => (List.not_mem_nil h).elim⟩

theorem Intake.of_intake {o' : Orchestrator} (h : o.Intake symbol) (heq : o'.intake = o.intake)
    (hage : o'.maxCandleAge = o.maxCandleAge) : o'.Intake symbol := by
  have hordered : o'.Ordered := h.ordered.of_intake heq
  simp only [intake, Prod.mk.injEq] at heq
  obtain ⟨hseen, hlast, hwindow⟩ := heq
  have hof : o'.windowOf symbol = o.windowOf symbol := by rw [windowOf, windowOf, hwindow]
  refine ⟨hage.trans h.ageless, fun hmem => ?_, fun hget => ?_, hordered⟩
  · rw [hof]
    exact h.seen (hseen ▸ hmem)
  · rw [hof]
    exact h.last (hlast ▸ hget)

/-- **A candle is taken if it is later than the window.** -/
theorem Intake.rejectReason_iff (h : o.Intake symbol) (hloads : Loads symbol candle) :
    o.rejectReason candle now = none ↔
      ∀ c ∈ o.windowOf symbol, c.openTime < candle.openTime := by
  obtain ⟨rfl, hclosed⟩ := hloads
  constructor
  · intro hnone c hc
    obtain ⟨-, -, hlater⟩ := rejectReason_eq_none hnone
    obtain ⟨last, hlast, hle⟩ := h.ordered.bounded candle.symbol c hc
    exact hle.trans_lt (hlater last hlast)
  · intro hlater
    have hunseen : (candle.symbol, candle.openTime) ∉ o.seenCandles := by
      intro hmem
      obtain ⟨c, hc, heq⟩ := h.seen hmem
      exact absurd (hlater c hc) (not_lt.mpr heq.ge)
    have hlast : ¬((o.lastOpenTime.get? candle.symbol).any fun last =>
        decide (candle.openTime ≤ last)) = true := by
      intro hany
      obtain ⟨t, ht, hle⟩ := (Option.any_eq_true ..).mp hany
      obtain ⟨c, hc, rfl⟩ := h.last ht
      exact absurd (hlater c hc) (not_lt.mpr (of_decide_eq_true hle))
    unfold rejectReason
    rw [if_neg (not_not.mpr hclosed), if_neg hunseen, if_neg hlast, h.ageless]
    rfl

theorem Intake.take (h : o.Intake symbol) (hsymbol : candle.symbol = symbol)
    (hnone : o.rejectReason candle now = none) : (o.take candle).Intake symbol := by
  subst hsymbol
  have hwindow : (o.take candle).windowOf candle.symbol = o.windowOf candle.symbol ++ [candle] := by
    rw [windowOf_take, if_pos rfl]
  refine ⟨h.ageless, fun {t} hmem => ?_, fun {t} hget => ?_, h.ordered.take hnone⟩
  · rw [hwindow]
    rcases List.mem_cons.mp hmem with heq | hold
    · obtain ⟨-, rfl⟩ := Prod.mk.inj heq
      exact ⟨candle, by simp, rfl⟩
    · obtain ⟨c, hc, heq⟩ := h.seen hold
      exact ⟨c, List.mem_append_left _ hc, heq⟩
  · simp only [Orchestrator.take, Dict.get?_set_self, Option.some.injEq] at hget
    rw [hwindow]
    exact ⟨candle, by simp, hget⟩

/-- What taking candles leaves of an orchestrator. -/
theorem foldl_take (candles : List Candle) : ∀ (o : Orchestrator), ∃ seen last window,
    candles.foldl Orchestrator.take o =
      { o with seenCandles := seen, lastOpenTime := last, window := window } := by
  induction candles with
  | nil => exact fun o => ⟨_, _, _, rfl⟩
  | cons candle candles ih =>
    intro o
    obtain ⟨seen, last, window, heq⟩ := ih (o.take candle)
    exact ⟨seen, last, window, heq⟩

/-- The candles that priming takes are those newer than the window. -/
theorem Intake.primedOf (now : Time) {candles : List Candle} : ∀ {o : Orchestrator}, o.Intake symbol →
    (∀ c ∈ candles, Loads symbol c) →
    o.primedOf now candles = newer (o.windowOf symbol) candles ∧
      ((o.primedOf now candles).foldl Orchestrator.take o).Intake symbol ∧
      ((o.primedOf now candles).foldl Orchestrator.take o).windowOf symbol =
        o.windowOf symbol ++ newer (o.windowOf symbol) candles := by
  induction candles with
  | nil =>
    intro o h _
    exact ⟨rfl, h, (List.append_nil _).symm⟩
  | cons candle candles ih =>
    intro o h hloads
    have hcandle : Loads symbol candle := hloads candle (List.mem_cons_self ..)
    have hrest : ∀ c ∈ candles, Loads symbol c := fun c hc => hloads c (List.mem_cons_of_mem _ hc)
    rw [Orchestrator.primedOf, newer]
    by_cases hlater : ∀ c ∈ o.windowOf symbol, c.openTime < candle.openTime
    · have hnone : o.rejectReason candle now = none := (h.rejectReason_iff hcandle).mpr hlater
      have hwindow : (o.take candle).windowOf symbol = o.windowOf symbol ++ [candle] := by
        rw [windowOf_take, if_pos hcandle.1]
      obtain ⟨hprimed, hintake, hgrown⟩ := ih (h.take hcandle.1 hnone) hrest
      rw [if_pos ⟨hcandle.2, hnone⟩, if_pos hlater, ← hwindow]
      refine ⟨by rw [hprimed], hintake, ?_⟩
      rw [List.foldl_cons, hgrown, hwindow, List.append_assoc, List.singleton_append]
    · rw [if_neg fun htaken => hlater ((h.rejectReason_iff hcandle).mp htaken.2), if_neg hlater]
      exact ih h hrest

end Orchestrator

/-! ### The keys of the orders -/

/-- A number is read back from its digits. -/
theorem toDigits_injective {m n : ℕ} (h : Nat.toDigits 10 m = Nat.toDigits 10 n) : m = n := by
  rw [← @Nat.ofDigitChars_ten_toDigits m, h, Nat.ofDigitChars_ten_toDigits]

theorem natRepr_injective {m n : ℕ} (h : m.repr = n.repr) : m = n :=
  toDigits_injective (by simpa using congrArg String.toList h)

/-- No digit is a sign. -/
theorem dash_notMem_digits (n : ℕ) : '-' ∉ Nat.toDigits 10 n := fun hmem =>
  absurd (Nat.isDigit_of_mem_toDigits (by omega) le_rfl hmem) (by decide)

theorem natRepr_ne_neg {m n : ℕ} : m.repr ≠ "-" ++ n.repr := by
  intro h
  have hlist := congrArg String.toList h
  simp at hlist
  exact dash_notMem_digits m (by simp [hlist])

theorem intText_injective {m n : ℤ} (h : toString m = toString n) : m = n := by
  rw [Int.toString_eq_repr, Int.toString_eq_repr, Int.repr_eq_if, Int.repr_eq_if] at h
  split_ifs at h with hm hn hn
  · have hnat : m.toNat = n.toNat := natRepr_injective h
    omega
  · exact absurd h natRepr_ne_neg
  · exact absurd h.symm natRepr_ne_neg
  · have htail : (-m).toNat.repr = (-n).toNat.repr := by simpa using h
    have hnat : (-m).toNat = (-n).toNat := natRepr_injective htail
    omega

/-- The characters of a key. -/
theorem clientOrderId_toList (o : Orchestrator) (candle : Candle) (direction : SignalDirection) :
    (o.clientOrderId candle direction).toList =
      o.sessionId.toList.take 8 ++ ('-' :: (candle.symbol.replace "/" "").toList ++
        '-' :: ((toString (toUnixMs candle.openTime)).toList ++ '-' :: direction.value.toList)) := by
  simp [Orchestrator.clientOrderId]

theorem dash_notMem_direction (direction : SignalDirection) :
    '-' ∉ direction.value.toList := by
  cases direction <;> decide

theorem directionText_injective {dir dir' : SignalDirection}
    (h : dir.value.toList = dir'.value.toList) : dir = dir' := by
  revert h
  cases dir <;> cases dir' <;> decide

/-- A text is cut at its last separator. -/
theorem append_last_inj {α : Type*} {sep : α} {xs ys u v : List α} (hu : sep ∉ u) (hv : sep ∉ v)
    (h : xs ++ sep :: u = ys ++ sep :: v) : xs = ys ∧ u = v := by
  have hrev : u.reverse ++ sep :: xs.reverse = v.reverse ++ sep :: ys.reverse := by
    simpa using congrArg List.reverse h
  rcases List.append_eq_append_iff.mp hrev with ⟨t, hv', hrest⟩ | ⟨t, hu', hrest⟩
  · cases t with
    | nil => simp_all
    | cons c t =>
      obtain ⟨rfl, -⟩ := List.cons.inj hrest
      exact absurd (List.mem_reverse.mp (by simp [hv'])) hv
  · cases t with
    | nil => simp_all
    | cons c t =>
      obtain ⟨rfl, -⟩ := List.cons.inj hrest
      exact absurd (List.mem_reverse.mp (by simp [hu'])) hu

/-- **Orders with one key are for candles of one time.**  The identifiers of the sessions
are at least as long as what the key takes of them. -/
theorem clientOrderId_openTime {o o' : Orchestrator} {candle candle' : Candle}
    {direction direction' : SignalDirection} (ho : 8 ≤ o.sessionId.length)
    (ho' : 8 ≤ o'.sessionId.length) (hsymbol : candle.symbol = candle'.symbol)
    (h : o.clientOrderId candle direction = o'.clientOrderId candle' direction') :
    toUnixMs candle.openTime = toUnixMs candle'.openTime := by
  have hlist := congrArg String.toList h
  rw [clientOrderId_toList, clientOrderId_toList, hsymbol] at hlist
  have hlength : (o.sessionId.toList.take 8).length = (o'.sessionId.toList.take 8).length := by
    simp only [List.length_take, String.length_toList]
    omega
  obtain ⟨-, hrest⟩ := List.append_inj hlist hlength
  -- the direction is behind the last separator, and the time before it
  simp only [List.cons_append, List.cons.injEq, true_and, List.append_cancel_left_eq] at hrest
  obtain ⟨htext, -⟩ := append_last_inj (dash_notMem_direction _) (dash_notMem_direction _) hrest
  exact intText_injective (String.toList_inj.mp htext)

end Atlas
