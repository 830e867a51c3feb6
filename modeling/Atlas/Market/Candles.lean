import Mathlib.Data.List.Sort
import Atlas.Lib.Calendar
import Atlas.Lib.Grid
import Atlas.Session.Orchestrator

/-!
# The validation of candles

`validate_candles` sorts a list of candles by open time and goes over it once: each candle is
checked on its own, against the times seen before it, and against the time one step after
the candle before it.  The times between are enumerated by a loop of their own.

A timestamp is a number of microseconds without a bound, so adding a step never overflows.

## Main definitions

* `timeframeDeltas` — the timeframes and their steps, each positive.
* `validateOhlcSanity`, `fillGap`, `visit`, `scan`, `validateCandles` — the validation.
* `Candle.OhlcSane`, `Exact` — what a list that is reported ok is.

## Main results

* `validate_candles_exact` — **a list is reported ok exactly if it is consecutive, without
  duplicates and sane; on the grid, the missing times complete it; and the loop over the
  times between ends**.

## References

`app/market_data/validators/candles.py`.
-/

namespace Atlas

/-- The prices of a candle fit each other, and no number of it is negative. -/
structure Candle.OhlcSane (c : Candle) : Prop where
  low_le_open : c.low ≤ c.openPrice
  low_le_close : c.low ≤ c.close
  open_le_high : c.openPrice ≤ c.high
  close_le_high : c.close ≤ c.high
  low_le_high : c.low ≤ c.high
  volume_nonneg : 0 ≤ c.volume
  prices_nonneg : ∀ v ∈ [c.openPrice, c.high, c.low, c.close], 0 ≤ v

namespace Market

open Grid Calendar

/-! ### The model -/

/-- `TIMEFRAME_DELTAS`. -/
def timeframeDeltas : List (String × Step) :=
  [("1m", ⟨60000000, by decide⟩), ("5m", ⟨300000000, by decide⟩), ("15m", ⟨900000000, by decide⟩),
    ("1h", ⟨3600000000, by decide⟩), ("4h", ⟨14400000000, by decide⟩)]

structure ValidationIssue where
  code : String
  message : String
  index : Option ℕ := none
  deriving DecidableEq, Repr, Inhabited

structure ValidationResult where
  ok : Bool
  issues : List ValidationIssue := []
  missingTimestamps : List Time := []
  duplicateTimestamps : List Time := []
  deriving DecidableEq, Repr, Inhabited

/-- `CandleValidationError`. -/
structure CandleValidationError where
  result : ValidationResult
  deriving DecidableEq, Repr

/-- `datetime.isoformat` of a time in UTC. -/
def isoformat (ts : Time) : String := String.ofList (DateTime.isoformat ⟨ts, some 0⟩)

/-- An issue, if a condition holds. -/
def issueIf (condition : Prop) [Decidable condition] (code message : String) (index : Option ℕ) :
    List ValidationIssue :=
  if condition then [{ code := code, message := message, index := index }] else []

/-- `validate_ohlc_sanity`. -/
def validateOhlcSanity (candle : Candle) (index : Option ℕ) : List ValidationIssue :=
  issueIf (candle.openPrice < candle.low ∨ candle.close < candle.low)
      "OHLC_LOW_INVALID" "low must be <= open and close" index ++
    issueIf (candle.high < candle.openPrice ∨ candle.high < candle.close)
      "OHLC_HIGH_INVALID" "high must be >= open and close" index ++
    issueIf (candle.high < candle.low) "OHLC_HIGH_LT_LOW" "high must be >= low" index ++
    issueIf (candle.volume < 0) "VOLUME_NEGATIVE" "volume must be >= 0" index ++
    issueIf (∃ v ∈ [candle.openPrice, candle.high, candle.low, candle.close], v < 0)
      "PRICE_NEGATIVE" "prices must be >= 0" index

/-- The local variables of the loop over the candles. -/
structure Scan where
  issues : List ValidationIssue := []
  duplicates : List Time := []
  missing : List Time := []
  seen : Dict Time ℕ := ∅

def missingIssue (idx : ℕ) (cursor : Time) : ValidationIssue :=
  { code := "MISSING_CANDLE"
    message := "Missing candle at " ++ isoformat cursor
    index := some idx }

/-- The loop over the times between: `while cursor < ts`. -/
def fillGap (delta : Step) (ts : Time) (idx : ℕ) (cursor : Time) (s : Scan) : Scan :=
  if cursor < ts then
    fillGap delta ts idx (cursor + delta.val)
      { s with
        missing := s.missing ++ [cursor]
        issues := s.issues ++ [missingIssue idx cursor] }
  else s
termination_by (ts - cursor).toNat
decreasing_by
  have hpos := delta.pos
  have hlt : @LT.lt ℤ _ cursor ts := by assumption
  omega

/-- A time that has been seen before. -/
def noteTime (idx : ℕ) (ts : Time) (s : Scan) : Scan :=
  { s with
    duplicates := if (s.seen.get? ts).isSome then s.duplicates ++ [ts] else s.duplicates
    issues := s.issues ++ issueIf ((s.seen.get? ts).isSome = true) "DUPLICATE_CANDLE"
      ("Duplicate open_time " ++ isoformat ts) (some idx)
    seen := s.seen.set ts idx }

/-- A time against the one before it. -/
def checkStep (delta : Step) (prev : Time) (idx : ℕ) (ts : Time) (s : Scan) : Scan :=
  let expected := prev + delta.val
  if expected < ts then fillGap delta ts idx expected s
  else
    { s with
      issues := s.issues ++ issueIf (ts < expected) "CONTINUITY_REGRESSION"
        ("Candle time went backwards at index " ++ toString idx) (some idx) }

/-- One candle of the loop; `prev` is `sorted_candles[idx - 1]`, if there is one. -/
def visit (delta : Option Step) (prev : Option Candle) (idx : ℕ) (candle : Candle) (s : Scan) :
    Scan :=
  let s := { s with issues := s.issues ++ validateOhlcSanity candle (some idx) }
  let s := noteTime idx candle.openTime s
  match delta, prev with
  | some delta, some prev => checkStep delta prev.openTime idx candle.openTime s
  | _, _ => s

/-- The loop over the candles. -/
def scan (delta : Option Step) : Option Candle → ℕ → List Candle → Scan → Scan
  | _, _, [], s => s
  | prev, idx, candle :: candles, s =>
      scan delta (some candle) (idx + 1) candles (visit delta prev idx candle s)

/-- `sorted(candles, key=lambda c: ensure_utc(c.open_time))`. -/
def sortedCandles (candles : List Candle) : List Candle :=
  candles.insertionSort fun a b => a.openTime ≤ b.openTime

/-- `timeframe or candles[0].timeframe`. -/
def usedTimeframe (candles : List Candle) (timeframe : Option String) : Option String :=
  match timeframe with
  | some tf => if tf = "" then candles.head?.map Candle.timeframe else some tf
  | none => candles.head?.map Candle.timeframe

/-- `TIMEFRAME_DELTAS.get(tf)`. -/
def usedDelta (candles : List Candle) (timeframe : Option String) : Option Step :=
  (usedTimeframe candles timeframe).bind fun tf => timeframeDeltas.lookup tf

/-- The result of `validate_candles`. -/
def validation (candles : List Candle) (timeframe : Option String) : ValidationResult :=
  if candles = [] then { ok := true }
  else
    let tf := (usedTimeframe candles timeframe).getD ""
    let delta := usedDelta candles timeframe
    let s := scan delta none 0 (sortedCandles candles)
      { issues := issueIf (delta = none) "UNSUPPORTED_TIMEFRAME" ("Unknown timeframe: " ++ tf) none }
    { ok := s.issues.length = 0
      issues := s.issues
      missingTimestamps := s.missing
      duplicateTimestamps := s.duplicates }

/-- `validate_candles`. -/
def validateCandles (candles : List Candle) (timeframe : Option String) (raiseOnError : Bool) :
    Except CandleValidationError ValidationResult :=
  let result := validation candles timeframe
  if raiseOnError ∧ ¬result.ok then .error { result := result } else .ok result

/-! ### What is checked -/

/-- A candle opens exactly one step after another. -/
def Follows (delta : Step) (a b : Candle) : Prop := b.openTime = a.openTime + delta.val

instance (delta : Step) (a b : Candle) : Decidable (Follows delta a b) :=
  inferInstanceAs (Decidable (_ = _))

/-- The candles are consecutive at exactly one step, without duplicates, and sane. -/
structure Exact (delta : Step) (candles : List Candle) : Prop where
  consecutive : (sortedCandles candles).IsChain (Follows delta)
  nodup : (candles.map Candle.openTime).Nodup
  sane : ∀ c ∈ candles, c.OhlcSane

variable {delta : Step} {prev : Option Candle} {idx : ℕ} {candle : Candle}
  {candles : List Candle} {s : Scan} {timeframe : Option String}

theorem issueIf_eq_nil {condition : Prop} [Decidable condition] {code message : String}
    {index : Option ℕ} : issueIf condition code message index = [] ↔ ¬condition := by
  unfold issueIf
  split_ifs with h
  · simp [h]
  · simp [h]

theorem validateOhlcSanity_eq_nil {index : Option ℕ} :
    validateOhlcSanity candle index = [] ↔ candle.OhlcSane := by
  simp only [validateOhlcSanity, List.append_eq_nil_iff, issueIf_eq_nil, not_or, not_lt, not_exists,
    not_and]
  constructor
  · rintro ⟨⟨⟨⟨⟨h1, h2⟩, h3, h4⟩, h5⟩, h6⟩, h7⟩
    exact ⟨h1, h2, h3, h4, h5, h6, h7⟩
  · rintro ⟨h1, h2, h3, h4, h5, h6, h7⟩
    exact ⟨⟨⟨⟨⟨h1, h2⟩, h3, h4⟩, h5⟩, h6⟩, h7⟩

instance (c : Candle) : Decidable c.OhlcSane :=
  decidable_of_iff (validateOhlcSanity c none = []) validateOhlcSanity_eq_nil

/-- The loop over the times between notes each point of the walk, with an issue. -/
theorem fillGap_eq (delta : Step) (ts : Time) (idx : ℕ) (cursor : Time) (s : Scan) :
    fillGap delta ts idx cursor s =
      { s with
        missing := s.missing ++ walk delta cursor ts
        issues := s.issues ++ (walk delta cursor ts).map (missingIssue idx) } := by
  induction cursor, s using fillGap.induct delta ts idx with
  | case1 cursor s hlt ih =>
    rw [fillGap, if_pos hlt, ih, walk_of_lt hlt]
    simp only [List.append_assoc, List.singleton_append, List.map_cons]
  | case2 cursor s hge =>
    rw [fillGap, if_neg hge, walk_of_le (not_lt.1 hge)]
    simp only [List.map_nil, List.append_nil]

/-! ### One candle -/

theorem checkStep_missing (delta : Step) (prev : Time) (idx : ℕ) (ts : Time) (s : Scan) :
    (checkStep delta prev idx ts s).missing = s.missing ++ walk delta (prev + delta.val) ts := by
  simp only [checkStep]
  split_ifs with h
  · rw [fillGap_eq]
  · rw [walk_of_le (not_lt.1 h), List.append_nil]

theorem checkStep_issues (delta : Step) (prev : Time) (idx : ℕ) (ts : Time) (s : Scan) :
    (checkStep delta prev idx ts s).issues = [] ↔ s.issues = [] ∧ ts = prev + delta.val := by
  simp only [checkStep]
  split_ifs with h
  · rw [fillGap_eq, walk_of_lt h]
    simp [h.ne']
  · simp only [List.append_eq_nil_iff, issueIf_eq_nil, not_lt]
    constructor
    · rintro ⟨hs, hle⟩
      exact ⟨hs, le_antisymm (not_lt.1 h) hle⟩
    · rintro ⟨hs, heq⟩
      exact ⟨hs, heq.ge⟩

theorem checkStep_seen (delta : Step) (prev : Time) (idx : ℕ) (ts : Time) (s : Scan) :
    (checkStep delta prev idx ts s).seen = s.seen := by
  simp only [checkStep]
  split_ifs with h
  · rw [fillGap_eq]
  · rfl

theorem visit_seen (delta : Option Step) (prev : Option Candle) (idx : ℕ) (candle : Candle)
    (s : Scan) : (visit delta prev idx candle s).seen = s.seen.set candle.openTime idx := by
  unfold visit
  dsimp only
  split
  · rw [checkStep_seen]
    rfl
  · rfl

theorem visit_missing (delta : Step) (prev : Option Candle) (idx : ℕ) (candle : Candle)
    (s : Scan) : (visit (some delta) prev idx candle s).missing =
      s.missing ++ prev.elim [] fun p => walk delta (p.openTime + delta.val) candle.openTime := by
  cases prev with
  | none => exact (List.append_nil _).symm
  | some p => exact checkStep_missing ..

/-- No issue is found with a candle that is sane, new, and one step after the one before. -/
theorem visit_issues : (visit (some delta) prev idx candle s).issues = [] ↔
    s.issues = [] ∧ candle.OhlcSane ∧ s.seen.get? candle.openTime = none ∧
      ∀ p ∈ prev, Follows delta p candle := by
  have hnote : (noteTime idx candle.openTime
      { s with issues := s.issues ++ validateOhlcSanity candle (some idx) }).issues = [] ↔
      s.issues = [] ∧ candle.OhlcSane ∧ s.seen.get? candle.openTime = none := by
    simp only [noteTime, List.append_eq_nil_iff, issueIf_eq_nil, validateOhlcSanity_eq_nil,
      Option.not_isSome_iff_eq_none, and_assoc]
  -- without a candle before there is no step to check
  cases prev with
  | none =>
    refine hnote.trans ⟨?_, ?_⟩
    · rintro ⟨hs, hsane, hnew⟩
      exact ⟨hs, hsane, hnew, fun p hp => absurd hp (Option.not_mem_none p)⟩
    · rintro ⟨hs, hsane, hnew, -⟩
      exact ⟨hs, hsane, hnew⟩
  | some p =>
    refine (checkStep_issues ..).trans ⟨?_, ?_⟩
    · rintro ⟨hs, heq⟩
      obtain ⟨hs, hsane, hnew⟩ := hnote.1 hs
      refine ⟨hs, hsane, hnew, fun q hq => ?_⟩
      rw [← Option.mem_some_iff.1 hq]
      exact heq
    · rintro ⟨hs, hsane, hnew, hstep⟩
      exact ⟨hnote.2 ⟨hs, hsane, hnew⟩, hstep p rfl⟩

/-! ### All candles -/

/-- What the loop finds missing are the gaps of the times. -/
theorem scan_missing (delta : Step) (p : Candle) (idx : ℕ) (candles : List Candle) (s : Scan) :
    (scan (some delta) (some p) idx candles s).missing =
      s.missing ++ gaps delta p.openTime (candles.map Candle.openTime) := by
  induction candles generalizing p idx s with
  | nil => exact (List.append_nil _).symm
  | cons candle candles ih =>
    rw [scan, ih, visit_missing, List.map_cons, gaps, List.append_assoc]
    rfl

/-- **The loop finds no issue** exactly if the candles are sane, have times that are new, and
follow each other at one step. -/
theorem scan_issues : (scan (some delta) prev idx candles s).issues = [] ↔
    s.issues = [] ∧ (∀ c ∈ candles, c.OhlcSane) ∧
      ((candles.map Candle.openTime).Nodup ∧
        ∀ c ∈ candles, s.seen.get? c.openTime = none) ∧
      (prev.toList ++ candles).IsChain (Follows delta) := by
  induction candles generalizing prev idx s with
  | nil =>
    have hchain : prev.toList.IsChain (Follows delta) := by
      cases prev with
      | none => exact .nil
      | some p => exact .singleton p
    simp [scan, hchain]
  | cons candle candles ih =>
    -- the time of the candle is seen from now on, so the times behind must differ from it
    have hnew : (∀ c ∈ candles, (s.seen.set candle.openTime idx).get? c.openTime = none) ↔
        (∀ c ∈ candles, s.seen.get? c.openTime = none) ∧
          candle.openTime ∉ candles.map Candle.openTime := by
      simp only [List.mem_map, not_exists, not_and, ← forall_and, Dict.get?_set]
      refine forall_congr' fun c => ?_
      by_cases hc : c ∈ candles
      · by_cases htime : candle.openTime = c.openTime
        · simp [hc, htime]
        · simp [hc, htime, Ne.symm htime]
      · simp [hc]
    have hchain : (prev.toList ++ candle :: candles).IsChain (Follows delta) ↔
        (∀ p ∈ prev, Follows delta p candle) ∧
          ((some candle).toList ++ candles).IsChain (Follows delta) := by
      cases prev with
      | none => simp
      | some p => simp
    rw [scan, ih, visit_issues, visit_seen, hnew, hchain, List.map_cons, List.nodup_cons,
      List.forall_mem_cons, List.forall_mem_cons]
    tauto

/-! ### The validation -/

theorem pairwise_sortedCandles (candles : List Candle) :
    ((sortedCandles candles).map Candle.openTime).Pairwise (· ≤ ·) := by
  have : Std.Total fun a b : Candle => a.openTime ≤ b.openTime :=
    ⟨fun a b => le_total a.openTime b.openTime⟩
  have : IsTrans Candle fun a b => a.openTime ≤ b.openTime := ⟨fun _ _ _ => le_trans⟩
  exact List.pairwise_map.2 (List.pairwise_insertionSort _ _)

theorem sortedCandles_perm (candles : List Candle) : (sortedCandles candles).Perm candles :=
  List.perm_insertionSort _ _

/-- The result for a timeframe that is supported. -/
theorem validation_eq (hne : candles ≠ []) (hdelta : usedDelta candles timeframe = some delta) :
    validation candles timeframe =
      { ok := (scan (some delta) none 0 (sortedCandles candles) {}).issues.length = 0
        issues := (scan (some delta) none 0 (sortedCandles candles) {}).issues
        missingTimestamps := (scan (some delta) none 0 (sortedCandles candles) {}).missing
        duplicateTimestamps := (scan (some delta) none 0 (sortedCandles candles) {}).duplicates } := by
  rw [validation, if_neg hne, hdelta]
  rfl

/-- The candles are reported ok exactly if they are exact. -/
theorem validation_ok (hdelta : usedDelta candles timeframe = some delta) :
    (validation candles timeframe).ok = true ↔ Exact delta candles := by
  by_cases hne : candles = []
  · subst hne
    exact ⟨fun _ => ⟨.nil, List.nodup_nil, fun c hc => absurd hc List.not_mem_nil⟩, fun _ => rfl⟩
  · have hperm : (sortedCandles candles).Perm candles := sortedCandles_perm candles
    rw [validation_eq hne hdelta, decide_eq_true_iff, List.length_eq_zero_iff, scan_issues]
    constructor
    · rintro ⟨-, hsane, ⟨hnodup, -⟩, hchain⟩
      exact ⟨hchain, (hperm.map _).nodup_iff.1 hnodup, fun c hc => hsane c (hperm.mem_iff.2 hc)⟩
    · rintro ⟨hchain, hnodup, hsane⟩
      exact ⟨rfl, fun c hc => hsane c (hperm.mem_iff.1 hc),
        ⟨(hperm.map _).nodup_iff.2 hnodup, fun _ _ => rfl⟩, hchain⟩

/-- What is missing are the gaps of the sorted times. -/
theorem validation_missing {first : Candle} {rest : List Candle}
    (hsorted : sortedCandles candles = first :: rest)
    (hdelta : usedDelta candles timeframe = some delta) :
    (validation candles timeframe).missingTimestamps =
      gaps delta first.openTime (rest.map Candle.openTime) := by
  have hne : candles ≠ [] := by
    rintro rfl
    cases hsorted
  rw [validation_eq hne hdelta, hsorted]
  dsimp only
  rw [scan, scan_missing, visit_missing]
  rfl

/-- The times of the candles in order: they ascend, and they are those of the list. -/
theorem sortedCandles_cons {first : Candle} {rest : List Candle}
    (hsorted : sortedCandles candles = first :: rest) :
    (first.openTime :: rest.map Candle.openTime).Pairwise (· ≤ ·) ∧
      (∀ c, c ∈ candles ↔ c ∈ first :: rest) ∧
      ∀ u, u ∈ candles.map Candle.openTime ↔ u ∈ first.openTime :: rest.map Candle.openTime := by
  have hperm : (sortedCandles candles).Perm candles := sortedCandles_perm candles
  have hordered := pairwise_sortedCandles candles
  rw [hsorted] at hperm hordered
  rw [List.map_cons] at hordered
  refine ⟨hordered, fun c => hperm.mem_iff.symm, fun u => ?_⟩
  rw [← List.map_cons]
  exact (hperm.map _).mem_iff.symm

theorem eq_nil_of_sortedCandles (hsorted : sortedCandles candles = []) : candles = [] := by
  have hperm : (sortedCandles candles).Perm candles := sortedCandles_perm candles
  rw [hsorted] at hperm
  exact List.nil_perm.1 hperm

/-- The times that are missing, with those that are there: all grid points from the first to
the last. -/
theorem mem_missing (hdelta : usedDelta candles timeframe = some delta) {origin : Time}
    (hgrid : ∀ c ∈ candles, Aligned delta origin c.openTime) (t : Time) :
    t ∈ (validation candles timeframe).missingTimestamps ∨ t ∈ candles.map Candle.openTime ↔
      Aligned delta origin t ∧ (∃ a ∈ candles, a.openTime ≤ t) ∧
        ∃ b ∈ candles, t ≤ b.openTime := by
  cases hsorted : sortedCandles candles with
  | nil =>
    rw [eq_nil_of_sortedCandles hsorted]
    simp [validation]
  | cons first rest =>
    obtain ⟨hordered, hcandles, hmem⟩ := sortedCandles_cons hsorted
    have hfirst : Aligned delta origin first.openTime :=
      hgrid first ((hcandles first).2 List.mem_cons_self)
    have haligned : ∀ u ∈ rest.map Candle.openTime, Aligned delta first.openTime u := by
      intro u hu
      obtain ⟨c, hc, rfl⟩ := List.mem_map.1 hu
      exact hfirst.symm.trans (hgrid c ((hcandles c).2 (List.mem_cons_of_mem _ hc)))
    -- the first candle is the earliest one
    have hlow : (∃ a ∈ candles, a.openTime ≤ t) ↔ first.openTime ≤ t := by
      constructor
      · rintro ⟨a, ha, hle⟩
        rcases List.mem_cons.1 ((hmem _).1 (List.mem_map_of_mem ha)) with heq | hrest
        · rwa [← heq]
        · exact ((List.pairwise_cons.1 hordered).1 _ hrest).trans hle
      · intro hle
        exact ⟨first, (hcandles first).2 List.mem_cons_self, hle⟩
    have hhigh : (∃ b ∈ candles, t ≤ b.openTime) ↔
        ∃ u ∈ first.openTime :: rest.map Candle.openTime, t ≤ u := by
      simp only [← hmem, List.mem_map, exists_exists_and_eq_and]
    have hshift : Aligned delta first.openTime t ↔ Aligned delta origin t :=
      ⟨fun h => hfirst.trans h, fun h => hfirst.symm.trans h⟩
    rw [validation_missing hsorted hdelta, hmem, mem_gaps_or_mem hordered haligned, hlow, hhigh,
      hshift]

/-- The times that are missing are not there, and each is reported once. -/
theorem missing_new (hdelta : usedDelta candles timeframe = some delta) :
    (validation candles timeframe).missingTimestamps.Nodup ∧
      ∀ t ∈ (validation candles timeframe).missingTimestamps,
        t ∉ candles.map Candle.openTime := by
  cases hsorted : sortedCandles candles with
  | nil =>
    rw [eq_nil_of_sortedCandles hsorted]
    simp [validation]
  | cons first rest =>
    obtain ⟨hordered, -, hmem⟩ := sortedCandles_cons hsorted
    rw [validation_missing hsorted hdelta]
    refine ⟨nodup_gaps hordered, fun t ht hthere => ?_⟩
    exact disjoint_gaps hordered ht ((hmem t).1 hthere)

/-- The loop over the times between ends: after as many steps as it takes to reach the next
candle. -/
theorem fillGap_terminates (delta : Step) (ts : Time) (idx : ℕ) (cursor : Time) (s : Scan) :
    ∃ n : ℕ, (∀ m < n, cursor + m * delta.val < ts) ∧ ts ≤ cursor + n * delta.val ∧
      (fillGap delta ts idx cursor s).missing =
        s.missing ++ (List.range n).map fun m : ℕ => cursor + m * delta.val := by
  obtain ⟨n, hbefore, hafter, heq⟩ := walk_eq_map_range delta cursor ts
  refine ⟨n, hbefore, hafter, ?_⟩
  rw [fillGap_eq, heq]

/-- **The validation is exact**: for a supported timeframe, a list of candles in any order is
reported ok exactly if it is consecutive at one step when sorted, without duplicates and sane.
If the candles are on the grid, the missing times and those that are there are the grid points
from the first to the last, and the loop that finds the missing ones ends. -/
theorem validate_candles_exact (candles : List Candle) (timeframe : Option String) (delta : Step)
    (hsupported : usedDelta candles timeframe = some delta) :
    ∃ r, validateCandles candles timeframe false = .ok r ∧
      (validateCandles candles timeframe true = .ok r ↔ r.ok = true) ∧
      (r.ok = true ↔ Exact delta candles) ∧
      (∀ origin, (∀ c ∈ candles, Aligned delta origin c.openTime) → ∀ t,
        t ∈ r.missingTimestamps ∨ t ∈ candles.map Candle.openTime ↔
          Aligned delta origin t ∧ (∃ a ∈ candles, a.openTime ≤ t) ∧
            ∃ b ∈ candles, t ≤ b.openTime) ∧
      r.missingTimestamps.Nodup ∧
      (∀ t ∈ r.missingTimestamps, t ∉ candles.map Candle.openTime) ∧
      ∀ ts idx cursor s, ∃ n : ℕ, (∀ m < n, cursor + m * delta.val < ts) ∧
        ts ≤ cursor + n * delta.val ∧
        (fillGap delta ts idx cursor s).missing =
          s.missing ++ (List.range n).map fun m : ℕ => cursor + m * delta.val := by
  obtain ⟨hnodup, hdisjoint⟩ := missing_new hsupported
  refine ⟨validation candles timeframe, rfl, ?_, validation_ok hsupported,
    fun origin hgrid t => mem_missing hsupported hgrid t, hnodup, hdisjoint,
    fun ts idx cursor s => fillGap_terminates delta ts idx cursor s⟩
  unfold validateCandles
  cases hok : (validation candles timeframe).ok with
  | true => simp [hok]
  | false => simp [hok]

/-- A candle around 100. -/
def minuteCandle (minute : ℤ) : Candle :=
  { symbol := "BTC/USDT", timeframe := "1m", openTime := 60000000 * minute, openPrice := 100
    high := 101, low := 99, close := 100, volume := 1 }

/-- A list with a gap and a duplicate, not in order. -/
theorem validate_candles_exact_gap :
    ∃ r, validateCandles ([0, 3, 1, 1].map minuteCandle) none false = .ok r ∧ r.ok = false ∧
      120000000 ∈ r.missingTimestamps := by
  obtain ⟨r, hrun, -, hok, hmissing, -⟩ := validate_candles_exact ([0, 3, 1, 1].map minuteCandle)
    none ⟨60000000, by decide⟩ (by decide)
  refine ⟨r, hrun, ?_, ?_⟩
  · rw [← Bool.not_eq_true, hok]
    intro hexact
    exact absurd hexact.nodup (by decide)
  · have hgrid : ∀ c ∈ [0, 3, 1, 1].map minuteCandle,
        Aligned ⟨60000000, by decide⟩ 0 c.openTime := by
      intro c hc
      obtain ⟨k, -, rfl⟩ := List.mem_map.1 hc
      exact ⟨k, by simp only [minuteCandle]; ring⟩
    refine ((hmissing 0 hgrid 120000000).2 ⟨⟨2, by norm_num⟩, ?_, ?_⟩).resolve_right (by decide)
    · exact ⟨minuteCandle 0, by decide, by decide⟩
    · exact ⟨minuteCandle 3, by decide, by decide⟩

end Market

end Atlas
