import Mathlib.Tactic.Linarith
import Atlas.Lib.Isoformat
import Atlas.Lib.Decimal
import Atlas.News.Sentiment

/-!
# Looking at the news twice

An evaluation takes the new items of its symbol, and what it has taken is not new to the next
one.  So a second look at the same news sees none of it, and a headline that blocked at the
first look allows at the second.  What another symbol is evaluated on is without what the
first symbol has taken.

## Main definitions

* `answer` — the action and the size multiplier of an evaluation, if it does not raise.
* `NewsConfig.Harmless` — items that call for nothing.
* `NewsConfig.Alike` — items that call for the same.
* `NewsService.Steady` — new items that a second look answers like the first.
* `NewsService.afterwards` — what is new to a symbol when another one has been evaluated.

## Main results

* `NewsConfig.adjust_eq_iff` — **when the answers are the same**.
* `NewsService.evaluate_again_iff` — **when the second look answers like the first**.
* `NewsService.evaluate_after` — what an evaluation is based on after another one.
* `NewsService.evaluations_repeatable_iff` — both.
* `NewsService.blocking_headline_vanishes` — a headline that blocks only once.

## References

`app/news/sentiment.py`.
-/

namespace Atlas

namespace News

open Calendar FirstSeen

/-- The action and the size multiplier, if the evaluation does not raise. -/
def answer (result : Except NewsError NewsRiskAdjustment) : Option (NewsAction × ℚ) :=
  result.toOption.map fun a => (a.action, a.sizeMultiplier)

/-- Items that call for nothing: none is relevant, or none of these is uncertain and their
average sentiment is neither negative nor at the threshold. -/
def NewsConfig.Harmless (config : NewsConfig) (symbol : String) (items : List NewsItem) : Prop :=
  relevantItems symbol items = [] ∨
    (∀ i ∈ relevantItems symbol items, config.extremeUncertaintyConfidence < i.confidence) ∧
      config.reduceThreshold < averageSentiment (relevantItems symbol items) ∧
      0 ≤ averageSentiment (relevantItems symbol items)

/-- Items that call for the same: there is relevant news in both or in neither, an uncertain
headline in both or in neither, and otherwise the average sentiment is on the same side of the
threshold, and of zero. -/
@[mk_iff]
structure NewsConfig.Alike (config : NewsConfig) (symbol : String)
    (items others : List NewsItem) : Prop where
  relevant : relevantItems symbol items = [] ↔ relevantItems symbol others = []
  uncertain :
    (∃ i ∈ relevantItems symbol items, i.confidence ≤ config.extremeUncertaintyConfidence) ↔
      ∃ i ∈ relevantItems symbol others, i.confidence ≤ config.extremeUncertaintyConfidence
  average : relevantItems symbol items ≠ [] →
    (∀ i ∈ relevantItems symbol items, config.extremeUncertaintyConfidence < i.confidence) →
    (averageSentiment (relevantItems symbol items) ≤ config.reduceThreshold ↔
      averageSentiment (relevantItems symbol others) ≤ config.reduceThreshold) ∧
    (config.reduceThreshold < averageSentiment (relevantItems symbol items) →
      (averageSentiment (relevantItems symbol items) < 0 ↔
        averageSentiment (relevantItems symbol others) < 0))

/-- The answers, each with what calls for it. -/
inductive NewsConfig.Calls (config : NewsConfig) (symbol : String) (items : List NewsItem) :
    NewsRiskAdjustment → Prop
  | nothing (h : relevantItems symbol items = []) :
      Calls config symbol items { action := .allow, message := "no relevant news" }
  | block (h : ∃ i ∈ relevantItems symbol items,
        i.confidence ≤ config.extremeUncertaintyConfidence) :
      Calls config symbol items
        { action := .block
          sizeMultiplier := 0
          reasonCode := some .newsExtremeUncertainty
          message := "Blocked under extreme news uncertainty" }
  | reduce (hsome : relevantItems symbol items ≠ [])
      (hcertain : ∀ i ∈ relevantItems symbol items,
        config.extremeUncertaintyConfidence < i.confidence)
      (h : averageSentiment (relevantItems symbol items) ≤ config.reduceThreshold) :
      Calls config symbol items
        { action := .reduce
          sizeMultiplier := 1 / 2
          reasonCode := some .sizeReducedByNews
          message := "Size reduced due to negative news sentiment" }
  | requireConfirmation (hsome : relevantItems symbol items ≠ [])
      (hcertain : ∀ i ∈ relevantItems symbol items,
        config.extremeUncertaintyConfidence < i.confidence)
      (hreduce : config.reduceThreshold < averageSentiment (relevantItems symbol items))
      (h : averageSentiment (relevantItems symbol items) < 0) :
      Calls config symbol items
        { action := .requireConfirmation
          message := "Confirmation required due to mixed/negative news" }
  | supportive (hsome : relevantItems symbol items ≠ [])
      (hcertain : ∀ i ∈ relevantItems symbol items,
        config.extremeUncertaintyConfidence < i.confidence)
      (hreduce : config.reduceThreshold < averageSentiment (relevantItems symbol items))
      (h : 0 ≤ averageSentiment (relevantItems symbol items)) :
      Calls config symbol items
        { action := .allow, message := "news supportive or neutral" }

theorem NewsConfig.adjust_calls (config : NewsConfig) (symbol : String) (items : List NewsItem) :
    config.Calls symbol items (config.adjust symbol items) := by
  unfold adjust
  dsimp only
  by_cases hnone : relevantItems symbol items = []
  · rw [if_pos hnone]
    exact .nothing hnone
  rw [if_neg hnone]
  by_cases huncertain : (relevantItems symbol items).any
      (fun i => i.confidence ≤ config.extremeUncertaintyConfidence) = true
  · rw [if_pos huncertain]
    obtain ⟨i, hi, hle⟩ := List.any_eq_true.mp huncertain
    exact .block ⟨i, hi, of_decide_eq_true hle⟩
  rw [if_neg huncertain]
  have hcertain : ∀ i ∈ relevantItems symbol items,
      config.extremeUncertaintyConfidence < i.confidence := by
    intro i hi
    by_contra hle
    exact huncertain (List.any_eq_true.mpr ⟨i, hi, decide_eq_true (not_lt.mp hle)⟩)
  split_ifs with hreduce hnegative
  · exact .reduce hnone hcertain hreduce
  · exact .requireConfirmation hnone hcertain (not_le.mp hreduce) hnegative
  · exact .supportive hnone hcertain (not_le.mp hreduce) (not_lt.mp hnegative)

/-- **What calls for nothing** is allowed in full. -/
theorem NewsConfig.adjust_allow_iff (config : NewsConfig) (symbol : String)
    (items : List NewsItem) :
    ((config.adjust symbol items).action, (config.adjust symbol items).sizeMultiplier) =
      (NewsAction.allow, 1) ↔ config.Harmless symbol items := by
  have hcalls := config.adjust_calls symbol items
  generalize config.adjust symbol items = answer at hcalls
  unfold Harmless
  cases hcalls with
  | nothing h => simp [h]
  | block h =>
    obtain ⟨i, hi, hle⟩ := h
    have hsome : relevantItems symbol items ≠ [] := List.ne_nil_of_mem hi
    have hnot : ¬∀ i ∈ relevantItems symbol items,
        config.extremeUncertaintyConfidence < i.confidence :=
      fun h => absurd (h i hi) (not_lt.mpr hle)
    simp [hsome, hnot]
  | reduce hsome hcertain h => simp [hsome, not_lt.mpr h]
  | requireConfirmation hsome hcertain hreduce h => simp [hsome, not_le.mpr h]
  | supportive hsome hcertain hreduce h => exact iff_of_true rfl (.inr ⟨hcertain, hreduce, h⟩)

/-- **The answers are the same** exactly if the items call for the same. -/
theorem NewsConfig.adjust_eq_iff (config : NewsConfig) (symbol : String)
    (items others : List NewsItem) :
    config.adjust symbol items = config.adjust symbol others ↔
      config.Alike symbol items others := by
  have hcalls := config.adjust_calls symbol items
  have hcalls' := config.adjust_calls symbol others
  generalize config.adjust symbol items = answer at hcalls
  generalize config.adjust symbol others = answer' at hcalls'
  rw [NewsConfig.alike_iff]
  -- the five answers differ, and so do the five sides of the thresholds
  cases hcalls <;> cases hcalls' <;> grind

namespace NewsService

variable (svc : NewsService)

/-- The item cannot be read, for this reason. -/
def failsWith (e : NewsError) (raw : RawItem) : Bool :=
  match svc.read raw with
  | .error e' => e' = e
  | .ok _ => false

/-- New items that a second look answers like the first: both looks raise, for a timestamp or
for the numbers of two items; or all can be read and call for nothing. -/
def Steady (symbol : String) (news : List RawItem) : Prop :=
  (∃ raw ∈ news, svc.failsWith .timestamp raw = true) ∨
    2 ≤ (news.filter (svc.failsWith .number)).length ∨
    ∃ items, news.mapM svc.read = .ok items ∧ svc.config.Harmless symbol items

/-- New items that call for the same, or fail for the same reason. -/
def CallAlike (symbol : String) (news others : List RawItem) : Prop :=
  (∃ e, news.mapM svc.read = .error e ∧ others.mapM svc.read = .error e) ∨
    ∃ items items', news.mapM svc.read = .ok items ∧ others.mapM svc.read = .ok items' ∧
      svc.config.Alike symbol items items'

/-- What is new to a symbol when the news of another one has been taken. -/
def afterwards (news others : List RawItem) : List RawItem :=
  news.filter fun raw => dedupKey raw ∉ keys (svc.taken others)

/-- What an evaluation leaves of the new items. -/
def left : List RawItem → List RawItem
  | [] => []
  | raw :: rest =>
      match svc.read raw with
      | .error .timestamp => raw :: rest
      | .error .number => rest
      | .ok _ => left rest

variable {svc} {news : List RawItem} {raw : RawItem}

/-! ### What is left -/

theorem taken_append_left (svc : NewsService) (news : List RawItem) :
    svc.taken news ++ svc.left news = news := by
  induction news with
  | nil => rfl
  | cons raw rest ih =>
    unfold taken left
    cases hread : svc.read raw with
    | error e => cases e <;> rfl
    | ok item =>
      dsimp only
      rw [List.cons_append, ih]

/-- With distinct keys, what is left has none of the keys that have been taken. -/
theorem afterwards_self (hnodup : (news.map dedupKey).Nodup) :
    svc.afterwards news news = svc.left news := by
  unfold afterwards
  have hsplit := taken_append_left svc news
  rw [← hsplit, List.map_append] at hnodup
  have hdisjoint := (List.nodup_append.mp hnodup).2.2
  conv_lhs =>
    enter [2]
    rw [← hsplit]
  have htaken : (svc.taken news).filter (fun raw => dedupKey raw ∉ keys (svc.taken news)) = [] := by
    rw [List.filter_eq_nil_iff]
    intro raw hraw
    simp only [decide_not, Bool.not_eq_true', decide_eq_false_iff_not, not_not]
    exact List.mem_toFinset.mpr (List.mem_map_of_mem hraw)
  have hleft : (svc.left news).filter (fun raw => dedupKey raw ∉ keys (svc.taken news)) =
      svc.left news := by
    rw [List.filter_eq_self]
    intro raw hraw
    refine decide_eq_true fun hmem => ?_
    exact hdisjoint _ (List.mem_toFinset.mp hmem) _ (List.mem_map_of_mem hraw) rfl
  rw [List.filter_append, htaken, hleft, List.nil_append]

/-! ### What a look comes to -/

theorem failsWith_iff {e : NewsError} : svc.failsWith e raw = true ↔ svc.read raw = .error e := by
  unfold failsWith
  cases hread : svc.read raw with
  | error e' => simp
  | ok item => simp

/-- A list can be read when no item fails. -/
theorem mapM_read_ok_iff : (∃ items, news.mapM svc.read = .ok items) ↔
    (∀ raw ∈ news, svc.failsWith .timestamp raw = false) ∧
      news.filter (svc.failsWith .number) = [] := by
  induction news with
  | nil => simp [pure, Except.pure]
  | cons raw rest ih =>
    rw [List.mapM_cons]
    cases hread : svc.read raw with
    | error e => cases e <;> simp [bind, Except.bind, failsWith, hread]
    | ok item =>
      have hfails : ∀ e, svc.failsWith e raw = false := fun e => by simp [failsWith, hread]
      rw [List.filter_cons_of_neg (by simp [hfails]), List.forall_mem_cons,
        and_iff_right (hfails _), ← ih]
      cases hrest : rest.mapM svc.read <;> simp [bind, Except.bind, pure, Except.pure]

/-- **What a look leaves to the next one**: nothing, if it raises nothing; the same failure, if
it fails for a timestamp; the items behind the failure, if it fails for numbers. -/
theorem look_cases (svc : NewsService) (news : List RawItem) :
    (∃ items, news.mapM svc.read = .ok items ∧ svc.left news = []) ∨
    (news.mapM svc.read = .error .timestamp ∧ (svc.left news).mapM svc.read = .error .timestamp ∧
      ∃ raw ∈ news, svc.failsWith .timestamp raw = true) ∨
    (news.mapM svc.read = .error .number ∧
      (news.filter (svc.failsWith .number)).length =
        1 + ((svc.left news).filter (svc.failsWith .number)).length ∧
      ((∃ raw ∈ news, svc.failsWith .timestamp raw = true) ↔
        ∃ raw ∈ svc.left news, svc.failsWith .timestamp raw = true)) := by
  induction news with
  | nil => exact Or.inl ⟨[], rfl, rfl⟩
  | cons raw rest ih =>
    unfold left
    rw [List.mapM_cons]
    cases hread : svc.read raw with
    | error e =>
      cases e with
      | timestamp =>
        refine Or.inr (Or.inl ⟨rfl, ?_, raw, List.mem_cons_self, failsWith_iff.mpr hread⟩)
        dsimp only
        rw [List.mapM_cons, hread]
        rfl
      | number =>
        have hnumber : svc.failsWith .number raw = true := failsWith_iff.mpr hread
        have hdated : svc.failsWith .timestamp raw = false := by simp [failsWith, hread]
        refine Or.inr (Or.inr ⟨rfl, ?_, ?_⟩)
        · rw [List.filter_cons_of_pos hnumber, List.length_cons, Nat.add_comm]
        · simp [hdated]
    | ok item =>
      -- a readable item is taken, and the look goes on
      have hfails : ∀ e, svc.failsWith e raw = false := fun e => by simp [failsWith, hread]
      dsimp only
      rcases ih with ⟨items, hrest, hleft⟩ | ⟨hrest, hleft, hfailing⟩ | ⟨hrest, hcount, hdated⟩
      · refine Or.inl ⟨item :: items, ?_, hleft⟩
        rw [hrest]
        rfl
      · refine Or.inr (Or.inl ⟨?_, hleft, ?_⟩)
        · rw [hrest]
          rfl
        · obtain ⟨failing, hmem, hfail⟩ := hfailing
          exact ⟨failing, List.mem_cons_of_mem _ hmem, hfail⟩
      · refine Or.inr (Or.inr ⟨?_, ?_, ?_⟩)
        · rw [hrest]
          rfl
        · rw [List.filter_cons_of_neg (by simp [hfails]), hcount]
        · rw [List.exists_mem_cons_iff, ← hdated]
          simp [hfails]

/-! ### Two looks -/

variable {fetchRecent : String → List RawItem} {seen : Finset String} {symbol other : String}

/-- **What an evaluation is based on after another one**: its new items without those that the
other one has taken. -/
theorem evaluate_after :
    (svc.evaluateForSymbol fetchRecent
      (svc.evaluateForSymbol fetchRecent seen symbol).2 other).1 =
      ((svc.afterwards (svc.newItems seen (fetchRecent other))
        (svc.newItems seen (fetchRecent symbol))).mapM svc.read).map (svc.config.adjust other) := by
  simp only [evaluateForSymbol, normalizeAll_eq]
  rw [newItems, firsts_union, afterwards, ← newItems]

theorem callAlike_iff (symbol : String) (news others : List RawItem) :
    (news.mapM svc.read).map (svc.config.adjust symbol) =
      (others.mapM svc.read).map (svc.config.adjust symbol) ↔ svc.CallAlike symbol news others := by
  unfold CallAlike
  cases news.mapM svc.read with
  | error e =>
    cases others.mapM svc.read with
    | error e' => simp [Except.map, eq_comm]
    | ok items' => simp [Except.map]
  | ok items =>
    cases others.mapM svc.read with
    | error e' => simp [Except.map]
    | ok items' => simp [Except.map, NewsConfig.adjust_eq_iff]

theorem answer_ok (items : List NewsItem) :
    answer ((Except.ok items : Except NewsError (List NewsItem)).map (svc.config.adjust symbol)) =
      some (.allow, 1) ↔ svc.config.Harmless symbol items := by
  rw [← NewsConfig.adjust_allow_iff]
  exact Option.some_inj

/-- An evaluation answers unless it fails for an item. -/
theorem answer_eq_none_iff :
    answer ((news.mapM svc.read).map (svc.config.adjust symbol)) = none ↔
      ¬∃ items, news.mapM svc.read = .ok items := by
  cases news.mapM svc.read with
  | error e => simp [answer, Except.map, Except.toOption]
  | ok items => simp [answer, Except.map, Except.toOption]

/-- **When the second look answers like the first.** -/
theorem evaluate_again_iff (svc : NewsService) (fetchRecent : String → List RawItem)
    (seen : Finset String) (symbol : String) :
    answer (svc.evaluateForSymbol fetchRecent
      (svc.evaluateForSymbol fetchRecent seen symbol).2 symbol).1 =
      answer (svc.evaluateForSymbol fetchRecent seen symbol).1 ↔
      svc.Steady symbol (svc.newItems seen (fetchRecent symbol)) := by
  have hnodup : ((svc.newItems seen (fetchRecent symbol)).map dedupKey).Nodup :=
    firsts_nodup _ _ _
  rw [evaluate_after, afterwards_self hnodup, evaluateForSymbol, normalizeAll_eq]
  dsimp only
  set news := svc.newItems seen (fetchRecent symbol)
  unfold Steady
  rcases look_cases svc news with
    ⟨items, hnews, hleft⟩ | ⟨hnews, hleft, hfailing⟩ | ⟨hnews, hcount, hdated⟩
  · -- all has been taken, and the second look sees nothing
    obtain ⟨hdated, hnumbers⟩ := mapM_read_ok_iff.mp ⟨items, hnews⟩
    have hnothing : answer (((svc.left news).mapM svc.read).map (svc.config.adjust symbol)) =
        some (.allow, 1) := by
      rw [hleft]
      exact (answer_ok []).mpr (Or.inl rfl)
    have hreadable : ¬∃ raw ∈ news, svc.failsWith .timestamp raw = true := by
      rintro ⟨raw, hraw, hfails⟩
      rw [hdated raw hraw] at hfails
      exact absurd hfails (by simp)
    rw [hnothing, hnews, eq_comm, answer_ok, hnumbers, or_iff_right hreadable]
    simp
  · -- the second look fails like the first
    rw [hnews, hleft]
    simp [hfailing]
  · -- the second look sees what the first has not come to
    have hfirst : answer ((news.mapM svc.read).map (svc.config.adjust symbol)) = none := by
      rw [hnews]
      rfl
    have htwo : 2 ≤ 1 + ((svc.left news).filter (svc.failsWith .number)).length ↔
        (svc.left news).filter (svc.failsWith .number) ≠ [] := by
      rw [← List.length_pos_iff]
      omega
    rw [hfirst, answer_eq_none_iff, mapM_read_ok_iff, hdated, hcount, hnews, htwo, not_and_or]
    simp

/-- **When evaluations are repeatable and independent**: a second look at a symbol answers like
the first exactly if the new items are steady, and the answer for another symbol is the same
after a first evaluation exactly if its new items call for the same without those that this has
taken. -/
theorem evaluations_repeatable_iff (svc : NewsService) (fetchRecent : String → List RawItem)
    (seen : Finset String) :
    (∀ symbol,
      answer (svc.evaluateForSymbol fetchRecent
        (svc.evaluateForSymbol fetchRecent seen symbol).2 symbol).1 =
        answer (svc.evaluateForSymbol fetchRecent seen symbol).1 ↔
      svc.Steady symbol (svc.newItems seen (fetchRecent symbol))) ∧
    (∀ symbol other,
      (svc.evaluateForSymbol fetchRecent
        (svc.evaluateForSymbol fetchRecent seen symbol).2 other).1 =
        (svc.evaluateForSymbol fetchRecent seen other).1 ↔
      svc.CallAlike other
        (svc.afterwards (svc.newItems seen (fetchRecent other))
          (svc.newItems seen (fetchRecent symbol)))
        (svc.newItems seen (fetchRecent other))) := by
  refine ⟨evaluate_again_iff svc fetchRecent seen, fun symbol other => ?_⟩
  rw [evaluate_after, evaluateForSymbol, normalizeAll_eq]
  exact callAlike_iff other _ _

/-! ### A headline that vanishes -/

/-- A service with its defaults, at the new year of 1970. -/
def defaultService : NewsService where
  config := {}
  readers :=
    { timestamp := fun s => (DateTime.fromisoformat s.toList).map ensureUtc
      decimal := fun s => (Decimal.ofText s.toList).map Decimal.value
      upper := String.toUpper }
  now := 0

/-- A headline about two symbols that no one is sure of. -/
def rumor : RawItem :=
  { source := "wire", title := "Unconfirmed rumor", sourceTimestamp := some (.datetime ⟨0, some 0⟩)
    symbols := some ["BTC/USDT", "ETH/USDT"], sentiment := "0", relevance := "0.9"
    confidence := "0.1" }

/-- The rumor blocks its first symbol at the first look only, and the other symbol not at all
when it comes second. -/
theorem blocking_headline_vanishes :
    ¬(∀ (svc : NewsService) (items : List RawItem) (seen : Finset String) (symbol : String),
      answer (svc.evaluateForSymbol (inMemory items)
        (svc.evaluateForSymbol (inMemory items) seen symbol).2 symbol).1 =
        answer (svc.evaluateForSymbol (inMemory items) seen symbol).1) ∧
    ¬(∀ (svc : NewsService) (items : List RawItem) (seen : Finset String) (symbol other : String),
      symbol ≠ other →
      (svc.evaluateForSymbol (inMemory items)
        (svc.evaluateForSymbol (inMemory items) seen symbol).2 other).1 =
        (svc.evaluateForSymbol (inMemory items) seen other).1) := by
  constructor
  · intro hsame
    have hrumor := hsame defaultService [rumor] ∅ "BTC/USDT"
    revert hrumor
    decide +kernel
  · intro hsame
    have hrumor := hsame defaultService [rumor] ∅ "BTC/USDT" "ETH/USDT" (by decide)
    revert hrumor
    decide +kernel

end NewsService

end News

end Atlas
