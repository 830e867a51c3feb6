import Mathlib.Algebra.BigOperators.Group.List.Basic
import Mathlib.Algebra.Order.Field.Rat
import Atlas.Lib.Calendar
import Atlas.Lib.FirstSeen
import Atlas.Lib.Result
import Atlas.Trading

/-!
# News sentiment

The service reads the recent news of a symbol and answers how much of a position may be
taken: it blocks when a relevant headline is uncertain, halves the size when the average
sentiment is bad, and asks for a confirmation when it is negative.

An item is read once.  Its key goes into the set of what has been seen when its timestamp
has been read and is recent, and before its numbers are read.

The readers of timestamps and numbers, and the upper case of a text, are those of the
standard library; nothing is assumed of them.

## Main definitions

* `NewsService.normalize`, `NewsService.normalizeAll` — an item, and the items of a provider.
* `NewsConfig.adjust` — the answer to the items.
* `NewsService.evaluateForSymbol` — an evaluation, with what has been seen after it.
* `NewsService.newItems`, `NewsService.taken` — the items that an evaluation reads, and those
  of them whose keys it keeps.

## Main results

* `NewsService.normalizeAll_eq` — **what an evaluation reads and what it has seen then**.

## References

`app/news/sentiment.py`.
-/

namespace Atlas

namespace News

open Calendar FirstSeen

/-! ### The model -/

/-- A timestamp as a provider gives it. -/
inductive Stamp
  | text (s : String)
  | datetime (t : DateTime)
  deriving DecidableEq, Repr

/-- An item as a provider gives it; a number is the text of its value. -/
structure RawItem where
  id : Option String := none
  source : Option String := none
  title : Option String := none
  body : Option String := none
  sourceTimestamp : Option Stamp := none
  symbols : Option (List String) := none
  sentiment : Option String := none
  relevance : Option String := none
  confidence : Option String := none
  category : Option String := none
  deriving DecidableEq, Repr, Inhabited

/-- `NewsItem`; an item without an id gets a new one. -/
structure NewsItem where
  id : Option String
  source : String
  title : String
  body : String
  sourceTimestamp : Time
  symbols : List String
  sentiment : ℚ
  relevance : ℚ
  confidence : ℚ
  category : String
  ingestedAt : Time
  deriving DecidableEq, Repr

inductive NewsAction
  | allow
  | reduce
  | block
  | requireConfirmation
  deriving DecidableEq, Repr, Inhabited

/-- `NewsRiskAdjustment`. -/
structure NewsRiskAdjustment where
  action : NewsAction
  sizeMultiplier : ℚ := 1
  reasonCode : Option RiskReasonCode := none
  message : String := ""
  deriving DecidableEq, Repr, Inhabited

/-- A timestamp or a number that cannot be read. -/
inductive NewsError
  | timestamp
  | number
  deriving DecidableEq, Repr

/-- The thresholds of a service. -/
structure NewsConfig where
  maxAge : ℤ := 21600000000
  extremeUncertaintyConfidence : ℚ := 1 / 5
  reduceThreshold : ℚ := -3 / 5
  deriving DecidableEq, Repr

/-- `datetime.fromisoformat` and `ensure_utc`, `Decimal`, and `str.upper`. -/
structure Readers where
  timestamp : String → Option Time
  decimal : String → Option ℚ
  upper : String → String

/-- `SYMBOL_ALIASES`. -/
def symbolAliases : List (String × String) :=
  [("BTC", "BTC/USDT"), ("BITCOIN", "BTC/USDT"), ("ETH", "ETH/USDT"), ("ETHEREUM", "ETH/USDT")]

/-- `ensure_utc`: a time without an offset is in UTC. -/
def ensureUtc (t : DateTime) : Time := t.wall - t.offset.getD 0 * 60000000

/-- `str` of a timestamp: the one of a `datetime` has a space for the `T`. -/
def Stamp.toText : Stamp → String
  | .text s => s
  | .datetime t => String.ofList (t.isoformat.map fun c => if c = 'T' then ' ' else c)

/-- What a timestamp is read as. -/
def Readers.stamp (readers : Readers) : Stamp → Option Time
  | .text s => readers.timestamp (s.replace "Z" "+00:00")
  | .datetime t => some (ensureUtc t)

/-- `extract_symbols`. -/
def Readers.extractSymbols (readers : Readers) (text : String) : List String :=
  symbolAliases.foldl
    (fun found entry =>
      if entry.1.toList <:+: (readers.upper text).toList ∧ entry.2 ∉ found then
        found ++ [entry.2]
      else found) []

/-- `dedup_key`. -/
def dedupKey (item : RawItem) : String :=
  item.source.getD "None" ++ "|" ++ item.title.getD "None" ++ "|" ++
    (item.sourceTimestamp.map Stamp.toText).getD "None"

/-- `a or b` of texts. -/
def orElse (text : Option String) (default : String) : String :=
  match text with
  | none => default
  | some s => if s = "" then default else s

/-- What an evaluation reads beside the provider. -/
structure NewsService where
  config : NewsConfig
  readers : Readers
  now : Time

namespace NewsService

variable (svc : NewsService)

/-- The item of a timestamp that has been read, if its numbers can be. -/
def newsItem (raw : RawItem) (ts : Time) : Option NewsItem := do
  let text := raw.title.getD "" ++ " " ++ raw.body.getD ""
  let symbols :=
    match raw.symbols with
    | some (symbol :: symbols) => symbol :: symbols
    | _ => svc.readers.extractSymbols text
  let sentiment ← svc.readers.decimal (raw.sentiment.getD "0")
  let relevance ← svc.readers.decimal (raw.relevance.getD "0")
  let confidence ← svc.readers.decimal (raw.confidence.getD "0")
  return {
    id := raw.id.filter (· ≠ "")
    source := orElse raw.source "unknown"
    title := raw.title.getD ""
    body := raw.body.getD ""
    sourceTimestamp := ts
    symbols := symbols
    sentiment := sentiment
    relevance := relevance
    confidence := confidence
    category := orElse raw.category "general"
    ingestedAt := svc.now }

/-- `normalize`, with the keys that have been seen after it. -/
def normalize (seen : Finset String) (raw : RawItem) :
    Except NewsError (Option NewsItem) × Finset String :=
  let key := dedupKey raw
  if key ∈ seen then (.ok none, seen)
  else
    match raw.sourceTimestamp with
    | none => (.ok none, seen)
    | some stamp =>
        match svc.readers.stamp stamp with
        | none => (.error .timestamp, seen)
        | some ts =>
            if svc.config.maxAge < svc.now - ts then (.ok none, seen)
            else
              -- the key is kept before the numbers are read
              match svc.newsItem raw ts with
              | none => (.error .number, insert key seen)
              | some item => (.ok (some item), insert key seen)

/-- The items of a provider; an error leaves the rest unread. -/
def normalizeAll (seen : Finset String) :
    List RawItem → Except NewsError (List NewsItem) × Finset String
  | [] => (.ok [], seen)
  | raw :: rest =>
      match svc.normalize seen raw with
      | (.error e, seen) => (.error e, seen)
      | (.ok none, seen) => normalizeAll seen rest
      | (.ok (some item), seen) =>
          ((normalizeAll seen rest).1.map (item :: ·), (normalizeAll seen rest).2)

end NewsService

/-- The items that count for a symbol. -/
def relevantItems (symbol : String) (items : List NewsItem) : List NewsItem :=
  items.filter fun i => symbol ∈ i.symbols ∧ 1 / 2 ≤ i.relevance

/-- The average sentiment of items. -/
def averageSentiment (items : List NewsItem) : ℚ :=
  (items.map NewsItem.sentiment).sum / items.length

/-- The answer to the items of a provider. -/
def NewsConfig.adjust (config : NewsConfig) (symbol : String) (items : List NewsItem) :
    NewsRiskAdjustment :=
  let relevant := relevantItems symbol items
  if relevant = [] then { action := .allow, message := "no relevant news" }
  else if relevant.any fun i => i.confidence ≤ config.extremeUncertaintyConfidence then
    { action := .block
      sizeMultiplier := 0
      reasonCode := some .newsExtremeUncertainty
      message := "Blocked under extreme news uncertainty" }
  else if averageSentiment relevant ≤ config.reduceThreshold then
    { action := .reduce
      sizeMultiplier := 1 / 2
      reasonCode := some .sizeReducedByNews
      message := "Size reduced due to negative news sentiment" }
  else if averageSentiment relevant < 0 then
    { action := .requireConfirmation
      message := "Confirmation required due to mixed/negative news" }
  else { action := .allow, message := "news supportive or neutral" }

namespace NewsService

variable (svc : NewsService)

/-- `evaluate_for_symbol`, with the keys that have been seen after it. -/
def evaluateForSymbol (fetchRecent : String → List RawItem) (seen : Finset String)
    (symbol : String) : Except NewsError NewsRiskAdjustment × Finset String :=
  ((svc.normalizeAll seen (fetchRecent symbol)).1.map (svc.config.adjust symbol),
    (svc.normalizeAll seen (fetchRecent symbol)).2)

end NewsService

/-- `InMemoryNewsProvider.fetch_recent`. -/
def inMemory (items : List RawItem) (symbol : String) : List RawItem :=
  items.filter fun i => symbol ∈ i.symbols.getD []

namespace NewsService

variable (svc : NewsService)

/-! ### What an evaluation reads -/

/-- The item has a timestamp, which is recent if it can be read. -/
def current (raw : RawItem) : Bool :=
  match raw.sourceTimestamp with
  | none => false
  | some stamp =>
      match svc.readers.stamp stamp with
      | none => true
      | some ts => svc.now - ts ≤ svc.config.maxAge

/-- What a current item is read as. -/
def read (raw : RawItem) : Except NewsError NewsItem :=
  match raw.sourceTimestamp.bind svc.readers.stamp with
  | none => .error .timestamp
  | some ts =>
      match svc.newsItem raw ts with
      | none => .error .number
      | some item => .ok item

/-- The current items of a provider with new keys. -/
def newItems (seen : Finset String) (raws : List RawItem) : List RawItem :=
  firsts dedupKey seen (raws.filter svc.current)

/-- The new items whose keys are kept: those up to the first that cannot be read, and that one
too if it is for its numbers. -/
def taken : List RawItem → List RawItem
  | [] => []
  | raw :: rest =>
      match svc.read raw with
      | .error .timestamp => []
      | .error .number => [raw]
      | .ok _ => raw :: taken rest

/-- The keys of items. -/
def keys (raws : List RawItem) : Finset String := (raws.map dedupKey).toFinset

variable {svc} {seen : Finset String} {raw : RawItem} {raws : List RawItem}

theorem normalize_skip (h : dedupKey raw ∈ seen ∨ svc.current raw = false) :
    svc.normalize seen raw = (.ok none, seen) := by
  unfold normalize
  dsimp only
  by_cases hkey : dedupKey raw ∈ seen
  · rw [if_pos hkey]
  · have hcurrent := h.resolve_left hkey
    unfold current at hcurrent
    rw [if_neg hkey]
    cases hstamp : raw.sourceTimestamp with
    | none => rfl
    | some stamp =>
      rw [hstamp] at hcurrent
      dsimp only at hcurrent ⊢
      cases hread : svc.readers.stamp stamp with
      | none =>
        rw [hread] at hcurrent
        exact absurd hcurrent (by simp)
      | some ts =>
        rw [hread] at hcurrent
        exact if_pos (not_le.mp (of_decide_eq_false hcurrent))

theorem normalize_new (hkey : dedupKey raw ∉ seen) (hcurrent : svc.current raw = true) :
    svc.normalize seen raw =
      match svc.read raw with
      | .error .timestamp => (.error .timestamp, seen)
      | .error .number => (.error .number, insert (dedupKey raw) seen)
      | .ok item => (.ok (some item), insert (dedupKey raw) seen) := by
  unfold normalize read
  unfold current at hcurrent
  dsimp only
  rw [if_neg hkey]
  cases hstamp : raw.sourceTimestamp with
  | none =>
    rw [hstamp] at hcurrent
    exact absurd hcurrent (by simp)
  | some stamp =>
    rw [hstamp] at hcurrent
    dsimp only [Option.bind] at hcurrent ⊢
    cases hread : svc.readers.stamp stamp with
    | none => rfl
    | some ts =>
      rw [hread] at hcurrent
      have hrecent : ¬svc.config.maxAge < svc.now - ts := not_lt.mpr (of_decide_eq_true hcurrent)
      dsimp only
      rw [if_neg hrecent]
      cases svc.newsItem raw ts <;> rfl

theorem newItems_skip (h : dedupKey raw ∈ seen ∨ svc.current raw = false) :
    svc.newItems seen (raw :: raws) = svc.newItems seen raws := by
  unfold newItems
  rcases Bool.eq_false_or_eq_true (svc.current raw) with hcurrent | hcurrent
  · have hkey := h.resolve_right (by simp [hcurrent])
    rw [List.filter_cons_of_pos hcurrent, firsts_cons_of_mem hkey]
  · rw [List.filter_cons_of_neg (by simp [hcurrent])]

theorem newItems_new (hkey : dedupKey raw ∉ seen) (hcurrent : svc.current raw = true) :
    svc.newItems seen (raw :: raws) =
      raw :: svc.newItems (insert (dedupKey raw) seen) raws := by
  unfold newItems
  rw [List.filter_cons_of_pos hcurrent, firsts_cons_of_notMem hkey]

/-- **What an evaluation reads**: the new items, up to the first that cannot be read; and the
keys of those that it takes are then seen. -/
theorem normalizeAll_eq (svc : NewsService) (seen : Finset String) (raws : List RawItem) :
    svc.normalizeAll seen raws =
      ((svc.newItems seen raws).mapM svc.read,
        seen ∪ keys (svc.taken (svc.newItems seen raws))) := by
  induction raws generalizing seen with
  | nil => simp [normalizeAll, newItems, taken, keys]; rfl
  | cons raw rest ih =>
    by_cases hskip : dedupKey raw ∈ seen ∨ svc.current raw = false
    · rw [normalizeAll, normalize_skip hskip, newItems_skip hskip]
      exact ih seen
    · obtain ⟨hkey, hcurrent⟩ := not_or.mp hskip
      rw [Bool.not_eq_false] at hcurrent
      rw [normalizeAll, normalize_new hkey hcurrent, newItems_new hkey hcurrent, List.mapM_cons,
        taken]
      cases hread : svc.read raw with
      | error e =>
        cases e with
        | timestamp => simp [keys, bind, Except.bind]
        | number =>
          simp only [keys, bind, Except.bind, List.map_cons, List.map_nil, List.toFinset_cons,
            List.toFinset_nil, Prod.mk.injEq, true_and]
          rw [Finset.union_insert, Finset.union_empty]
      | ok item =>
        dsimp only
        rw [ih (insert (dedupKey raw) seen), keys, keys, List.map_cons, List.toFinset_cons,
          Finset.union_insert, Finset.insert_union]
        cases (svc.newItems (insert (dedupKey raw) seen) rest).mapM svc.read <;> rfl

end NewsService

end News

end Atlas
