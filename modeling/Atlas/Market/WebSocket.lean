import Atlas.Lib.Decimal
import Atlas.Lib.Dict
import Atlas.Lib.Transition
import Atlas.Market.Providers

/-!
# Messages of a websocket

The client keeps the ids of the messages it has seen and the last sequence number, and reads
the time and the price of a message after that.  A message that turns out to be dated ahead, or
cannot be read, is turned away when its id and its number are already taken.  The last number
is that of the last message, whatever it is: a late message sets it back, and the next one in
order is reported as a gap.

## Main definitions

* `WebSocketMarketDataClient.handleMessage` — `_handle_message`.
* `Feed`, `Feed.step` — a client with the numbers of all messages so far; one message.
* `RejectsCleanly`, `KeepsOrder`, `ReportsGaps` — what one message should do.
* `Feed.Orderly` — a message that is not late, and leaves nothing behind if it is turned away.
* `Feed.NothingLost` — a message that is not read has no new number.

## Main results

* `messages_orderly_iff` — **the messages of a run do what they should exactly if they are
  orderly**.
* `messages_out_of_order` — a message for each of the three that does not.

## References

`app/market_data/websocket/client.py`, `app/core/time.py`,
`tests/unit/test_websocket_client.py`.
-/

namespace Atlas

namespace Market

open Calendar Quantize Transition

/-! ### Values of a message -/

/-- A value of a message. -/
inductive PyValue
  | none
  | bool (b : Bool)
  | int (n : ℤ)
  /-- A finite float, with its `repr`. -/
  | float (x : ℚ) (text : String)
  | str (text : String)
  /-- A list, a dictionary or a float that is not finite, with its `str`. -/
  | other (truthy : Bool) (text : String)
  deriving DecidableEq, Repr, Inhabited

namespace PyValue

def Truthy : PyValue → Prop
  | none => False
  | bool b => b = true
  | int n => n ≠ 0
  | float x _ => x ≠ 0
  | str text => text ≠ ""
  | other truthy _ => truthy = true

instance : ∀ v : PyValue, Decidable v.Truthy
  | none => isFalse id
  | bool b => inferInstanceAs (Decidable (b = true))
  | int n => inferInstanceAs (Decidable (n ≠ 0))
  | float x _ => inferInstanceAs (Decidable (x ≠ 0))
  | str text => inferInstanceAs (Decidable (text ≠ ""))
  | other truthy _ => inferInstanceAs (Decidable (truthy = true))

/-- `v or w`. -/
def or (v w : PyValue) : PyValue := if v.Truthy then v else w

/-- `str`. -/
def toText : PyValue → String
  | none => "None"
  | bool b => if b then "True" else "False"
  | int n => toString n
  | float _ text => text
  | str text => text
  | other _ text => text

/-- `int` of a text: digits, with a sign and single underscores between them. -/
def intOfText (text : String) : Option ℤ :=
  let unsigned := Decimal.scanSign (text.trimAscii.toString.toList)
  let groups := unsigned.2.splitOn '_'
  if groups.all (fun digits => digits ≠ [] ∧ digits.all Char.isDigit = true) = true ∧
      groups.flatten.length ≤ 4300 then
    let n : ℤ := Nat.ofDigitChars 10 groups.flatten 0
    some (if unsigned.1 then -n else n)
  else .none

/-- `int`, where it does not raise. -/
def toInt : PyValue → Option ℤ
  | none => .none
  | bool b => some (if b then 1 else 0)
  | int n => some n
  | float x _ => some (roundDown x)
  | str text => intOfText text
  | other _ _ => .none

end PyValue

/-- The text of a decimal that is no number. -/
def specialText (negative : Bool) (cs : List Char) : Option String :=
  let sign := if negative then "-" else ""
  let lower := cs.map Char.toLower
  let digits := lower.reverse.takeWhile Char.isDigit |>.reverse
  let name := lower.take (lower.length - digits.length)
  let payload := String.ofList (digits.dropWhile (· = '0'))
  if lower = "inf".toList ∨ lower = "infinity".toList then some (sign ++ "Infinity")
  else if name = "nan".toList then some (sign ++ "NaN" ++ payload)
  else if name = "snan".toList then some (sign ++ "sNaN" ++ payload)
  else none

/-- `str(Decimal(text))`, where it does not raise. -/
def decimalText (text : String) : Option String :=
  match Decimal.ofText text.toList with
  | some d => some (String.ofList d.toText)
  | none =>
      let unsigned := Decimal.scanSign (Decimal.cleaned text.toList)
      specialText unsigned.1 unsigned.2

/-! ### The model -/

/-- A message, decoded. -/
abbrev Message := Dict String PyValue

/-- `msg.get(key)`. -/
def Message.field (msg : Message) (key : String) : PyValue := (msg.get? key).getD .none

structure ConnectionMetrics where
  messages : ℕ := 0
  duplicates : ℕ := 0
  sequenceGaps : ℕ := 0
  heartbeats : ℕ := 0
  lastMessageAt : Option Time := none
  deriving DecidableEq, Repr

structure WebSocketMarketDataClient where
  metrics : ConnectionMetrics := {}
  seenIds : List String := []
  lastSeq : Option ℤ := none
  deriving DecidableEq, Repr

/-- What has become of a message. -/
inductive Outcome
  | heartbeat
  | duplicate
  /-- It is dated more than an hour ahead. -/
  | future
  /-- The handler has raised. -/
  | raised
  /-- It is handed on, with the fields that the handler has written. -/
  | accepted (tick : Message)
  deriving DecidableEq, Repr

/-- The handler turns a message away. -/
def Outcome.Rejects (o : Outcome) : Prop := o = .duplicate ∨ o = .future ∨ o = .raised

instance (o : Outcome) : Decidable o.Rejects := inferInstanceAs (Decidable (_ ∨ _ ∨ _))

/-- The length of the `deque` of the ids. -/
def maxSeenIds : ℕ := 10000

theorem maxSeenIds_pos : 0 < maxSeenIds := by decide

/-- The append of a `deque` of this length at most. -/
def appendBounded (maxlen : ℕ) (ids : List String) (id : String) : List String :=
  (ids ++ [id]).drop (ids.length + 1 - maxlen)

/-- The id of a message; the empty text is none. -/
def messageId (msg : Message) : String :=
  let id := (msg.field "id").or (msg.field "trade_id")
  if id.Truthy then id.toText else ""

/-- The sequence number of a message, if it has one; it may not be readable. -/
def sequence (msg : Message) : Except Unit (Option ℤ) :=
  match (msg.field "sequence").or (msg.field "seq") with
  | .none => .ok none
  | v => v.toInt.elim (.error ()) fun n => .ok (some n)

/-- The time of a message, if it has one. -/
def messageTime (msg : Message) : Except Unit (Option Time) :=
  match (msg.field "timestamp").or (msg.field "T") with
  | .none => .ok none
  | v =>
      v.toInt.elim (.error ()) fun ts =>
        let dt := if 10000000000 < ts then fromUnixMs ts else fromTimestamp ts
        if HasYear dt then .ok (some dt) else .error ()

/-- The message with its time written as a text. -/
def withTime (msg : Message) : Option Time → Message
  | some dt => msg.set "timestamp_utc" (.str (String.ofList (DateTime.isoformat ⟨dt, some 0⟩)))
  | none => msg

/-- The message with its price written as a decimal, where it can be read. -/
def withPrice (msg : Message) : Option Message :=
  match msg.get? "price" with
  | some price => (decimalText price.toText).map fun text => msg.set "price" (.str text)
  | none => some msg

/-- `_handle_message` from the timestamp on; `now` is the reading of the clock. -/
def deliver (msg : Message) (now : Time) : Outcome :=
  match messageTime msg with
  | .error _ => .raised
  | .ok dt =>
      if dt.any (fun t => now < t ∧ 3600 * 1000000 < t - now) then .future
      else
        match withPrice (withTime msg dt) with
        | some tick => .accepted tick
        | none => .raised

namespace WebSocketMarketDataClient

variable (client : WebSocketMarketDataClient)

/-- The id of a message is seen. -/
def remember (id : String) : WebSocketMarketDataClient :=
  if id = "" then client else { client with seenIds := appendBounded maxSeenIds client.seenIds id }

/-- A number skips one or more. -/
def Skips (n : ℤ) : Prop := ∃ last ∈ client.lastSeq, last + 1 < n

instance (n : ℤ) : Decidable (client.Skips n) :=
  match h : client.lastSeq with
  | none => isFalse (by simp [Skips, h])
  | some last => decidable_of_iff (last + 1 < n) (by simp [Skips, h])

/-- The number of a message is read. -/
def count : Option ℤ → WebSocketMarketDataClient
  | none => client
  | some n =>
      { client with
        metrics := if client.Skips n then
          { client.metrics with sequenceGaps := client.metrics.sequenceGaps + 1 }
          else client.metrics
        lastSeq := some n }

/-- A message is handed on. -/
def receive (now : Time) : WebSocketMarketDataClient :=
  { client with metrics :=
      { client.metrics with
        messages := client.metrics.messages + 1
        lastMessageAt := some now } }

/-- `_handle_message`.  A text that is no dictionary in JSON raises at once. -/
def handleMessage (raw : Option Message) (now : Time) : WebSocketMarketDataClient × Outcome :=
  match raw with
  | none => (client, .raised)
  | some msg =>
      if msg.field "type" = .str "heartbeat" then
        ({ client with metrics :=
            { client.metrics with
              heartbeats := client.metrics.heartbeats + 1
              lastMessageAt := some now } }, .heartbeat)
      else if messageId msg ≠ "" ∧ messageId msg ∈ client.seenIds then
        ({ client with metrics :=
            { client.metrics with duplicates := client.metrics.duplicates + 1 } }, .duplicate)
      else
        let client := client.remember (messageId msg)
        match sequence msg with
        | .error _ => (client, .raised)
        | .ok seq =>
            let client := client.count seq
            match deliver msg now with
            | .accepted tick => (client.receive now, .accepted tick)
            | outcome => (client, outcome)

/-- The handler reads the number of a message: it is no heartbeat, and its id is not seen. -/
def Reads (msg : Message) : Prop :=
  msg.field "type" ≠ .str "heartbeat" ∧ ¬(messageId msg ≠ "" ∧ messageId msg ∈ client.seenIds)

instance (msg : Message) : Decidable (client.Reads msg) := inferInstanceAs (Decidable (_ ∧ _))

end WebSocketMarketDataClient

/-- The number of a message, where it can be read. -/
def number (msg : Message) : Option ℤ := (sequence msg).toOption.join

/-- A message that is dated more than an hour ahead, or that the handler cannot read. -/
def Unfit (msg : Message) (now : Time) : Prop :=
  sequence msg = .error () ∨ messageTime msg = .error () ∨
    (∃ dt, messageTime msg = .ok (some dt) ∧ 3600 * 1000000 < dt - now) ∨
    ∃ price, msg.get? "price" = some price ∧ decimalText price.toText = none

/-! ### Runs -/

/-- A message that arrives, and the reading of the clock. -/
abbrev Arrival := Option Message × Time

/-- A client, with the numbers of all messages that have arrived. -/
structure Feed where
  client : WebSocketMarketDataClient := {}
  received : List ℤ := []
  deriving DecidableEq, Repr

namespace Feed

variable (s : Feed) (a : Arrival)

/-- The client after a message. -/
def after : WebSocketMarketDataClient := (s.client.handleMessage a.1 a.2).1

/-- One message. -/
def step : Option Feed :=
  some { client := s.after a, received := s.received ++ (a.1.bind number).toList }

/-- A message that is turned away leaves the ids and the number as they are. -/
def RejectsCleanly : Prop :=
  (s.client.handleMessage a.1 a.2).2.Rejects →
    (s.after a).seenIds = s.client.seenIds ∧ (s.after a).lastSeq = s.client.lastSeq

/-- The last number does not decrease. -/
def KeepsOrder : Prop := ∀ last ∈ s.client.lastSeq, ∃ next ∈ (s.after a).lastSeq, last ≤ next

/-- If the message is reported for a gap, a number below it is missing among those received,
and it is not one from before the first. -/
def ReportsGaps : Prop :=
  (s.after a).metrics.sequenceGaps ≠ s.client.metrics.sequenceGaps →
    ∃ n ∈ a.1.bind number, ∃ missing < n, missing ∉ s.received ∧
      ∃ earlier ∈ s.received, earlier < missing

/-- A message that is read is not late, and if it is unfit it has no id, and no number other
than the last one. -/
def Orderly : Prop :=
  ∀ msg ∈ a.1, s.client.Reads msg →
    (∀ n ∈ number msg, ∀ last ∈ s.client.lastSeq, last ≤ n) ∧
      (Unfit msg a.2 → messageId msg = "" ∧ ∀ n ∈ number msg, s.client.lastSeq = some n)

/-- A message that is not read, a heartbeat or one with a repeated id, has no new number. -/
def NothingLost : Prop :=
  ∀ msg ∈ a.1, ¬s.client.Reads msg → ∀ n ∈ number msg, n ∈ s.received

end Feed

/-! ### What the handler does to a message -/

variable {client : WebSocketMarketDataClient} {msg : Message} {now : Time}

namespace WebSocketMarketDataClient

@[simp] theorem remember_lastSeq (id : String) : (client.remember id).lastSeq = client.lastSeq := by
  unfold remember
  split_ifs <;> rfl

@[simp] theorem remember_metrics (id : String) : (client.remember id).metrics = client.metrics := by
  unfold remember
  split_ifs <;> rfl

@[simp] theorem count_seenIds (seq : Option ℤ) : (client.count seq).seenIds = client.seenIds := by
  cases seq <;> rfl

@[simp] theorem count_lastSeq (seq : Option ℤ) :
    (client.count seq).lastSeq = seq.or client.lastSeq := by
  cases seq <;> rfl

/-- A gap is reported for a number that skips. -/
theorem exists_skips_of_count {seq : Option ℤ}
    (h : (client.count seq).metrics.sequenceGaps ≠ client.metrics.sequenceGaps) :
    ∃ n ∈ seq, client.Skips n := by
  cases seq with
  | none => exact absurd rfl h
  | some n =>
    refine ⟨n, rfl, not_not.mp fun hnext => h ?_⟩
    rw [count, if_neg hnext]

@[simp] theorem receive_seenIds : (client.receive now).seenIds = client.seenIds := rfl

@[simp] theorem receive_lastSeq : (client.receive now).lastSeq = client.lastSeq := rfl

@[simp] theorem receive_sequenceGaps :
    (client.receive now).metrics.sequenceGaps = client.metrics.sequenceGaps := rfl

end WebSocketMarketDataClient

/-- A new id is seen afterwards. -/
theorem mem_appendBounded {maxlen : ℕ} (hmax : 0 < maxlen) (ids : List String) (id : String) :
    id ∈ appendBounded maxlen ids id := by
  have hle : ids.length + 1 - maxlen ≤ ids.length := by omega
  rw [appendBounded, List.drop_append_of_le_length hle]
  simp

theorem WebSocketMarketDataClient.Reads.seenIds_remember (h : client.Reads msg) :
    (client.remember (messageId msg)).seenIds = client.seenIds ↔ messageId msg = "" := by
  by_cases hid : messageId msg = ""
  · simp [WebSocketMarketDataClient.remember, hid]
  · rw [WebSocketMarketDataClient.remember, if_neg hid, iff_false_right hid]
    intro hsame
    have hmem := mem_appendBounded maxSeenIds_pos client.seenIds (messageId msg)
    dsimp only at hsame
    rw [hsame] at hmem
    exact h.2 ⟨hid, hmem⟩

@[simp] theorem rejects_raised : Outcome.raised.Rejects := .inr (.inr rfl)

@[simp] theorem rejects_future : Outcome.future.Rejects := .inr (.inl rfl)

@[simp] theorem rejects_duplicate : Outcome.duplicate.Rejects := .inl rfl

@[simp] theorem not_rejects_heartbeat : ¬Outcome.heartbeat.Rejects := by simp [Outcome.Rejects]

@[simp] theorem not_rejects_accepted (tick : Message) : ¬(Outcome.accepted tick).Rejects := by
  simp [Outcome.Rejects]

/-- The time that is written does not change the price. -/
theorem withPrice_withTime_eq_none (dt : Option Time) :
    withPrice (withTime msg dt) = none ↔
      ∃ price, msg.get? "price" = some price ∧ decimalText price.toText = none := by
  have hprice : (withTime msg dt).get? "price" = msg.get? "price" := by
    cases dt with
    | none => rfl
    | some dt => exact Dict.get?_set_ne _ (by decide) _
  rw [withPrice, hprice]
  cases msg.get? "price" with
  | none => simp
  | some price => simp

/-- From the timestamp on, the handler turns away what is unfit. -/
theorem deliver_rejects_iff :
    (deliver msg now).Rejects ↔ messageTime msg = .error () ∨
      (∃ dt, messageTime msg = .ok (some dt) ∧ 3600 * 1000000 < dt - now) ∨
      ∃ price, msg.get? "price" = some price ∧ decimalText price.toText = none := by
  cases htime : messageTime msg with
  | error e => simp [deliver, htime]
  | ok dt =>
    have hfuture : dt.any (fun t => now < t ∧ 3600 * 1000000 < t - now) = true ↔
        ∃ t, dt = some t ∧ 3600 * 1000000 < t - now := by
      rw [Option.any_eq_true]
      refine exists_congr fun t => and_congr_right fun _ => ?_
      rw [decide_eq_true_eq]
      exact and_iff_right_of_imp fun h => sub_pos.mp (lt_trans (by decide) h)
    by_cases hahead : ∃ t, dt = some t ∧ 3600 * 1000000 < t - now
    · have hdeliver : deliver msg now = .future := by
        rw [deliver, htime]
        exact if_pos (hfuture.mpr hahead)
      obtain ⟨t, rfl, ht⟩ := hahead
      rw [hdeliver]
      exact iff_of_true rejects_future (.inr (.inl ⟨t, rfl, ht⟩))
    · have hdeliver : deliver msg now = match withPrice (withTime msg dt) with
          | some tick => .accepted tick
          | none => .raised := by
        rw [deliver, htime]
        exact if_neg (mt hfuture.mp hahead)
      rw [hdeliver, ← withPrice_withTime_eq_none dt]
      cases withPrice (withTime msg dt) with
      | none => simp
      | some tick => simpa using hahead

/-- What the handler does not read leaves the ids, the number and the gaps as they are. -/
theorem handleMessage_unread (h : ¬client.Reads msg) :
    let r := client.handleMessage (some msg) now
    r.1.seenIds = client.seenIds ∧ r.1.lastSeq = client.lastSeq ∧
      r.1.metrics.sequenceGaps = client.metrics.sequenceGaps := by
  dsimp only
  rw [WebSocketMarketDataClient.handleMessage]
  by_cases hheartbeat : msg.field "type" = .str "heartbeat"
  · simp [hheartbeat]
  · have hseen : messageId msg ≠ "" ∧ messageId msg ∈ client.seenIds :=
      not_not.mp fun hnew => h ⟨hheartbeat, hnew⟩
    rw [if_neg hheartbeat, if_pos hseen]
    exact ⟨rfl, rfl, rfl⟩

/-- **What the handler does to a message that it reads.**  The id and the number are taken
before it is known whether the message is fit. -/
theorem handleMessage_read (h : client.Reads msg) (now : Time) :
    let r := client.handleMessage (some msg) now
    r.1.seenIds = (client.remember (messageId msg)).seenIds ∧
      r.1.lastSeq = (number msg).or client.lastSeq ∧
      (r.1.metrics.sequenceGaps ≠ client.metrics.sequenceGaps →
        ∃ n ∈ number msg, client.Skips n) ∧
      (r.2.Rejects ↔ Unfit msg now) := by
  dsimp only
  rw [WebSocketMarketDataClient.handleMessage, if_neg h.1, if_neg h.2]
  cases hseq : sequence msg with
  | error e =>
    have hnumber : number msg = none := by rw [number, hseq]; rfl
    simp [hnumber, Unfit, hseq]
  | ok seq =>
    have hnumber : number msg = seq := by rw [number, hseq]; rfl
    have hunfit : Unfit msg now ↔ (deliver msg now).Rejects := by
      rw [Unfit, deliver_rejects_iff, hseq, or_iff_right (by simp)]
    have hgap : ((client.remember (messageId msg)).count seq).metrics.sequenceGaps ≠
        client.metrics.sequenceGaps → ∃ n ∈ seq, client.Skips n := by
      intro hgaps
      rw [← client.remember_metrics (messageId msg)] at hgaps
      obtain ⟨n, hn, last, hlast, hskips⟩ := WebSocketMarketDataClient.exists_skips_of_count hgaps
      exact ⟨n, hn, last, client.remember_lastSeq _ ▸ hlast, hskips⟩
    rw [hunfit, hnumber]
    cases deliver msg now <;> simpa using hgap

/-! ### What a message does to the feed -/

namespace Feed

variable {s s' : Feed} {a : Arrival}

/-- All numbers received are up to the last one, and it is one of them. -/
structure Known (s : Feed) : Prop where
  le_last : ∀ n ∈ s.received, ∃ last ∈ s.client.lastSeq, n ≤ last
  last_mem : ∀ last ∈ s.client.lastSeq, last ∈ s.received

/-- A message is read, or there is none that is. -/
theorem reads_or_unread (s : Feed) (a : Arrival) :
    (∃ msg ∈ a.1, s.client.Reads msg) ∨ ∀ msg ∈ a.1, ¬s.client.Reads msg := by
  rw [or_iff_not_imp_left]
  exact fun hnone msg hmsg hreads => hnone ⟨msg, hmsg, hreads⟩

/-- A message that is not read leaves the ids, the number and the gaps as they are. -/
theorem after_unread (h : ∀ msg ∈ a.1, ¬s.client.Reads msg) :
    (s.after a).seenIds = s.client.seenIds ∧ (s.after a).lastSeq = s.client.lastSeq ∧
      (s.after a).metrics.sequenceGaps = s.client.metrics.sequenceGaps := by
  obtain ⟨raw, now⟩ := a
  cases raw with
  | none => exact ⟨rfl, rfl, rfl⟩
  | some msg => exact handleMessage_unread (h msg rfl)

theorem rejectsCleanly_iff (hmsg : a.1 = some msg) (h : s.client.Reads msg) :
    s.RejectsCleanly a ↔
      (Unfit msg a.2 → messageId msg = "" ∧
        ((number msg).or s.client.lastSeq = s.client.lastSeq)) := by
  obtain ⟨raw, now⟩ := a
  obtain rfl : raw = some msg := hmsg
  obtain ⟨hids, hlast, -, hunfit⟩ := handleMessage_read h now
  rw [RejectsCleanly, after, hids, hlast, hunfit, h.seenIds_remember]

theorem keepsOrder_iff (hmsg : a.1 = some msg) (h : s.client.Reads msg) :
    s.KeepsOrder a ↔ ∀ n ∈ number msg, ∀ last ∈ s.client.lastSeq, last ≤ n := by
  obtain ⟨raw, now⟩ := a
  obtain rfl : raw = some msg := hmsg
  obtain ⟨-, hlast, -, -⟩ := handleMessage_read h now
  rw [KeepsOrder, after, hlast]
  cases number msg with
  | none => exact iff_of_true (fun last hlast => ⟨last, hlast, le_rfl⟩) (by simp)
  | some n => simp

/-- **A gap is reported for what is missing**, as long as the last number is the largest one. -/
theorem Known.reportsGaps (h : s.Known) : s.ReportsGaps a := by
  intro hgaps
  obtain ⟨msg, hmsg, hreads⟩ := (s.reads_or_unread a).resolve_right fun hunread =>
    hgaps (after_unread hunread).2.2
  obtain ⟨raw, now⟩ := a
  obtain rfl : raw = some msg := hmsg
  obtain ⟨n, hn, last, hlast, hskips⟩ := (handleMessage_read hreads _).2.2.1 hgaps
  refine ⟨n, hn, last + 1, hskips, ?_, last, h.last_mem last hlast, by omega⟩
  intro hmem
  obtain ⟨last', hlast', hle⟩ := h.le_last _ hmem
  obtain rfl := Option.mem_unique hlast hlast'
  omega

/-- **A message does what it should exactly if it is orderly.** -/
theorem Known.orderly_iff (h : s.Known) :
    s.RejectsCleanly a ∧ s.KeepsOrder a ∧ s.ReportsGaps a ↔ s.Orderly a := by
  rw [and_iff_left h.reportsGaps]
  rcases s.reads_or_unread a with ⟨msg, hmsg, hreads⟩ | hunread
  · have hsame : (number msg).or s.client.lastSeq = s.client.lastSeq ↔
        ∀ n ∈ number msg, s.client.lastSeq = some n := by
      cases number msg with
      | none => simp
      | some n => simp [eq_comm]
    rw [rejectsCleanly_iff hmsg hreads, keepsOrder_iff hmsg hreads, hsame, and_comm]
    constructor
    · intro hboth msg' hmsg' _
      obtain rfl := Option.mem_unique hmsg hmsg'
      exact hboth
    · exact fun horderly => horderly msg hmsg hreads
  · -- what is not read changes nothing
    obtain ⟨hids, hlast, -⟩ := after_unread hunread
    refine iff_of_true ⟨fun _ => ⟨hids, hlast⟩, ?_⟩ fun msg hmsg hreads =>
      absurd hreads (hunread msg hmsg)
    intro last hmem
    exact ⟨last, hlast ▸ hmem, le_rfl⟩

theorem Known.start : Known {} where
  le_last := by simp
  last_mem := by simp

/-- A message after which the last number is no smaller, and at least its own, keeps the last
number the largest one. -/
theorem Known.of_le (h : s.Known) (hkeeps : s.KeepsOrder a)
    (hnumber : ∀ n ∈ a.1.bind number, ∃ last ∈ (s.after a).lastSeq, n ≤ last)
    (hlast : ∀ last ∈ (s.after a).lastSeq,
      last ∈ s.client.lastSeq ∨ last ∈ a.1.bind number) (hstep : s.step a = some s') :
    s'.Known := by
  obtain rfl := Option.some.inj hstep
  refine ⟨fun n hn => ?_, fun last hmem => ?_⟩
  · rcases List.mem_append.mp hn with hold | hnew
    · obtain ⟨last, hmem, hle⟩ := h.le_last n hold
      obtain ⟨next, hnext, hle'⟩ := hkeeps last hmem
      exact ⟨next, hnext, hle.trans hle'⟩
    · exact hnumber n (Option.mem_toList.mp hnew)
  · rcases hlast last hmem with hold | hnew
    · exact List.mem_append_left _ (h.last_mem last hold)
    · exact List.mem_append_right _ (Option.mem_toList.mpr hnew)

/-- An orderly message keeps the last number the largest one, if no number is lost. -/
theorem Known.step (h : s.Known) (horderly : s.Orderly a) (hlost : s.NothingLost a)
    (hstep : s.step a = some s') : s'.Known := by
  obtain ⟨-, hkeeps, -⟩ := h.orderly_iff.mpr horderly
  rcases s.reads_or_unread a with ⟨msg, hmsg, hreads⟩ | hunread
  · have hlast : (s.after a).lastSeq = (number msg).or s.client.lastSeq := by
      rw [after, hmsg]
      exact (handleMessage_read hreads _).2.1
    have hnumber : a.1.bind number = number msg := by rw [hmsg, Option.bind_some]
    refine h.of_le hkeeps (fun n hn => ?_) (fun last hmem => ?_) hstep
    · rw [hnumber] at hn
      exact ⟨n, by rw [hlast, hn, Option.some_or, Option.mem_some_iff], le_rfl⟩
    · rw [hlast, Option.mem_def, Option.or_eq_some_iff] at hmem
      rw [hnumber]
      exact hmem.symm.imp_left And.right
  · obtain ⟨-, hlast, -⟩ := after_unread hunread
    refine h.of_le hkeeps (fun n hn => ?_) (fun last hmem => .inl (hlast ▸ hmem)) hstep
    obtain ⟨msg, hmsg, hn⟩ := Option.bind_eq_some_iff.mp hn
    rw [hlast]
    exact h.le_last n (hlost msg hmsg (hunread msg hmsg) n hn)

end Feed

/-! ### Runs of messages -/

/-- **The messages of a run do what they should exactly if they are orderly**, where none with a
new number goes unread: one that is turned away leaves the ids and the last number as they are,
the last number does not decrease, and a gap is reported for a number that is missing only. -/
theorem messages_orderly_iff (arrivals : List Arrival) :
    Along Feed.step
        (fun s a => (s.RejectsCleanly a ∧ s.KeepsOrder a ∧ s.ReportsGaps a) ∧ s.NothingLost a) {}
        arrivals ↔
      Along Feed.step (fun s a => s.Orderly a ∧ s.NothingLost a) {} arrivals :=
  along_congr (fun _ _ h => and_congr_left' h.orderly_iff)
    (fun _ _ _ h hok => Feed.Known.step h hok.1 hok.2) .start

/-- A message with these fields. -/
def Message.ofFields (fields : List (String × PyValue)) : Message :=
  fields.foldl (fun msg p => msg.set p.1 p.2) ∅

/-- A message with a number. -/
def numbered (n : ℤ) : Arrival := (some (.ofFields [("sequence", .int n)]), 0)

/-- A message from 1970-01-01T03:00:00, which has not come. -/
def earlyTrade : Arrival :=
  (some (.ofFields [("id", .str "t1"), ("sequence", .int 1), ("timestamp", .int 10800)]), 0)

/-- The message that is dated ahead leaves its id and its number behind, and the message that
is late sets the number back, so that a gap is reported where no number is missing. -/
theorem messages_out_of_order :
    ¬(∀ arrivals, Along Feed.step Feed.RejectsCleanly {} arrivals) ∧
    ¬(∀ arrivals, Along Feed.step Feed.KeepsOrder {} arrivals) ∧
    ¬(∀ arrivals, Along Feed.step Feed.ReportsGaps {} arrivals) := by
  refine ⟨fun h => ?_, fun h => ?_, fun h => ?_⟩
  · have hclean := (h [earlyTrade]).1 (by decide +kernel)
    exact absurd hclean.1 (by decide +kernel)
  · obtain ⟨next, hnext, hle⟩ := (h [numbered 2, numbered 1]).2.1 2 rfl
    obtain rfl : 1 = next := Option.some.inj hnext
    exact absurd hle (by decide)
  · have hgap := (h ([1, 2, 3, 1, 4].map numbered)).2.2.2.2.1 (by decide +kernel)
    obtain ⟨n, hn, missing, hlt, hmissing, earlier, hearlier, hafter⟩ := hgap
    obtain rfl : 4 = n := Option.some.inj hn
    change missing ∉ [1, 2, 3, 1] at hmissing
    change earlier ∈ [1, 2, 3, 1] at hearlier
    simp only [List.mem_cons, List.not_mem_nil, or_false, not_or] at hmissing hearlier
    omega

end Market

end Atlas
