import Atlas.Lib.Decimal
import Atlas.Lib.SlidingWindow
import Atlas.Lib.Transition
import Atlas.Trading

/-!
# The rate limit of the testnet client

`submit` counts the orders of the last minute and calls the exchange if there is room for one
more.  The call is awaited, and its time is put on the list only after it has returned.  So the
count misses the calls that other submissions are waiting for, and for good those that have
raised.

Any number of submissions are interleaved at the await here.  A call is issued within the
limit exactly if the calls of the last minute that the list misses leave room for it too.

## Main definitions

* `ExchangeTestnetClient.submit`, `ExchangeTestnetClient.finish` — `submit` up to the call of
  the exchange, and from its answer on.
* `Traffic`, `Traffic.step` — a client with its submissions; one atomic block of one of them.
* `Traffic.Room` — a call that the list lets pass finds room among all calls.
* `Traffic.WithinLimit` — no half-open minute has more calls than the limit.

## Main results

* `calls_limited_iff` — **no minute has more calls than the limit exactly if each call has
  found room**.
* `calls_exceed_limit` — two calls in a minute that has room for one.

## References

`app/execution/exchange/testnet.py`, `tests/unit/test_testnet_and_live_gate.py`.
-/

namespace Atlas

namespace Execution

open SlidingWindow Transition

/-! ### The model -/

structure TestnetConfig where
  rateLimitPerMinute : ℤ := 60
  deriving DecidableEq, Repr

/-- The minute of the rate limit. -/
def minute : Time := 60 * 1000000

theorem minute_pos : 0 < minute := by decide

/-- The client; `nextUuid` numbers the draws of `uuid4`. -/
structure ExchangeTestnetClient where
  config : TestnetConfig := {}
  orderTimes : List Time := []
  nextUuid : ℕ := 0
  deriving DecidableEq, Repr

/-- The payload of `create_order`.  The amounts are written with `str`. -/
structure Payload where
  symbol : String
  side : OrderSide
  orderType : OrderType
  amount : ℚ
  price : Option ℚ
  clientOrderId : Ident
  deriving DecidableEq, Repr

/-- The answer of the exchange, in texts.  What is absent or falsy is none. -/
structure Raw where
  id : Option String := none
  filled : Option String := none
  average : Option String := none
  deriving DecidableEq, Repr

/-- A submission that awaits the answer to its call. -/
structure Pending where
  request : OrderRequest
  risk : RiskEvaluation
  now : Time
  payload : Payload
  deriving DecidableEq, Repr

/-- How far a submission gets before it is suspended. -/
inductive Submitted
  | order (order : Order)
  | awaits (call : Pending)
  deriving DecidableEq, Repr

/-- The decisions that no order is sent for. -/
def Blocks (risk : RiskEvaluation) : Prop := risk.decision = .rejected ∨ risk.decision = .halted

instance (risk : RiskEvaluation) : Decidable (Blocks risk) := inferInstanceAs (Decidable (_ ∨ _))

/-- `request.client_order_id or` a draw. -/
def clientOrderIdOr (request : OrderRequest) (draw : Ident) : Ident :=
  match request.clientOrderId with
  | some c => if c = "" then draw else .text c
  | none => draw

/-- An order that is not sent: two draws, and the fields of the request that all have. -/
def ExchangeTestnetClient.unsent (client : ExchangeTestnetClient) (request : OrderRequest)
    (status : OrderStatus) (now : Time) : Order :=
  { id := .uuid4 client.nextUuid
    clientOrderId := clientOrderIdOr request (.uuid4 (client.nextUuid + 1))
    idempotencyKey := request.idempotencyKey
    symbol := request.symbol
    side := request.side
    orderType := request.orderType
    quantity := request.quantity
    status := status
    createdAt := now
    updatedAt := now }

/-- `submit` up to the call of the exchange; `now` is the reading of the clock. -/
def ExchangeTestnetClient.submit (client : ExchangeTestnetClient) (request : OrderRequest)
    (risk : RiskEvaluation) (now : Time) : ExchangeTestnetClient × Submitted :=
  let drawn := { client with nextUuid := client.nextUuid + 2 }
  if Blocks risk then
    (drawn, .order
      { client.unsent request .rejected now with
        price := request.price
        riskDecision := some risk.decision
        riskReasonCode := some risk.reasonCode })
  else
    let orderTimes := recent minute now client.orderTimes
    if client.config.rateLimitPerMinute ≤ orderTimes.length then
      ({ drawn with orderTimes := orderTimes }, .order
        { client.unsent request .failed now with
          metadata := { error := some "rate_limited" } })
    else
      ({ client with orderTimes := orderTimes, nextUuid := client.nextUuid + 1 }, .awaits
        { request := request
          risk := risk
          now := now
          payload :=
            { symbol := request.symbol
              side := request.side
              orderType := request.orderType
              amount := request.quantity
              price := request.price
              clientOrderId :=
                clientOrderIdOr request (.uuid4Prefix "testnet-" 16 client.nextUuid) } })

/-- `Decimal` of a text.  An order has no other decimals than finite ones. -/
def decimal (text : String) : Option ℚ := (Decimal.ofText text.toList).map Decimal.value

/-- The status of an order that the exchange has taken. -/
def takenStatus (filled quantity : ℚ) : OrderStatus :=
  if quantity ≤ filled then .filled else if 0 < filled then .partiallyFilled else .submitted

/-- The order of an answer; the amounts of some answers cannot be read. -/
def Pending.order (call : Pending) (raw : Raw) (draw : Ident) : Option Order := do
  let filled ← decimal (raw.filled.getD "0")
  let average ← raw.average.elim (some none) fun text => (decimal text).map some
  some
    { id := raw.id.elim draw .text
      clientOrderId := call.payload.clientOrderId
      idempotencyKey := call.request.idempotencyKey
      symbol := call.request.symbol
      side := call.request.side
      orderType := call.request.orderType
      quantity := call.request.quantity
      filledQuantity := filled
      price := call.request.price
      averageFillPrice := average
      status := takenStatus filled call.request.quantity
      riskDecision := some call.risk.decision
      riskReasonCode := some call.risk.reasonCode
      createdAt := call.now
      updatedAt := call.now }

/-- `submit` from the answer of the exchange on.  The time is recorded first, whether or not the
answer can be read. -/
def ExchangeTestnetClient.finish (client : ExchangeTestnetClient) (call : Pending) (raw : Raw) :
    ExchangeTestnetClient × Option Order :=
  ({ client with
      orderTimes := client.orderTimes ++ [call.now]
      nextUuid := client.nextUuid + 1 },
    call.order raw (.uuid4 client.nextUuid))

/-! ### Submissions interleaved at the await -/

/-- A client with its submissions: those that await an answer, in the order of their calls;
the times of all calls it has issued, and of those that have raised. -/
structure Traffic where
  client : ExchangeTestnetClient
  clock : Time
  awaiting : List Pending := []
  issued : List Time := []
  raised : List Time := []
  deriving DecidableEq, Repr

/-- What happens to a client. -/
inductive Block
  | submit (request : OrderRequest) (risk : RiskEvaluation) (now : Time)
  /-- The call of the submission with this number is answered. -/
  | answer (k : ℕ) (raw : Raw)
  /-- It raises. -/
  | raise (k : ℕ)
  deriving DecidableEq, Repr

/-- One atomic block.  The clock does not go back. -/
def Traffic.step (s : Traffic) : Block → Option Traffic
  | .submit request risk now =>
      if s.clock ≤ now then
        let r := s.client.submit request risk now
        match r.2 with
        | .order _ => some { s with client := r.1, clock := now }
        | .awaits call =>
            some
              { s with
                client := r.1
                clock := now
                awaiting := s.awaiting ++ [call]
                issued := s.issued ++ [now] }
      else none
  | .answer k raw => s.awaiting[k]?.map fun call =>
      { s with client := (s.client.finish call raw).1, awaiting := s.awaiting.eraseIdx k }
  | .raise k => s.awaiting[k]?.map fun call =>
      { s with awaiting := s.awaiting.eraseIdx k, raised := s.raised ++ [call.now] }

/-- A new client. -/
def Traffic.start (config : TestnetConfig) (clock : Time) : Traffic :=
  { client := { config := config }, clock := clock }

/-- No half-open minute has more calls than the limit. -/
def Traffic.WithinLimit (config : TestnetConfig) (s : Traffic) : Prop :=
  ∀ t, ((s.issued.filter fun a => t ≤ a ∧ a < t + minute).length : ℤ) ≤ config.rateLimitPerMinute

/-- The calls that the list of the client misses. -/
def Traffic.unrecorded (s : Traffic) : List Time := s.awaiting.map Pending.now ++ s.raised

/-- If the times on the list let a call pass, the calls that the list misses do so too. -/
def Traffic.Room (s : Traffic) : Block → Prop
  | .submit _ risk now => ¬Blocks risk →
      ((recent minute now s.client.orderTimes).length : ℤ) < s.client.config.rateLimitPerMinute →
      ((recent minute now s.client.orderTimes).length : ℤ) +
        (recent minute now s.unrecorded).length < s.client.config.rateLimitPerMinute
  | _ => True

instance (s : Traffic) : ∀ b : Block, Decidable (s.Room b)
  | .submit _ _ _ => inferInstanceAs (Decidable (_ → _ → _))
  | .answer _ _ => isTrue trivial
  | .raise _ => isTrue trivial

/-! ### What one block does -/

variable {config : TestnetConfig} {clock now : Time} {s s' : Traffic}

/-- **What a submission does up to its call.**  It trims the list at most, or it has found room
on the trimmed list. -/
theorem submit_cases (client : ExchangeTestnetClient) (request : OrderRequest)
    (risk : RiskEvaluation) (now : Time) :
    (∃ orderTimes nextUuid order, client.submit request risk now =
        ({ client with orderTimes := orderTimes, nextUuid := nextUuid }, .order order) ∧
      (orderTimes = client.orderTimes ∨ orderTimes = recent minute now client.orderTimes) ∧
      (¬Blocks risk →
        client.config.rateLimitPerMinute ≤ (recent minute now client.orderTimes).length)) ∨
    (∃ nextUuid call, client.submit request risk now =
        ({ client with
            orderTimes := recent minute now client.orderTimes
            nextUuid := nextUuid }, .awaits call) ∧
      call.now = now ∧ ¬Blocks risk ∧
      (recent minute now client.orderTimes).length < client.config.rateLimitPerMinute) := by
  by_cases hblocks : Blocks risk
  · rw [ExchangeTestnetClient.submit, if_pos hblocks]
    exact .inl ⟨_, _, _, rfl, .inl rfl, absurd hblocks⟩
  by_cases hfull : client.config.rateLimitPerMinute ≤ (recent minute now client.orderTimes).length
  · rw [ExchangeTestnetClient.submit, if_neg hblocks, if_pos hfull]
    exact .inl ⟨_, _, _, rfl, .inr rfl, fun _ => hfull⟩
  · rw [ExchangeTestnetClient.submit, if_neg hblocks, if_neg hfull]
    exact .inr ⟨_, _, rfl, rfl, hblocks, Int.not_le.mp hfull⟩

/-- The list of the client, and the calls it misses, account for the calls of the last minute. -/
structure Traffic.Accounted (config : TestnetConfig) (s : Traffic) : Prop where
  config : s.client.config = config
  le_clock : ∀ t ∈ s.issued, t ≤ s.clock
  counted : ∀ now, s.clock ≤ now → (recent minute now s.issued).length =
    (recent minute now s.client.orderTimes).length + (recent minute now s.unrecorded).length

theorem Traffic.Accounted.start (config : TestnetConfig) (clock : Time) :
    (Traffic.start config clock).Accounted config where
  config := rfl
  le_clock := by simp [Traffic.start]
  counted := by simp [Traffic.start, Traffic.unrecorded, recent]

/-- The calls of the last minute are those on the list and those it misses, with another list
and other calls missing, if these have as many. -/
theorem Traffic.Accounted.of_same (h : s.Accounted config)
    (hconfig : s'.client.config = s.client.config) (hclock : s.clock ≤ s'.clock)
    (hissued : s'.issued = s.issued)
    (hsame : ∀ now, s'.clock ≤ now →
      (recent minute now s'.client.orderTimes).length + (recent minute now s'.unrecorded).length =
        (recent minute now s.client.orderTimes).length + (recent minute now s.unrecorded).length) :
    s'.Accounted config where
  config := hconfig.trans h.config
  le_clock := by
    rw [hissued]
    exact fun t ht => (h.le_clock t ht).trans hclock
  counted := by
    intro now hnow
    rw [hissued, hsame now hnow]
    exact h.counted now (hclock.trans hnow)

/-- A call that is not awaited any more is missing from those that are. -/
theorem recent_eraseIdx {awaiting : List Pending} {k : ℕ} {call : Pending}
    (h : awaiting[k]? = some call) (now : Time) :
    (recent minute now (awaiting.map Pending.now)).length =
      (recent minute now ((awaiting.eraseIdx k).map Pending.now)).length +
        (recent minute now [call.now]).length := by
  obtain ⟨hk, rfl⟩ := List.getElem?_eq_some_iff.mp h
  have hperm := ((List.getElem_cons_eraseIdx_perm hk).map Pending.now).filter
    fun t => now - t < minute
  rw [recent, ← hperm.length_eq, List.map_cons, ← recent, ← List.singleton_append, recent_append,
    List.length_append, Nat.add_comm]

/-- The traffic after a call that its submission has issued. -/
def Traffic.issue (s : Traffic) (call : Pending) (nextUuid : ℕ) : Traffic :=
  { s with
    client :=
      { s.client with
        orderTimes := recent minute call.now s.client.orderTimes
        nextUuid := nextUuid }
    clock := call.now
    awaiting := s.awaiting ++ [call]
    issued := s.issued ++ [call.now] }

/-- A call that is issued now is one that the list misses. -/
theorem Traffic.Accounted.issue (h : s.Accounted config) {call : Pending}
    (hclock : s.clock ≤ call.now) (nextUuid : ℕ) : (s.issue call nextUuid).Accounted config where
  config := h.config
  le_clock := by
    intro t ht
    rcases List.mem_append.mp ht with ht | ht
    · exact (h.le_clock t ht).trans hclock
    · exact (List.mem_singleton.mp ht).le
  counted := by
    intro now (hnow : call.now ≤ now)
    have hcounted := h.counted now (hclock.trans hnow)
    simp only [Traffic.issue, unrecorded, recent_append, List.length_append, List.map_append,
      List.map_cons, List.map_nil, recent_recent hnow] at hcounted ⊢
    omega

/-- It keeps to the limit exactly if it finds room among all calls of the last minute. -/
theorem Traffic.Accounted.issue_withinLimit (h : s.Accounted config) {call : Pending}
    (hclock : s.clock ≤ call.now) (nextUuid : ℕ) :
    (s.issue call nextUuid).WithinLimit config ↔ s.WithinLimit config ∧
      ((recent minute call.now s.client.orderTimes).length : ℤ) +
        (recent minute call.now s.unrecorded).length < config.rateLimitPerMinute := by
  have hlog : ∀ t ∈ s.issued, t ≤ call.now := fun t ht => (h.le_clock t ht).trans hclock
  have hconcat : Limited minute config.rateLimitPerMinute (s.issued ++ [call.now]) ↔ _ :=
    limited_concat_iff minute_pos hlog
  rw [h.counted call.now hclock, Nat.cast_add] at hconcat
  exact hconcat

/-- **A block keeps the account, and it keeps to the limit exactly if its call has room.** -/
theorem Traffic.Accounted.step {b : Block} (h : s.Accounted config) (hstep : s.step b = some s') :
    s'.Accounted config ∧ (s'.WithinLimit config ↔ s.WithinLimit config ∧ s.Room b) := by
  cases b with
  | submit request risk now =>
    by_cases hclock : s.clock ≤ now
    swap
    · simp [Traffic.step, hclock] at hstep
    rw [Traffic.step, if_pos hclock] at hstep
    obtain ⟨orderTimes, nextUuid, order, hsubmit, htimes, hfull⟩ |
      ⟨nextUuid, call, hsubmit, rfl, hsent, hroom⟩ := submit_cases s.client request risk now
    · -- no call: the list is trimmed at most
      rw [hsubmit] at hstep
      obtain rfl := Option.some.inj hstep
      constructor
      · refine h.of_same rfl hclock rfl fun now' hnow' => ?_
        rcases htimes with rfl | rfl
        · rfl
        · rw [recent_recent hnow']
          rfl
      · refine (and_iff_left_of_imp fun _ hsent hroom => ?_).symm
        exact absurd hroom (Int.not_lt.mpr (hfull hsent))
    · -- a call: the list has let it pass
      rw [hsubmit] at hstep
      obtain rfl := Option.some.inj hstep
      refine ⟨h.issue hclock nextUuid, (h.issue_withinLimit hclock nextUuid).trans ?_⟩
      rw [← h.config]
      exact and_congr_right fun _ => ⟨fun hall _ _ => hall, fun hall => hall hsent hroom⟩
  | answer k raw =>
    obtain ⟨call, hcall, rfl⟩ := Option.map_eq_some_iff.mp hstep
    refine ⟨h.of_same rfl le_rfl rfl fun now _ => ?_, (and_iff_left trivial).symm⟩
    have herase := recent_eraseIdx hcall now
    simp only [ExchangeTestnetClient.finish, unrecorded, recent_append, List.length_append]
    omega
  | raise k =>
    obtain ⟨call, hcall, rfl⟩ := Option.map_eq_some_iff.mp hstep
    refine ⟨h.of_same rfl le_rfl rfl fun now _ => ?_, (and_iff_left trivial).symm⟩
    have herase := recent_eraseIdx hcall now
    simp only [unrecorded, recent_append, List.length_append]
    omega

/-! ### The calls of a run -/

/-- **No half-open minute has more calls than the limit exactly if each call of the run has found
room** among those that the list misses as well, and the limit is not negative. -/
theorem calls_limited_iff {blocks : List Block}
    (h : exec Traffic.step (Traffic.start config clock) blocks = some s) :
    s.WithinLimit config ↔ 0 ≤ config.rateLimitPerMinute ∧
        Along Traffic.step Traffic.Room (Traffic.start config clock) blocks := by
  have hstart : (Traffic.start config clock).WithinLimit config ↔ 0 ≤ config.rateLimitPerMinute :=
    limited_nil
  rw [← hstart]
  exact exec_iff_along (fun _ _ _ => Traffic.Accounted.step) (.start config clock) h

/-- A market order. -/
def marketOrder : OrderRequest :=
  { symbol := "BTC/USDT", side := .buy, orderType := .market, quantity := 1
    idempotencyKey := "key" }

/-- A submission of it that the risk engine has approved. -/
def submitAt (now : Time) : Block :=
  .submit marketOrder { decision := .approved, reasonCode := .ok } now

/-- One call a minute. -/
def oneAMinute : TestnetConfig := { rateLimitPerMinute := 1 }

/-- With one call a minute, a submission is refused until the minute of the last call is over. -/
theorem calls_limited_one_a_minute :
    ∃ s, exec Traffic.step (Traffic.start oneAMinute 0)
        [submitAt 0, .answer 0 {}, submitAt (minute - 1), submitAt minute, .answer 0 {}] = some s ∧
      s.issued = [0, minute] ∧ s.WithinLimit oneAMinute := by
  refine ⟨_, rfl, rfl, ?_⟩
  have hroom : 0 ≤ oneAMinute.rateLimitPerMinute ∧
      Along Traffic.step Traffic.Room (Traffic.start oneAMinute 0)
        [submitAt 0, .answer 0 {}, submitAt (minute - 1), submitAt minute, .answer 0 {}] := by
    decide +kernel
  exact (calls_limited_iff rfl).mpr hroom

/-- **Two calls in a minute that has room for one**: the second submission comes while the first
one waits, or after its call has raised. -/
theorem calls_exceed_limit :
    (∃ s, exec Traffic.step (Traffic.start oneAMinute 0)
        [submitAt 0, submitAt 0, .answer 0 {}, .answer 0 {}] = some s ∧
      ¬s.WithinLimit oneAMinute) ∧
    ∃ s, exec Traffic.step (Traffic.start oneAMinute 0)
        [submitAt 0, .raise 0, submitAt 0, .answer 0 {}] = some s ∧
      ¬s.WithinLimit oneAMinute := by
  refine ⟨⟨_, rfl, fun h => ?_⟩, ⟨_, rfl, fun h => ?_⟩⟩
  · exact absurd (h 0) (by decide +kernel)
  · exact absurd (h 0) (by decide +kernel)

end Execution

end Atlas
