import Atlas.Paper.Twins
import Atlas.Risk.Engine
import Atlas.Session.Intake

/-!
# The keys of the orders of several orchestrators

An orchestrator made by `get_or_create_orchestrator` names its session `cycle-` and twelve
of the hexadecimal digits of a new UUID.  The key of an order takes eight characters of
that name: the six of `cycle-` and two digits.  Then come the symbol without its slashes,
the time of the candle in milliseconds, and the direction of the signal.

The ledger is shared, and its idempotency index answers a key that it knows with the order
it knows.  Two orchestrators whose UUIDs begin with the same two digits have the same keys.

The time goes through floating-point seconds: `int(timestamp() * 1000)`.

## Main definitions

* `Uuid` — a UUID of version 4.
* `OrderSlot`, `OrderSlot.clientOrderId` — what a key is for, and the key.
* `OrderSlot.Clash` — two slots that the parts of their keys do not tell apart.

## Main results

* `clientOrderId_eq_iff` — **when two keys are equal**.
* `submit_known`, `submit_other` — what the ledger answers an order under the key of another.
* `client_order_ids_iff` — **when the keys of two slots do not collide**.
* `Orchestrator.clientOrderId_eq` — the key of an orchestrator is that of the slot.

## References

`app/services/trading_orchestrator.py`, `app/services/paper_cycle.py`, `app/core/time.py`,
`docs/architecture/paper_trading_data_flow.md`.
-/

namespace Atlas

open Session Quantize

/-! ### Texts with separators -/

/-- The sign of the text of an integer. -/
def signText (m : ℤ) : List Char := if m < 0 then ['-'] else []

/-- The text of an integer is its sign and the digits of its absolute value. -/
theorem intText_toList (m : ℤ) :
    (toString m).toList = signText m ++ Nat.toDigits 10 m.natAbs := by
  rw [Int.toString_eq_repr, Int.repr_eq_if, signText]
  split_ifs with hm hneg hneg
  · omega
  · rw [show m.natAbs = m.toNat by omega]
    simp
  · rw [show m.natAbs = (-m).toNat by omega]
    simp
  · omega

/-- The digits of the number are behind the last dash. -/
theorem dashed_toList (s : String) (m : ℤ) : s.toList ++ '-' :: (toString m).toList =
    (s.toList ++ signText m) ++ '-' :: Nat.toDigits 10 m.natAbs := by
  rw [intText_toList, signText]
  split_ifs <;> simp

/-- Such texts are cut at the dash. -/
theorem dashed_inj {xs ys : List Char} {k l : ℕ} :
    xs ++ '-' :: Nat.toDigits 10 k = ys ++ '-' :: Nat.toDigits 10 l ↔ xs = ys ∧ k = l := by
  constructor
  · intro h
    obtain ⟨hname, hdigits⟩ := append_last_inj (dash_notMem_digits _) (dash_notMem_digits _) h
    exact ⟨hname, toDigits_injective hdigits⟩
  · rintro ⟨rfl, rfl⟩
    rfl

/-- Two names followed by a dash and a number are one text. -/
def SameText (s t : String) (m n : ℤ) : Prop :=
  s = t ∧ m = n ∨ m < 0 ∧ n = -m ∧ t = s ++ "-" ∨ n < 0 ∧ m = -n ∧ s = t ++ "-"

instance (s t : String) (m n : ℤ) : Decidable (SameText s t m n) :=
  inferInstanceAs (Decidable (_ ∨ _ ∨ _))

/-- **When two names followed by a dash and a number are one text**: they are the same, or
the dash of a sign is taken for one of the name. -/
theorem sameText_iff (s t : String) (m n : ℤ) :
    s.toList ++ '-' :: (toString m).toList = t.toList ++ '-' :: (toString n).toList ↔
      SameText s t m n := by
  rw [dashed_toList, dashed_toList, dashed_inj]
  have hdash : ∀ s t : String, t = s ++ "-" ↔ t.toList = s.toList ++ ['-'] := by
    intro s t
    rw [← String.toList_inj, String.toList_append]
    rfl
  rw [SameText, hdash, hdash, ← @String.toList_inj s t, signText, signText]
  -- by the signs of the numbers: two different ones shift a dash
  split_ifs with hm hn hn
  · simp only [List.append_cancel_right_eq]
    constructor
    · rintro ⟨heq, habs⟩
      exact .inl ⟨heq, by omega⟩
    · rintro (⟨heq, rfl⟩ | ⟨-, rfl, -⟩ | ⟨-, rfl, -⟩)
      · exact ⟨heq, rfl⟩
      · omega
      · omega
  · rw [List.append_nil]
    constructor
    · rintro ⟨heq, habs⟩
      exact .inr (.inl ⟨hm, by omega, heq.symm⟩)
    · rintro (⟨-, rfl⟩ | ⟨-, rfl, heq⟩ | ⟨hneg, -, -⟩)
      · omega
      · exact ⟨heq.symm, by omega⟩
      · omega
  · rw [List.append_nil]
    constructor
    · rintro ⟨heq, habs⟩
      exact .inr (.inr ⟨hn, by omega, heq⟩)
    · rintro (⟨-, rfl⟩ | ⟨hneg, -, -⟩ | ⟨-, rfl, heq⟩)
      · omega
      · omega
      · exact ⟨heq, by omega⟩
  · rw [List.append_nil, List.append_nil]
    constructor
    · rintro ⟨heq, habs⟩
      exact .inl ⟨heq, by omega⟩
    · rintro (⟨heq, rfl⟩ | ⟨hneg, -, -⟩ | ⟨hneg, -, -⟩)
      · exact ⟨heq, rfl⟩
      · omega
      · omega

/-! ### Keys -/

/-- `uuid4().hex`. -/
structure Uuid where
  hex : String
  length_hex : hex.length = 32
  digits : ∀ c ∈ hex.toList, c ∈ "0123456789abcdef".toList
  version : hex.toList[12]? = some '4'
  variant : ∃ c ∈ "89ab".toList, hex.toList[16]? = some c

/-- The session that `get_or_create_orchestrator` starts. -/
def Uuid.sessionId (u : Uuid) : String := "cycle-" ++ (u.hex.take 12).toString

/-- What the key of an order is for: the orchestrator, by the UUID of its session, the
symbol and the time of the candle, and the direction of the signal. -/
structure OrderSlot where
  uuid : Uuid
  symbol : String
  openTime : Time
  direction : SignalDirection

namespace OrderSlot

variable (a b : OrderSlot)

/-- The symbol without its slashes. -/
def pair : String := a.symbol.replace "/" ""

/-- `_client_order_id`, which is the idempotency key as well. -/
def clientOrderId : String :=
  (a.uuid.sessionId.take 8).toString ++ "-" ++ a.pair ++ "-" ++ toString (toUnixMs a.openTime) ++
    "-" ++ a.direction.value

/-- Session, symbol, time and direction are the same. -/
def Same : Prop :=
  a.uuid.sessionId = b.uuid.sessionId ∧ a.symbol = b.symbol ∧ a.openTime = b.openTime ∧
    a.direction = b.direction

/-- The parts of the keys do not tell the slots apart: two digits of the UUIDs, the
directions, and the symbols without slashes with the milliseconds. -/
def Coincide : Prop :=
  a.uuid.hex.toList.take 2 = b.uuid.hex.toList.take 2 ∧ a.direction = b.direction ∧
    SameText a.pair b.pair (toUnixMs a.openTime) (toUnixMs b.openTime)

/-- Two slots that the parts of their keys do not tell apart. -/
def Clash : Prop := a.Coincide b ∧ ¬a.Same b

/-- A ledger that knows neither key takes an order for the first slot, and answers an order
for the second one with it. -/
def Swallows (cfg : PaperConfig) : Prop :=
  ∃ (s : PaperState) (first second : OrderRequest) (risk risk' : RiskEvaluation) (roll roll' : ℚ)
    (now now' : Time),
    first.idempotencyKey = a.clientOrderId ∧ second.idempotencyKey = b.clientOrderId ∧
      s.idempotencyIndex.get? a.clientOrderId = none ∧
      s.idempotencyIndex.get? b.clientOrderId = none ∧
      Paper.submit cfg (Paper.submit cfg s first risk roll now).2 second risk' roll' now' =
        Paper.submit cfg s first risk roll now

/-- A key takes two digits of the UUID. -/
theorem sessionId_take (u : Uuid) :
    (u.sessionId.take 8).toString.toList = "cycle-".toList ++ u.hex.toList.take 2 := by
  have hcycle : "cycle-".toList = ['c', 'y', 'c', 'l', 'e', '-'] := rfl
  simp [Uuid.sessionId, hcycle, List.take_take]

/-- The characters of a key. -/
theorem clientOrderId_toList : a.clientOrderId.toList =
    ("cycle-".toList ++ a.uuid.hex.toList.take 2) ++
      '-' :: ((a.pair.toList ++ '-' :: (toString (toUnixMs a.openTime)).toList) ++
        '-' :: a.direction.value.toList) := by
  rw [← sessionId_take]
  simp [clientOrderId]

/-- **When two keys are equal**: when their parts coincide. -/
theorem clientOrderId_eq_iff : a.clientOrderId = b.clientOrderId ↔ a.Coincide b := by
  have hdigits : ∀ s : OrderSlot,
      ("cycle-".toList ++ s.uuid.hex.toList.take 2).length = 8 := by
    intro s
    have hlength : s.uuid.hex.toList.length = 32 := by
      rw [String.length_toList, s.uuid.length_hex]
    rw [List.length_append, List.length_take, hlength]
    rfl
  rw [← String.toList_inj, clientOrderId_toList, clientOrderId_toList, Coincide, ← sameText_iff]
  constructor
  · intro h
    obtain ⟨hsession, hrest⟩ := List.append_inj h ((hdigits a).trans (hdigits b).symm)
    obtain ⟨htext, hdirection⟩ := append_last_inj (dash_notMem_direction _)
      (dash_notMem_direction _) (List.cons.inj hrest).2
    exact ⟨List.append_cancel_left hsession, directionText_injective hdirection, htext⟩
  · rintro ⟨hsession, hdirection, htext⟩
    rw [hsession, hdirection, htext]

/-! ### The ledger -/

variable {a b} {cfg : PaperConfig} {s : PaperState} {first second : OrderRequest}
  {risk risk' : RiskEvaluation} {roll roll' : ℚ} {now now' : Time}

/-- Behind an unknown key, the engine goes on. -/
theorem submit_new (hnew : s.idempotencyIndex.get? first.idempotencyKey = none) :
    Paper.submit cfg s first risk roll now =
      (some (Paper.submitAfterLatency cfg s first risk roll now).1,
        (Paper.submitAfterLatency cfg s first risk roll now).2) := by
  rw [Paper.submit, hnew]

/-- An order under the key of the order before is answered with it. -/
theorem submit_known (hnew : s.idempotencyIndex.get? first.idempotencyKey = none)
    (hkey : second.idempotencyKey = first.idempotencyKey) :
    Paper.submit cfg (Paper.submit cfg s first risk roll now).2 second risk' roll' now' =
      Paper.submit cfg s first risk roll now := by
  obtain ⟨⟨hid, -⟩, hstored, -, -, -, hindex⟩ :=
    @Paper.submitAfterLatency_stores cfg s risk now first roll
  rw [submit_new hnew]
  dsimp only
  rw [Paper.submit, hindex, hkey, Dict.get?_set_self]
  dsimp only
  rw [hstored]

/-- An order under another new key is a new order. -/
theorem submit_other (hnew : s.idempotencyIndex.get? first.idempotencyKey = none)
    (hnew' : s.idempotencyIndex.get? second.idempotencyKey = none)
    (hkey : first.idempotencyKey ≠ second.idempotencyKey) :
    (Paper.submit cfg (Paper.submit cfg s first risk roll now).2 second risk' roll' now').1 ≠
      (Paper.submit cfg s first risk roll now).1 := by
  obtain ⟨⟨hid, -⟩, -, -, -, hnext, hindex⟩ :=
    @Paper.submitAfterLatency_stores cfg s risk now first roll
  rw [submit_new hnew]
  generalize Paper.submitAfterLatency cfg s first risk roll now = r at *
  obtain ⟨⟨hid', -⟩, -⟩ := @Paper.submitAfterLatency_stores cfg r.2 risk' now' second roll'
  have hunknown : r.2.idempotencyIndex.get? second.idempotencyKey = none := by
    rw [hindex, Dict.get?_set_ne _ hkey, hnew']
  dsimp only
  rw [submit_new hunknown]
  intro heq
  -- the first order has used up the number of its id
  have hsame : Ident.uuid4 r.2.nextUuid = .uuid4 s.nextUuid := by
    rw [← hid, ← hid', Option.some.inj heq]
  have hnumber : r.2.nextUuid = s.nextUuid := Ident.uuid4.inj hsame
  omega

/-- **When the keys of two slots do not collide**: two keys are equal for one slot only, and
the ledger never takes an order for the order of another slot, exactly if the parts of the
keys tell the slots apart. -/
theorem client_order_ids_iff (a b : OrderSlot) (cfg : PaperConfig) :
    ((a.clientOrderId = b.clientOrderId → a.Same b) ∧ (a.Swallows b cfg → a.Same b)) ↔
      ¬a.Clash b := by
  constructor
  · rintro ⟨hkeys, -⟩ ⟨hcoincide, hdistinct⟩
    exact hdistinct (hkeys ((clientOrderId_eq_iff a b).mpr hcoincide))
  · intro hclear
    have hkeys : a.clientOrderId = b.clientOrderId → a.Same b := by
      intro heq
      by_contra hdistinct
      exact hclear ⟨(clientOrderId_eq_iff a b).mp heq, hdistinct⟩
    refine ⟨hkeys, ?_⟩
    rintro ⟨s, first, second, risk, risk', roll, roll', now, now', hfirst, hsecond, hnew,
      hnew', heq⟩
    refine hkeys ?_
    by_contra hne
    rw [← hfirst] at hnew
    rw [← hsecond] at hnew'
    rw [← hfirst, ← hsecond] at hne
    exact submit_other hnew hnew' hne (congrArg Prod.fst heq)

/-! ### A collision -/

def fiveE : Uuid where
  hex := "5e3c0a7d1b544a6f8e20b9d73c6a1e8f"
  length_hex := by decide
  digits := by simp
  version := by decide
  variant := by simp

/-- Another UUID with the same first two digits. -/
def fiveE' : Uuid where
  hex := "5e90d1f277ac4b039c5502e6f7a8b9c1"
  length_hex := by decide
  digits := by simp
  version := by decide
  variant := by simp

/-- A purchase of an orchestrator for the candle of 2024-05-01 09:30. -/
def purchase (u : Uuid) : OrderSlot := ⟨u, "BTC/USDT", 1714555800000000, .buy⟩

/-- Its request, under a key. -/
def purchaseRequest (key : String) : OrderRequest where
  symbol := "BTC/USDT"
  side := .buy
  orderType := .market
  quantity := 1
  idempotencyKey := key
  clientOrderId := some key

/-- **Two orchestrators collide**: the purchase of the second is answered with that of the
first. -/
theorem client_order_ids_collide :
    (purchase fiveE).clientOrderId = (purchase fiveE').clientOrderId ∧
      (purchase fiveE).uuid.sessionId ≠ (purchase fiveE').uuid.sessionId ∧
      (purchase fiveE).Swallows (purchase fiveE') {} := by
  have hkeys : (purchase fiveE).clientOrderId = (purchase fiveE').clientOrderId :=
    (clientOrderId_eq_iff _ _).mpr ⟨by decide, rfl, .inl ⟨rfl, rfl⟩⟩
  refine ⟨hkeys, ?_, ?_⟩
  · intro heq
    have hlist := congrArg (fun t => t.toList.drop 8) heq
    revert hlist
    decide
  · exact ⟨{ cash := 10000 }, purchaseRequest (purchase fiveE).clientOrderId,
      purchaseRequest (purchase fiveE').clientOrderId, { decision := .approved, reasonCode := .ok },
      { decision := .approved, reasonCode := .ok }, 0, 0, 1714555800000000, 1714555800000000,
      rfl, rfl, rfl, rfl, submit_known rfl hkeys.symm⟩

end OrderSlot

/-- The key of an orchestrator is that of the slot. -/
theorem Orchestrator.clientOrderId_eq {o : Orchestrator} {candle : Candle} {u : Uuid}
    (direction : SignalDirection) (hsession : o.sessionId = u.sessionId) :
    o.clientOrderId candle direction =
      OrderSlot.clientOrderId ⟨u, candle.symbol, candle.openTime, direction⟩ := by
  rw [Orchestrator.clientOrderId, hsession]
  rfl

end Atlas
