import Atlas.Risk.Frequency

/-!
# The cooldown between orders

An order is refused while the last accepted order is less than the cooldown ago.  The
engine looks for the last order among the order times, and the check of the order
frequency, just before, has dropped those older than a minute.  So a cooldown of up to a
minute is enforced along every run whose clock does not go back, whatever is refused in
between; of a longer one only the first minute is.

## Main definitions

* `EngineRun.Cooled` — the order times know the last accepted order.
* `LetsThrough` — the settings let some order through.

## Main results

* `EngineRun.Cooled.step` — what one evaluation keeps.
* `Passed.again` — an order that passes once passes again, when the last one is forgotten.
* `cooldown_enforced_iff` — **the cooldown is enforced up to a minute, and not beyond**.

## References

`app/risk/engine.py`, `app/core/config.py`.
-/

namespace Atlas

namespace Risk

open SlidingWindow Transition

variable {settings : RiskSettings} {state state' : RiskEngineState} {request : OrderRequest}
  {context : RiskContext} {now : Time} {price : ℚ}

variable (settings) in
/-- The accepted orders are apart, and the order times know the last one. -/
def EngineRun.Cooled (e : EngineRun) : Prop :=
  Spaced (seconds 60) (seconds settings.orderCooldownSeconds) e.clock e.state.recentOrderTimes
    e.accepted

/-- An accepted order has found every order time of the last minute a cooldown ago. -/
theorem Passed.cooled (h : Passed settings state request context now price)
    (hpos : 0 < settings.orderCooldownSeconds) :
    ∀ t ∈ kept (seconds 60) now state.recentOrderTimes,
      seconds settings.orderCooldownSeconds ≤ now - t := by
  intro t ht
  have hgates : ∀ g ∈ accountGates settings (trimmed state now) request context now,
      g.fails = false := firstRefusal_eq_none.mp h.account
  have hcooldown := hgates _ (List.mem_cons_of_mem _ (List.mem_cons_self ..))
  rw [rejectIf_fails, decide_eq_false_iff_not, not_and] at hcooldown
  have htrimmed : (trimmed state now).recentOrderTimes =
      kept (seconds 60) now state.recentOrderTimes := rfl
  cases hmax : (kept (seconds 60) now state.recentOrderTimes).max? with
  | none =>
    rw [List.max?_eq_none_iff.mp hmax] at ht
    exact (List.not_mem_nil ht).elim
  | some last =>
    have hlast : t ≤ last := (List.max?_eq_some_iff.mp hmax).2 t ht
    have helapsed := hcooldown hpos
    simp only [elapsed, htrimmed, hmax, Option.map_some, Option.any_some, decide_eq_true_eq,
      not_lt] at helapsed
    exact helapsed.trans (sub_le_sub_left hlast now)

/-- **Every step keeps it**, if the cooldown is at most a minute. -/
theorem EngineRun.Cooled.step {e e' : EngineRun} {a : EngineAction} (h : e.Cooled settings)
    (hpos : 0 < settings.orderCooldownSeconds) (hle : settings.orderCooldownSeconds ≤ 60)
    (hstep : e.step settings a = some e') : e'.Cooled settings := by
  cases a with
  | assign fields =>
    simp only [EngineRun.step, Option.some.injEq] at hstep
    subst hstep
    exact h
  | evaluate request context now =>
    by_cases hclock : e.clock ≤ now
    swap
    · simp [EngineRun.step, hclock] at hstep
    rw [EngineRun.step, if_pos hclock, Option.some.injEq] at hstep
    subst hstep
    have hnow : Spaced (seconds 60) (seconds settings.orderCooldownSeconds) now
        e.state.recentOrderTimes e.accepted := Spaced.later h hclock
    have hevaluates : Evaluates settings e.state request context now
        (evaluate settings e.state request context now) := evaluate_evaluates
    generalize evaluate settings e.state request context now = r at hevaluates ⊢
    cases hevaluates with
    | refused answer hrefuses =>
      simp only [Cooled, if_neg hrefuses]
      exact hnow
    | refusedLate answer hrefuses =>
      simp only [Cooled, if_neg hrefuses]
      exact hnow.keep
    | accepted price z hpassed hsize =>
      simp only [Cooled, if_pos (accept_accepts z)]
      have hwithin : seconds settings.orderCooldownSeconds ≤ seconds 60 :=
        Int.mul_le_mul_of_nonneg_right hle (by decide)
      exact hnow.keep.admit hwithin (hpassed.cooled hpos)

/-! ### Beyond a minute -/

/-- The settings let some order through. -/
def LetsThrough (settings : RiskSettings) : Prop :=
  ∃ state request context now, (evaluate settings state request context now).1.Accepts

/-- The context some time later: the market data is as old as it was, whichever of the two
times it has been read off. -/
def delayed (state : RiskEngineState) (context : RiskContext) (wait : Time) : RiskContext :=
  { context with marketDataTs := (context.marketDataTs.or state.lastMarketDataTs).map (· + wait) }

theorem stale_delayed {wait : Time} (hts : state'.lastMarketDataTs = state.lastMarketDataTs) :
    stale settings state' (delayed state context wait) (now + wait) ↔
      stale settings state context now := by
  have hor : (delayed state context wait).marketDataTs.or state'.lastMarketDataTs =
      (context.marketDataTs.or state.lastMarketDataTs).map (· + wait) := by
    rw [hts, delayed]
    cases context.marketDataTs with
    | some ts => rfl
    | none => cases state.lastMarketDataTs <;> rfl
  unfold stale
  rw [hor, Option.any_map]
  simp only [add_sub_add_right_eq_sub]

/-- **An order that passes once passes again** later, under a new key, when no order of the
last minute is remembered. -/
theorem Passed.again {key : String} {wait : Time}
    (h : Passed settings state request context now price)
    (hflags : ∃ times keys,
      state' = { state with recentOrderTimes := times, seenIdempotencyKeys := keys })
    (hkey : key ∉ state'.seenIdempotencyKeys)
    (hnone : kept (seconds 60) (now + wait) state'.recentOrderTimes = []) :
    Passed settings state' { request with idempotencyKey := key } (delayed state context wait)
      (now + wait) price := by
  have hstale : stale settings state' (delayed state context wait) (now + wait) ↔
      stale settings state context now := by
    obtain ⟨times, keys, rfl⟩ := hflags
    exact stale_delayed rfl
  have hvalues : ∀ g ∈ requestGates settings state request context now, g.fails = false :=
    firstRefusal_eq_none.mp h.values
  have haccount : ∀ g ∈ accountGates settings (trimmed state now) request context now,
      g.fails = false := firstRefusal_eq_none.mp h.account
  have htrimmed : (trimmed state' (now + wait)).recentOrderTimes = [] := hnone
  refine ⟨?_, firstRefusal_eq_none.mpr ?_, h.price_eq, h.price_pos, h.size,
    firstRefusal_eq_none.mpr ?_⟩
  · obtain ⟨times, keys, rfl⟩ := hflags
    exact h.venue
  · simp only [requestGates, List.forall_mem_cons, rejectIf_fails, decide_eq_false_iff_not,
      hstale] at hvalues ⊢
    exact ⟨hvalues.1, hkey, hvalues.2.2⟩
  · simp only [accountGates, List.forall_mem_cons, rejectIf_fails, decide_eq_false_iff_not,
      elapsed, htrimmed, List.length_nil, List.max?_nil, Option.map_none, Option.any_none,
      not_le] at haccount ⊢
    obtain ⟨hfrequency, -, hrest⟩ := haccount
    exact ⟨by omega, fun hcooldown => by simp at hcooldown, hrest⟩

theorem EngineRun.step_passed {e : EngineRun} {z : Sized} (hclock : e.clock ≤ now)
    (h : Passed settings e.state request context now price)
    (hz : approvedSize settings request context price = .ok z) :
    e.step settings (.evaluate request context now) =
      some ⟨recorded (trimmed e.state now) request now, now, e.accepted ++ [now]⟩ := by
  simp only [EngineRun.step, if_pos hclock, evaluate_of_passed h hz, if_pos (accept_accepts z)]

/-- Two orders that the settings let through, just over a minute apart. -/
theorem LetsThrough.two_orders (h : LetsThrough settings) :
    ∃ state clock e, Reachable (EngineRun.step settings) (fun _ _ => True) ⟨state, clock, []⟩ e ∧
      e.accepted = [clock, clock + (seconds 60 + 1)] := by
  obtain ⟨state, request, context, now, haccepts⟩ := h
  obtain ⟨price, z, hpassed, hsize, -⟩ := evaluate_accepted haccepts
  -- the engine that remembers nothing lets the order through, and again under another key
  let first : RiskEngineState :=
    { state with recentOrderTimes := [], seenIdempotencyKeys := [] }
  let second : RiskEngineState := recorded (trimmed first now) request now
  let request' : OrderRequest := { request with idempotencyKey := request.idempotencyKey ++ "'" }
  let later : Time := now + (seconds 60 + 1)
  have hfirst : Passed settings first request (delayed state context 0) (now + 0) price :=
    hpassed.again ⟨[], [], rfl⟩ List.not_mem_nil rfl
  rw [add_zero] at hfirst
  have hforgotten : kept (seconds 60) later second.recentOrderTimes = [] := by
    have htimes : second.recentOrderTimes = [now] := rfl
    rw [htimes]
    simp [kept, later]
  have hsecond : Passed settings second request' (delayed state context (seconds 60 + 1)) later
      price := by
    refine hpassed.again ⟨_, _, rfl⟩ ?_ hforgotten
    show request.idempotencyKey ++ "'" ∉ [request.idempotencyKey]
    simp
  have hclock : now ≤ later := le_add_of_nonneg_right (by decide)
  have hone : Reachable (EngineRun.step settings) (fun _ _ => True) ⟨first, now, []⟩
      ⟨second, now, [now]⟩ :=
    Reachable.init.step trivial (EngineRun.step_passed le_rfl hfirst hsize)
  exact ⟨first, now, _, hone.step trivial (EngineRun.step_passed hclock hsecond hsize), rfl⟩

/-- **The cooldown is enforced up to a minute, and not beyond**: along every run of
evaluations whose clock does not go back, consecutive accepted orders are a cooldown apart
exactly when the cooldown is at most sixty seconds, or no order is let through at all. -/
theorem cooldown_enforced_iff (hpos : 0 < settings.orderCooldownSeconds) :
    (∀ state clock e,
        Reachable (EngineRun.step settings) (fun _ _ => True) ⟨state, clock, []⟩ e →
        e.accepted.IsChain fun a b => seconds settings.orderCooldownSeconds ≤ b - a) ↔
      settings.orderCooldownSeconds ≤ 60 ∨ ¬LetsThrough settings := by
  constructor
  · intro henforced
    by_contra! hno
    obtain ⟨hlong, hlets⟩ := hno
    obtain ⟨state, clock, e, hreach, haccepted⟩ := hlets.two_orders
    have hapart := henforced state clock e hreach
    rw [haccepted, List.isChain_pair, add_sub_cancel_left] at hapart
    have hwithin : settings.orderCooldownSeconds * 1000000 ≤ 60 * 1000000 + 1 := hapart
    omega
  · rintro (hle | hnone) state clock e hreach
    · have hcooled : e.Cooled settings :=
        hreach.invariant (Spaced.nil _) fun _ _ _ h _ hstep => h.step hpos hle hstep
      exact hcooled.apart
    · -- nothing is ever accepted
      have hempty : e.accepted = [] := by
        refine hreach.invariant (I := fun e => e.accepted = []) rfl fun e a e' h _ hstep => ?_
        cases a with
        | assign fields =>
          rw [← Option.some.inj hstep]
          exact h
        | evaluate request context now =>
          simp only [EngineRun.step, Option.ite_none_right_eq_some, Option.some.injEq] at hstep
          obtain ⟨-, rfl⟩ := hstep
          have hrefused : ¬(evaluate settings e.state request context now).1.Accepts :=
            fun haccepts => hnone ⟨_, _, _, _, haccepts⟩
          simp only [if_neg hrefused, h]
      rw [hempty]
      exact .nil

/-! ### Two runs -/

/-- With a cooldown of thirty seconds an order after 29 is refused, and one after thirty is
accepted. -/
theorem cooldown_enforced_at_thirty :
    ∃ e, Reachable (EngineRun.step { orderCooldownSeconds := 30 }) (fun _ _ => True) ⟨{}, 0, []⟩ e ∧
      e.accepted = [0, seconds 30] ∧ e.accepted.IsChain fun a b => seconds 30 ≤ b - a := by
  obtain ⟨e, hreach, haccepted⟩ : ∃ e, Reachable (EngineRun.step { orderCooldownSeconds := 30 })
      (fun _ _ => True) ⟨{}, 0, []⟩ e ∧ e.accepted = [0, seconds 30] :=
    exists_reachable
      [.evaluate (smallBuy "a") smallBuyContext 0,
        .evaluate (smallBuy "b") smallBuyContext (seconds 29),
        .evaluate (smallBuy "c") smallBuyContext (seconds 30)]
      (by decide +kernel) (by decide +kernel)
  have hpos : 0 < ({ orderCooldownSeconds := 30 } : RiskSettings).orderCooldownSeconds := by decide
  exact ⟨e, hreach, haccepted, (cooldown_enforced_iff hpos).mpr (.inl (by decide)) {} 0 e hreach⟩

/-- **A cooldown that is not enforced**: with one of two minutes, an order 61 seconds after
the last one is accepted. -/
theorem cooldown_not_enforced :
    ∃ e, Reachable (EngineRun.step { orderCooldownSeconds := 120 }) (fun _ _ => True)
        ⟨{}, 0, []⟩ e ∧
      e.accepted = [0, seconds 61] ∧ ¬e.accepted.IsChain fun a b => seconds 120 ≤ b - a := by
  obtain ⟨e, hreach, haccepted⟩ : ∃ e, Reachable (EngineRun.step { orderCooldownSeconds := 120 })
      (fun _ _ => True) ⟨{}, 0, []⟩ e ∧ e.accepted = [0, seconds 61] :=
    exists_reachable
      [.evaluate (smallBuy "a") smallBuyContext 0,
        .evaluate (smallBuy "b") smallBuyContext (seconds 61)]
      (by decide +kernel) (by decide +kernel)
  exact ⟨e, hreach, haccepted, by rw [haccepted]; decide⟩

end Risk

end Atlas
