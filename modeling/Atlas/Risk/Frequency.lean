import Atlas.Lib.SlidingWindow
import Atlas.Lib.Transition
import Atlas.Risk.Engine

/-!
# The limit on the order frequency

The risk engine keeps the times of the orders it has accepted.  An evaluation that
reaches the check of the order frequency drops those older than a minute, and refuses
when as many as the limit are left; an accepted order appends its time.  Evaluations
that are refused before may leave old times on the list, and never an accepted order
out of it.

So along every run of evaluations whose clock does not go back, no closed minute has
more accepted orders than the limit.  A limit of zero or less accepts none.

## Main definitions

* `EngineAction`, `EngineRun` — a run of evaluations, with what it has accepted.
* `EngineRun.step` — one evaluation, or the other fields of the state written.

## Main results

* `orders_per_minute_limited` — **no closed minute has more orders than the limit**.

## References

`app/risk/engine.py`.
-/

namespace Atlas

namespace Risk

open SlidingWindow Transition

/-- What happens to a risk engine. -/
inductive EngineAction
  | evaluate (request : OrderRequest) (context : RiskContext) (now : Time)
  /-- The breaker, the flags of health, the keys and the time of the data are written
  from outside; the order times are not. -/
  | assign (fields : RiskEngineState)
  deriving DecidableEq, Repr

/-- The state of an engine, the last reading of its clock, and the times of the orders
it has accepted. -/
structure EngineRun where
  state : RiskEngineState := {}
  clock : Time
  accepted : List Time := []
  deriving DecidableEq, Repr

variable (settings : RiskSettings)

/-- A step of an engine whose clock does not go back. -/
def EngineRun.step (e : EngineRun) : EngineAction → Option EngineRun
  | .evaluate request context now =>
      if e.clock ≤ now then
        let r := evaluate settings e.state request context now
        some
          { state := r.2
            clock := now
            accepted := if r.1.Accepts then e.accepted ++ [now] else e.accepted }
      else none
  | .assign fields =>
      some { e with state := { fields with recentOrderTimes := e.state.recentOrderTimes } }

/-- The order times account for the accepted orders. -/
def EngineRun.Limited (e : EngineRun) : Prop :=
  Tracks (seconds 60) settings.maxOrdersPerMinute.toNat e.clock e.state.recentOrderTimes e.accepted

variable {settings} {state : RiskEngineState} {request : OrderRequest} {context : RiskContext}
  {now : Time} {price : ℚ}

/-- An accepted order has found room among the order times of the last minute. -/
theorem Passed.room (h : Passed settings state request context now price) :
    (kept (seconds 60) now state.recentOrderTimes).length < settings.maxOrdersPerMinute.toNat := by
  have hgates : ∀ g ∈ accountGates settings (trimmed state now) request context now,
      g.fails = false := firstRefusal_eq_none.mp h.account
  have hfrequency : (rejectIf (settings.maxOrdersPerMinute ≤
      ((trimmed state now).recentOrderTimes.length : ℤ)) .maxOrderFrequency
      "Order frequency exceeded").fails = false := hgates _ (List.mem_cons_self ..)
  rw [rejectIf_fails, decide_eq_false_iff_not, not_le] at hfrequency
  have hkept : ((kept (seconds 60) now state.recentOrderTimes).length : ℤ) <
      settings.maxOrdersPerMinute := hfrequency
  omega

/-- Every step keeps the order times in account. -/
theorem EngineRun.Limited.step {e e' : EngineRun} {a : EngineAction} (h : e.Limited settings)
    (hstep : e.step settings a = some e') : e'.Limited settings := by
  cases a with
  | assign fields =>
    simp only [EngineRun.step, Option.some.injEq] at hstep
    subst hstep
    exact h
  | evaluate request context now =>
    by_cases hclock : e.clock ≤ now
    swap
    · simp [EngineRun.step, hclock] at hstep
    rw [EngineRun.step, if_pos hclock, Option.some.injEq] at hstep
    subst hstep
    have hnow : Tracks (seconds 60) settings.maxOrdersPerMinute.toNat now
        e.state.recentOrderTimes e.accepted := Tracks.later h hclock
    have hevaluates : Evaluates settings e.state request context now
        (evaluate settings e.state request context now) := evaluate_evaluates
    generalize evaluate settings e.state request context now = r at hevaluates ⊢
    cases hevaluates with
    | refused answer hrefuses =>
      simp only [Limited, if_neg hrefuses]
      exact hnow
    | refusedLate answer hrefuses =>
      simp only [Limited, if_neg hrefuses]
      exact hnow.keep
    | accepted price z hpassed hsize =>
      simp only [Limited, if_pos (accept_accepts z)]
      exact hnow.keep.admit hpassed.room

/-- **No closed minute has more orders than the limit**, along every run of evaluations
whose clock does not go back, from any state of the engine. -/
theorem orders_per_minute_limited {clock : Time} {e : EngineRun}
    (h : Reachable (EngineRun.step settings) (fun _ _ => True) ⟨state, clock, []⟩ e) (t : Time) :
    (within (seconds 60) t e.accepted).length ≤ settings.maxOrdersPerMinute.toNat := by
  have hlimited : e.Limited settings :=
    h.invariant (Tracks.nil _) fun _ _ _ hlimited _ hstep => hlimited.step hstep
  exact hlimited.limited t

/-! ### A run at the limit -/

/-- A small purchase under its key, and the portfolio it is made for. -/
def smallBuy (key : String) : OrderRequest where
  symbol := "BTC/USDT"
  side := .buy
  orderType := .market
  quantity := 1
  idempotencyKey := key

def smallBuyContext : RiskContext where
  portfolio := { cashBalance := 10000, equity := 10000, peakEquity := 10000 }
  markPrice := some 50

/-- With a limit of two, the third order of a minute is refused, and one just after the
minute is accepted. -/
theorem orders_per_minute_limited_at_two :
    ∃ e, Reachable (EngineRun.step { maxOrdersPerMinute := 2 }) (fun _ _ => True) ⟨{}, 0, []⟩ e ∧
      e.accepted = [0, 0, seconds 61] ∧
      ∀ t, (within (seconds 60) t e.accepted).length ≤ 2 := by
  obtain ⟨e, hreach, haccepted⟩ : ∃ e, Reachable (EngineRun.step { maxOrdersPerMinute := 2 })
      (fun _ _ => True) ⟨{}, 0, []⟩ e ∧ e.accepted = [0, 0, seconds 61] :=
    exists_reachable
      [.evaluate (smallBuy "a") smallBuyContext 0, .evaluate (smallBuy "b") smallBuyContext 0,
        .evaluate (smallBuy "c") smallBuyContext (seconds 60),
        .evaluate (smallBuy "c") smallBuyContext (seconds 61)]
      (by decide +kernel) (by decide +kernel)
  exact ⟨e, hreach, haccepted, orders_per_minute_limited hreach⟩

end Risk

end Atlas
