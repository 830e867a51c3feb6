import Atlas.Lib.Unwinding
import Atlas.Risk.Frequency

/-!
# Refused evaluations are inert

A refused evaluation writes no key and no time.  Some refuse after the old order times
have been dropped, and that is all a refusal may leave in the state.  What has been
dropped is out of the last minute, and it stays out of it as the clock goes on, so no
later evaluation would have counted it.

So calls that are refused themselves can be put into a run, or taken out of it, and every
other call has the same answer: the decision, the approved quantity, the reason and its
text.

## Main definitions

* `EngineRun.after`, `EngineRun.answer` — a call, and what it is answered.
* `EngineRun.InOrder` — the clock does not go back.
* `Alike` — two engines that answer alike from now on.

## Main results

* `evaluate_alike` — an evaluation in two engines that are alike.
* `rejected_calls_inert` — **refused calls make no difference to the others**.

## References

`app/risk/engine.py`.
-/

namespace Atlas

namespace Risk

open SlidingWindow Transition Unwinding

variable (settings : RiskSettings)

/-- The engine after an action. -/
def EngineRun.after (e : EngineRun) (a : EngineAction) : EngineRun := (e.step settings a).getD e

/-- What an engine answers to an action. -/
def EngineRun.answer (e : EngineRun) : EngineAction → Option RiskEvaluation
  | .evaluate request context now => some (evaluate settings e.state request context now).1
  | .assign _ => none

/-- The clock does not go back. -/
def EngineRun.InOrder (e : EngineRun) : EngineAction → Prop
  | .evaluate _ _ now => e.clock ≤ now
  | .assign _ => True

instance (e : EngineRun) : DecidablePred e.InOrder
  | .evaluate _ _ now => inferInstanceAs (Decidable (e.clock ≤ now))
  | .assign _ => isTrue trivial

/-- The action is an evaluation that is refused. -/
def EngineRun.Refuses (e : EngineRun) (a : EngineAction) : Prop :=
  ∃ evaluation ∈ e.answer settings a, ¬evaluation.Accepts

instance (e : EngineRun) (a : EngineAction) : Decidable (e.Refuses settings a) :=
  decidable_of_iff ((e.answer settings a).any fun evaluation => ¬evaluation.Accepts) <| by
    simp [EngineRun.Refuses, Option.any_eq_true]

variable {settings} {state state' : RiskEngineState} {request : OrderRequest}
  {context : RiskContext} {now : Time}

/-! ### Engines that are alike -/

/-- The engines differ only in order times that are out of the window from now on.  The
clock of the second one may be behind. -/
structure Alike (e e' : EngineRun) : Prop where
  clock : e'.clock ≤ e.clock
  state : ∃ times, e'.state = { e.state with recentOrderTimes := times }
  window : ∀ now, e.clock ≤ now → kept (seconds 60) now e'.state.recentOrderTimes =
    kept (seconds 60) now e.state.recentOrderTimes

theorem Alike.refl (e : EngineRun) : Alike e e where
  clock := le_rfl
  state := ⟨_, rfl⟩
  window := fun _ _ => rfl

/-- **An evaluation in two engines** with the same order times in the window: it is answered
the same, and the states come to be the same, or both stay. -/
theorem evaluate_alike {times : List Time}
    (hwindow : kept (seconds 60) now times = kept (seconds 60) now state.recentOrderTimes) :
    let r := evaluate settings state request context now
    let r' := evaluate settings { state with recentOrderTimes := times } request context now
    r'.1 = r.1 ∧ (r'.2 = r.2 ∨ r.2 = state ∧ r'.2 = { state with recentOrderTimes := times }) := by
  have htrimmed : trimmed { state with recentOrderTimes := times } now = trimmed state now := by
    unfold trimmed
    exact congrArg (fun kept => { state with recentOrderTimes := kept }) hwindow
  have hvenue : venueGates settings { state with recentOrderTimes := times } request context =
      venueGates settings state request context := rfl
  have hvalues : requestGates settings { state with recentOrderTimes := times } request context now =
      requestGates settings state request context now := rfl
  simp only [evaluate, hvenue, hvalues, htrimmed]
  cases firstRefusal (venueGates settings state request context ++
    requestGates settings state request context now) with
  | some answer => exact ⟨rfl, .inr ⟨rfl, rfl⟩⟩
  | none =>
    cases referencePrice request context with
    | none => exact ⟨rfl, .inr ⟨rfl, rfl⟩⟩
    | some price =>
      dsimp only
      split_ifs
      · exact ⟨rfl, .inr ⟨rfl, rfl⟩⟩
      cases firstRefusal (sizeGates settings request context price) with
      | some answer => exact ⟨rfl, .inr ⟨rfl, rfl⟩⟩
      | none => exact ⟨rfl, .inl rfl⟩

/-- **An action in two engines that are alike** has the same answer, and they stay alike. -/
theorem Alike.step {e e' : EngineRun} {a : EngineAction} (h : Alike e e') (hclock : e.InOrder a) :
    e'.answer settings a = e.answer settings a ∧
      Alike (e.after settings a) (e'.after settings a) := by
  obtain ⟨hbehind, ⟨times, hstate⟩, hwindow⟩ := h
  obtain ⟨state', clock', accepted'⟩ := e'
  obtain rfl : state' = { e.state with recentOrderTimes := times } := hstate
  cases a with
  | assign fields => exact ⟨rfl, hbehind, ⟨times, rfl⟩, hwindow⟩
  | evaluate request context now =>
    have hclock : e.clock ≤ now := hclock
    have hclock' : clock' ≤ now := hbehind.trans hclock
    obtain ⟨hanswer, hafter⟩ := @evaluate_alike settings e.state request context now times
      (hwindow now hclock)
    simp only [EngineRun.after, EngineRun.step, if_pos hclock, if_pos hclock', Option.getD_some]
    refine ⟨congrArg some hanswer, ?_⟩
    rcases hafter with hsame | ⟨hstay, hstay'⟩
    · exact ⟨le_rfl, ⟨_, hsame⟩, fun _ _ => by rw [hsame]⟩
    · refine ⟨le_rfl, ⟨times, by rw [hstay, hstay']⟩, fun later hlater => ?_⟩
      rw [hstay, hstay']
      exact hwindow later (hclock.trans hlater)

/-- **A refused evaluation leaves the engine alike.** -/
theorem Alike.refused {e e' : EngineRun} {a : EngineAction} (h : Alike e e')
    (hclock : e.InOrder a) (hrefuses : e.Refuses settings a) : Alike (e.after settings a) e' := by
  obtain ⟨hbehind, hstate, hwindow⟩ := h
  cases a with
  | assign fields =>
    obtain ⟨_, hnone, -⟩ := hrefuses
    cases hnone
  | evaluate request context now =>
    obtain ⟨_, hsome, hno⟩ := hrefuses
    obtain rfl := Option.some.inj hsome
    have hclock : e.clock ≤ now := hclock
    have hevaluates : Evaluates settings e.state request context now
        (evaluate settings e.state request context now) := evaluate_evaluates
    simp only [EngineRun.after, EngineRun.step, if_pos hclock, Option.getD_some]
    generalize evaluate settings e.state request context now = r at hevaluates hno ⊢
    cases hevaluates with
    | refused answer _ =>
      exact ⟨hbehind.trans hclock, hstate, fun later hlater => hwindow later (hclock.trans hlater)⟩
    | refusedLate answer _ =>
      obtain ⟨times, hstate⟩ := hstate
      refine ⟨hbehind.trans hclock, ⟨times, hstate⟩, fun later hlater => ?_⟩
      exact (hwindow later (hclock.trans hlater)).trans (kept_kept hlater).symm
    | accepted price z _ _ => exact absurd (accept_accepts z) hno

/-! ### Runs -/

/-- What a run of marked calls has to meet: its clock does not go back, and a call that is
marked as inserted is an evaluation that is refused. -/
def EngineRun.Insertable (settings : RiskSettings) (e : EngineRun) (call : EngineAction × Bool) :
    Prop :=
  e.InOrder call.1 ∧ (call.2 = true → e.Refuses settings call.1)

instance (e : EngineRun) (call : EngineAction × Bool) : Decidable (e.Insertable settings call) :=
  inferInstanceAs (Decidable (_ ∧ (_ → _)))

/-- What the calls that are not marked are answered in a run. -/
def EngineRun.otherAnswers (settings : RiskSettings) (e : EngineRun)
    (calls : List (EngineAction × Bool)) : List (Option RiskEvaluation) :=
  answers (fun (e : EngineRun) call => e.after settings call.1)
    (fun e call => e.answer settings call.1) (fun call => call.2 = false) e calls

/-- **Refused calls make no difference to the others.**  Of a run whose clock does not go
back some calls are marked, each of which is refused itself.  The other calls have the same
answers in the run without the marked ones. -/
theorem rejected_calls_inert {calls : List (EngineAction × Bool)} {clock : Time}
    (h : Guarded (fun (e : EngineRun) (call : EngineAction × Bool) => e.after settings call.1)
      (EngineRun.Insertable settings) ⟨state, clock, []⟩ calls) :
    EngineRun.otherAnswers settings ⟨state, clock, []⟩ (calls.filter fun call => call.2 = false) =
      EngineRun.otherAnswers settings ⟨state, clock, []⟩ calls := by
  have hunwinds : Unwinds (fun (e : EngineRun) (call : EngineAction × Bool) =>
      e.after settings call.1) (fun e call => e.answer settings call.1)
      (EngineRun.Insertable settings) (fun call => call.2 = false) Alike := by
    refine ⟨fun halike hcall _ => ?_, fun halike hcall hmarked => ?_⟩
    · obtain ⟨hanswer, hnext⟩ := @Alike.step settings _ _ _ halike hcall.1
      exact ⟨hanswer.symm, hnext⟩
    · exact halike.refused hcall.1 (hcall.2 (Bool.eq_true_of_not_eq_false hmarked))
  exact (hunwinds.answers_filter calls (.refl _) h).symm

/-- In between two orders one is refused for the cooldown, which drops the old times, and
one for its key. -/
theorem rejected_calls_inert_between :
    let settings : RiskSettings := { orderCooldownSeconds := 30 }
    let calls : List (EngineAction × Bool) :=
      [(.evaluate (smallBuy "a") smallBuyContext 0, false),
        (.evaluate (smallBuy "b") smallBuyContext (seconds 29), true),
        (.evaluate (smallBuy "a") smallBuyContext (seconds 30), true),
        (.evaluate (smallBuy "b") smallBuyContext (seconds 31), false)]
    (EngineRun.otherAnswers settings ⟨{}, 0, []⟩ calls).all (fun answer =>
        answer.any fun evaluation => evaluation.Accepts) = true ∧
      EngineRun.otherAnswers settings ⟨{}, 0, []⟩ (calls.filter fun call => call.2 = false) =
        EngineRun.otherAnswers settings ⟨{}, 0, []⟩ calls := by
  intro settings calls
  exact ⟨by decide +kernel, rejected_calls_inert (by decide +kernel)⟩

end Risk

end Atlas
