import Atlas.Paper.Sound
import Atlas.Session.Session

/-!
# How a session moves its ledger

The session changes the ledger only through the operations of the paper engine.  An
invariant of the operations is therefore one of the session: what the operations of a
part of the session meet is said once for each part, and the invariant is carried
along.

## Main definitions

* `Moves cfg P s s'` — the ledger goes from `s` to `s'` by operations that meet `P`.

## Main results

* `Moves.invariant` — what the operations keep, the moves keep.
* `submit_moves` — **an order of the session moves the ledger** by marks and by the
  submission of the request the gateway sends on.

## References

`app/services/paper_session.py`, `app/execution/gateway.py`.
-/

namespace Atlas

namespace Session

variable {settings : RiskSettings} {cfg : PaperConfig} {P : Paper.Op → Prop}

/-- The ledger goes from `s` to `s'` by operations that meet `P`. -/
def Moves (cfg : PaperConfig) (P : Paper.Op → Prop) : PaperState → PaperState → Prop :=
  Relation.ReflTransGen fun s s' => ∃ op, P op ∧ s' = Paper.step cfg s op

theorem Moves.refl (s : PaperState) : Moves cfg P s s := Relation.ReflTransGen.refl

theorem Moves.trans {s₁ s₂ s₃ : PaperState} (h₁ : Moves cfg P s₁ s₂) (h₂ : Moves cfg P s₂ s₃) :
    Moves cfg P s₁ s₃ := Relation.ReflTransGen.trans h₁ h₂

theorem Moves.op (s : PaperState) (op : Paper.Op) (hop : P op) :
    Moves cfg P s (Paper.step cfg s op) := .single ⟨op, hop, rfl⟩

/-- **What the operations keep, the moves keep.** -/
theorem Moves.invariant {I : PaperState → Prop} {s s' : PaperState} (h : Moves cfg P s s')
    (hI : ∀ {s op}, P op → I s → I (Paper.step cfg s op)) (hs : I s) : I s' := by
  induction h with
  | refl => exact hs
  | tail _ hop ih =>
    obtain ⟨op, hop, rfl⟩ := hop
    exact hI hop ih

theorem Moves.sound {s s' : PaperState} (h : Moves cfg Paper.Op.Valid s s') (hs : Paper.Sound s) :
    Paper.Sound s' := h.invariant (fun hop hs => Paper.Sound.step hs hop) hs

theorem mark_moves (hmark : ∀ symbol price now, P (.setMarkPrice symbol price now)) {s : Session}
    {paper : PaperState} (hs : s.paper = paper) (symbol : String) (around : Surroundings) :
    Moves cfg P paper (mark cfg s symbol around).2.paper := by
  subst hs
  unfold mark
  split
  · exact .refl s.paper
  · exact .op s.paper (.setMarkPrice ..) (hmark symbol around.seriesMark around.now)

theorem riskContext_moves (hmark : ∀ symbol price now, P (.setMarkPrice symbol price now))
    (s : Session) (symbol : String) (around : Surroundings) :
    Moves cfg P s.paper (riskContext settings cfg s symbol around).2.paper := by
  simp only [riskContext, portfolioState, raisePeak]
  refine mark_moves hmark ?_ symbol around
  rfl

theorem gatewaySubmit_moves {request : OrderRequest} {around : Surroundings}
    (hsubmit : ∀ e, P (.submit (approvedRequest request e) e around.roll around.now)) (s : Session)
    (context : RiskContext) :
    Moves cfg P s.paper (gatewaySubmit settings cfg s request context around).2.2.paper := by
  simp only [gatewaySubmit]
  split_ifs
  · exact .refl s.paper
  · exact .op s.paper (.submit ..) (hsubmit _)

theorem approvedRequest_symbol (request : OrderRequest) (evaluation : RiskEvaluation) :
    (approvedRequest request evaluation).symbol = request.symbol ∧
      (approvedRequest request evaluation).metadata = request.metadata := by
  unfold approvedRequest
  split <;> exact ⟨rfl, rfl⟩

theorem countSale_paper (s : Session) (order : Option Order) (realizedBefore : ℚ) :
    (countSale s order realizedBefore).paper = s.paper := by
  unfold countSale
  split_ifs <;> rfl

/-- **An order of the session moves the ledger** by marks and by the submission of the
request the gateway sends on. -/
theorem submit_moves {args : OrderArgs} {key : String} {around : Surroundings}
    (hmark : ∀ symbol price now, P (.setMarkPrice symbol price now))
    (hsubmit : ∀ e, P (.submit (approvedRequest (args.request key) e) e around.roll around.now))
    (s : Session) : Moves cfg P s.paper (submit settings cfg s args key around).2.2.paper := by
  simp only [submit, raisePeak, countSale_paper]
  exact (riskContext_moves hmark s args.symbol around).trans (gatewaySubmit_moves hsubmit _ _)

/-- The operations of an order of the session are valid. -/
theorem submit_moves_valid (args : OrderArgs) (key : String) (around : Surroundings)
    (s : Session) :
    Moves cfg Paper.Op.Valid s.paper (submit settings cfg s args key around).2.2.paper := by
  refine submit_moves (fun _ _ _ => trivial) (fun e => ?_) s
  rw [Paper.Op.Valid, (approvedRequest_symbol _ e).2]
  exact ⟨rfl, rfl, rfl⟩

end Session

end Atlas
