import Atlas.Server.Settings

/-!
# The start of a process, and the gate before live trading

Before it serves anything, a process asserts that its settings are safe, and ends if they are
not.  There are four ways in which an environment can ask for live trading, and each of them
ends the start.  The gate before live orders goes through a checklist of its own; whatever the
checklist says, the gate does not open.

## Main definitions

* `SafetyGuard.assertPaperOnly`, `Settings.assertStartupSafe` — the assertions.
* `SafetyGuard.checkOrderIntent` — the check of an intent.
* `RawSettings.AsksForLive` — the environment asks for live trading.

## Main results

* `assertStartupSafe_ok_iff` — **a process starts exactly if its environment does not ask for
  live trading**, and then it trades on paper.
* `started_never_live` — **a process that has started does not trade live**.

## References

`app/core/config.py`, `app/core/runtime_mode.py`, `app/core/safety.py`,
`app/execution/live_gate.py`.
-/

namespace Atlas

namespace Server

variable (texts : Texts)

/-! ### The safety guard -/

/-- `LiveTradingDisabledError`. -/
structure LiveTradingDisabledError where
  detail : String
  deriving DecidableEq, Repr

/-- `SafetyGuard`. -/
structure SafetyGuard where
  settings : Settings
  deriving DecidableEq, Repr

/-- `assert_paper_only`. -/
def SafetyGuard.assertPaperOnly (guard : SafetyGuard) : Except LiveTradingDisabledError Unit :=
  if guard.settings.tradingMode ≠ .paper then
    .error ⟨"Only TRADING_MODE=paper is permitted in this milestone."⟩
  else if guard.settings.liveTradingEnabled then
    .error ⟨"ENABLE_LIVE_TRADING must remain false for the paper MVP."⟩
  else if guard.settings.runtimeMode texts = .live then
    .error ⟨"LIVE runtime is hard-blocked."⟩
  else .ok ()

/-- `assert_startup_safe`. -/
def Settings.assertStartupSafe (s : Settings) : Except LiveTradingDisabledError Unit := do
  SafetyGuard.assertPaperOnly texts ⟨s⟩
  if s.runtimeMode texts = .live ∨ s.exchangeEnv = .live then
    .error ⟨"LIVE execution is hard-disabled in this development phase. " ++
      "Keep ATLAS_RUNTIME_MODE=PAPER (or TESTNET) and " ++ "ENABLE_LIVE_TRADING=false."⟩
  else if s.tradingMode = .live then
    .error ⟨"TRADING_MODE=live is disabled. Keep TRADING_MODE=paper."⟩
  else .ok ()

structure SafetyDecision where
  allowed : Bool
  reason : String
  code : String
  deriving DecidableEq, Repr

inductive IntentError
  | liveTradingDisabled (error : LiveTradingDisabledError)
  /-- `Decimal(str(leverage))` raises. -/
  | invalidOperation
  deriving DecidableEq, Repr

/-- `market_type` names a market of derivatives. -/
def Derivative (marketType : Option String) : Prop :=
  let given := marketType.getD ""
  texts.strip (texts.lower (if given = "" then "spot" else given)) ∈
    ["future", "futures", "swap", "perpetual", "perp"]

/-- `action` names a withdrawal. -/
def Withdrawal (action : String) : Prop :=
  texts.strip (texts.lower action) ∈ ["withdraw", "withdrawal", "transfer_out"]

instance (marketType : Option String) : Decidable (Derivative texts marketType) :=
  inferInstanceAs (Decidable (_ ∈ _))

instance (action : String) : Decidable (Withdrawal texts action) :=
  inferInstanceAs (Decidable (_ ∈ _))

/-- `check_order_intent` after its assertion; nothing where `Decimal(str(leverage))` raises. -/
def decideIntent (marketType : Option String) (leverage : RawDecimal) (action : String) :
    Option SafetyDecision :=
  let blocked : SafetyDecision :=
    ⟨false, "Leverage must be 1x; leveraged trading is disabled", "LEVERAGE_BLOCKED"⟩
  if Derivative texts marketType then
    some ⟨false, "Futures trading is disabled in the paper MVP", "FUTURES_BLOCKED"⟩
  else if Withdrawal texts action then
    some ⟨false, "Withdrawals are disabled", "WITHDRAWALS_BLOCKED"⟩
  else
    match leverage with
    | .none | .invalid _ => none
    | .notFinite => some blocked
    | .finite d => some (if d = 1 then ⟨true, "paper spot order permitted", "OK"⟩ else blocked)

/-- `check_order_intent`. -/
def SafetyGuard.checkOrderIntent (guard : SafetyGuard) (marketType : Option String)
    (leverage : RawDecimal) (action : String) : Except IntentError SafetyDecision :=
  match guard.assertPaperOnly texts with
  | .error e => .error (.liveTradingDisabled e)
  | .ok () => (decideIntent texts marketType leverage action).elim (.error .invalidOperation) .ok

/-! ### The gate before live trading -/

/-- `LIVE_STARTUP_ACK_VALUE`. -/
def liveStartupAckValue : String := "I_UNDERSTAND_LIVE_TRADING_RISKS"

/-- `LIVE_CONDITIONS`. -/
inductive LiveCondition
  | tradingModeLive
  | liveTradingEnabled
  | liveStartupAck
  | killSwitchOff
  | validCredentials
  | riskEngineHealthy
  | marketDataHealthy
  | databaseHealthy
  | reconciliationHealthy
  | validLiveApprovalToken
  deriving DecidableEq, Repr

/-- The conditions in the order of the checklist. -/
def liveConditions : List LiveCondition :=
  [.tradingModeLive, .liveTradingEnabled, .liveStartupAck, .killSwitchOff, .validCredentials,
    .riskEngineHealthy, .marketDataHealthy, .databaseHealthy, .reconciliationHealthy,
    .validLiveApprovalToken]

/-- `LiveReadinessState`, as far as the gate reads it. -/
structure LiveReadinessState where
  riskEngineHealthy : Bool := true
  marketDataHealthy : Bool := true
  databaseHealthy : Bool := true
  reconciliationHealthy : Bool := true
  liveApprovalValid : Bool := false
  deriving DecidableEq, Repr

/-- `LiveTradingGate`. -/
structure LiveTradingGate where
  settings : Settings
  state : LiveReadinessState := {}
  deriving DecidableEq, Repr

/-- `LiveGateResult`; `details` repeats the checks. -/
structure LiveGateResult where
  allowed : Bool
  failedConditions : List LiveCondition
  reasonCode : Option RiskReasonCode
  details : List (LiveCondition × Bool)
  checklistComplete : Bool
  deriving DecidableEq, Repr

/-- `checks` of `evaluate`. -/
def LiveTradingGate.check (gate : LiveTradingGate) : LiveCondition → Bool
  | .tradingModeLive => gate.settings.tradingMode = .live
  | .liveTradingEnabled => gate.settings.liveTradingEnabled
  | .liveStartupAck => texts.strip gate.settings.liveStartupAck = liveStartupAckValue
  | .killSwitchOff => !gate.settings.killSwitchEnabled
  | .validCredentials => gate.settings.hasExchangeCredentials texts
  | .riskEngineHealthy => gate.state.riskEngineHealthy
  | .marketDataHealthy => gate.state.marketDataHealthy
  | .databaseHealthy => gate.state.databaseHealthy
  | .reconciliationHealthy => gate.state.reconciliationHealthy
  | .validLiveApprovalToken => gate.state.liveApprovalValid

/-- `_reason_for`. -/
def reasonFor : LiveCondition → RiskReasonCode
  | .tradingModeLive => .liveGatingIncomplete
  | .liveTradingEnabled => .liveTradingDisabled
  | .liveStartupAck => .liveGatingIncomplete
  | .killSwitchOff => .killSwitchActive
  | .validCredentials => .invalidCredentials
  | .riskEngineHealthy => .riskEngineUnhealthy
  | .marketDataHealthy => .marketDataUnhealthy
  | .databaseHealthy => .databaseUnhealthy
  | .reconciliationHealthy => .reconciliationUnhealthy
  | .validLiveApprovalToken => .invalidLiveApproval

/-- `LiveTradingGate.evaluate`. -/
def LiveTradingGate.evaluate (gate : LiveTradingGate) : LiveGateResult :=
  let failed := liveConditions.filter fun c => !gate.check texts c
  let details := liveConditions.map fun c => (c, gate.check texts c)
  match failed with
  | first :: _ =>
      { allowed := false
        failedConditions := failed
        reasonCode := some (reasonFor first)
        details := details
        checklistComplete := false }
  | [] =>
      { allowed := false
        failedConditions := []
        reasonCode := some .liveTradingDisabled
        details := details
        checklistComplete := true }

/-! ### The start -/

variable {texts}

/-- The text names the mode. -/
def Names (texts : Texts) (mode : String) (value : Option String) : Prop :=
  ∃ v ∈ value, texts.strip v ≠ "" ∧ texts.strip (texts.lower v) = mode

/-- `ATLAS_RUNTIME_MODE` is `LIVE`, read as often as it is. -/
def NamesLiveMode (texts : Texts) (value : Option String) : Prop :=
  ∃ v ∈ value, texts.strip v ≠ "" ∧ texts.strip (texts.upper (texts.strip v)) ≠ "" ∧
    texts.upper (texts.strip (texts.upper (texts.strip v))) = "LIVE"

/-- The environment asks for live trading in one of the four ways in which it can. -/
def RawSettings.AsksForLive (texts : Texts) (raw : RawSettings) : Prop :=
  Names texts "live" raw.tradingMode ∨ raw.liveTradingEnabled ∨
    NamesLiveMode texts raw.atlasRuntimeMode ∨
    Names texts "live" (raw.exchangeEnv <|> raw.exchangeTestnet)

/-- The settings are those of a process that trades on paper. -/
structure Settings.PaperOnly (texts : Texts) (s : Settings) : Prop where
  tradingMode : s.tradingMode = .paper
  live : s.liveTradingEnabled = false
  runtimeMode : s.runtimeMode texts ≠ .live
  exchangeEnv : s.exchangeEnv ≠ .live

theorem normalizeTradingMode_eq_live_iff {value : Option String} :
    normalizeTradingMode texts value = .live ↔ Names texts "live" value := by
  cases value with
  | none => simp [normalizeTradingMode, Names]
  | some v =>
    simp only [normalizeTradingMode, Names, Option.mem_some_iff, exists_eq_left']
    split <;> rename_i hblank
    · simp [hblank]
    split <;> rename_i hlive
    · simp [hblank, hlive]
    · simp [hlive]

theorem normalizeExchangeEnv_eq_live_iff {value : Option String} :
    normalizeExchangeEnv texts value = .live ↔ Names texts "live" value := by
  cases value with
  | none => simp [normalizeExchangeEnv, Names]
  | some v =>
    simp only [normalizeExchangeEnv, Names, Option.mem_some_iff, exists_eq_left']
    split <;> rename_i hblank
    · simp [hblank]
    split <;> rename_i hflag
    · simp only [reduceCtorEq, false_iff, not_and]
      rintro - hlive
      simp [hlive] at hflag
    split <;> rename_i htestnet
    · simp [htestnet]
    split <;> rename_i hlive
    · simp [hblank, hlive]
    split
    · simp [hlive]
    · simp [hlive]

/-- Where the trading mode is paper, only the explicit mode can be live. -/
theorem deriveRuntimeMode_eq_live_iff {value : Option String} {env : ExchangeEnv} :
    deriveRuntimeMode texts (normalizeRuntimeModeField texts value) .paper env = .live ↔
      NamesLiveMode texts value := by
  cases value with
  | none => cases env <;> simp [deriveRuntimeMode, normalizeRuntimeModeField, NamesLiveMode]
  | some v =>
    simp only [normalizeRuntimeModeField, NamesLiveMode, Option.mem_some_iff, exists_eq_left']
    by_cases hblank : texts.strip v = ""
    · cases env <;> simp [hblank, deriveRuntimeMode]
    rw [if_neg hblank]
    by_cases hkept : texts.strip (texts.upper (texts.strip v)) = ""
    · cases env <;> simp [hkept, deriveRuntimeMode]
    simp only [deriveRuntimeMode, Option.mem_some_iff, exists_eq_left', ne_eq, hkept,
      not_false_eq_true, if_true, normalizeRuntimeMode, hblank, true_and]
    generalize texts.upper (texts.strip (texts.upper (texts.strip v))) = mode
    by_cases hlive : mode = "LIVE"
    · subst hlive
      simp
    · simp only [hlive, if_false, iff_false]
      split
      · simp
      split <;> simp

/-- When the guard asserts nothing. -/
theorem assertPaperOnly_ok_iff {guard : SafetyGuard} :
    guard.assertPaperOnly texts = .ok () ↔ guard.settings.tradingMode = .paper ∧
      guard.settings.liveTradingEnabled = false ∧ guard.settings.runtimeMode texts ≠ .live := by
  unfold SafetyGuard.assertPaperOnly
  split <;> rename_i htrading
  · simp [htrading]
  split <;> rename_i hlive
  · simp [hlive]
  split <;> rename_i hmode
  · simp [hmode]
  · simp [not_not.mp htrading, hlive, hmode]

/-- The assertions together pass on the settings of a process that trades on paper, and on no
others. -/
theorem startsSafe_iff {s : Settings} :
    s.assertStartupSafe texts = .ok () ↔ s.PaperOnly texts := by
  simp only [Settings.assertStartupSafe, Except.bind_eq_ok]
  constructor
  · rintro ⟨_, hpaper, hrest⟩
    rw [assertPaperOnly_ok_iff] at hpaper
    obtain ⟨htrading, hlive, hmode⟩ := hpaper
    refine ⟨htrading, hlive, hmode, fun henv => ?_⟩
    simp [henv] at hrest
  · rintro ⟨htrading, hlive, hmode, henv⟩
    refine ⟨(), assertPaperOnly_ok_iff.mpr ⟨htrading, hlive, hmode⟩, ?_⟩
    rw [if_neg (by simp [hmode, henv]), if_neg (by simp [htrading])]

/-- **In which environments a process starts.**  It starts exactly if its environment does not
ask for live trading, and then its settings are those of a process that trades on paper. -/
theorem assertStartupSafe_ok_iff (texts : Texts) (raw : RawSettings) (s : Settings)
    (h : raw.load texts = .ok s) :
    (s.assertStartupSafe texts = .ok () ↔ ¬raw.AsksForLive texts) ∧
      (s.assertStartupSafe texts = .ok () → s.PaperOnly texts) := by
  obtain ⟨-, -, hreads⟩ := load_eq_ok h
  have hmode : s.tradingMode = .live ↔ Names texts "live" raw.tradingMode := by
    rw [hreads.tradingMode, normalizeTradingMode_eq_live_iff]
  have henv : s.exchangeEnv = .live ↔
      Names texts "live" (raw.exchangeEnv <|> raw.exchangeTestnet) := by
    rw [hreads.exchangeEnv, normalizeExchangeEnv_eq_live_iff]
  have hruntime (hpaper : s.tradingMode = .paper) :
      s.runtimeMode texts = .live ↔ NamesLiveMode texts raw.atlasRuntimeMode := by
    rw [Settings.runtimeMode, hpaper, hreads.runtimeMode, deriveRuntimeMode_eq_live_iff]
  rw [startsSafe_iff, RawSettings.AsksForLive, ← hmode, ← henv, ← hreads.live]
  refine ⟨?_, id⟩
  cases htrading : s.tradingMode with
  | live => simpa using fun hp : s.PaperOnly texts => by simpa [htrading] using hp.tradingMode
  | paper =>
    rw [← hruntime htrading]
    constructor
    · rintro ⟨-, hlive, hmode, henv⟩
      simp [hlive, hmode, henv]
    · intro hnot
      push Not at hnot
      exact ⟨htrading, by simpa using hnot.2.1, hnot.2.2.1, hnot.2.2.2⟩

/-- An environment of the testnet, with a mode that is not recognised. -/
def testnetEnvironment : RawSettings :=
  { tradingMode := some " Demo", exchangeTestnet := some "TRUE",
    supportedSymbols := some "ETH/USDT; SOL/USDT", maxDrawdown := .finite 10 }

/-- The process starts there. -/
theorem testnetEnvironment_starts : ∃ s, testnetEnvironment.load .ascii = .ok s ∧
    s.assertStartupSafe .ascii = .ok () := by
  have hstarts : ((testnetEnvironment.load .ascii).toOption.any fun s =>
      (s.assertStartupSafe .ascii).isOk) = true := by decide +kernel
  obtain ⟨s, hs, hok⟩ := (Option.any_eq_true ..).mp hstarts
  cases hload : testnetEnvironment.load .ascii with
  | error e => simp [hload, Except.toOption] at hs
  | ok s₀ =>
    cases hsafe : s₀.assertStartupSafe .ascii with
    | ok u => exact ⟨s₀, rfl, hsafe⟩
    | error e =>
      simp only [hload, Except.toOption, Option.some.injEq] at hs
      simp [← hs, hsafe, Except.isOk, Except.toBool] at hok

theorem testnetEnvironment_paperOnly : ∃ s, testnetEnvironment.load .ascii = .ok s ∧
    (¬testnetEnvironment.AsksForLive .ascii) ∧ s.PaperOnly .ascii := by
  obtain ⟨s, hload, hstart⟩ := testnetEnvironment_starts
  obtain ⟨hiff, hpaper⟩ := assertStartupSafe_ok_iff .ascii testnetEnvironment s hload
  exact ⟨s, hload, hiff.mp hstart, hpaper hstart⟩

/-! ### After the start -/

/-- The codes of a refusal that only live trading meets. -/
def LiveOnly (code : RiskReasonCode) : Prop :=
  code = .liveTradingDisabled ∨ code = .liveGatingIncomplete ∨ code = .invalidCredentials ∨
    code = .invalidLiveApproval

instance (code : RiskReasonCode) : Decidable (LiveOnly code) :=
  inferInstanceAs (Decidable (_ ∨ _ ∨ _ ∨ _))

/-- A refusal comes from one of the gates. -/
theorem code_of_firstRefusal {gates : List Risk.Gate} {e : RiskEvaluation}
    (hgates : ∀ g ∈ gates, ¬LiveOnly g.answer.reasonCode)
    (h : Risk.firstRefusal gates = some e) : ¬LiveOnly e.reasonCode := by
  obtain ⟨g, hg, rfl⟩ := Option.map_eq_some_iff.mp h
  exact hgates g (List.mem_of_find?_eq_some hg)

section Gates

variable {settings : RiskSettings} {state : RiskEngineState} {request : OrderRequest}
  {context : RiskContext} {now : Time}

theorem venueGates_code (hsettings : settings.tradingMode = .paper)
    (hcontext : context.tradingMode = .paper) :
    ∀ g ∈ Risk.venueGates settings state request context, ¬LiveOnly g.answer.reasonCode := by
  intro g hg
  simp only [Risk.venueGates, hsettings, hcontext, reduceCtorEq, or_self, if_false,
    List.append_nil, List.mem_append, List.mem_cons, List.not_mem_nil, or_false] at hg
  rcases hg with (rfl | rfl | rfl) | rfl | rfl | rfl | rfl | rfl | rfl <;>
    simp [Risk.rejectIf, Risk.haltIf, Risk.reject, Risk.halt, LiveOnly]

theorem requestGates_code :
    ∀ g ∈ Risk.requestGates settings state request context now,
      ¬LiveOnly g.answer.reasonCode := by
  intro g hg
  simp only [Risk.requestGates, List.mem_cons, List.not_mem_nil, or_false] at hg
  rcases hg with rfl | rfl | rfl | rfl | rfl | rfl <;>
    simp [Risk.rejectIf, Risk.reject, LiveOnly]

theorem sizeGates_code (price : ℚ) :
    ∀ g ∈ Risk.sizeGates settings request context price, ¬LiveOnly g.answer.reasonCode := by
  intro g hg
  unfold Risk.sizeGates at hg
  split at hg <;> simp only [List.mem_cons, List.not_mem_nil, or_false] at hg
  · rcases hg with rfl | rfl | rfl | rfl <;> simp [Risk.rejectIf, Risk.reject, LiveOnly]
  · subst hg
    simp [Risk.rejectIf, Risk.reject, LiveOnly]

theorem accountGates_code :
    ∀ g ∈ Risk.accountGates settings state request context now,
      ¬LiveOnly g.answer.reasonCode := by
  intro g hg
  simp only [Risk.accountGates, List.mem_cons, List.not_mem_nil, or_false] at hg
  rcases hg with rfl | rfl | rfl | rfl | rfl | rfl <;>
    simp [Risk.rejectIf, Risk.reject, LiveOnly]

/-- Where both modes are paper, an order never meets the gates of live trading. -/
theorem evaluate_code (hsettings : settings.tradingMode = .paper)
    (hcontext : context.tradingMode = .paper) :
    ¬LiveOnly (Risk.evaluate settings state request context now).1.reasonCode := by
  unfold Risk.evaluate
  split <;> rename_i hfirst
  · refine code_of_firstRefusal (fun g hg => ?_) hfirst
    rcases List.mem_append.mp hg with hg | hg
    · exact venueGates_code hsettings hcontext g hg
    · exact requestGates_code g hg
  split
  · simp [Risk.reject, LiveOnly]
  split
  · simp [Risk.reject, LiveOnly]
  split <;> rename_i hsize
  · exact code_of_firstRefusal (sizeGates_code _) hsize
  dsimp only
  split <;> rename_i haccount
  · exact code_of_firstRefusal accountGates_code haccount
  split <;> rename_i hsized
  · obtain ⟨code, hcode, message, rfl⟩ := Risk.approvedSize_error hsized
    have hcodes : ∀ c ∈ Risk.sizeCodes, ¬LiveOnly c := by decide
    exact hcodes code hcode
  · unfold Risk.accept
    split <;> simp [LiveOnly]

end Gates

/-- The guard asserts nothing on the settings of a process that trades on paper. -/
theorem Settings.PaperOnly.assertPaperOnly {s : Settings} (h : s.PaperOnly texts) :
    SafetyGuard.assertPaperOnly texts ⟨s⟩ = .ok () :=
  assertPaperOnly_ok_iff.mpr ⟨h.tradingMode, h.live, h.runtimeMode⟩

/-- Where the trading mode is paper and live trading is off, the gate names these two first. -/
theorem Settings.PaperOnly.failedConditions {s : Settings} (h : s.PaperOnly texts)
    (state : LiveReadinessState) :
    ∃ rest, (LiveTradingGate.evaluate texts ⟨s, state⟩) =
      { allowed := false
        failedConditions := .tradingModeLive :: .liveTradingEnabled :: rest
        reasonCode := some .liveGatingIncomplete
        details := liveConditions.map fun c => (c, LiveTradingGate.check texts ⟨s, state⟩ c)
        checklistComplete := false } := by
  have hmode : LiveTradingGate.check texts ⟨s, state⟩ .tradingModeLive = false := by
    simp [LiveTradingGate.check, h.tradingMode]
  have hlive : LiveTradingGate.check texts ⟨s, state⟩ .liveTradingEnabled = false := by
    simp [LiveTradingGate.check, h.live]
  obtain ⟨rest, hrest⟩ : ∃ rest, (liveConditions.filter fun c =>
      !LiveTradingGate.check texts ⟨s, state⟩ c) =
        .tradingModeLive :: .liveTradingEnabled :: rest := by
    rw [liveConditions, List.filter_cons_of_pos (by simp [hmode]),
      List.filter_cons_of_pos (by simp [hlive])]
    exact ⟨_, rfl⟩
  refine ⟨rest, ?_⟩
  simp only [LiveTradingGate.evaluate, hrest, reasonFor]

/-- Which intents are allowed. -/
theorem decideIntent_allowed_iff {marketType : Option String} {leverage : RawDecimal}
    {action : String} : (∃ d ∈ decideIntent texts marketType leverage action, d.allowed) ↔
      ¬Derivative texts marketType ∧ ¬Withdrawal texts action ∧ leverage = .finite 1 := by
  unfold decideIntent
  split <;> rename_i hmarket
  · simp [hmarket]
  split <;> rename_i haction
  · simp [haction]
  cases leverage with
  | none => simp
  | invalid r => simp
  | notFinite => simp
  | finite d =>
    by_cases hd : d = 1
    · simp [hd, hmarket, haction]
    · simp [hd]

/-- **A process that has started does not trade live.**  Its mode only simulates orders; whatever
its health, the gate before live orders stays shut with the checklist incomplete, for want of the
live mode first; no order meets the gates of live trading in the risk engine; and the guard
allows exactly the intents that are neither derivatives nor withdrawals, at a leverage of 1. -/
theorem started_never_live (texts : Texts) (s : Settings)
    (hstart : s.assertStartupSafe texts = .ok ()) :
    allowsSimulatedOrders (s.runtimeMode texts) ∧ ¬allowsLiveOrders (s.runtimeMode texts) ∧
      (∀ state, (LiveTradingGate.evaluate texts ⟨s, state⟩).allowed = false ∧
        (LiveTradingGate.evaluate texts ⟨s, state⟩).checklistComplete = false ∧
        (LiveTradingGate.evaluate texts ⟨s, state⟩).reasonCode = some .liveGatingIncomplete) ∧
      (∀ (settings : RiskSettings) (context : RiskContext), settings.tradingMode = s.tradingMode →
        context.tradingMode = s.tradingMode → ∀ state request now,
          ¬LiveOnly (Risk.evaluate settings state request context now).1.reasonCode) ∧
      ∀ marketType leverage action,
        (∃ d, SafetyGuard.checkOrderIntent texts ⟨s⟩ marketType leverage action = .ok d ∧
          d.allowed) ↔
        ¬Derivative texts marketType ∧ ¬Withdrawal texts action ∧ leverage = .finite 1 := by
  have hpaper := startsSafe_iff.mp hstart
  refine ⟨?_, ?_, fun state => ?_, fun settings context hsettings hcontext state request now => ?_,
    fun marketType leverage action => ?_⟩
  · have hmode := hpaper.runtimeMode
    revert hmode
    cases s.runtimeMode texts <;> decide
  · simpa [allowsLiveOrders] using hpaper.runtimeMode
  · obtain ⟨rest, hrest⟩ := hpaper.failedConditions state
    rw [hrest]
    exact ⟨rfl, rfl, rfl⟩
  · exact evaluate_code (hsettings.trans hpaper.tradingMode) (hcontext.trans hpaper.tradingMode)
  · rw [SafetyGuard.checkOrderIntent, hpaper.assertPaperOnly, ← decideIntent_allowed_iff]
    cases decideIntent texts marketType leverage action <;> simp

theorem testnetEnvironment_never_live : ∃ s, testnetEnvironment.load .ascii = .ok s ∧
    allowsSimulatedOrders (s.runtimeMode .ascii) := by
  obtain ⟨s, hload, hstart⟩ := testnetEnvironment_starts
  exact ⟨s, hload, (started_never_live .ascii s hstart).1⟩

end Server

end Atlas
