/-
RealTimeTrading.Wire.DecisionGate — execution requests on their way from
the trading loop to the risk service.

`Evaluate` refuses a request as `not_execute_decision` exactly when kill
switch and breaker are off and the decision is not spelled `Execute`
(`Service.decision_deniedAs_iff`). Submissions spell it so, exits do not:
a run of the loop gets all its requests through this gate exactly when it
asks for no exit (`requests_pass_iff`).

A payload travels as JSON under the field names both sides share. A
timestamp is one that both sides can write.
-/
import RealTimeTrading.Rtts.ControllerTheorems
import RealTimeTrading.Rtts.ForcedExit
import RealTimeTrading.ControlPlane.Schedule
import RealTimeTrading.ControlPlane.Risk.Gate

namespace RealTimeTrading

/-! ## The gate -/

namespace ControlPlane

def DeniedAs (reason : String) (d : RiskDecision) : Prop := d.allowed = false ∧ d.reason = reason

instance (reason : String) (d : RiskDecision) : Decidable (DeniedAs reason d) := by
  unfold DeniedAs; infer_instance

namespace Service

variable {s : Service} {reason : String} {rest : RiskDecision}

/-- A rule that denies for another reason is not what a denial comes from. -/
theorem deniedAs_rule (c : Prop) [Decidable c] {other : String} (hother : other ≠ reason)
    (score : ℚ) (category : FailureCategory) (conf : ℚ) :
    DeniedAs reason (if c then s.deny score other category conf else rest) ↔
      ¬ c ∧ DeniedAs reason rest := by
  by_cases h : c
  · simp [h, DeniedAs, deny, hother]
  · simp [h]

section NotDenied

variable {d : RiskDecision}

theorem not_deniedAs_of_reason (h : d.reason ≠ reason) : ¬DeniedAs reason d :=
  fun hdenied => h hdenied.2

theorem not_deniedAs_of_allowed (h : d.allowed = true) : ¬DeniedAs reason d :=
  fun hdenied => Bool.false_ne_true (hdenied.1.symm.trans h)

theorem not_deniedAs_ite (c : Prop) [Decidable c] (hd : ¬DeniedAs reason d)
    (hrest : ¬DeniedAs reason rest) : ¬DeniedAs reason (if c then d else rest) := by
  split_ifs
  · exact hd
  · exact hrest

end NotDenied

/-- The engine's own denials are for other reasons. -/
theorem intelligence_not_deniedAs (exp : ℚ → ℚ) (now : Time) (req : ExecutionRequest)
    {base : RiskDecision} (hbase : base.allowed = true) (e : IntelligenceEngine) :
    ¬ DeniedAs "not_execute_decision" (e.evaluate exp now req base) := by
  have hstress : "system_stress_open" ≠ "not_execute_decision" := by decide
  have hmarkout : "expected_real_markout_below_threshold" ≠ "not_execute_decision" := by decide
  have hhostile : "hostile_execution_regime" ≠ "not_execute_decision" := by decide
  have hcontaminated : "execution_truth_contaminated" ≠ "not_execute_decision" := by decide
  have hzero : "risk_multiplier_zero" ≠ "not_execute_decision" := by decide
  unfold IntelligenceEngine.evaluate
  refine not_deniedAs_ite _ (not_deniedAs_of_allowed hbase) ?_
  refine not_deniedAs_ite _ (not_deniedAs_of_reason hstress) ?_
  refine not_deniedAs_ite _ (not_deniedAs_of_reason hmarkout) ?_
  refine not_deniedAs_ite _ (not_deniedAs_of_reason hhostile) ?_
  refine not_deniedAs_ite _ (not_deniedAs_of_reason hcontaminated) ?_
  refine not_deniedAs_ite _ (not_deniedAs_of_reason hzero) ?_
  exact not_deniedAs_of_allowed rfl

theorem decision_deniedAs_iff (exp : ℚ → ℚ) (now now' : Time) (store : Store)
    (req : ExecutionRequest) (s : Service) :
    DeniedAs "not_execute_decision" (s.decision exp now now' store req) ↔
      s.kill = false ∧ s.forcedBreaker = false ∧ req.decision ≠ .execute := by
  have hlater : ∀ price : ℚ, ∀ base : RiskDecision, base.allowed = true →
      ¬ DeniedAs "not_execute_decision"
        (s.intelligence.evaluate exp now' { req with price := some price } base) :=
    fun price base hbase => intelligence_not_deniedAs exp now' _ hbase s.intelligence
  simp only [decision]
  rw [deniedAs_rule _ (by decide), deniedAs_rule _ (by decide), Bool.not_eq_true, Bool.not_eq_true]
  by_cases hexecute : req.decision = .execute
  · rw [if_neg (not_not.mpr hexecute), deniedAs_rule _ (by decide), deniedAs_rule _ (by decide),
      deniedAs_rule _ (by decide), deniedAs_rule _ (by decide), deniedAs_rule _ (by decide),
      deniedAs_rule _ (by decide), deniedAs_rule _ (by decide)]
    constructor
    · rintro ⟨-, -, -, -, -, -, -, -, -, hdenied⟩
      exact absurd hdenied (hlater _ _ rfl)
    · rintro ⟨-, -, hother⟩
      exact absurd hexecute hother
  · rw [if_pos hexecute]
    exact and_congr_right fun _ => and_congr_right fun _ =>
      iff_of_true ⟨rfl, rfl⟩ hexecute

end Service

end ControlPlane

/-! ## The payload -/

namespace Wire

open Rtts (ControlPlaneExecutionRequest Post Turn ExecutionInstruction Controllers Config
  SymbolProfile ControllerInput)
open ControlPlane (Time Store Service)

/-- The payload, as the JSON decoder of the control plane reads it. -/
def decode (request : ControlPlaneExecutionRequest) : ControlPlane.ExecutionRequest :=
  { idempotencyKey := request.idempotencyKey
    symbol := request.symbol
    side := .ofString request.side
    size := request.size
    price := request.price
    decision := .ofString request.decision
    signalTime := .ofUnixMilli request.signalTime
    maxSlippageBps := request.maxSlippageBps
    reduceOnly := request.reduceOnly
    requestTime := .ofUnixMilli request.requestTimestamp
    expectedRealizedMarkout := request.expectedRealizedMarkout
    regimeKind := request.regimeKind
    regimeVolatility := request.regimeVolatility
    regimeSpread := request.regimeSpread
    regimeTrendStrength := request.regimeTrendStrength }

/-- `executionRequest` of `server.go`: what is handed to `Submit`. -/
def executionRequest (now : Time) (request : ControlPlaneExecutionRequest) :
    ControlPlane.ExecutionRequest :=
  let req := decode request
  if req.signalTime.isZero then { req with signalTime := now } else req

/-- No count of milliseconds from 1970 on is Go's zero time. -/
theorem executionRequest_eq (now : Time) (request : ControlPlaneExecutionRequest) :
    executionRequest now request = decode request := by
  have hsignal : (decode request).signalTime ≠ 0 := by
    show (62135596800 * 1000000000 + (request.signalTime : ℤ) * 1000000 : ℤ) ≠ 0
    omega
  have hset : (decode request).signalTime.isZero = false := decide_eq_false hsignal
  simp only [executionRequest, hset, Bool.false_eq_true, if_false]

/-- The gate lets the request through: with kill switch and breakers off, a
fresh signal and a positive size, it is not denied as `not_execute_decision`. -/
def PassesDecisionGate (exp : ℚ → ℚ) (request : ControlPlaneExecutionRequest) : Prop :=
  ∀ (service : Service) (store : Store) (now now' : Time),
    service.kill = false → service.forcedBreaker = false →
    now - (decode request).signalTime ≤ service.cfg.maxSignalAge → 0 < (decode request).size →
    ¬ ControlPlane.DeniedAs "not_execute_decision"
      (service.evaluate exp now now' store (decode request)).1

theorem passes_of_execute (exp : ℚ → ℚ) {request : ControlPlaneExecutionRequest}
    (hdecision : request.decision = "Execute") : PassesDecisionGate exp request := by
  intro service store now now' _ _ _ _ hdenied
  rw [Service.evaluate_fst, Service.decision_deniedAs_iff] at hdenied
  exact hdenied.2.2 (by simp only [decode, hdecision]; rfl)

theorem not_passes_of_exit (exp : ℚ → ℚ) {request : ControlPlaneExecutionRequest}
    (hdecision : request.decision = "Exit") (hsize : 0 < request.size) :
    ¬ PassesDecisionGate exp request := by
  intro hpasses
  refine hpasses (.newService ⟨0, 0, 0, 0, 0⟩) {} (decode request).signalTime 0 rfl rfl
    (sub_self _).le hsize ?_
  rw [Service.evaluate_fst, Service.decision_deniedAs_iff]
  exact ⟨rfl, rfl, by simp only [decode, hdecision]; decide⟩

/-! ## What is posted -/

theorem submit_decision {cfg : Config} {now now' : Nat} {instruction : ExecutionInstruction}
    {profile : SymbolProfile} {request : ControlPlaneExecutionRequest}
    (hpost : (Rtts.handleInstruction cfg now now' instruction profile).1 = some (.request request))
    (hnoExit : instruction.isExit = false) : request.decision = "Execute" := by
  cases instruction with
  | submit i key =>
    simp only [Rtts.handleInstruction] at hpost
    split_ifs at hpost
    obtain rfl := Post.request.inj (Option.some.inj hpost)
    rfl
  | exitPosition => cases hnoExit
  | _ => simp [Rtts.handleInstruction] at hpost

theorem exit_post {cfg : Config} {now now' : Nat} {instruction : ExecutionInstruction}
    (hexit : instruction.isExit = true) (profile : SymbolProfile) :
    ∃ orderId symbol side size price reason,
      instruction = .exitPosition orderId symbol side size price reason ∧
      (Rtts.handleInstruction cfg now now' instruction profile).1 =
        some (.request (Rtts.exitRequest orderId symbol side size price now now')) := by
  cases instruction with
  | exitPosition orderId symbol side size price reason =>
    exact ⟨orderId, symbol, side, size, price, reason, rfl, rfl⟩
  | _ => cases hexit

/-- The loop receives what the controllers send, where the channel has not
dropped it: all its requests pass the gate if and only if none is an exit. -/
theorem requests_pass_iff (exp : ℚ → ℚ) (cfg : Config) (inputs : List ControllerInput)
    (profile : SymbolProfile) {turns : List Turn}
    (hreceived : (turns.map Turn.instruction).Sublist (Controllers.run cfg inputs).1) :
    (∀ request, Post.request request ∈ Rtts.posts cfg profile turns →
        PassesDecisionGate exp request) ↔
      ∀ turn ∈ turns, turn.instruction.isExit = false := by
  constructor
  · intro hpass turn hturn
    by_contra hnot
    have hexit : turn.instruction.isExit = true := by simpa using hnot
    obtain ⟨before, after, rfl⟩ := List.append_of_mem hturn
    obtain ⟨orderId, symbol, side, size, price, reason, hinstruction, hpost⟩ :=
      exit_post hexit (Concurrency.emit (Rtts.handleTurn cfg) profile before).2
    have hsent : turn.instruction ∈ (Controllers.run cfg inputs).1 :=
      hreceived.subset (List.mem_map.mpr ⟨turn, hturn, rfl⟩)
    rw [hinstruction] at hsent
    have hsize :
        0 < (Rtts.exitRequest orderId symbol side size price turn.now turn.now').size :=
      Controllers.exit_size_pos hsent
    refine not_passes_of_exit exp rfl hsize (hpass _ ?_)
    exact Rtts.mem_posts_iff.mpr ⟨before, turn, after, rfl, hpost⟩
  · intro hnoExit request hmem
    obtain ⟨before, turn, after, rfl, hpost⟩ := Rtts.mem_posts_iff.mp hmem
    exact passes_of_execute exp (submit_decision hpost (hnoExit turn (by simp)))

/-! ## A partial fill under stress -/

namespace Toxic

def order : Rtts.OrderIntent := Rtts.intent {} .buy 1 false Rtts.Desk.calmSignal {}

/-- Part of the order is filled, and the fill counts as toxic. -/
def fill : Rtts.ExecutionControllerEvent :=
  { orderId := "id-1"
    idempotencyKey := some "BTCUSDT-1000-buy"
    symbol := "BTCUSDT"
    status := .partially
    filledQtyDelta := 0.4
    cumulativeFilledQty := 0.4
    remainingQty := 0.6
    partialFillRatio := 0.4
    slippageBps := 2
    competitionFlag := .partialFillToxicity
    latencyUs := 900
    eventTs := 1050 }

def inputs : List ControllerInput := [.order order, .execution fill]

def profile : SymbolProfile := { symbol := "BTCUSDT" }

def turns : List Turn :=
  (Controllers.run {} inputs).1.map fun instruction => ⟨instruction, 1060, 1061⟩

theorem turns_received : (turns.map Turn.instruction).Sublist (Controllers.run {} inputs).1 := by
  have hsame : turns.map Turn.instruction = (Controllers.run {} inputs).1 := by
    simp [turns, Function.comp_def]
  rw [hsame]

def exit : ControlPlaneExecutionRequest :=
  Rtts.exitRequest "id-1" "BTCUSDT" .sell 0.4 (some 100.01) 1060 1061

theorem exit_posted : Post.request exit ∈ Rtts.posts {} profile turns := by decide +kernel

/-- The exit of what was filled is posted and refused. -/
theorem exit_refused :
    ¬ ∀ request, Post.request request ∈ Rtts.posts {} profile turns →
      PassesDecisionGate ControlPlane.Desk.expCubic request :=
  fun hpass => not_passes_of_exit _ rfl (by decide +kernel) (hpass exit exit_posted)

theorem requests_pass_iff_toxic :
    (∀ request, Post.request request ∈ Rtts.posts {} profile turns →
        PassesDecisionGate ControlPlane.Desk.expCubic request) ↔
      ∀ turn ∈ turns, turn.instruction.isExit = false :=
  requests_pass_iff _ {} inputs profile turns_received

end Toxic

end Wire

end RealTimeTrading
