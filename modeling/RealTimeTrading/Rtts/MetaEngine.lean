/-
RealTimeTrading.Rtts.MetaEngine — `meta_engine.rs`, and the scores it asks
for: `scenario_simulator.rs`, `ev_calculator.rs`, `entry_quality.rs` and
`competition_model.rs`.

A rule of `evaluate` is a condition and a verdict; the first condition
that holds decides.
-/
import RealTimeTrading.Rtts.Types
import Mathlib.Algebra.BigOperators.Group.List.Basic

namespace RealTimeTrading.Rtts

/-! ## Scenarios -/

def notional (intent : OrderIntent) : ℚ := intent.request.size * intent.lastPrice

namespace ScenarioSimulator

def contextNoise : RegimeKind → ℚ
  | .newsShock => 0.45
  | .lowLiquidity => 0.24
  | .highVolatility => 0.15
  | .trendExpansion => -0.08
  | .normal => 0

def simulate (intent : OrderIntent) : List Scenario :=
  let notional := notional intent
  let edgeBps := max (intent.score - 0.5) 0 * 18
  let durationPenalty := min (intent.expectedDurationMs / 1000 : ℚ) 1.5
  let regimeNoise := intent.regime.volatility * 0.08 + intent.regime.spread * 0.015 +
    contextNoise intent.context.regime + (1 - intent.context.stabilityScore) * 0.12
  let continuationProb := clamp
    (0.34 + intent.score * 0.38 + intent.urgency * 0.10 - regimeNoise -
      intent.dataLatencyMs * 0.0004) 0.05 0.82
  let reversalProb := clamp
    (0.18 + (1 - intent.score) * 0.28 + intent.regime.volatility * 0.06 +
      intent.expectedSlippageBps * 0.012) 0.05 0.75
  let chopProb := clamp (1 - continuationProb - reversalProb) 0.05 0.75
  let total := continuationProb + reversalProb + chopProb
  let continuationPnl := notional * (edgeBps - intent.expectedSlippageBps) / 10000
  let reversalLossBps := max (edgeBps * 0.70 + intent.expectedSlippageBps * 1.8 + 4) 2
  let chopCostBps := intent.expectedSlippageBps + 1 + durationPenalty
  let scaleMultiplier := if intent.reason = .scaleIn then 1.25 else 1
  [{ name := .continuation
     probability := continuationProb / total
     expectedPnl := continuationPnl * scaleMultiplier
     risk := notional * (intent.expectedSlippageBps + 1) / 10000 },
   { name := .reversal
     probability := reversalProb / total
     expectedPnl := -notional * reversalLossBps / 10000
     risk := notional * reversalLossBps / 10000 },
   { name := .chop
     probability := chopProb / total
     expectedPnl := -notional * chopCostBps / 10000
     risk := notional * chopCostBps / 10000 }]

end ScenarioSimulator

structure EvResult where
  ev : ℚ
  adjustedEv : ℚ
  worstCaseLoss : ℚ

namespace EvCalculator

def calculate (scenarios : List Scenario) (expectedSlippageBps : ℚ) (latencyMs : Nat)
    (notional : ℚ) : EvResult :=
  let ev := (scenarios.map fun scenario => scenario.probability * scenario.expectedPnl).sum
  let worstCaseLoss :=
    |(scenarios.map fun scenario => scenario.expectedPnl - scenario.risk).foldl min 0|
  let slippageCost := notional * expectedSlippageBps / 10000
  let latencyCost := notional * min ((latencyMs : ℚ) * 0.002) 8 / 10000
  { ev := ev, adjustedEv := ev - slippageCost - latencyCost, worstCaseLoss := worstCaseLoss }

end EvCalculator

/-! ## Scores -/

namespace EntryQuality

def regimeModifier : RegimeKind → ℚ
  | .trendExpansion => 0.08
  | .normal => 0
  | .highVolatility => -0.06
  | .lowLiquidity => -0.16
  | .newsShock => -0.45

def score (intent : OrderIntent) : ℚ :=
  let sideSign : ℚ := match intent.request.side with
    | .buy => 1
    | .sell => -1
  let timing := clamp (intent.urgency * 0.55 + (1 - intent.dataLatencyMs / 250) * 0.45) 0 1
  let liquiditySupport := clamp (0.5 + intent.score * 0.25 - intent.regime.spread * 0.015) 0 1
  let orderflowAlignment := clamp (0.5 + sideSign * (intent.score - 0.5)) 0 1
  let latencyImpact := clamp (1 - intent.dataLatencyMs / 300) 0 1
  let slippageRisk := clamp
    (1 - intent.expectedSlippageBps / max intent.request.maxSlippageBps 1) 0 1
  let contextModifier := regimeModifier intent.context.regime +
    (intent.context.liquidityScore - 0.5) * 0.12 + (intent.context.stabilityScore - 0.5) * 0.16
  clamp (0.25 * timing + 0.22 * liquiditySupport + 0.23 * orderflowAlignment +
    0.15 * latencyImpact + 0.15 * slippageRisk + contextModifier) 0 1

end EntryQuality

namespace CompetitionModel

def regimePressure : RegimeKind → ℚ
  | .newsShock => 0.35
  | .trendExpansion => 0.14
  | .highVolatility => 0.10
  | .lowLiquidity => 0.18
  | .normal => 0

def observedCompetition : CompetitionState → ℚ
  | .normal => 0
  | .competitive => 0.18
  | .saturated => 0.40

def score (intent : OrderIntent) : ℚ :=
  let urgencyCrowding := intent.urgency * 0.32
  let shortDuration := clamp (1 - intent.expectedDurationMs / 800) 0 1 * 0.24
  let spreadSignal := clamp (1 - intent.regime.spread / 12) 0 1 * 0.18
  let latency := clamp (intent.dataLatencyMs / 250) 0 1 * 0.18
  let takerPenalty := if intent.request.orderType = .market then 0.08 else 0
  clamp (urgencyCrowding + shortDuration + spreadSignal + latency + takerPenalty +
    regimePressure intent.context.regime + observedCompetition intent.competitionState +
    intent.competitionScore * 0.35) 0 1

end CompetitionModel

/-! ## The meta engine -/

structure MetaState where
  recentExecuted : List Bool := []
  recentAdjustedEv : List ℚ := []
  skipped : Nat := 0
  executed : Nat := 0

structure Thresholds where
  ev : ℚ
  entryQuality : ℚ
  competition : ℚ
  opportunityRank : ℚ

namespace MetaEngine

def regimePenalty : RegimeKind → ℚ
  | .newsShock => 0.30
  | .lowLiquidity => 0.18
  | .highVolatility => 0.12
  | .trendExpansion => -0.04
  | .normal => 0

def edgePenalty : EdgeState → ℚ
  | .valid => 0
  | .uncertain => 0.08
  | .invalid => 0.20

def competitionPenalty : CompetitionState → ℚ
  | .normal => 0
  | .competitive => 0.08
  | .saturated => 0.18

/-- The last `n` values, newest first. -/
def newest {A : Type} (n : Nat) (values : List A) : List A := values.reverse.take n

def thresholds (cfg : Config) (state : MetaState) (intent : OrderIntent) : Thresholds :=
  let ddPressure : ℚ := if (newest 8 state.recentAdjustedEv).sum < 0 then 0.10 else 0
  let regimePenalty := regimePenalty intent.context.regime +
    (if 10 < intent.regime.spread ∨ 3 < intent.regime.volatility then 0.05 else 0) +
    edgePenalty intent.edgeState
  let reliabilityPenalty := clamp (1 - intent.edgeReliabilityScore) 0 1 * 0.12
  let competitionPenalty := competitionPenalty intent.competitionState
  { ev := cfg.baseOrderUsd * 0.00015 + ddPressure + reliabilityPenalty + competitionPenalty
    entryQuality := clamp
      (0.58 + regimePenalty + ddPressure * 0.5 + reliabilityPenalty + competitionPenalty) 0.50 0.92
    competition := clamp
      (0.78 - regimePenalty * 0.7 - intent.edgeReliabilityScore * 0.08 - competitionPenalty * 0.5)
      0.35 0.84
    opportunityRank := clamp
      (0.52 + regimePenalty + reliabilityPenalty + competitionPenalty) 0.45 0.88 }

def opportunityRank (state : MetaState) (adjustedEv entryQuality competition : ℚ) : ℚ :=
  let pendingQuality := (newest 6 state.recentAdjustedEv).foldl max 0
  let relativeEv :=
    if 0 < pendingQuality then clamp (adjustedEv / max pendingQuality 1e-9) 0 1.5 / 1.5 else 0.65
  clamp (0.45 * entryQuality + 0.35 * relativeEv + 0.20 * (1 - competition)) 0 1

def recentSuccessRate (state : MetaState) : ℚ :=
  if state.recentExecuted.isEmpty then 0.50
  else (state.recentExecuted.filter id).length / state.recentExecuted.length

def evResult (intent : OrderIntent) : EvResult :=
  EvCalculator.calculate (ScenarioSimulator.simulate intent) intent.expectedSlippageBps
    intent.dataLatencyMs (notional intent)

/-- The chain of rules. -/
def verdict (cfg : Config) (state : MetaState) (intent : OrderIntent) : FinalDecision × String :=
  let ev := evResult intent
  let entryQuality := EntryQuality.score intent
  let competitionScore := CompetitionModel.score intent
  let thresholds := thresholds cfg state intent
  if intent.edgeState = .invalid then (.skip, "edge_invalid_halt")
  else if intent.competitionState = .saturated then (.skip, "competition_saturated")
  else if intent.context.regime = .newsShock then (.skip, "news_shock_block")
  else if intent.context.regime = .lowLiquidity ∧ intent.request.reduceOnly = false then
    (.skip, "low_liquidity_no_new_risk")
  else if intent.context.stabilityScore < 0.30 then (.skip, "unstable_context")
  else if 18 < intent.regime.spread then (.skip, "spread_too_wide")
  else if 4.2 < intent.regime.volatility ∧ intent.regime.trendStrength < 0.8 then
    (.skip, "toxic_volatility")
  else if recentSuccessRate state < 0.38 ∧ 12 ≤ state.recentExecuted.length then
    (.skip, "recent_hit_rate_low")
  else if cfg.capital * cfg.maxRiskPct * 1.4 < ev.worstCaseLoss then
    (.skip, "worst_case_too_large")
  else if intent.edgeState = .uncertain ∧ intent.edgeReliabilityScore < 0.55 then
    (.wait, "edge_uncertain_degrade")
  else if intent.competitionState = .competitive ∧
      thresholds.competition * 0.88 < competitionScore then
    (.wait, "competition_degrade")
  else if ev.adjustedEv ≤ thresholds.ev then (.skip, "negative_or_weak_ev")
  else if entryQuality ≤ thresholds.entryQuality then (.skip, "poor_entry_quality")
  else if thresholds.competition ≤ competitionScore then (.skip, "opportunity_consumed")
  else if opportunityRank state ev.adjustedEv entryQuality competitionScore <
      thresholds.opportunityRank then
    (.wait, "rank_wait")
  else if intent.urgency < 0.55 ∧ 120 < intent.expectedDurationMs then (.wait, "needs_confirmation")
  else (.execute, "edge_validated")

def evaluate (cfg : Config) (state : MetaState) (intent : OrderIntent) : MetaDecision :=
  let ev := evResult intent
  let entryQuality := EntryQuality.score intent
  let competitionScore := CompetitionModel.score intent
  { decision := (verdict cfg state intent).1
    scenarios := ScenarioSimulator.simulate intent
    ev := ev.ev
    adjustedEv := ev.adjustedEv
    worstCaseLoss := ev.worstCaseLoss
    entryQuality := entryQuality
    competitionScore := competitionScore
    opportunityRank := opportunityRank state ev.adjustedEv entryQuality competitionScore
    reason := (verdict cfg state intent).2 }

/-- The second look at an intent that was told to wait; the state is the same. -/
def confirm (first refreshed : MetaDecision) : MetaDecision :=
  if refreshed.adjustedEv < first.adjustedEv * 0.85 ∨
      refreshed.entryQuality < first.entryQuality * 0.92 ∨
      first.competitionScore + 0.12 < refreshed.competitionScore then
    { refreshed with decision := .skip, reason := "confirmation_decay" }
  else { refreshed with decision := .execute, reason := "confirmed_edge" }

def observe (decided : MetaDecision) (state : MetaState) : MetaState :=
  let capped {A : Type} (values : List A) : List A :=
    if 64 < values.length then values.tail else values
  { state with
    recentAdjustedEv := capped (state.recentAdjustedEv ++ [decided.adjustedEv])
    recentExecuted :=
      if decided.decision = .execute then
        capped (state.recentExecuted ++ [decide (0 < decided.adjustedEv)])
      else state.recentExecuted }

/-- One turn of `run`: the intent that is passed on, if any, and the new state. -/
def handle (cfg : Config) (state : MetaState) (intent : OrderIntent) :
    Option OrderIntent × MetaState :=
  let first := evaluate cfg state intent
  let decided := if first.decision = .wait then confirm first (evaluate cfg state intent) else first
  let state := observe decided state
  match decided.decision with
  | .execute =>
    (some { intent with metaDecision := some decided },
      { state with executed := state.executed + 1 })
  | _ => (none, { state with skipped := state.skipped + 1 })

end MetaEngine

end RealTimeTrading.Rtts
