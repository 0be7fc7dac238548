/-
RealTimeTrading.Rtts.Scoring.DecisionBounds — the ranges of the numbers a
decision carries.

They hold whatever the frame says, but for one: the confidence of a
decision may be that of the frame's reversal, so it is at most `1` if that
is.
-/
import RealTimeTrading.Rtts.Scoring.AdaptiveLoop

namespace RealTimeTrading.Rtts

open EdgeValidation (EdgeValidationEngine EdgeValidationSnapshot RegimeMemory)

/-- Between `0` and `1`. -/
def Unit01 (v : ℚ) : Prop := 0 ≤ v ∧ v ≤ 1

theorem unit01_clamp (v : ℚ) : Unit01 (clamp v 0 1) := ⟨le_clamp zero_le_one, clamp_le zero_le_one⟩

theorem Unit01.mul {v w : ℚ} (hv : Unit01 v) (hw : Unit01 w) : Unit01 (v * w) :=
  ⟨mul_nonneg hv.1 hw.1, mul_le_one₀ hv.2 hw.1 hw.2⟩

theorem Unit01.max {v w : ℚ} (hv : Unit01 v) (hw : Unit01 w) : Unit01 (max v w) :=
  ⟨hv.1.trans (le_max_left v w), max_le hv.2 hw.2⟩

/-- The ranges of a decision. -/
structure ScoredDecision.InRange (decision : ScoredDecision) : Prop where
  score : Unit01 decision.score
  confidence : Unit01 decision.confidence
  urgency : Unit01 decision.urgency
  adversarialRisk : Unit01 decision.adversarialRisk
  slippage : 0.1 ≤ decision.expectedSlippageBps ∧ decision.expectedSlippageBps ≤ 50
  duration : 80 ≤ decision.expectedDurationMs ∧ decision.expectedDurationMs ≤ 1500

namespace AdaptiveEngine

theorem expectedDuration_mem (regime : MarketRegime) (confidence tradeFrequency : ℚ) :
    80 ≤ expectedDuration regime confidence tradeFrequency ∧
      expectedDuration regime confidence tradeFrequency ≤ 1500 := by
  unfold expectedDuration
  dsimp only
  generalize (if 2.5 < regime.volatility then (180 : ℚ) else 450) /
    clamp (tradeFrequency / 40) 0.5 2.5 * (1.15 - confidence * 0.45) = v
  have hlow : (80 : ℤ) ≤ (clamp v 80 1500).floor :=
    Rat.le_floor_iff.mpr (by exact_mod_cast le_clamp (by norm_num))
  have hhigh : (clamp v 80 1500).floor ≤ 1500 := by
    have hle : ((clamp v 80 1500).floor : ℚ) ≤ 1500 :=
      (Rat.floor_le _).trans (clamp_le (by norm_num))
    exact_mod_cast hle
  omega

theorem unit01_edgeDegrade (edgeSnapshot : EdgeValidationSnapshot) :
    Unit01 (edgeDegrade edgeSnapshot) := by
  unfold edgeDegrade
  refine Unit01.mul ?_ ?_
  · cases edgeSnapshot.edgeState <;> constructor <;> norm_num
  · cases edgeSnapshot.competitionState <;> constructor <;> norm_num

/-- What a ready entry raises the urgency to. -/
theorem unit01_raised {base weight v : ℚ} (hbase : 0 ≤ base) (hweight : 0 ≤ weight)
    (hsum : base + weight ≤ 1) (hv : Unit01 v) : Unit01 (base + v * weight) := by
  have hpart : v * weight ≤ weight := mul_le_of_le_one_left hweight hv.2
  exact ⟨add_nonneg hbase (mul_nonneg hv.1 hweight), by linarith⟩

theorem scoreFrame_inRange (exp : ℚ → ℚ) (modelWeights : RuntimeModelWeights) (cfg : Config)
    (learning : LearningState) (frame : MicrostructureFrame) (previousScore : ℚ)
    (tradingDisabled : Bool) (edgeSnapshot : EdgeValidationSnapshot) (now : Nat)
    (hcompetition : Unit01 edgeSnapshot.competitionScore)
    (hreversal : frame.reversal.confidence ≤ 1) :
    (scoreFrame exp modelWeights cfg learning frame previousScore tradingDisabled edgeSnapshot
      now).InRange := by
  have hentry : Unit01 (EntryScoring.evaluate modelWeights.entryScoring frame edgeSnapshot).score ∧
      Unit01 (EntryScoring.evaluate modelWeights.entryScoring frame edgeSnapshot).confidence :=
    ⟨unit01_clamp _, unit01_clamp _⟩
  have hdiscount : Unit01 (1 - edgeSnapshot.competitionScore * 0.35) := by
    constructor <;> linarith [hcompetition.1, hcompetition.2]
  have hurgency : ∀ v, Unit01 (clamp v 0 1 * edgeDegrade edgeSnapshot *
      (1 - edgeSnapshot.competitionScore * 0.35)) := fun v =>
    ((unit01_clamp v).mul (unit01_edgeDegrade edgeSnapshot)).mul hdiscount
  unfold scoreFrame
  dsimp only
  exact {
    score := by
      dsimp only
      split_ifs <;> exact unit01_clamp _
    confidence := by
      dsimp only
      split_ifs
      · refine ⟨(unit01_clamp _).1.trans (le_max_left _ _), max_le (unit01_clamp _).2 ?_⟩
        exact max_le (max_le hentry.2.2 hreversal) (by norm_num)
      · exact (unit01_clamp _).max (hentry.2.max (by constructor <;> norm_num))
      · exact unit01_clamp _
    urgency := by
      dsimp only
      split_ifs
      · exact (hurgency _).max
          (unit01_raised (by norm_num) (by norm_num) (by norm_num) hentry.1)
      · exact (hurgency _).max
          (unit01_raised (by norm_num) (by norm_num) (by norm_num) hentry.1)
      · exact hurgency _
    adversarialRisk := unit01_clamp _
    slippage := ⟨le_clamp (by norm_num), clamp_le (by norm_num)⟩
    duration := expectedDuration_mem _ _ _ }

end AdaptiveEngine

/-- Every decision of the loop is in range. -/
theorem AdaptiveLoop.decide_inRange (exp sqrt : ℚ → ℚ) (modelWeights : RuntimeModelWeights)
    (cfg : RunConfig) (met : List RegimeMemory) (now : Nat) (s : AdaptiveLoop)
    {frame : MicrostructureFrame} (hreversal : frame.reversal.confidence ≤ 1) :
    (s.decide exp sqrt modelWeights cfg frame met now).InRange :=
  AdaptiveEngine.scoreFrame_inRange exp modelWeights cfg.toConfig _ frame _ _ _ now
    (unit01_clamp _) hreversal

end RealTimeTrading.Rtts
