/-
RealTimeTrading.Rtts.Scoring.Learning — `LearningState::apply_sample` of
`learning.rs`: what the adaptive engine makes of a trade that is over.

Weights and threshold move in small steps and stop at their bounds
(`Sound`, kept by every sample). The threshold never reaches the floor it
is clamped to when it is asked for (`thresholdIn_mem`). Samples are counted
up to the largest number of their type, and so are the losses since the
last win (`consecutiveLosses_after`).
-/
import RealTimeTrading.Rtts.ExecutionTruth
import RealTimeTrading.Rtts.Scoring.AdaptiveEngine

namespace RealTimeTrading.Rtts

/-- The whole of `LearningState`. -/
structure Learner extends LearningState where
  entryQualityEma : ℚ := 0.55
  durationEmaMs : ℚ := 250
  scalingAggressiveness : ℚ := 1
  consecutiveLosses : Nat := 0
  samples : Nat := 0

namespace Learner

def adjust (value delta : ℚ) : ℚ := clamp (value + delta) 0.25 2.50

/-- `alpha`. -/
def rate : ℚ := 0.04

def ema (average value : ℚ) : ℚ := (1 - rate) * average + rate * value

/-- The averages and the counts. -/
def average (sample : TruthSample) (s : Learner) : Learner :=
  { s with
    samples := saturatingAddUsize s.samples 1
    hitRate := ema s.hitRate (if 0 < sample.pnl then 1 else 0)
    slippageErrorBps :=
      ema s.slippageErrorBps (sample.actualSlippageBps - sample.expectedSlippageBps)
    entryQualityEma := ema s.entryQualityEma sample.entryQuality
    durationEmaMs := ema s.durationEmaMs sample.durationMs }

def onWin (sample : TruthSample) (s : Learner) : Learner :=
  { s with
    consecutiveLosses := 0
    threshold := max (s.threshold - 0.003) 0.66
    scalingAggressiveness :=
      if 0.70 < sample.entryQuality ∧ sample.durationMs < 750 then
        adjust s.scalingAggressiveness 0.01
      else s.scalingAggressiveness }

def onLoss (s : Learner) : Learner :=
  { s with
    consecutiveLosses := saturatingAddU32 s.consecutiveLosses 1
    threshold := min (s.threshold + 0.012) 0.86
    scalingAggressiveness := adjust s.scalingAggressiveness (-0.025) }

/-- The weights move with the reward, and against slippage and volatility. -/
def reweigh (sample : TruthSample) (s : Learner) : Learner :=
  let reward : ℚ := if 0 < sample.pnl then 1 else -1
  let size := 0.015 * reward * clamp sample.confidence 0.1 1
  let slipped := sample.expectedSlippageBps + 2 < sample.actualSlippageBps
  let weights := s.weights
  { s with
    weights :=
      { velocity := adjust weights.velocity size
        orderflow := adjust weights.orderflow (size * 0.8)
        imbalance := adjust weights.imbalance (size * 0.6)
        spread := if slipped then adjust weights.spread 0.02 else weights.spread
        liquidity := if slipped then adjust weights.liquidity 0.015 else weights.liquidity
        adversarial :=
          if 3 < sample.regime.volatility ∧ sample.pnl ≤ 0 then adjust weights.adversarial 0.025
          else weights.adversarial }
    scalingAggressiveness :=
      if slipped then adjust s.scalingAggressiveness (-0.015) else s.scalingAggressiveness }

def applySample (sample : TruthSample) (s : Learner) : Learner :=
  let s := s.average sample
  let s := if 0 < sample.pnl then s.onWin sample else s.onLoss
  s.reweigh sample

/-- A new learner after these samples. -/
def after (samples : List TruthSample) : Learner :=
  samples.foldl (fun s sample => s.applySample sample) {}

/-! ## Bounds -/

/-- Between the two ends `adjust` stops at. -/
def Bounded (value : ℚ) : Prop := 0.25 ≤ value ∧ value ≤ 2.50

theorem bounded_adjust (value delta : ℚ) : Bounded (adjust value delta) :=
  ⟨le_clamp (by norm_num), clamp_le (by norm_num)⟩

structure Sound (s : Learner) : Prop where
  velocity : Bounded s.weights.velocity
  orderflow : Bounded s.weights.orderflow
  imbalance : Bounded s.weights.imbalance
  liquidity : Bounded s.weights.liquidity
  spread : Bounded s.weights.spread
  adversarial : Bounded s.weights.adversarial
  scaling : Bounded s.scalingAggressiveness
  threshold : 0.66 ≤ s.threshold ∧ s.threshold ≤ 0.86
  hitRate : 0 < s.hitRate ∧ s.hitRate < 1

theorem sound_initial : Sound {} := by
  constructor <;> norm_num [Bounded]

/-- An average strictly between two bounds stays there, whatever it moves towards in them. -/
theorem ema_mem {average value lo hi : ℚ} (hlo : lo < average) (hhi : average < hi)
    (hvalue : lo ≤ value ∧ value ≤ hi) : lo < ema average value ∧ ema average value < hi := by
  unfold ema rate
  constructor <;> linarith [hvalue.1, hvalue.2]

/-- A weight that is adjusted or left alone. -/
theorem bounded_ite {p : Prop} [Decidable p] {value : ℚ} (h : Bounded value) (delta : ℚ) :
    Bounded (if p then adjust value delta else value) := by
  split
  · exact bounded_adjust value delta
  · exact h

variable {s : Learner}

theorem Sound.average (h : Sound s) (sample : TruthSample) : Sound (s.average sample) :=
  { h with
    hitRate := ema_mem h.hitRate.1 h.hitRate.2 (by split <;> norm_num) }

theorem Sound.onWin (h : Sound s) (sample : TruthSample) : Sound (s.onWin sample) :=
  { h with
    scaling := bounded_ite h.scaling 0.01
    threshold := by
      have hhigh := h.threshold.2
      exact ⟨le_max_right _ _, max_le (by linarith) (by norm_num)⟩ }

theorem Sound.onLoss (h : Sound s) : Sound s.onLoss :=
  { h with
    scaling := bounded_adjust _ _
    threshold := by
      have hlow := h.threshold.1
      exact ⟨le_min (by linarith) (by norm_num), min_le_right _ _⟩ }

theorem Sound.reweigh (h : Sound s) (sample : TruthSample) : Sound (s.reweigh sample) :=
  { h with
    velocity := bounded_adjust _ _
    orderflow := bounded_adjust _ _
    imbalance := bounded_adjust _ _
    spread := bounded_ite h.spread 0.02
    liquidity := bounded_ite h.liquidity 0.015
    adversarial := bounded_ite h.adversarial 0.025
    scaling := bounded_ite h.scaling (-0.015) }

theorem Sound.applySample (h : Sound s) (sample : TruthSample) : Sound (s.applySample sample) := by
  unfold Learner.applySample
  refine Sound.reweigh ?_ sample
  split
  · exact (h.average sample).onWin sample
  · exact (h.average sample).onLoss

theorem after_concat (samples : List TruthSample) (sample : TruthSample) :
    after (samples ++ [sample]) = (after samples).applySample sample := List.foldl_concat ..

theorem sound_after (samples : List TruthSample) : Sound (after samples) := by
  induction samples using List.reverseRecOn with
  | nil => exact sound_initial
  | append_singleton samples sample ih =>
    rw [after_concat]
    exact ih.applySample sample

/-- Asked for its threshold, a sound learner never meets the lower clamp. -/
theorem Sound.thresholdIn_mem (h : Sound s) (regime : MarketRegime) :
    0.66 ≤ s.thresholdIn regime ∧ s.thresholdIn regime ≤ 0.86 := by
  have hlow := h.threshold.1
  have hslip : 0 ≤ max s.slippageErrorBps 0 := le_max_right _ _
  have hpenalty : (0 : ℚ) ≤ if 10 < regime.spread ∨ 3 < regime.volatility then 0.05 else 0 := by
    split <;> norm_num
  exact ⟨le_clamp_of_le (by linarith) (by norm_num), clamp_le (by norm_num)⟩

/-! ## Counts -/

/-- The losses at the end of the samples. -/
def losingRun (samples : List TruthSample) : Nat :=
  (samples.reverse.takeWhile fun sample => decide (sample.pnl ≤ 0)).length

theorem losingRun_concat (samples : List TruthSample) (sample : TruthSample) :
    losingRun (samples ++ [sample]) = if 0 < sample.pnl then 0 else losingRun samples + 1 := by
  unfold losingRun
  rw [List.reverse_append, List.reverse_singleton, List.singleton_append]
  by_cases h : 0 < sample.pnl
  · rw [if_pos h, List.takeWhile_cons_of_neg (by simpa using h), List.length_nil]
  · rw [if_neg h, List.takeWhile_cons_of_pos (by simpa using h), List.length_cons]

theorem consecutiveLosses_applySample (s : Learner) (sample : TruthSample) :
    (s.applySample sample).consecutiveLosses =
      if 0 < sample.pnl then 0 else saturatingAddU32 s.consecutiveLosses 1 := by
  unfold Learner.applySample
  by_cases h : 0 < sample.pnl
  · simp only [if_pos h]
    rfl
  · simp only [if_neg h]
    rfl

/-- All samples are counted, up to the largest `usize`. -/
theorem samples_after (samples : List TruthSample) :
    (after samples).samples = min samples.length (2 ^ 64 - 1) := by
  induction samples using List.reverseRecOn with
  | nil => rfl
  | append_singleton samples sample ih =>
    have hcount : ((after samples).applySample sample).samples =
        saturatingAddUsize (after samples).samples 1 := by
      unfold Learner.applySample
      dsimp only
      split <;> rfl
    rw [after_concat, hcount, ih, List.length_append, List.length_singleton]
    unfold saturatingAddUsize
    omega

/-- The losses counted are those at the end of the samples, up to the largest `u32`. -/
theorem consecutiveLosses_after (samples : List TruthSample) :
    (after samples).consecutiveLosses = min (losingRun samples) (2 ^ 32 - 1) := by
  induction samples using List.reverseRecOn with
  | nil => rfl
  | append_singleton samples sample ih =>
    rw [after_concat, consecutiveLosses_applySample, losingRun_concat, ih]
    split
    · rfl
    · unfold saturatingAddU32
      omega

end Learner

end RealTimeTrading.Rtts
