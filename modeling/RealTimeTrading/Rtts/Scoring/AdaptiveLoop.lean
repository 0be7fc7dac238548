/-
RealTimeTrading.Rtts.Scoring.AdaptiveLoop — the loop of `adaptive_engine.rs`:
samples and failures are learned from, frames are scored.

The three receivers are one list of inputs, in the order the loop takes
them. The loop is what its inputs so far amount to (`Describes`). Trading is
disabled exactly if some input disabled it and no sample since has cleared
it (`tradingDisabled_iff`), and while it is, every frame is ignored.
-/
import RealTimeTrading.Concurrency.Registers
import RealTimeTrading.Rtts.Accounting.ColdStart
import RealTimeTrading.Rtts.Scoring.Learning
import RealTimeTrading.Rtts.Scoring.Lockout
import RealTimeTrading.Rtts.Scoring.TriggerRuns

namespace RealTimeTrading.Rtts

open Concurrency
open EdgeValidation (EdgeValidationEngine EdgeValidationSnapshot RegimeMemory)

/-- What the loop receives; a frame with the order in which the regime
memories are met, and the clock. -/
inductive AdaptiveInput where
  | sample (sample : TruthSample)
  | feedback (feedback : ExecutionControlFeedback)
  | frame (frame : MicrostructureFrame) (met : List RegimeMemory) (now : Nat)

structure AdaptiveLoop where
  learning : Learner := {}
  edgeValidation : EdgeValidationEngine := .defaultEngine
  previousScore : ℚ := 0.5
  tradingDisabled : Bool := false
  drawdownPct : ℚ := 0
  cumulativeRealizedPnl : ℚ := 0

namespace AdaptiveLoop

def drawdown (cfg : RunConfig) (realizedPnl : ℚ) : ℚ :=
  clamp (max (-realizedPnl) 0 / cfg.capital) 0 1

section Loop

variable (exp sqrt : ℚ → ℚ) (modelWeights : RuntimeModelWeights) (cfg : RunConfig)

/-- A sample is learned from; the snapshot it leads to is judged by. -/
def learn (sample : TruthSample) (s : AdaptiveLoop) : EdgeValidationSnapshot × AdaptiveLoop :=
  let projectedRealizedPnl := s.cumulativeRealizedPnl + sample.pnl
  let projectedDrawdownPct := drawdown cfg projectedRealizedPnl
  let (snapshot, edgeValidation) :=
    s.edgeValidation.observe sqrt sample.toLearningSample projectedDrawdownPct
  (snapshot, { s with
    learning := s.learning.applySample sample
    edgeValidation := edgeValidation
    drawdownPct := projectedDrawdownPct
    cumulativeRealizedPnl := projectedRealizedPnl })

/-- What locks trading after a sample. -/
def Condemned (snapshot : EdgeValidationSnapshot) (s : AdaptiveLoop) : Prop :=
  cfg.maxConsecutiveLosses ≤ s.learning.consecutiveLosses ∨ snapshot.edgeState = .invalid ∨
    snapshot.tradingEnabled = false

instance (snapshot : EdgeValidationSnapshot) (s : AdaptiveLoop) :
    Decidable (Condemned cfg snapshot s) := by
  unfold Condemned; infer_instance

def onSample (sample : TruthSample) (s : AdaptiveLoop) : AdaptiveLoop :=
  let (snapshot, s) := s.learn sqrt cfg sample
  { s with
    tradingDisabled :=
      if Condemned cfg snapshot s then true
      else if snapshot.edgeState = .valid then false
      else s.tradingDisabled }

def onFeedback (feedback : ExecutionControlFeedback) (s : AdaptiveLoop) : AdaptiveLoop :=
  { s with
    edgeValidation := s.edgeValidation.observeFailure feedback.reason
    tradingDisabled := if feedback.abortedDueToDecay then true else s.tradingDisabled }

/-- The decision on a frame. -/
def decide (frame : MicrostructureFrame) (met : List RegimeMemory) (now : Nat)
    (s : AdaptiveLoop) : ScoredDecision :=
  AdaptiveEngine.scoreFrame exp modelWeights cfg.toConfig s.learning.toLearningState frame
    s.previousScore s.tradingDisabled (s.edgeValidation.snapshot sqrt met s.drawdownPct) now

def step (s : AdaptiveLoop) : AdaptiveInput → List ScoredDecision × AdaptiveLoop
  | .sample sample => ([], s.onSample sqrt cfg sample)
  | .feedback feedback => ([], s.onFeedback feedback)
  | .frame frame met now =>
    let decision := s.decide exp sqrt modelWeights cfg frame met now
    ([decision], { s with previousScore := decision.score })

/-- The loop after these inputs. -/
def after (inputs : List AdaptiveInput) : AdaptiveLoop :=
  (emit (step exp sqrt modelWeights cfg) {} inputs).2

end Loop

end AdaptiveLoop

/-! ## The inputs so far -/

def AdaptiveInput.sample? : AdaptiveInput → Option TruthSample
  | .sample learned => some learned
  | .feedback _ => none
  | .frame _ _ _ => none

def samplesIn (inputs : List AdaptiveInput) : List TruthSample := inputs.filterMap (·.sample?)

def realizedPnl (samples : List TruthSample) : ℚ := (samples.map fun sample => sample.pnl).sum

namespace AdaptiveLoop

open EdgeValidation (Observation told defaultWindow)

variable {exp sqrt : ℚ → ℚ} {modelWeights : RuntimeModelWeights} {cfg : RunConfig}

/-- What the validator is told of an input, at this realised profit. -/
def observation (cfg : RunConfig) (pnl : ℚ) : AdaptiveInput → Option Observation
  | .sample learned => some (.sample learned.toLearningSample (drawdown cfg (pnl + learned.pnl)))
  | .feedback failed => some (.failure failed.reason)
  | .frame _ _ _ => none

/-- What the validator is told of these inputs. -/
def observations (cfg : RunConfig) : ℚ → List AdaptiveInput → List Observation
  | _, [] => []
  | pnl, input :: rest =>
    (observation cfg pnl input).toList ++
      observations cfg (pnl + realizedPnl input.sample?.toList) rest

/-- The loop is what its inputs amount to. -/
structure Describes (sqrt : ℚ → ℚ) (cfg : RunConfig) (inputs : List AdaptiveInput)
    (s : AdaptiveLoop) : Prop where
  learning : s.learning = Learner.after (samplesIn inputs)
  realized : s.cumulativeRealizedPnl = realizedPnl (samplesIn inputs)
  drawdown : s.drawdownPct = drawdown cfg (realizedPnl (samplesIn inputs))
  edge : s.edgeValidation = told sqrt defaultWindow (observations cfg 0 inputs)

theorem samplesIn_concat (inputs : List AdaptiveInput) (input : AdaptiveInput) :
    samplesIn (inputs ++ [input]) = samplesIn inputs ++ input.sample?.toList :=
  filterMap_concat _ inputs input

theorem realizedPnl_append (first second : List TruthSample) :
    realizedPnl (first ++ second) = realizedPnl first + realizedPnl second := by
  unfold realizedPnl
  rw [List.map_append, List.sum_append]

theorem observations_concat (pnl : ℚ) (inputs : List AdaptiveInput) (input : AdaptiveInput) :
    observations cfg pnl (inputs ++ [input]) = observations cfg pnl inputs ++
      (observation cfg (pnl + realizedPnl (samplesIn inputs)) input).toList := by
  induction inputs generalizing pnl with
  | nil =>
    show (observation cfg pnl input).toList ++ [] = _
    rw [List.append_nil, show samplesIn [] = [] from rfl, show realizedPnl [] = 0 from rfl,
      add_zero]
    rfl
  | cons first rest ih =>
    have hfirst : samplesIn (first :: rest) = first.sample?.toList ++ samplesIn rest := by
      unfold samplesIn
      cases h : first.sample? with
      | none => rw [List.filterMap_cons_none h]; rfl
      | some sample => rw [List.filterMap_cons_some h]; rfl
    rw [List.cons_append, observations, observations, ih, List.append_assoc, hfirst,
      realizedPnl_append, add_assoc]

theorem describes_initial (sqrt : ℚ → ℚ) (cfg : RunConfig) : Describes sqrt cfg [] {} where
  learning := rfl
  realized := rfl
  drawdown := by
    show (0 : ℚ) = clamp (max (-0) 0 / cfg.capital) 0 1
    rw [neg_zero, max_self, zero_div, clamp_of_mem le_rfl zero_le_one]
  edge := rfl

theorem Describes.sample {inputs : List AdaptiveInput} {s : AdaptiveLoop}
    (h : Describes sqrt cfg inputs s) (learned : TruthSample) :
    Describes sqrt cfg (inputs ++ [.sample learned]) (s.onSample sqrt cfg learned) := by
  have hin : samplesIn (inputs ++ [.sample learned]) = samplesIn inputs ++ [learned] :=
    samplesIn_concat inputs _
  have hpnl : realizedPnl (samplesIn inputs ++ [learned]) =
      s.cumulativeRealizedPnl + learned.pnl := by
    rw [realizedPnl_append, h.realized]
    exact congrArg (realizedPnl (samplesIn inputs) + ·) (add_zero learned.pnl)
  refine ⟨?_, ?_, ?_, ?_⟩
  · rw [hin, Learner.after_concat, ← h.learning]
    rfl
  · rw [hin, hpnl]
    rfl
  · rw [hin, hpnl]
    rfl
  · have hedge : (s.onSample sqrt cfg learned).edgeValidation =
        s.edgeValidation.tell sqrt (.sample learned.toLearningSample
          (AdaptiveLoop.drawdown cfg (s.cumulativeRealizedPnl + learned.pnl))) := rfl
    rw [observations_concat, zero_add, ← h.realized, hedge, h.edge]
    exact (List.foldl_concat ..).symm

/-- An input that is no sample changes nothing but the validator and the flag. -/
theorem Describes.other {inputs : List AdaptiveInput} {s s' : AdaptiveLoop}
    (h : Describes sqrt cfg inputs s) {input : AdaptiveInput} (hnone : input.sample? = none)
    (hlearning : s'.learning = s.learning)
    (hrealized : s'.cumulativeRealizedPnl = s.cumulativeRealizedPnl)
    (hdrawdown : s'.drawdownPct = s.drawdownPct)
    (hedge : s'.edgeValidation =
      (observation cfg (realizedPnl (samplesIn inputs)) input).toList.foldl (·.tell sqrt)
        s.edgeValidation) :
    Describes sqrt cfg (inputs ++ [input]) s' := by
  have hin : samplesIn (inputs ++ [input]) = samplesIn inputs := by
    rw [samplesIn_concat, hnone, Option.toList_none, List.append_nil]
  refine ⟨?_, ?_, ?_, ?_⟩
  · rw [hin, hlearning, h.learning]
  · rw [hin, hrealized, h.realized]
  · rw [hin, hdrawdown, h.drawdown]
  · rw [observations_concat, zero_add, hedge, h.edge]
    exact List.foldl_append.symm

theorem Describes.step {inputs : List AdaptiveInput} {s : AdaptiveLoop}
    (h : Describes sqrt cfg inputs s) (input : AdaptiveInput) :
    Describes sqrt cfg (inputs ++ [input]) (step exp sqrt modelWeights cfg s input).2 := by
  cases input with
  | sample learned => exact h.sample learned
  | feedback failed => exact h.other rfl rfl rfl rfl rfl
  | frame seen met now => exact h.other rfl rfl rfl rfl rfl

theorem after_concat (inputs : List AdaptiveInput) (input : AdaptiveInput) :
    after exp sqrt modelWeights cfg (inputs ++ [input]) =
      (step exp sqrt modelWeights cfg (after exp sqrt modelWeights cfg inputs) input).2 := by
  unfold after
  rw [emit_append, emit_cons, emit_nil]

theorem describes_after (exp sqrt : ℚ → ℚ) (modelWeights : RuntimeModelWeights) (cfg : RunConfig)
    (inputs : List AdaptiveInput) :
    Describes sqrt cfg inputs (after exp sqrt modelWeights cfg inputs) := by
  induction inputs using List.reverseRecOn with
  | nil => exact describes_initial sqrt cfg
  | append_singleton inputs input ih =>
    rw [after_concat]
    exact ih.step input

/-! ## The flag -/

/-- The input disables trading. -/
def Disables (sqrt : ℚ → ℚ) (cfg : RunConfig) (s : AdaptiveLoop) : AdaptiveInput → Prop
  | .sample learned => Condemned cfg (s.learn sqrt cfg learned).1 (s.learn sqrt cfg learned).2
  | .feedback failed => failed.abortedDueToDecay = true
  | .frame _ _ _ => False

/-- The input is a sample after which the edge is valid. -/
def Clears (sqrt : ℚ → ℚ) (cfg : RunConfig) (s : AdaptiveLoop) : AdaptiveInput → Prop
  | .sample learned => ¬ Condemned cfg (s.learn sqrt cfg learned).1 (s.learn sqrt cfg learned).2 ∧
      (s.learn sqrt cfg learned).1.edgeState = .valid
  | .feedback _ => False
  | .frame _ _ _ => False

theorem flag_of_disables {s : AdaptiveLoop} {input : AdaptiveInput}
    (h : Disables sqrt cfg s input) :
    (step exp sqrt modelWeights cfg s input).2.tradingDisabled = true := by
  cases input with
  | sample learned => exact if_pos h
  | feedback failed => exact if_pos h
  | frame seen met now => cases h

theorem flag_of_clears {s : AdaptiveLoop} {input : AdaptiveInput}
    (h : Clears sqrt cfg s input) :
    (step exp sqrt modelWeights cfg s input).2.tradingDisabled = false := by
  cases input with
  | sample learned => exact (if_neg h.1).trans (if_pos h.2)
  | feedback failed => cases h
  | frame seen met now => cases h

theorem flag_of_neither {s : AdaptiveLoop} {input : AdaptiveInput}
    (hdisables : ¬ Disables sqrt cfg s input) (hclears : ¬ Clears sqrt cfg s input) :
    (step exp sqrt modelWeights cfg s input).2.tradingDisabled = s.tradingDisabled := by
  cases input with
  | sample learned =>
    exact (if_neg hdisables).trans (if_neg fun hvalid => hclears ⟨hdisables, hvalid⟩)
  | feedback failed => exact if_neg hdisables
  | frame seen met now => rfl

/-- Trading is disabled exactly if an input disabled it and no sample since cleared it. -/
theorem tradingDisabled_iff (exp sqrt : ℚ → ℚ) (modelWeights : RuntimeModelWeights)
    (cfg : RunConfig) (inputs : List AdaptiveInput) :
    (after exp sqrt modelWeights cfg inputs).tradingDisabled = true ↔
      Latched (step exp sqrt modelWeights cfg) (Disables sqrt cfg) (Clears sqrt cfg) {} inputs :=
  emit_latch AdaptiveLoop.tradingDisabled (fun _ _ => flag_of_disables)
    (fun _ _ _ => flag_of_clears) (fun _ _ => flag_of_neither) rfl inputs

/-- A frame that comes while trading is disabled is ignored. -/
theorem decide_of_disabled (met : List RegimeMemory) (now : Nat) {s : AdaptiveLoop}
    (frame : MicrostructureFrame) (h : s.tradingDisabled = true) :
    (s.decide exp sqrt modelWeights cfg frame met now).decision = .ignore :=
  AdaptiveEngine.scoreFrame_locked exp modelWeights cfg.toConfig _ frame _ now (.inl h)

def AllIgnored (decisions : List ScoredDecision) : Prop :=
  ∀ decision ∈ decisions, decision.decision = .ignore

/-- Every decision is made on a frame, in the state of what came before it. -/
theorem mem_decisions {inputs more : List AdaptiveInput} {decision : ScoredDecision}
    (h : decision ∈ (emit (step exp sqrt modelWeights cfg)
      (after exp sqrt modelWeights cfg inputs) more).1) :
    ∃ mid frame met now rest, more = mid ++ .frame frame met now :: rest ∧
      decision =
        (after exp sqrt modelWeights cfg (inputs ++ mid)).decide exp sqrt modelWeights cfg frame
          met now := by
  obtain ⟨mid, input, rest, rfl, hmade⟩ := mem_emit_iff.mp h
  have hstate : (emit (step exp sqrt modelWeights cfg) (after exp sqrt modelWeights cfg inputs)
      mid).2 = after exp sqrt modelWeights cfg (inputs ++ mid) := by
    unfold after
    rw [emit_append]
  rw [hstate] at hmade
  cases input with
  | sample learned => cases hmade
  | feedback failed => cases hmade
  | frame seen met now => exact ⟨mid, seen, met, now, rest, rfl, List.mem_singleton.mp hmade⟩

/-- Once an input has disabled trading, all frames are ignored until a sample clears it. -/
theorem ignored_until_cleared (exp sqrt : ℚ → ℚ) (modelWeights : RuntimeModelWeights)
    (cfg : RunConfig) (before : List AdaptiveInput) (input : AdaptiveInput)
    (more : List AdaptiveInput)
    (hdisables : Disables sqrt cfg (after exp sqrt modelWeights cfg before) input)
    (hclears : ∀ mid next rest, more = mid ++ next :: rest →
      ¬ Clears sqrt cfg (after exp sqrt modelWeights cfg (before ++ input :: mid)) next) :
    AllIgnored (emit (step exp sqrt modelWeights cfg)
      (after exp sqrt modelWeights cfg (before ++ [input])) more).1 := by
  intro decision hmade
  obtain ⟨mid, frame, met, now, rest, rfl, rfl⟩ := mem_decisions hmade
  refine decide_of_disabled met now frame ((tradingDisabled_iff exp sqrt modelWeights cfg _).mpr ?_)
  refine ⟨before, input, mid, by simp, hdisables, fun first next later hsplit => ?_⟩
  exact hclears first next (later ++ .frame frame met now :: rest)
    (by rw [hsplit, List.append_assoc, List.cons_append])

/-- An order is given up because its edge decays, once nothing else has gone wrong. -/
def decayed : ExecutionControlFeedback where
  orderId := "rtts-1"
  symbol := "BTCUSDT"
  reason := .latencyTooHigh
  elapsedMs := 400
  fillRatio := 0
  expectedFillTimeMs := 120
  edgeHalfLifeMs := 200
  abortedDueToDecay := true

/-- Two frames, and between them another order given up. -/
def seenAfter : List AdaptiveInput :=
  [.frame (TriggerEngine.dryingFrame 98 0.5) [] 2, .feedback decayed,
    .frame (TriggerEngine.dryingFrame 97 0.5) [] 3]

theorem ignored_until_cleared_decayed :
    AllIgnored (emit (step id id {} {}) (after id id {} {} ([] ++ [.feedback decayed]))
      seenAfter).1 := by
  refine ignored_until_cleared id id {} {} [] (.feedback decayed) seenAfter rfl ?_
  intro mid next rest hsplit hclears
  have hnext : next ∈ seenAfter := by
    rw [hsplit]
    exact List.mem_append_right mid List.mem_cons_self
  simp only [seenAfter, List.mem_cons, List.not_mem_nil, or_false] at hnext
  rcases hnext with rfl | rfl | rfl <;> exact hclears

/-! ## What is learned -/

/-- However samples, failures and frames come, the loop keeps its weights and thresholds in
their bounds, and counts the samples and the losses they end in. -/
theorem learning_sound (exp sqrt : ℚ → ℚ) (modelWeights : RuntimeModelWeights) (cfg : RunConfig)
    (inputs : List AdaptiveInput) :
    let s := (after exp sqrt modelWeights cfg inputs).learning
    Learner.Sound s ∧ (∀ regime, 0.66 ≤ s.thresholdIn regime ∧ s.thresholdIn regime ≤ 0.86) ∧
      s.consecutiveLosses = min (Learner.losingRun (samplesIn inputs)) (2 ^ 32 - 1) ∧
      s.samples = min (samplesIn inputs).length (2 ^ 64 - 1) := by
  intro s
  have hlearned : s = Learner.after (samplesIn inputs) :=
    (describes_after exp sqrt modelWeights cfg inputs).learning
  rw [hlearned]
  have hsound := Learner.sound_after (samplesIn inputs)
  exact ⟨hsound, hsound.thresholdIn_mem, Learner.consecutiveLosses_after _,
    Learner.samples_after _⟩

/-! ## Losing runs -/

/-- As long as the samples end in that many losses, trading is disabled. -/
theorem flag_of_losingRun (hpos : 0 < cfg.maxConsecutiveLosses)
    (hfits : cfg.maxConsecutiveLosses < 2 ^ 32) (inputs : List AdaptiveInput)
    (hrun : cfg.maxConsecutiveLosses ≤ Learner.losingRun (samplesIn inputs)) :
    (after exp sqrt modelWeights cfg inputs).tradingDisabled = true := by
  induction inputs using List.reverseRecOn with
  | nil => exact absurd hrun (Nat.not_le_of_lt hpos)
  | append_singleton inputs input ih =>
    rw [after_concat]
    cases input with
    | sample learned =>
      refine flag_of_disables (.inl ?_)
      have hlosses : ((after exp sqrt modelWeights cfg inputs).learn sqrt cfg
          learned).2.learning = Learner.after (samplesIn (inputs ++ [.sample learned])) :=
        ((describes_after exp sqrt modelWeights cfg inputs).sample learned).learning
      rw [hlosses, Learner.consecutiveLosses_after]
      exact le_min hrun (Nat.le_of_lt_succ hfits)
    | feedback failed =>
      have hflag := ih ((samplesIn_concat inputs (.feedback failed)).trans
        (List.append_nil _) ▸ hrun)
      show (if _ then true else _) = true
      rw [hflag, ite_self]
    | frame seen met now =>
      exact ih ((samplesIn_concat inputs (.frame seen met now)).trans (List.append_nil _) ▸ hrun)

/-- A losing run stays one as long as no trade is won. -/
theorem le_losingRun_append {n : Nat} (samples more : List TruthSample)
    (hrun : n ≤ Learner.losingRun samples) (hmore : ∀ sample ∈ more, sample.pnl ≤ 0) :
    n ≤ Learner.losingRun (samples ++ more) := by
  induction more using List.reverseRecOn with
  | nil => rwa [List.append_nil]
  | append_singleton more sample ih =>
    have hlost : sample.pnl ≤ 0 := hmore sample (by simp)
    rw [← List.append_assoc, Learner.losingRun_concat, if_neg (not_lt.mpr hlost)]
    exact Nat.le_succ_of_le (ih fun sample hsample => hmore sample (by simp [hsample]))

/-- After as many losses in a row as are allowed, every frame is ignored until a trade is won. -/
theorem ignored_until_won (exp sqrt : ℚ → ℚ) (modelWeights : RuntimeModelWeights)
    (cfg : RunConfig) (hpos : 0 < cfg.maxConsecutiveLosses)
    (hfits : cfg.maxConsecutiveLosses < 2 ^ 32) (inputs more : List AdaptiveInput)
    (hrun : cfg.maxConsecutiveLosses ≤ Learner.losingRun (samplesIn inputs))
    (hmore : ∀ sample ∈ samplesIn more, sample.pnl ≤ 0) :
    AllIgnored (emit (step exp sqrt modelWeights cfg)
      (after exp sqrt modelWeights cfg inputs) more).1 := by
  intro decision hmade
  obtain ⟨mid, frame, met, now, rest, rfl, rfl⟩ := mem_decisions hmade
  refine decide_of_disabled met now frame (flag_of_losingRun hpos hfits _ ?_)
  rw [samplesIn, List.filterMap_append]
  refine le_losingRun_append _ _ hrun fun sample hsample => hmore sample ?_
  rw [samplesIn, List.filterMap_append]
  exact List.mem_append_left _ hsample

/-- A long position closed after 25 ms at a profit. -/
def quickWin : ReversalSample :=
  { EdgeValidation.firstSample with timestamp := 1000, direction := .long }

/-- A trade that lost a basis point. -/
def lost : TruthSample :=
  { quickWin with
    pnl := -1
    confidence := 0.5
    predictedScore := 0.5
    expectedSlippageBps := 0
    feesPaid := 0
    rebatesReceived := 0
    fundingCost := 0
    edgeCaptureRatio := 0
    entryQuality := 0.5
    markout100ms := -1
    markout500ms := -1
    markout1s := -1
    markout5s := -1 }

theorem ignored_until_won_lost :
    AllIgnored (emit (step id id {} {})
      (after id id {} {} [.sample lost, .sample lost, .sample lost])
      (.sample lost :: seenAfter)).1 :=
  ignored_until_won id id {} {} (by decide) (by decide) _ _ (by decide +kernel) (by decide +kernel)

end AdaptiveLoop

end RealTimeTrading.Rtts
