/-
RealTimeTrading.Rtts.Scoring.EntryExclusive — when entry scoring can say long
and short at once.

`evaluate` asks one side of the classifier, the one the reversal is headed
for, and then lets both sides through that gate. The two sides overlap where
the trades balance and the price hardly moves (`ready_both_iff`); there, an
entry that is taken is taken for both (`followsReversal_iff`).
-/
import RealTimeTrading.Rtts.Accounting.ColdStart
import RealTimeTrading.Rtts.Scoring.TriggerRuns

namespace RealTimeTrading.Rtts

/-! ## Both sides ready -/

/-- A reversal is held likelier than a continuation, than chop and than the bias. -/
@[mk_iff]
structure LikelyReversal (weights : ReversalClassifierWeights)
    (snapshot : ReversalClassifierSnapshot) : Prop where
  continuation : snapshot.continuationProbability < snapshot.reversalProbability
  chop : snapshot.chopProbability < snapshot.reversalProbability
  bias : weights.readyBiasThreshold < snapshot.reversalProbability

/-- Buying and selling are even and the price hardly moves. -/
structure Balanced (frame : MicrostructureFrame) : Prop where
  even : frame.tape.delta = 0
  slow : |frame.features.microPriceVelocity| ≤ 0.25

namespace ReversalClassifier

variable (frame : MicrostructureFrame) (weights : ReversalClassifierWeights)

/-- The frame as `run` passes it on. -/
def classified : MicrostructureFrame :=
  { frame with reversalClassifier := classify frame weights }

theorem classified_eq : (classified frame weights).reversalClassifier =
    classify (classified frame weights) weights := (rfl)

theorem readyLong_iff : (classify frame weights).readyLong = true ↔
    LikelyReversal weights (classify frame weights) ∧
      frame.features.microPriceVelocity ≤ 0.25 ∧ frame.tape.delta ≤ 0 := by
  rw [likelyReversal_iff]
  simp only [classify, Bool.and_eq_true, decide_eq_true_eq, and_assoc]

theorem readyShort_iff : (classify frame weights).readyShort = true ↔
    LikelyReversal weights (classify frame weights) ∧
      -0.25 ≤ frame.features.microPriceVelocity ∧ 0 ≤ frame.tape.delta := by
  rw [likelyReversal_iff]
  simp only [classify, Bool.and_eq_true, decide_eq_true_eq, and_assoc]

/-- Both comparisons of each pair let the bound through. -/
theorem ready_both_iff :
    (classify frame weights).readyLong = true ∧ (classify frame weights).readyShort = true ↔
      LikelyReversal weights (classify frame weights) ∧ Balanced frame := by
  rw [readyLong_iff, readyShort_iff]
  constructor
  · rintro ⟨⟨hlikely, hbelow, hselling⟩, -, habove, hbuying⟩
    exact ⟨hlikely, le_antisymm hselling hbuying, abs_le.mpr ⟨habove, hbelow⟩⟩
  · rintro ⟨hlikely, heven, hslow⟩
    obtain ⟨habove, hbelow⟩ := abs_le.mp hslow
    exact ⟨⟨hlikely, hbelow, heven.le⟩, hlikely, habove, heven.ge⟩

end ReversalClassifier

/-! ## The scores -/

namespace EntryScoring

open EdgeValidation (EdgeValidationSnapshot told defaultWindow)

variable (weights : EntryScoringWeights) (frame : MicrostructureFrame)
  (edgeSnapshot : EdgeValidationSnapshot)

/-- All that an entry takes besides a direction. -/
structure Opens : Prop where
  edge : edgeSnapshot.edgeState ≠ .invalid
  trading : edgeSnapshot.tradingEnabled = true
  competition : edgeSnapshot.competitionState ≠ .saturated
  context : frame.context.regime ≠ .trendExpansion
  score : weights.minEnterScore < clamp
    (weights.reversalProbability * frame.reversalClassifier.reversalProbability +
      weights.intentScore * frame.reversalClassifier.intentScore +
      weights.triggerEdge * min frame.trigger.expectedEdge 1 +
      weights.reversalEdge * min frame.reversal.expectedEdge 1 +
      weights.edgeReliability * edgeSnapshot.edgeReliabilityScore) 0 1
  confidence : weights.minEnterConfidence < clamp
    (0.55 * frame.reversalClassifier.intentScore + 0.25 * edgeSnapshot.edgeReliabilityScore +
      0.20 * (1 - edgeSnapshot.competitionScore)) 0 1

/-- `enter`, as a proposition. -/
def Enters : Prop :=
  directionalGate frame = true ∧ Opens weights frame edgeSnapshot ∧
    frame.reversalClassifier.continuationProbability < frame.reversalClassifier.reversalProbability

variable {weights frame edgeSnapshot}

/-- One `enter` stands before both flags. -/
theorem evaluate_enter : ∃ enter : Bool, (enter = true ↔ Enters weights frame edgeSnapshot) ∧
    (evaluate weights frame edgeSnapshot).enterLong =
      (enter && frame.reversalClassifier.readyLong) ∧
    (evaluate weights frame edgeSnapshot).enterShort =
      (enter && frame.reversalClassifier.readyShort) := by
  refine ⟨_, ?_, rfl, rfl⟩
  simp only [Bool.and_eq_true, decide_eq_true_eq]
  constructor
  · rintro ⟨⟨⟨⟨⟨⟨hgate, hedge, htrading⟩, hcompetition⟩, hcontext⟩, hlikely⟩, hscore⟩, hconfidence⟩
    exact ⟨hgate, ⟨hedge, htrading, hcompetition, hcontext, hscore, hconfidence⟩, hlikely⟩
  · rintro ⟨hgate, ⟨hedge, htrading, hcompetition, hcontext, hscore, hconfidence⟩, hlikely⟩
    exact ⟨⟨⟨⟨⟨⟨hgate, hedge, htrading⟩, hcompetition⟩, hcontext⟩, hlikely⟩, hscore⟩, hconfidence⟩

theorem enterLong_iff : (evaluate weights frame edgeSnapshot).enterLong = true ↔
    Enters weights frame edgeSnapshot ∧ frame.reversalClassifier.readyLong = true := by
  obtain ⟨enter, henter, hlong, -⟩ := @evaluate_enter weights frame edgeSnapshot
  rw [hlong, Bool.and_eq_true, henter]

theorem enterShort_iff : (evaluate weights frame edgeSnapshot).enterShort = true ↔
    Enters weights frame edgeSnapshot ∧ frame.reversalClassifier.readyShort = true := by
  obtain ⟨enter, henter, -, hshort⟩ := @evaluate_enter weights frame edgeSnapshot
  rw [hshort, Bool.and_eq_true, henter]

/-! ## One side only -/

/-- At most one entry, and none against the reversal. -/
structure FollowsReversal (state : ReversalState) (scored : EntryScoringSnapshot) : Prop where
  exclusive : ¬(scored.enterLong = true ∧ scored.enterShort = true)
  rising : state = .observeShortToLong → scored.enterShort = false
  falling : state = .observeLongToShort → scored.enterLong = false

theorem readyLong_of_rising (hgate : directionalGate frame = true)
    (hstate : frame.reversal.state = .observeShortToLong) :
    frame.reversalClassifier.readyLong = true := by
  rw [directionalGate, hstate] at hgate
  exact hgate

theorem readyShort_of_falling (hgate : directionalGate frame = true)
    (hstate : frame.reversal.state = .observeLongToShort) :
    frame.reversalClassifier.readyShort = true := by
  rw [directionalGate, hstate] at hgate
  exact hgate

/-- Each state's gate is one of the two flags. -/
theorem directionalGate_of_both (hlong : frame.reversalClassifier.readyLong = true)
    (hshort : frame.reversalClassifier.readyShort = true) : directionalGate frame = true := by
  unfold directionalGate
  cases frame.reversal.state with
  | idle => exact hlong
  | observeLongToShort => exact hshort
  | observeShortToLong => exact hlong

/-- An entry against the reversal has passed the gate of the other side, so it is
an entry on both. -/
theorem followsReversal_iff_exclusive :
    FollowsReversal frame.reversal.state (evaluate weights frame edgeSnapshot) ↔
      ¬((evaluate weights frame edgeSnapshot).enterLong = true ∧
        (evaluate weights frame edgeSnapshot).enterShort = true) := by
  constructor
  · exact FollowsReversal.exclusive
  · intro hexclusive
    constructor
    · exact hexclusive
    · intro hstate
      rw [← Bool.not_eq_true]
      intro hshort
      have henters := (enterShort_iff.mp hshort).1
      exact hexclusive ⟨enterLong_iff.mpr ⟨henters, readyLong_of_rising henters.1 hstate⟩, hshort⟩
    · intro hstate
      rw [← Bool.not_eq_true]
      intro hlong
      have henters := (enterLong_iff.mp hlong).1
      exact hexclusive ⟨hlong,
        enterShort_iff.mpr ⟨henters, readyShort_of_falling henters.1 hstate⟩⟩

theorem enters_both_iff : ((evaluate weights frame edgeSnapshot).enterLong = true ∧
      (evaluate weights frame edgeSnapshot).enterShort = true) ↔
    (frame.reversalClassifier.readyLong = true ∧ frame.reversalClassifier.readyShort = true) ∧
      Opens weights frame edgeSnapshot ∧
      frame.reversalClassifier.continuationProbability <
        frame.reversalClassifier.reversalProbability := by
  rw [enterLong_iff, enterShort_iff]
  constructor
  · rintro ⟨⟨⟨-, hopens⟩, hlong⟩, -, hshort⟩
    exact ⟨⟨hlong, hshort⟩, hopens⟩
  · rintro ⟨⟨hlong, hshort⟩, hopens⟩
    have henters : Enters weights frame edgeSnapshot :=
      ⟨directionalGate_of_both hlong hshort, hopens⟩
    exact ⟨⟨henters, hlong⟩, henters, hshort⟩

/-- The scores follow the reversal on every frame but a balanced one on which an entry is
taken. -/
theorem followsReversal_iff (modelWeights : RuntimeModelWeights) (frame : MicrostructureFrame)
    (edgeSnapshot : EdgeValidationSnapshot)
    (hclassified : frame.reversalClassifier =
      ReversalClassifier.classify frame modelWeights.reversalClassifier) :
    FollowsReversal frame.reversal.state
        (evaluate modelWeights.entryScoring frame edgeSnapshot) ↔
      ¬(Balanced frame ∧
        LikelyReversal modelWeights.reversalClassifier frame.reversalClassifier ∧
        Opens modelWeights.entryScoring frame edgeSnapshot) := by
  have hready := ReversalClassifier.ready_both_iff frame modelWeights.reversalClassifier
  rw [← hclassified] at hready
  rw [followsReversal_iff_exclusive, enters_both_iff, hready]
  constructor
  · rintro hnever ⟨hbalanced, hlikely, hopens⟩
    exact hnever ⟨⟨hlikely, hbalanced⟩, hopens, hlikely.continuation⟩
  · rintro hnever ⟨⟨hlikely, hbalanced⟩, hopens, -⟩
    exact hnever ⟨hbalanced, hlikely, hopens⟩

/-! ## A balanced frame -/

/-- The seller is exhausted after a drop of four percent, while a turn upwards is watched. -/
def exhaustedFrame (delta : ℚ) : MicrostructureFrame :=
  ReversalClassifier.classified
    { TriggerEngine.dryingFrame 96 1 with
      book := { absorption := 1 }
      tape := { delta := delta, volumeBurst := 4, exhaustion := 1, lastPrice := 96 }
      flow := { signal := .exhaustion, continuationStrength := 0, exhaustion := 1 }
      timing := { signal := .optimal, tradeBurst := 0.2, timingScore := 1 }
      trigger := { localHigh := 100, dropPct := 0.04, inObservation := true, confirmed := true,
                   expectedEdge := 1 }
      reversal := { state := .observeShortToLong, active := true, direction := .long } } {}

/-- What the validator says after one clean trade, with `id` for the square root of `0`
and of `1`. -/
def cleanEdge : EdgeValidationSnapshot :=
  (told id defaultWindow [.sample EdgeValidation.firstSample 0]).snapshot id [] 0

/-- As much was sold as bought: both entries are set, with a turn upwards being watched. -/
theorem followsReversal_balanced : ¬ ∀ (modelWeights : RuntimeModelWeights)
    (frame : MicrostructureFrame) (edgeSnapshot : EdgeValidationSnapshot),
    frame.reversalClassifier =
      ReversalClassifier.classify frame modelWeights.reversalClassifier →
    FollowsReversal frame.reversal.state
      (evaluate modelWeights.entryScoring frame edgeSnapshot) := by
  intro h
  have hboth : (evaluate {} (exhaustedFrame 0) cleanEdge).enterLong = true ∧
      (evaluate {} (exhaustedFrame 0) cleanEdge).enterShort = true := by decide +kernel
  have hfollows := h {} (exhaustedFrame 0) cleanEdge (ReversalClassifier.classified_eq _ _)
  exact hfollows.exclusive hboth

/-- With more sold than bought the entry is long only. -/
theorem followsReversal_iff_selling : FollowsReversal .observeShortToLong
    (evaluate {} (exhaustedFrame (-3)) cleanEdge) :=
  (followsReversal_iff {} (exhaustedFrame (-3)) cleanEdge
    (ReversalClassifier.classified_eq _ _)).mpr fun h => absurd h.1.even (by decide +kernel)

end EntryScoring

end RealTimeTrading.Rtts
