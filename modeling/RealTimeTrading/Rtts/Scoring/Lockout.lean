/-
RealTimeTrading.Rtts.Scoring.Lockout — what a snapshot that disables
trading leads to.

Trading is disabled exactly for an invalid edge or saturated competition
(`tradingEnabled_eq_false_iff`). Either makes the size factor `0` and is
what `score_frame` asks first, so the signal says `ignore` and carries
`trading_enabled = false`; on such a signal `decide_order` closes what is
open and does nothing else (`decideOrder_disabled`).
-/
import RealTimeTrading.Rtts.Accounting.ColdStart
import RealTimeTrading.Rtts.ForcedExit
import RealTimeTrading.Rtts.Scoring.AdaptiveEngine

namespace RealTimeTrading.Rtts

/-! ## Orders on a disabled signal -/

/-- The order closes all of the position, and can do nothing else. -/
structure Closes (position : Position) (order : OrderIntent) : Prop where
  reduceOnly : order.request.reduceOnly = true
  opposite : position.side = some order.request.side.opposite
  whole : order.request.size = |position.size|

/-- No order if there is nothing to close, else the order that closes it. -/
structure OnlyCloses (cfg : Config) (position : Position) (signal : ScoredDecision)
    (lastScore : ℚ) : Prop where
  flat : ¬ position.isOpen → decideOrder cfg position signal lastScore = none
  exits : position.isOpen →
    ∃ order, decideOrder cfg position signal lastScore = some order ∧ Closes position order

theorem closes_closingOrder (cfg : Config) {position : Position} (hopen : position.isOpen)
    (signal : ScoredDecision) : Closes position (closingOrder cfg position signal) where
  reduceOnly := rfl
  opposite := by
    rw [hopen.side_eq]
    unfold closingOrder
    split <;> rfl
  whole := rfl

theorem decideOrder_disabled (cfg : Config) (position : Position) {signal : ScoredDecision}
    (hdisabled : signal.tradingEnabled = false) (hignore : signal.decision = .ignore)
    (lastScore : ℚ) : OnlyCloses cfg position signal lastScore where
  flat hflat := by
    unfold decideOrder
    rw [if_neg fun hforced => hflat hforced.1, if_neg fun hexit => hflat hexit.2]
    cases signal.direction with
    | long => simp only [decideOrderOn, hignore]
    | short => simp only [decideOrderOn, hignore]
    | flat => rfl
  exits hopen :=
    ⟨_, decideOrder_forced cfg ⟨hopen, Or.inl hdisabled⟩ lastScore,
      closes_closingOrder cfg hopen signal⟩

/-! ## The snapshot -/

namespace EdgeValidation

variable {sqrt : ℚ → ℚ} {engine : EdgeValidationEngine} {met : List RegimeMemory} {drawdownPct : ℚ}

theorem tradingEnabled_eq_false_iff :
    (engine.snapshot sqrt met drawdownPct).tradingEnabled = false ↔
      engine.edgeState sqrt = .invalid ∨ engine.competitionState sqrt = .saturated := by
  show (decide (_ ≠ _) && decide (_ ≠ _)) = false ↔ _
  rw [Bool.and_eq_false_iff, decide_eq_false_iff_not, decide_eq_false_iff_not, not_not, not_not]

end EdgeValidation

/-! ## The signal -/

namespace AdaptiveEngine

open EdgeValidation

theorem scoreFrame_locked (exp : ℚ → ℚ) (modelWeights : RuntimeModelWeights) (cfg : Config)
    (learning : LearningState) (frame : MicrostructureFrame) (previousScore : ℚ)
    {tradingDisabled : Bool} {edgeSnapshot : EdgeValidationSnapshot} (now : Nat)
    (h : Locked tradingDisabled edgeSnapshot) :
    (scoreFrame exp modelWeights cfg learning frame previousScore tradingDisabled edgeSnapshot
      now).decision = .ignore := if_pos h

end AdaptiveEngine

end RealTimeTrading.Rtts
