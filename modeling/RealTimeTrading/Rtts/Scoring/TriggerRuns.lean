/-
RealTimeTrading.Rtts.Scoring.TriggerRuns — runs of the trigger engine, and
the fast exit it never asks for.

A usable frame raises the high and settles the state; a frame without a
price changes nothing, and none changes how the high fades. `observe` asks
`should_exit` with the default position, so what makes an open position exit
is not looked at.
-/
import RealTimeTrading.Concurrency.Registers
import RealTimeTrading.Rtts.Scoring.TriggerEngine
import Mathlib.Algebra.Order.Field.Basic
import Mathlib.Tactic.Linarith

namespace RealTimeTrading.Rtts.TriggerEngine

open RealTimeTrading.Concurrency

/-! ## Runs -/

def step (engine : TriggerEngine) (frame : MicrostructureFrame) :
    List TriggerSnapshot × TriggerEngine :=
  ([(engine.observe frame).1], (engine.observe frame).2)

/-- The engine after these frames. -/
def after (dropThreshold resetThreshold : ℚ) (frames : List MicrostructureFrame) : TriggerEngine :=
  (emit step (new dropThreshold resetThreshold) frames).2

theorem after_concat (dropThreshold resetThreshold : ℚ) (frames : List MicrostructureFrame)
    (frame : MicrostructureFrame) :
    after dropThreshold resetThreshold (frames ++ [frame]) =
      ((after dropThreshold resetThreshold frames).observe frame).2 := by
  rw [after, emit_append]
  rfl

/-! ## One frame -/

variable {engine : TriggerEngine} {frame : MicrostructureFrame} {price : ℚ}

theorem usablePrice_pos (h : usablePrice frame = some price) : 0 < price := by
  unfold usablePrice at h
  dsimp only at h
  split_ifs at h with hpos
  rw [← Option.some.inj h]
  exact not_le.mp hpos

theorem observe_usable (h : usablePrice frame = some price) :
    (engine.observe frame).2 = { engine with
      state := engine.settled price
        (engine.armed price && confirmReversal frame engine.previousSellPressure)
      previousSellPressure := sellPressure frame } := by
  rw [observe, h]

theorem decay_after (dropThreshold resetThreshold : ℚ) (frames : List MicrostructureFrame) :
    (after dropThreshold resetThreshold frames).decayHighAlpha = 0.003 := by
  have hkept : ∀ (engine : TriggerEngine) (frame : MicrostructureFrame),
      engine.decayHighAlpha = 0.003 → (step engine frame).2.decayHighAlpha = 0.003 := by
    intro engine frame h
    cases hprice : usablePrice frame with
    | none =>
      show (engine.observe frame).2.decayHighAlpha = 0.003
      rw [observe, hprice]
      exact h
    | some price =>
      show (engine.observe frame).2.decayHighAlpha = 0.003
      rw [observe_usable hprice]
      exact h
  have hnew : (new dropThreshold resetThreshold).decayHighAlpha = 0.003 := rfl
  exact emit_invariant hkept hnew frames

/-- A market where the selling dries up. -/
def dryingFrame (price exhaustion : ℚ) : MicrostructureFrame :=
  { timestamp := 1
    trade := some { timestamp := 1, price := price, volume := 1, side := .sell }
    book := { absorption := 0.40 }
    tape := { exhaustion := exhaustion, lastPrice := price }
    features := { weightedImbalance := 0, orderFlowDelta := 0 }
    regime := { volatility := 0.5, spread := 2, trendStrength := 0.4 }
    context := { regime := .normal, liquidityScore := 0.8, stabilityScore := 0.75 }
    flow := { signal := .exhaustion, continuationStrength := 0.2 }
    timing := { signal := .optimal, tradeBurst := 0.2, timingScore := 0.7 }
    trigger := {}
    reversal := {}
    reversalClassifier := {}
    stale := false }

/-! ## Fast exit -/

/-- One of the exit conditions that do not involve a position. -/
def Deteriorates (frame : MicrostructureFrame) : Prop :=
  markoutDegrading frame = true ∨ flowFlip frame = true ∨ adverseSelectionRising frame = true ∨
    timingLost frame = true

/-- They are what decides while a position is open. -/
theorem shouldExit_of_open {position : Position} (hopen : position.isOpen)
    (h : Deteriorates frame) : shouldExit frame position = true := by
  unfold shouldExit
  rw [if_neg (not_not.mpr hopen)]
  simp only [Bool.or_eq_true]
  rcases h with h | h | h | h <;> simp [h]

/-- Without one the flag of the frame is handed on. -/
theorem shouldExit_of_closed {position : Position} (hclosed : ¬position.isOpen) :
    shouldExit frame position = frame.trigger.shouldExit := if_pos hclosed

theorem not_isOpen_default : ¬Position.isOpen {} := by
  show ¬epsilon < |(0 : ℚ)|
  rw [abs_zero]
  exact not_lt.mpr epsilon_pos.le

/-- `observe` asks with the default position, which is closed: on no frame that arrives with
a default trigger does the flag get set, though any open position would be told to exit. -/
theorem fast_exit_never (engine : TriggerEngine) {frame : MicrostructureFrame}
    (htrigger : frame.trigger = {}) (husable : (usablePrice frame).isSome)
    (hexit : Deteriorates frame) :
    ¬(engine.observe frame).1.shouldExit = true ∧
      ∀ position : Position, position.isOpen → shouldExit frame position = true := by
  obtain ⟨price, hprice⟩ := Option.isSome_iff_exists.mp husable
  have hflag : (engine.observe frame).1.shouldExit = shouldExit frame {} := by
    rw [observe, hprice]
  rw [hflag, shouldExit_of_closed not_isOpen_default, htrigger]
  exact ⟨Bool.false_ne_true, fun _ hopen => shouldExit_of_open hopen hexit⟩

/-- The moment to act has passed. -/
def missedFrame : MicrostructureFrame :=
  { dryingFrame 100 0 with timing := { signal := .missed, tradeBurst := 0.2, timingScore := 0.7 } }

theorem missedFrame_deteriorates : Deteriorates missedFrame :=
  .inr (.inr (.inr (by decide +kernel)))

theorem fast_exit_unset : ¬ ∀ (engine : TriggerEngine) (frame : MicrostructureFrame),
    frame.trigger = {} → (usablePrice frame).isSome → Deteriorates frame →
      (engine.observe frame).1.shouldExit = true := by
  intro h
  have hset := h (new 0.02 0.05) missedFrame rfl (by decide +kernel) missedFrame_deteriorates
  exact absurd hset (by decide +kernel)

theorem fast_exit_never_missed : ¬((new 0.02 0.05).observe missedFrame).1.shouldExit = true :=
  (fast_exit_never (new 0.02 0.05) rfl (by decide +kernel) missedFrame_deteriorates).1

end RealTimeTrading.Rtts.TriggerEngine
