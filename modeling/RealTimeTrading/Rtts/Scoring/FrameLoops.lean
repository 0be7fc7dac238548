/-
RealTimeTrading.Rtts.Scoring.FrameLoops — the loops of `trigger_engine.rs`,
`reversal_engine.rs` and `reversal_classifier.rs`, which each fill in their
part of a frame and pass it on.

No loop makes a frame of its own or drops one, and none changes what the
market says in it (`MicrostructureFrame.market`).
-/
import RealTimeTrading.Concurrency.Emitting
import RealTimeTrading.Rtts.ExecutionTruth
import RealTimeTrading.Rtts.Scoring.TriggerEngine

namespace RealTimeTrading.Rtts

open Concurrency

/-- The frame, without what the loops fill in. -/
def MicrostructureFrame.market (frame : MicrostructureFrame) : MicrostructureFrame :=
  { frame with trigger := {}, reversal := {}, reversalClassifier := {} }

def triggerStep (engine : TriggerEngine) (frame : MicrostructureFrame) :
    List MicrostructureFrame × TriggerEngine :=
  ([{ frame with trigger := (engine.observe frame).1 }], (engine.observe frame).2)

structure ReversalLoop where
  engine : ReversalEngine := .new ReversalEngine.defaultShortThresholdMs
  latestFrame : Option MicrostructureFrame := none

/-- What the reversal loop receives. -/
inductive ReversalInput where
  | sample (sample : TruthSample)
  | frame (frame : MicrostructureFrame)

def ReversalLoop.step (s : ReversalLoop) : ReversalInput → List MicrostructureFrame × ReversalLoop
  | .sample learned =>
    ([], { s with engine := s.engine.observeLearning learned.toReversalSample s.latestFrame })
  | .frame seen =>
    let (snapshot, engine) := s.engine.observeFrame seen
    let frame := { seen with reversal := snapshot }
    ([frame], { engine := engine, latestFrame := some frame })

def classifierStep (weights : ReversalClassifierWeights) (_ : Unit) (frame : MicrostructureFrame) :
    List MicrostructureFrame × Unit :=
  ([{ frame with reversalClassifier := ReversalClassifier.classify frame weights }], ())

end RealTimeTrading.Rtts
