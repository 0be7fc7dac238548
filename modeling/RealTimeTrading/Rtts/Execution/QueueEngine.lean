/-
RealTimeTrading.Rtts.Execution.QueueEngine — `execution/queue_engine.rs`:
the estimate of an order's place in the queue, from book and trades.

The methods return a copy of the engine's state, whose `bestBid`,
`bestAsk` and `lastReferencePrice` nothing in the engine sets.
-/
import RealTimeTrading.Rtts.Types

namespace RealTimeTrading.Rtts

/-- An exponential average that starts at its first sample; `execution_controller.rs` has
the same one. -/
def ewma (current sample alpha : ℚ) : ℚ :=
  if current = 0 then sample else current * (1 - alpha) + sample * alpha

structure QueueState where
  volumeAhead : ℚ := 0
  queuePositionRatio : ℚ := 0
  expectedFillTimeMs : ℚ := 0
  fillProbability : ℚ := 0
  queueDecayRate : ℚ := 0
  competitionState : CompetitionState := .normal
  bestBid : ℚ := 0
  bestAsk : ℚ := 0
  lastReferencePrice : ℚ := 0

structure QueueEngine where
  state : QueueState
  cancelRate : ℚ := 0
  tradeThroughRate : ℚ := 0
  lastVolumeAhead : ℚ
  lastVisibleVolume : ℚ
  lastTs : Nat := 0

namespace QueueEngine

def emaAlphaFast : ℚ := 0.22
def emaAlphaSlow : ℚ := 0.10

def new (estimate : QueueEstimate) (orderQty : ℚ) (expectedDurationMs : Nat) : QueueEngine :=
  let volumeAhead := max estimate.volumeAhead orderQty
  { state :=
      { volumeAhead := volumeAhead
        queuePositionRatio :=
          if 0 < volumeAhead then estimate.volumeAhead / max volumeAhead 1e-9 else 1
        expectedFillTimeMs := expectedDurationMs / max estimate.fillProbability 0.05
        fillProbability := clamp estimate.fillProbability 0 1 }
    lastVolumeAhead := volumeAhead
    lastVisibleVolume := volumeAhead }

def expectedFillTimeMs (volumeAhead orderQty fillProbability queueDecayRate : ℚ) : ℚ :=
  let effectiveDecay := max (max queueDecayRate (orderQty * 0.001)) 1e-6
  let backlogMs := volumeAhead / effectiveDecay
  clamp (backlogMs / max fillProbability 0.05) 10 2000

/-- `now_ts.saturating_sub(self.last_ts).max(1) as f64`. -/
def elapsedMs (engine : QueueEngine) (nowTs : Nat) : ℚ := (max (nowTs - engine.lastTs) 1 : Nat)

def observeBook (visibleVolume orderQty : ℚ) (outbid : Bool) (spreadBps : ℚ) (nowTs : Nat)
    (engine : QueueEngine) : QueueEngine :=
  let elapsedMs := engine.elapsedMs nowTs
  let visibleVolume := max visibleVolume orderQty
  let volumeDelta := engine.lastVisibleVolume - visibleVolume
  let cancelImpulse := clamp (volumeDelta / max engine.lastVisibleVolume 1e-9) (-1) 1
  let cancelRate := ewma engine.cancelRate (max cancelImpulse 0) emaAlphaSlow
  let ahead :=
    if outbid then max (visibleVolume + orderQty) engine.state.volumeAhead else visibleVolume
  let decay := clamp ((engine.lastVolumeAhead - ahead) / elapsedMs) (-10000) 10000
  let queueDecayRate := ewma engine.state.queueDecayRate decay emaAlphaFast
  let volumeAhead := max ahead orderQty
  let queuePositionRatio := clamp (volumeAhead / max visibleVolume 1e-9) 0 8
  let spreadPenalty := clamp (spreadBps / 12) 0 0.45
  let outbidPenalty := if outbid then 0.14 else 0
  let queuePenalty := max (queuePositionRatio - 1) 0 * 0.28
  let decayBoost := clamp (max queueDecayRate 0 / max orderQty 1e-9 * 50) 0 0.20
  let cancelBoost := clamp cancelRate 0 0.18
  let tradeThroughBoost := clamp engine.tradeThroughRate 0 0.20
  let fillProbability := clamp
    (0.55 + decayBoost + cancelBoost + tradeThroughBoost - queuePenalty - spreadPenalty -
      outbidPenalty) 0 1
  { engine with
    state := { engine.state with
      queueDecayRate := queueDecayRate
      volumeAhead := volumeAhead
      queuePositionRatio := queuePositionRatio
      fillProbability := fillProbability
      expectedFillTimeMs := expectedFillTimeMs volumeAhead orderQty fillProbability queueDecayRate }
    cancelRate := cancelRate
    lastTs := nowTs
    lastVisibleVolume := visibleVolume
    lastVolumeAhead := volumeAhead }

def observeTrade (tradedVolume orderQty : ℚ) (nowTs : Nat) (engine : QueueEngine) : QueueEngine :=
  let elapsedMs := engine.elapsedMs nowTs
  let tradeImpulse :=
    clamp (tradedVolume / max (max engine.state.volumeAhead orderQty) 1e-9) 0 1
  let consumed := min tradedVolume engine.state.volumeAhead
  let volumeAhead := max (engine.state.volumeAhead - consumed) orderQty
  let queueDecayRate := ewma engine.state.queueDecayRate (consumed / elapsedMs) emaAlphaFast
  let fillProbability := clamp (engine.state.fillProbability + tradeImpulse * 0.18) 0 1
  { engine with
    state := { engine.state with
      volumeAhead := volumeAhead
      queueDecayRate := queueDecayRate
      queuePositionRatio :=
        clamp (volumeAhead / max (max engine.lastVisibleVolume orderQty) 1e-9) 0 8
      fillProbability := fillProbability
      expectedFillTimeMs := expectedFillTimeMs volumeAhead orderQty fillProbability queueDecayRate }
    tradeThroughRate := ewma engine.tradeThroughRate tradeImpulse emaAlphaFast
    lastTs := nowTs
    lastVolumeAhead := volumeAhead }

end QueueEngine

end RealTimeTrading.Rtts
