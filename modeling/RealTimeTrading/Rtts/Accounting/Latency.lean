/-
RealTimeTrading.Rtts.Accounting.Latency — `accounting/latency.rs`.
-/
import RealTimeTrading.Rtts.Types
import Mathlib.Algebra.Order.Floor.Defs
import Mathlib.Data.Rat.Floor

namespace RealTimeTrading.Rtts.Accounting

structure LatencyBreakdown where
  decisionLatencyUs : Nat := 0
  sendLatencyUs : Nat := 0
  ackLatencyUs : Nat := 0
  firstFillLatencyUs : Nat := 0
  fullFillLatencyUs : Nat := 0

structure LatencyPercentiles where
  p50 : Nat := 0
  p90 : Nat := 0
  p99 : Nat := 0

structure LatencyDistributionSnapshot where
  decisionLatency : LatencyPercentiles
  sendLatency : LatencyPercentiles
  ackLatency : LatencyPercentiles
  firstFillLatency : LatencyPercentiles
  fullFillLatency : LatencyPercentiles

/-- The queues hold the newest values last. -/
structure LatencyDistributions where
  capacity : Nat
  decision : List Nat := []
  send : List Nat := []
  ack : List Nat := []
  firstFill : List Nat := []
  fullFill : List Nat := []

/-- `(len - 1) as f64 * q`, rounded half up. -/
def percentile (sorted : List Nat) (q : ℚ) : Nat :=
  let idx := ⌊((sorted.length - 1 : Nat) : ℚ) * q + 1 / 2⌋₊
  sorted.getD (min idx (sorted.length - 1)) 0

def summarize (values : List Nat) : LatencyPercentiles :=
  if values.isEmpty then {}
  else
    let sorted := values.mergeSort (· ≤ ·)
    { p50 := percentile sorted 0.50, p90 := percentile sorted 0.90, p99 := percentile sorted 0.99 }

def pushCapped (queue : List Nat) (value capacity : Nat) : List Nat :=
  (if queue.length = capacity then queue.tail else queue) ++ [value]

namespace LatencyDistributions

def new (capacity : Nat) : LatencyDistributions := { capacity := max capacity 32 }

/-- `LatencyDistributions::default()`. -/
def initial : LatencyDistributions := new 512

def record (breakdown : LatencyBreakdown) (d : LatencyDistributions) : LatencyDistributions :=
  { d with
    decision := pushCapped d.decision breakdown.decisionLatencyUs d.capacity
    send := pushCapped d.send breakdown.sendLatencyUs d.capacity
    ack := pushCapped d.ack breakdown.ackLatencyUs d.capacity
    firstFill := pushCapped d.firstFill breakdown.firstFillLatencyUs d.capacity
    fullFill := pushCapped d.fullFill breakdown.fullFillLatencyUs d.capacity }

def snapshot (d : LatencyDistributions) : LatencyDistributionSnapshot :=
  { decisionLatency := summarize d.decision
    sendLatency := summarize d.send
    ackLatency := summarize d.ack
    firstFillLatency := summarize d.firstFill
    fullFillLatency := summarize d.fullFill }

end LatencyDistributions

def normalizeUs (value budget : Nat) : ℚ :=
  if budget = 0 then 1 else clamp (value / budget) 0 1

def latencyImpactScore (distribution : LatencyDistributionSnapshot) (slippageBps fillQuality : ℚ) :
    ℚ :=
  let decisionPenalty := normalizeUs distribution.decisionLatency.p90 2000
  let sendPenalty := normalizeUs distribution.sendLatency.p90 4000
  let ackPenalty := normalizeUs distribution.ackLatency.p90 5000
  let firstFillPenalty := normalizeUs distribution.firstFillLatency.p99 8000
  let fullFillPenalty := normalizeUs distribution.fullFillLatency.p99 12000
  let slipPenalty := clamp (|slippageBps| / 12) 0 1
  let fillQualityPenalty := clamp (1 - fillQuality) 0 1
  clamp (0.20 * decisionPenalty + 0.12 * sendPenalty + 0.12 * ackPenalty +
    0.22 * firstFillPenalty + 0.18 * fullFillPenalty + 0.08 * slipPenalty +
    0.08 * fillQualityPenalty) 0 1

end RealTimeTrading.Rtts.Accounting
