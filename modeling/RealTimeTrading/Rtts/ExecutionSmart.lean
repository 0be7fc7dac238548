/-
RealTimeTrading.Rtts.ExecutionSmart — `execution_smart.rs`: what becomes
of an instruction, with `queue_position.rs`, `fill_probability.rs`,
`execution_mode.rs` and `symbol_profile.rs`.

A post is its endpoint and payload. Instants are milliseconds: their text
form on the wire is not modelled. The latency distributions of the loop
are never recorded into.
-/
import RealTimeTrading.Rtts.ExecutionController
import RealTimeTrading.Rtts.Accounting.Latency
import RealTimeTrading.Rtts.MetaEngine

namespace RealTimeTrading.Rtts

open Accounting Concurrency

/-! ## Payloads -/

structure ControlPlaneExecutionRequest where
  idempotencyKey : String
  symbol : String
  side : String
  size : ℚ
  price : Option ℚ
  decision : String
  signalTime : Nat
  maxSlippageBps : ℚ
  reduceOnly : Bool
  requestTimestamp : Nat
  expectedRealizedMarkout : ℚ
  regimeKind : String
  regimeVolatility : ℚ
  regimeSpread : ℚ
  regimeTrendStrength : ℚ
  deriving DecidableEq

/-- What is posted: to `/execution/requests`, or to an order's `cancel`,
`replace` or `strategy`. -/
inductive Post where
  | request (request : ControlPlaneExecutionRequest)
  | cancel (orderId reason : String)
  | replace (orderId : String) (newPrice : ℚ) (reason : String)
  | strategy (orderId : String) (strategy : String) (price : Option ℚ) (reason : String)
  deriving DecidableEq

def sideLabel : Side → String
  | .buy => "BUY"
  | .sell => "SELL"

def strategyLabel : ExecutionStrategy → String
  | .passive => "PASSIVE"
  | .aggressive => "AGGRESSIVE"
  | .defensive => "DEFENSIVE"

/-! ## Preparing an intent -/

namespace SymbolProfileEngine

def ema (previous value alpha : ℚ) : ℚ := previous * (1 - alpha) + value * alpha

def observeIntent (intent : OrderIntent) (profile : SymbolProfile) : SymbolProfile :=
  { profile with
    avgSpreadBps := ema profile.avgSpreadBps (max intent.regime.spread 0.1) 0.02
    volatilityEma := ema profile.volatilityEma (max intent.regime.volatility 0.01) 0.02
    avgTradeSize := ema profile.avgTradeSize (max intent.request.size 0.0001) 0.02 }

end SymbolProfileEngine

namespace QueuePositionEngine

def flowDiscount : FlowSignal → ℚ
  | .strongContinuation => 0.72
  | .weakContinuation => 1
  | .exhaustion => 1.35
  | .reversalRisk => 1.80

def estimate (intent : OrderIntent) (profile : SymbolProfile) : QueueEstimate :=
  let passive : ℚ := if intent.request.orderType = .limit then 1 else 0
  let spreadPressure := clamp (intent.regime.spread / max profile.avgSpreadBps 0.1) 0.25 4
  let volumeAhead := intent.request.size * (1 + passive * spreadPressure) *
    flowDiscount intent.flow.signal * (1 + clamp (1 - intent.timing.timingScore) 0 1)
  let queuePosition := volumeAhead / max profile.avgTradeSize 0.0001
  let placementDepthBps :=
    if intent.request.orderType = .limit then
      clamp (0.15 + min intent.regime.spread 20 * 0.06 + min queuePosition 8 * 0.04) 0.1 3
    else 0
  let fillProbability := clamp
    (profile.avgFillProbability * 0.35 + intent.timing.timingScore * 0.30 +
      intent.flow.continuationStrength * 0.22 + min (1 / (1 + queuePosition)) 1 * 0.13) 0.02 0.98
  { queuePosition := queuePosition
    volumeAhead := volumeAhead
    fillProbability := fillProbability
    placementDepthBps := placementDepthBps }

end QueuePositionEngine

namespace FillProbabilityModel

def pressure : FlowSignal → ℚ
  | .strongContinuation => 0.18
  | .weakContinuation => 0
  | .exhaustion => -0.18
  | .reversalRisk => -0.35

def classify (intent : OrderIntent) (queue : QueueEstimate) : FillProbabilityClass :=
  let score := queue.fillProbability + pressure intent.flow.signal +
    intent.timing.tradeBurst * 0.10 - clamp (intent.regime.spread / 25) 0 0.30 -
    clamp (queue.queuePosition / 12) 0 0.25
  if 0.58 < score then .highFill else .lowFill

end FillProbabilityModel

namespace ExecutionModeSwitch

def choose (intent : OrderIntent) (fill : FillProbabilityClass) : ExecutionMode :=
  if intent.request.reduceOnly = true ∨ intent.context.regime = .newsShock ∨
      intent.flow.signal = .reversalRisk ∨ intent.timing.signal = .missed then .defensive
  else if 0.70 < intent.urgency ∨ intent.expectedDurationMs < 160 ∨
      (fill = .lowFill ∧ intent.flow.signal = .strongContinuation) then .aggressive
  else .passive

end ExecutionModeSwitch

def prepareExecution (profile : SymbolProfile) (intent : OrderIntent) : OrderIntent :=
  let queue := QueuePositionEngine.estimate intent profile
  let fillClass := FillProbabilityModel.classify intent queue
  let mode : ExecutionMode := ExecutionModeSwitch.choose intent fillClass
  let intent := { intent with
    executionMode := mode
    fillProbability := fillClass
    request := { intent.request with
      orderType := match mode with
        | .aggressive | .defensive => .market
        | .passive => .limit
      postOnly := decide (mode = ExecutionMode.passive)
      reduceOnly :=
        if mode = ExecutionMode.defensive then true else intent.request.reduceOnly } }
  let intent := { intent with queueEstimate := QueuePositionEngine.estimate intent profile }
  if intent.request.orderType = .limit then
    let reference := intent.request.price.getD intent.lastPrice
    let depth := intent.queueEstimate.placementDepthBps / 10000
    let inside := match intent.request.side with
      | .buy => reference * (1 - depth)
      | .sell => reference * (1 + depth)
    { intent with request := { intent.request with price := some inside } }
  else intent

/-! ## Gates of a submission -/

def expectedRealMarkoutAfterCost (latency : LatencyDistributions) (intent : OrderIntent) : ℚ :=
  let expectedBps := max
    (intent.flow.continuationStrength * 5 + intent.timing.timingScore * 3 -
      intent.expectedSlippageBps - max intent.regime.spread 0 * 0.25) (-10)
  let notional := notional intent
  let fillQuality : ℚ := match intent.fillProbability with
    | .highFill => 1
    | .lowFill => 0.4
  let latencyPenalty := latencyImpactScore latency.snapshot intent.expectedSlippageBps fillQuality
  notional * expectedBps / 10000 - notional * (0.0004 + latencyPenalty * 0.00025)

def executionThreshold (cfg : Config) : ℚ := max (cfg.baseOrderUsd * 0.00005) 0.001

def staleBeforeExecute (cfg : Config) (intent : OrderIntent) : Prop :=
  cfg.maxDataAgeMs < intent.dataLatencyMs

instance (cfg : Config) (intent : OrderIntent) : Decidable (staleBeforeExecute cfg intent) := by
  unfold staleBeforeExecute; infer_instance

def metaNotExecute (intent : OrderIntent) : Prop :=
  ∃ decided ∈ intent.metaDecision, decided.decision ≠ .execute

instance (intent : OrderIntent) : Decidable (metaNotExecute intent) := by
  unfold metaNotExecute; infer_instance

def weakExpectedRealMarkout (cfg : Config) (intent : OrderIntent) : Prop :=
  expectedRealMarkoutAfterCost .initial intent ≤ executionThreshold cfg

instance (cfg : Config) (intent : OrderIntent) :
    Decidable (weakExpectedRealMarkout cfg intent) := by
  unfold weakExpectedRealMarkout; infer_instance

/-! ## The loop -/

def submitRequest (intent : OrderIntent) (idempotencyKey : String) (expectedRealizedMarkout : ℚ)
    (now : Nat) : ControlPlaneExecutionRequest :=
  { idempotencyKey := idempotencyKey
    symbol := intent.request.symbol
    side := sideLabel intent.request.side
    size := intent.request.size
    price := intent.request.price
    decision := "Execute"
    signalTime := intent.timestamp
    maxSlippageBps := intent.request.maxSlippageBps
    reduceOnly := intent.request.reduceOnly
    requestTimestamp := now
    expectedRealizedMarkout := expectedRealizedMarkout
    regimeKind := intent.context.regime.debug
    regimeVolatility := intent.regime.volatility
    regimeSpread := intent.regime.spread
    regimeTrendStrength := intent.regime.trendStrength }

def exitRequest (orderId symbol : String) (side : Side) (size : ℚ) (price : Option ℚ)
    (now now' : Nat) : ControlPlaneExecutionRequest :=
  { idempotencyKey := orderId ++ "-exit"
    symbol := symbol
    side := sideLabel side
    size := size
    price := price
    decision := "Exit"
    signalTime := now
    maxSlippageBps := 8
    reduceOnly := true
    requestTimestamp := now'
    expectedRealizedMarkout := 0
    regimeKind := "ExecutionExit"
    regimeVolatility := 0
    regimeSpread := 0
    regimeTrendStrength := 0 }

/-- What an instruction posts, if anything, and the profile after it; `now`
and `now'` are the readings of the clock. -/
def handleInstruction (cfg : Config) (now now' : Nat) (instruction : ExecutionInstruction)
    (profile : SymbolProfile) : Option Post × SymbolProfile :=
  match instruction with
  | .submit intent key =>
    if staleBeforeExecute cfg intent then (none, profile)
    else if metaNotExecute intent then (none, profile)
    else if weakExpectedRealMarkout cfg intent then (none, profile)
    else
      let profile := SymbolProfileEngine.observeIntent intent profile
      (some (.request (submitRequest (prepareExecution profile intent) key
        (expectedRealMarkoutAfterCost .initial intent) now)), profile)
  | .cancel orderId _ reason => (some (.cancel orderId reason), profile)
  | .replace orderId _ newPrice reason => (some (.replace orderId newPrice reason), profile)
  | .switchStrategy orderId _ newStrategy price reason =>
    (some (.strategy orderId (strategyLabel newStrategy) price reason), profile)
  | .abort orderId _ reason => (some (.cancel orderId reason), profile)
  | .exitPosition orderId symbol side size price _ =>
    (some (.request (exitRequest orderId symbol side size price now now')), profile)

/-- An instruction received, with the readings of the clock in its turn. -/
structure Turn where
  instruction : ExecutionInstruction
  now : Nat
  now' : Nat

def handleTurn (cfg : Config) (profile : SymbolProfile) (turn : Turn) :
    List Post × SymbolProfile :=
  let (post, profile) := handleInstruction cfg turn.now turn.now' turn.instruction profile
  (post.toList, profile)

/-- Everything the loop posts over the turns. -/
def posts (cfg : Config) (profile : SymbolProfile) (turns : List Turn) : List Post :=
  (emit (handleTurn cfg) profile turns).1

theorem mem_posts_iff {cfg : Config} {profile : SymbolProfile} {turns : List Turn} {post : Post} :
    post ∈ posts cfg profile turns ↔
      ∃ before turn after, turns = before ++ turn :: after ∧
        (handleInstruction cfg turn.now turn.now' turn.instruction
          (emit (handleTurn cfg) profile before).2).1 = some post := by
  simp only [posts, mem_emit_iff, handleTurn, Option.mem_toList]

end RealTimeTrading.Rtts
