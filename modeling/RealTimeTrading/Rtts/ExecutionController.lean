/-
RealTimeTrading.Rtts.ExecutionController — `execution_controller.rs`: one
controller per order, and the loop that feeds them.

The loop is a step function on its two maps (`Controllers.step`): an
intent, an execution event or a market update comes in, instructions go
out. A market update visits the controllers in the order of the map, which
is no particular order.
-/
import RealTimeTrading.Rtts.Execution.QueueEngine
import RealTimeTrading.Concurrency.Emitting

namespace RealTimeTrading.Rtts

open Concurrency

/-! ## Records -/

inductive ExecutionStrategy where
  | passive
  | aggressive
  | defensive
  deriving DecidableEq, Repr

def ExecutionStrategy.ofMode : ExecutionMode → ExecutionStrategy
  | .passive => .passive
  | .aggressive => .aggressive
  | .defensive => .defensive

inductive OrderLifecycleState where
  | new
  | sent
  | ack
  | partially
  | filled
  | canceled
  | rejected
  deriving DecidableEq, Repr

def OrderLifecycleState.isTerminal : OrderLifecycleState → Bool
  | .filled | .canceled | .rejected => true
  | _ => false

structure FillProgress where
  filledQty : ℚ := 0
  remainingQty : ℚ := 0
  fillRate : ℚ := 0
  lastFillTs : Option Nat := none

inductive ExecutionAction where
  | holdPassive
  | stepAhead (newPrice : ℚ)
  | crossSpread
  | cancel
  | replace (newPrice : ℚ)
  | switchStrategy (newStrategy : ExecutionStrategy)
  | exitPosition (price : Option ℚ)
  | abort
  deriving DecidableEq

structure OrderExecutionState where
  timeInBookMs : Nat := 0
  timesOutbid : Nat := 0
  cancelReplaceCount : Nat := 0
  fillProgress : ℚ := 0
  queuePositionHistory : List ℚ := []

inductive ExecutionFailureReason where
  | queueTooDeep
  | outbid
  | latencyTooHigh
  | competitionSpike
  | liquidityPull
  | noFillTimeout
  deriving DecidableEq, Repr

structure ExecutionControllerEvent where
  orderId : String
  idempotencyKey : Option String
  symbol : String
  status : OrderLifecycleState
  filledQtyDelta : ℚ
  cumulativeFilledQty : ℚ
  remainingQty : ℚ
  partialFillRatio : ℚ
  slippageBps : ℚ
  competitionFlag : CompetitionFlag
  latencyUs : Nat
  eventTs : Nat

structure ExecutionControlFeedback where
  orderId : String
  symbol : String
  reason : ExecutionFailureReason
  elapsedMs : ℚ
  fillRatio : ℚ
  expectedFillTimeMs : ℚ
  edgeHalfLifeMs : ℚ
  abortedDueToDecay : Bool

inductive ExecutionInstruction where
  | submit (intent : OrderIntent) (idempotencyKey : String)
  | cancel (orderId symbol reason : String)
  | replace (orderId symbol : String) (newPrice : ℚ) (reason : String)
  | switchStrategy (orderId symbol : String) (newStrategy : ExecutionStrategy) (price : Option ℚ)
      (reason : String)
  | exitPosition (orderId symbol : String) (side : Side) (size : ℚ) (price : Option ℚ)
      (reason : String)
  | abort (orderId symbol reason : String)

def ExecutionInstruction.isExit : ExecutionInstruction → Bool
  | .exitPosition .. => true
  | _ => false

structure ExecutionController where
  orderId : String
  symbol : String
  side : Side
  initialDecision : ScoredDecision
  currentStrategy : ExecutionStrategy
  queueState : QueueState
  fillState : FillProgress
  orderState : OrderExecutionState := {}
  startTs : Nat
  lastUpdateTs : Nat
  expectedFillTimeMs : ℚ
  edgeHalfLifeMs : ℚ
  cancelCount : Nat := 0
  replaceCount : Nat := 0
  queueEngine : QueueEngine
  idempotencyKey : String
  currentPrice : Option ℚ
  status : OrderLifecycleState := .new
  initialVolumeAhead : ℚ
  lastActionTs : Nat := 0
  lastLatencyUs : Nat := 0
  lastSlippageBps : ℚ := 0
  actionCooldownMs : Nat
  maxCancelPerOrder : Nat
  maxReplacePerOrder : Nat
  queueReplaceVolumeFactor : ℚ
  minFillProbability : ℚ
  negativeCaptureStreak : Nat
  executionAlphaMean : ℚ
  validationApproved : Bool
  recentAdverseSelection : ℚ := 0
  recentMarkoutDegradation : ℚ
  recentCaptureRatio : ℚ
  recentPartialFillRatio : ℚ := 0

/-! ## Functions of an intent -/

def queueFillProbability (queue : QueueEstimate) : ℚ := clamp queue.fillProbability 0 1

def expectedFillTimeMs (intent : OrderIntent) : ℚ :=
  let fillProbability := max (queueFillProbability intent.queueEstimate) 0.05
  let urgencyFactor := clamp (1.15 - intent.urgency * 0.35) 0.65 1.20
  intent.expectedDurationMs / fillProbability * urgencyFactor

def edgeHalfLifeMs (intent : OrderIntent) : ℚ :=
  let halfLifeSamples := max intent.edgeHalfLifeSamples 0.5
  clamp (halfLifeSamples * intent.expectedDurationMs) (intent.expectedDurationMs * 0.75)
    (intent.expectedDurationMs * 12)

def idempotencyKey (intent : OrderIntent) : String :=
  intent.request.symbol ++ "-" ++ toString intent.timestamp ++ "-" ++
    match intent.request.side with
    | .buy => "buy"
    | .sell => "sell"

def scoredDecisionFromIntent (intent : OrderIntent) : ScoredDecision :=
  { market := { timestamp := intent.timestamp, price := intent.lastPrice }
    features := { weightedImbalance := 0, orderFlowDelta := 0 }
    regime := intent.regime
    context := intent.context
    flow := intent.flow
    timing := intent.timing
    direction := if intent.request.side = .buy then .long else .short
    confidence := intent.score
    score := intent.score
    decision := intent.reason
    expectedDurationMs := intent.expectedDurationMs
    urgency := intent.urgency
    expectedSlippageBps := intent.expectedSlippageBps
    dataLatencyMs := intent.dataLatencyMs
    adversarialRisk := 0
    edgeState := intent.edgeState
    edgeReliabilityScore := intent.edgeReliabilityScore
    edgeHalfLifeSamples := intent.edgeHalfLifeSamples
    edgeCaptureMean := intent.edgeCaptureMean
    negativeCaptureStreak := intent.negativeCaptureStreak
    executionAlphaMean := intent.executionAlphaMean
    markoutDegradationScore := intent.markoutDegradationScore
    dynamicSizeMultiplier := intent.dynamicSizeMultiplier
    competitionState := intent.competitionState
    competitionScore := intent.competitionScore
    tradingEnabled := intent.tradingEnabled
    fillProbability := intent.fillProbability }

/-! ## Small functions -/

def competitionStateFromFlag (flag : CompetitionFlag) (fallback : CompetitionState) :
    CompetitionState :=
  match flag with
  | .repeatedOutbid | .partialFillToxicity => .saturated
  | .slowFill | .cancelLatency => .competitive
  | .none => fallback

def classifyCompetitionState (fillProbability : ℚ) (outbidCount : Nat)
    (liquidityPullScore : ℚ) : CompetitionState :=
  if fillProbability < 0.15 ∨ 3 ≤ outbidCount ∨ 0.80 < liquidityPullScore then .saturated
  else if fillProbability < 0.32 ∨ 1 ≤ outbidCount ∨ 0.45 < liquidityPullScore then .competitive
  else .normal

def derivedTick (bestBid bestAsk reference : ℚ) : ℚ :=
  min (max (max |bestAsk - bestBid| (|reference| * 0.00002)) 0.01) (|reference| * 0.00025)

def pushBoundedHistory (history : List ℚ) (value : ℚ) : List ℚ :=
  (if history.length = 16 then history.tail else history) ++ [value]

namespace ExecutionController

def new (intent : OrderIntent) (cfg : Config) : ExecutionController :=
  let key := Rtts.idempotencyKey intent
  let expectedFillTimeMs := Rtts.expectedFillTimeMs intent
  let initialVolumeAhead := max intent.queueEstimate.volumeAhead intent.request.size
  let queueEngine :=
    QueueEngine.new intent.queueEstimate intent.request.size intent.expectedDurationMs
  { orderId := key
    symbol := intent.request.symbol
    side := intent.request.side
    initialDecision := scoredDecisionFromIntent intent
    currentStrategy := .ofMode intent.executionMode
    queueState := { queueEngine.state with
      volumeAhead := initialVolumeAhead
      expectedFillTimeMs := expectedFillTimeMs }
    fillState := { remainingQty := intent.request.size }
    startTs := intent.timestamp
    lastUpdateTs := intent.timestamp
    expectedFillTimeMs := expectedFillTimeMs
    edgeHalfLifeMs := Rtts.edgeHalfLifeMs intent
    queueEngine := queueEngine
    idempotencyKey := key
    currentPrice := intent.request.price
    initialVolumeAhead := initialVolumeAhead
    actionCooldownMs := cfg.executionActionCooldownMs
    maxCancelPerOrder := cfg.maxCancelPerOrder
    maxReplacePerOrder := cfg.maxReplacePerOrder
    queueReplaceVolumeFactor := max cfg.queueReplaceVolumeFactor 1.05
    minFillProbability := clamp cfg.minFillProbability 0.05 0.95
    negativeCaptureStreak := intent.negativeCaptureStreak
    executionAlphaMean := intent.executionAlphaMean
    validationApproved := intent.tradingEnabled && decide (intent.edgeState ≠ .invalid)
    recentMarkoutDegradation := intent.markoutDegradationScore
    recentCaptureRatio := intent.edgeCaptureMean }

section Reads

variable (c : ExecutionController)

def elapsedTimeMs (nowTs : Nat) : ℚ := (nowTs - c.startTs : Nat)

def cooldownElapsed (nowTs : Nat) : Prop := c.actionCooldownMs ≤ nowTs - c.lastActionTs

instance (nowTs : Nat) : Decidable (c.cooldownElapsed nowTs) := by
  unfold cooldownElapsed; infer_instance

/-- `remaining_qty.max(filled_qty + remaining_qty)`. -/
def orderQty : ℚ := max c.fillState.remainingQty (c.fillState.filledQty + c.fillState.remainingQty)

def competitionPenalty : CompetitionState → ℚ
  | .normal => 0
  | .competitive => 0.18
  | .saturated => 0.40

def estimateFillProbability (liquidityPullScore : ℚ) : ℚ :=
  let base := if c.initialDecision.fillProbability = .highFill then 0.72 else 0.42
  let queuePenalty := clamp (c.queueState.queuePositionRatio / 3) 0 0.65
  let outbidPenalty := clamp (c.orderState.timesOutbid * 0.08) 0 0.24
  let alphaPenalty := clamp (-c.executionAlphaMean / 10) 0 0.15
  let markoutPenalty := clamp c.recentMarkoutDegradation 0 0.18
  clamp (base - queuePenalty - competitionPenalty c.queueState.competitionState - outbidPenalty -
    alphaPenalty - markoutPenalty - liquidityPullScore * 0.10 +
    min c.queueEngine.cancelRate 0.08 + min c.queueEngine.tradeThroughRate 0.10) 0 1

/-- The price the order rests at, or the last reference price. -/
def reference : ℚ := c.currentPrice.getD c.queueState.lastReferencePrice

def crossPrice : Option ℚ :=
  let tick := derivedTick c.queueState.bestBid c.queueState.bestAsk c.reference
  some <| match c.side with
    | .buy => max c.queueState.bestAsk (c.reference + tick)
    | .sell => min c.queueState.bestBid (c.reference - tick)

def computeImprovedPrice : Option ℚ :=
  let reference := c.reference
  let touch := match c.side with
    | .buy => max c.queueState.bestAsk reference
    | .sell =>
      min (if 0 < c.queueState.bestBid then c.queueState.bestBid else reference) reference
  let tick := derivedTick c.queueState.bestBid c.queueState.bestAsk reference
  let weakEdge := c.initialDecision.edgeReliabilityScore < 0.60 ∨ c.initialDecision.score < 0.68
  let improvement := if weakEdge then tick * 0.5 else tick
  let improved := match c.side with
    | .buy => min (reference + improvement) touch
    | .sell => max (reference - improvement) touch
  if |improved - reference| ≤ epsilon then none else some improved

def shouldReplace (nowTs : Nat) : Prop :=
  c.currentStrategy = .passive ∧ c.replaceCount < c.maxReplacePerOrder ∧
    epsilon < c.fillState.remainingQty ∧
    (1.25 < c.queueState.queuePositionRatio ∨
      c.initialVolumeAhead * c.queueReplaceVolumeFactor < c.queueState.volumeAhead ∨
      c.queueState.fillProbability < c.minFillProbability ∨
      c.queueState.competitionState ≠ .normal) ∧
    min c.queueState.expectedFillTimeMs c.expectedFillTimeMs * 0.55 < c.elapsedTimeMs nowTs

instance (nowTs : Nat) : Decidable (c.shouldReplace nowTs) := by
  unfold shouldReplace; infer_instance

def shouldSwitchStrategy (nowTs : Nat) : Option ExecutionStrategy :=
  let timeRemaining := max (c.edgeHalfLifeMs - c.elapsedTimeMs nowTs) 0
  let strongEdge := 0.78 < c.initialDecision.score ∧
    0.60 < c.initialDecision.edgeReliabilityScore ∧ -1.5 < c.executionAlphaMean
  if c.currentStrategy = .passive ∧ c.queueState.fillProbability < c.minFillProbability * 0.80 ∧
      strongEdge ∧ timeRemaining < max c.expectedFillTimeMs 1 then
    some .aggressive
  else if c.currentStrategy = .aggressive ∧
      c.initialDecision.expectedSlippageBps * 1.35 < c.lastSlippageBps ∧
      c.expectedFillTimeMs * 0.75 < timeRemaining then
    some .passive
  else if c.queueState.competitionState = .saturated ∨ c.initialDecision.edgeState = .invalid then
    some .defensive
  else none

def shouldExitPosition : Prop :=
  epsilon < c.fillState.filledQty ∧
    (4 ≤ c.negativeCaptureStreak ∨ c.recentCaptureRatio < -0.05 ∨
      0.75 < c.recentAdverseSelection ∨ 0.70 < c.recentMarkoutDegradation ∨
      c.executionAlphaMean < -2)

instance : Decidable c.shouldExitPosition := by unfold shouldExitPosition; infer_instance

def shouldCrossSpread (nowTs : Nat) : Prop :=
  c.currentStrategy ≠ .defensive ∧ c.queueState.fillProbability < c.minFillProbability * 0.65 ∧
    c.edgeHalfLifeMs * 0.35 < c.elapsedTimeMs nowTs ∧ 0.62 < c.initialDecision.edgeReliabilityScore

instance (nowTs : Nat) : Decidable (c.shouldCrossSpread nowTs) := by
  unfold shouldCrossSpread; infer_instance

def shouldCancel (nowTs : Nat) : Prop :=
  c.cancelCount < c.maxCancelPerOrder ∧ c.fillState.filledQty ≤ epsilon ∧
    min c.queueState.expectedFillTimeMs c.expectedFillTimeMs * 1.20 < c.elapsedTimeMs nowTs

instance (nowTs : Nat) : Decidable (c.shouldCancel nowTs) := by
  unfold shouldCancel; infer_instance

def classifyFailure (nowTs : Nat) : ExecutionFailureReason :=
  if c.edgeHalfLifeMs < c.elapsedTimeMs nowTs ∨
      c.expectedFillTimeMs * 1.5 < c.elapsedTimeMs nowTs then .noFillTimeout
  else if c.queueState.competitionState = .saturated then .competitionSpike
  else if 8000 < c.lastLatencyUs then .latencyTooHigh
  else if 0.70 < c.recentMarkoutDegradation then .liquidityPull
  else if 2 ≤ c.orderState.timesOutbid then .outbid
  else .queueTooDeep

/-- The last part of `evaluate_action`: work the order in the queue. -/
def queueAction (nowTs : Nat) : ExecutionAction :=
  let rest := if c.shouldCancel nowTs then .cancel else .holdPassive
  if c.shouldReplace nowTs then
    match c.computeImprovedPrice with
    | some newPrice =>
      if c.queueState.competitionState = .competitive ∧ c.currentStrategy = .passive then
        .stepAhead newPrice
      else if c.shouldCrossSpread nowTs then .crossSpread
      else .replace newPrice
    | none => rest
  else rest

def evaluateAction (nowTs : Nat) : ExecutionAction :=
  if c.status.isTerminal then .holdPassive
  else if ¬ c.cooldownElapsed nowTs then .holdPassive
  else if c.validationApproved = false ∨ c.initialDecision.edgeState = .invalid ∨
      c.queueState.competitionState = .saturated ∨ c.edgeHalfLifeMs < c.elapsedTimeMs nowTs then
    if epsilon < c.fillState.filledQty then .exitPosition c.crossPrice else .abort
  else if c.edgeHalfLifeMs < c.expectedFillTimeMs then
    if (c.shouldSwitchStrategy nowTs).isSome then .switchStrategy .aggressive else .abort
  else if c.shouldExitPosition then .exitPosition c.crossPrice
  else
    match c.shouldSwitchStrategy nowTs with
    | some newStrategy => .switchStrategy newStrategy
    | none => c.queueAction nowTs

end Reads

/-! ## Writes -/

def onBook (book : BookDelta) (bestBid bestAsk : BookLevel) (c : ExecutionController) :
    ExecutionController :=
  let lastReferencePrice := match c.side with
    | .buy => bestBid.price
    | .sell => bestAsk.price
  let visibleVolume := match c.side with
    | .buy => bestBid.quantity
    | .sell => bestAsk.quantity
  let spreadBps := max (bestAsk.price - bestBid.price) 0 / max lastReferencePrice 1e-9 * 10000
  let outbid := match c.currentPrice with
    | some currentPrice =>
      match c.side with
      | .buy => decide (currentPrice < bestBid.price)
      | .sell => decide (bestAsk.price < currentPrice)
    | none => false
  let queueEngine :=
    c.queueEngine.observeBook visibleVolume c.orderQty outbid spreadBps book.timestamp
  let liquidityPullScore :=
    clamp ((c.initialVolumeAhead - visibleVolume) / max c.initialVolumeAhead 1e-9) 0 1 +
      clamp (spreadBps / 12) 0 1 * 0.25
  -- the prices set on the queue state are overwritten by the engine's copy
  let c := { c with
    lastUpdateTs := book.timestamp
    queueEngine := queueEngine
    queueState := queueEngine.state
    orderState := { c.orderState with
      timesOutbid :=
        if outbid then saturatingAddU32 c.orderState.timesOutbid 1 else c.orderState.timesOutbid
      timeInBookMs := book.timestamp - c.startTs
      queuePositionHistory :=
        pushBoundedHistory c.orderState.queuePositionHistory
          queueEngine.state.queuePositionRatio } }
  let fillProbability := c.estimateFillProbability liquidityPullScore
  { c with
    queueState := { c.queueState with
      fillProbability := fillProbability
      expectedFillTimeMs := max c.queueState.expectedFillTimeMs 1
      competitionState :=
        classifyCompetitionState fillProbability c.orderState.timesOutbid liquidityPullScore } }

def onTrade (trade : TradeEvent) (c : ExecutionController) : ExecutionController :=
  let queueEngine := c.queueEngine.observeTrade trade.volume c.orderQty trade.timestamp
  { c with
    lastUpdateTs := trade.timestamp
    queueEngine := queueEngine
    queueState := queueEngine.state
    orderState := { c.orderState with
      queuePositionHistory :=
        pushBoundedHistory c.orderState.queuePositionHistory
          queueEngine.state.queuePositionRatio } }

def onMarketUpdate (update : MarketUpdate) (c : ExecutionController) : ExecutionController :=
  match update with
  | .bookDelta book =>
    match book.bids.head?, book.asks.head? with
    | some bestBid, some bestAsk => onBook book bestBid bestAsk c
    | _, _ => c
  | .trade t => onTrade t c

def adverseSelection (flag : CompetitionFlag) (recent : ℚ) : ℚ :=
  match flag with
  | .partialFillToxicity => 0.9
  | .repeatedOutbid => 0.6
  | .slowFill => 0.45
  | .cancelLatency => 0.35
  | .none => recent * 0.92

/-- The part of `on_execution_event` for a quantity newly filled. -/
def onFilled (event : ExecutionControllerEvent) (c : ExecutionController) : ExecutionController :=
  let filledQty := max event.cumulativeFilledQty c.fillState.filledQty
  let remainingQty := max event.remainingQty 0
  let elapsedMs : ℚ := (max (event.eventTs - c.startTs) 1 : Nat)
  let c := { c with
    fillState :=
      { filledQty := filledQty
        remainingQty := remainingQty
        fillRate := filledQty / elapsedMs
        lastFillTs := some event.eventTs }
    orderState := { c.orderState with
      fillProgress := clamp (filledQty / max (filledQty + remainingQty) 1e-9) 0 1 } }
  let recentCaptureRatio := ewma c.recentCaptureRatio (event.partialFillRatio - 0.5) 0.12
  { c with
    queueState := { c.queueState with fillProbability := c.estimateFillProbability 0 }
    executionAlphaMean :=
      ewma c.executionAlphaMean (-(max event.slippageBps 0) - c.recentAdverseSelection * 2) 0.15
    recentCaptureRatio := recentCaptureRatio
    negativeCaptureStreak :=
      if recentCaptureRatio < 0 then saturatingAddUsize c.negativeCaptureStreak 1
      else c.negativeCaptureStreak - 1 }

def onExecutionEvent (event : ExecutionControllerEvent) (c : ExecutionController) :
    ExecutionController :=
  let c := { c with
    lastUpdateTs := event.eventTs
    orderId := event.orderId
    status := event.status
    lastLatencyUs := event.latencyUs
    lastSlippageBps := event.slippageBps
    queueState := { c.queueState with
      competitionState :=
        competitionStateFromFlag event.competitionFlag c.queueState.competitionState }
    recentPartialFillRatio := event.partialFillRatio
    recentAdverseSelection := adverseSelection event.competitionFlag c.recentAdverseSelection }
  let c := if 0 < event.filledQtyDelta then onFilled event c else c
  { c with
    recentMarkoutDegradation := ewma c.recentMarkoutDegradation
      (clamp (max c.lastSlippageBps 0 * 0.08 + c.recentAdverseSelection) 0 1) 0.16 }

def applyAction (action : ExecutionAction) (nowTs : Nat) (c : ExecutionController) :
    ExecutionController :=
  let c := { c with lastActionTs := nowTs }
  let c := match action with
    | .cancel | .exitPosition _ => { c with cancelCount := saturatingAddU32 c.cancelCount 1 }
    | .stepAhead newPrice | .replace newPrice =>
      { c with
        replaceCount := saturatingAddU32 c.replaceCount 1
        currentPrice := some newPrice }
    | .crossSpread =>
      { c with
        currentStrategy := .aggressive
        replaceCount := saturatingAddU32 c.replaceCount 1
        currentPrice := c.crossPrice }
    | .switchStrategy newStrategy => { c with currentStrategy := newStrategy }
    | .abort =>
      { c with cancelCount := saturatingAddU32 c.cancelCount 1, status := .canceled }
    | .holdPassive => c
  { c with
    orderState := { c.orderState with cancelReplaceCount := c.cancelCount + c.replaceCount } }

/-- The instruction an action becomes; there is none for `holdPassive`. -/
def convert (action : ExecutionAction) (c : ExecutionController) : Option ExecutionInstruction :=
  match action with
  | .holdPassive => none
  | .stepAhead newPrice => some (.replace c.orderId c.symbol newPrice "step_ahead")
  | .crossSpread =>
    some (.switchStrategy c.orderId c.symbol .aggressive c.crossPrice "cross_spread")
  | .cancel => some (.cancel c.orderId c.symbol "queue_timeout")
  | .replace newPrice => some (.replace c.orderId c.symbol newPrice "queue_fight")
  | .switchStrategy newStrategy =>
    some (.switchStrategy c.orderId c.symbol newStrategy c.computeImprovedPrice "adaptive_switch")
  | .exitPosition price =>
    some (.exitPosition c.orderId c.symbol c.side.opposite
      (min c.fillState.filledQty (c.fillState.filledQty + c.fillState.remainingQty)) price
      "execution_dominance_exit")
  | .abort => some (.abort c.orderId c.symbol "edge_decay_abort")

def evaluateAndConvert (nowTs : Nat) (c : ExecutionController) :
    Option ExecutionInstruction × ExecutionController :=
  let action := c.evaluateAction nowTs
  match convert action c with
  | none => (none, c)
  | some instruction => (some instruction, applyAction action nowTs c)

def feedback (eventTs : Nat) (c : ExecutionController) : ExecutionControlFeedback :=
  { orderId := c.orderId
    symbol := c.symbol
    reason := c.classifyFailure eventTs
    elapsedMs := c.elapsedTimeMs eventTs
    fillRatio := 1 - c.fillState.remainingQty /
      max (c.fillState.filledQty + c.fillState.remainingQty) 1e-9
    expectedFillTimeMs := c.expectedFillTimeMs
    edgeHalfLifeMs := c.edgeHalfLifeMs
    abortedDueToDecay := decide (c.edgeHalfLifeMs < c.elapsedTimeMs eventTs) }

end ExecutionController

/-! ## The loop -/

def marketTimestamp : MarketUpdate → Nat
  | .trade t => t.timestamp
  | .bookDelta book => book.timestamp

/-- What the loop receives. -/
inductive ControllerInput where
  | order (intent : OrderIntent)
  | execution (update : ExecutionControllerEvent)
  | market (update : MarketUpdate)

structure Controllers where
  controllers : HashMap String ExecutionController := ∅
  orderLookup : HashMap String String := ∅

/-- What the loop sends, in order. -/
structure Sent where
  instructions : List ExecutionInstruction := []
  feedback : List ExecutionControlFeedback := []

namespace Controllers

def resolveControllerKey (update : ExecutionControllerEvent) (orderLookup : HashMap String String) :
    Option String :=
  (orderLookup.lookup update.orderId).or (update.idempotencyKey.bind orderLookup.lookup)

def onOrder (cfg : Config) (intent : OrderIntent) (s : Controllers) : Sent × Controllers :=
  let controller := { ExecutionController.new intent cfg with status := .sent }
  let key := controller.idempotencyKey
  ({ instructions := [.submit intent key] },
    { controllers := s.controllers.insert key controller
      orderLookup := s.orderLookup.insert key key })

/-- The ids an execution event is known under, from now on. -/
def learn (update : ExecutionControllerEvent) (key : String) (orderLookup : HashMap String String) :
    HashMap String String :=
  let orderLookup := orderLookup.insert update.orderId key
  match update.idempotencyKey with
  | some clientKey => orderLookup.insert clientKey key
  | none => orderLookup

def onExecution (update : ExecutionControllerEvent) (s : Controllers) : Sent × Controllers :=
  match resolveControllerKey update s.orderLookup with
  | none => ({}, s)
  | some key =>
    match s.controllers.lookup key with
    | none => ({}, s)
    | some controller =>
      let controller := controller.onExecutionEvent update
      let orderLookup := learn update key s.orderLookup
      if controller.status.isTerminal then
        ({ feedback :=
            if controller.status = .filled then [] else [controller.feedback update.eventTs] },
          { controllers := s.controllers.erase key, orderLookup := orderLookup })
      else
        let (instruction, controller) := controller.evaluateAndConvert update.eventTs
        ({ instructions := instruction.toList },
          { controllers := s.controllers.insert key controller, orderLookup := orderLookup })

/-- One controller's turn at a market update. -/
def onMarketKey (update : MarketUpdate) (key : String) (x : Sent × Controllers) :
    Sent × Controllers :=
  match x.2.controllers.lookup key with
  | none => x
  | some controller =>
    let (instruction, controller) :=
      (controller.onMarketUpdate update).evaluateAndConvert (marketTimestamp update)
    ({ x.1 with instructions := x.1.instructions ++ instruction.toList },
      { x.2 with controllers := x.2.controllers.insert key controller })

def onMarket (cfg : Config) (update : MarketUpdate) (s : Controllers) : Sent × Controllers :=
  let keys := (s.controllers.entries.filter fun e =>
    decide (e.2.symbol = cfg.symbol) && !e.2.status.isTerminal).map (·.1)
  keys.foldl (fun x key => onMarketKey update key x) ({}, s)

def step (cfg : Config) (s : Controllers) : ControllerInput → Sent × Controllers
  | .order i => onOrder cfg i s
  | .execution update => onExecution update s
  | .market update => onMarket cfg update s

/-- All instructions sent over a run from the empty maps, with the state it ends in. -/
def run (cfg : Config) (inputs : List ControllerInput) : List ExecutionInstruction × Controllers :=
  emit (fun s input => ((step cfg s input).1.instructions, (step cfg s input).2)) {} inputs

end Controllers

end RealTimeTrading.Rtts
