/-
RealTimeTrading.Rtts.ExecutionTruth — `execution_truth.rs`: fills wait in a
queue until the market has shown what they were worth, and are then
reported for learning.

The two receivers are one list of inputs, in the order the loop takes them.
A fill that is done goes out with all that is made of it; where a learning
channel is full its sample is lost, which nothing here depends on.
-/
import RealTimeTrading.Concurrency.Emitting
import RealTimeTrading.Rtts.Accounting.Quality
import RealTimeTrading.Rtts.PositionLoop
import RealTimeTrading.Rtts.Scoring.ReversalEngine

namespace RealTimeTrading.Rtts

open Accounting Concurrency

/-- `FillEvent`, with what is read besides of it and of its `truth`. -/
structure TruthFill extends FillEvent where
  size : ℚ
  latencyUs : Nat
  latencyBreakdown : LatencyBreakdown
  expectedMarkout : ℚ
  actualSlippageBps : ℚ
  competitionFlag : CompetitionFlag
  regime : MarketRegime
  partialFillRatio : ℚ
  queueDelayUs : Nat
  simulated : Bool

structure MarkoutSnapshot where
  pnl100ms : ℚ
  pnl500ms : ℚ
  pnl1s : ℚ
  pnl5s : ℚ

/-- Of the fill's `truth`, what is read of it later. -/
structure ExecutionEvent where
  symbol : String
  side : Side
  fillQuality : ℚ
  slippageReal : ℚ
  adverseSelectionScore : ℚ
  markoutCurve : MarkoutSnapshot
  executionLatencyUs : Nat
  latencyBreakdown : LatencyBreakdown
  expectedMarkout : ℚ
  feesPaid : ℚ
  rebatesReceived : ℚ
  fundingCost : ℚ
  regime : MarketRegime
  competitionFlag : CompetitionFlag
  lastFillTimestamp : Nat
  partialFillRatio : ℚ

/-- The whole of `LearningSample`. -/
structure TruthSample extends ReversalSample where
  confidence : ℚ
  predictedScore : ℚ
  expectedSlippageBps : ℚ
  feesPaid : ℚ
  rebatesReceived : ℚ
  fundingCost : ℚ
  edgeCaptureRatio : ℚ
  entryQuality : ℚ
  markout100ms : ℚ
  markout500ms : ℚ
  markout1s : ℚ
  markout5s : ℚ

structure PendingFill where
  fill : TruthFill
  createdAt : Nat
  price100ms : Option ℚ := none
  price500ms : Option ℚ := none
  price1s : Option ℚ := none
  price5s : Option ℚ := none

/-- What is sent and logged of a fill that is done. -/
structure Finalized where
  item : PendingFill
  event : ExecutionEvent
  decisionQuality : DecisionQualityReport
  executionQuality : ExecutionQualityReport
  sample : TruthSample

namespace ExecutionTruth

def markout100Ms : Nat := 100

def markout500Ms : Nat := 500

def markout1S : Nat := 1000

def markout5S : Nat := 5000

/-! ## What a fill was worth -/

def markoutPnl (fill : TruthFill) (futurePrice : ℚ) : ℚ :=
  let side : ℚ :=
    match fill.side with
    | .buy => 1
    | .sell => -1
  (futurePrice - fill.price) * fill.filledSize * side - fill.fee + fill.rebateAmount -
    fill.fundingAmount

def adverseSelectionScore (markout : MarkoutSnapshot) : ℚ :=
  let early := max (-markout.pnl100ms) 0 * 0.65 + max (-markout.pnl500ms) 0 * 0.35
  clamp (early / 10) 0 1

def fillQuality (fill : TruthFill) (markout : MarkoutSnapshot) (adverse : ℚ) : ℚ :=
  let fillRatio := if 0 < fill.size then clamp (fill.filledSize / fill.size) 0 1 else 0
  let markoutScore := clamp (0.5 + markout.pnl500ms / 20) 0 1
  clamp (0.40 * fillRatio + 0.35 * markoutScore + 0.25 * (1 - adverse)) 0 1

def competitionFlag (fill : TruthFill) (markout : MarkoutSnapshot) : CompetitionFlag :=
  if fill.competitionFlag ≠ .none then fill.competitionFlag
  else if 2000 < fill.queueDelayUs ∨ 5000 < fill.latencyUs then .slowFill
  else if fill.partialFillRatio < 0.60 ∧ markout.pnl100ms < 0 then .partialFillToxicity
  else .none

/-- A price that was never seen is the fill's own. -/
def finalizedEvent (item : PendingFill) : ExecutionEvent :=
  let fill := item.fill
  let markout : MarkoutSnapshot :=
    { pnl100ms := markoutPnl fill (item.price100ms.getD fill.price)
      pnl500ms := markoutPnl fill (item.price500ms.getD fill.price)
      pnl1s := markoutPnl fill (item.price1s.getD fill.price)
      pnl5s := markoutPnl fill (item.price5s.getD fill.price) }
  let adverse := adverseSelectionScore markout
  { symbol := fill.symbol
    side := fill.side
    fillQuality := fillQuality fill markout adverse
    slippageReal := fill.actualSlippageBps
    adverseSelectionScore := adverse
    markoutCurve := markout
    executionLatencyUs := fill.latencyUs
    latencyBreakdown := fill.latencyBreakdown
    expectedMarkout := fill.expectedMarkout
    feesPaid := fill.fee
    rebatesReceived := fill.rebateAmount
    fundingCost := fill.fundingAmount
    regime := fill.regime
    competitionFlag := competitionFlag fill markout
    lastFillTimestamp := fill.truth.lastFillTimestamp
    partialFillRatio := fill.partialFillRatio }

def competitionState (event : ExecutionEvent) : CompetitionState :=
  match event.competitionFlag with
  | .none => .normal
  | .slowFill | .cancelLatency => .competitive
  | .repeatedOutbid | .partialFillToxicity => .saturated

def learningSampleFromEvent (event : ExecutionEvent) : TruthSample :=
  let realizedPnl := event.markoutCurve.pnl500ms - max event.slippageReal 0
  { timestamp := event.lastFillTimestamp
    direction :=
      match event.side with
      | .buy => .long
      | .sell => .short
    confidence := event.fillQuality
    predictedScore := event.fillQuality
    expectedSlippageBps := 0
    actualSlippageBps := event.slippageReal
    pnl := realizedPnl
    expectedMarkout := event.expectedMarkout
    realizedMarkout := event.markoutCurve.pnl500ms
    executionAlpha := realizedPnl - event.expectedMarkout
    fillRatio := clamp event.partialFillRatio 0 1
    feesPaid := event.feesPaid
    rebatesReceived := event.rebatesReceived
    fundingCost := event.fundingCost
    edgeComponent := max event.expectedMarkout 0
    executionLoss := max (event.expectedMarkout - realizedPnl) 0
    feesRebatesComponent := -event.feesPaid + event.rebatesReceived - event.fundingCost
    adverseSelectionLoss := max (-event.markoutCurve.pnl100ms) 0 +
      max (-event.markoutCurve.pnl500ms) 0 * 0.25
    edgeCaptureRatio :=
      if epsilon < |event.expectedMarkout| then realizedPnl / event.expectedMarkout else 0
    competitionState := competitionState event
    durationMs := max (event.executionLatencyUs / 1000) 1
    entryQuality := event.fillQuality
    markout100ms := event.markoutCurve.pnl100ms
    markout500ms := event.markoutCurve.pnl500ms
    markout1s := event.markoutCurve.pnl1s
    markout5s := event.markoutCurve.pnl5s
    regime := event.regime }

def buildExecutionQualityReport (event : ExecutionEvent)
    (latencyDistribution : LatencyDistributionSnapshot) : ExecutionQualityReport :=
  executionQualityReport (clamp event.partialFillRatio 0 1) event.slippageReal
    (if event.competitionFlag = .repeatedOutbid then 1 else 0) latencyDistribution

/-! ## The queue -/

def marketPrice : MarketUpdate → Option (Nat × ℚ)
  | .trade trade => if 0 < trade.price then some (trade.timestamp, trade.price) else none
  | .bookDelta book =>
    match book.bids.head?, book.asks.head? with
    | some bid, some ask =>
      if 0 < bid.price ∧ 0 < ask.price then
        some (book.timestamp, (bid.price + ask.price) * 0.5)
      else none
    | _, _ => none

/-- A price is taken once, when its time has passed. -/
def latch (elapsed horizon : Nat) (price : ℚ) (slot : Option ℚ) : Option ℚ :=
  if horizon ≤ elapsed ∧ slot = none then some price else slot

def measure (marketTs : Nat) (price : ℚ) (item : PendingFill) : PendingFill :=
  let elapsed := marketTs - item.createdAt
  { item with
    price100ms := latch elapsed markout100Ms price item.price100ms
    price500ms := latch elapsed markout500Ms price item.price500ms
    price1s := latch elapsed markout1S price item.price1s
    price5s := latch elapsed markout5S price item.price5s }

def ready (marketTs : Nat) (item : PendingFill) : Bool :=
  item.price5s.isSome || decide (markout5S + 250 < marketTs - item.createdAt)

structure TruthLoop where
  pending : List PendingFill := []
  edgeReliability : EdgeReliabilityModel := {}
  latencyDistributions : LatencyDistributions := .initial

/-- What the loop receives. -/
inductive TruthInput where
  | fill (fill : TruthFill)
  | market (update : MarketUpdate)

section Loop

variable (sqrt : ℚ → ℚ) (powf : ℚ → ℚ → ℚ)

def finalize (item : PendingFill) (loop : TruthLoop) : Finalized × TruthLoop :=
  let event := finalizedEvent item
  let latencyDistributions := loop.latencyDistributions.record event.latencyBreakdown
  let (decisionQuality, edgeReliability) :=
    loop.edgeReliability.observe sqrt powf event.expectedMarkout event.markoutCurve.pnl500ms
  ({ item := item
     event := event
     decisionQuality := decisionQuality
     executionQuality := buildExecutionQualityReport event latencyDistributions.snapshot
     sample := learningSampleFromEvent event },
   { loop with edgeReliability := edgeReliability, latencyDistributions := latencyDistributions })

/-- Fills leave from the front of the queue only. -/
def drain (marketTs : Nat) : List PendingFill → TruthLoop → List Finalized × TruthLoop
  | [], loop => ([], { loop with pending := [] })
  | item :: rest, loop =>
    if ready marketTs item then
      let (finalized, loop) := finalize sqrt powf item loop
      let (later, loop) := drain marketTs rest loop
      (finalized :: later, loop)
    else ([], { loop with pending := item :: rest })

def updatePending (marketTs : Nat) (price : ℚ) (loop : TruthLoop) : List Finalized × TruthLoop :=
  drain sqrt powf marketTs (loop.pending.map (measure marketTs price)) loop

def step (loop : TruthLoop) : TruthInput → List Finalized × TruthLoop
  | .fill fill =>
    if fill.simulated then ([], loop)
    else
      let item : PendingFill := { fill := fill, createdAt := fill.timestamp }
      ([], { loop with pending := loop.pending ++ [item] })
  | .market update =>
    match marketPrice update with
    | some (ts, price) => updatePending sqrt powf ts price loop
    | none => ([], loop)

/-- The fills reported, in order. -/
def run (inputs : List TruthInput) : List Finalized := (emit (step sqrt powf) {} inputs).1

end Loop

end ExecutionTruth

end RealTimeTrading.Rtts
