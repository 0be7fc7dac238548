/-
RealTimeTrading.Rtts.Market.Microstructure — `microstructure.rs`: the stage
that makes a frame of every market update, with the engines it asks:
`context_engine.rs`, `flow_intelligence.rs` and `micro_timing.rs`.

`f64::sqrt` is a parameter, for which `decimalRoot` stands on concrete
inputs. A value here is always finite, so `normalize` takes no early return.
The context's volatility and the parts a timing score is made of are left
out, as no later stage reads them.
-/
import RealTimeTrading.Rtts.Market.OrderBook
import RealTimeTrading.Rtts.Market.Tape
import RealTimeTrading.Concurrency.Emitting

namespace RealTimeTrading.Rtts

/-! ## Normalised features -/

/-- A square root to six decimals. -/
def decimalRoot (v : ℚ) : ℚ := (⌊v * 10 ^ 12⌋.toNat.sqrt : ℚ) / 10 ^ 6

structure EmaStats where
  mean : ℚ := 0
  var : ℚ := 0
  initialized : Bool := false

def EmaStats.normalize (sqrt : ℚ → ℚ) (value alpha : ℚ) (stats : EmaStats) : ℚ × EmaStats :=
  if stats.initialized then
    let diff := value - stats.mean
    let mean := stats.mean + alpha * diff
    let var := (1 - alpha) * (stats.var + alpha * diff * diff)
    (clamp ((value - mean) / max (sqrt var) 1e-9) (-5) 5, { stats with mean := mean, var := var })
  else (0, { mean := value, var := 1, initialized := true })

structure FeatureNormalizer where
  velocity : EmaStats := {}
  volume : EmaStats := {}
  volatility : EmaStats := {}
  spread : EmaStats := {}
  spreadDynamics : EmaStats := {}
  tradeClustering : EmaStats := {}
  liquidityShift : EmaStats := {}
  delta : EmaStats := {}
  previousMid : ℚ := 0
  previousSpread : ℚ := 0
  previousDepth : ℚ := 0

namespace FeatureNormalizer

/-- The change since a previous value, as a share of it. -/
def relativeChange (previous current : ℚ) : ℚ :=
  if 0 < previous then (current - previous) / max previous epsilon else 0

def mid (book : OrderBookState) (tape : TapeState) : ℚ :=
  if 0 < book.bestBid ∧ 0 < book.bestAsk then (book.bestBid + book.bestAsk) * 0.5
  else tape.lastPrice

def depth (book : OrderBookState) : ℚ := book.bidVolume + book.askVolume

def alphaAt (timestamp : Nat) : ℚ := if timestamp % 2 = 0 then 0.035 else 0.030

/-- The velocity is normalised twice in one state, as itself and on a tenfold scale. -/
def features (sqrt : ℚ → ℚ) (book : OrderBookState) (tape : TapeState) (timestamp : Nat)
    (normalizer : FeatureNormalizer) : FrameFeatures × FeatureNormalizer :=
  let mid := mid book tape
  let depth := depth book
  let alpha := alphaAt timestamp
  let rawVelocity := relativeChange normalizer.previousMid mid
  let spreadChange := relativeChange normalizer.previousSpread book.spread
  let depthChange := relativeChange normalizer.previousDepth depth
  let (velocity, velocityStats) := normalizer.velocity.normalize sqrt (rawVelocity * 10000) alpha
  let (volZ, volumeStats) := normalizer.volume.normalize sqrt tape.volumeBurst alpha
  let (volatility, volatilityStats) :=
    normalizer.volatility.normalize sqrt (|rawVelocity| * 10000) alpha
  let (spread, spreadStats) := normalizer.spread.normalize sqrt (book.spread * 10000) alpha
  let (spreadDynamics, dynamicsStats) := normalizer.spreadDynamics.normalize sqrt spreadChange alpha
  let (microPriceVelocity, velocityStats) :=
    velocityStats.normalize sqrt (rawVelocity * 100000) alpha
  let (tradeClustering, clusteringStats) :=
    normalizer.tradeClustering.normalize sqrt tape.tradeFrequency alpha
  let (liquidityShift, shiftStats) := normalizer.liquidityShift.normalize sqrt depthChange alpha
  let (orderFlowDelta, deltaStats) := normalizer.delta.normalize sqrt tape.delta alpha
  ({ velocity := velocity
     volZ := volZ
     imbalance := book.imbalance
     volatility := |volatility|
     spread := max spread 0
     weightedImbalance := book.weightedImbalance
     spreadDynamics := spreadDynamics
     microPriceVelocity := microPriceVelocity
     tradeClustering := tradeClustering
     liquidityShift := liquidityShift
     orderFlowDelta := orderFlowDelta
     absorption := clamp (max book.absorption tape.exhaustion) 0 1
     spoofingRisk := clamp book.spoofingScore 0 1
     liquidityPull := clamp book.liquidityPull 0 1 },
   { velocity := velocityStats
     volume := volumeStats
     volatility := volatilityStats
     spread := spreadStats
     spreadDynamics := dynamicsStats
     tradeClustering := clusteringStats
     liquidityShift := shiftStats
     delta := deltaStats
     previousMid := mid
     previousSpread := book.spread
     previousDepth := depth })

def regime (features : FrameFeatures) (book : OrderBookState) : MarketRegime where
  volatility := clamp |features.volatility| 0 5
  spread := clamp (book.spread * 10000) 0 100
  trendStrength :=
    (|features.velocity| + |features.microPriceVelocity| + |features.orderFlowDelta|) / 3

end FeatureNormalizer

def directionHint (features : FrameFeatures) (book : OrderBookState) : Direction :=
  let score := features.orderFlowDelta + features.microPriceVelocity + book.weightedImbalance
  if 0.20 < score then .long else if score < -0.20 then .short else .flat

/-! ## The market's context -/

structure ContextEngine where
  baselineDepth : ℚ := 1
  previousImbalance : ℚ := 0
  initialized : Bool := false

namespace ContextEngine

def classifyRegime (volatility spreadBps depthRatio tradeFrequency imbalanceShift : ℚ)
    (features : FrameFeatures) (stabilityScore : ℚ) : RegimeKind :=
  if (3.8 < volatility ∧ 14 < spreadBps ∧ depthRatio < 0.45 ∧
      (70 < tradeFrequency ∨ 0.65 < imbalanceShift)) ∨ stabilityScore < 0.22 then .newsShock
  else if depthRatio < 0.38 ∨ 18 < spreadBps ∨ 0.70 < features.liquidityPull then .lowLiquidity
  else if 3 < volatility ∨ 90 < tradeFrequency then .highVolatility
  else if 1.25 < |features.microPriceVelocity| ∧
      signum features.orderFlowDelta = signum features.microPriceVelocity ∧
      signum features.weightedImbalance = signum features.microPriceVelocity ∧
      spreadBps < 10 ∧ 0.55 < depthRatio then .trendExpansion
  else .normal

def update (features : FrameFeatures) (book : OrderBookState) (tape : TapeState)
    (engine : ContextEngine) : MarketContext × ContextEngine :=
  let depth := max (book.bidVolume + book.askVolume) 0
  let baseline := if engine.initialized then engine.baselineDepth else max depth 1
  let previousImbalance :=
    if engine.initialized then engine.previousImbalance else book.weightedImbalance
  let baseline := 0.985 * baseline + 0.015 * max depth 1
  let depthRatio := clamp (depth / max baseline 1) 0 2
  let liquidityScore := clamp (0.65 * min depthRatio 1 + 0.20 * (1 - book.liquidityPull) +
    0.15 * (1 - clamp (book.spread * 10000 / 20) 0 1)) 0 1
  let imbalanceShift := |book.weightedImbalance - previousImbalance|
  let volatility := max |features.volatility| (|features.microPriceVelocity| * 0.25)
  let spreadWidening := clamp (max features.spreadDynamics 0) 0 5 / 5
  let velocityBurst := clamp (tape.tradeFrequency / 80) 0 1
  let depthCollapse := clamp (1 - depthRatio) 0 1
  let instability := clamp (0.30 * clamp (volatility / 5) 0 1 + 0.22 * spreadWidening +
    0.22 * depthCollapse + 0.16 * velocityBurst + 0.10 * clamp imbalanceShift 0 1) 0 1
  let stabilityScore := 1 - instability
  ({ regime := classifyRegime volatility (book.spread * 10000) depthRatio tape.tradeFrequency
       imbalanceShift features stabilityScore
     liquidityScore := liquidityScore
     stabilityScore := stabilityScore },
   { baselineDepth := baseline
     previousImbalance := book.weightedImbalance
     initialized := true })

end ContextEngine

/-! ## Flow -/

structure FlowIntelligence where
  previousDelta : ℚ := 0
  previousContinuation : ℚ := 0

def FlowIntelligence.update (features : FrameFeatures) (book : OrderBookState) (tape : TapeState)
    (direction : Direction) (engine : FlowIntelligence) : FrameFlow × FlowIntelligence :=
  let total := max (tape.buyVolume + tape.sellVolume) epsilon
  let aggressiveRatio := clamp (|tape.delta| / total) 0 1
  let side : ℚ :=
    match direction with
    | .long => 1
    | .short => -1
    | .flat => signum tape.delta
  let alignedFlow := clamp (max (features.orderFlowDelta * side) 0) 0 5 / 5
  let alignedBook := clamp (max (book.weightedImbalance * side) 0) 0 1
  let continuationStrength :=
    clamp (0.42 * aggressiveRatio + 0.32 * alignedFlow + 0.26 * alignedBook) 0 1
  let deltaDecay := max (|engine.previousDelta| - |tape.delta|) 0 / max |engine.previousDelta| 1
  let exhaustion := clamp (max tape.exhaustion deltaDecay + book.absorption * 0.35) 0 1
  let against : ℚ := if signum features.orderFlowDelta = signum side then 0 else 1
  let reversalPressure := clamp (against * aggressiveRatio + features.liquidityPull * 0.45 +
    features.spoofingRisk * 0.35) 0 1
  let signal :=
    if 0.62 < reversalPressure ∨ 0.74 < exhaustion then .reversalRisk
    else if 0.55 < exhaustion ∨ continuationStrength < engine.previousContinuation * 0.72 then
      .exhaustion
    else if 0.68 < continuationStrength ∧ 0.35 < aggressiveRatio then .strongContinuation
    else .weakContinuation
  ({ signal := signal
     continuationStrength := continuationStrength
     aggressiveRatio := aggressiveRatio
     absorption := book.absorption
     exhaustion := exhaustion },
   { previousDelta := tape.delta, previousContinuation := continuationStrength })

/-! ## Timing -/

structure MicroTimingEngine where
  previousVelocity : ℚ := 0

def MicroTimingEngine.update (features : FrameFeatures) (book : OrderBookState) (tape : TapeState)
    (engine : MicroTimingEngine) : MicroTimingState × MicroTimingEngine :=
  let spreadCompression := clamp (max (-features.spreadDynamics) 0) 0 5 / 5
  let liquidityPull := clamp features.liquidityPull 0 1
  let tradeBurst := clamp (tape.volumeBurst / 4) 0 1
  let microPullback :=
    if signum engine.previousVelocity = signum features.microPriceVelocity ∨
        |engine.previousVelocity| ≤ epsilon then 0
    else clamp (|features.microPriceVelocity| / 5) 0 1
  let depthOk := clamp ((book.bidVolume + book.askVolume) / 10) 0 1
  let timingScore := clamp (0.30 * spreadCompression + 0.22 * tradeBurst + 0.18 * microPullback +
    0.18 * depthOk + 0.12 * (1 - liquidityPull)) 0 1
  let signal :=
    if 0.72 < liquidityPull ∨ 4.5 < |features.microPriceVelocity| then .missed
    else if 0.62 < timingScore ∧ 0.15 < spreadCompression then .optimal
    else if timingScore < 0.38 ∨ 1.6 < features.spreadDynamics then .wait
    else .neutral
  ({ signal := signal, tradeBurst := tradeBurst, timingScore := timingScore },
   { previousVelocity := features.microPriceVelocity })

/-! ## The stage -/

namespace Microstructure

/-- An update, and the clock when its age is taken. -/
structure Received where
  update : MarketUpdate
  now : Nat

structure Stage where
  book : OrderBook := {}
  tape : Tape
  normalizer : FeatureNormalizer := {}
  contextEngine : ContextEngine := {}
  flowEngine : FlowIntelligence := {}
  timingEngine : MicroTimingEngine := {}

/-- The update's time, its trade if it is one, and what the book and the tape then say. -/
def observe (update : MarketUpdate) (stage : Stage) :
    (Nat × Option TradeEvent × BookState × TapeState) × Stage :=
  match update with
  | .bookDelta delta =>
    let (bookState, book) := stage.book.applyDelta delta
    ((delta.timestamp, none, bookState, stage.tape.state), { stage with book := book })
  | .trade trade =>
    let (tapeState, tape) := stage.tape.observe trade
    let (bookState, book) := stage.book.observeTrade trade
    ((trade.timestamp, some trade, bookState, tapeState), { stage with book := book, tape := tape })

/-- One turn of the loop, with the frame it sends. -/
def process (sqrt : ℚ → ℚ) (maxDataAgeMs : Nat) (received : Received) (stage : Stage) :
    MicrostructureFrame × Stage :=
  let ((timestamp, trade, bookState, tape), stage) := observe received.update stage
  let book := bookState.toOrderBookState
  let (features, normalizer) := stage.normalizer.features sqrt book tape timestamp
  let (context, contextEngine) := stage.contextEngine.update features book tape
  let (flow, flowEngine) := stage.flowEngine.update features book tape (directionHint features book)
  let (timing, timingEngine) := stage.timingEngine.update features book tape
  ({ timestamp := timestamp
     trade := trade
     book := book
     tape := tape
     features := features
     regime := FeatureNormalizer.regime features book
     context := context
     flow := flow
     timing := timing
     trigger := {}
     reversal := {}
     reversalClassifier := {}
     stale := decide (maxDataAgeMs < received.now - timestamp) },
   { stage with
     normalizer := normalizer
     contextEngine := contextEngine
     flowEngine := flowEngine
     timingEngine := timingEngine })

def step (sqrt : ℚ → ℚ) (maxDataAgeMs : Nat) (stage : Stage) (received : Received) :
    List MicrostructureFrame × Stage :=
  ([(process sqrt maxDataAgeMs received stage).1], (process sqrt maxDataAgeMs received stage).2)

/-- The frames of all the updates received, in order. -/
def run (sqrt : ℚ → ℚ) (windowMs maxDataAgeMs : Nat) (received : List Received) :
    List MicrostructureFrame :=
  (Concurrency.emit (step sqrt maxDataAgeMs) { tape := Tape.new windowMs } received).1

end Microstructure

end RealTimeTrading.Rtts
