/-
RealTimeTrading.Rtts.Types — the records of `src/types.rs` that pass
between the stages of the trading loop, and `Config` of `src/config.rs`.

Translation notes. An `f64` is an exact rational, `f64::EPSILON` is
`epsilon`; rounding, NaN and the infinities are outside the model. A `u64`
of milliseconds or microseconds is a `Nat`, on which Rust's
`saturating_sub` is subtraction. A record keeps the fields some modelled
function reads or writes.
-/
import Mathlib.Algebra.Order.Field.Rat
import Mathlib.Algebra.Order.Group.Unbundled.Abs
import Mathlib.Data.List.AList

namespace RealTimeTrading.Rtts

/-! ## Arithmetic -/

/-- `f64::EPSILON`. -/
def epsilon : ℚ := 1 / 2 ^ 52

theorem epsilon_pos : 0 < epsilon := one_div_pos.mpr (pow_pos zero_lt_two 52)

/-- `f64::clamp`. -/
def clamp (v lo hi : ℚ) : ℚ := if v < lo then lo else if hi < v then hi else v

section Clamp

variable {v lo hi : ℚ}

theorem clamp_of_mem (hlo : lo ≤ v) (hhi : v ≤ hi) : clamp v lo hi = v := by
  unfold clamp
  rw [if_neg (not_lt.mpr hlo), if_neg (not_lt.mpr hhi)]

theorem le_clamp (h : lo ≤ hi) : lo ≤ clamp v lo hi := by
  unfold clamp
  split_ifs with hlo hhi
  · exact le_rfl
  · exact h
  · exact not_lt.mp hlo

theorem clamp_le (h : lo ≤ hi) : clamp v lo hi ≤ hi := by
  unfold clamp
  split_ifs with hlo hhi
  · exact h
  · exact le_rfl
  · exact not_lt.mp hhi

/-- A bound below the value and the upper end holds of the clamped value. -/
theorem le_clamp_of_le {b : ℚ} (hv : b ≤ v) (hhi : b ≤ hi) : b ≤ clamp v lo hi := by
  unfold clamp
  split_ifs with hlo hhi'
  · exact hv.trans hlo.le
  · exact hhi
  · exact hv

end Clamp

/-- `u32::saturating_add`. -/
def saturatingAddU32 (n k : Nat) : Nat := min (n + k) (2 ^ 32 - 1)

/-- `f64::signum`, which is `1` at zero. -/
def signum (v : ℚ) : ℚ := if v < 0 then -1 else 1

/-- `usize::saturating_add`. -/
def saturatingAddUsize (n k : Nat) : Nat := min (n + k) (2 ^ 64 - 1)

/-- A Rust `HashMap`: finitely many keys, iterated in no particular order. -/
abbrev HashMap (K V : Type) : Type := AList (fun _ : K => V)

/-! ## Enumerations -/

inductive Side where
  | buy
  | sell
  deriving DecidableEq, Repr

namespace Side

def opposite : Side → Side
  | .buy => .sell
  | .sell => .buy

end Side

inductive Direction where
  | long
  | short
  | flat
  deriving DecidableEq, Repr

inductive Decision where
  | ignore
  | enterSmall
  | scaleIn
  | exit
  deriving DecidableEq, Repr

inductive FlowSignal where
  | strongContinuation
  | weakContinuation
  | exhaustion
  | reversalRisk
  deriving DecidableEq, Repr

inductive TimingSignal where
  | optimal
  | neutral
  | wait
  | missed
  deriving DecidableEq, Repr

inductive RegimeKind where
  | normal
  | highVolatility
  | newsShock
  | lowLiquidity
  | trendExpansion
  deriving DecidableEq, Repr

/-- `format!("{:?}", regime)`. -/
def RegimeKind.debug : RegimeKind → String
  | .normal => "Normal"
  | .highVolatility => "HighVolatility"
  | .newsShock => "NewsShock"
  | .lowLiquidity => "LowLiquidity"
  | .trendExpansion => "TrendExpansion"

/-- `accounting::edge_validation::EdgeState`. -/
inductive EdgeState where
  | valid
  | uncertain
  | invalid
  deriving DecidableEq, Repr

inductive CompetitionState where
  | normal
  | competitive
  | saturated
  deriving DecidableEq, Repr

inductive CompetitionFlag where
  | none
  | slowFill
  | repeatedOutbid
  | cancelLatency
  | partialFillToxicity
  deriving DecidableEq, Repr

inductive OrderType where
  | market
  | limit
  deriving DecidableEq, Repr

inductive ExecutionMode where
  | aggressive
  | passive
  | defensive
  deriving DecidableEq, Repr

inductive FillProbabilityClass where
  | highFill
  | lowFill
  deriving DecidableEq, Repr

inductive ScenarioType where
  | continuation
  | reversal
  | chop
  deriving DecidableEq, Repr

inductive FinalDecision where
  | execute
  | wait
  | skip
  deriving DecidableEq, Repr

/-! ## Market -/

structure TradeEvent where
  timestamp : Nat
  price : ℚ
  volume : ℚ
  side : Side

structure BookLevel where
  price : ℚ
  quantity : ℚ

structure BookDelta where
  timestamp : Nat
  bids : List BookLevel
  asks : List BookLevel

inductive MarketUpdate where
  | trade (trade : TradeEvent)
  | bookDelta (book : BookDelta)

structure MarketEvent where
  timestamp : Nat
  price : ℚ

structure Features where
  weightedImbalance : ℚ
  orderFlowDelta : ℚ

structure FlowState where
  signal : FlowSignal
  continuationStrength : ℚ

structure MicroTimingState where
  signal : TimingSignal
  tradeBurst : ℚ
  timingScore : ℚ

structure MarketRegime where
  volatility : ℚ
  spread : ℚ
  trendStrength : ℚ

structure LearningSample where
  actualSlippageBps : ℚ
  pnl : ℚ
  expectedMarkout : ℚ
  realizedMarkout : ℚ
  executionAlpha : ℚ
  fillRatio : ℚ
  edgeComponent : ℚ
  executionLoss : ℚ
  feesRebatesComponent : ℚ
  adverseSelectionLoss : ℚ
  competitionState : CompetitionState
  durationMs : Nat
  regime : MarketRegime

structure MarketContext where
  regime : RegimeKind
  liquidityScore : ℚ
  stabilityScore : ℚ

structure SymbolProfile where
  symbol : String
  avgSpreadBps : ℚ := 4
  avgFillProbability : ℚ := 0.5
  volatilityEma : ℚ := 1
  avgTradeSize : ℚ := 1

/-! ## Decisions and orders -/

structure Position where
  size : ℚ := 0
  avgPrice : ℚ := 0
  entries : Nat := 0
  confidence : ℚ := 0
  unrealizedPnl : ℚ := 0

namespace Position

def isOpen (position : Position) : Prop := epsilon < |position.size|

instance (position : Position) : Decidable position.isOpen := by unfold isOpen; infer_instance

def side (position : Position) : Option Side :=
  if 0 < position.size then some .buy
  else if position.size < 0 then some .sell
  else none

end Position

structure Scenario where
  name : ScenarioType
  probability : ℚ
  expectedPnl : ℚ
  risk : ℚ

structure MetaDecision where
  decision : FinalDecision
  scenarios : List Scenario
  ev : ℚ
  adjustedEv : ℚ
  worstCaseLoss : ℚ
  entryQuality : ℚ
  competitionScore : ℚ
  opportunityRank : ℚ
  reason : String

structure ScoredDecision where
  market : MarketEvent
  features : Features
  regime : MarketRegime
  context : MarketContext
  flow : FlowState
  timing : MicroTimingState
  direction : Direction
  confidence : ℚ
  score : ℚ
  decision : Decision
  expectedDurationMs : Nat
  urgency : ℚ
  expectedSlippageBps : ℚ
  dataLatencyMs : Nat
  adversarialRisk : ℚ
  edgeState : EdgeState
  edgeReliabilityScore : ℚ
  edgeHalfLifeSamples : ℚ
  edgeCaptureMean : ℚ
  negativeCaptureStreak : Nat
  executionAlphaMean : ℚ
  markoutDegradationScore : ℚ
  dynamicSizeMultiplier : ℚ
  competitionState : CompetitionState
  competitionScore : ℚ
  tradingEnabled : Bool
  fillProbability : FillProbabilityClass

structure QueueEstimate where
  queuePosition : ℚ := 0
  volumeAhead : ℚ := 0
  fillProbability : ℚ := 0
  placementDepthBps : ℚ := 0

structure OrderRequest where
  symbol : String
  side : Side
  size : ℚ
  price : Option ℚ
  orderType : OrderType
  postOnly : Bool
  reduceOnly : Bool
  maxSlippageBps : ℚ

structure OrderIntent where
  request : OrderRequest
  reason : Decision
  score : ℚ
  lastPrice : ℚ
  positionBefore : Position
  timestamp : Nat
  urgency : ℚ
  expectedSlippageBps : ℚ
  expectedDurationMs : Nat
  dataLatencyMs : Nat
  regime : MarketRegime
  context : MarketContext
  flow : FlowState
  timing : MicroTimingState
  edgeState : EdgeState
  edgeReliabilityScore : ℚ
  edgeHalfLifeSamples : ℚ
  edgeCaptureMean : ℚ
  negativeCaptureStreak : Nat
  executionAlphaMean : ℚ
  markoutDegradationScore : ℚ
  dynamicSizeMultiplier : ℚ
  competitionState : CompetitionState
  competitionScore : ℚ
  tradingEnabled : Bool
  executionMode : ExecutionMode
  queueEstimate : QueueEstimate
  fillProbability : FillProbabilityClass
  metaDecision : Option MetaDecision

/-! ## Configuration -/

structure Config where
  symbol : String := "BTCUSDT"
  capital : ℚ := 10000
  maxRiskPct : ℚ := 0.005
  baseOrderUsd : ℚ := 25
  maxEntries : Nat := 4
  maxDataAgeMs : Nat := 250
  maxCancelPerOrder : Nat := 2
  maxReplacePerOrder : Nat := 3
  executionActionCooldownMs : Nat := 40
  queueReplaceVolumeFactor : ℚ := 1.35
  minFillProbability : ℚ := 0.28

/-- The whole of `Config` that the loops of the stages read. -/
structure RunConfig extends Config where
  maxDailyDrawdownPct : ℚ := 0.02
  stopLossBps : ℚ := 25
  maxConsecutiveLosses : Nat := 3
  channelCapacity : Nat := 4096
  windowMs : Nat := 500
  triggerDropPct : ℚ := 0.015
  triggerResetPct : ℚ := 0.025

end RealTimeTrading.Rtts
