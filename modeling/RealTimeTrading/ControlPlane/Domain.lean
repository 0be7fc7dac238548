/-
RealTimeTrading.ControlPlane.Domain — the records of
`internal/domain`, field for field.

Translation notes. A `float64` is an exact rational: rounding, NaN and
the infinities are outside the model. A `time.Time` is a count of
nanoseconds from Go's zero time, so `IsZero` is a comparison with `0`,
and a `time.Duration` is a signed count of nanoseconds. The string types
`Side` and `FinalDecision` hold whatever the wire held, so each keeps a
case for a spelling the code never compares with; `OrderStatus` is only
ever assigned one of its constants, and `unset` is its zero value.
-/
import Mathlib.Algebra.Order.Field.Rat
import Mathlib.Data.List.AList

namespace RealTimeTrading.ControlPlane

/-! ## Time and maps -/

/-- Nanoseconds since Go's zero time. -/
abbrev Time : Type := ℤ

/-- Nanoseconds. -/
abbrev Duration : Type := ℤ

namespace Time

def isZero (t : Time) : Bool := decide (t = 0)

/-- Go's zero time, seen from 1970-01-01 in nanoseconds. -/
def unixEpoch : Time := 62135596800 * 1000000000

def unixMilli (t : Time) : ℤ := (t - unixEpoch) / 1000000

def ofUnixMilli (ms : ℤ) : Time := unixEpoch + ms * 1000000

end Time

def millisecond : Duration := 1000000

/-- Go's `Duration.Microseconds`: integer division truncates toward zero. -/
def Duration.microseconds (d : Duration) : ℤ := d.tdiv 1000

def Duration.milliseconds (d : Duration) : ℤ := d.tdiv 1000000

/-- A Go map: finitely many keys, iterated in no particular order. -/
abbrev GoMap (K V : Type) : Type := AList (fun _ : K => V)

abbrev OrderID : Type := String
abbrev Symbol : Type := String

/-! ## Enumerations -/

inductive Side where
  | buy
  | sell
  | other (raw : String)
  deriving DecidableEq, Repr

def Side.ofString : String → Side
  | "BUY" => .buy
  | "SELL" => .sell
  | raw => .other raw

inductive FinalDecision where
  | execute
  | wait
  | skip
  | other (raw : String)
  deriving DecidableEq, Repr

def FinalDecision.ofString : String → FinalDecision
  | "Execute" => .execute
  | "Wait" => .wait
  | "Skip" => .skip
  | raw => .other raw

inductive OrderStatus where
  | unset
  | new
  | sent
  | ack
  | partially
  | filled
  | canceled
  | rejected
  deriving DecidableEq, Repr

inductive LiquidityFlag where
  | maker
  | taker
  deriving DecidableEq, Repr

/-! ## Records -/

structure MarketEvent where
  symbol : Symbol
  timestamp : Time
  price : ℚ
  volume : ℚ
  bestBid : ℚ
  bestAsk : ℚ
  deriving DecidableEq, Repr

structure ExecutionRequest where
  idempotencyKey : String
  symbol : Symbol
  side : Side
  size : ℚ
  price : Option ℚ
  decision : FinalDecision
  signalTime : Time
  maxSlippageBps : ℚ := 0
  reduceOnly : Bool := false
  requestTime : Time := 0
  sendTime : Time := 0
  expectedRealizedMarkout : ℚ := 0
  regimeKind : String := ""
  regimeVolatility : ℚ := 0
  regimeSpread : ℚ := 0
  regimeTrendStrength : ℚ := 0
  deriving DecidableEq, Repr

structure Order where
  id : OrderID := ""
  exchangeOrderID : String := ""
  idempotencyKey : String := ""
  symbol : Symbol := ""
  side : Side := .other ""
  size : ℚ := 0
  filled : ℚ := 0
  price : Option ℚ := none
  status : OrderStatus := .unset
  createdAt : Time := 0
  updatedAt : Time := 0
  requestAt : Time := 0
  sendAt : Time := 0
  ackAt : Time := 0
  exchangeAcceptAt : Time := 0
  firstFillAt : Time := 0
  lastFillAt : Time := 0
  partialFillRatio : ℚ := 0
  weightedAvgFillPrice : ℚ := 0
  slippageRealBps : ℚ := 0
  queueDelay : Duration := 0
  cancelReason : String := ""
  rejectReason : String := ""
  expectedRealizedMarkout : ℚ := 0
  regimeKind : String := ""
  regimeVolatility : ℚ := 0
  regimeSpread : ℚ := 0
  regimeTrendStrength : ℚ := 0
  deriving DecidableEq, Repr

/-- Go's `domain.Order{}`. -/
instance : Inhabited Order := ⟨{}⟩

structure FillLedgerEntry where
  orderID : String
  fillID : String
  symbol : Symbol
  side : Side
  price : ℚ
  quantity : ℚ
  liquidityFlag : LiquidityFlag := .taker
  feeAmount : ℚ := 0
  feeAsset : String := ""
  rebateAmount : ℚ := 0
  fundingAmount : ℚ := 0
  eventTime : Time := 0
  eventTimeUnixMs : ℤ := 0
  deriving DecidableEq, Repr

structure LatencyBreakdown where
  decisionLatency : Duration := 0
  sendLatency : Duration := 0
  ackLatency : Duration := 0
  firstFillLatency : Duration := 0
  fullFillLatency : Duration := 0
  deriving DecidableEq, Repr

structure MarkoutCurve where
  pnl100ms : ℚ := 0
  pnl500ms : ℚ := 0
  pnl1s : ℚ := 0
  pnl5s : ℚ := 0
  deriving DecidableEq, Repr

structure ExecutionEvent where
  orderID : String
  fillID : String := ""
  symbol : Symbol
  status : OrderStatus
  filledQuantity : ℚ := 0
  fillPrice : ℚ := 0
  liquidityFlag : LiquidityFlag := .taker
  feeAmount : ℚ := 0
  rebateAmount : ℚ := 0
  fundingAmount : ℚ := 0
  fillQuality : ℚ := 0
  slippageReal : ℚ := 0
  adverseSelectionScore : ℚ := 0
  markoutCurve : MarkoutCurve := {}
  executionLatency : Duration := 0
  latencyBreakdown : LatencyBreakdown := {}
  competitionFlag : String := ""
  simulated : Bool := false
  partialFillRatio : ℚ := 0
  expectedRealizedMarkout : ℚ := 0
  realizedPnL : ℚ := 0
  deriving DecidableEq, Repr

structure Position where
  symbol : Symbol := ""
  size : ℚ := 0
  avgPrice : ℚ := 0
  updated : Time := 0
  deriving DecidableEq, Repr

instance : Inhabited Position := ⟨{}⟩

structure ExecutionUpdate where
  order : Order
  ledger : Option FillLedgerEntry
  execution : Option ExecutionEvent
  position : Option Position
  requestTimestampMs : ℤ
  sendTimestampMs : ℤ
  ackTimestampMs : ℤ
  firstFillTimestampMs : ℤ
  lastFillTimestampMs : ℤ
  expectedRealizedMarkout : ℚ := 0
  regimeKind : String := ""
  regimeVolatility : ℚ := 0
  regimeSpread : ℚ := 0
  regimeTrendStrength : ℚ := 0
  deriving DecidableEq, Repr

structure AccountState where
  availableBalance : ℚ := 0
  balance : ℚ := 0
  usedMargin : ℚ := 0
  leverage : ℚ := 0
  unrealizedPnL : ℚ := 0
  updatedAt : Time := 0
  deriving DecidableEq, Repr

def AccountState.leverageOrDefault (a : AccountState) : ℚ :=
  if a.leverage ≤ 0 then 1 else a.leverage

structure ReconciliationReport where
  matched : Bool
  missingFills : Nat
  orphanOrders : Nat
  positionDrift : Nat
  generatedAt : Time
  details : List String
  deriving DecidableEq, Repr

/-! ## Errors -/

/-- The errors the control plane returns; `errors.Is` is equality of cases. -/
inductive Err where
  /-- `state.ErrDuplicate`. -/
  | duplicate
  /-- `errors.Join(risk.ErrRiskRejected, errors.New(reason))`. -/
  | riskRejected (reason : String)
  | text (message : String)
  deriving DecidableEq, Repr

def Err.error : Err → String
  | .duplicate => "duplicate idempotency key"
  | .riskRejected reason => "risk rejected\n" ++ reason
  | .text message => message

end RealTimeTrading.ControlPlane
