/-
RealTimeTrading.Wire.ExecutionJson — an `ExecutionUpdate` as Go writes it
and as `execution_external.rs` reads it.

The writers follow the tags of `domain/types.go`, the readers the field
types of `ControlPlaneExecutionUpdate`. A `time.Time` is written as a text
that no reader on this wire asks for, and is left out here, and so is
`spread_at_execution`, which no reader asks for either.

Everything that is written can be read back but for the latencies: Go
writes signed durations, and Rust reads them as `u64`
(`decodeUpdate_encodeUpdate`).
-/
import RealTimeTrading.Data.Json
import RealTimeTrading.Wire.ExecutionFeed

namespace RealTimeTrading.Wire

open RealTimeTrading.Data RealTimeTrading.Data.Json
open ControlPlane (Order FillLedgerEntry ExecutionEvent ExecutionUpdate)

/-! ## Writing -/

def sideText : ControlPlane.Side → String
  | .buy => "BUY"
  | .sell => "SELL"
  | .other raw => raw

def liquidityText : ControlPlane.LiquidityFlag → String
  | .maker => "MAKER"
  | .taker => "TAKER"

def orderFields (o : Order) : List (String × Option Json) :=
  [("id", some (.str o.id)),
    ("exchange_order_id", omitEmpty o.exchangeOrderID),
    ("idempotency_key", some (.str o.idempotencyKey)),
    ("symbol", some (.str o.symbol)),
    ("side", some (.str (sideText o.side))),
    ("size", some (.num o.size)),
    ("filled", some (.num o.filled)),
    ("price", o.price.map .num),
    ("status", some (.str (statusText o.status))),
    ("partial_fill_ratio", some (.num o.partialFillRatio)),
    ("weighted_avg_fill_price", some (.num o.weightedAvgFillPrice)),
    ("slippage_real_bps", some (.num o.slippageRealBps)),
    ("queue_delay", some (.int o.queueDelay)),
    ("cancel_reason", omitEmpty o.cancelReason),
    ("reject_reason", omitEmpty o.rejectReason),
    ("expected_realized_markout", omitZero o.expectedRealizedMarkout),
    ("regime_kind", omitEmpty o.regimeKind),
    ("regime_volatility", omitZero o.regimeVolatility),
    ("regime_spread", omitZero o.regimeSpread),
    ("regime_trend_strength", omitZero o.regimeTrendStrength)]

def encodeOrder (o : Order) : Json := .record (orderFields o)

def ledgerEntryFields (l : FillLedgerEntry) : List (String × Option Json) :=
  [("order_id", some (.str l.orderID)),
    ("fill_id", some (.str l.fillID)),
    ("symbol", some (.str l.symbol)),
    ("side", some (.str (sideText l.side))),
    ("price", some (.num l.price)),
    ("quantity", some (.num l.quantity)),
    ("liquidity_flag", some (.str (liquidityText l.liquidityFlag))),
    ("fee_amount", some (.num l.feeAmount)),
    ("fee_asset", some (.str l.feeAsset)),
    ("rebate_amount", some (.num l.rebateAmount)),
    ("funding_amount", some (.num l.fundingAmount)),
    ("event_time_unix_ms", some (.int l.eventTimeUnixMs))]

def encodeLedgerEntry (l : FillLedgerEntry) : Json := .record (ledgerEntryFields l)

/-- A duration is written as its nanoseconds. -/
def latencyFields (l : ControlPlane.LatencyBreakdown) : List (String × Option Json) :=
  [("decision_latency", some (.int l.decisionLatency)),
    ("send_latency", some (.int l.sendLatency)),
    ("ack_latency", some (.int l.ackLatency)),
    ("first_fill_latency", some (.int l.firstFillLatency)),
    ("full_fill_latency", some (.int l.fullFillLatency))]

def encodeLatency (l : ControlPlane.LatencyBreakdown) : Json := .record (latencyFields l)

def encodeMarkout (m : ControlPlane.MarkoutCurve) : Json :=
  .record
    [("markout_100ms", some (.num m.pnl100ms)),
      ("markout_500ms", some (.num m.pnl500ms)),
      ("markout_1s", some (.num m.pnl1s)),
      ("markout_5s", some (.num m.pnl5s))]

def eventFields (e : ExecutionEvent) : List (String × Option Json) :=
  [("order_id", some (.str e.orderID)),
    ("fill_id", omitEmpty e.fillID),
    ("symbol", some (.str e.symbol)),
    ("status", some (.str (statusText e.status))),
    ("filled_quantity", omitZero e.filledQuantity),
    ("fill_price", omitZero e.fillPrice),
    ("liquidity_flag", omitEmpty (liquidityText e.liquidityFlag)),
    ("fee_amount", omitZero e.feeAmount),
    ("rebate_amount", omitZero e.rebateAmount),
    ("funding_amount", omitZero e.fundingAmount),
    ("fill_quality", some (.num e.fillQuality)),
    ("slippage_real", some (.num e.slippageReal)),
    ("adverse_selection_score", some (.num e.adverseSelectionScore)),
    ("markout_curve", some (encodeMarkout e.markoutCurve)),
    ("execution_latency", some (.int e.executionLatency)),
    ("latency_breakdown", some (encodeLatency e.latencyBreakdown)),
    ("competition_flag", some (.str e.competitionFlag)),
    ("simulated", some (.bool e.simulated)),
    ("partial_fill_ratio", some (.num e.partialFillRatio)),
    ("expected_realized_markout", omitZero e.expectedRealizedMarkout),
    ("realized_pnl", omitZero e.realizedPnL)]

def encodeEvent (e : ExecutionEvent) : Json := .record (eventFields e)

def encodePosition (p : ControlPlane.Position) : Json :=
  .record
    [("symbol", some (.str p.symbol)),
      ("size", some (.num p.size)),
      ("avg_price", some (.num p.avgPrice))]

def updateFields (u : ExecutionUpdate) : List (String × Option Json) :=
  [("order", some (encodeOrder u.order)),
    ("ledger", u.ledger.map encodeLedgerEntry),
    ("execution", u.execution.map encodeEvent),
    ("position", u.position.map encodePosition),
    ("request_timestamp_ms", some (.int u.requestTimestampMs)),
    ("send_timestamp_ms", some (.int u.sendTimestampMs)),
    ("ack_timestamp_ms", some (.int u.ackTimestampMs)),
    ("first_fill_timestamp_ms", some (.int u.firstFillTimestampMs)),
    ("last_fill_timestamp_ms", some (.int u.lastFillTimestampMs)),
    ("expected_realized_markout", omitZero u.expectedRealizedMarkout),
    ("regime_kind", omitEmpty u.regimeKind),
    ("regime_volatility", omitZero u.regimeVolatility),
    ("regime_spread", omitZero u.regimeSpread),
    ("regime_trend_strength", omitZero u.regimeTrendStrength)]

def encodeUpdate (u : ExecutionUpdate) : Json := .record (updateFields u)

/-! ## Reading -/

structure ControlPlaneOrder where
  id : Option String
  idempotencyKey : Option String
  symbol : String
  side : String
  size : ℚ
  price : Option ℚ
  status : Option String
  filled : Option ℚ

structure ControlPlaneLedgerEntry where
  orderId : String
  fillId : String
  price : ℚ
  quantity : ℚ
  liquidityFlag : String
  feeAmount : ℚ
  feeAsset : String
  rebateAmount : ℚ
  fundingAmount : ℚ
  eventTimeUnixMs : ℤ

structure ControlPlaneLatencyBreakdown where
  decisionLatency : Nat
  sendLatency : Nat
  ackLatency : Nat
  firstFillLatency : Nat
  fullFillLatency : Nat

structure ControlPlaneExecutionEvent where
  slippageReal : ℚ
  partialFillRatio : ℚ
  competitionFlag : Option String
  latencyBreakdown : ControlPlaneLatencyBreakdown

structure ControlPlaneExecutionUpdate where
  order : ControlPlaneOrder
  ledger : Option ControlPlaneLedgerEntry
  execution : Option ControlPlaneExecutionEvent
  requestTimestampMs : ℤ
  sendTimestampMs : ℤ
  ackTimestampMs : ℤ
  firstFillTimestampMs : ℤ
  lastFillTimestampMs : ℤ
  expectedRealizedMarkout : Option ℚ
  regimeKind : Option String
  regimeVolatility : Option ℚ
  regimeSpread : Option ℚ
  regimeTrendStrength : Option ℚ

def decodeOrder (j : Json) : Option ControlPlaneOrder := do
  let id ← optionalField asStr "id" j
  let idempotencyKey ← optionalField asStr "idempotency_key" j
  let symbol ← requiredField asStr "symbol" j
  let side ← requiredField asStr "side" j
  let size ← requiredField asNum "size" j
  let price ← optionalField asNum "price" j
  let status ← optionalField asStr "status" j
  let filled ← optionalField asNum "filled" j
  return ⟨id, idempotencyKey, symbol, side, size, price, status, filled⟩

def decodeLedgerEntry (j : Json) : Option ControlPlaneLedgerEntry := do
  let orderId ← requiredField asStr "order_id" j
  let fillId ← requiredField asStr "fill_id" j
  let price ← requiredField asNum "price" j
  let quantity ← requiredField asNum "quantity" j
  let liquidityFlag ← requiredField asStr "liquidity_flag" j
  let feeAmount ← requiredField asNum "fee_amount" j
  let feeAsset ← requiredField asStr "fee_asset" j
  let rebateAmount ← requiredField asNum "rebate_amount" j
  let fundingAmount ← requiredField asNum "funding_amount" j
  let eventTimeUnixMs ← requiredField asInt "event_time_unix_ms" j
  return ⟨orderId, fillId, price, quantity, liquidityFlag, feeAmount, feeAsset, rebateAmount,
    fundingAmount, eventTimeUnixMs⟩

/-- No duration, which is an `int64` in Go, is past the end of a `u64`. -/
def decodeLatency (j : Json) : Option ControlPlaneLatencyBreakdown := do
  let decisionLatency ← requiredField asNat "decision_latency" j
  let sendLatency ← requiredField asNat "send_latency" j
  let ackLatency ← requiredField asNat "ack_latency" j
  let firstFillLatency ← requiredField asNat "first_fill_latency" j
  let fullFillLatency ← requiredField asNat "full_fill_latency" j
  return ⟨decisionLatency, sendLatency, ackLatency, firstFillLatency, fullFillLatency⟩

def decodeEvent (j : Json) : Option ControlPlaneExecutionEvent := do
  let slippageReal ← requiredField asNum "slippage_real" j
  let partialFillRatio ← requiredField asNum "partial_fill_ratio" j
  let competitionFlag ← optionalField asStr "competition_flag" j
  let latencyBreakdown ← requiredField decodeLatency "latency_breakdown" j
  return ⟨slippageReal, partialFillRatio, competitionFlag, latencyBreakdown⟩

def decodeUpdate (j : Json) : Option ControlPlaneExecutionUpdate := do
  let order ← requiredField decodeOrder "order" j
  let ledger ← optionalField decodeLedgerEntry "ledger" j
  let execution ← optionalField decodeEvent "execution" j
  let requestTimestampMs ← requiredField asInt "request_timestamp_ms" j
  let sendTimestampMs ← requiredField asInt "send_timestamp_ms" j
  let ackTimestampMs ← requiredField asInt "ack_timestamp_ms" j
  let firstFillTimestampMs ← requiredField asInt "first_fill_timestamp_ms" j
  let lastFillTimestampMs ← requiredField asInt "last_fill_timestamp_ms" j
  let expectedRealizedMarkout ← optionalField asNum "expected_realized_markout" j
  let regimeKind ← optionalField asStr "regime_kind" j
  let regimeVolatility ← optionalField asNum "regime_volatility" j
  let regimeSpread ← optionalField asNum "regime_spread" j
  let regimeTrendStrength ← optionalField asNum "regime_trend_strength" j
  return ⟨order, ledger, execution, requestTimestampMs, sendTimestampMs, ackTimestampMs,
    firstFillTimestampMs, lastFillTimestampMs, expectedRealizedMarkout, regimeKind,
    regimeVolatility, regimeSpread, regimeTrendStrength⟩

/-! ## What is read of what was written -/

def receivedOrder (o : Order) : ControlPlaneOrder :=
  { id := some o.id
    idempotencyKey := some o.idempotencyKey
    symbol := o.symbol
    side := sideText o.side
    size := o.size
    price := o.price
    status := some (statusText o.status)
    filled := some o.filled }

def receivedLedgerEntry (l : FillLedgerEntry) : ControlPlaneLedgerEntry :=
  { orderId := l.orderID
    fillId := l.fillID
    price := l.price
    quantity := l.quantity
    liquidityFlag := liquidityText l.liquidityFlag
    feeAmount := l.feeAmount
    feeAsset := l.feeAsset
    rebateAmount := l.rebateAmount
    fundingAmount := l.fundingAmount
    eventTimeUnixMs := l.eventTimeUnixMs }

/-- A latency that is not negative. -/
def receivedLatency (l : ControlPlane.LatencyBreakdown) : ControlPlaneLatencyBreakdown :=
  { decisionLatency := l.decisionLatency.toNat
    sendLatency := l.sendLatency.toNat
    ackLatency := l.ackLatency.toNat
    firstFillLatency := l.firstFillLatency.toNat
    fullFillLatency := l.fullFillLatency.toNat }

def receivedEvent (e : ExecutionEvent) : ControlPlaneExecutionEvent :=
  { slippageReal := e.slippageReal
    partialFillRatio := e.partialFillRatio
    competitionFlag := some e.competitionFlag
    latencyBreakdown := receivedLatency e.latencyBreakdown }

/-- A number that is written unless it is zero. -/
def receivedNum (q : ℚ) : Option ℚ := if q = 0 then none else some q

def receivedText (s : String) : Option String := if s = "" then none else some s

def receivedUpdate (u : ExecutionUpdate) : ControlPlaneExecutionUpdate :=
  { order := receivedOrder u.order
    ledger := u.ledger.map receivedLedgerEntry
    execution := u.execution.map receivedEvent
    requestTimestampMs := u.requestTimestampMs
    sendTimestampMs := u.sendTimestampMs
    ackTimestampMs := u.ackTimestampMs
    firstFillTimestampMs := u.firstFillTimestampMs
    lastFillTimestampMs := u.lastFillTimestampMs
    expectedRealizedMarkout := receivedNum u.expectedRealizedMarkout
    regimeKind := receivedText u.regimeKind
    regimeVolatility := receivedNum u.regimeVolatility
    regimeSpread := receivedNum u.regimeSpread
    regimeTrendStrength := receivedNum u.regimeTrendStrength }

theorem orAbsent_omitZero (q : ℚ) : orAbsent asNum (omitZero q) = some (receivedNum q) := by
  unfold omitZero receivedNum
  split <;> rfl

theorem orAbsent_omitEmpty (s : String) : orAbsent asStr (omitEmpty s) = some (receivedText s) := by
  unfold omitEmpty receivedText
  split <;> rfl

section Names

theorem orderFields_nodup (o : Order) : ((orderFields o).map Prod.fst).Nodup := by
  simp [orderFields]

theorem ledgerEntryFields_nodup (l : FillLedgerEntry) :
    ((ledgerEntryFields l).map Prod.fst).Nodup := by
  simp [ledgerEntryFields]

theorem latencyFields_nodup (l : ControlPlane.LatencyBreakdown) :
    ((latencyFields l).map Prod.fst).Nodup := by
  simp [latencyFields]

theorem eventFields_nodup (e : ExecutionEvent) : ((eventFields e).map Prod.fst).Nodup := by
  simp [eventFields]

theorem updateFields_nodup (u : ExecutionUpdate) : ((updateFields u).map Prod.fst).Nodup := by
  simp [updateFields]

end Names

theorem decodeOrder_encodeOrder (o : Order) :
    decodeOrder (encodeOrder o) = some (receivedOrder o) := by
  have hnames := orderFields_nodup o
  have hprice : orAbsent asNum (o.price.map .num) = some o.price := by cases o.price <;> rfl
  unfold decodeOrder encodeOrder
  rw [optionalField_record asStr "id" hnames rfl,
    optionalField_record asStr "idempotency_key" hnames rfl,
    requiredField_record asStr "symbol" hnames rfl, requiredField_record asStr "side" hnames rfl,
    requiredField_record asNum "size" hnames rfl, optionalField_record asNum "price" hnames rfl,
    optionalField_record asStr "status" hnames rfl,
    optionalField_record asNum "filled" hnames rfl, hprice]
  rfl

theorem decodeLedgerEntry_encodeLedgerEntry (l : FillLedgerEntry) :
    decodeLedgerEntry (encodeLedgerEntry l) = some (receivedLedgerEntry l) := by
  have hnames := ledgerEntryFields_nodup l
  unfold decodeLedgerEntry encodeLedgerEntry
  rw [requiredField_record asStr "order_id" hnames rfl,
    requiredField_record asStr "fill_id" hnames rfl,
    requiredField_record asNum "price" hnames rfl,
    requiredField_record asNum "quantity" hnames rfl,
    requiredField_record asStr "liquidity_flag" hnames rfl,
    requiredField_record asNum "fee_amount" hnames rfl,
    requiredField_record asStr "fee_asset" hnames rfl,
    requiredField_record asNum "rebate_amount" hnames rfl,
    requiredField_record asNum "funding_amount" hnames rfl,
    requiredField_record asInt "event_time_unix_ms" hnames rfl]
  simp only [Option.bind_some, asInt_int]
  rfl

theorem bind_guarded {A B : Type} (c : Prop) [Decidable c] (a : A) (f : A → Option B) :
    (if c then some a else none).bind f = if c then f a else none := by
  split_ifs
  · rfl
  · rfl

/-- The one place where reading can fail. -/
theorem decodeLatency_encodeLatency (l : ControlPlane.LatencyBreakdown) :
    decodeLatency (encodeLatency l) =
      if LatencyBreakdown.readable l then some (receivedLatency l) else none := by
  have hnames := latencyFields_nodup l
  unfold decodeLatency encodeLatency
  rw [requiredField_record asNat "decision_latency" hnames rfl,
    requiredField_record asNat "send_latency" hnames rfl,
    requiredField_record asNat "ack_latency" hnames rfl,
    requiredField_record asNat "first_fill_latency" hnames rfl,
    requiredField_record asNat "full_fill_latency" hnames rfl]
  simp only [Option.bind_eq_bind, Option.bind_some, asNat_int, bind_guarded,
    LatencyBreakdown.readable, Bool.and_eq_true, decide_eq_true_eq, ite_and]
  rfl

theorem decodeEvent_encodeEvent (e : ExecutionEvent) :
    decodeEvent (encodeEvent e) =
      if LatencyBreakdown.readable e.latencyBreakdown then some (receivedEvent e) else none := by
  have hnames := eventFields_nodup e
  unfold decodeEvent encodeEvent
  rw [requiredField_record asNum "slippage_real" hnames rfl,
    requiredField_record asNum "partial_fill_ratio" hnames rfl,
    optionalField_record asStr "competition_flag" hnames rfl,
    requiredField_record decodeLatency "latency_breakdown" hnames rfl]
  simp only [Option.bind_some, decodeLatency_encodeLatency]
  split <;> rfl

/-- An update without an execution can be read. -/
def Readable (u : ExecutionUpdate) : Prop :=
  ∀ e, u.execution = some e → LatencyBreakdown.readable e.latencyBreakdown = true

instance (u : ExecutionUpdate) : Decidable (Readable u) :=
  match h : u.execution with
  | none => .isTrue fun e he => by rw [h] at he; cases he
  | some e => decidable_of_iff (LatencyBreakdown.readable e.latencyBreakdown = true)
      ⟨fun hread e' he' => by rw [h] at he'; rwa [← Option.some.inj he'], fun hread => hread e h⟩

/-- All of an update is read as it was written, if its latencies are not negative. -/
theorem decodeUpdate_encodeUpdate (u : ExecutionUpdate) :
    decodeUpdate (encodeUpdate u) = if Readable u then some (receivedUpdate u) else none := by
  have hnames := updateFields_nodup u
  have hledger : orAbsent decodeLedgerEntry (u.ledger.map encodeLedgerEntry) =
      some (u.ledger.map receivedLedgerEntry) := by
    cases u.ledger with
    | none => rfl
    | some l => exact congrArg (Option.map some) (decodeLedgerEntry_encodeLedgerEntry l)
  have hexecution : orAbsent decodeEvent (u.execution.map encodeEvent) =
      if Readable u then some (u.execution.map receivedEvent) else none := by
    cases hexec : u.execution with
    | none =>
      have hreadable : Readable u := fun e he => by rw [hexec] at he; cases he
      rw [if_pos hreadable]
      rfl
    | some e =>
      have hread : Readable u ↔ LatencyBreakdown.readable e.latencyBreakdown = true := by
        simp [Readable, hexec]
      have hdecode : orAbsent decodeEvent (some (encodeEvent e)) =
          (decodeEvent (encodeEvent e)).map some := rfl
      rw [Option.map_some, hdecode, decodeEvent_encodeEvent]
      by_cases h : LatencyBreakdown.readable e.latencyBreakdown = true
      · rw [if_pos h, if_pos (hread.mpr h)]
        rfl
      · rw [if_neg h, if_neg (mt hread.mp h)]
        rfl
  unfold decodeUpdate encodeUpdate
  rw [requiredField_record decodeOrder "order" hnames rfl,
    optionalField_record decodeLedgerEntry "ledger" hnames rfl,
    optionalField_record decodeEvent "execution" hnames rfl,
    requiredField_record asInt "request_timestamp_ms" hnames rfl,
    requiredField_record asInt "send_timestamp_ms" hnames rfl,
    requiredField_record asInt "ack_timestamp_ms" hnames rfl,
    requiredField_record asInt "first_fill_timestamp_ms" hnames rfl,
    requiredField_record asInt "last_fill_timestamp_ms" hnames rfl,
    optionalField_record asNum "expected_realized_markout" hnames rfl,
    optionalField_record asStr "regime_kind" hnames rfl,
    optionalField_record asNum "regime_volatility" hnames rfl,
    optionalField_record asNum "regime_spread" hnames rfl,
    optionalField_record asNum "regime_trend_strength" hnames rfl, hledger, hexecution]
  simp only [Option.bind_some, asInt_int, orAbsent_omitZero, orAbsent_omitEmpty,
    decodeOrder_encodeOrder]
  split <;> rfl

theorem decodeUpdate_eq_some_iff {u : ExecutionUpdate} {payload : ControlPlaneExecutionUpdate} :
    decodeUpdate (encodeUpdate u) = some payload ↔ Readable u ∧ receivedUpdate u = payload := by
  rw [decodeUpdate_encodeUpdate, Option.ite_none_right_eq_some, Option.some_inj]

end RealTimeTrading.Wire
