/-
RealTimeTrading.ControlPlane.BingX.Client — the records and mappings of
the exchange client: `orders.go`, `account.go` and the execution reports
of `ws.go`.

A request to the exchange is the parameters it carries; its reply is
whatever the exchange sends back, decoded. `Std` holds the three functions
of the Go standard library the mappings use on text.
-/
import RealTimeTrading.ControlPlane.Plane

namespace RealTimeTrading.ControlPlane.BingX

open RealTimeTrading.ControlPlane

/-- `strconv.ParseFloat`, whose value is used whatever its error, the
`'f', -1` form of `strconv.FormatFloat`, and `strings.ToUpper`. -/
structure Std where
  parseFloat : String → ℚ
  trimFloat : ℚ → String
  toUpper : String → String

/-! ## Records of the exchange -/

structure OrderReply where
  orderID : String := ""
  clientOrderID : String := ""
  status : String := ""
  symbol : String := ""
  side : String := ""
  price : String := ""
  origQty : String := ""
  executedQty : String := ""
  updateTime : ℤ := 0
  time : ℤ := 0
  deriving DecidableEq

structure BalanceRaw where
  balance : String
  availableBalance : String
  unrealizedPnL : String

structure PositionRaw where
  symbol : String
  positionAmt : String
  avgPrice : String
  updateTime : ℤ := 0

structure FillRaw where
  orderID : String
  tradeID : String
  symbol : String
  side : String
  price : String
  qty : String
  commission : String := ""
  maker : Bool := false
  time : ℤ := 0

structure ExecutionReport where
  orderID : String
  clientOrderID : String
  symbol : String
  side : String
  status : String
  orderQty : String
  lastPrice : String
  lastQty : String
  cumulativeQty : String
  feeAmount : String := ""
  feeAsset : String := ""
  maker : Bool := false
  tradeID : String
  eventTime : ℤ := 0
  transactionTime : ℤ := 0
  rejectReason : String := ""

/-! ## Conversions -/

def mapOrderStatus (std : Std) (status : String) : OrderStatus :=
  let status := std.toUpper status
  if status = "NEW" then .sent
  else if status = "PARTIALLY_FILLED" then .partially
  else if status = "FILLED" then .filled
  else if status = "CANCELED" ∨ status = "CANCELLED" then .canceled
  else if status = "FAILED" ∨ status = "REJECTED" then .rejected
  else .new

def floatPtr (v : ℚ) : Option ℚ := if v = 0 then none else some v

/-- `now` in nanoseconds names an order neither id of which is set. -/
def fallbackID (now : Time) (primary fallback : String) : String :=
  if primary ≠ "" then primary
  else if fallback ≠ "" then fallback
  else "bingx-" ++ toString (now - Time.unixEpoch)

def msOrNow (now : Time) (v : ℤ) : Time := if v ≤ 0 then now else .ofUnixMilli v

def maxQty (std : Std) (raw : String) : ℚ :=
  let value := std.parseFloat raw
  if value ≤ 0 then 1e-9 else value

def mapOrder (std : Std) (now : Time) (order : OrderReply) : Order :=
  { id := fallbackID now order.clientOrderID order.orderID
    exchangeOrderID := order.orderID
    idempotencyKey := order.clientOrderID
    symbol := std.toUpper order.symbol
    side := .ofString (std.toUpper order.side)
    size := std.parseFloat order.origQty
    filled := std.parseFloat order.executedQty
    price := floatPtr (std.parseFloat order.price)
    status := mapOrderStatus std order.status
    createdAt := msOrNow now order.time
    updatedAt := msOrNow now order.updateTime
    requestAt := msOrNow now order.time
    sendAt := msOrNow now order.time }

/-- One position of `GetPositions`. -/
def mapPosition (std : Std) (now : Time) (position : PositionRaw) : Position :=
  { symbol := std.toUpper position.symbol
    size := std.parseFloat position.positionAmt
    avgPrice := std.parseFloat position.avgPrice
    updated := msOrNow now position.updateTime }

/-- One fill of `GetFills`. -/
def mapFill (std : Std) (now : Time) (fill : FillRaw) : FillLedgerEntry :=
  { orderID := fill.orderID
    fillID := fill.tradeID
    symbol := std.toUpper fill.symbol
    side := .ofString (std.toUpper fill.side)
    price := std.parseFloat fill.price
    quantity := std.parseFloat fill.qty
    liquidityFlag := if fill.maker then .maker else .taker
    feeAmount := std.parseFloat fill.commission
    feeAsset := "USDT"
    eventTime := msOrNow now fill.time
    eventTimeUnixMs := fill.time }

/-- `GetAccountState`, from the two replies it asks for. The leverage it
reports is a variable nothing assigns. -/
def accountState (std : Std) (now : Time) (balance : BalanceRaw) (positions : List Position) :
    AccountState :=
  { balance := std.parseFloat balance.balance
    availableBalance := std.parseFloat balance.availableBalance
    usedMargin := (positions.map fun p => |p.size * p.avgPrice|).sum
    unrealizedPnL := 0
    leverage := 0
    updatedAt := now }

/-! ## Placing orders -/

def orderType (req : ExecutionRequest) : String :=
  match req.price with
  | some _ => "LIMIT"
  | none => "MARKET"

def sideString : Side → String
  | .buy => "BUY"
  | .sell => "SELL"
  | .other raw => raw

/-- The parameters `PlaceOrder` sends. -/
def placeOrderParams (std : Std) (req : ExecutionRequest) : GoMap String String :=
  let params : GoMap String String :=
    ((((∅ : GoMap String String).insert "symbol" (std.toUpper req.symbol)).insert
      "side" (sideString req.side)).insert "type" (orderType req)).insert
      "quantity" (std.trimFloat req.size) |>.insert "clientOrderId" req.idempotencyKey
  let params := match req.price with
    | some price => (params.insert "price" (std.trimFloat price)).insert "timeInForce" "GTC"
    | none => params
  if req.reduceOnly then params.insert "reduceOnly" "true" else params

/-- The request `SendOrder` makes of an order. -/
def sendOrderRequest (order : Order) : ExecutionRequest :=
  { idempotencyKey := order.idempotencyKey
    symbol := order.symbol
    side := order.side
    size := order.size
    price := order.price
    decision := .execute
    signalTime := order.requestAt
    requestTime := order.requestAt
    sendTime := order.sendAt
    expectedRealizedMarkout := order.expectedRealizedMarkout
    reduceOnly := false }

/-- What `SendOrder` makes of the exchange's reply. -/
def sendOrderSteps (now : Time) : Except String OrderReply → Except String (List ExchangeStep)
  | .error message => .error message
  | .ok response =>
    .ok [{ status := .ack
           occurredAt := msOrNow now response.updateTime
           exchangeOrderID := response.orderID }]

/-- The client as the gateway sees it: the exchange may reply anything. -/
def exchange : Exchange where
  async := true
  replies _ steps := ∃ now reply, steps = sendOrderSteps now reply
  answers _ := ⟨_, 0, .error "", rfl⟩

/-! ## Execution reports -/

def reportLedger (std : Std) (now : Time) (event : ExecutionReport) : FillLedgerEntry :=
  { orderID := event.orderID
    fillID := fallbackID now event.tradeID event.orderID
    symbol := std.toUpper event.symbol
    side := .ofString (std.toUpper event.side)
    price := std.parseFloat event.lastPrice
    quantity := std.parseFloat event.lastQty
    liquidityFlag := if event.maker then .maker else .taker
    feeAmount := std.parseFloat event.feeAmount
    feeAsset := event.feeAsset
    eventTime := msOrNow now event.transactionTime
    eventTimeUnixMs := event.transactionTime }

def reportExecution (std : Std) (now : Time) (event : ExecutionReport) : ExecutionEvent :=
  let ledger := reportLedger std now event
  { orderID := event.orderID
    fillID := ledger.fillID
    symbol := std.toUpper event.symbol
    status := mapOrderStatus std event.status
    filledQuantity := std.parseFloat event.lastQty
    fillPrice := std.parseFloat event.lastPrice
    liquidityFlag := ledger.liquidityFlag
    feeAmount := std.parseFloat event.feeAmount
    fillQuality := 1
    competitionFlag := "EXTERNAL_AUTHORIZED"
    partialFillRatio := std.parseFloat event.cumulativeQty / maxQty std event.orderQty }

/-- Only a report with a last quantity above zero carries a fill. -/
def mapExecutionReport (std : Std) (now : Time) (event : ExecutionReport) : AsyncExchangeUpdate :=
  let filled := decide (0 < std.parseFloat event.lastQty)
  { orderID := ""
    exchangeOrderID := event.orderID
    idempotencyKey := event.clientOrderID
    step :=
      { status := mapOrderStatus std event.status
        occurredAt := msOrNow now event.eventTime
        cancelReason := event.rejectReason
        exchangeOrderID := event.orderID
        ledger := if filled then some (reportLedger std now event) else none
        execution := if filled then some (reportExecution std now event) else none } }

end RealTimeTrading.ControlPlane.BingX
