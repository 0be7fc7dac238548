/-
RealTimeTrading.ControlPlane.Paper — `paper.go`: the exchange that fills
every order itself.

`SendOrder` answers at once with an ACK and the fills of the whole size,
two halves for a priced order. The exchange id of an order is its own id.
-/
import RealTimeTrading.ControlPlane.Plane
import Mathlib.Tactic.Linarith

namespace RealTimeTrading.ControlPlane

namespace PaperExchange

def newLedgerFill (order : Order) (fillID : String) (price quantity : ℚ) (flag : LiquidityFlag)
    (eventTime : Time) : FillLedgerEntry :=
  { orderID := order.id
    fillID := fillID
    symbol := order.symbol
    side := order.side
    price := price
    quantity := quantity
    liquidityFlag := flag
    feeAmount := price * quantity * (if flag = .maker then 0.0002 else 0.0004)
    feeAsset := "USDT"
    rebateAmount := if flag = .maker then price * quantity * 0.00005 else 0
    eventTime := eventTime
    eventTimeUnixMs := eventTime.unixMilli }

def buildPaperFills (order : Order) (reference : ℚ) (ackAt : Time) : List FillLedgerEntry :=
  let remaining := order.size
  if remaining ≤ 0 then []
  else if order.price.isSome then
    let halfQty := remaining * 0.5
    [newLedgerFill order "fill-a" reference halfQty .maker (ackAt + 4 * millisecond),
      newLedgerFill order "fill-b" reference (remaining - halfQty) .taker (ackAt + 9 * millisecond)]
  else [newLedgerFill order "fill-a" reference remaining .taker (ackAt + 5 * millisecond)]

def fillQuality (fill : FillLedgerEntry) (order : Order) : ℚ :=
  let quality := 0.75 + fill.quantity / max order.size 1e-12 * 0.20
  let quality := if fill.liquidityFlag = .maker then quality + 0.03 else quality
  min quality 1

/-- The first fill counts from the send either way the source reads `final`. -/
def latencyBreakdown (order : Order) (ackAt fillAt : Time) : LatencyBreakdown :=
  { decisionLatency := order.sendAt - order.requestAt
    sendLatency := 0
    ackLatency := ackAt - order.sendAt
    firstFillLatency := fillAt - order.sendAt
    fullFillLatency := fillAt - order.sendAt }

def slippageBps (order : Order) (fillPrice : ℚ) : ℚ :=
  match order.price with
  | none => 0
  | some price =>
    if price ≤ 0 then 0
    else (fillPrice - price) / price * 10000 * (if order.side = .sell then -1 else 1)

/-- The step that reports a fill; the last one says FILLED. -/
def fillStep (order : Order) (ackAt : Time) (final : Bool) (fill : FillLedgerEntry) :
    ExchangeStep :=
  let status : OrderStatus := if final then .filled else .partially
  { status := status
    occurredAt := fill.eventTime
    exchangeOrderID := order.id
    ledger := some fill
    execution := some
      { orderID := order.id
        fillID := fill.fillID
        symbol := order.symbol
        status := status
        filledQuantity := fill.quantity
        fillPrice := fill.price
        liquidityFlag := fill.liquidityFlag
        feeAmount := fill.feeAmount
        rebateAmount := fill.rebateAmount
        fundingAmount := fill.fundingAmount
        fillQuality := fillQuality fill order
        slippageReal := slippageBps order fill.price
        executionLatency := fill.eventTime - order.sendAt
        latencyBreakdown := latencyBreakdown order ackAt fill.eventTime
        competitionFlag := "EXTERNAL_AUTHORIZED"
        partialFillRatio := fill.quantity / max order.size 1e-12 } }

def fillSteps (order : Order) (ackAt : Time) : List FillLedgerEntry → List ExchangeStep
  | [] => []
  | [fill] => [fillStep order ackAt true fill]
  | fill :: rest => fillStep order ackAt false fill :: fillSteps order ackAt rest

/-- `done` is the error of a context that is over. -/
def sendOrder (done : Option String) (now : Time) (order : Order) :
    Except String (List ExchangeStep) :=
  match done with
  | some message => .error message
  | none =>
    let reference := match order.price with
      | some price => if 0 < price then price else 1
      | none => 1
    let ackAt := now + 2 * millisecond
    .ok ({ status := .ack, occurredAt := ackAt, exchangeOrderID := order.id } ::
      fillSteps order ackAt (buildPaperFills order reference ackAt))

/-- The paper exchange. It is no `AsyncExchangeClient`. -/
def exchange : Exchange where
  async := false
  replies order reply := ∃ done now, reply = sendOrder done now order
  answers _ := ⟨_, none, 0, rfl⟩

/-- The whole size is filled. -/
theorem buildPaperFills_sum (order : Order) (reference : ℚ) (ackAt : Time) :
    ((buildPaperFills order reference ackAt).map (·.quantity)).sum = max order.size 0 := by
  unfold buildPaperFills
  dsimp only
  split
  · rename_i hsize
    simp [max_eq_right hsize]
  · rename_i hsize
    rw [max_eq_left (not_le.mp hsize).le]
    split <;> simp [newLedgerFill]

/-- A fill of this order, at this price, not before the ACK. -/
structure FillOf (order : Order) (price : ℚ) (ackAt : Time) (fill : FillLedgerEntry) : Prop where
  orderID : fill.orderID = order.id
  symbol : fill.symbol = order.symbol
  side : fill.side = order.side
  price : fill.price = price
  quantity : 0 < fill.quantity
  eventTime : ackAt ≤ fill.eventTime

theorem fillOf_of_mem {order : Order} {reference : ℚ} {ackAt : Time} {fill : FillLedgerEntry}
    (h : fill ∈ buildPaperFills order reference ackAt) : FillOf order reference ackAt fill := by
  have hnew : ∀ (fillID : String) (flag : LiquidityFlag) {quantity : ℚ} {n : ℤ}, 0 < quantity →
      0 ≤ n → FillOf order reference ackAt
        (newLedgerFill order fillID reference quantity flag (ackAt + n * millisecond)) :=
    fun _ _ _ _ hquantity hn => ⟨rfl, rfl, rfl, rfl, hquantity,
      le_add_of_nonneg_right (mul_nonneg hn (by decide))⟩
  unfold buildPaperFills at h
  dsimp only at h
  split at h
  · cases h
  · rename_i hsize
    rw [not_le] at hsize
    split at h
    · rcases List.mem_cons.mp h with rfl | h
      · exact hnew _ _ (by linarith) (by decide)
      · rw [List.mem_singleton.mp h]
        exact hnew _ _ (by linarith) (by decide)
    · rw [List.mem_singleton.mp h]
      exact hnew _ _ hsize (by decide)

/-- The price of the fills: the limit, if the order has one. -/
def reference (price : Option ℚ) : ℚ :=
  match price with
  | some price => if 0 < price then price else 1
  | none => 1

/-- The reply to an order: the ACK, and a step for each fill. -/
theorem sendOrder_ok (now : Time) (order : Order) : sendOrder none now order =
    .ok ({ status := .ack, occurredAt := now + 2 * millisecond, exchangeOrderID := order.id } ::
      fillSteps order (now + 2 * millisecond)
        (buildPaperFills order (reference order.price) (now + 2 * millisecond))) := rfl

end PaperExchange

end RealTimeTrading.ControlPlane
