/-
RealTimeTrading.ControlPlane.Store — the in-memory store of
`internal/state/store.go`, one definition per method.

Every method of the Go store runs under one mutex, so each is a pure
function of the store; `now` is the value its `time.Now().UTC()` read.
Methods that write return their results paired with the new store.

`MarkOrderSent`, `MarkOrderAck` and `CancelOrder` share one shape, read
an order and write it back amended; it is `amend` here, and each method
is `amend` at its own field updates.
-/
import RealTimeTrading.ControlPlane.Domain
import Mathlib.Algebra.BigOperators.Group.List.Basic
import Mathlib.Algebra.Order.Group.Unbundled.Abs

namespace RealTimeTrading.ControlPlane

structure Store where
  positions : GoMap Symbol Position := ∅
  orders : GoMap OrderID Order := ∅
  idempotency : GoMap String OrderID := ∅
  exchangeIDs : GoMap String OrderID := ∅
  ledger : List FillLedgerEntry := []
  executions : List ExecutionEvent := []
  account : AccountState := {}
  reports : List ReconciliationReport := []

structure ReconciliationStatus where
  ordersTracked : Nat
  ledgerEntries : Nat
  executionEvents : Nat
  exchangeFillQtyByOrder : GoMap String ℚ
  ledgerQtyByOrder : GoMap String ℚ
  isMatched : Bool

/-- The sign of a `float64`: `-1`, `0` or `1`. -/
def sign (v : ℚ) : ℚ := if v < 0 then -1 else if 0 < v then 1 else 0

namespace OrderStatus

/-- The three statuses every guard in the code treats as final. -/
def isTerminal : OrderStatus → Bool
  | .filled | .canceled | .rejected => true
  | _ => false

/-- The statuses `OpenOrdersBySymbol` lists. -/
def isOpen : OrderStatus → Bool
  | .new | .sent | .ack | .partially => true
  | _ => false

end OrderStatus

namespace Store

/-- Go's `NewStore`. -/
def newStore : Store := {}

/-! ## Shared steps of the methods -/

/-- `s.orders[order.ID] = order`. -/
def putOrder (order : Order) (s : Store) : Store :=
  { s with orders := s.orders.insert order.id order }

/-- `if exchangeOrderID != "" { s.exchangeIDs[exchangeOrderID] = orderID }`. -/
def bindExchangeID (exchangeOrderID : String) (orderID : OrderID) (s : Store) : Store :=
  if exchangeOrderID ≠ "" then
    { s with exchangeIDs := s.exchangeIDs.insert exchangeOrderID orderID }
  else s

def orderNotFound : Err := .text "order not found"

/-- Read an order, write it back amended. -/
def amend (orderID : OrderID) (f : Order → Order) (s : Store) : (Order × Option Err) × Store :=
  match s.orders.lookup orderID with
  | none => ((default, some orderNotFound), s)
  | some order => ((f order, none), s.putOrder (f order))

/-- `s.idempotency[key] = orderID`. -/
def reserveKey (key : String) (orderID : OrderID) (s : Store) : Store :=
  { s with idempotency := s.idempotency.insert key orderID }

/-! ## What the methods write -/

def reservedOrder (now : Time) (order : Order) : Order :=
  { order with
    createdAt := now
    updatedAt := now
    requestAt := if order.requestAt.isZero then now else order.requestAt
    status := .new }

def updatedOrder (now : Time) (order : Order) : Order := { order with updatedAt := now }

def sentOrder (now sentAt : Time) (order : Order) : Order :=
  { order with status := .sent, sendAt := sentAt, updatedAt := now }

def ackedOrder (now ackAt : Time) (order : Order) : Order :=
  { order with status := .ack, ackAt := ackAt, exchangeAcceptAt := ackAt, updatedAt := now }

def canceledOrder (now : Time) (reason : String) (canceledAt : Time) (order : Order) : Order :=
  { order with
    status := .canceled
    cancelReason := reason
    lastFillAt := canceledAt
    updatedAt := now }

def repricedOrder (now : Time) (price : Option ℚ) (order : Order) : Order :=
  { order with price := price, updatedAt := now }

def boundOrder (now : Time) (exchangeOrderID : String) (order : Order) : Order :=
  { order with exchangeOrderID := exchangeOrderID, updatedAt := now }

/-- The order `UpsertOrder` writes, under the id its idempotency key already
has, if it has one. -/
def upsertedOrder (now : Time) (s : Store) (order : Order) : Order :=
  { order with
    id := match s.idempotency.lookup order.idempotencyKey with
      | some existingID => if existingID ≠ "" then existingID else order.id
      | none => order.id
    updatedAt := now
    createdAt := if order.createdAt.isZero then now else order.createdAt }

/-- The order part of `ApplyExternalFill`. -/
def fillOrder (now : Time) (fill : FillLedgerEntry) (event : ExecutionEvent) (order : Order) :
    Order :=
  let filled := order.filled + fill.quantity
  { order with
    filled := filled
    weightedAvgFillPrice :=
      if 0 < filled then
        (order.weightedAvgFillPrice * order.filled + fill.price * fill.quantity) / filled
      else order.weightedAvgFillPrice
    partialFillRatio := filled / max order.size 1e-12
    firstFillAt :=
      if order.firstFillAt.isZero && decide (0 < fill.quantity) then fill.eventTime
      else order.firstFillAt
    lastFillAt := if 0 < fill.quantity then fill.eventTime else order.lastFillAt
    status := if order.size ≤ filled then .filled else .partially
    slippageRealBps := event.slippageReal
    queueDelay := event.executionLatency
    updatedAt := now }

/-- The position part of `ApplyExternalFill`, for a fill of an order on
`symbol` and `side`. Closing exactly resets the record; adding on the same
side averages the price; reducing or crossing zero keeps the average price. -/
def fillPosition (now : Time) (symbol : Symbol) (side : Side) (fill : FillLedgerEntry)
    (pos : Position) : Position :=
  let signed := if side = .sell then -fill.quantity else fill.quantity
  let newSize := pos.size + signed
  if |newSize| < 1e-12 then { symbol := symbol, updated := now }
  else if pos.size = 0 ∨ sign pos.size = sign signed then
    { symbol := symbol
      size := newSize
      avgPrice := (pos.avgPrice * |pos.size| + fill.price * fill.quantity) / |newSize|
      updated := now }
  else { pos with size := newSize, updated := now }

/-- The order an exchange-side or local id stands for. -/
def resolve (s : Store) (orderID : OrderID) : OrderID :=
  (s.exchangeIDs.lookup orderID).getD orderID

/-! ## Writing methods -/

def reserveOrder (now : Time) (order : Order) (s : Store) : (Order × Bool × Option Err) × Store :=
  match s.idempotency.lookup order.idempotencyKey with
  | some existingID => (((s.orders.lookup existingID).getD default, true, some .duplicate), s)
  | none =>
    ((reservedOrder now order, false, none),
      ((s.putOrder (reservedOrder now order)).reserveKey order.idempotencyKey
        order.id).bindExchangeID order.exchangeOrderID order.id)

def updateOrder (now : Time) (order : Order) (s : Store) : Store :=
  (s.putOrder (updatedOrder now order)).bindExchangeID order.exchangeOrderID order.id

def markOrderSent (now : Time) (orderID : OrderID) (sentAt : Time) (s : Store) :
    (Order × Option Err) × Store := s.amend orderID (sentOrder now sentAt)

def markOrderAck (now : Time) (orderID : OrderID) (ackAt : Time) (s : Store) :
    (Order × Option Err) × Store := s.amend orderID (ackedOrder now ackAt)

def cancelOrder (now : Time) (orderID : OrderID) (reason : String) (canceledAt : Time) (s : Store) :
    (Order × Option Err) × Store := s.amend orderID (canceledOrder now reason canceledAt)

/-- A finished order is returned as it is, with no error. -/
def replaceOrderPrice (now : Time) (orderID : OrderID) (price : Option ℚ) (s : Store) :
    (Order × Option Err) × Store :=
  match s.orders.lookup orderID with
  | none => ((default, some orderNotFound), s)
  | some order =>
    if order.status.isTerminal then ((order, none), s)
    else ((repricedOrder now price order, none), s.putOrder (repricedOrder now price order))

def applyExternalFill (now : Time) (orderID : OrderID) (fill : FillLedgerEntry)
    (event : ExecutionEvent) (s : Store) : (Order × Position × Option Err) × Store :=
  match s.orders.lookup (s.resolve orderID) with
  | none => ((default, default, some orderNotFound), s)
  | some order =>
    let pos := fillPosition now order.symbol order.side fill
      ((s.positions.lookup order.symbol).getD default)
    ((fillOrder now fill event order, pos, none),
      { s.putOrder (fillOrder now fill event order) with
        positions := s.positions.insert order.symbol pos
        ledger := s.ledger ++ [fill]
        executions := s.executions ++ [event] })

def bindExchangeOrderID (now : Time) (orderID : OrderID) (exchangeOrderID : String) (s : Store) :
    (Order × Option Err) × Store :=
  match s.orders.lookup orderID with
  | none => ((default, some orderNotFound), s)
  | some order =>
    ((boundOrder now exchangeOrderID order, none),
      (s.putOrder (boundOrder now exchangeOrderID order)).bindExchangeID exchangeOrderID order.id)

def upsertOrder (now : Time) (order : Order) (s : Store) : Store :=
  let upserted := upsertedOrder now s order
  let s := s.putOrder upserted
  let s := if order.idempotencyKey ≠ "" then s.reserveKey order.idempotencyKey upserted.id else s
  s.bindExchangeID order.exchangeOrderID upserted.id

def setPosition (position : Position) (s : Store) : Store :=
  { s with positions := s.positions.insert position.symbol position }

def setAccountState (account : AccountState) (s : Store) : Store := { s with account := account }

def appendReconciliationReport (report : ReconciliationReport) (s : Store) : Store :=
  { s with reports := s.reports ++ [report] }

/-! ## Reading methods -/

/-- The values of a map, in some order. -/
def valuesOf {V : Type} (m : GoMap String V) : List V := m.entries.map (·.2)

def orderList (s : Store) : List Order := valuesOf s.orders

def openOrdersBySymbol (s : Store) (symbol : Symbol) : List Order :=
  s.orderList.filter fun o => decide (o.symbol = symbol) && o.status.isOpen

def order (s : Store) (orderID : OrderID) : Option Order := s.orders.lookup orderID

def orderByIdempotency (s : Store) (key : String) : Option Order :=
  (s.idempotency.lookup key).bind s.orders.lookup

def orderByExchangeID (s : Store) (exchangeOrderID : String) : Option Order :=
  (s.exchangeIDs.lookup exchangeOrderID).bind s.orders.lookup

/-- Go's `Position`: a missing symbol reads as the zero record. -/
def position (s : Store) (symbol : Symbol) : Position :=
  (s.positions.lookup symbol).getD default

/-- `m[k] += q` on a map that reads `0` where it has no entry. -/
def addQty (m : GoMap String ℚ) (k : String) (q : ℚ) : GoMap String ℚ :=
  m.insert k ((m.lookup k).getD 0 + q)

def ledgerQtyByOrder (s : Store) : GoMap String ℚ :=
  s.ledger.foldl (fun m entry => addQty m entry.orderID entry.quantity) ∅

def exchangeFillQtyByOrder (s : Store) : GoMap String ℚ :=
  s.executions.foldl (fun m event => addQty m event.orderID event.filledQuantity) ∅

def reconciliation (s : Store) : ReconciliationStatus :=
  let ledgerByOrder := s.ledgerQtyByOrder
  let exchangeByOrder := s.exchangeFillQtyByOrder
  { ordersTracked := s.orders.entries.length
    ledgerEntries := s.ledger.length
    executionEvents := s.executions.length
    exchangeFillQtyByOrder := exchangeByOrder
    ledgerQtyByOrder := ledgerByOrder
    isMatched := decide (ledgerByOrder.entries.length = exchangeByOrder.entries.length) &&
      exchangeByOrder.entries.all fun e =>
        !decide (1e-9 < |e.2 - (ledgerByOrder.lookup e.1).getD 0|) }

def grossExposureUSD (s : Store) (mark : GoMap Symbol ℚ) : ℚ :=
  (s.positions.entries.map fun e =>
    let price := (mark.lookup e.1).getD 0
    let price := if price = 0 then e.2.avgPrice else price
    |e.2.size * price|).sum

end Store

end RealTimeTrading.ControlPlane
