/-
RealTimeTrading.ControlPlane.Gateway — `gateway.go` as programs over
atomic calls.

Each Go function is a `Gw` program that issues the calls the source
issues, in the source's order: the store methods, the risk service, the
exchange client, the clock, `newID`, and `emit`. What a call does is not
said here; `ControlPlane.Plane` gives the calls their meaning and lets
any number of these programs interleave.

`async` is whether the exchange client is an `AsyncExchangeClient`
(`BingXClient` is, `PaperExchange` is not). Go's `(domain.Order, error)`
results are pairs, with `default` for `domain.Order{}`.
-/
import RealTimeTrading.Concurrency.Interleaving
import RealTimeTrading.ControlPlane.Risk.Service

namespace RealTimeTrading.ControlPlane

open RealTimeTrading.Concurrency

/-! ## Messages -/

structure ExchangeStep where
  status : OrderStatus
  occurredAt : Time := 0
  cancelReason : String := ""
  exchangeOrderID : String := ""
  ledger : Option FillLedgerEntry := none
  execution : Option ExecutionEvent := none
  deriving DecidableEq, Repr

structure AsyncExchangeUpdate where
  orderID : OrderID
  exchangeOrderID : String
  idempotencyKey : String
  step : ExchangeStep
  deriving DecidableEq, Repr

/-- What `emit` puts on the update channel. -/
inductive Update where
  | orderRejected (order : Order)
  | orderUpdate (order : Order)
  | executionUpdate (update : ExecutionUpdate)
  | fillLedgerEntry (entry : FillLedgerEntry)
  | executionEvent (event : ExecutionEvent)
  | positionUpdate (position : Position)
  deriving DecidableEq, Repr

/-! ## Calls -/

/-- The atomic calls the gateway makes. -/
inductive Op where
  | now
  | ctxErr
  | newID
  | evaluate (req : ExecutionRequest)
  | observeExecution (latency : Duration) (rejected : Bool)
  | observeExecutionEvent (event : ExecutionEvent)
  | observeMarket (event : MarketEvent)
  | setKillSwitch (enabled : Bool)
  | openOrdersBySymbol (symbol : Symbol)
  | reserveOrder (order : Order)
  | updateOrder (order : Order)
  | markOrderSent (orderID : OrderID) (sentAt : Time)
  | markOrderAck (orderID : OrderID) (ackAt : Time)
  | cancelOrder (orderID : OrderID) (reason : String) (canceledAt : Time)
  | replaceOrderPrice (orderID : OrderID) (price : Option ℚ)
  | applyExternalFill (orderID : OrderID) (fill : FillLedgerEntry) (event : ExecutionEvent)
  | bindExchangeOrderID (orderID : OrderID) (exchangeOrderID : String)
  | setAccountState (account : AccountState)
  | order (orderID : OrderID)
  | orderByIdempotency (key : String)
  | orderByExchangeID (exchangeOrderID : String)
  | sendOrder (order : Order)
  | cancelRemote (exchangeOrderID : String)
  | replaceRemote (exchangeOrderID : String) (newPrice : ℚ)
  | getAccountState
  | emit (update : Update)
  deriving DecidableEq

/-- The result type of each call. -/
@[reducible] def Res : Op → Type
  | .now => Time
  | .ctxErr => Option String
  | .newID => OrderID
  | .evaluate _ => RiskDecision
  | .observeExecution _ _ => Unit
  | .observeExecutionEvent _ => Unit
  | .observeMarket _ => Unit
  | .setKillSwitch _ => Unit
  | .openOrdersBySymbol _ => List Order
  | .reserveOrder _ => Order × Bool × Option Err
  | .updateOrder _ => Unit
  | .markOrderSent _ _ => Order × Option Err
  | .markOrderAck _ _ => Order × Option Err
  | .cancelOrder _ _ _ => Order × Option Err
  | .replaceOrderPrice _ _ => Order × Option Err
  | .applyExternalFill _ _ _ => Order × Position × Option Err
  | .bindExchangeOrderID _ _ => Order × Option Err
  | .setAccountState _ => Unit
  | .order _ => Option Order
  | .orderByIdempotency _ => Option Order
  | .orderByExchangeID _ => Option Order
  | .sendOrder _ => Except String (List ExchangeStep)
  | .cancelRemote _ => Option String
  | .replaceRemote _ _ => Option String
  | .getAccountState => Except String AccountState
  | .emit _ => Unit

/-- A program of the gateway. -/
abbrev Gw (α : Type) : Type := Prog Op Res α

def call (o : Op) : Gw (Res o) := Prog.op o

/-! ## applyStep -/

def executionUpdate (order : Order) (ledger : Option FillLedgerEntry)
    (execution : Option ExecutionEvent) (position : Option Position) : ExecutionUpdate :=
  { order := order
    ledger := ledger
    execution := execution
    position := position
    requestTimestampMs := order.requestAt.unixMilli
    sendTimestampMs := order.sendAt.unixMilli
    ackTimestampMs := order.ackAt.unixMilli
    firstFillTimestampMs := order.firstFillAt.unixMilli
    lastFillTimestampMs := order.lastFillAt.unixMilli
    expectedRealizedMarkout := order.expectedRealizedMarkout
    regimeKind := order.regimeKind
    regimeVolatility := order.regimeVolatility
    regimeSpread := order.regimeSpread
    regimeTrendStrength := order.regimeTrendStrength }

/-- The local order id an update refers to, `""` when it refers to none. -/
def resolveReference (update : AsyncExchangeUpdate) : Gw OrderID := do
  let orderID := update.orderID
  let orderID ←
    if orderID = "" ∧ update.idempotencyKey ≠ "" then do
      let existing ← call (.orderByIdempotency update.idempotencyKey)
      pure ((existing.map (·.id)).getD orderID)
    else pure orderID
  if orderID = "" ∧ update.exchangeOrderID ≠ "" then do
    let existing ← call (.orderByExchangeID update.exchangeOrderID)
    pure ((existing.map (·.id)).getD orderID)
  else pure orderID

/-- The lookup `applyStep` ends with when no case of its switch returned. -/
def currentOrder (orderID : OrderID) : Gw (Order × Option Err) := do
  let found ← call (.order orderID)
  match found with
  | some order => pure (order, none)
  | none => pure (default, some Store.orderNotFound)

/-- The announcement of an order change that carries no fill. -/
def emitOrder (updated : Order) : Gw Unit := do
  call (.emit (.executionUpdate (executionUpdate updated none none none)))
  call (.emit (.orderUpdate updated))

/-- The `ACK` and `CANCELED` cases: announce the amended order, or fall
through to the final lookup when there is none. -/
def announceOrLookup (orderID : OrderID) (result : Order × Option Err) : Gw (Order × Option Err) :=
  match result with
  | (updated, none) => do
    emitOrder updated
    pure (updated, none)
  | (_, some _) => currentOrder orderID

def applyFill (orderID : OrderID) (ledger : FillLedgerEntry) (execution : ExecutionEvent) :
    Gw (Order × Option Err) := do
  let (updated, position, applyErr) ← call (.applyExternalFill orderID ledger execution)
  match applyErr with
  | some err => pure (default, some err)
  | none =>
    call (.observeExecutionEvent execution)
    call (.emit (.fillLedgerEntry ledger))
    call (.emit (.executionEvent execution))
    call (.emit (.executionUpdate (executionUpdate updated (some ledger) (some execution)
      (some position))))
    call (.emit (.positionUpdate position))
    call (.emit (.orderUpdate updated))
    pure (updated, none)

def applyReject (orderID : OrderID) (reason : String) : Gw (Order × Option Err) := do
  let found ← call (.order orderID)
  match found with
  | none => pure (default, some Store.orderNotFound)
  | some order =>
    let order := { order with status := .rejected, rejectReason := reason }
    call (.updateOrder order)
    call (.emit (.orderRejected order))
    pure (order, none)

/-- The switch over the status of a step. -/
def applyStatus (orderID : OrderID) (step : ExchangeStep) : Gw (Order × Option Err) :=
  match step.status with
  | .ack => do
    let result ← call (.markOrderAck orderID step.occurredAt)
    announceOrLookup orderID result
  | .partially | .filled =>
    match step.ledger, step.execution with
    | some ledger, some execution => applyFill orderID ledger execution
    | _, _ => pure (default, none)
  | .canceled => do
    let result ← call (.cancelOrder orderID step.cancelReason step.occurredAt)
    announceOrLookup orderID result
  | .rejected => applyReject orderID step.cancelReason
  | .unset | .new | .sent => currentOrder orderID

def applyStep (update : AsyncExchangeUpdate) : Gw (Order × Option Err) := do
  let orderID ← resolveReference update
  if orderID = "" then pure (default, some (.text "missing order reference"))
  else if update.exchangeOrderID ≠ "" then do
    let (_, bindErr) ← call (.bindExchangeOrderID orderID update.exchangeOrderID)
    match bindErr with
    | some err => pure (default, some err)
    | none => applyStatus orderID update.step
  else applyStatus orderID update.step

/-! ## Submit -/

/-- The order `Submit` answers a risk refusal with; it is never stored. -/
def refusedOrder (id : OrderID) (req : ExecutionRequest) (reason : String) : Order :=
  { id := id
    idempotencyKey := req.idempotencyKey
    symbol := req.symbol
    side := req.side
    size := req.size
    price := req.price
    status := .rejected
    rejectReason := reason }

/-- The order `Submit` reserves. -/
def requestOrder (id : OrderID) (requestAt sendAt : Time) (req : ExecutionRequest) : Order :=
  { id := id
    idempotencyKey := req.idempotencyKey
    symbol := req.symbol
    side := req.side
    size := req.size
    price := req.price
    requestAt := requestAt
    sendAt := sendAt
    expectedRealizedMarkout := req.expectedRealizedMarkout
    regimeKind := req.regimeKind
    regimeVolatility := req.regimeVolatility
    regimeSpread := req.regimeSpread
    regimeTrendStrength := req.regimeTrendStrength }

/-- The request as the risk decision scales it. -/
def scaledRequest (decision : RiskDecision) (req : ExecutionRequest) : ExecutionRequest :=
  if 0 < decision.sizeMultiplier ∧ decision.sizeMultiplier < 1 ∧ req.reduceOnly = false then
    { req with size := req.size * decision.sizeMultiplier }
  else req

/-- Self-trade prevention: cancel every listed order of the other side. -/
def cancelSelfTrades (async : Bool) (req : ExecutionRequest) : List Order → Gw Unit
  | [] => pure ()
  | opened :: rest => do
    if opened.side ≠ req.side ∧ opened.status.isTerminal = false then
      if async = true ∧ opened.exchangeOrderID ≠ "" then
        let _ ← call (.cancelRemote opened.exchangeOrderID)
      let canceledAt ← call .now
      let _ ← call (.cancelOrder opened.id "self_trade_prevention" canceledAt)
    cancelSelfTrades async req rest

/-- Apply the exchange's steps in order, stopping at the first error. -/
def applySteps (reserved : Order) : List ExchangeStep → Order → Gw (Order × Option Err)
  | [], finalOrder => pure (finalOrder, none)
  | step :: rest, finalOrder => do
    let (updated, stepErr) ← applyStep
      { orderID := reserved.id
        exchangeOrderID := step.exchangeOrderID
        idempotencyKey := reserved.idempotencyKey
        step := step }
    match stepErr with
    | some err => pure (finalOrder, some err)
    | none => applySteps reserved rest updated

/-- The order as `MarkOrderSent` returned it, or as reserved if it failed. -/
def markSent (reserved : Order) : Gw Order := do
  let sentAt ← call .now
  let (sentOrder, err) ← call (.markOrderSent reserved.id sentAt)
  match err with
  | none =>
    call (.emit (.orderUpdate sentOrder))
    pure sentOrder
  | some _ => pure reserved

/-- The part of `Submit` after the reservation. -/
def sendReserved (started : Time) (reserved : Order) : Gw (Order × Option Err) := do
  let reserved ← markSent reserved
  let reply ← call (.sendOrder reserved)
  let finished ← call .now
  match reply with
  | .error message =>
    call (.observeExecution (finished - started) true)
    let reserved := { reserved with status := .rejected, rejectReason := message }
    call (.updateOrder reserved)
    call (.emit (.orderRejected reserved))
    pure (reserved, some (.text message))
  | .ok steps =>
    call (.observeExecution (finished - started) false)
    applySteps reserved steps reserved

/-- The part of `Submit` after the risk check allowed the (scaled) request. -/
def reserveAndSend (async : Bool) (started requestAt : Time) (req : ExecutionRequest) :
    Gw (Order × Option Err) := do
  let opened ← call (.openOrdersBySymbol req.symbol)
  cancelSelfTrades async req opened
  let id ← call .newID
  let sendAt ← call .now
  let (reserved, duplicate, err) ← call (.reserveOrder (requestOrder id requestAt sendAt req))
  if duplicate = true then pure (reserved, none)
  else
    match err with
    | some (.riskRejected _) | some (.text _) => pure (default, err)
    | some .duplicate | none => sendReserved started reserved

def submit (async : Bool) (req : ExecutionRequest) : Gw (Order × Option Err) := do
  let started ← call .now
  let requestAt := if req.requestTime.isZero then started else req.requestTime
  if req.idempotencyKey = "" then pure (default, some (.text "missing idempotency_key"))
  else
    let decision ← call (.evaluate req)
    if decision.allowed = true then
      reserveAndSend async started requestAt (scaledRequest decision req)
    else
      let id ← call .newID
      let order := refusedOrder id req decision.reason
      call (.emit (.orderRejected order))
      pure (order, some (.riskRejected decision.reason))

/-! ## The other operations -/

def applyAsyncUpdate (update : AsyncExchangeUpdate) : Gw (Order × Option Err) := applyStep update

def announceUpdated (updated : Order) : Gw (Order × Option Err) := do
  call (.emit (.executionUpdate
    { order := updated
      ledger := none
      execution := none
      position := none
      requestTimestampMs := updated.requestAt.unixMilli
      sendTimestampMs := updated.sendAt.unixMilli
      ackTimestampMs := updated.ackAt.unixMilli
      firstFillTimestampMs := updated.firstFillAt.unixMilli
      lastFillTimestampMs := updated.lastFillAt.unixMilli }))
  call (.emit (.orderUpdate updated))
  pure (updated, none)

/-- The local half of `Cancel`, after the exchange agreed. -/
def cancelLocal (orderID : OrderID) (reason : String) : Gw (Order × Option Err) := do
  let canceledAt ← call .now
  let (updated, err) ← call (.cancelOrder orderID reason canceledAt)
  match err with
  | some err => pure (default, some err)
  | none => announceUpdated updated

def cancel (async : Bool) (orderID : OrderID) (reason : String) : Gw (Order × Option Err) := do
  let done ← call .ctxErr
  match done with
  | some message => pure (default, some (.text message))
  | none =>
    let found ← call (.order orderID)
    match found with
    | none => pure (default, some Store.orderNotFound)
    | some order =>
      if order.status.isTerminal = true then pure (order, none)
      else if async = true ∧ order.exchangeOrderID ≠ "" then do
        let remote ← call (.cancelRemote order.exchangeOrderID)
        match remote with
        | some message => pure (default, some (.text message))
        | none => cancelLocal orderID reason
      else cancelLocal orderID reason

def replace (async : Bool) (orderID : OrderID) (newPrice : ℚ) : Gw (Order × Option Err) := do
  let done ← call .ctxErr
  match done with
  | some message => pure (default, some (.text message))
  | none =>
    let (updated, err) ← call (.replaceOrderPrice orderID (some newPrice))
    match err with
    | some err => pure (default, some err)
    | none =>
      if async = true ∧ updated.exchangeOrderID ≠ "" then do
        let remote ← call (.replaceRemote updated.exchangeOrderID newPrice)
        match remote with
        | some message => pure (default, some (.text message))
        | none => announceUpdated updated
      else announceUpdated updated

def switchStrategy (async : Bool) (orderID : OrderID) (strategy : String) (price : Option ℚ)
    (reason : String) : Gw (Order × Option Err) := do
  let done ← call .ctxErr
  match done with
  | some message => pure (default, some (.text message))
  | none =>
    if strategy = "AGGRESSIVE" ∨ strategy = "DEFENSIVE" then
      match price with
      | none => cancel async orderID reason
      | some price => replace async orderID price
    else if strategy = "PASSIVE" then
      match price with
      | none => currentOrder orderID
      | some price => replace async orderID price
    else currentOrder orderID

/-- The handler `main` gives to `Start`: apply the update, then refresh the
account if the exchange answers. -/
def streamHandler (update : AsyncExchangeUpdate) : Gw (Order × Option Err) := do
  let result ← applyAsyncUpdate update
  let account ← call .getAccountState
  match account with
  | .ok account =>
    call (.setAccountState account)
    pure result
  | .error _ => pure result

end RealTimeTrading.ControlPlane
