/-
RealTimeTrading.ControlPlane.BingX.Reconcile — boot reconciliation,
`reconciliation.go`.

`Reconcile` runs before anything else touches the store, so it is a
function of the store and the replies it is given. The clock is read once
for each row it handles. `store.Orders()` lists a Go map: `listed` is the
listing, in any order. A reply to `GetOpenOrders` or `GetFills` depends on
the symbol parameter, which is upper case.
-/
import RealTimeTrading.ControlPlane.BingX.Client

namespace RealTimeTrading.ControlPlane.BingX

open RealTimeTrading.ControlPlane

/-! ## Replies -/

structure Replies where
  balance : Except String BalanceRaw
  /-- The positions `GetAccountState` asks for. -/
  accountPositions : Except String (List PositionRaw)
  positions : Except String (List PositionRaw)
  openOrders : String → Except String (List OrderReply)
  fills : String → Except String (List FillRaw)

/-! ## State of the routine -/

structure Boot where
  store : Store
  report : ReconciliationReport
  reads : Nat := 0

/-- Handle the rows of a reply in order, each at its own reading of the clock. -/
def eachRow {A : Type} (clock : Nat → Time) (f : Time → A → Boot → Boot) (rows : List A)
    (b : Boot) : Boot :=
  rows.foldl (fun b row => f (clock b.reads) row { b with reads := b.reads + 1 }) b

/-! ## One row -/

def reconcilePosition (position : Position) (b : Boot) : Boot :=
  let held := b.store.position position.symbol
  let drifted := held.symbol ≠ "" ∧ (held.size ≠ position.size ∨ held.avgPrice ≠ position.avgPrice)
  { b with
    report :=
      if drifted then
        { b.report with
          positionDrift := b.report.positionDrift + 1
          details := b.report.details ++ ["reconciled position drift on " ++ position.symbol] }
      else b.report
    store := b.store.setPosition position }

def reconcileOrder (now : Time) (order : Order) (b : Boot) : Boot :=
  { b with
    report :=
      match b.store.orderByIdempotency order.idempotencyKey with
      | none =>
        { b.report with
          orphanOrders := b.report.orphanOrders + 1
          details := b.report.details ++ ["reconciled orphan order " ++ order.exchangeOrderID] }
      | some _ => b.report
    store := b.store.upsertOrder now order }

/-- The order made up for a fill of an order the store does not know. -/
def adoptedOrder (now : Time) (fill : FillLedgerEntry) : Order :=
  { id := fallbackID now fill.orderID fill.orderID
    exchangeOrderID := fill.orderID
    idempotencyKey := fill.orderID
    symbol := fill.symbol
    side := fill.side
    size := fill.quantity
    status := .partially
    createdAt := fill.eventTime
    updatedAt := fill.eventTime
    requestAt := fill.eventTime
    sendAt := fill.eventTime }

def reconciledEvent (fill : FillLedgerEntry) : ExecutionEvent :=
  { orderID := fill.orderID
    fillID := fill.fillID
    symbol := fill.symbol
    status := .partially
    filledQuantity := fill.quantity
    fillPrice := fill.price
    liquidityFlag := fill.liquidityFlag
    feeAmount := fill.feeAmount
    fundingAmount := fill.fundingAmount
    competitionFlag := "RECONCILED"
    partialFillRatio := 1 }

/-- The order a fill is imported for, with the store that then knows it. -/
def adopt (now : Time) (fill : FillLedgerEntry) (s : Store) : Order × Store :=
  match s.orderByExchangeID fill.orderID with
  | some order => (order, s)
  | none => (adoptedOrder now fill, s.upsertOrder now (adoptedOrder now fill))

/-- `recon.LedgerQtyByOrder[fill.OrderID] == 0`. -/
def isMissing (s : Store) (orderID : String) : Prop :=
  (s.reconciliation.ledgerQtyByOrder.lookup orderID).getD 0 = 0

instance (s : Store) (orderID : String) : Decidable (isMissing s orderID) := by
  unfold isMissing; infer_instance

def importFill (now : Time) (fill : FillLedgerEntry) (b : Boot) : Boot :=
  if isMissing b.store fill.orderID then
    let (order, store) := adopt now fill b.store
    { b with
      report := { b.report with
        missingFills := b.report.missingFills + 1
        details := b.report.details ++ ["reconciled missing fill " ++ fill.fillID] }
      store := (store.applyExternalFill now order.id fill (reconciledEvent fill)).2 }
  else b

/-! ## The routine -/

/-- The non-empty strings not seen before, in order. -/
def distinctSymbols : List Symbol → List Symbol → List Symbol
  | _, [] => []
  | seen, symbol :: rest =>
    if symbol = "" ∨ symbol ∈ seen then distinctSymbols seen rest
    else symbol :: distinctSymbols (symbol :: seen) rest

def activeSymbols (positions : List Position) (orders : List Order) : List Symbol :=
  distinctSymbols [] (positions.map (·.symbol) ++ orders.map (·.symbol))

/-- The loop over the active symbols; the first error ends it. -/
def reconcileSymbols (std : Std) (clock : Nat → Time) (replies : Replies) :
    List Symbol → Boot → Boot × Option String
  | [], b => (b, none)
  | symbol :: rest, b =>
    match replies.openOrders (std.toUpper symbol) with
    | .error message => (b, some message)
    | .ok orders =>
      let b := eachRow clock (fun now row => reconcileOrder now (mapOrder std now row)) orders b
      match replies.fills (std.toUpper symbol) with
      | .error message => (b, some message)
      | .ok fills =>
        reconcileSymbols std clock replies rest
          (eachRow clock (fun now row => importFill now (mapFill std now row)) fills b)

/-- `GetAccountState`. -/
def getAccountState (std : Std) (now : Time) (replies : Replies) : Except String AccountState :=
  match replies.balance with
  | .error message => .error message
  | .ok balance =>
    match replies.accountPositions with
    | .error message => .error message
    | .ok positions => .ok (accountState std now balance (positions.map (mapPosition std now)))

/-- After the loop over the symbols: a full match is noted, which it was
already, and the report is stored. -/
def finish (b : Boot) : Boot :=
  let report :=
    if b.store.reconciliation.isMatched ∧ b.report.positionDrift = 0 then
      { b.report with matched := true }
    else b.report
  { b with report := report, store := b.store.appendReconciliationReport report }

def reconcile (std : Std) (clock : Nat → Time) (replies : Replies) (listed : List Order)
    (s : Store) : Boot × Option String :=
  let b : Boot :=
    { store := s
      report :=
        { matched := true
          missingFills := 0
          orphanOrders := 0
          positionDrift := 0
          generatedAt := clock 0
          details := [] }
      reads := 1 }
  match getAccountState std (clock 0) replies with
  | .error message => (b, some message)
  | .ok account =>
    let b := { b with store := b.store.setAccountState account }
    match replies.positions with
    | .error message => (b, some message)
    | .ok positions =>
      let mapped := positions.map (mapPosition std (clock 0))
      let b := eachRow clock (fun _ => reconcilePosition) mapped b
      match reconcileSymbols std clock replies (activeSymbols mapped listed) b with
      | (b, some message) => (b, some message)
      | (b, none) => (finish b, none)

end RealTimeTrading.ControlPlane.BingX
