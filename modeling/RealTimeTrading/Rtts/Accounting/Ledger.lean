/-
RealTimeTrading.Rtts.Accounting.Ledger — the lot ledger of
`accounting/ledger.rs`.

The matching loop runs on fuel: `matchStep` is one pass of its body, or
`none` where the loop ends, and a pass either uses the fill up or removes
a lot, so one pass more than there are lots is enough.
-/
import RealTimeTrading.Rtts.Types
import RealTimeTrading.Data.Sums

namespace RealTimeTrading.Rtts.Accounting

open RealTimeTrading.Data

/-! ## Records -/

inductive LiquidityFlag where
  | maker
  | taker
  deriving DecidableEq, Repr

inductive LotMatchingMethod where
  | fifo
  | lifo
  deriving DecidableEq, Repr

structure FillLedgerEntry where
  orderId : String
  fillId : String
  symbol : String
  side : Side
  price : ℚ
  quantity : ℚ
  liquidityFlag : LiquidityFlag := .taker
  feeAmount : ℚ := 0
  feeAsset : String := "USDT"
  rebateAmount : ℚ := 0
  fundingAmount : ℚ := 0
  eventTime : Nat := 0

structure PositionLot where
  side : Side
  entryPrice : ℚ
  quantity : ℚ
  remainingQty : ℚ
  realizedPnl : ℚ
  remainingFeeAmount : ℚ
  remainingRebateAmount : ℚ
  remainingFundingAmount : ℚ

structure RealizedPnLEntry where
  tradeId : String
  pnl : ℚ
  fees : ℚ
  funding : ℚ
  timestamp : Nat

structure AccountState where
  openPositions : HashMap String (List PositionLot) := ∅
  realizedPnlTotal : ℚ := 0
  unrealizedPnl : ℚ := 0
  feeTotal : ℚ := 0
  fundingTotal : ℚ := 0
  rebateTotal : ℚ := 0

structure PositionExposure where
  netQuantity : ℚ := 0
  avgEntryPrice : ℚ := 0
  openLots : Nat := 0
  realizedPnl : ℚ := 0
  unrealizedPnl : ℚ := 0

structure LedgerBatchUpdate where
  ledgerEntries : List FillLedgerEntry
  pnlState : AccountState

structure AccountingEngine where
  matchingMethod : LotMatchingMethod
  state : AccountState := {}
  ledgerEntries : List FillLedgerEntry := []
  realizedEntries : List RealizedPnLEntry := []
  markPrices : HashMap String ℚ := ∅

/-! ## Prices and quantities -/

/-- The quantity under which a lot or a rest of a fill is dropped. -/
def dust : ℚ := 1e-12

def realizedGross (entrySide : Side) (entryPrice exitPrice quantity : ℚ) : ℚ :=
  match entrySide with
  | .buy => (exitPrice - entryPrice) * quantity
  | .sell => (entryPrice - exitPrice) * quantity

def unrealizedForLot (lot : PositionLot) (markPrice : ℚ) : ℚ :=
  match lot.side with
  | .buy => (markPrice - lot.entryPrice) * lot.remainingQty
  | .sell => (lot.entryPrice - markPrice) * lot.remainingQty

def signedQuantity (side : Side) (quantity : ℚ) : ℚ :=
  match side with
  | .buy => quantity
  | .sell => -quantity

def perUnit (total quantity : ℚ) : ℚ := if quantity ≤ dust then 0 else total / quantity

/-! ## Matching -/

/-- `lots.iter().position` and `lots.iter().rposition`. -/
def oppositeLotIndex (lots : List PositionLot) (side : Side) (method : LotMatchingMethod) :
    Option Nat :=
  let opposite := fun lot : PositionLot => decide (lot.side ≠ side)
  match method with
  | .fifo => lots.findIdx? opposite
  | .lifo => (lots.reverse.findIdx? opposite).map fun i => lots.length - 1 - i

/-- Both methods push to the back. -/
def pushLot (lots : List PositionLot) (lot : PositionLot) (_ : LotMatchingMethod) :
    List PositionLot := lots ++ [lot]

/-- What the body of the matching loop changes. -/
structure Matching where
  lots : List PositionLot
  qtyLeft : ℚ
  realizedPnlTotal : ℚ
  realized : List RealizedPnLEntry := []
  matchIndex : Nat := 0

/-- The share of a fill matched with one lot. -/
structure Share where
  matchedQty : ℚ
  entryFee : ℚ
  entryRebate : ℚ
  entryFunding : ℚ
  exitFee : ℚ
  exitRebate : ℚ
  exitFunding : ℚ
  gross : ℚ

def share (entry : FillLedgerEntry) (qtyLeft : ℚ) (lot : PositionLot) : Share :=
  let matchedQty := min qtyLeft lot.remainingQty
  let ratio := if 0 < lot.remainingQty then matchedQty / lot.remainingQty else 0
  { matchedQty := matchedQty
    entryFee := lot.remainingFeeAmount * ratio
    entryRebate := lot.remainingRebateAmount * ratio
    entryFunding := lot.remainingFundingAmount * ratio
    exitFee := perUnit entry.feeAmount entry.quantity * matchedQty
    exitRebate := perUnit entry.rebateAmount entry.quantity * matchedQty
    exitFunding := perUnit entry.fundingAmount entry.quantity * matchedQty
    gross := realizedGross lot.side lot.entryPrice entry.price matchedQty }

def Share.net (s : Share) : ℚ :=
  s.gross - s.entryFee - s.exitFee + s.entryRebate + s.exitRebate - s.entryFunding - s.exitFunding

def closedLot (lot : PositionLot) (s : Share) : PositionLot :=
  { lot with
    realizedPnl := lot.realizedPnl + s.net
    remainingQty := max (lot.remainingQty - s.matchedQty) 0
    remainingFeeAmount := max (lot.remainingFeeAmount - s.entryFee) 0
    remainingRebateAmount := max (lot.remainingRebateAmount - s.entryRebate) 0
    remainingFundingAmount := max (lot.remainingFundingAmount - s.entryFunding) 0 }

def realizedEntry (entry : FillLedgerEntry) (matchIndex : Nat) (s : Share) : RealizedPnLEntry :=
  { tradeId := entry.orderId ++ ":" ++ entry.fillId ++ ":" ++ toString matchIndex
    pnl := s.net
    fees := s.entryFee + s.exitFee - s.entryRebate - s.exitRebate
    funding := s.entryFunding + s.exitFunding
    timestamp := entry.eventTime }

/-- The lot at `index` after its share: gone once nothing is left of it. -/
def replaceLot (lots : List PositionLot) (index : Nat) (lot : PositionLot) : List PositionLot :=
  if lot.remainingQty ≤ dust then lots.eraseIdx index else lots.set index lot

def matchStep (method : LotMatchingMethod) (entry : FillLedgerEntry) (m : Matching) :
    Option Matching :=
  if dust < m.qtyLeft then
    match oppositeLotIndex m.lots entry.side method with
    | none => none
    | some index =>
      match m.lots[index]? with
      | none => none
      | some lot =>
        let s := share entry m.qtyLeft lot
        some
          { lots := replaceLot m.lots index (closedLot lot s)
            qtyLeft := m.qtyLeft - s.matchedQty
            realizedPnlTotal := m.realizedPnlTotal + s.net
            realized := m.realized ++ [realizedEntry entry m.matchIndex s]
            matchIndex := saturatingAddUsize m.matchIndex 1 }
  else none

def matchLoop (method : LotMatchingMethod) (entry : FillLedgerEntry) : Nat → Matching → Matching
  | 0, m => m
  | fuel + 1, m =>
    match matchStep method entry m with
    | none => m
    | some m' => matchLoop method entry fuel m'

/-- The lot opened by what no opposite lot took. -/
def openedLot (entry : FillLedgerEntry) (qtyLeft : ℚ) : PositionLot :=
  { side := entry.side
    entryPrice := entry.price
    quantity := qtyLeft
    remainingQty := qtyLeft
    realizedPnl := 0
    remainingFeeAmount := perUnit entry.feeAmount entry.quantity * qtyLeft
    remainingRebateAmount := perUnit entry.rebateAmount entry.quantity * qtyLeft
    remainingFundingAmount := perUnit entry.fundingAmount entry.quantity * qtyLeft }

namespace AccountingEngine

def new (method : LotMatchingMethod) : AccountingEngine := { matchingMethod := method }

def lotsOf (engine : AccountingEngine) (symbol : String) : List PositionLot :=
  (engine.state.openPositions.lookup symbol).getD []

/-- The matching loop on the lots of the fill's symbol. -/
def matched (engine : AccountingEngine) (entry : FillLedgerEntry) : Matching :=
  let lots := engine.lotsOf entry.symbol
  matchLoop engine.matchingMethod entry (lots.length + 1)
    { lots := lots
      qtyLeft := max entry.quantity 0
      realizedPnlTotal := engine.state.realizedPnlTotal }

def applyFillInternal (entry : FillLedgerEntry) (engine : AccountingEngine) :
    List RealizedPnLEntry × AccountingEngine :=
  let m := engine.matched entry
  let lots :=
    if dust < m.qtyLeft then pushLot m.lots (openedLot entry m.qtyLeft) engine.matchingMethod
    else m.lots
  (m.realized,
    { engine with
      state := { engine.state with
        openPositions := engine.state.openPositions.insert entry.symbol lots
        realizedPnlTotal := m.realizedPnlTotal } })

def deriveUnrealizedWithMark (engine : AccountingEngine) (symbol : String) (markPrice : ℚ) : ℚ :=
  ((engine.lotsOf symbol).map fun lot => unrealizedForLot lot markPrice).sum

def deriveUnrealizedTotal (engine : AccountingEngine) : ℚ :=
  sumEntries engine.deriveUnrealizedWithMark engine.markPrices

def applyFill (entry : FillLedgerEntry) (engine : AccountingEngine) :
    LedgerBatchUpdate × AccountingEngine :=
  let engine := { engine with
    state := { engine.state with
      feeTotal := engine.state.feeTotal + entry.feeAmount
      fundingTotal := engine.state.fundingTotal + entry.fundingAmount
      rebateTotal := engine.state.rebateTotal + entry.rebateAmount }
    ledgerEntries := engine.ledgerEntries ++ [entry] }
  let (matchedEntries, engine) := engine.applyFillInternal entry
  let engine := { engine with realizedEntries := engine.realizedEntries ++ matchedEntries }
  let unrealized := match engine.markPrices.lookup entry.symbol with
    | some markPrice => engine.deriveUnrealizedWithMark entry.symbol markPrice
    | none => engine.deriveUnrealizedTotal
  let engine := { engine with state := { engine.state with unrealizedPnl := unrealized } }
  ({ ledgerEntries := [entry], pnlState := engine.state }, engine)

def markToMarket (symbol : String) (markPrice : ℚ) (engine : AccountingEngine) :
    ℚ × AccountingEngine :=
  let engine := { engine with markPrices := engine.markPrices.insert symbol markPrice }
  let engine := { engine with
    state := { engine.state with unrealizedPnl := engine.deriveUnrealizedTotal } }
  (engine.state.unrealizedPnl, engine)

def positionExposure (engine : AccountingEngine) (symbol : String) : PositionExposure :=
  match engine.state.openPositions.lookup symbol with
  | none => {}
  | some lots =>
    let grossQty := (lots.map (·.remainingQty)).sum
    let grossNotional := (lots.map fun lot => lot.entryPrice * lot.remainingQty).sum
    { netQuantity := (lots.map fun lot => signedQuantity lot.side lot.remainingQty).sum
      avgEntryPrice := if 0 < grossQty then grossNotional / grossQty else 0
      openLots := lots.length
      realizedPnl := engine.state.realizedPnlTotal
      unrealizedPnl := match engine.markPrices.lookup symbol with
        | some markPrice => (lots.map fun lot => unrealizedForLot lot markPrice).sum
        | none => 0 }

end AccountingEngine

end RealTimeTrading.Rtts.Accounting
