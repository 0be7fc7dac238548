/-
RealTimeTrading.Rtts.Market.OrderBook — `orderbook.rs`: the two sides of the
book by price tick, what changed on them lately, and the state reported
after every update.

A `BTreeMap` is a `Std.TreeMap`, whose `keys` and `toList` ascend. Prices
and quantities are finite in this model, so `is_finite` holds of each.
-/
import RealTimeTrading.Rtts.Scoring.EntryScoring
import Mathlib.Data.Rat.Floor

namespace RealTimeTrading.Rtts

/-- Quantities by price tick: `BTreeMap<i64, f64>`. -/
abbrev Levels : Type := Std.TreeMap ℤ ℚ

structure BookChange where
  timestamp : Nat
  side : Side
  priceTick : ℤ
  oldQty : ℚ
  newQty : ℚ

/-- `OrderBookState`, with what no later stage reads besides. -/
structure BookState extends OrderBookState where
  liquidityClusters : List ℚ := []

structure OrderBook where
  bids : Levels := ∅
  asks : Levels := ∅
  changes : List BookChange := []
  lastState : BookState := {}
  lastTradePrice : ℚ := 0
  lastTradeVolume : ℚ := 0

namespace OrderBook

def priceScale : ℚ := 100

def maxLevels : Nat := 32

/-! ## Ticks -/

/-- `f64::round`, which rounds halves away from zero. -/
def roundAway (v : ℚ) : ℤ := if 0 ≤ v then ⌊v + 1 / 2⌋ else -⌊-v + 1 / 2⌋

/-- `as i64`, which saturates. -/
def asI64 (n : ℤ) : ℤ := max (-2 ^ 63) (min n (2 ^ 63 - 1))

def toTick (price : ℚ) : ℤ := asI64 (roundAway (price * priceScale))

def fromTick (tick : ℤ) : ℚ := tick / priceScale

/-! ## Readings of a side -/

def midpoint (bestBid bestAsk : ℚ) : ℚ :=
  if 0 < bestBid ∧ 0 < bestAsk then (bestBid + bestAsk) * 0.5 else max bestBid bestAsk

def normalizedDiff (lhs rhs : ℚ) : ℚ := (lhs - rhs) / max (lhs + rhs) epsilon

def avgTopQty (levels : List (ℤ × ℚ)) : ℚ :=
  (levels.map (·.2)).sum / max (levels.length : ℚ) 1

/-- Each quantity weighs less than those nearer the touch. -/
def weighted (levels : List (ℤ × ℚ)) : ℚ :=
  (levels.mapIdx fun idx level => level.2 / ((idx : ℚ) + 1)).sum

/-- Ticks that hold much more than the average of their side, the first `room` of them. -/
def clusters (levels : List (ℤ × ℚ)) (room : Nat) : List ℚ :=
  ((levels.filter fun level => avgTopQty levels * 2.5 < level.2).take room).map
    fun level => fromTick level.1

variable (book : OrderBook)

def topBids : List (ℤ × ℚ) := book.bids.toList.reverse.take maxLevels

def topAsks : List (ℤ × ℚ) := book.asks.toList.take maxLevels

def bestBidTick : ℤ := book.bids.keys.getLast?.getD 0

def bestAskTick : ℤ := book.asks.keys.head?.getD 0

def bestBidQty : ℚ := (book.bids.toList.getLast?.map (·.2)).getD 0

def bestAskQty : ℚ := (book.asks.toList.head?.map (·.2)).getD 0

def weightedImbalance : ℚ := normalizedDiff (weighted book.topBids) (weighted book.topAsks)

/-- At most three of the bids, and asks up to six in all. -/
def liquidityClusters : List ℚ :=
  let levels := clusters book.topBids 3
  levels ++ clusters book.topAsks (6 - levels.length)

def midPrice : ℚ := midpoint book.lastState.bestBid book.lastState.bestAsk

/-! ## Readings of the changes -/

def spoofingScore (now : Nat) : ℚ :=
  let cutoff := now - 650
  let adds := book.changes.filter fun change =>
    cutoff ≤ change.timestamp ∧ change.oldQty * 2 < change.newQty
  let rapidAddRemove := adds.filter fun add => book.changes.any fun remove =>
    add.timestamp < remove.timestamp ∧ remove.timestamp - add.timestamp < 450 ∧
      remove.side = add.side ∧ remove.priceTick = add.priceTick ∧
      remove.newQty < add.newQty * 0.25
  if 0 < adds.length then (rapidAddRemove.length : ℚ) / adds.length else 0

def liquidityPull (now : Nat) : ℚ :=
  let cutoff := now - 350
  let pulled := ((book.changes.filter fun change =>
    cutoff ≤ change.timestamp ∧ change.newQty * 2.5 < change.oldQty).map
      fun change => change.oldQty - change.newQty).sum
  let current := book.lastState.bidVolume + book.lastState.askVolume
  clamp (pulled / max current 1) 0 1

def trimChanges (now windowMs : Nat) : OrderBook :=
  let cutoff := now - windowMs
  { book with changes := book.changes.dropWhile fun change => change.timestamp < cutoff }

/-! ## Updates -/

/-- A quantity of nothing takes its level out. -/
def setLevel (levels : Levels) (tick : ℤ) (quantity : ℚ) : Levels :=
  if quantity ≤ epsilon then levels.erase tick else levels.insert tick quantity

def applyLevel (timestamp : Nat) (side : Side) (book : OrderBook) (level : BookLevel) : OrderBook :=
  let tick := toTick level.price
  let change (oldQty : ℚ) : BookChange :=
    { timestamp := timestamp
      side := side
      priceTick := tick
      oldQty := oldQty
      newQty := max level.quantity 0 }
  match side with
  | .buy =>
    { book with
      bids := setLevel book.bids tick level.quantity
      changes := book.changes ++ [change (book.bids.getD tick 0)] }
  | .sell =>
    { book with
      asks := setLevel book.asks tick level.quantity
      changes := book.changes ++ [change (book.asks.getD tick 0)] }

def computeState (now : Nat) : BookState :=
  let bestBid := fromTick book.bestBidTick
  let bestAsk := fromTick book.bestAskTick
  let bidVolume := (book.topBids.map (·.2)).sum
  let askVolume := (book.topAsks.map (·.2)).sum
  { bestBid := bestBid
    bestAsk := bestAsk
    bidVolume := bidVolume
    askVolume := askVolume
    imbalance := normalizedDiff bidVolume askVolume
    liquidityClusters := book.liquidityClusters
    topPressure := normalizedDiff book.bestBidQty book.bestAskQty
    weightedImbalance := book.weightedImbalance
    spread :=
      if 0 < bestBid ∧ bestBid < bestAsk then
        (bestAsk - bestBid) / max (midpoint bestBid bestAsk) epsilon
      else 0
    spoofingScore := book.spoofingScore now
    liquidityPull := book.liquidityPull now
    absorption := book.lastState.absorption * 0.85 }

def applyDelta (delta : BookDelta) : BookState × OrderBook :=
  let book := delta.bids.foldl (applyLevel delta.timestamp .buy) book
  let book := delta.asks.foldl (applyLevel delta.timestamp .sell) book
  let book := book.trimChanges delta.timestamp 750
  let state := book.computeState delta.timestamp
  (state, { book with lastState := state })

/-- `mid_price` reads the state before the trade both times. -/
def observeTrade (trade : TradeEvent) : BookState × OrderBook :=
  let previousMid := book.midPrice
  let book := { book with lastTradePrice := trade.price, lastTradeVolume := trade.volume }
  let state := book.computeState trade.timestamp
  let midMove := |book.midPrice - previousMid|
  let topQty :=
    match trade.side with
    | .buy => book.bestAskQty
    | .sell => book.bestBidQty
  let absorption :=
    if max topQty 0.01 * 0.8 < trade.volume ∧ midMove < state.spread * 0.15 then 1
    else clamp (trade.volume / max topQty 0.01) 0 1 * 0.35
  let state := { state with absorption := absorption }
  (state, { book with lastState := state })

/-- What the feature stage does to the book with an update. -/
def update : MarketUpdate → BookState × OrderBook
  | .bookDelta delta => book.applyDelta delta
  | .trade trade => book.observeTrade trade

end OrderBook

end RealTimeTrading.Rtts
