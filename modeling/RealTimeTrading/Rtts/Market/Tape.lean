/-
RealTimeTrading.Rtts.Market.Tape — `tape.rs`: the trades of the last window
and what is read off them.

The window is trimmed when a trade comes in, to the clock of that trade.
`state` repeats what was computed then.
-/
import RealTimeTrading.Rtts.Scoring.EntryScoring

namespace RealTimeTrading.Rtts

structure Tape where
  windowMs : Nat
  trades : List TradeEvent := []
  lastState : TapeState := {}

namespace Tape

def new (windowMs : Nat) : Tape := { windowMs := windowMs }

/-- The volume traded on one side. -/
def volumeOf (side : Side) (trades : List TradeEvent) : ℚ :=
  ((trades.filter fun trade => trade.side = side).map (·.volume)).sum

/-- `compute`, on the first trade, the last one and all of them. -/
def computeOn (first last : TradeEvent) (trades : List TradeEvent) : TapeState :=
  let elapsedMs : ℚ := max (last.timestamp - first.timestamp) 1
  let buyVolume := volumeOf .buy trades
  let sellVolume := volumeOf .sell trades
  let delta := buyVolume - sellVolume
  let meanVolume := (buyVolume + sellVolume) / max trades.length 1
  let priceMove := (last.price - first.price) / max first.price epsilon
  let aggression := |delta| / max (buyVolume + sellVolume) epsilon
  { buyVolume := buyVolume
    sellVolume := sellVolume
    delta := delta
    tradeFrequency := trades.length / elapsedMs * 1000
    volumeBurst := clamp (last.volume / max meanVolume epsilon) 0 10
    exhaustion := if 0.65 < aggression ∧ |priceMove| < 0.00008 then aggression else 0
    continuation :=
      if signum priceMove = signum delta ∧ 0.25 < aggression then
        clamp (aggression * |priceMove| * 10000) 0 1
      else 0
    lastPrice := last.price }

def compute (trades : List TradeEvent) : TapeState :=
  match trades.head?, trades.getLast? with
  | some first, some last => computeOn first last trades
  | _, _ => {}

def trim (now : Nat) (tape : Tape) : Tape :=
  let cutoff := now - tape.windowMs
  { tape with trades := tape.trades.dropWhile fun trade => trade.timestamp < cutoff }

def observe (trade : TradeEvent) (tape : Tape) : TapeState × Tape :=
  let tape := tape.trim trade.timestamp
  let trades := tape.trades ++ [trade]
  let state := compute trades
  (state, { tape with trades := trades, lastState := state })

def state (tape : Tape) : TapeState := tape.lastState

end Tape

end RealTimeTrading.Rtts
