/-
RealTimeTrading.Rtts.Ingestion — `ingestion.rs`, from what the exchange's
feed says to market updates, and the fan-out of `pipeline.rs`.

A message is what has been parsed of it; one that cannot be parsed is
skipped and is none here. What the mock feed draws at random is a message
too. The best prices `binance_feed` keeps are never read, and are left out.
-/
import RealTimeTrading.Rtts.Types

namespace RealTimeTrading.Rtts.Ingestion

/-- `BinancePayload`; the book's levels are prices with quantities. -/
inductive BinancePayload where
  | aggTrade (eventTime : Nat) (price quantity : ℚ) (buyerIsMaker : Bool)
  | depth (eventTime : Option Nat) (bids asks : List (ℚ × ℚ))

/-- A message of the exchange, or one tick of the mock feed. -/
inductive FeedMessage where
  | binance (payload : BinancePayload)
  | mock (delta : BookDelta) (trade : TradeEvent)

def bookLevels (levels : List (ℚ × ℚ)) : List BookLevel :=
  levels.map fun level => { price := level.1, quantity := level.2 }

/-- `now` stands in for the time of a book that has none. -/
def BinancePayload.update (now : Nat) : BinancePayload → MarketUpdate
  | .aggTrade eventTime price quantity buyerIsMaker =>
    .trade
      { timestamp := eventTime
        price := price
        volume := quantity
        side := if buyerIsMaker then .sell else .buy }
  | .depth eventTime bids asks =>
    .bookDelta
      { timestamp := eventTime.getD now, bids := bookLevels bids, asks := bookLevels asks }

/-- What is sent of a message, in order. -/
def updates (now : Nat) : FeedMessage → List MarketUpdate
  | .binance payload => [payload.update now]
  | .mock delta trade => [.bookDelta delta, .trade trade]

end RealTimeTrading.Rtts.Ingestion
