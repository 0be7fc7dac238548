/-
RealTimeTrading.Wire.ExecutionFeed — `execution_external.rs`: the updates
of the control plane, as the controllers hear them.

An update is decoded as a whole: where one of its latencies does not fit
the unsigned type they are read at, it is dropped. Only the part of
`handle_update` that feeds the controllers is here, not the fill events.
-/
import RealTimeTrading.ControlPlane.Gateway
import RealTimeTrading.Rtts.ExecutionController

namespace RealTimeTrading.Wire

open ControlPlane (ExecutionUpdate OrderStatus LatencyBreakdown)
open Rtts (ExecutionControllerEvent OrderLifecycleState CompetitionFlag)

/-- The status as it is spelled on the wire. -/
def statusText : OrderStatus → String
  | .unset => ""
  | .new => "NEW"
  | .sent => "SENT"
  | .ack => "ACK"
  | .partially => "PARTIAL"
  | .filled => "FILLED"
  | .canceled => "CANCELED"
  | .rejected => "REJECTED"

def parseOrderStatus : String → OrderLifecycleState
  | "SENT" => .sent
  | "ACK" => .ack
  | "PARTIAL" => .partially
  | "FILLED" => .filled
  | "CANCELED" => .canceled
  | "REJECTED" => .rejected
  | _ => .new

def parseCompetitionFlag (raw : Option String) : CompetitionFlag :=
  match raw.getD "" with
  | "RepeatedOutbid" => .repeatedOutbid
  | "CancelLatency" => .cancelLatency
  | "PartialFillToxicity" => .partialFillToxicity
  | "SlowFill" => .slowFill
  | _ => .none

def nonNegativeMs (value : ℤ) : Nat := (max value 0).toNat

/-- Every latency can be read as a `u64`. -/
def LatencyBreakdown.readable (latency : LatencyBreakdown) : Bool :=
  decide (0 ≤ latency.decisionLatency) && decide (0 ≤ latency.sendLatency) &&
    decide (0 ≤ latency.ackLatency) && decide (0 ≤ latency.firstFillLatency) &&
    decide (0 ≤ latency.fullFillLatency)

/-- What `handle_update` sends to the controllers. -/
def controllerEvent (payload : ExecutionUpdate) : Option ExecutionControllerEvent :=
  if payload.execution.all fun e => LatencyBreakdown.readable e.latencyBreakdown then
    some
      { orderId := payload.order.id
        idempotencyKey := some payload.order.idempotencyKey
        symbol := payload.order.symbol
        status := parseOrderStatus (statusText payload.order.status)
        filledQtyDelta := (payload.ledger.map (·.quantity)).getD 0
        cumulativeFilledQty := payload.order.filled
        remainingQty := max (payload.order.size - payload.order.filled) 0
        partialFillRatio := (payload.execution.map (·.partialFillRatio)).getD
          (payload.order.filled / max payload.order.size 1e-9)
        slippageBps := (payload.execution.map (·.slippageReal)).getD 0
        competitionFlag := parseCompetitionFlag (payload.execution.map (·.competitionFlag))
        latencyUs :=
          (payload.execution.map fun e => e.latencyBreakdown.fullFillLatency.toNat / 1000).getD 0
        eventTs := nonNegativeMs (max payload.lastFillTimestampMs payload.ackTimestampMs) }
  else none

/-- The event names the order of the update. -/
theorem controllerEvent_orderId {payload : ExecutionUpdate} {event : ExecutionControllerEvent}
    (h : controllerEvent payload = some event) : event.orderId = payload.order.id := by
  unfold controllerEvent at h
  split at h
  · obtain rfl := Option.some.inj h
    rfl
  · cases h

end RealTimeTrading.Wire
