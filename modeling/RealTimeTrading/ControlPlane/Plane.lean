/-
RealTimeTrading.ControlPlane.Plane — the running control plane: the
meaning of every atomic call, the jobs that may start, and the
interleavings of their programs.

A store method, a risk method and a remote call are one atomic step
each. What the code does not determine is left open: the clock may read
anything, the exchange may reply in any way its `Exchange` admits, a Go
map is listed in any order, and a full update channel drops what `emit`
offers. `newID` yields an id nobody has seen, as 128 random bits do.
-/
import RealTimeTrading.ControlPlane.Gateway

namespace RealTimeTrading.ControlPlane

open RealTimeTrading.Concurrency

/-! ## The environment -/

/-- An exchange client: whether it is an `AsyncExchangeClient`, and what its
`SendOrder` may return for an order. It always returns. -/
structure Exchange where
  async : Bool
  replies : Order → Except String (List ExchangeStep) → Prop
  answers : ∀ order, ∃ steps, replies order steps

/-- Everything the control plane is run against. -/
structure Env where
  exp : ℚ → ℚ
  exchange : Exchange

/-- The shared state: the store, the risk service, the ids handed out so far
and what has been put on the update channel. -/
structure Plane where
  store : Store := .newStore
  risk : Service
  issued : List OrderID := []
  updates : List Update := []

/-! ## The meaning of the calls -/

/-- The call changed the store by `f`, which also gave its result. -/
def Plane.Stores {ρ : Type} (f : Time → Store → ρ × Store) (p : Plane) (r : ρ) (p' : Plane) :
    Prop :=
  ∃ now, r = (f now p.store).1 ∧ p' = { p with store := (f now p.store).2 }

/-- The meaning of each call: the state before, the result, the state after. -/
def sem (env : Env) : (o : Op) → Plane → Res o → Plane → Prop
  | .now, p, _, p' => p' = p
  | .ctxErr, p, _, p' => p' = p
  | .newID, p, id, p' =>
    (id ≠ "" ∧ id ∉ p.issued ∧ id ∉ p.store.orders ∧ id ∉ p.store.exchangeIDs) ∧
      p' = { p with issued := id :: p.issued }
  | .evaluate req, p, decision, p' => ∃ now now',
    decision = (p.risk.evaluate env.exp now now' p.store req).1 ∧
      p' = { p with risk := (p.risk.evaluate env.exp now now' p.store req).2 }
  | .observeExecution latency rejected, p, _, p' =>
    p' = { p with risk := p.risk.observeExecution env.exp p.store latency rejected }
  | .observeExecutionEvent event, p, _, p' =>
    p' = { p with risk := p.risk.observeExecutionEvent p.store event }
  | .observeMarket event, p, _, p' => ∃ now,
    p' = { p with risk := p.risk.observeMarket now p.store event }
  | .setKillSwitch enabled, p, _, p' => p' = { p with risk := p.risk.setKillSwitch enabled }
  | .openOrdersBySymbol symbol, p, orders, p' =>
    orders.Perm (p.store.openOrdersBySymbol symbol) ∧ p' = p
  | .reserveOrder order, p, r, p' => p.Stores (fun now => Store.reserveOrder now order) r p'
  | .updateOrder order, p, r, p' =>
    p.Stores (fun now s => ((), Store.updateOrder now order s)) r p'
  | .markOrderSent id sentAt, p, r, p' =>
    p.Stores (fun now => Store.markOrderSent now id sentAt) r p'
  | .markOrderAck id ackAt, p, r, p' => p.Stores (fun now => Store.markOrderAck now id ackAt) r p'
  | .cancelOrder id reason at', p, r, p' =>
    p.Stores (fun now => Store.cancelOrder now id reason at') r p'
  | .replaceOrderPrice id price, p, r, p' =>
    p.Stores (fun now => Store.replaceOrderPrice now id price) r p'
  | .applyExternalFill id fill event, p, r, p' =>
    p.Stores (fun now => Store.applyExternalFill now id fill event) r p'
  | .bindExchangeOrderID id exchangeOrderID, p, r, p' =>
    p.Stores (fun now => Store.bindExchangeOrderID now id exchangeOrderID) r p'
  | .setAccountState account, p, r, p' =>
    p.Stores (fun _ s => ((), s.setAccountState account)) r p'
  | .order id, p, found, p' => found = p.store.order id ∧ p' = p
  | .orderByIdempotency key, p, found, p' => found = p.store.orderByIdempotency key ∧ p' = p
  | .orderByExchangeID id, p, found, p' => found = p.store.orderByExchangeID id ∧ p' = p
  | .sendOrder order, p, reply, p' => env.exchange.replies order reply ∧ p' = p
  | .cancelRemote _, p, _, p' => p' = p
  | .replaceRemote _ _, p, _, p' => p' = p
  | .getAccountState, p, _, p' => p' = p
  | .emit update, p, _, p' => p' = p ∨ p' = { p with updates := p.updates ++ [update] }

/-! ## Jobs -/

/-- Everything that starts a program: the HTTP handlers, the exchange stream
and the market-data pipeline. -/
inductive Job where
  | submit (req : ExecutionRequest)
  | cancel (orderID : OrderID) (reason : String)
  | replace (orderID : OrderID) (newPrice : ℚ)
  | switchStrategy (orderID : OrderID) (strategy : String) (price : Option ℚ) (reason : String)
  | applyAsyncUpdate (update : AsyncExchangeUpdate)
  | streamHandler (update : AsyncExchangeUpdate)
  | executionEvent (event : ExecutionEvent)
  | marketEvent (event : MarketEvent)
  | killSwitch (enabled : Bool)

/-- A job that only informs the risk service. -/
def notify (o : Op) : Gw (Order × Option Err) := do
  let _ ← call o
  pure (default, none)

def code (env : Env) : Job → Gw (Order × Option Err)
  | .submit req => submit env.exchange.async req
  | .cancel orderID reason => cancel env.exchange.async orderID reason
  | .replace orderID newPrice => replace env.exchange.async orderID newPrice
  | .switchStrategy orderID strategy price reason =>
    switchStrategy env.exchange.async orderID strategy price reason
  | .applyAsyncUpdate update => applyAsyncUpdate update
  | .streamHandler update => streamHandler update
  | .executionEvent event => notify (.observeExecutionEvent event)
  | .marketEvent event => notify (.observeMarket event)
  | .killSwitch enabled => notify (.setKillSwitch enabled)

def plane (env : Env) : System Op Res Plane Job (Order × Option Err) := ⟨sem env, code env⟩

abbrev PlaneEntry : Type := Entry Op Res Plane

abbrev PlaneConfig : Type := Config Op Res Plane Job (Order × Option Err)

/-- The interleavings of a control plane started in state `p₀`. -/
abbrev PlaneRun (env : Env) (p₀ : Plane) : List PlaneEntry → PlaneConfig → Prop :=
  Run (plane env) p₀

end RealTimeTrading.ControlPlane
