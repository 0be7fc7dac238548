/-
RealTimeTrading.ControlPlane.Schedule — an executable scheduler.

`perform` runs one call with given readings of everything the code does
not determine, and `schedule` a list of commands: start a job, or let a
thread run. A command that is not possible is skipped. `schedule_run`
says that what it computes is a run, so a concrete interleaving is a list
of commands. The last section is a small desk to run them against: an
empty store in front of the exchange client.
-/
import RealTimeTrading.ControlPlane.BingX.Client
import RealTimeTrading.ControlPlane.StoreTheorems

namespace RealTimeTrading.ControlPlane

open RealTimeTrading.Concurrency

/-- Readings of the world for one call. -/
structure World where
  now : Time := 0
  id : OrderID := ""
  reply : Except String (List ExchangeStep) := .error ""

inductive Command where
  | start (j : Job)
  /-- Let thread `tid` perform `n` calls. -/
  | run (tid n : Nat) (w : World)

/-- One call with these readings. The context is not cancelled, remote calls
succeed, the account is not refreshed, and `emit` finds room. -/
def perform (exp : ℚ → ℚ) (w : World) (p : Plane) : (o : Op) → Option (Res o × Plane)
  | .now => some (w.now, p)
  | .ctxErr => some (none, p)
  | .newID =>
    if w.id ≠ "" ∧ w.id ∉ p.issued ∧ w.id ∉ p.store.orders ∧ w.id ∉ p.store.exchangeIDs then
      some (w.id, { p with issued := w.id :: p.issued })
    else none
  | .evaluate req =>
    let r := p.risk.evaluate exp w.now w.now p.store req
    some (r.1, { p with risk := r.2 })
  | .observeExecution latency rejected =>
    some ((), { p with risk := p.risk.observeExecution exp p.store latency rejected })
  | .observeExecutionEvent event =>
    some ((), { p with risk := p.risk.observeExecutionEvent p.store event })
  | .observeMarket event =>
    some ((), { p with risk := p.risk.observeMarket w.now p.store event })
  | .setKillSwitch enabled => some ((), { p with risk := p.risk.setKillSwitch enabled })
  | .openOrdersBySymbol symbol => some (p.store.openOrdersBySymbol symbol, p)
  | .reserveOrder order =>
    let r := p.store.reserveOrder w.now order
    some (r.1, { p with store := r.2 })
  | .updateOrder order => some ((), { p with store := p.store.updateOrder w.now order })
  | .markOrderSent id sentAt =>
    let r := p.store.markOrderSent w.now id sentAt
    some (r.1, { p with store := r.2 })
  | .markOrderAck id ackAt =>
    let r := p.store.markOrderAck w.now id ackAt
    some (r.1, { p with store := r.2 })
  | .cancelOrder id reason canceledAt =>
    let r := p.store.cancelOrder w.now id reason canceledAt
    some (r.1, { p with store := r.2 })
  | .replaceOrderPrice id price =>
    let r := p.store.replaceOrderPrice w.now id price
    some (r.1, { p with store := r.2 })
  | .applyExternalFill id fill event =>
    let r := p.store.applyExternalFill w.now id fill event
    some (r.1, { p with store := r.2 })
  | .bindExchangeOrderID id exchangeOrderID =>
    let r := p.store.bindExchangeOrderID w.now id exchangeOrderID
    some (r.1, { p with store := r.2 })
  | .setAccountState account => some ((), { p with store := p.store.setAccountState account })
  | .order id => some (p.store.order id, p)
  | .orderByIdempotency key => some (p.store.orderByIdempotency key, p)
  | .orderByExchangeID id => some (p.store.orderByExchangeID id, p)
  | .sendOrder _ => some (w.reply, p)
  | .cancelRemote _ => some (none, p)
  | .replaceRemote _ _ => some (none, p)
  | .getAccountState => some (.error "", p)
  | .emit update => some ((), { p with updates := p.updates ++ [update] })

theorem perform_sem_of {env : Env} {w : World} {p p' : Plane} {o : Op} {r : Res o}
    (hreply : ∀ order, o = .sendOrder order → env.exchange.replies order w.reply)
    (h : perform env.exp w p o = some (r, p')) : sem env o p r p' := by
  cases o with
  | newID =>
    simp only [perform] at h
    split at h
    · cases h; exact ⟨‹_›, rfl⟩
    · cases h
  | now | ctxErr | observeExecution | observeExecutionEvent | setKillSwitch | cancelRemote |
      replaceRemote | getAccountState => cases h; rfl
  | evaluate => cases h; exact ⟨w.now, w.now, rfl, rfl⟩
  | observeMarket => cases h; exact ⟨w.now, rfl⟩
  | openOrdersBySymbol => cases h; exact ⟨.refl _, rfl⟩
  | order | orderByIdempotency | orderByExchangeID => cases h; exact ⟨rfl, rfl⟩
  | sendOrder order => cases h; exact ⟨hreply order rfl, rfl⟩
  | emit => cases h; exact Or.inr rfl
  | _ => cases h; exact ⟨w.now, rfl, rfl⟩

theorem perform_sem {env : Env} {w : World} (hreply : ∀ order, env.exchange.replies order w.reply)
    {p p' : Plane} {o : Op} {r : Res o} (h : perform env.exp w p o = some (r, p')) :
    sem env o p r p' := perform_sem_of (fun order _ => hreply order) h

/-- A trace with the configuration it leads to. -/
abbrev Progress : Type := List PlaneEntry × PlaneConfig

def advance (env : Env) (tid : Nat) (w : World) (x : Progress) : Progress :=
  match x.2.threads[tid]? with
  | some ⟨j, .call o k⟩ =>
    match perform env.exp w x.2.shared o with
    | some (r, p') => (x.1 ++ [⟨tid, x.2.shared, ⟨o, r⟩, p'⟩], ⟨p', x.2.threads.set tid ⟨j, k r⟩⟩)
    | none => x
  | _ => x

def obey (env : Env) (x : Progress) : Command → Progress
  | .start j => (x.1, ⟨x.2.shared, x.2.threads ++ [⟨j, code env j⟩]⟩)
  | .run tid n w => (advance env tid w)^[n] x

def schedule (env : Env) (p₀ : Plane) (commands : List Command) : Progress :=
  commands.foldl (obey env) ([], ⟨p₀, []⟩)

/-- The exchange may give the reply the command brings. -/
def Command.Admissible (env : Env) : Command → Prop
  | .start _ => True
  | .run _ _ w => ∀ order, env.exchange.replies order w.reply

section Soundness

variable {env : Env} {p₀ : Plane}

theorem advance_run {tid : Nat} {w : World} (hreply : ∀ order, env.exchange.replies order w.reply)
    {x : Progress} (h : PlaneRun env p₀ x.1 x.2) :
    PlaneRun env p₀ (advance env tid w x).1 (advance env tid w x).2 := by
  unfold advance
  split
  · rename_i j o k hthread
    split
    · exact Run.step h hthread (perform_sem hreply ‹_›)
    · exact h
  · exact h

theorem advances_run {tid : Nat} {w : World} (hreply : ∀ order, env.exchange.replies order w.reply)
    (n : Nat) {x : Progress} (h : PlaneRun env p₀ x.1 x.2) :
    PlaneRun env p₀ ((advance env tid w)^[n] x).1 ((advance env tid w)^[n] x).2 := by
  induction n generalizing x with
  | zero => exact h
  | succ n ih => exact ih (advance_run hreply h)

theorem obey_run {command : Command} (hadm : command.Admissible env) {x : Progress}
    (h : PlaneRun env p₀ x.1 x.2) :
    PlaneRun env p₀ (obey env x command).1 (obey env x command).2 := by
  cases command with
  | start j => exact Run.start j h
  | run tid n w => exact advances_run hadm n h

/-- What the scheduler computes is a run. -/
theorem schedule_run {commands : List Command}
    (hadm : ∀ command ∈ commands, command.Admissible env) :
    PlaneRun env p₀ (schedule env p₀ commands).1 (schedule env p₀ commands).2 := by
  suffices h : ∀ x : Progress, PlaneRun env p₀ x.1 x.2 →
      PlaneRun env p₀ (commands.foldl (obey env) x).1 (commands.foldl (obey env) x).2 from
    h _ Run.init
  induction commands with
  | nil => exact fun x h => h
  | cons command rest ih =>
    intro x h
    exact ih (fun c hc => hadm c (List.mem_cons_of_mem _ hc)) _
      (obey_run (hadm command List.mem_cons_self) h)

end Soundness

/-! ## A small desk -/

namespace Desk

/-- The exponential to third order. -/
def expCubic (x : ℚ) : ℚ := 1 + x + x ^ 2 / 2 + x ^ 3 / 6

def riskConfig : RiskConfig :=
  { maxExposureUSD := 10000
    maxPositionUSD := 10000
    maxDailyLossUSD := 1000
    maxSignalAge := 1000 * millisecond
    latencyRejectAfter := 250 * millisecond }

def env : Env := ⟨expCubic, BingX.exchange⟩

def plane : Plane := { risk := .newService riskConfig }

theorem plane_wellFormed : plane.store.WellFormed := Store.newStore_wellFormed

def clock : Time := .ofUnixMilli 1700000000000

/-- Natural numbers only. -/
def std : BingX.Std where
  parseFloat s := (s.toList.foldl (fun n c => 10 * n + (c.toNat - '0'.toNat)) 0 : Nat)
  trimFloat v := toString v.num
  toUpper := String.toUpper

def request : ExecutionRequest :=
  { idempotencyKey := "cid-1"
    symbol := "BTCUSDT"
    side := .buy
    size := 1
    price := some 100
    decision := .execute
    signalTime := clock
    expectedRealizedMarkout := 5 }

/-- The exchange acknowledges as order `ex-1`. -/
def acked (id : OrderID) : World :=
  { now := clock, id := id, reply := BingX.sendOrderSteps clock (.ok { orderID := "ex-1" }) }

/-- The exchange's answer is lost. -/
def lost : World := { now := clock, id := "id-1", reply := .error "timeout" }

theorem acked_admissible (tid n : Nat) (id : OrderID) :
    (Command.run tid n (acked id)).Admissible env :=
  fun _ => ⟨clock, .ok { orderID := "ex-1" }, rfl⟩

theorem lost_admissible (tid n : Nat) : (Command.run tid n lost).Admissible env :=
  fun _ => ⟨clock, .error "timeout", rfl⟩

/-- The request sent and acknowledged. -/
def submitted : List Command := [.start (.submit request), .run 0 16 (acked "id-1")]

theorem submitted_admissible : ∀ command ∈ submitted, command.Admissible env := by
  simp only [submitted, List.forall_mem_cons]
  exact ⟨trivial, acked_admissible _ _ _, by simp⟩

/-- The stream's report that the whole order was filled at 100. -/
def filledReport : BingX.ExecutionReport :=
  { orderID := "ex-1"
    clientOrderID := "cid-1"
    symbol := "BTCUSDT"
    side := "BUY"
    status := "FILLED"
    orderQty := "1"
    lastPrice := "100"
    lastQty := "1"
    cumulativeQty := "1"
    tradeID := "t-1" }

def filledUpdate : AsyncExchangeUpdate := BingX.mapExecutionReport std clock filledReport

end Desk

end RealTimeTrading.ControlPlane
