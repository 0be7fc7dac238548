/-
RealTimeTrading.ControlPlane.Risk.DailyLoss — the daily loss limit over
any sequence of calls of the service.

`Evaluate` compares the limit with `dailyPnL`, which starts at zero and
which no method writes: execution events go to the feedback engine, which
keeps an average of their profits of its own. So the loss never reaches
the gate (`Untold`), and after a loss a request is refused exactly when
one of the other checks refuses it.
-/
import RealTimeTrading.Concurrency.Emitting
import RealTimeTrading.ControlPlane.Risk.Gate
import RealTimeTrading.ControlPlane.Schedule

namespace RealTimeTrading.ControlPlane

open RealTimeTrading.Concurrency

/-! ## Calls of the service -/

/-- A call with what it reads: the clock and the store. -/
inductive ServiceCall where
  | observeMarket (now : Time) (store : Store) (event : MarketEvent)
  | observeExecution (store : Store) (latency : Duration) (rejected : Bool)
  | observeExecutionEvent (store : Store) (event : ExecutionEvent)
  | observeFailure (store : Store) (category : FailureCategory)
  | evaluate (now now' : Time) (store : Store) (req : ExecutionRequest)

namespace ServiceCall

/-- The decision a call gives, if it gives one, and the service after it. -/
def perform (exp : ℚ → ℚ) (s : Service) : ServiceCall → List RiskDecision × Service
  | .observeMarket now store event => ([], s.observeMarket now store event)
  | .observeExecution store latency rejected => ([], s.observeExecution exp store latency rejected)
  | .observeExecutionEvent store event => ([], s.observeExecutionEvent store event)
  | .observeFailure store category => ([], s.observeFailure store category)
  | .evaluate now now' store req =>
    let r := s.evaluate exp now now' store req
    ([r.1], r.2)

/-- The profit an execution event reports. -/
def realizedPnL : ServiceCall → ℚ
  | .observeExecutionEvent _ event => event.realizedPnL
  | _ => 0

end ServiceCall

namespace Service

/-- The service after these calls. -/
def after (exp : ℚ → ℚ) (s : Service) (calls : List ServiceCall) : Service :=
  (emit (ServiceCall.perform exp) s calls).2

/-- The checks of `Evaluate` other than switch, breaker and daily loss. -/
structure PassesOtherwise (exp : ℚ → ℚ) (now now' : Time) (store : Store) (req : ExecutionRequest)
    (s : Service) : Prop where
  execute : req.decision = .execute
  fresh : now - req.signalTime ≤ s.cfg.maxSignalAge
  size : 0 < req.size
  price : 0 < s.checkedPrice req
  affordable : req.reduceOnly = false → s.Affordable store req
  steady : s.intelligence.Steady
  worthwhile : req.reduceOnly = false →
    s.intelligence.Worthwhile exp now' { req with price := some (s.checkedPrice req) }

/-- Switch and breaker are off, and the service knows of no loss. -/
structure Untold (cfg : RiskConfig) (s : Service) : Prop where
  cfg : s.cfg = cfg
  notKilled : s.kill = false
  noBreaker : s.forcedBreaker = false
  dailyPnL : s.dailyPnL = 0

end Service

/-- The events observed so far, up to some moment, report a loss of the limit. -/
def LossReached (cfg : RiskConfig) (before : List ServiceCall) : Prop :=
  ∃ earlier, earlier <+: before ∧ (earlier.map (·.realizedPnL)).sum ≤ -cfg.maxDailyLossUSD

/-! ## No call tells the service of a loss -/

section Run

variable {exp : ℚ → ℚ} {cfg : RiskConfig} {s : Service}

theorem untold_newService (cfg : RiskConfig) : (Service.newService cfg).Untold cfg :=
  ⟨rfl, rfl, rfl, rfl⟩

theorem Service.Untold.perform (h : s.Untold cfg) (c : ServiceCall) :
    (c.perform exp s).2.Untold cfg := by
  cases c with
  | observeMarket now store event =>
    simp only [ServiceCall.perform, Service.observeMarket]
    split
    · exact h
    · exact ⟨h.cfg, h.notKilled, h.noBreaker, h.dailyPnL⟩
  | observeExecution store latency rejected =>
    simp only [ServiceCall.perform, Service.observeExecution]
    split <;> exact ⟨h.cfg, h.notKilled, h.noBreaker, h.dailyPnL⟩
  | observeExecutionEvent store event => exact ⟨h.cfg, h.notKilled, h.noBreaker, h.dailyPnL⟩
  | observeFailure store category => exact ⟨h.cfg, h.notKilled, h.noBreaker, h.dailyPnL⟩
  | evaluate now now' store req =>
    simp only [ServiceCall.perform, Service.evaluate, Service.observeDecision]
    split
    · exact h
    · exact ⟨h.cfg, h.notKilled, h.noBreaker, h.dailyPnL⟩

theorem untold_after (calls : List ServiceCall) :
    ((Service.newService cfg).after exp calls).Untold cfg :=
  emit_invariant (fun _ c hs => hs.perform c) (untold_newService cfg) calls

/-- As long as the service knows of no loss, the other checks decide. -/
theorem Service.Untold.passes_iff (h : s.Untold cfg) (hlimit : 0 < cfg.maxDailyLossUSD)
    (now now' : Time) (store : Store) (req : ExecutionRequest) :
    s.Passes exp now now' store req ↔ s.PassesOtherwise exp now now' store req := by
  constructor
  · exact fun hp =>
      ⟨hp.execute, hp.fresh, hp.size, hp.price, hp.affordable, hp.steady, hp.worthwhile⟩
  · intro hp
    have hloss : -s.cfg.maxDailyLossUSD < s.dailyPnL := by
      rw [h.cfg, h.dailyPnL]
      exact neg_neg_of_pos hlimit
    exact ⟨h.notKilled, h.noBreaker, hp.execute, hp.fresh, hp.size, hloss, hp.price, hp.affordable,
      hp.steady, hp.worthwhile⟩

end Run

/-! ## The limit -/

/-- In every sequence of calls, the loss limit stops every request that may add
to a position exactly if another check stops each of those that come after it. -/
theorem loss_stops_iff (exp : ℚ → ℚ) {cfg : RiskConfig} (hlimit : 0 < cfg.maxDailyLossUSD)
    (calls : List ServiceCall) :
    (∀ before now now' store req rest, calls = before ++ .evaluate now now' store req :: rest →
        LossReached cfg before → req.reduceOnly = false →
        (((Service.newService cfg).after exp before).evaluate exp now now' store req).1.allowed =
          false) ↔
      ∀ before now now' store req rest, calls = before ++ .evaluate now now' store req :: rest →
        LossReached cfg before → req.reduceOnly = false →
        ¬ ((Service.newService cfg).after exp before).PassesOtherwise exp now now' store req := by
  refine forall_congr' fun before => forall_congr' fun now => forall_congr' fun now' =>
    forall_congr' fun store => forall_congr' fun req => forall_congr' fun rest =>
    imp_congr_right fun _ => imp_congr_right fun _ => imp_congr_right fun _ => ?_
  rw [← (untold_after before).passes_iff hlimit, ← Service.evaluate_allowed_iff, Bool.not_eq_true]

/-- A loss of 1000, the limit, in one execution. -/
def lossEvent : ExecutionEvent :=
  { orderID := "id-0", symbol := "BTCUSDT", status := .filled, realizedPnL := -1000 }

def lossThenRequest : List ServiceCall :=
  [.observeExecutionEvent {} lossEvent, .evaluate Desk.clock Desk.clock {} Desk.request]

/-- The next request is allowed. -/
theorem request_allowed_after_loss : ¬ ∀ before now now' store req rest,
    lossThenRequest = before ++ .evaluate now now' store req :: rest →
      LossReached Desk.riskConfig before → req.reduceOnly = false →
      (((Service.newService Desk.riskConfig).after Desk.expCubic before).evaluate Desk.expCubic now
        now' store req).1.allowed = false := by
  intro h
  have hreached : LossReached Desk.riskConfig [.observeExecutionEvent {} lossEvent] :=
    ⟨_, List.prefix_rfl, by decide +kernel⟩
  exact absurd (h [_] Desk.clock Desk.clock {} Desk.request [] rfl hreached rfl) (by decide +kernel)

/-- The same sequence, seen through the general theorem. -/
theorem loss_stops_iff_request :
    (∀ before now now' store req rest,
        lossThenRequest = before ++ .evaluate now now' store req :: rest →
        LossReached Desk.riskConfig before → req.reduceOnly = false →
        (((Service.newService Desk.riskConfig).after Desk.expCubic before).evaluate Desk.expCubic
          now now' store req).1.allowed = false) ↔
      ∀ before now now' store req rest,
        lossThenRequest = before ++ .evaluate now now' store req :: rest →
        LossReached Desk.riskConfig before → req.reduceOnly = false →
        ¬ ((Service.newService Desk.riskConfig).after Desk.expCubic before).PassesOtherwise
          Desk.expCubic now now' store req :=
  loss_stops_iff Desk.expCubic (by decide +kernel) lossThenRequest

end RealTimeTrading.ControlPlane
