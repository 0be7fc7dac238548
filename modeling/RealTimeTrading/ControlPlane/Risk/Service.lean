/-
RealTimeTrading.ControlPlane.Risk.Service — `service.go`: the pre-trade
gate in front of every submission.

The service reads the store only through `AccountState` and, when the
market moves, `GrossExposureUSD`. `now` and `now'` are the two readings
of the clock `Evaluate` makes, one here and one in the intelligence
engine.
-/
import RealTimeTrading.ControlPlane.Risk.Intelligence

namespace RealTimeTrading.ControlPlane

structure Service where
  cfg : RiskConfig
  kill : Bool := false
  forcedBreaker : Bool := false
  breakers : GoMap Symbol Bool := ∅
  dailyPnL : ℚ := 0
  lastMark : ℚ := 0
  marks : GoMap Symbol ℚ := ∅
  feedback : FeedbackEngine := {}
  intelligence : IntelligenceEngine

namespace Service

def newService (cfg : RiskConfig) : Service :=
  { cfg := cfg, intelligence := .new cfg {} }

def observeMarket (now : Time) (store : Store) (event : MarketEvent) (s : Service) : Service :=
  let price := IntelligenceEngine.eventPrice event
  if price ≤ 0 then s
  else
    let marks := s.marks.insert event.symbol price
    { s with
      marks := marks
      lastMark := price
      intelligence := s.intelligence.observeMarket now store s.feedback.snapshot event marks }

def observeDecision (decision : RiskDecision) (s : Service) : RiskDecision × Service :=
  if decision.allowed then (decision, s)
  else
    (decision, { s with
      feedback := s.feedback.observeFailure (decision.reasonCategory.getD .riskReject) })

/-- The literal `RiskDecision` of a refusal in `Evaluate`. -/
def deny (s : Service) (riskScore : ℚ) (reason : String) (category : FailureCategory)
    (confidence : ℚ) : RiskDecision :=
  { allowed := false
    riskScore := riskScore
    reason := reason
    action := "deny"
    reasonCategory := some category
    regimeState := s.feedback.snapshot.regimeState
    confidence := confidence }

/-- The decision of `Evaluate`, before it is counted. -/
def decision (exp : ℚ → ℚ) (now now' : Time) (store : Store) (req : ExecutionRequest)
    (s : Service) : RiskDecision :=
  let stress := s.intelligence.snapshot.systemStressIndex
  let exposureRisk := s.intelligence.snapshot.exposureRiskScore
  let price := req.price.getD s.lastMark
  let orderNotional := req.size * price
  let account := store.account
  let dynamicPositionLimit :=
    if 0.55 < stress then s.cfg.maxPositionUSD * 0.65 else s.cfg.maxPositionUSD
  if s.kill then s.deny 1 "kill_switch" .riskReject 1
  else if s.forcedBreaker then s.deny stress "symbol_circuit_breaker" .riskReject 1
  else if req.decision ≠ .execute then s.deny 0 "not_execute_decision" .riskReject 1
  else if s.cfg.maxSignalAge < now - req.signalTime then s.deny stress "stale_signal" .staleSkip 1
  else if req.size ≤ 0 then s.deny 0 "bad_size" .riskReject 1
  else if s.dailyPnL ≤ -s.cfg.maxDailyLossUSD then s.deny 1 "daily_loss_limit" .riskReject 1
  else if price ≤ 0 then s.deny 0.5 "missing_mark_price" .staleSkip 0.8
  else if 0 < account.availableBalance ∧ req.reduceOnly = false ∧
      account.availableBalance * account.leverageOrDefault < orderNotional then
    s.deny 1 "insufficient_available_balance" .riskReject 1
  else if req.reduceOnly = false ∧ s.cfg.maxPositionUSD < orderNotional then
    s.deny exposureRisk "position_limit" .riskReject 1
  else if req.reduceOnly = false ∧ dynamicPositionLimit < orderNotional then
    s.deny exposureRisk "dynamic_position_limit" .riskReject 1
  else
    let base : RiskDecision :=
      { allowed := true
        sizeMultiplier := 1
        riskScore := stress
        reason := "allowed"
        action := "allow"
        regimeState := s.feedback.snapshot.regimeState
        confidence := 1 }
    s.intelligence.evaluate exp now' { req with price := some price } base

def evaluate (exp : ℚ → ℚ) (now now' : Time) (store : Store) (req : ExecutionRequest)
    (s : Service) : RiskDecision × Service :=
  s.observeDecision (s.decision exp now now' store req)

def observeExecution (exp : ℚ → ℚ) (store : Store) (latency : Duration) (rejected : Bool)
    (s : Service) : Service :=
  let s := { s with
    intelligence :=
      s.intelligence.observeExecution exp store s.feedback.snapshot latency rejected }
  if rejected then { s with feedback := s.feedback.observeFailure .executionFail } else s

/-- `s.intelligence.recompute(nil, s.intelligence.Snapshot().MempoolPressureScore)`. -/
def refresh (store : Store) (s : Service) : Service :=
  { s with
    intelligence := s.intelligence.recompute store s.feedback.snapshot none
      s.intelligence.snapshot.mempoolPressureScore }

def observeExecutionEvent (store : Store) (event : ExecutionEvent) (s : Service) : Service :=
  refresh store { s with feedback := s.feedback.observeExecutionEvent event }

def observeFailure (store : Store) (category : FailureCategory) (s : Service) : Service :=
  refresh store { s with feedback := s.feedback.observeFailure category }

def setKillSwitch (enabled : Bool) (s : Service) : Service := { s with kill := enabled }

def setCircuitBreaker (symbol : Symbol) (enabled : Bool) (s : Service) : Service :=
  let breakers := s.breakers.insert symbol enabled
  { s with breakers := breakers, forcedBreaker := breakers.entries.any fun e => e.2 }

end Service

end RealTimeTrading.ControlPlane
