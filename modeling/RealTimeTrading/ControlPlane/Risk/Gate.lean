/-
RealTimeTrading.ControlPlane.Risk.Gate — when a request is allowed.

`Evaluate` is a chain of refusals, in the service and then in the
intelligence engine. `Passes` is the same chain as a conjunction, and
`decision_allowed_iff` says that a request is allowed exactly when it
passes.
-/
import RealTimeTrading.ControlPlane.Risk.Service

namespace RealTimeTrading.ControlPlane

/-- A refusal in the chain. -/
theorem allowed_rule {c : Prop} [Decidable c] {d e : RiskDecision} (hd : d.allowed = false) :
    (if c then d else e).allowed = true ↔ ¬ c ∧ e.allowed = true := by
  by_cases h : c <;> simp [h, hd]

/-! ## The intelligence engine -/

namespace IntelligenceEngine

/-- The circuit is not open and the stress is bearable. -/
def Steady (e : IntelligenceEngine) : Prop :=
  e.snapshot.circuitState ≠ .opened ∧ e.snapshot.systemStressIndex ≤ 0.85

instance (e : IntelligenceEngine) : Decidable e.Steady := by unfold Steady; infer_instance

/-- The price the expected value is computed at. -/
def evPrice (req : ExecutionRequest) (e : IntelligenceEngine) : ℚ :=
  let price := req.price.getD 0
  if price ≤ 0 ∧ 0 < e.lastPrice then e.lastPrice else price

/-- The size multiplier `Evaluate` arrives at. -/
def multiplier (exp : ℚ → ℚ) (now : Time) (req : ExecutionRequest) (e : IntelligenceEngine) : ℚ :=
  let latency : Duration := now - req.signalTime
  let ev (latency : Duration) :=
    computeEV req (e.evPrice req) (decayFactor exp latency defaultDecayTauMs) e.snapshot
  (degrade req (ev latency) (ev (latency + 50 * millisecond)) e.snapshot).mult

/-- The markout a request is judged by: its own, or the average so far. -/
def judgedMarkout (req : ExecutionRequest) (e : IntelligenceEngine) : ℚ :=
  if req.expectedRealizedMarkout = 0 then e.snapshot.feedback.expectedRealizedMarkoutEMA
  else req.expectedRealizedMarkout

/-- What is asked of a request that may add to the position. -/
structure Worthwhile (exp : ℚ → ℚ) (now : Time) (req : ExecutionRequest) (e : IntelligenceEngine) :
    Prop where
  markout : riskAdjustedThreshold e.snapshot e.snapshot.feedback < e.judgedMarkout req
  notHostile : e.snapshot.feedback.regimeState ≠ .hostile
  notContaminated : e.snapshot.feedback.regimeState ≠ .contaminated
  multiplier : 0.05 < e.multiplier exp now req

theorem evaluate_allowed_iff (exp : ℚ → ℚ) (now : Time) (req : ExecutionRequest)
    {base : RiskDecision} (hbase : base.allowed = true) (e : IntelligenceEngine) :
    (e.evaluate exp now req base).allowed = true ↔
      e.Steady ∧ (req.reduceOnly = false → e.Worthwhile exp now req) := by
  unfold evaluate
  dsimp only
  rw [if_neg (by simp [hbase]), allowed_rule rfl, allowed_rule rfl, allowed_rule rfl,
    allowed_rule rfl, allowed_rule rfl]
  constructor
  · rintro ⟨hsteady, hmarkout, hhostile, hcontaminated, hmult, -⟩
    rw [not_or, not_lt] at hsteady
    exact ⟨hsteady, fun hreduce =>
      { markout := not_le.mp fun h => hmarkout ⟨hreduce, h⟩
        notHostile := fun h => hhostile ⟨h, hreduce⟩
        notContaminated := fun h => hcontaminated ⟨h, hreduce⟩
        multiplier := not_le.mp fun h => hmult ⟨h, hreduce⟩ }⟩
  · rintro ⟨⟨hclosed, hstress⟩, hworth⟩
    refine ⟨not_or.mpr ⟨hclosed, not_lt.mpr hstress⟩, ?_, ?_, ?_, ?_, rfl⟩
    · rintro ⟨hreduce, h⟩
      exact not_le.mpr (hworth hreduce).markout h
    · rintro ⟨h, hreduce⟩
      exact (hworth hreduce).notHostile h
    · rintro ⟨h, hreduce⟩
      exact (hworth hreduce).notContaminated h
    · rintro ⟨h, hreduce⟩
      exact not_le.mpr (hworth hreduce).multiplier h

end IntelligenceEngine

/-! ## The service -/

namespace Service

/-- The price an order without one is checked at. -/
def checkedPrice (req : ExecutionRequest) (s : Service) : ℚ := req.price.getD s.lastMark

/-- The limit of one order, lower under stress. -/
def dynamicPositionLimit (s : Service) : ℚ :=
  if 0.55 < s.intelligence.snapshot.systemStressIndex then s.cfg.maxPositionUSD * 0.65
  else s.cfg.maxPositionUSD

/-- What is asked of an order that may add to the position: that the account
can carry it, and that it is within the limits, by itself. -/
structure Affordable (store : Store) (req : ExecutionRequest) (s : Service) : Prop where
  balance : 0 < store.account.availableBalance →
    req.size * s.checkedPrice req ≤ store.account.availableBalance * store.account.leverageOrDefault
  position : req.size * s.checkedPrice req ≤ s.cfg.maxPositionUSD
  dynamic : req.size * s.checkedPrice req ≤ s.dynamicPositionLimit

/-- The chain of `Evaluate`. -/
structure Passes (exp : ℚ → ℚ) (now now' : Time) (store : Store) (req : ExecutionRequest)
    (s : Service) : Prop where
  notKilled : s.kill = false
  noBreaker : s.forcedBreaker = false
  execute : req.decision = .execute
  fresh : now - req.signalTime ≤ s.cfg.maxSignalAge
  size : 0 < req.size
  loss : -s.cfg.maxDailyLossUSD < s.dailyPnL
  price : 0 < s.checkedPrice req
  affordable : req.reduceOnly = false → s.Affordable store req
  steady : s.intelligence.Steady
  worthwhile : req.reduceOnly = false →
    s.intelligence.Worthwhile exp now' { req with price := some (s.checkedPrice req) }

variable (exp : ℚ → ℚ) (now now' : Time) (store : Store) (req : ExecutionRequest) (s : Service)

theorem decision_allowed_iff :
    (s.decision exp now now' store req).allowed = true ↔ s.Passes exp now now' store req := by
  unfold decision
  dsimp only
  rw [allowed_rule rfl, allowed_rule rfl, allowed_rule rfl, allowed_rule rfl, allowed_rule rfl,
    allowed_rule rfl, allowed_rule rfl, allowed_rule rfl, allowed_rule rfl, allowed_rule rfl,
    IntelligenceEngine.evaluate_allowed_iff exp now' _ rfl]
  constructor
  · rintro ⟨hkill, hbreaker, hexecute, hfresh, hsize, hloss, hprice, hbalance, hposition, hdynamic,
      hsteady, hworth⟩
    exact {
      notKilled := by simpa using hkill
      noBreaker := by simpa using hbreaker
      execute := not_not.mp hexecute
      fresh := not_lt.mp hfresh
      size := not_le.mp hsize
      loss := not_le.mp hloss
      price := not_le.mp hprice
      affordable := fun hreduce =>
        { balance := fun hpos => not_lt.mp fun h => hbalance ⟨hpos, hreduce, h⟩
          position := not_lt.mp fun h => hposition ⟨hreduce, h⟩
          dynamic := not_lt.mp fun h => hdynamic ⟨hreduce, h⟩ }
      steady := hsteady
      worthwhile := hworth }
  · intro h
    refine ⟨by simp [h.notKilled], by simp [h.noBreaker], not_not.mpr h.execute,
      not_lt.mpr h.fresh, not_le.mpr h.size, not_le.mpr h.loss, not_le.mpr h.price, ?_, ?_, ?_,
      h.steady, h.worthwhile⟩
    · rintro ⟨hpos, hreduce, hlt⟩
      exact not_lt.mpr ((h.affordable hreduce).balance hpos) hlt
    · rintro ⟨hreduce, hlt⟩
      exact not_lt.mpr (h.affordable hreduce).position hlt
    · rintro ⟨hreduce, hlt⟩
      exact not_lt.mpr (h.affordable hreduce).dynamic hlt

theorem evaluate_fst :
    (s.evaluate exp now now' store req).1 = s.decision exp now now' store req := by
  unfold evaluate observeDecision
  split <;> rfl

theorem evaluate_allowed_iff :
    (s.evaluate exp now now' store req).1.allowed = true ↔ s.Passes exp now now' store req := by
  rw [evaluate_fst, decision_allowed_iff]

end Service

end RealTimeTrading.ControlPlane
