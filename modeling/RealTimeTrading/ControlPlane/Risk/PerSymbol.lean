/-
RealTimeTrading.ControlPlane.Risk.PerSymbol — what the service keeps for
each symbol, and what `Evaluate` reads of it.

`ObserveMarket` and `SetCircuitBreaker` each write a map by symbol and,
beside it, one value for all symbols: the last mark, and whether any
breaker is on. The maps are right (`marks_operated`, `breakers_operated`),
but `Evaluate` reads the other two. So a request is valued at its own
symbol's mark exactly when the last mark of all agrees with it, and
stopped by its own symbol's breaker alone exactly when no other is on.
-/
import RealTimeTrading.Concurrency.Registers
import RealTimeTrading.ControlPlane.Risk.DailyLoss

namespace RealTimeTrading.ControlPlane

open RealTimeTrading.Concurrency

/-! ## Everything that reaches the service -/

/-- A call of the gateway or the feeds, or a switch an operator turns. -/
inductive ServiceInput where
  | call (c : ServiceCall)
  | setKillSwitch (enabled : Bool)
  | setCircuitBreaker (symbol : Symbol) (enabled : Bool)

namespace ServiceInput

def perform (exp : ℚ → ℚ) (s : Service) : ServiceInput → List RiskDecision × Service
  | .call c => c.perform exp s
  | .setKillSwitch enabled => ([], s.setKillSwitch enabled)
  | .setCircuitBreaker symbol enabled => ([], s.setCircuitBreaker symbol enabled)

/-- Symbol and price of a market event, if there is a price to use. -/
def mark : ServiceInput → Option (Symbol × ℚ)
  | .call (.observeMarket _ _ event) =>
    if IntelligenceEngine.eventPrice event ≤ 0 then none
    else some (event.symbol, IntelligenceEngine.eventPrice event)
  | _ => none

/-- Symbol and setting of a breaker. -/
def breaker : ServiceInput → Option (Symbol × Bool)
  | .setCircuitBreaker symbol enabled => some (symbol, enabled)
  | _ => none

theorem mark_pos {i : ServiceInput} {m : Symbol × ℚ} (h : i.mark = some m) : 0 < m.2 := by
  unfold mark at h
  split at h
  · split_ifs at h with hprice
    obtain rfl := Option.some.inj h
    exact not_le.mp hprice
  · cases h

end ServiceInput

namespace Service

/-- The service after these inputs. -/
def operated (exp : ℚ → ℚ) (s : Service) (inputs : List ServiceInput) : Service :=
  (emit (ServiceInput.perform exp) s inputs).2

/-! ## What an input writes -/

/-- The two maps and the values beside them. -/
structure Written (i : ServiceInput) (s s' : Service) : Prop where
  marks : s'.marks = write s.marks i.mark
  lastMark : s'.lastMark = (i.mark.map Prod.snd).getD s.lastMark
  breakers : s'.breakers = write s.breakers i.breaker
  forced : s'.forcedBreaker =
    (i.breaker.map fun _ => s'.breakers.entries.any fun e => e.2).getD s.forcedBreaker

theorem written (exp : ℚ → ℚ) (s : Service) (i : ServiceInput) :
    Written i s (i.perform exp s).2 := by
  cases i with
  | setKillSwitch enabled => exact ⟨rfl, rfl, rfl, rfl⟩
  | setCircuitBreaker symbol enabled => exact ⟨rfl, rfl, rfl, rfl⟩
  | call c =>
    cases c with
    | observeMarket now store event =>
      by_cases hprice : IntelligenceEngine.eventPrice event ≤ 0
      · have hmark : (ServiceInput.call (.observeMarket now store event)).mark = none :=
          if_pos hprice
        simp only [ServiceInput.perform, ServiceCall.perform, observeMarket, if_pos hprice]
        exact ⟨by rw [hmark]; rfl, by rw [hmark]; rfl, rfl, rfl⟩
      · have hmark : (ServiceInput.call (.observeMarket now store event)).mark =
            some (event.symbol, IntelligenceEngine.eventPrice event) := if_neg hprice
        simp only [ServiceInput.perform, ServiceCall.perform, observeMarket, if_neg hprice]
        exact ⟨by rw [hmark]; rfl, by rw [hmark]; rfl, rfl, rfl⟩
    | observeExecution store latency rejected => cases rejected <;> exact ⟨rfl, rfl, rfl, rfl⟩
    | observeExecutionEvent store event => exact ⟨rfl, rfl, rfl, rfl⟩
    | observeFailure store category => exact ⟨rfl, rfl, rfl, rfl⟩
    | evaluate now now' store req =>
      simp only [ServiceInput.perform, ServiceCall.perform, evaluate, observeDecision]
      split <;> exact ⟨rfl, rfl, rfl, rfl⟩

end Service

/-- The price of the last usable event of any symbol. -/
def latestMark (inputs : List ServiceInput) : Option ℚ :=
  latest (fun i => i.mark.map Prod.snd) inputs

/-- The price of the last usable event of one symbol. -/
def latestMarkOf (symbol : Symbol) (inputs : List ServiceInput) : Option ℚ :=
  latest (fun i => i.mark.bind (writtenAt symbol)) inputs

/-- The last call for this symbol's breaker enabled it. -/
def Enabled (symbol : Symbol) (inputs : List ServiceInput) : Prop :=
  latest (fun i => i.breaker.bind (writtenAt symbol)) inputs = some true

instance (symbol : Symbol) (inputs : List ServiceInput) : Decidable (Enabled symbol inputs) := by
  unfold Enabled; infer_instance

section Run

variable (exp : ℚ → ℚ) (cfg : RiskConfig) (inputs : List ServiceInput)

theorem lastMark_operated :
    ((Service.newService cfg).operated exp inputs).lastMark = (latestMark inputs).getD 0 :=
  emit_register Service.lastMark (fun s i => (s.written exp i).lastMark) _ inputs

theorem marks_operated (symbol : Symbol) :
    ((Service.newService cfg).operated exp inputs).marks.lookup symbol =
      latestMarkOf symbol inputs := by
  unfold Service.operated
  rw [emit_lookup Service.marks (fun s i => (s.written exp i).marks)]
  exact Option.or_none

theorem breakers_operated (symbol : Symbol) :
    ((Service.newService cfg).operated exp inputs).breakers.lookup symbol =
      latest (fun i => i.breaker.bind (writtenAt symbol)) inputs := by
  unfold Service.operated
  rw [emit_lookup Service.breakers (fun s i => (s.written exp i).breakers)]
  exact Option.or_none

/-- The flag sums up the map. -/
def Service.Summed (s : Service) : Prop := s.forcedBreaker = s.breakers.entries.any fun e => e.2

variable {exp} in
theorem Service.Summed.perform {s : Service} (h : s.Summed) (i : ServiceInput) :
    (i.perform exp s).2.Summed := by
  have hwritten := s.written exp i
  unfold Service.Summed
  rw [hwritten.forced]
  cases hset : i.breaker with
  | some e => rfl
  | none =>
    rw [hwritten.breakers, hset]
    exact h

/-- The flag is up while some breaker is on. -/
theorem forcedBreaker_operated :
    ((Service.newService cfg).operated exp inputs).forcedBreaker = true ↔
      ∃ symbol, Enabled symbol inputs := by
  have hnew : (Service.newService cfg).Summed := rfl
  have hsummed : ((Service.newService cfg).operated exp inputs).Summed :=
    emit_invariant (fun _ i hs => hs.perform i) hnew inputs
  rw [hsummed, List.any_eq_true]
  unfold Enabled
  simp only [← breakers_operated exp cfg inputs, ← Option.mem_def, AList.mem_lookup_iff]
  constructor
  · rintro ⟨⟨symbol, enabled⟩, hmem, rfl⟩
    exact ⟨symbol, hmem⟩
  · rintro ⟨symbol, hmem⟩
    exact ⟨_, hmem, rfl⟩

end Run

/-! ## Reasons -/

/-- A refusal in the chain, and what holds of its reason. -/
theorem reason_rule {P : String → Prop} {c : Prop} [Decidable c] {d e : RiskDecision}
    (hd : P d.reason) (he : P e.reason) : P (if c then d else e).reason := by
  split_ifs
  · exact hd
  · exact he

namespace IntelligenceEngine

/-- The reasons the intelligence engine decides with. -/
def reasons : List String :=
  ["system_stress_open", "expected_real_markout_below_threshold", "hostile_execution_regime",
    "execution_truth_contaminated", "risk_multiplier_zero", "allowed", "regime_degraded",
    "marginal_ev_reduce", "time_decay_reduce", "circuit_degraded", "mempool_pressure_reduce",
    "execution_fragility_reduce", "exposure_risk_reduce"]

theorem Degrade.apply_reason_mem {d : Degrade} {bound : ℚ} {reason : String} {cond : Prop}
    [Decidable cond] (hd : d.reason ∈ reasons) (hreason : reason ∈ reasons) :
    (d.apply bound reason cond).reason ∈ reasons := by
  unfold Degrade.apply
  split_ifs
  · exact hreason
  · exact hd

theorem degrade_reason_mem (req : ExecutionRequest) (evNow evFinal : ExpectedValue)
    (snap : IntelligenceSnapshot) : (degrade req evNow evFinal snap).reason ∈ reasons := by
  unfold degrade
  dsimp only
  iterate 7 refine Degrade.apply_reason_mem ?_ (by decide)
  show "allowed" ∈ reasons
  decide

theorem evaluate_reason_mem (exp : ℚ → ℚ) (now : Time) (req : ExecutionRequest)
    {base : RiskDecision} (hbase : base.allowed = true) (e : IntelligenceEngine) :
    (e.evaluate exp now req base).reason ∈ reasons := by
  unfold evaluate
  dsimp only
  rw [if_neg (by simp [hbase])]
  refine reason_rule (P := (· ∈ reasons)) (by decide : "system_stress_open" ∈ reasons) ?_
  refine reason_rule (P := (· ∈ reasons))
    (by decide : "expected_real_markout_below_threshold" ∈ reasons) ?_
  refine reason_rule (P := (· ∈ reasons)) (by decide : "hostile_execution_regime" ∈ reasons) ?_
  refine reason_rule (P := (· ∈ reasons))
    (by decide : "execution_truth_contaminated" ∈ reasons) ?_
  refine reason_rule (P := (· ∈ reasons)) (by decide : "risk_multiplier_zero" ∈ reasons) ?_
  exact degrade_reason_mem _ _ _ _

end IntelligenceEngine

namespace Service

section Reasons

variable (exp : ℚ → ℚ) (now now' : Time) (store : Store) (req : ExecutionRequest) (s : Service)

/-- The checks made before the one for a price. -/
structure ReachesPrice : Prop where
  notKilled : s.kill = false
  noBreaker : s.forcedBreaker = false
  execute : req.decision = .execute
  fresh : now - req.signalTime ≤ s.cfg.maxSignalAge
  size : 0 < req.size
  loss : -s.cfg.maxDailyLossUSD < s.dailyPnL

variable {s}

/-- With the switch off, the breaker is the reason exactly when the flag is up. -/
theorem breaker_reason_iff (hkill : s.kill = false) :
    (s.evaluate exp now now' store req).1.allowed = false ∧
        (s.evaluate exp now now' store req).1.reason = "symbol_circuit_breaker" ↔
      s.forcedBreaker = true := by
  rw [evaluate_fst]
  unfold decision
  dsimp only
  rw [if_neg (by simp [hkill])]
  constructor
  · rintro ⟨-, hreason⟩
    by_contra hoff
    rw [if_neg hoff] at hreason
    refine absurd hreason ?_
    refine reason_rule (P := (· ≠ _)) (by decide : "not_execute_decision" ≠ _) ?_
    refine reason_rule (P := (· ≠ _)) (by decide : "stale_signal" ≠ _) ?_
    refine reason_rule (P := (· ≠ _)) (by decide : "bad_size" ≠ _) ?_
    refine reason_rule (P := (· ≠ _)) (by decide : "daily_loss_limit" ≠ _) ?_
    refine reason_rule (P := (· ≠ _)) (by decide : "missing_mark_price" ≠ _) ?_
    refine reason_rule (P := (· ≠ _)) (by decide : "insufficient_available_balance" ≠ _) ?_
    refine reason_rule (P := (· ≠ _)) (by decide : "position_limit" ≠ _) ?_
    refine reason_rule (P := (· ≠ _)) (by decide : "dynamic_position_limit" ≠ _) ?_
    exact ne_of_mem_of_not_mem (IntelligenceEngine.evaluate_reason_mem exp now' _ rfl _) (by decide)
  · intro hon
    rw [if_pos hon]
    exact ⟨rfl, rfl⟩

/-- Past the other checks, the price is missing exactly when it is not positive. -/
theorem ReachesPrice.missing_reason_iff (h : ReachesPrice now req s) :
    (s.evaluate exp now now' store req).1.allowed = false ∧
        (s.evaluate exp now now' store req).1.reason = "missing_mark_price" ↔
      s.checkedPrice req ≤ 0 := by
  rw [evaluate_fst]
  unfold decision checkedPrice
  dsimp only
  rw [if_neg (by simp [h.notKilled]), if_neg (by simp [h.noBreaker]),
    if_neg (not_not.mpr h.execute), if_neg (not_lt.mpr h.fresh), if_neg (not_le.mpr h.size),
    if_neg (not_le.mpr h.loss)]
  constructor
  · rintro ⟨-, hreason⟩
    by_contra hpriced
    rw [if_neg hpriced] at hreason
    refine absurd hreason ?_
    refine reason_rule (P := (· ≠ _)) (by decide : "insufficient_available_balance" ≠ _) ?_
    refine reason_rule (P := (· ≠ _)) (by decide : "position_limit" ≠ _) ?_
    refine reason_rule (P := (· ≠ _)) (by decide : "dynamic_position_limit" ≠ _) ?_
    exact ne_of_mem_of_not_mem (IntelligenceEngine.evaluate_reason_mem exp now' _ rfl _) (by decide)
  · intro hmissing
    rw [if_pos hmissing]
    exact ⟨rfl, rfl⟩

end Reasons

/-! ## The price of an order without one -/

/-- Go's `orderNotional`, which the balance and the limits are compared with. -/
def orderNotional (req : ExecutionRequest) (s : Service) : ℚ := req.size * s.checkedPrice req

/-- The order is valued at the latest mark of its own symbol, or refused for
want of one. -/
structure ValuedAtOwnMark (exp : ℚ → ℚ) (now now' : Time) (store : Store) (req : ExecutionRequest)
    (inputs : List ServiceInput) (s : Service) : Prop where
  valued : ∀ mark, latestMarkOf req.symbol inputs = some mark →
    s.orderNotional req = req.size * mark
  missing : latestMarkOf req.symbol inputs = none →
    (s.evaluate exp now now' store req).1.allowed = false ∧
      (s.evaluate exp now now' store req).1.reason = "missing_mark_price"

end Service

theorem latestMarkOf_pos {symbol : Symbol} {inputs : List ServiceInput} {mark : ℚ}
    (h : latestMarkOf symbol inputs = some mark) : 0 < mark := by
  obtain ⟨i, -, hmark⟩ := mem_of_latest h
  obtain ⟨m, hm, hwritten⟩ := Option.bind_eq_some_iff.mp hmark
  unfold writtenAt at hwritten
  split_ifs at hwritten with hsymbol
  obtain rfl := Option.some.inj hwritten
  exact ServiceInput.mark_pos hm

theorem latestMark_pos {inputs : List ServiceInput} {mark : ℚ} (h : latestMark inputs = some mark) :
    0 < mark := by
  obtain ⟨i, -, hmark⟩ := mem_of_latest h
  obtain ⟨m, hm, rfl⟩ := Option.map_eq_some_iff.mp hmark
  exact ServiceInput.mark_pos hm

/-- After any inputs, an order without a price that gets as far as being priced is
valued at the mark of its own symbol exactly when the last usable event of any
symbol has the price of the last one of its own, or there was none at all. -/
theorem own_mark_iff (exp : ℚ → ℚ) (cfg : RiskConfig) (inputs : List ServiceInput)
    {now : Time} (now' : Time) (store : Store) {req : ExecutionRequest}
    (hunpriced : req.price = none)
    (hreach : ((Service.newService cfg).operated exp inputs).ReachesPrice now req) :
    ((Service.newService cfg).operated exp inputs).ValuedAtOwnMark exp now now' store req inputs ↔
      latestMark inputs = latestMarkOf req.symbol inputs := by
  have hprice : ((Service.newService cfg).operated exp inputs).checkedPrice req =
      (latestMark inputs).getD 0 := by
    unfold Service.checkedPrice
    rw [hunpriced, Option.getD_none, lastMark_operated]
  have hmissing := hreach.missing_reason_iff exp now now' store req
  rw [hprice] at hmissing
  constructor
  · intro h
    cases hown : latestMarkOf req.symbol inputs with
    | none =>
      cases hlast : latestMark inputs with
      | none => rfl
      | some last =>
        rw [hlast] at hmissing
        exact absurd (hmissing.mp (h.missing hown)) (not_le.mpr (latestMark_pos hlast))
    | some own =>
      have hvalued := h.valued own hown
      unfold Service.orderNotional at hvalued
      rw [hprice] at hvalued
      have heq : (latestMark inputs).getD 0 = own := mul_left_cancel₀ hreach.size.ne' hvalued
      cases hlast : latestMark inputs with
      | none =>
        rw [hlast, Option.getD_none] at heq
        exact absurd heq (latestMarkOf_pos hown).ne
      | some last =>
        rw [hlast, Option.getD_some] at heq
        rw [heq]
  · intro heq
    constructor
    · intro mark hown
      unfold Service.orderNotional
      rw [hprice, heq, hown, Option.getD_some]
    · intro hnone
      rw [heq, hnone, Option.getD_none] at hmissing
      exact hmissing.mpr le_rfl

/-! ## Breakers -/

/-- With the switch off, a request is stopped by the breaker exactly if its own
symbol's breaker is on, precisely when that one is on or no other is. -/
theorem own_breaker_iff (exp : ℚ → ℚ) (cfg : RiskConfig) (inputs : List ServiceInput)
    (now now' : Time) (store : Store) (req : ExecutionRequest)
    (hkill : ((Service.newService cfg).operated exp inputs).kill = false) :
    ((((Service.newService cfg).operated exp inputs).evaluate exp now now' store req).1.allowed =
            false ∧
          (((Service.newService cfg).operated exp inputs).evaluate exp now now' store
            req).1.reason = "symbol_circuit_breaker" ↔
        Enabled req.symbol inputs) ↔
      Enabled req.symbol inputs ∨ ∀ symbol, ¬ Enabled symbol inputs := by
  rw [Service.breaker_reason_iff exp now now' store req hkill, forcedBreaker_operated]
  constructor
  · intro h
    by_cases hown : Enabled req.symbol inputs
    · exact .inl hown
    · exact .inr fun symbol hother => hown (h.mp ⟨symbol, hother⟩)
  · rintro (hown | hnone)
    · exact ⟨fun _ => hown, fun _ => ⟨_, hown⟩⟩
    · exact ⟨fun ⟨symbol, hother⟩ => absurd hother (hnone symbol), fun hown => ⟨_, hown⟩⟩

namespace Desk

/-- The service of the desk after these inputs. -/
def riskAfter (inputs : List ServiceInput) : Service :=
  (Service.newService riskConfig).operated expCubic inputs

def traded (symbol : Symbol) (price : ℚ) : ServiceInput :=
  .call (.observeMarket clock {}
    { symbol := symbol, timestamp := clock, price := price, volume := 1, bestBid := price
      bestAsk := price })

/-- Bitcoin is traded, then ether. -/
def twoMarkets : List ServiceInput := [traded "BTCUSDT" 100, traded "ETHUSDT" 10]

/-- An order for bitcoin, without a price. -/
def unpriced : ExecutionRequest := { request with price := none }

theorem unpriced_reachesPrice : (riskAfter twoMarkets).ReachesPrice clock unpriced := by
  constructor <;> decide +kernel

/-- One bitcoin is valued at the price of an ether. -/
theorem unpriced_at_other_mark :
    ¬ (riskAfter twoMarkets).ValuedAtOwnMark expCubic clock clock {} unpriced twoMarkets := by
  intro h
  exact absurd (h.valued 100 (by decide +kernel)) (by decide +kernel)

/-- The same order, seen through the general theorem. -/
theorem own_mark_iff_unpriced :
    (riskAfter twoMarkets).ValuedAtOwnMark expCubic clock clock {} unpriced twoMarkets ↔
      latestMark twoMarkets = latestMarkOf "BTCUSDT" twoMarkets :=
  own_mark_iff expCubic riskConfig twoMarkets clock {} rfl unpriced_reachesPrice

/-- The breaker of ether is set. -/
def otherBreaker : List ServiceInput := [.setCircuitBreaker "ETHUSDT" true]

/-- It stops an order for bitcoin. -/
theorem stopped_by_other_breaker :
    ¬ (((riskAfter otherBreaker).evaluate expCubic clock clock {} request).1.allowed = false ∧
          ((riskAfter otherBreaker).evaluate expCubic clock clock {} request).1.reason =
            "symbol_circuit_breaker" ↔
        Enabled "BTCUSDT" otherBreaker) := by
  decide +kernel

/-- The same order, seen through the general theorem. -/
theorem own_breaker_iff_other :
    (((riskAfter otherBreaker).evaluate expCubic clock clock {} request).1.allowed = false ∧
          ((riskAfter otherBreaker).evaluate expCubic clock clock {} request).1.reason =
            "symbol_circuit_breaker" ↔
        Enabled "BTCUSDT" otherBreaker) ↔
      Enabled "BTCUSDT" otherBreaker ∨ ∀ symbol, ¬ Enabled symbol otherBreaker :=
  own_breaker_iff expCubic riskConfig otherBreaker clock clock {} request rfl

end Desk

end RealTimeTrading.ControlPlane
