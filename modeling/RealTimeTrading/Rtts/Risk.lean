/-
RealTimeTrading.Rtts.Risk — `risk.rs`: the checks an intent has to pass
before the meta engine sees it.

A number here is always finite, so the checks for finiteness are left out.
The loop changes its realised profit in one way only, to the least of it
and zero, and it starts at zero: the drawdown it checks for never comes,
unless the allowance is negative. The kill switch is tripped by a score
outside its range, for good (`emit_flat`).
-/
import RealTimeTrading.Concurrency.Emitting
import RealTimeTrading.Rtts.MetaThresholds

namespace RealTimeTrading.Rtts

open Concurrency

structure RiskLoop where
  realizedPnl : ℚ := 0
  killSwitch : Bool := false

namespace RiskLoop

/-- The reason an intent is rejected for. -/
def validate (cfg : RunConfig) (intent : OrderIntent) (realizedPnl : ℚ) (killSwitch : Bool) :
    Except String Unit :=
  if killSwitch then .error "kill_switch"
  else if intent.request.size ≤ 0 then .error "bad_size"
  else if intent.lastPrice ≤ 0 then .error "bad_price"
  else
    let notional := intent.request.size * intent.lastPrice
    let maxTradeRisk := cfg.capital * cfg.maxRiskPct
    let stopDistance := cfg.stopLossBps / 10000 * intent.lastPrice
    let riskEstimate := intent.request.size * stopDistance
    if maxTradeRisk < riskEstimate then .error "trade_risk"
    else if cfg.capital * 0.25 < notional then .error "notional"
    else if cfg.capital * cfg.maxDailyDrawdownPct < -realizedPnl then .error "daily_drawdown"
    else if cfg.maxDataAgeMs < intent.dataLatencyMs then .error "stale_data"
    else if intent.expectedDurationMs = 0 then .error "bad_duration"
    else if intent.request.maxSlippageBps < intent.expectedSlippageBps then
      .error "slippage_budget"
    else .ok ()

def abnormal (intent : OrderIntent) : Bool :=
  decide (1 < intent.score) || decide (intent.score < 0)

/-- One turn of the loop: the intent that is passed on, if any. -/
def handle (cfg : RunConfig) (s : RiskLoop) (intent : OrderIntent) :
    Option OrderIntent × RiskLoop :=
  match validate cfg intent s.realizedPnl s.killSwitch with
  | .ok () =>
    if abnormal intent then (none, { s with killSwitch := true })
    else (some intent, { s with realizedPnl := min s.realizedPnl 0 })
  | .error reason =>
    (none,
      { realizedPnl := min s.realizedPnl 0
        killSwitch := if reason = "daily_drawdown" then true else s.killSwitch })

def step (cfg : RunConfig) (s : RiskLoop) (intent : OrderIntent) : List OrderIntent × RiskLoop :=
  ((handle cfg s intent).1.toList, (handle cfg s intent).2)

/-- The loop after these intents. -/
def after (cfg : RunConfig) (intents : List OrderIntent) : RiskLoop :=
  (emit (step cfg) {} intents).2

/-- The intents passed on, in order. -/
def passed (cfg : RunConfig) (intents : List OrderIntent) : List OrderIntent :=
  (emit (step cfg) {} intents).1

/-! ## What an intent that is passed on meets -/

/-- The checks, without those of the loop's own state. -/
structure Meets (cfg : RunConfig) (intent : OrderIntent) : Prop where
  size : 0 < intent.request.size
  price : 0 < intent.lastPrice
  risk : intent.request.size * (cfg.stopLossBps / 10000 * intent.lastPrice) ≤
    cfg.capital * cfg.maxRiskPct
  notional : intent.request.size * intent.lastPrice ≤ cfg.capital * 0.25
  fresh : intent.dataLatencyMs ≤ cfg.maxDataAgeMs
  duration : intent.expectedDurationMs ≠ 0
  slippage : intent.expectedSlippageBps ≤ intent.request.maxSlippageBps

instance (cfg : RunConfig) (intent : OrderIntent) : Decidable (Meets cfg intent) :=
  decidable_of_iff
    (0 < intent.request.size ∧ 0 < intent.lastPrice ∧
      intent.request.size * (cfg.stopLossBps / 10000 * intent.lastPrice) ≤
        cfg.capital * cfg.maxRiskPct ∧
      intent.request.size * intent.lastPrice ≤ cfg.capital * 0.25 ∧
      intent.dataLatencyMs ≤ cfg.maxDataAgeMs ∧ intent.expectedDurationMs ≠ 0 ∧
      intent.expectedSlippageBps ≤ intent.request.maxSlippageBps)
    ⟨fun ⟨h1, h2, h3, h4, h5, h6, h7⟩ => ⟨h1, h2, h3, h4, h5, h6, h7⟩,
      fun ⟨h1, h2, h3, h4, h5, h6, h7⟩ => ⟨h1, h2, h3, h4, h5, h6, h7⟩⟩

variable {cfg : RunConfig} {intent : OrderIntent} {realizedPnl : ℚ} {killSwitch : Bool}

theorem validate_eq_ok_iff :
    validate cfg intent realizedPnl killSwitch = .ok () ↔
      killSwitch = false ∧ -realizedPnl ≤ cfg.capital * cfg.maxDailyDrawdownPct ∧
        Meets cfg intent := by
  unfold validate
  dsimp only
  constructor
  · intro h
    split_ifs at h with hkill hsize hprice hrisk hnotional hdrawdown hstale hduration hslippage
    exact ⟨Bool.eq_false_iff.mpr hkill, not_lt.mp hdrawdown, not_le.mp hsize, not_le.mp hprice,
      not_lt.mp hrisk, not_lt.mp hnotional, not_lt.mp hstale, hduration, not_lt.mp hslippage⟩
  · rintro ⟨rfl, hdrawdown, h⟩
    rw [if_neg Bool.false_ne_true, if_neg (not_le.mpr h.size), if_neg (not_le.mpr h.price),
      if_neg (not_lt.mpr h.risk), if_neg (not_lt.mpr h.notional), if_neg (not_lt.mpr hdrawdown),
      if_neg (not_lt.mpr h.fresh), if_neg h.duration, if_neg (not_lt.mpr h.slippage)]

/-! ## Runs -/

/-- The intent trips the kill switch where the loop gets as far as looking at its score. -/
def Trips (cfg : RunConfig) (intent : OrderIntent) : Prop :=
  Meets cfg intent ∧ abnormal intent = true

instance (cfg : RunConfig) (intent : OrderIntent) : Decidable (Trips cfg intent) := by
  unfold Trips; infer_instance

variable {s : RiskLoop}

/-- A loop that has not seen a loss turns on the intent alone. -/
theorem validate_of_flat (hallowance : 0 ≤ cfg.capital * cfg.maxDailyDrawdownPct) :
    validate cfg intent 0 killSwitch = .ok () ↔ killSwitch = false ∧ Meets cfg intent := by
  rw [validate_eq_ok_iff, neg_zero]
  exact and_congr_right fun _ => and_iff_right hallowance

theorem handle_of_error {reason : String}
    (h : validate cfg intent s.realizedPnl s.killSwitch = .error reason) :
    handle cfg s intent = (none,
      { realizedPnl := min s.realizedPnl 0
        killSwitch := if reason = "daily_drawdown" then true else s.killSwitch }) := by
  unfold handle
  rw [h]

theorem handle_of_ok (h : validate cfg intent s.realizedPnl s.killSwitch = .ok ()) :
    handle cfg s intent = if abnormal intent then (none, { s with killSwitch := true })
      else (some intent, { s with realizedPnl := min s.realizedPnl 0 }) := by
  unfold handle
  rw [h]

/-- No drawdown is reported where none is allowed for. -/
theorem reason_of_flat (hallowance : 0 ≤ cfg.capital * cfg.maxDailyDrawdownPct) {reason : String}
    (h : validate cfg intent 0 killSwitch = .error reason) : reason ≠ "daily_drawdown" := by
  rintro rfl
  unfold validate at h
  dsimp only at h
  split_ifs at h with hkill hsize hprice hrisk hnotional hdrawdown
  all_goals first
    | exact absurd (Except.error.inj h) (by decide)
    | exact absurd hdrawdown (not_lt.mpr (neg_zero (G := ℚ) ▸ hallowance))

/-- A loop without a loss, whose kill switch is in this position. -/
def flat (killSwitch : Bool) : RiskLoop := { killSwitch := killSwitch }

theorem handle_flat_of_meets (hallowance : 0 ≤ cfg.capital * cfg.maxDailyDrawdownPct)
    (h : Meets cfg intent) :
    handle cfg (flat false) intent =
      if abnormal intent then (none, flat true) else (some intent, flat false) := by
  rw [handle_of_ok ((validate_of_flat hallowance).mpr ⟨rfl, h⟩)]
  rfl

theorem handle_flat_of_not (hallowance : 0 ≤ cfg.capital * cfg.maxDailyDrawdownPct)
    (h : ¬ (killSwitch = false ∧ Meets cfg intent)) :
    handle cfg (flat killSwitch) intent = (none, flat killSwitch) := by
  cases hvalid : validate cfg intent 0 killSwitch with
  | ok u => exact absurd ((validate_of_flat hallowance).mp hvalid) h
  | error reason =>
    rw [handle_of_error hvalid, if_neg (reason_of_flat hallowance hvalid)]
    rfl

/-- Once the kill switch is tripped, nothing passes. -/
theorem emit_tripped (hallowance : 0 ≤ cfg.capital * cfg.maxDailyDrawdownPct)
    (intents : List OrderIntent) : emit (step cfg) (flat true) intents = ([], flat true) := by
  induction intents with
  | nil => rfl
  | cons intent rest ih =>
    rw [emit_cons, step, handle_flat_of_not hallowance (by simp), ih]
    rfl

/-- The intents in front of the first that trips the kill switch. -/
def untilTripped (cfg : RunConfig) (intents : List OrderIntent) : List OrderIntent :=
  intents.takeWhile fun intent => !decide (Trips cfg intent)

/-- What passes: of the intents up to the first that trips the kill switch, those that
meet the checks. After it the switch stays tripped. -/
theorem emit_flat (hallowance : 0 ≤ cfg.capital * cfg.maxDailyDrawdownPct)
    (intents : List OrderIntent) :
    emit (step cfg) (flat false) intents =
      ((untilTripped cfg intents).filter fun intent => decide (Meets cfg intent),
        flat (intents.any fun intent => decide (Trips cfg intent))) := by
  induction intents with
  | nil => rfl
  | cons intent rest ih =>
    rw [emit_cons, step, untilTripped]
    by_cases hmeets : Meets cfg intent
    · rw [handle_flat_of_meets hallowance hmeets]
      by_cases habnormal : abnormal intent = true
      · have htrips : Trips cfg intent := ⟨hmeets, habnormal⟩
        rw [if_pos habnormal, List.takeWhile_cons_of_neg (by simpa using htrips),
          emit_tripped hallowance, List.any_cons, decide_eq_true htrips]
        rfl
      · have hsafe : ¬ Trips cfg intent := fun h => habnormal h.2
        rw [if_neg habnormal, List.takeWhile_cons_of_pos (by simpa using hsafe), ih,
          List.filter_cons_of_pos (by simpa using hmeets), List.any_cons, decide_eq_false hsafe]
        rfl
    · have hsafe : ¬ Trips cfg intent := fun h => hmeets h.1
      rw [handle_flat_of_not hallowance fun h => hmeets h.2,
        List.takeWhile_cons_of_pos (by simpa using hsafe), ih,
        List.filter_cons_of_neg (by simpa using hmeets), List.any_cons, decide_eq_false hsafe]
      rfl

/-- The stage over a whole run. -/
theorem passed_eq (cfg : RunConfig) (hallowance : 0 ≤ cfg.capital * cfg.maxDailyDrawdownPct)
    (intents : List OrderIntent) :
    passed cfg intents =
        (untilTripped cfg intents).filter (fun intent => decide (Meets cfg intent)) ∧
      ((after cfg intents).killSwitch = true ↔ ∃ intent ∈ intents, Trips cfg intent) ∧
      (after cfg intents).realizedPnl = 0 := by
  have hrun := emit_flat hallowance intents
  unfold passed after
  rw [show ({} : RiskLoop) = flat false from rfl, hrun]
  refine ⟨rfl, ?_, rfl⟩
  show (intents.any fun intent => decide (Trips cfg intent)) = true ↔ _
  simp

/-- A sound intent, one with a score out of range, and the first again. -/
def wildRun : List OrderIntent :=
  [Desk.uncertainEntry, { Desk.uncertainEntry with score := 2 },
    Desk.uncertainEntry]

theorem passed_eq_wildRun :
    passed {} wildRun =
        (untilTripped {} wildRun).filter (fun intent => decide (Meets {} intent)) ∧
      ((after {} wildRun).killSwitch = true ↔ ∃ intent ∈ wildRun, Trips {} intent) ∧
      (after {} wildRun).realizedPnl = 0 :=
  passed_eq {} (by decide +kernel) wildRun

example : (untilTripped {} wildRun).length = 1 ∧ ∃ intent ∈ wildRun, Trips {} intent := by
  decide +kernel

end RiskLoop

end RealTimeTrading.Rtts
