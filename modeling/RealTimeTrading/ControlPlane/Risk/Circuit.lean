/-
RealTimeTrading.ControlPlane.Risk.Circuit — what opens the circuit, and
what closes it again.

The averages of the service start at zero, and a zero average takes its
first sample whole. So the first failed send puts the failure average at
`1`, and the circuit is open (`Tripped`); only a send that goes through
lowers that average, and an open circuit lets none pass. As long as no
send has failed the circuit can be open too, for a hostile regime or for
stress, but then quiet executions close it (`exists_calmed`).
-/
import Mathlib.Algebra.Order.Archimedean.Basic
import Mathlib.Algebra.Order.Field.Basic
import Mathlib.Tactic.Linarith
import Mathlib.Tactic.Ring
import RealTimeTrading.ControlPlane.Risk.DailyLoss

namespace RealTimeTrading.ControlPlane

/-! ## Averages -/

theorem clamp01_le_one (v : ℚ) : clamp01 v ≤ 1 := by
  unfold clamp01
  split_ifs with hneg hbig
  · exact zero_le_one
  · exact le_rfl
  · exact not_lt.mp hbig

theorem clamp01_le {v bound : ℚ} (hbound : 0 ≤ bound) (h : v ≤ bound) : clamp01 v ≤ bound := by
  unfold clamp01
  split_ifs with hneg hbig
  · exact hbound
  · exact hbig.le.trans h
  · exact h

theorem ema_le_one {prev value alpha : ℚ} (h0 : 0 ≤ alpha) (h1 : alpha ≤ 1) (hprev : prev ≤ 1)
    (hvalue : value ≤ 1) : ema prev value alpha ≤ 1 := by
  unfold ema
  split_ifs
  · exact hvalue
  · have hkept : prev * (1 - alpha) ≤ 1 - alpha :=
      mul_le_of_le_one_left (sub_nonneg.mpr h1) hprev
    have hadded : value * alpha ≤ alpha := mul_le_of_le_one_left h0 hvalue
    linarith

/-- A sample of `0` fades the average. -/
theorem ema_fade (prev alpha : ℚ) : ema prev 0 alpha = prev * (1 - alpha) := by
  unfold ema
  split_ifs with h
  · rw [h, zero_mul]
  · rw [zero_mul, add_zero]

/-- The sample that brings the average to `0`. -/
def balancing (prev alpha : ℚ) : ℚ := -(prev * (1 - alpha)) / alpha

theorem ema_balancing (prev : ℚ) {alpha : ℚ} (h : alpha ≠ 0) :
    ema prev (balancing prev alpha) alpha = 0 := by
  unfold ema balancing
  split_ifs with hprev
  · rw [hprev, zero_mul, neg_zero, zero_div]
  · rw [div_mul_cancel₀ _ h, add_neg_cancel]

/-! ## Feedback -/

namespace FeedbackEngine

/-- The rates that never exceed one. -/
structure Bounded (e : FeedbackEngine) : Prop where
  failures : e.executionFailureRateEMA ≤ 1
  losses : e.partialFillLossRateEMA ≤ 1

theorem bounded_new : Bounded {} := ⟨zero_le_one, zero_le_one⟩

theorem Bounded.observeFailure {e : FeedbackEngine} (h : e.Bounded) (category : FailureCategory) :
    (e.observeFailure category).Bounded := by
  cases category with
  | executionFail => exact ⟨ema_le_one (by norm_num) (by norm_num) h.failures le_rfl, h.losses⟩
  | marketCancel =>
    exact ⟨ema_le_one (by norm_num) (by norm_num) h.failures (by norm_num), h.losses⟩
  | partialFillLoss =>
    exact ⟨h.failures, ema_le_one (by norm_num) (by norm_num) h.losses le_rfl⟩
  | riskReject | outbidFail | staleSkip => exact ⟨h.failures, h.losses⟩

theorem Bounded.observeExecutionEvent {e : FeedbackEngine} (h : e.Bounded)
    (event : ExecutionEvent) : (e.observeExecutionEvent event).Bounded := by
  have hfailures : ema e.executionFailureRateEMA 0 0.04 ≤ 1 :=
    ema_le_one (by norm_num) (by norm_num) h.failures zero_le_one
  have hlosses : ema e.partialFillLossRateEMA 0 0.04 ≤ 1 :=
    ema_le_one (by norm_num) (by norm_num) h.losses zero_le_one
  have hlosses' : ema (ema e.partialFillLossRateEMA 0 0.04) 1 0.10 ≤ 1 :=
    ema_le_one (by norm_num) (by norm_num) hlosses le_rfl
  unfold FeedbackEngine.observeExecutionEvent
  dsimp only
  split_ifs
  · exact ⟨h.failures, h.losses⟩
  all_goals first | exact ⟨hfailures, hlosses'⟩ | exact ⟨hfailures, hlosses⟩

/-- An execution that slips as usual, is not adverse, and balances the markouts. -/
def calmEvent (e : FeedbackEngine) : ExecutionEvent :=
  { orderID := "id-0"
    symbol := "BTCUSDT"
    status := .filled
    slippageReal := e.slippageEMA
    markoutCurve :=
      { pnl100ms := balancing e.markout100EMA 0.06
        pnl500ms := balancing e.markout500EMA 0.06
        pnl1s := balancing e.markout1sEMA 0.06
        pnl5s := balancing e.markout5sEMA 0.06 } }

theorem observe_calmEvent (e : FeedbackEngine) :
    e.observeExecutionEvent e.calmEvent = recompute { e with
      realEvents := e.realEvents + 1
      realizedPnLEMA := ema e.realizedPnLEMA (balancing e.markout500EMA 0.06) 0.06
      markout100EMA := 0
      markout500EMA := 0
      markout1sEMA := 0
      markout5sEMA := 0
      adverseSelectionEMA := e.adverseSelectionEMA * (1 - 0.08)
      slippageEMA := ema e.slippageEMA e.slippageEMA 0.08
      slippageVarianceEMA := e.slippageVarianceEMA * (1 - 0.06)
      executionFailureRateEMA := e.executionFailureRateEMA * (1 - 0.04)
      outbidRateEMA := e.outbidRateEMA * (1 - 0.04)
      partialFillLossRateEMA := e.partialFillLossRateEMA * (1 - 0.04) } := by
  have hflag : containsString "".toLower "outbid" = false := by decide +kernel
  unfold FeedbackEngine.observeExecutionEvent calmEvent
  simp only [hflag, ema_balancing _ (show (0.06 : ℚ) ≠ 0 by norm_num), ema_fade, sub_self, mul_zero,
    lt_irrefl, false_and, if_false, if_true, Bool.false_eq_true]

/-- Adverse selection and slippage variance are at most this. -/
structure Within (bound : ℚ) (e : FeedbackEngine) : Prop where
  adverse : e.adverseSelectionEMA ≤ bound
  variance : e.slippageVarianceEMA ≤ bound

theorem Within.calm {e : FeedbackEngine} {bound : ℚ} (hbound : 0 ≤ bound) (h : e.Within bound) :
    (e.observeExecutionEvent e.calmEvent).Within (bound * 0.94) := by
  rw [observe_calmEvent]
  constructor
  · show e.adverseSelectionEMA * (1 - 0.08) ≤ bound * 0.94
    linarith [h.adverse]
  · show e.slippageVarianceEMA * (1 - 0.06) ≤ bound * 0.94
    linarith [h.variance]

/-- After a calm event there is no markout to hold against the venue. -/
theorem degradation_calm (e : FeedbackEngine) :
    (e.observeExecutionEvent e.calmEvent).snapshot.markoutDegradationScore = 0 := by
  rw [observe_calmEvent]
  simp [recompute, degradation, clamp01]

theorem regime_calm {e : FeedbackEngine} (h : (e.observeExecutionEvent e.calmEvent).Within 0.72) :
    (e.observeExecutionEvent e.calmEvent).snapshot.regimeState ≠ .hostile := by
  obtain ⟨hadverse, hvariance⟩ := h
  rw [observe_calmEvent] at hadverse hvariance ⊢
  have hquiet : ¬ (0.72 < e.adverseSelectionEMA * (1 - 0.08) ∨
      36 < e.slippageVarianceEMA * (1 - 0.06) ∨
      ((0 : ℚ) < 0 ∧ (0 : ℚ) < 0 ∧ (0 : ℚ) < 0)) := by
    rintro (h | h | ⟨h, -⟩)
    · exact absurd hadverse (not_le.mpr h)
    · exact absurd (hvariance.trans (by norm_num)) (not_le.mpr h)
    · exact absurd h (lt_irrefl _)
  rw [show ∀ e : FeedbackEngine, e.recompute.snapshot.regimeState = e.regime from fun _ => rfl]
  unfold regime
  dsimp only
  rw [if_neg hquiet]
  split_ifs <;> decide

end FeedbackEngine

/-! ## The circuit -/

namespace IntelligenceEngine

/-- No send has failed yet. -/
structure Untripped (e : IntelligenceEngine) : Prop where
  failEMA : e.failEMA = 0
  rejectEMA : e.rejectEMA = 0
  exposure : e.snapshot.exposureRiskScore ≤ 1
  mempool : e.snapshot.mempoolPressureScore ≤ 1

/-- A send has failed. -/
structure Tripped (e : IntelligenceEngine) : Prop where
  failEMA : e.failEMA = 1
  opened : e.snapshot.circuitState = .opened

variable {store : Store} {feedback : FeedbackSnapshot} {marks : Option (GoMap Symbol ℚ)} {score : ℚ}
  {e : IntelligenceEngine}

theorem untripped_new (cfg : RiskConfig) (feedback : FeedbackEngine) :
    (new cfg feedback).Untripped :=
  ⟨rfl, rfl, zero_le_one, zero_le_one⟩

theorem exposure_recompute (h : e.snapshot.exposureRiskScore ≤ 1) :
    (recompute store feedback marks score e).snapshot.exposureRiskScore ≤ 1 := by
  cases marks with
  | none => exact h
  | some marks => exact clamp01_le_one _

theorem untripped_recompute (hfail : e.failEMA = 0) (hreject : e.rejectEMA = 0)
    (hexposure : e.snapshot.exposureRiskScore ≤ 1) (hscore : score ≤ 1) :
    (recompute store feedback marks score e).Untripped :=
  ⟨hfail, hreject, exposure_recompute hexposure, hscore⟩

theorem tripped_recompute (h : e.failEMA = 1) :
    (recompute store feedback marks score e).Tripped := by
  refine ⟨h, ?_⟩
  have hover : 0.75 < e.failEMA := by
    rw [h]
    norm_num
  exact if_pos (Or.inr (Or.inl hover))

theorem Tripped.not_steady (h : e.Tripped) : ¬ e.Steady := fun hsteady => hsteady.1 h.opened

/-- With no failed send, a quiet venue keeps the stress bearable whatever the
exposure, the latency, the volatility and the pressure of the mempool are. -/
theorem steady_recompute (hfail : e.failEMA = 0) (hreject : e.rejectEMA = 0)
    (hexposure : e.snapshot.exposureRiskScore ≤ 1) (hscore : score ≤ 1)
    (hfailures : feedback.executionFailureRateEMA ≤ 1)
    (hlosses : feedback.partialFillLossRateEMA ≤ 1)
    (hdegradation : feedback.markoutDegradationScore = 0)
    (hadverse : feedback.adverseSelectionEMA ≤ 0.72)
    (hregime : feedback.regimeState ≠ .hostile) :
    (recompute store feedback none score e).Steady := by
  have hstress : (recompute store feedback none score e).snapshot.systemStressIndex ≤ 0.85 := by
    have hlatency :=
      clamp01_le_one (e.latencyEMA / ((e.cfg.latencyRejectAfter.milliseconds + 1 : ℤ) : ℚ))
    have hvariance := clamp01_le_one (feedback.slippageVarianceEMA / 36)
    have hvol := clamp01_le_one (e.volEMA / 8)
    have hfragility : clamp01
        (0.30 * clamp01 (e.latencyEMA / ((e.cfg.latencyRejectAfter.milliseconds + 1 : ℤ) : ℚ))
          + 0.25 * e.failEMA + 0.15 * e.rejectEMA + 0.30 * feedback.executionFailureRateEMA)
        ≤ 0.6 := by
      refine clamp01_le (by norm_num) ?_
      rw [hfail, hreject]
      linarith
    have hmarkout : clamp01 (0.35 * feedback.markoutDegradationScore
        + 0.30 * feedback.adverseSelectionEMA + 0.20 * clamp01 (feedback.slippageVarianceEMA / 36)
        + 0.15 * feedback.partialFillLossRateEMA) ≤ 0.6 := by
      refine clamp01_le (by norm_num) ?_
      rw [hdegradation]
      linarith
    refine clamp01_le (by norm_num) ?_
    show 0.20 * e.snapshot.exposureRiskScore + _ + _ + _ + _ ≤ (0.85 : ℚ)
    linarith
  refine ⟨?_, hstress⟩
  show (if _ then CircuitState.opened else if _ then _ else _) ≠ _
  rw [if_neg]
  · split_ifs <;> decide
  · rintro (h | h | h)
    · exact absurd (hstress.trans (by norm_num)) (not_le.mpr h)
    · rw [hfail] at h
      norm_num at h
    · exact hregime h

end IntelligenceEngine

/-! ## The service -/

namespace Service

structure Untripped (s : Service) : Prop where
  feedback : s.feedback.Bounded
  intelligence : s.intelligence.Untripped

def Tripped (s : Service) : Prop := s.intelligence.Tripped

variable {exp : ℚ → ℚ} {s : Service} {store : Store}

theorem untripped_newService (cfg : RiskConfig) : (newService cfg).Untripped :=
  ⟨FeedbackEngine.bounded_new, IntelligenceEngine.untripped_new cfg {}⟩

theorem Untripped.refresh (h : s.Untripped) (store : Store) : (s.refresh store).Untripped := by
  refine ⟨h.feedback, ?_⟩
  unfold Service.refresh
  dsimp only
  exact IntelligenceEngine.untripped_recompute h.intelligence.failEMA h.intelligence.rejectEMA
    h.intelligence.exposure h.intelligence.mempool

theorem Tripped.refresh (h : s.Tripped) (store : Store) : (s.refresh store).Tripped := by
  unfold Tripped Service.refresh
  dsimp only
  exact IntelligenceEngine.tripped_recompute h.failEMA

theorem Untripped.observeExecutionEvent (h : s.Untripped) (store : Store) (event : ExecutionEvent) :
    (s.observeExecutionEvent store event).Untripped := by
  have hfed : Untripped { s with feedback := s.feedback.observeExecutionEvent event } :=
    ⟨h.feedback.observeExecutionEvent event, h.intelligence⟩
  exact hfed.refresh store

/-- A failed send, from any failure average that is `0` or `1`. -/
theorem tripped_observeExecution (h : ema s.intelligence.failEMA 1 0.10 = 1) (latency : Duration) :
    (s.observeExecution exp store latency true).Tripped := by
  unfold Tripped Service.observeExecution IntelligenceEngine.observeExecution
  simp only [if_true]
  exact IntelligenceEngine.tripped_recompute h

/-- Nothing but a failed send trips the circuit. -/
theorem Untripped.perform (h : s.Untripped) {c : ServiceCall}
    (hc : ∀ store latency, c ≠ .observeExecution store latency true) :
    (c.perform exp s).2.Untripped := by
  have hint := h.intelligence
  cases c with
  | observeMarket now store event =>
    simp only [ServiceCall.perform, Service.observeMarket]
    split_ifs with hprice
    · exact h
    · refine ⟨h.feedback, ?_⟩
      unfold IntelligenceEngine.observeMarket
      dsimp only
      rw [if_neg hprice]
      exact IntelligenceEngine.untripped_recompute hint.failEMA hint.rejectEMA hint.exposure
        (clamp01_le_one _)
  | observeExecution store latency rejected =>
    cases rejected with
    | true => exact absurd rfl (hc store latency)
    | false =>
      refine ⟨h.feedback, ?_⟩
      simp only [ServiceCall.perform, Service.observeExecution, IntelligenceEngine.observeExecution,
        Bool.false_eq_true, if_false]
      refine IntelligenceEngine.untripped_recompute ?_ ?_ hint.exposure (clamp01_le_one _)
      · dsimp only
        rw [hint.failEMA, ema_fade, zero_mul]
      · dsimp only
        rw [hint.rejectEMA, ema_fade, zero_mul]
  | observeExecutionEvent store event =>
    exact h.observeExecutionEvent store event
  | observeFailure store category =>
    have hfed : Untripped { s with feedback := s.feedback.observeFailure category } :=
      ⟨h.feedback.observeFailure category, hint⟩
    exact hfed.refresh store
  | evaluate now now' store req =>
    simp only [ServiceCall.perform, Service.evaluate, Service.observeDecision]
    split_ifs
    · exact h
    · exact ⟨h.feedback.observeFailure _, hint⟩

/-- The first failed send does. -/
theorem Untripped.trips (h : s.Untripped) (latency : Duration) :
    (s.observeExecution exp store latency true).Tripped := by
  refine tripped_observeExecution ?_ latency
  rw [h.intelligence.failEMA]
  exact if_pos rfl

/-- Nothing but a send that goes through closes a tripped circuit. -/
theorem Tripped.perform (h : s.Tripped) {c : ServiceCall}
    (hc : ∀ store latency, c ≠ .observeExecution store latency false) :
    (c.perform exp s).2.Tripped := by
  cases c with
  | observeMarket now store event =>
    simp only [ServiceCall.perform, Service.observeMarket]
    split_ifs with hprice
    · exact h
    · unfold Tripped IntelligenceEngine.observeMarket
      dsimp only
      rw [if_neg hprice]
      exact IntelligenceEngine.tripped_recompute h.failEMA
  | observeExecution store latency rejected =>
    cases rejected with
    | false => exact absurd rfl (hc store latency)
    | true =>
      refine tripped_observeExecution ?_ latency
      rw [h.failEMA]
      norm_num [ema]
  | observeExecutionEvent store event =>
    have hfed : Tripped { s with feedback := s.feedback.observeExecutionEvent event } := h
    exact hfed.refresh store
  | observeFailure store category =>
    have hfed : Tripped { s with feedback := s.feedback.observeFailure category } := h
    exact hfed.refresh store
  | evaluate now now' store req =>
    simp only [ServiceCall.perform, Service.evaluate, Service.observeDecision]
    split_ifs
    · exact h
    · exact h

theorem Tripped.refuses (h : s.Tripped) (now now' : Time) (req : ExecutionRequest) :
    (s.evaluate exp now now' store req).1.allowed = false := by
  rw [← Bool.not_eq_true, evaluate_allowed_iff]
  exact fun hp => IntelligenceEngine.Tripped.not_steady h hp.steady

/-! ### Quiet executions -/

/-- The service after `n` executions as calm as can be. -/
def calmed (store : Store) (s : Service) : Nat → Service
  | 0 => s
  | n + 1 =>
    let t := calmed store s n
    t.observeExecutionEvent store t.feedback.calmEvent

/-- One more calm execution, once the averages are low, and the circuit closes. -/
theorem Untripped.steady_calm (h : s.Untripped)
    (hquiet : (s.feedback.observeExecutionEvent s.feedback.calmEvent).Within 0.72) :
    (s.observeExecutionEvent store s.feedback.calmEvent).intelligence.Steady := by
  have hbounded := h.feedback.observeExecutionEvent s.feedback.calmEvent
  have hdegradation := s.feedback.degradation_calm
  have hregime := FeedbackEngine.regime_calm hquiet
  unfold Service.observeExecutionEvent Service.refresh
  dsimp only
  refine IntelligenceEngine.steady_recompute h.intelligence.failEMA h.intelligence.rejectEMA
    h.intelligence.exposure h.intelligence.mempool ?_ ?_ hdegradation ?_ hregime
  all_goals rw [FeedbackEngine.observe_calmEvent] at hbounded hquiet ⊢
  · exact hbounded.failures
  · exact hbounded.losses
  · exact hquiet.adverse

theorem Untripped.calmed (h : s.Untripped) (n : Nat) : (s.calmed store n).Untripped := by
  induction n with
  | zero => exact h
  | succ n ih => exact ih.observeExecutionEvent store _

theorem within_calmed {bound : ℚ} (hbound : 0 ≤ bound) (h : s.feedback.Within bound) (store : Store)
    (n : Nat) : (s.calmed store n).feedback.Within (bound * 0.94 ^ n) := by
  induction n with
  | zero =>
    rw [pow_zero, mul_one]
    exact h
  | succ n ih =>
    rw [pow_succ, ← mul_assoc]
    exact ih.calm (mul_nonneg hbound (pow_nonneg (by norm_num) n))

/-- Enough calm executions close a circuit that no failed send has opened. -/
theorem exists_calmed (h : s.Untripped) : ∃ n, (s.calmed store n).intelligence.Steady := by
  let bound := max 0 (max s.feedback.adverseSelectionEMA s.feedback.slippageVarianceEMA)
  have hbound : 0 ≤ bound := le_max_left _ _
  have hwithin : s.feedback.Within bound :=
    ⟨(le_max_left _ _).trans (le_max_right _ _), (le_max_right _ _).trans (le_max_right _ _)⟩
  obtain ⟨n, hn⟩ : ∃ n : Nat, (0.94 : ℚ) ^ n < 0.72 / (bound + 1) :=
    exists_pow_lt_of_lt_one (div_pos (by norm_num) (by linarith)) (by norm_num)
  rw [lt_div_iff₀ (by linarith)] at hn
  have hpow : (0 : ℚ) ≤ 0.94 ^ n := pow_nonneg (by norm_num) n
  obtain ⟨hadverse, hvariance⟩ := (within_calmed hbound hwithin store n).calm
    (mul_nonneg hbound hpow)
  have hlow : bound * 0.94 ^ n * 0.94 ≤ 0.72 := by nlinarith
  exact ⟨n + 1, (h.calmed n).steady_calm ⟨hadverse.trans hlow, hvariance.trans hlow⟩⟩

end Service

end RealTimeTrading.ControlPlane
