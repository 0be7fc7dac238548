/-
RealTimeTrading.Rtts.FreshOrder — what a controller makes of an order it
has only just been given.

`position::intent` leaves the queue estimate at its default, with a fill
probability of `0`, so the controller expects the fill in sixteen times
the signal's duration at best, and the half-life of an edge is at most
twelve times that duration. The edge is gone before the fill, whatever
the signal says: unless the order may be crossed, it is aborted.
-/
import Mathlib.Tactic.Linarith
import Mathlib.Tactic.NormNum
import RealTimeTrading.Rtts.ForcedExit

namespace RealTimeTrading.Rtts

open ExecutionController

/-! ## The two durations -/

section Durations

variable (cfg : Config) (side : Side) (size : ℚ) (reduceOnly : Bool) (signal : ScoredDecision)
  (position : Position)

theorem expectedFillTimeMs_intent (h0 : 0 ≤ signal.urgency) (h1 : signal.urgency ≤ 1) :
    expectedFillTimeMs (intent cfg side size reduceOnly signal position) =
      20 * signal.expectedDurationMs * (1.15 - signal.urgency * 0.35) := by
  have hprobability : queueFillProbability
      (intent cfg side size reduceOnly signal position).queueEstimate = 0 :=
    clamp_of_mem le_rfl zero_le_one
  have hurgency : clamp (1.15 - signal.urgency * 0.35) 0.65 1.20 = 1.15 - signal.urgency * 0.35 :=
    clamp_of_mem (by linarith) (by linarith)
  unfold expectedFillTimeMs
  rw [hprobability]
  show (signal.expectedDurationMs : ℚ) / max 0 0.05 *
    clamp (1.15 - signal.urgency * 0.35) 0.65 1.20 = _
  rw [hurgency, max_eq_right (by norm_num)]
  ring

theorem edgeHalfLifeMs_le (intent : OrderIntent) :
    edgeHalfLifeMs intent ≤ 12 * intent.expectedDurationMs := by
  have hduration : (0 : ℚ) ≤ intent.expectedDurationMs := Nat.cast_nonneg _
  rw [mul_comm]
  exact clamp_le (by linarith)

variable {signal}

/-- Three quarters of the expected fill time outlast the edge. -/
theorem halfLife_le_fillTime (h0 : 0 ≤ signal.urgency) (h1 : signal.urgency ≤ 1) :
    edgeHalfLifeMs (intent cfg side size reduceOnly signal position) ≤
      expectedFillTimeMs (intent cfg side size reduceOnly signal position) * 0.75 := by
  have hhalf := edgeHalfLifeMs_le (intent cfg side size reduceOnly signal position)
  have hduration : (0 : ℚ) ≤ signal.expectedDurationMs := Nat.cast_nonneg _
  rw [expectedFillTimeMs_intent _ _ _ _ _ _ h0 h1]
  calc edgeHalfLifeMs (intent cfg side size reduceOnly signal position)
      ≤ 12 * signal.expectedDurationMs := hhalf
    _ = 20 * signal.expectedDurationMs * 0.8 * 0.75 := by ring
    _ ≤ 20 * signal.expectedDurationMs * (1.15 - signal.urgency * 0.35) * 0.75 := by
      have hfactor : (0.8 : ℚ) ≤ 1.15 - signal.urgency * 0.35 := by linarith
      gcongr

end Durations

/-! ## The first decision -/

/-- A resting order whose edge is strong enough to be crossed. -/
structure MayCross (reduceOnly : Bool) (signal : ScoredDecision) : Prop where
  resting : signal.urgency ≤ 0.62
  opening : reduceOnly = false
  score : 0.78 < signal.score
  reliability : 0.60 < signal.edgeReliabilityScore
  alpha : -1.5 < signal.executionAlphaMean

/-- A signal to trade on, as far as edge and competition go. -/
structure Tradable (signal : ScoredDecision) : Prop where
  trading : signal.tradingEnabled = true
  edge : signal.edgeState ≠ .invalid
  competition : signal.competitionState = .normal
  urgency_nonneg : 0 ≤ signal.urgency
  urgency_le_one : signal.urgency ≤ 1
  duration : 0 < signal.expectedDurationMs

/-- What there is to know of the controller of an order, before any event. -/
structure Fresh (cfg : Config) (reduceOnly : Bool) (signal : ScoredDecision)
    (c : ExecutionController) : Prop where
  status : c.status = .new
  idle : c.lastActionTs = 0
  cooldown : c.actionCooldownMs = cfg.executionActionCooldownMs
  approved : c.validationApproved = true
  edge : c.initialDecision.edgeState ≠ .invalid
  competition : c.queueState.competitionState = .normal
  unfilled : c.fillState.filledQty = 0
  strategy :
    c.currentStrategy =
      if 0.62 < signal.urgency ∨ reduceOnly = true then .aggressive else .passive
  fillProbability : c.queueState.fillProbability = 0
  minFillProbability : 0.05 ≤ c.minFillProbability
  score : c.initialDecision.score = signal.score
  reliability : c.initialDecision.edgeReliabilityScore = signal.edgeReliabilityScore
  alpha : c.executionAlphaMean = signal.executionAlphaMean
  fillTime_pos : 0 < c.expectedFillTimeMs
  halfLife : c.edgeHalfLifeMs ≤ c.expectedFillTimeMs * 0.75

section Fresh

variable {cfg : Config} {reduceOnly : Bool} {signal : ScoredDecision}

theorem fresh_new (cfg : Config) (side : Side) (size : ℚ) (reduceOnly : Bool) (position : Position)
    (h : Tradable signal) :
    Fresh cfg reduceOnly signal
      (new (intent cfg side size reduceOnly signal position) cfg) where
  status := rfl
  idle := rfl
  cooldown := rfl
  approved := by
    show (signal.tradingEnabled && decide (signal.edgeState ≠ .invalid)) = true
    rw [h.trading, decide_eq_true h.edge, Bool.and_self]
  edge := h.edge
  competition := rfl
  unfilled := rfl
  strategy := by
    simp only [new, intent, h.competition]
    unfold intentOrderType
    split_ifs <;> first | rfl | contradiction
  fillProbability := clamp_of_mem le_rfl zero_le_one
  minFillProbability := le_clamp (by norm_num)
  score := rfl
  reliability := rfl
  alpha := rfl
  fillTime_pos := by
    have hduration : (0 : ℚ) < signal.expectedDurationMs := Nat.cast_pos.mpr h.duration
    have hfactor : 0 < 1.15 - signal.urgency * 0.35 := by linarith [h.urgency_le_one]
    show 0 < expectedFillTimeMs (intent cfg side size reduceOnly signal position)
    rw [expectedFillTimeMs_intent _ _ _ _ _ _ h.urgency_nonneg h.urgency_le_one]
    positivity
  halfLife :=
    halfLife_le_fillTime cfg side size reduceOnly position h.urgency_nonneg h.urgency_le_one

variable {c : ExecutionController}

/-- Crossing is the only switch a fresh controller makes. -/
theorem Fresh.shouldSwitchStrategy_iff (h : Fresh cfg reduceOnly signal c) (now : Nat) :
    (c.shouldSwitchStrategy now).isSome = true ↔ MayCross reduceOnly signal := by
  have hneverDefensive : ¬ (c.queueState.competitionState = .saturated ∨
      c.initialDecision.edgeState = .invalid) := by
    rintro (hsaturated | hinvalid)
    · rw [h.competition] at hsaturated
      cases hsaturated
    · exact h.edge hinvalid
  have helapsed : 0 ≤ c.elapsedTimeMs now := Nat.cast_nonneg _
  have hremaining : max (c.edgeHalfLifeMs - c.elapsedTimeMs now) 0 ≤ c.expectedFillTimeMs * 0.75 :=
    max_le (by linarith [h.halfLife]) (by linarith [h.fillTime_pos])
  have hunlikely : c.queueState.fillProbability < c.minFillProbability * 0.80 := by
    rw [h.fillProbability]
    linarith [h.minFillProbability]
  have hshort : max (c.edgeHalfLifeMs - c.elapsedTimeMs now) 0 < max c.expectedFillTimeMs 1 :=
    hremaining.trans_lt (lt_max_of_lt_left (by linarith [h.fillTime_pos]))
  unfold shouldSwitchStrategy
  dsimp only
  rw [h.strategy, h.score, h.reliability, h.alpha]
  by_cases hmarket : 0.62 < signal.urgency ∨ reduceOnly = true
  · rw [if_pos hmarket, if_neg (fun hp => by cases hp.1),
      if_neg (fun hp => absurd hp.2.2 (not_lt.mpr hremaining)), if_neg hneverDefensive]
    refine iff_of_false (by simp) fun hcross => ?_
    rcases hmarket with hurgent | hreduce
    · exact absurd hcross.resting (not_le.mpr hurgent)
    · rw [hcross.opening] at hreduce
      cases hreduce
  · rw [if_neg hmarket]
    obtain ⟨hresting, hopening⟩ := not_or.mp hmarket
    by_cases hstrong : 0.78 < signal.score ∧ 0.60 < signal.edgeReliabilityScore ∧
        -1.5 < signal.executionAlphaMean
    · rw [if_pos ⟨rfl, hunlikely, hstrong, hshort⟩]
      exact iff_of_true rfl ⟨not_lt.mp hresting, Bool.not_eq_true _ |>.mp hopening, hstrong.1,
        hstrong.2.1, hstrong.2.2⟩
    · rw [if_neg (fun hp => hstrong hp.2.2.1), if_neg (fun hp => by cases hp.1),
        if_neg hneverDefensive]
      exact iff_of_false (by simp) fun hcross =>
        hstrong ⟨hcross.score, hcross.reliability, hcross.alpha⟩

/-- While the edge lasts, a fresh controller cools down, crosses or aborts. -/
theorem Fresh.evaluateAction_eq (h : Fresh cfg reduceOnly signal c) {now : Nat}
    (hlasts : c.elapsedTimeMs now ≤ c.edgeHalfLifeMs) :
    c.evaluateAction now =
      if now < cfg.executionActionCooldownMs then .holdPassive
      else if (c.shouldSwitchStrategy now).isSome then .switchStrategy .aggressive
      else .abort := by
  have hstanding : ¬ (c.validationApproved = false ∨ c.initialDecision.edgeState = .invalid ∨
      c.queueState.competitionState = .saturated ∨ c.edgeHalfLifeMs < c.elapsedTimeMs now) := by
    rintro (hrefused | hinvalid | hsaturated | hover)
    · rw [h.approved] at hrefused
      cases hrefused
    · exact h.edge hinvalid
    · rw [h.competition] at hsaturated
      cases hsaturated
    · exact absurd hlasts (not_le.mpr hover)
  have hslow : c.edgeHalfLifeMs < c.expectedFillTimeMs := by linarith [h.halfLife, h.fillTime_pos]
  have hcooled : (¬ c.cooldownElapsed now) ↔ now < cfg.executionActionCooldownMs := by
    unfold cooldownElapsed
    rw [h.idle, h.cooldown, Nat.sub_zero, not_le]
  unfold evaluateAction
  rw [if_neg (by rw [h.status]; decide), if_neg hstanding, if_pos hslow]
  simp only [hcooled]

end Fresh

/-- Between its timestamp and the half-life of its edge, a fresh order is not
aborted exactly during the first cooldown of the clock, or if it may be crossed. -/
theorem fresh_not_aborted_iff (cfg : Config) (side : Side) (size : ℚ) (reduceOnly : Bool)
    (position : Position) {signal : ScoredDecision} (h : Tradable signal) {now : Nat}
    (hfrom : signal.market.timestamp ≤ now)
    (huntil : (now : ℚ) ≤ signal.market.timestamp +
      edgeHalfLifeMs (intent cfg side size reduceOnly signal position)) :
    (new (intent cfg side size reduceOnly signal position) cfg).evaluateAction now ≠ .abort ↔
      now < cfg.executionActionCooldownMs ∨ MayCross reduceOnly signal := by
  have hfresh := fresh_new cfg side size reduceOnly position h
  have hlasts :
      (new (intent cfg side size reduceOnly signal position) cfg).elapsedTimeMs now ≤
        edgeHalfLifeMs (intent cfg side size reduceOnly signal position) := by
    show ((now - signal.market.timestamp : Nat) : ℚ) ≤ _
    rw [Nat.cast_sub hfrom]
    linarith
  rw [hfresh.evaluateAction_eq hlasts, ← hfresh.shouldSwitchStrategy_iff now]
  by_cases hcooling : now < cfg.executionActionCooldownMs
  · rw [if_pos hcooling]
    exact iff_of_true (by simp) (Or.inl hcooling)
  · rw [if_neg hcooling]
    split_ifs with hcross
    · exact iff_of_true (by simp) (Or.inr hcross)
    · exact iff_of_false (by simp) (not_or.mpr ⟨hcooling, hcross⟩)

namespace Desk

theorem calmSignal_tradable : Tradable calmSignal :=
  ⟨rfl, by decide, rfl, by decide +kernel, by decide +kernel, by decide⟩

/-- The edge of a calm signal lasts for 300 ms; after 50 its order is aborted. -/
theorem fresh_order_aborted : ¬ ∀ signal : ScoredDecision, Tradable signal → ∀ now : Nat,
    signal.market.timestamp ≤ now →
    (now : ℚ) ≤ signal.market.timestamp + edgeHalfLifeMs (intent {} .buy 1 false signal {}) →
    (new (intent {} .buy 1 false signal {}) {}).evaluateAction now ≠ .abort := by
  intro h
  exact h calmSignal calmSignal_tradable 1050 (by decide) (by decide +kernel) (by decide +kernel)

/-- The same order, seen through the general theorem. -/
theorem fresh_not_aborted_iff_calm :
    (new (intent {} .buy 1 false calmSignal {}) {}).evaluateAction 1050 ≠ .abort ↔
      1050 < ({} : Config).executionActionCooldownMs ∨ MayCross false calmSignal :=
  fresh_not_aborted_iff {} .buy 1 false {} calmSignal_tradable (by decide) (by decide +kernel)

end Desk

end RealTimeTrading.Rtts
