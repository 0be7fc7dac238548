/-
RealTimeTrading.Rtts.ActionBudget — how often one controller acts.

The three actions that replace an order share a counter, and so do the
four that end it; each decision that raises one first compares it with
its limit, except for exits and aborts, which have no limit of their own.
Every action but holding waits for the cooldown since the last one. The
facts about one decision come first, then those of a life.
-/
import RealTimeTrading.Rtts.ControllerCalls

namespace RealTimeTrading.Rtts

open Concurrency

def ExecutionAction.isReplacing : ExecutionAction → Bool
  | .stepAhead _ | .replace _ | .crossSpread => true
  | _ => false

def ExecutionAction.isCancel : ExecutionAction → Bool
  | .cancel => true
  | _ => false

theorem ExecutionAction.isCancel_iff {action : ExecutionAction} :
    action.isCancel = true ↔ action = .cancel := by
  cases action <;> simp [isCancel]

/-- The limits of an order are each a `u32`. -/
structure Config.LimitsFit (cfg : Config) : Prop where
  cancels : cfg.maxCancelPerOrder < 2 ^ 32
  replaces : cfg.maxReplacePerOrder < 2 ^ 32

namespace ExecutionController

/-! ## One decision -/

section Decision

variable {c : ExecutionController} {nowTs : Nat}

theorem queueAction_replacing (h : (c.queueAction nowTs).isReplacing = true) :
    c.replaceCount < c.maxReplacePerOrder := by
  rcases c.queueAction_cases nowTs with hhold | ⟨hcancel, -⟩ | ⟨hreplace, -⟩
  · rw [hhold] at h
    cases h
  · rw [hcancel] at h
    cases h
  · exact hreplace.2.1

theorem queueAction_cancel (h : c.queueAction nowTs = .cancel) :
    c.cancelCount < c.maxCancelPerOrder := by
  rcases c.queueAction_cases nowTs with hhold | ⟨-, hcancel⟩ |
      ⟨-, ⟨p, hstep⟩ | hcross | ⟨p, hreplace⟩⟩
  · rw [hhold] at h
    cases h
  · exact hcancel.1
  · rw [hstep] at h
    cases h
  · rw [hcross] at h
    cases h
  · rw [hreplace] at h
    cases h

/-- What `evaluate_action` does besides working the queue. -/
theorem evaluateAction_cases (c : ExecutionController) (nowTs : Nat) :
    c.evaluateAction nowTs = .holdPassive ∨
      c.cooldownElapsed nowTs ∧
        ((∃ price, c.evaluateAction nowTs = .exitPosition price) ∨
          c.evaluateAction nowTs = .abort ∨
          (∃ strategy, c.evaluateAction nowTs = .switchStrategy strategy) ∨
          c.evaluateAction nowTs = c.queueAction nowTs) := by
  unfold evaluateAction
  by_cases hterminal : c.status.isTerminal = true
  · exact .inl (if_pos hterminal)
  rw [if_neg hterminal]
  by_cases hcooled : c.cooldownElapsed nowTs
  · rw [if_neg (not_not.mpr hcooled)]
    refine .inr ⟨hcooled, ?_⟩
    split_ifs
    · exact .inl ⟨_, rfl⟩
    · exact .inr (.inl rfl)
    · exact .inr (.inr (.inl ⟨_, rfl⟩))
    · exact .inr (.inl rfl)
    · exact .inl ⟨_, rfl⟩
    · cases hswitch : c.shouldSwitchStrategy nowTs with
      | some strategy => exact .inr (.inr (.inl ⟨_, rfl⟩))
      | none => exact .inr (.inr (.inr rfl))
  · exact .inl (if_pos hcooled)

/-- An action that has a limit comes from working the queue. -/
theorem evaluateAction_queue
    (h : (c.evaluateAction nowTs).isReplacing = true ∨ c.evaluateAction nowTs = .cancel) :
    c.evaluateAction nowTs = c.queueAction nowTs := by
  rcases c.evaluateAction_cases nowTs with hhold | ⟨-, ⟨price, hexit⟩ | habort |
      ⟨strategy, hswitch⟩ | hqueue⟩
  · simp [hhold, ExecutionAction.isReplacing] at h
  · simp [hexit, ExecutionAction.isReplacing] at h
  · simp [habort, ExecutionAction.isReplacing] at h
  · simp [hswitch, ExecutionAction.isReplacing] at h
  · exact hqueue

theorem evaluateAction_replacing (h : (c.evaluateAction nowTs).isReplacing = true) :
    c.replaceCount < c.maxReplacePerOrder := by
  rw [evaluateAction_queue (.inl h)] at h
  exact queueAction_replacing h

theorem evaluateAction_cancel (h : c.evaluateAction nowTs = .cancel) :
    c.cancelCount < c.maxCancelPerOrder := by
  rw [evaluateAction_queue (.inr h)] at h
  exact queueAction_cancel h

theorem evaluateAction_cooled (h : c.evaluateAction nowTs ≠ .holdPassive) :
    c.cooldownElapsed nowTs := by
  rcases c.evaluateAction_cases nowTs with hhold | ⟨hcooled, -⟩
  · exact absurd hhold h
  · exact hcooled

end Decision

/-! ## The counters -/

/-- The counters and the clock of the last action. -/
structure Spent where
  cancelCount : Nat
  replaceCount : Nat
  lastActionTs : Nat

def spent (c : ExecutionController) : Spent :=
  { cancelCount := c.cancelCount
    replaceCount := c.replaceCount
    lastActionTs := c.lastActionTs }

section Counters

variable (c : ExecutionController)

theorem spent_market (update : MarketUpdate) : (c.onMarketUpdate update).spent = c.spent :=
  c.onMarketUpdate_frame (·.spent) (fun _ => rfl) (fun _ _ _ => rfl) update

theorem spent_event (event : ExecutionControllerEvent) :
    (c.onExecutionEvent event).spent = c.spent := by
  unfold onExecutionEvent
  dsimp only
  split <;> rfl

theorem lastActionTs_action (action : ExecutionAction) (nowTs : Nat) :
    (c.applyAction action nowTs).lastActionTs = nowTs := by
  cases action <;> rfl

theorem replaceCount_action (action : ExecutionAction) (nowTs : Nat) :
    (c.applyAction action nowTs).replaceCount =
      if action.isReplacing then saturatingAddU32 c.replaceCount 1 else c.replaceCount := by
  cases action <;> rfl

theorem cancelCount_action (action : ExecutionAction) (nowTs : Nat) :
    (c.applyAction action nowTs).cancelCount = c.cancelCount ∨
      (c.applyAction action nowTs).cancelCount = saturatingAddU32 c.cancelCount 1 := by
  cases action <;> first | exact .inl rfl | exact .inr rfl

end Counters

/-- The counters and their limits are `u32`s. -/
structure CountsFit (c : ExecutionController) : Prop where
  cancelCount : c.cancelCount < 2 ^ 32
  maxCancel : c.maxCancelPerOrder < 2 ^ 32
  maxReplace : c.maxReplacePerOrder < 2 ^ 32

section Steps

variable {c : ExecutionController}

theorem countsFit_new {cfg : Config} (hcfg : cfg.LimitsFit) (intent : OrderIntent) :
    CountsFit (new intent cfg) where
  cancelCount := Nat.two_pow_pos 32
  maxCancel := hcfg.cancels
  maxReplace := hcfg.replaces

theorem CountsFit.perform (h : c.CountsFit) (call : ControllerCall) :
    (c.perform call).2.CountsFit := by
  have hterms := c.terms_perform call
  have hcount : (c.perform call).2.cancelCount < 2 ^ 32 := by
    refine perform_keeps (P := fun c' => c'.cancelCount < 2 ^ 32) h.cancelCount
      (fun update => ?_) (fun event => ?_) (fun action nowTs => ?_) call
    · exact (congrArg Spent.cancelCount (c.spent_market update)).trans_lt h.cancelCount
    · exact (congrArg Spent.cancelCount (c.spent_event event)).trans_lt h.cancelCount
    · rcases c.cancelCount_action action nowTs with hsame | hmore
      · exact hsame.trans_lt h.cancelCount
      · refine hmore.trans_lt ?_
        unfold saturatingAddU32
        omega
  exact ⟨hcount, (congrArg Terms.maxCancelPerOrder hterms).trans_lt h.maxCancel,
    (congrArg Terms.maxReplacePerOrder hterms).trans_lt h.maxReplace⟩

/-- A counter that only actions raise, and those of a kind at least by one while it
is below its limit: a call takes no more of this kind than it leaves fewer. -/
theorem allowance_step {count limit : ExecutionController → Nat} {kind : ExecutionAction → Bool}
    (hlimit : ∀ call, limit (c.perform call).2 = limit c)
    (hmarket : ∀ update, count (c.onMarketUpdate update) = count c)
    (hevent : ∀ event, count (c.onExecutionEvent event) = count c)
    (hact : ∀ nowTs, (if kind (c.evaluateAction nowTs) then 1 else 0) +
      (limit c - count (c.applyAction (c.evaluateAction nowTs) nowTs)) ≤ limit c - count c)
    (call : ControllerCall) :
    (c.perform call).1.countP (fun t => kind t.action) +
        (limit (c.perform call).2 - count (c.perform call).2) ≤ limit c - count c := by
  rw [hlimit]
  cases call with
  | market update =>
    show 0 + (limit c - count (c.onMarketUpdate update)) ≤ _
    rw [hmarket, zero_add]
  | execution event =>
    show 0 + (limit c - count (c.onExecutionEvent event)) ≤ _
    rw [hevent, zero_add]
  | evaluate nowTs =>
    by_cases hhold : c.evaluateAction nowTs = .holdPassive
    · rw [perform_hold hhold, List.countP_nil, zero_add]
    · obtain ⟨instruction, -, hperform⟩ := perform_act hhold
      rw [hperform, List.countP_singleton]
      exact hact nowTs

/-- A replacement uses up one of those that are left. -/
theorem CountsFit.replaces_step (h : c.CountsFit) (call : ControllerCall) :
    (c.perform call).1.countP (·.action.isReplacing) +
        ((c.perform call).2.maxReplacePerOrder - (c.perform call).2.replaceCount) ≤
      c.maxReplacePerOrder - c.replaceCount := by
  refine allowance_step (fun call => congrArg Terms.maxReplacePerOrder (c.terms_perform call))
    (fun update => congrArg Spent.replaceCount (c.spent_market update))
    (fun event => congrArg Spent.replaceCount (c.spent_event event)) (fun nowTs => ?_) call
  rw [replaceCount_action]
  by_cases hreplacing : (c.evaluateAction nowTs).isReplacing = true
  · have hbelow := evaluateAction_replacing hreplacing
    have hfit := h.maxReplace
    rw [if_pos hreplacing, if_pos hreplacing]
    unfold saturatingAddU32
    omega
  · rw [if_neg hreplacing, if_neg hreplacing, zero_add]

/-- So does a cancellation, and exits and aborts leave no more of them. -/
theorem CountsFit.cancels_step (h : c.CountsFit) (call : ControllerCall) :
    (c.perform call).1.countP (·.action.isCancel) +
        ((c.perform call).2.maxCancelPerOrder - (c.perform call).2.cancelCount) ≤
      c.maxCancelPerOrder - c.cancelCount := by
  refine allowance_step (fun call => congrArg Terms.maxCancelPerOrder (c.terms_perform call))
    (fun update => congrArg Spent.cancelCount (c.spent_market update))
    (fun event => congrArg Spent.cancelCount (c.spent_event event)) (fun nowTs => ?_) call
  have hcount := h.cancelCount
  have hfit := h.maxCancel
  by_cases hcancel : (c.evaluateAction nowTs).isCancel = true
  · have haction := ExecutionAction.isCancel_iff.mp hcancel
    have hbelow := evaluateAction_cancel haction
    rw [if_pos hcancel, haction]
    show 1 + (c.maxCancelPerOrder - saturatingAddU32 c.cancelCount 1) ≤ _
    unfold saturatingAddU32
    omega
  · rw [if_neg hcancel, zero_add]
    rcases c.cancelCount_action (c.evaluateAction nowTs) nowTs with hsame | hmore
    · rw [hsame]
    · rw [hmore]
      unfold saturatingAddU32
      omega

/-- The next action is by the cooldown later than this one. -/
theorem cooldown_step {cooldown : Nat} (hpos : 0 < cooldown) (t : Taken) (c : ExecutionController)
    (call : ControllerCall) (h : c.lastActionTs = t.nowTs ∧ c.actionCooldownMs = cooldown) :
    ((c.perform call).1 = [] ∧
        (c.perform call).2.lastActionTs = t.nowTs ∧
          (c.perform call).2.actionCooldownMs = cooldown) ∨
      ∃ t', (c.perform call).1 = [t'] ∧ t.nowTs + cooldown ≤ t'.nowTs ∧
        (c.perform call).2.lastActionTs = t'.nowTs ∧
          (c.perform call).2.actionCooldownMs = cooldown := by
  have hcooldown : (c.perform call).2.actionCooldownMs = cooldown :=
    (congrArg Terms.actionCooldownMs (c.terms_perform call)).trans h.2
  cases call with
  | market update =>
    exact .inl ⟨rfl, (congrArg Spent.lastActionTs (c.spent_market update)).trans h.1, hcooldown⟩
  | execution event =>
    exact .inl ⟨rfl, (congrArg Spent.lastActionTs (c.spent_event event)).trans h.1, hcooldown⟩
  | evaluate nowTs =>
    by_cases hhold : c.evaluateAction nowTs = .holdPassive
    · rw [perform_hold hhold]
      exact .inl ⟨rfl, h⟩
    · obtain ⟨instruction, -, hperform⟩ := perform_act hhold
      rw [hperform] at hcooldown ⊢
      refine .inr ⟨_, rfl, ?_, c.lastActionTs_action _ nowTs, hcooldown⟩
      -- with a positive cooldown, saturation at zero does not pass the test
      have hcooled : c.actionCooldownMs ≤ nowTs - c.lastActionTs := evaluateAction_cooled hhold
      show t.nowTs + cooldown ≤ nowTs
      omega

end Steps

/-! ## A life -/

/-- Over any calls a controller replaces and cancels within its limits, and waits
for the cooldown between any two actions. -/
theorem actions_within {cfg : Config} (hcfg : cfg.LimitsFit) (intent : OrderIntent)
    (calls : List ControllerCall) :
    ((new intent cfg).taken calls).countP (·.action.isReplacing) ≤ cfg.maxReplacePerOrder ∧
      ((new intent cfg).taken calls).countP (·.action.isCancel) ≤ cfg.maxCancelPerOrder ∧
      (0 < cfg.executionActionCooldownMs →
        ((new intent cfg).taken calls).IsChain fun a b =>
          a.nowTs + cfg.executionActionCooldownMs ≤ b.nowTs) := by
  have hfit := countsFit_new hcfg intent
  have hkept : ∀ (c : ExecutionController) call, c.CountsFit → (c.perform call).2.CountsFit :=
    fun _ call hc => hc.perform call
  have hreplaces := emit_countP_add_le (fun c => c.maxReplacePerOrder - c.replaceCount) hkept
    (fun _ call hc => hc.replaces_step call) hfit calls
  have hcancels := emit_countP_add_le (fun c => c.maxCancelPerOrder - c.cancelCount) hkept
    (fun _ call hc => hc.cancels_step call) hfit calls
  refine ⟨?_, ?_, fun hpos => ?_⟩
  · exact (Nat.le_add_right _ _).trans hreplaces
  · exact (Nat.le_add_right _ _).trans hcancels
  · -- the clock of the last action starts at zero, as if there had been one then
    have hchain := emit_isChain (cooldown_step hpos)
      (o := { nowTs := 0, action := .holdPassive, instruction := .cancel "" "" "" })
      (s := new intent cfg) ⟨rfl, rfl⟩ calls
    exact hchain.of_cons

end ExecutionController

namespace Desk

open ExecutionController

/-- A passive order whose edge outlasts the wait for its fill. -/
def patientIntent : OrderIntent :=
  { calmIntent with
    executionMode := .passive
    edgeHalfLifeSamples := 12
    queueEstimate := { queuePosition := 0.5, volumeAhead := 1, fillProbability := 0.5 } }

/-- Of these evaluations the second comes before the cooldown is over. -/
def patientCalls : List ControllerCall := [.evaluate 1300, .evaluate 1320, .evaluate 1400]

/-- It is cancelled as often as it may be. -/
theorem patient_actions_within :
    ((new patientIntent {}).taken patientCalls).countP (·.action.isCancel) = 2 ∧
      ((new patientIntent {}).taken patientCalls).countP (·.action.isReplacing) ≤ 3 ∧
      ((new patientIntent {}).taken patientCalls).countP (·.action.isCancel) ≤ 2 ∧
      ((new patientIntent {}).taken patientCalls).IsChain fun a b => a.nowTs + 40 ≤ b.nowTs := by
  have hlimits : ({} : Config).LimitsFit := ⟨by decide, by decide⟩
  have h := actions_within hlimits patientIntent patientCalls
  exact ⟨by decide +kernel, h.1, h.2.1, h.2.2 (by decide)⟩

end Desk

end RealTimeTrading.Rtts
