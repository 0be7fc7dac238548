/-
RealTimeTrading.Rtts.FilledAbort — orders aborted with a part filled.

`evaluate_action` can abort in two places. The first looks at the filled
quantity and exits instead; the second, for an order expected to outlast
its edge, does not. Both durations are of the intent and never change, so
an order that is not expected to outlast its edge is never aborted once
it is filled, and any other is as soon as nothing else stops it.
-/
import RealTimeTrading.Rtts.ControllerCalls

namespace RealTimeTrading.Rtts

namespace ExecutionController

section Decision

variable (c : ExecutionController) (nowTs : Nat)

/-- The first test of `evaluate_action`: not to be traded on any longer. -/
def Compromised : Prop :=
  c.validationApproved = false ∨ c.initialDecision.edgeState = .invalid ∨
    c.queueState.competitionState = .saturated ∨ c.edgeHalfLifeMs < c.elapsedTimeMs nowTs

instance : Decidable (c.Compromised nowTs) := by unfold Compromised; infer_instance

/-- Something that comes before the second abort, or instead of it. -/
def Spared : Prop :=
  c.status.isTerminal = true ∨ ¬ c.cooldownElapsed nowTs ∨ c.Compromised nowTs ∨
    (c.shouldSwitchStrategy nowTs).isSome = true

instance : Decidable (c.Spared nowTs) := by unfold Spared; infer_instance

theorem queueAction_ne_abort : c.queueAction nowTs ≠ .abort := c.queueAction_ne nowTs (by simp)

variable {c nowTs}

/-- A filled order is aborted in the second place, or not at all. -/
theorem evaluateAction_ne_abort_iff (hfilled : epsilon < c.fillState.filledQty) :
    c.evaluateAction nowTs ≠ .abort ↔
      c.expectedFillTimeMs ≤ c.edgeHalfLifeMs ∨ c.Spared nowTs := by
  unfold evaluateAction Spared
  by_cases hterminal : c.status.isTerminal = true
  · rw [if_pos hterminal]
    exact iff_of_true (by simp) (.inr (.inl hterminal))
  rw [if_neg hterminal]
  by_cases hcooled : c.cooldownElapsed nowTs
  swap
  · rw [if_pos hcooled]
    exact iff_of_true (by simp) (.inr (.inr (.inl hcooled)))
  rw [if_neg (not_not.mpr hcooled)]
  unfold Compromised
  by_cases hcompromised : c.validationApproved = false ∨ c.initialDecision.edgeState = .invalid ∨
      c.queueState.competitionState = .saturated ∨ c.edgeHalfLifeMs < c.elapsedTimeMs nowTs
  · rw [if_pos hcompromised, if_pos hfilled]
    exact iff_of_true (by simp) (.inr (.inr (.inr (.inl hcompromised))))
  rw [if_neg hcompromised]
  by_cases houtlasts : c.edgeHalfLifeMs < c.expectedFillTimeMs
  · rw [if_pos houtlasts]
    by_cases hswitch : (c.shouldSwitchStrategy nowTs).isSome = true
    · rw [if_pos hswitch]
      exact iff_of_true (by simp) (.inr (.inr (.inr (.inr hswitch))))
    · rw [if_neg hswitch]
      refine iff_of_false (fun h => h rfl) ?_
      rintro (hlasts | hdone | hwaiting | hstopped | hswitched)
      · exact absurd houtlasts (not_lt.mpr hlasts)
      · exact hterminal hdone
      · exact hwaiting hcooled
      · exact hcompromised hstopped
      · exact hswitch hswitched
  · rw [if_neg houtlasts]
    refine iff_of_true ?_ (.inl (not_lt.mp houtlasts))
    split_ifs with hexit
    · simp
    · cases c.shouldSwitchStrategy nowTs with
      | some strategy => simp
      | none => exact c.queueAction_ne_abort nowTs

end Decision

/-- Whatever the controller of an order has been through, with a part of the order
filled it does not abort exactly if the intent's edge was to last until the fill,
or something spares the order for now. -/
theorem filled_not_aborted_iff (cfg : Config) (intent : OrderIntent) (calls : List ControllerCall)
    (nowTs : Nat) (hfilled : epsilon < ((new intent cfg).after calls).fillState.filledQty) :
    ((new intent cfg).after calls).evaluateAction nowTs ≠ .abort ↔
      Rtts.expectedFillTimeMs intent ≤ Rtts.edgeHalfLifeMs intent ∨
        ((new intent cfg).after calls).Spared nowTs := by
  have hterms := (new intent cfg).terms_after calls
  have hfillTime : ((new intent cfg).after calls).expectedFillTimeMs =
      Rtts.expectedFillTimeMs intent := congrArg Terms.expectedFillTimeMs hterms
  have hhalfLife : ((new intent cfg).after calls).edgeHalfLifeMs = Rtts.edgeHalfLifeMs intent :=
    congrArg Terms.edgeHalfLifeMs hterms
  rw [evaluateAction_ne_abort_iff hfilled, hfillTime, hhalfLife]

end ExecutionController

namespace Desk

open ExecutionController

/-- Of the calm order, 0.4 is filled after 40 ms. -/
def filledEarly : List ControllerCall := [.execution (fillReport "ex-1" 0.4 1040)]

/-- It is aborted after 50. -/
theorem filled_order_aborted :
    epsilon < ((new calmIntent {}).after filledEarly).fillState.filledQty ∧
      ¬ ((new calmIntent {}).after filledEarly).evaluateAction 1050 ≠ .abort := by
  decide +kernel

/-- The same order, seen through the general theorem. -/
theorem filled_not_aborted_iff_calm :
    ((new calmIntent {}).after filledEarly).evaluateAction 1050 ≠ .abort ↔
      expectedFillTimeMs calmIntent ≤ edgeHalfLifeMs calmIntent ∨
        ((new calmIntent {}).after filledEarly).Spared 1050 :=
  filled_not_aborted_iff {} calmIntent filledEarly 1050 (by decide +kernel)

end Desk

end RealTimeTrading.Rtts
