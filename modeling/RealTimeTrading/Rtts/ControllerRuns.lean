/-
RealTimeTrading.Rtts.ControllerRuns — the controllers a run has filed.

`ordersOf` lists the intents of a run. A controller under a key was filed
by one of them (`orderOf_lookup`); execution events and market updates only
change controllers that are there.
-/
import Mathlib.Data.List.Induction
import RealTimeTrading.Rtts.Attempts

namespace RealTimeTrading.Rtts

open Concurrency

namespace Controllers

/-- The intents among the inputs, in order. -/
def ordersOf (inputs : List ControllerInput) : List OrderIntent :=
  inputs.filterMap fun input =>
    match input with
    | .order intent => some intent
    | .execution _ | .market _ => none

theorem run_concat (cfg : Config) (inputs : List ControllerInput) (input : ControllerInput) :
    (run cfg (inputs ++ [input])).2 = (step cfg (run cfg inputs).2 input).2 := by
  unfold run
  rw [emit_append]
  rfl

theorem ordersOf_append (first second : List ControllerInput) :
    ordersOf (first ++ second) = ordersOf first ++ ordersOf second := List.filterMap_append

theorem mem_ordersOf {inputs : List ControllerInput} {intent : OrderIntent} :
    intent ∈ ordersOf inputs ↔ .order intent ∈ inputs := by
  unfold ordersOf
  rw [List.mem_filterMap]
  constructor
  · rintro ⟨input, hmem, hsome⟩
    cases input with
    | order intent' =>
      obtain rfl := Option.some.inj hsome
      exact hmem
    | execution update => cases hsome
    | market update => cases hsome
  · exact fun hmem => ⟨_, hmem, rfl⟩

theorem ordersOf_map_order (intents : List OrderIntent) :
    ordersOf (intents.map .order) = intents := by
  unfold ordersOf
  rw [List.filterMap_map]
  exact List.filterMap_some

/-- A controller under a key was filed by an order of the run. -/
theorem orderOf_lookup (cfg : Config) {inputs : List ControllerInput} {key : String}
    {c : ExecutionController} (h : (run cfg inputs).2.controllers.lookup key = some c) :
    ∃ intent ∈ ordersOf inputs, key = idempotencyKey intent := by
  induction inputs using List.reverseRecOn generalizing c with
  | nil => cases h
  | append_singleton inputs input ih =>
    have hbefore : ∀ {c}, (run cfg inputs).2.controllers.lookup key = some c →
        ∃ intent ∈ ordersOf (inputs ++ [input]), key = idempotencyKey intent := by
      intro c hc
      obtain ⟨intent, hmem, hkey⟩ := ih hc
      rw [ordersOf_append]
      exact ⟨intent, List.mem_append_left _ hmem, hkey⟩
    rw [run_concat] at h
    rcases step_lookup h with hold | ⟨intent, rfl, hkey, -⟩ | ⟨update, c, -, hc, -⟩ |
        ⟨update, c, -, hc, -⟩
    · exact hbefore hold
    · rw [ordersOf_append]
      exact ⟨intent, List.mem_append_right _ (List.mem_singleton_self _), hkey⟩
    · exact hbefore hc
    · exact hbefore hc

end Controllers

end RealTimeTrading.Rtts
