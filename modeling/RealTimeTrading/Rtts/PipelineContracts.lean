/-
RealTimeTrading.Rtts.PipelineContracts — what a contract asks of each stage
of the pipeline.

A message is allowed on the channel it is sent on. The rules below name the
channels, so that a contract is checked against the steps of the stages.
-/
import RealTimeTrading.Concurrency.Contracts
import RealTimeTrading.Rtts.Pipeline

namespace RealTimeTrading.Rtts.Pipeline

open Concurrency

variable {K : Contract Task Chan Msg State}

/-- What a stage sends on its channel is allowed there. -/
theorem allows_of_sendOn {c : Chan} {messages : List (Msg c)}
    (h : ∀ m ∈ messages, K.allows c m) : ∀ o ∈ messages.flatMap (sendOn c), K.allows o.1 o.2 := by
  intro o ho
  obtain ⟨m, hm, hsent⟩ := List.mem_flatMap.mp ho
  rw [List.mem_singleton.mp hsent]
  exact h m hm

/-- What the fan-out sends goes to the market channels. -/
theorem allows_of_fanout {update : MarketUpdate} (hmicro : K.allows .microUpdate update)
    (htruth : K.allows .truthMarket update) (hcontroller : K.allows .controllerMarket update) :
    ∀ o ∈ (fanoutStep () update).1.flatMap fun m => [m], K.allows o.1 o.2 := by
  rw [List.flatMap_singleton']
  exact List.forall_mem_cons.mpr ⟨hmicro, List.forall_mem_cons.mpr
    ⟨htruth, List.forall_mem_cons.mpr ⟨hcontroller, fun _ h => absurd h List.not_mem_nil⟩⟩⟩

theorem allows_of_external {payload : Wire.ControlPlaneExecutionUpdate}
    (hevent : K.allows .controllerExec (Wire.handleUpdate payload).1)
    (hfill : ∀ fill ∈ (Wire.handleUpdate payload).2, K.allows .truthFill (truthFill fill) ∧
      K.allows .fill fill.forPosition) :
    ∀ o ∈ (externalStep () payload).1.flatMap fun m => [m], K.allows o.1 o.2 := by
  rw [List.flatMap_singleton']
  refine List.forall_mem_cons.mpr ⟨hevent, fun o ho => ?_⟩
  obtain ⟨fill, hmem, hsent⟩ := List.mem_flatMap.mp ho
  obtain ⟨htruth, hposition⟩ := hfill fill (Option.mem_toList.mp hmem)
  rcases hsent with _ | ⟨_, _ | ⟨_, hsent⟩⟩
  · exact htruth
  · exact hposition
  · cases hsent

theorem allows_of_controller {cfg : Config} {s : Controllers} {input : ControllerInput}
    (hinstruction : ∀ sent ∈ (Controllers.step cfg s input).1.instructions,
      K.allows .executionAction sent)
    (hfeedback : ∀ failed ∈ (Controllers.step cfg s input).1.feedback,
      K.allows .controllerFeedback failed) :
    ∀ o ∈ (controllerStep cfg s input).1.flatMap fun m => [m], K.allows o.1 o.2 := by
  rw [List.flatMap_singleton']
  intro o ho
  rcases List.mem_append.mp ho with hsent | hsent
  · obtain ⟨sent, hmem, rfl⟩ := List.mem_map.mp hsent
    exact hinstruction sent hmem
  · obtain ⟨failed, hmem, rfl⟩ := List.mem_map.mp hsent
    exact hfeedback failed hmem

theorem allows_of_truth {finalized : List Finalized}
    (h : ∀ done ∈ finalized, K.allows .learning done.sample ∧
      K.allows .learningReversal done.sample) :
    ∀ o ∈ finalized.flatMap fun done =>
        ([⟨.learning, done.sample⟩, ⟨.learningReversal, done.sample⟩] : List Send),
      K.allows o.1 o.2 := by
  intro o ho
  obtain ⟨done, hmem, hsent⟩ := List.mem_flatMap.mp ho
  rcases hsent with _ | ⟨_, _ | ⟨_, hsent⟩⟩
  · exact (h done hmem).1
  · exact (h done hmem).2
  · cases hsent

end RealTimeTrading.Rtts.Pipeline
