/-
RealTimeTrading.Rtts.FillProgress — what a controller makes of the fills
of its order, in whatever order they arrive.

Of the quantity filled it keeps the largest it was told of, and of the
quantity open the last. The two make up the order as long as no report
arrives after one that is ahead of it (`progress_iff`).
-/
import RealTimeTrading.Data.Peak
import RealTimeTrading.Rtts.ControllerTheorems
import RealTimeTrading.Rtts.ControllerCalls

namespace RealTimeTrading.Rtts

open Concurrency RealTimeTrading.Data

/-- A report of a fill of an order of this size. -/
structure ExecutionControllerEvent.Fills (size : ℚ) (e : ExecutionControllerEvent) : Prop where
  delta : 0 < e.filledQtyDelta
  pos : 0 < e.cumulativeFilledQty
  le_size : e.cumulativeFilledQty ≤ size
  remaining : e.remainingQty = size - e.cumulativeFilledQty

/-- The quantities filled, as the reports have them. -/
def reported (events : List ExecutionControllerEvent) : List ℚ :=
  events.map (·.cumulativeFilledQty)

namespace ExecutionController

/-- The controller after these reports. -/
def informed (c : ExecutionController) (events : List ExecutionControllerEvent) :
    ExecutionController := c.after (events.map .execution)

theorem informed_concat (c : ExecutionController) (events : List ExecutionControllerEvent)
    (e : ExecutionControllerEvent) :
    c.informed (events ++ [e]) = (c.informed events).onExecutionEvent e := by
  unfold informed
  rw [List.map_append, List.map_singleton, after_concat]
  rfl

/-- What a fill leaves. -/
theorem onExecutionEvent_fills {size : ℚ} {e : ExecutionControllerEvent} (he : e.Fills size)
    (c : ExecutionController) :
    (c.onExecutionEvent e).fillState.filledQty =
        max c.fillState.filledQty e.cumulativeFilledQty ∧
      (c.onExecutionEvent e).fillState.remainingQty = size - e.cumulativeFilledQty := by
  have hremaining : max e.remainingQty 0 = size - e.cumulativeFilledQty := by
    rw [he.remaining]
    exact max_eq_left (sub_nonneg.mpr he.le_size)
  unfold onExecutionEvent
  simp only [if_pos he.delta]
  exact ⟨max_comm _ _, hremaining⟩

/-- The quantity filled is the largest reported, the quantity open that of the last
report. -/
theorem fillState_informed (cfg : Config) (intent : OrderIntent)
    {events : List ExecutionControllerEvent} (hfills : ∀ e ∈ events, e.Fills intent.request.size) :
    ((new intent cfg).informed events).fillState.filledQty = peak 0 (reported events) ∧
      ((new intent cfg).informed events).fillState.remainingQty =
        intent.request.size - (reported events).getLastD 0 := by
  induction events using List.reverseRecOn with
  | nil => exact ⟨rfl, (sub_zero _).symm⟩
  | append_singleton events e ih =>
    obtain ⟨hfilled, -⟩ := ih fun e' he' => hfills e' (List.mem_append_left _ he')
    have he := hfills e (List.mem_append_right _ (List.mem_singleton_self e))
    obtain ⟨hfilled', hremaining'⟩ :=
      onExecutionEvent_fills he ((new intent cfg).informed events)
    have hreported : reported (events ++ [e]) = reported events ++ [e.cumulativeFilledQty] := by
      unfold reported
      rw [List.map_append, List.map_singleton]
    rw [informed_concat, hreported, peak_concat, List.getLastD_concat, ← hfilled]
    exact ⟨hfilled', hremaining'⟩

/-- After each of the reports of an order's fills, in any order and with repeats,
the controller has the largest quantity reported and the rest of the order open,
exactly if they arrive in the order of their quantities. -/
theorem progress_iff (cfg : Config) (intent : OrderIntent)
    {events : List ExecutionControllerEvent} (hfills : ∀ e ∈ events, e.Fills intent.request.size) :
    (∀ seen, seen <+: events →
        ((new intent cfg).informed seen).fillState.filledQty = peak 0 (reported seen) ∧
          ((new intent cfg).informed seen).fillState.remainingQty =
            intent.request.size - ((new intent cfg).informed seen).fillState.filledQty) ↔
      (reported events).Pairwise (· ≤ ·) := by
  have hfloor : ∀ q ∈ reported events, 0 ≤ q := by
    intro q hq
    obtain ⟨e, he, rfl⟩ := List.mem_map.mp hq
    exact (hfills e he).pos.le
  rw [← atPeak_iff hfloor]
  constructor
  · intro h p hp
    obtain ⟨seen, hseen, rfl⟩ := List.prefix_map_iff.mp hp
    obtain ⟨hfilled, hremaining⟩ :=
      fillState_informed cfg intent fun e he => hfills e (hseen.subset he)
    have hrest := (h seen hseen).2
    rw [hremaining, hfilled] at hrest
    exact sub_right_injective hrest
  · intro h seen hseen
    obtain ⟨hfilled, hremaining⟩ :=
      fillState_informed cfg intent fun e he => hfills e (hseen.subset he)
    refine ⟨hfilled, ?_⟩
    rw [hremaining, hfilled, ← h (reported seen) (hseen.map _)]

end ExecutionController

namespace Desk

open ExecutionController

/-- The report of 0.7 overtakes that of 0.4. -/
def overtaken : List ExecutionControllerEvent :=
  [fillReport "ex-1" 0.7 1040, fillReport "ex-1" 0.4 1030]

theorem overtaken_fills : ∀ e ∈ overtaken, e.Fills calmIntent.request.size := by
  simp only [overtaken, List.forall_mem_cons]
  refine ⟨?_, ?_, by simp⟩ <;> constructor <;> decide +kernel

/-- Of the order of one, 0.7 is filled and 0.6 is open. -/
theorem overtaken_progress : ¬ ∀ seen, seen <+: overtaken →
    ((new calmIntent {}).informed seen).fillState.filledQty = peak 0 (reported seen) ∧
      ((new calmIntent {}).informed seen).fillState.remainingQty =
        1 - ((new calmIntent {}).informed seen).fillState.filledQty := by
  intro h
  exact absurd (h overtaken List.prefix_rfl) (by decide +kernel)

/-- The same reports, seen through the general theorem. -/
theorem progress_iff_overtaken :
    (∀ seen, seen <+: overtaken →
        ((new calmIntent {}).informed seen).fillState.filledQty = peak 0 (reported seen) ∧
          ((new calmIntent {}).informed seen).fillState.remainingQty =
            1 - ((new calmIntent {}).informed seen).fillState.filledQty) ↔
      (reported overtaken).Pairwise (· ≤ ·) :=
  progress_iff {} calmIntent overtaken_fills

end Desk

end RealTimeTrading.Rtts
