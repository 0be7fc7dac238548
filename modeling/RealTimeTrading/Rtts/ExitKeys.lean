/-
RealTimeTrading.Rtts.ExitKeys — the keys of repeated exits.

A controller exits again while its order is being filled, each time with
all that is filled by then. The key of the request names the order and
nothing else, and `ReserveOrder` takes a key it has seen for the order it
has. What a controller exits with and under which id are registers of the
reports it received, so both can be read off the calls (`exits_apart_iff`).
-/
import RealTimeTrading.Concurrency.Registers
import RealTimeTrading.Data.Peak
import RealTimeTrading.Rtts.ControllerTheorems
import RealTimeTrading.Rtts.ExecutionSmart
import RealTimeTrading.Rtts.FilledAbort

namespace RealTimeTrading.Rtts

open Concurrency RealTimeTrading.Data

/-! ## The request of an exit -/

/-- A request that an exit is posted as, whenever its turn comes. -/
def ExecutionInstruction.PostedAs (instruction : ExecutionInstruction)
    (request : ControlPlaneExecutionRequest) : Prop :=
  instruction.isExit = true ∧ ∃ cfg now now' profile,
    (handleInstruction cfg now now' instruction profile).1 = some (.request request)

theorem ExecutionInstruction.PostedAs.fields {orderId symbol reason : String} {side : Side}
    {size : ℚ} {price : Option ℚ} {request : ControlPlaneExecutionRequest}
    (h : (exitPosition orderId symbol side size price reason).PostedAs request) :
    request.idempotencyKey = orderId ++ "-exit" ∧ request.size = size := by
  obtain ⟨-, cfg, now, now', profile, hpost⟩ := h
  obtain rfl := Post.request.inj (Option.some.inj hpost)
  exact ⟨rfl, rfl⟩

theorem exit_key_inj {orderId orderId' : String} (h : orderId ++ "-exit" = orderId' ++ "-exit") :
    orderId = orderId' := by
  have hlist := congrArg String.toList h
  rw [String.toList_append, String.toList_append, List.append_cancel_right_eq] at hlist
  exact String.toList_inj.mp hlist

/-- Exits with different sizes are requests with different keys. -/
def ExitsApart (taken : List Taken) : Prop :=
  taken.Pairwise fun t t' => ∀ request request',
    t.instruction.PostedAs request → t'.instruction.PostedAs request' →
      request.size ≠ request'.size → request.idempotencyKey ≠ request'.idempotencyKey

/-! ## What the reports say -/

namespace ControllerCall

/-- The quantity filled, where a report brings a new one. -/
def filledQty : ControllerCall → Option ℚ
  | .execution event =>
    if 0 < event.filledQtyDelta then some event.cumulativeFilledQty else none
  | _ => none

/-- The id a report has for the order. -/
def orderId : ControllerCall → Option String
  | .execution event => some event.orderId
  | _ => none

end ControllerCall

/-- The largest quantity reported as filled. -/
def mostFilled (calls : List ControllerCall) : ℚ :=
  peak 0 (calls.filterMap ControllerCall.filledQty)

/-- The id of the order in the last report. -/
def lastOrderId (intent : OrderIntent) (calls : List ControllerCall) : String :=
  (latest ControllerCall.orderId calls).getD (idempotencyKey intent)

namespace ExecutionController

open Controllers

section Registers

variable (c : ExecutionController)

theorem filledQty_perform (call : ControllerCall) :
    (c.perform call).2.fillState.filledQty =
      peak c.fillState.filledQty call.filledQty.toList := by
  cases call with
  | market update => exact congrArg FillProgress.filledQty (c.onMarketUpdate_fillState update)
  | evaluate nowTs =>
    show (c.evaluateAndConvert nowTs).2.fillState.filledQty = c.fillState.filledQty
    rcases c.evaluateAndConvert_cases nowTs with hsame | happlied
    · rw [hsame]
    · rw [happlied, applyAction_fillState]
  | execution event =>
    show (c.onExecutionEvent event).fillState.filledQty = _
    unfold ControllerCall.filledQty
    by_cases hfill : 0 < event.filledQtyDelta
    · simp only [onExecutionEvent, if_pos hfill]
      exact max_comm _ _
    · simp only [onExecutionEvent, if_neg hfill]
      rfl

theorem orderId_perform (call : ControllerCall) :
    (c.perform call).2.orderId = call.orderId.getD c.orderId := by
  cases call with
  | market update => exact c.onMarketUpdate_orderId update
  | execution event => exact c.onExecutionEvent_orderId event
  | evaluate nowTs =>
    show (c.evaluateAndConvert nowTs).2.orderId = c.orderId
    rcases c.evaluateAndConvert_cases nowTs with hsame | happlied
    · rw [hsame]
    · rw [happlied, applyAction_orderId]

/-- The controller has the largest quantity reported. -/
theorem filledQty_after (cfg : Config) (intent : OrderIntent) (calls : List ControllerCall) :
    ((submitted cfg intent).after calls).fillState.filledQty = mostFilled calls :=
  emit_peak (fun c => c.fillState.filledQty) filledQty_perform (submitted cfg intent) calls

/-- It has the id of the last report. -/
theorem orderId_after (cfg : Config) (intent : OrderIntent) (calls : List ControllerCall) :
    ((submitted cfg intent).after calls).orderId = lastOrderId intent calls :=
  emit_register (fun c => c.orderId) orderId_perform (submitted cfg intent) calls

theorem remainderTracked_after (cfg : Config) (intent : OrderIntent)
    (calls : List ControllerCall) : ((submitted cfg intent).after calls).RemainderTracked := by
  have hkept : ∀ (c : ExecutionController) call, c.RemainderTracked →
      (c.perform call).2.RemainderTracked := fun c call hc =>
    perform_keeps hc (fun update => hc.of_fillState (c.onMarketUpdate_fillState update))
      hc.onExecutionEvent
      (fun action nowTs => hc.of_fillState (c.applyAction_fillState action nowTs)) call
  exact emit_invariant hkept ((remainderTracked_kept cfg).new intent) calls

end Registers

/-! ## When a controller exits -/

/-- The state an exit is decided in. -/
def ExitDue (c : ExecutionController) (nowTs : Nat) : Prop :=
  c.status.isTerminal = false ∧ c.cooldownElapsed nowTs ∧ epsilon < c.fillState.filledQty ∧
    (c.Compromised nowTs ∨ (c.expectedFillTimeMs ≤ c.edgeHalfLifeMs ∧ c.shouldExitPosition))

instance (c : ExecutionController) (nowTs : Nat) : Decidable (c.ExitDue nowTs) := by
  unfold ExitDue; infer_instance

section Exit

variable {c : ExecutionController} {nowTs : Nat}

theorem evaluateAction_exit_iff :
    (∃ price, c.evaluateAction nowTs = .exitPosition price) ↔ c.ExitDue nowTs := by
  unfold evaluateAction ExitDue
  cases hterminal : c.status.isTerminal with
  | true => simp
  | false =>
    rw [if_neg Bool.false_ne_true]
    by_cases hcooled : c.cooldownElapsed nowTs
    swap
    · simp [hcooled]
    rw [if_neg (not_not.mpr hcooled)]
    unfold Compromised
    by_cases hcompromised : c.validationApproved = false ∨ c.initialDecision.edgeState = .invalid ∨
        c.queueState.competitionState = .saturated ∨ c.edgeHalfLifeMs < c.elapsedTimeMs nowTs
    · rw [if_pos hcompromised]
      by_cases hfilled : epsilon < c.fillState.filledQty <;> simp [hfilled, hcompromised, hcooled]
    rw [if_neg hcompromised]
    by_cases houtlasts : c.edgeHalfLifeMs < c.expectedFillTimeMs
    · rw [if_pos houtlasts]
      split <;> simp [hcompromised, houtlasts]
    rw [if_neg houtlasts]
    by_cases hexit : c.shouldExitPosition
    · rw [if_pos hexit]
      have hfilled := hexit.1
      simp [hcooled, hfilled, hexit, not_lt.mp houtlasts]
    rw [if_neg hexit]
    refine iff_of_false ?_ (fun ⟨_, _, _, hdue⟩ =>
      hdue.elim hcompromised fun hlasting => hexit hlasting.2)
    rintro ⟨price, hprice⟩
    split at hprice
    · cases hprice
    · exact queueAction_ne_exit c nowTs price hprice

/-- An exit that is due is taken, and posted. -/
theorem ExitDue.posted (h : c.ExitDue nowTs) :
    ∃ t ∈ (c.perform (.evaluate nowTs)).1, ∃ request, t.instruction.PostedAs request := by
  obtain ⟨price, haction⟩ := evaluateAction_exit_iff.mpr h
  have hact : c.evaluateAction nowTs ≠ .holdPassive := by
    rw [haction]
    simp
  obtain ⟨instruction, hconvert, hperform⟩ := perform_act hact
  rw [haction] at hconvert
  obtain rfl := Option.some.inj hconvert
  rw [hperform]
  exact ⟨_, List.mem_singleton_self _, _, rfl, {}, 0, 0, { symbol := c.symbol }, rfl⟩

/-- What is posted is an exit that was due, of all that is filled. -/
theorem RemainderTracked.exit_fields (hc : c.RemainderTracked) {call : ControllerCall} {t : Taken}
    (ht : t ∈ (c.perform call).1) {request : ControlPlaneExecutionRequest}
    (hrequest : t.instruction.PostedAs request) :
    call = .evaluate t.nowTs ∧ c.ExitDue t.nowTs ∧
      request.idempotencyKey = c.orderId ++ "-exit" ∧ request.size = c.fillState.filledQty := by
  obtain ⟨hcall, haction, hconvert⟩ := mem_perform_iff.mp ht
  cases hinstruction : t.instruction with
  | exitPosition orderId symbol side size price reason =>
    rw [hinstruction] at hconvert hrequest
    obtain ⟨hexit, rfl, rfl⟩ := convert_eq_exit hconvert
    have hdue : c.ExitDue t.nowTs := evaluateAction_exit_iff.mp ⟨price, haction.symm.trans hexit⟩
    obtain ⟨hkey, hsize⟩ := hrequest.fields
    exact ⟨hcall, hdue, hkey, hsize.trans (hc.exit_size hdue.2.2.1)⟩
  | _ =>
    have hexit := hrequest.1
    rw [hinstruction] at hexit
    cases hexit

end Exit

/-- An order that is exited again, after more of it is filled, has got
another id. -/
def RenamedBetween (cfg : Config) (intent : OrderIntent) (calls : List ControllerCall) : Prop :=
  ∀ before ts between ts' rest,
    calls = before ++ .evaluate ts :: (between ++ .evaluate ts' :: rest) →
    ((submitted cfg intent).after before).ExitDue ts →
    ((submitted cfg intent).after (before ++ .evaluate ts :: between)).ExitDue ts' →
    mostFilled before ≠ mostFilled (before ++ .evaluate ts :: between) →
      lastOrderId intent before ≠ lastOrderId intent (before ++ .evaluate ts :: between)

/-- In any run of a controller the exits of different sizes are posted under
different keys exactly if the order is renamed before each. -/
theorem exits_apart_iff (cfg : Config) (intent : OrderIntent) (calls : List ControllerCall) :
    ExitsApart ((submitted cfg intent).taken calls) ↔ RenamedBetween cfg intent calls := by
  have htracked := remainderTracked_after cfg intent
  unfold ExitsApart
  rw [taken_pairwise_iff]
  constructor
  · intro h before ts between ts' rest hcalls hdue hdue' hmore
    obtain ⟨t, ht, request, hrequest⟩ := hdue.posted
    obtain ⟨t', ht', request', hrequest'⟩ := hdue'.posted
    obtain ⟨-, -, hkey, hsize⟩ := (htracked before).exit_fields ht hrequest
    obtain ⟨-, -, hkey', hsize'⟩ := (htracked _).exit_fields ht' hrequest'
    have hkeys := h before _ between _ rest hcalls t ht t' ht' request request' hrequest hrequest'
    rw [hsize, hsize', hkey, hkey', filledQty_after, filledQty_after, orderId_after,
      orderId_after] at hkeys
    intro hsame
    exact hkeys hmore (congrArg (· ++ "-exit") hsame)
  · intro h before call between call' rest hcalls t ht t' ht' request request' hrequest hrequest'
    obtain ⟨rfl, hdue, hkey, hsize⟩ := (htracked before).exit_fields ht hrequest
    obtain ⟨rfl, hdue', hkey', hsize'⟩ := (htracked _).exit_fields ht' hrequest'
    rw [hsize, hsize', hkey, hkey', filledQty_after, filledQty_after, orderId_after, orderId_after]
    intro hmore hkeys
    exact h before _ between _ rest hcalls hdue hdue' hmore (exit_key_inj hkeys)

end ExecutionController

namespace Desk

open Controllers ExecutionController

/-- The calm order is exited with 0.4 of it filled, and then 0.7 is. -/
def filledOn : List ControllerCall :=
  [.execution (fillReport "ex-1" 0.4 1040), .evaluate 1400,
    .execution (fillReport "ex-1" 0.7 1420), .evaluate 1500]

/-- The exit of 0.7 has the key of that of 0.4. -/
theorem exits_under_one_key : ¬ ExitsApart ((submitted {} calmIntent).taken filledOn) := by
  intro h
  have hdue : ((submitted {} calmIntent).after (filledOn.take 1)).ExitDue 1400 := by
    decide +kernel
  have hdue' : ((submitted {} calmIntent).after (filledOn.take 3)).ExitDue 1500 := by
    decide +kernel
  obtain ⟨t, ht, request, hrequest⟩ := hdue.posted
  obtain ⟨t', ht', request', hrequest'⟩ := hdue'.posted
  have htracked := remainderTracked_after {} calmIntent
  obtain ⟨-, -, hkey, hsize⟩ := (htracked _).exit_fields ht hrequest
  obtain ⟨-, -, hkey', hsize'⟩ := (htracked _).exit_fields ht' hrequest'
  have hid : ((submitted {} calmIntent).after (filledOn.take 1)).orderId =
      ((submitted {} calmIntent).after (filledOn.take 3)).orderId := by decide +kernel
  refine taken_pairwise_iff.mp h (filledOn.take 1) _ [.execution (fillReport "ex-1" 0.7 1420)] _ []
    rfl t ht t' ht' request request' hrequest hrequest' ?_ ?_
  · rw [hsize, hsize']
    decide +kernel
  · rw [hkey, hkey', hid]

end Desk

end RealTimeTrading.Rtts
