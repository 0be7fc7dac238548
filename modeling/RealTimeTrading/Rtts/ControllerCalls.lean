/-
RealTimeTrading.Rtts.ControllerCalls — the life of one controller.

A controller sees market updates, execution events and evaluations, in
any order. `after` is the controller they leave, `taken` what it has done:
each action other than `holdPassive`, with the clock it was decided by
and the instruction it became. What the order was made with never changes
(`SameOrder`). Every controller of the loop has lived such a life
(`run_lived`), so what holds over any calls holds there.
-/
import RealTimeTrading.Concurrency.Emitting
import RealTimeTrading.Rtts.ControllerRuns
import RealTimeTrading.Rtts.ControllerTheorems
import RealTimeTrading.Rtts.ForcedExit

namespace RealTimeTrading.Rtts

open Concurrency

inductive ControllerCall where
  | market (update : MarketUpdate)
  | execution (event : ExecutionControllerEvent)
  | evaluate (nowTs : Nat)

/-- An action that was taken. -/
structure Taken where
  nowTs : Nat
  action : ExecutionAction
  instruction : ExecutionInstruction

namespace ExecutionController

def perform (c : ExecutionController) : ControllerCall → List Taken × ExecutionController
  | .market update => ([], c.onMarketUpdate update)
  | .execution event => ([], c.onExecutionEvent event)
  | .evaluate nowTs =>
    let (instruction, c') := c.evaluateAndConvert nowTs
    (instruction.toList.map fun i => ⟨nowTs, c.evaluateAction nowTs, i⟩, c')

/-- The controller these calls leave. -/
def after (c : ExecutionController) (calls : List ControllerCall) : ExecutionController :=
  (emit perform c calls).2

/-- The actions taken over these calls, in order. -/
def taken (c : ExecutionController) (calls : List ControllerCall) : List Taken :=
  (emit perform c calls).1

section Evaluation

variable (c : ExecutionController)

theorem after_append (first second : List ControllerCall) :
    c.after (first ++ second) = (c.after first).after second := by
  unfold after
  rw [emit_append]

theorem after_concat (calls : List ControllerCall) (call : ControllerCall) :
    c.after (calls ++ [call]) = ((c.after calls).perform call).2 := by
  rw [after_append]
  rfl

variable {c}

/-- An evaluation that holds does nothing. -/
theorem perform_hold {nowTs : Nat} (h : c.evaluateAction nowTs = .holdPassive) :
    c.perform (.evaluate nowTs) = ([], c) := by
  simp only [perform, evaluateAndConvert, h, convert, Option.toList_none, List.map_nil]

/-- Any other takes its action. -/
theorem perform_act {nowTs : Nat} (h : c.evaluateAction nowTs ≠ .holdPassive) :
    ∃ instruction, convert (c.evaluateAction nowTs) c = some instruction ∧
      c.perform (.evaluate nowTs) = ([⟨nowTs, c.evaluateAction nowTs, instruction⟩],
        c.applyAction (c.evaluateAction nowTs) nowTs) := by
  cases hconvert : convert (c.evaluateAction nowTs) c with
  | none => exact absurd (convert_eq_none_iff.mp hconvert) h
  | some instruction =>
    refine ⟨instruction, rfl, ?_⟩
    simp only [perform, evaluateAndConvert, hconvert]
    rfl

/-- What a controller has, and every operation leaves it with, a call does. -/
theorem perform_keeps {P : ExecutionController → Prop} (hsame : P c)
    (hmarket : ∀ update, P (c.onMarketUpdate update))
    (hevent : ∀ event, P (c.onExecutionEvent event))
    (haction : ∀ action nowTs, P (c.applyAction action nowTs)) (call : ControllerCall) :
    P (c.perform call).2 := by
  cases call with
  | market update => exact hmarket update
  | execution event => exact hevent event
  | evaluate nowTs =>
    by_cases hhold : c.evaluateAction nowTs = .holdPassive
    · rw [perform_hold hhold]
      exact hsame
    · obtain ⟨instruction, -, hperform⟩ := perform_act hhold
      rw [hperform]
      exact haction _ nowTs

/-- An action is taken when it is evaluated. -/
theorem mem_perform_iff {call : ControllerCall} {t : Taken} :
    t ∈ (c.perform call).1 ↔
      call = .evaluate t.nowTs ∧ t.action = c.evaluateAction t.nowTs ∧
        convert t.action c = some t.instruction := by
  constructor
  · intro ht
    cases call with
    | market update => cases ht
    | execution event => cases ht
    | evaluate nowTs =>
      by_cases hhold : c.evaluateAction nowTs = .holdPassive
      · rw [perform_hold hhold] at ht
        cases ht
      · obtain ⟨instruction, hconvert, hperform⟩ := perform_act hhold
        rw [hperform] at ht
        obtain rfl := List.mem_singleton.mp ht
        exact ⟨rfl, rfl, hconvert⟩
  · rintro ⟨rfl, haction, hconvert⟩
    have hact : c.evaluateAction t.nowTs ≠ .holdPassive := by
      intro hhold
      rw [haction, hhold] at hconvert
      cases hconvert
    obtain ⟨instruction, hconvert', hperform⟩ := perform_act hact
    rw [← haction, hconvert] at hconvert'
    obtain rfl := Option.some.inj hconvert'
    rw [hperform, ← haction]
    exact List.mem_singleton_self _

/-- No evaluation takes two actions. -/
theorem perform_pairwise (R : Taken → Taken → Prop) (call : ControllerCall) :
    (c.perform call).1.Pairwise R := by
  cases call with
  | market update => exact List.Pairwise.nil
  | execution event => exact List.Pairwise.nil
  | evaluate nowTs =>
    by_cases hhold : c.evaluateAction nowTs = .holdPassive
    · rw [perform_hold hhold]
      exact List.Pairwise.nil
    · obtain ⟨instruction, -, hperform⟩ := perform_act hhold
      rw [hperform]
      exact List.pairwise_singleton R _

/-- What holds of any two actions of a run is what holds of any two evaluations. -/
theorem taken_pairwise_iff {R : Taken → Taken → Prop} {calls : List ControllerCall} :
    (c.taken calls).Pairwise R ↔
      ∀ before call between call' rest, calls = before ++ call :: (between ++ call' :: rest) →
        ∀ t ∈ ((c.after before).perform call).1,
          ∀ t' ∈ ((c.after (before ++ call :: between)).perform call').1, R t t' := by
  unfold taken
  rw [emit_pairwise_iff]
  exact and_iff_right fun before call rest _ => perform_pairwise R call

end Evaluation

/-! ## What stays as the order was made -/

structure Terms where
  symbol : String
  side : Side
  initialDecision : ScoredDecision
  startTs : Nat
  expectedFillTimeMs : ℚ
  edgeHalfLifeMs : ℚ
  idempotencyKey : String
  actionCooldownMs : Nat
  maxCancelPerOrder : Nat
  maxReplacePerOrder : Nat
  validationApproved : Bool

def terms (c : ExecutionController) : Terms :=
  { symbol := c.symbol
    side := c.side
    initialDecision := c.initialDecision
    startTs := c.startTs
    expectedFillTimeMs := c.expectedFillTimeMs
    edgeHalfLifeMs := c.edgeHalfLifeMs
    idempotencyKey := c.idempotencyKey
    actionCooldownMs := c.actionCooldownMs
    maxCancelPerOrder := c.maxCancelPerOrder
    maxReplacePerOrder := c.maxReplacePerOrder
    validationApproved := c.validationApproved }

section Terms

variable (c : ExecutionController)

theorem terms_market (update : MarketUpdate) : (c.onMarketUpdate update).terms = c.terms :=
  c.onMarketUpdate_frame (·.terms) (fun _ => rfl) (fun _ _ _ => rfl) update

theorem terms_event (event : ExecutionControllerEvent) :
    (c.onExecutionEvent event).terms = c.terms := by
  unfold onExecutionEvent
  dsimp only
  split <;> rfl

theorem terms_action (action : ExecutionAction) (nowTs : Nat) :
    (c.applyAction action nowTs).terms = c.terms := by
  cases action <;> rfl

theorem terms_perform (call : ControllerCall) : (c.perform call).2.terms = c.terms :=
  perform_keeps (P := fun c' => c'.terms = c.terms) rfl (terms_market c) (terms_event c)
    (terms_action c) call

theorem terms_after (calls : List ControllerCall) : (c.after calls).terms = c.terms := by
  have hkept : ∀ (s : ExecutionController) call, s.terms = c.terms →
      (s.perform call).2.terms = c.terms := fun s call hs => (terms_perform s call).trans hs
  exact emit_invariant hkept rfl calls

end Terms

end ExecutionController

/-! ## The controllers of the loop -/

namespace Controllers

open ExecutionController

/-- A controller of the loop was made for an order, and has been called since. -/
theorem run_lived (cfg : Config) {inputs : List ControllerInput} {key : String}
    {c : ExecutionController} (h : (run cfg inputs).2.controllers.lookup key = some c) :
    ∃ intent calls, c = (submitted cfg intent).after calls := by
  induction inputs using List.reverseRecOn generalizing c with
  | nil => cases h
  | append_singleton inputs input ih =>
    rw [run_concat] at h
    rcases step_lookup h with hold | ⟨intent, -, -, rfl⟩ | ⟨update, before, -, hbefore, rfl⟩ |
        ⟨update, before, -, hbefore, rfl⟩
    · exact ih hold
    · exact ⟨intent, [], rfl⟩
    · obtain ⟨intent, calls, rfl⟩ := ih hbefore
      refine ⟨intent, calls ++ [.execution update, .evaluate update.eventTs], ?_⟩
      rw [after_append]
      rfl
    · obtain ⟨intent, calls, rfl⟩ := ih hbefore
      refine ⟨intent, calls ++ [.market update, .evaluate (marketTimestamp update)], ?_⟩
      rw [after_append]
      rfl

end Controllers

/-! ## An order -/

namespace Desk

/-- The order a calm signal calls for: buy one at 100. -/
def calmIntent : OrderIntent := intent {} .buy 1 false calmSignal {}

/-- A report that so much of an order of one is filled. -/
def fillReport (orderId : String) (quantity : ℚ) (ts : Nat) : ExecutionControllerEvent :=
  { orderId := orderId
    idempotencyKey := none
    symbol := "BTCUSDT"
    status := .partially
    filledQtyDelta := quantity
    cumulativeFilledQty := quantity
    remainingQty := 1 - quantity
    partialFillRatio := quantity
    slippageBps := 0
    competitionFlag := .none
    latencyUs := 1000
    eventTs := ts }

/-- A book with one level on each side. -/
def touch (bid ask : ℚ) (ts : Nat) : MarketUpdate :=
  .bookDelta { timestamp := ts, bids := [⟨bid, 1⟩], asks := [⟨ask, 1⟩] }

end Desk

end RealTimeTrading.Rtts
