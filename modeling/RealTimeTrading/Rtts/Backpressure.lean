/-
RealTimeTrading.Rtts.Backpressure — the controller loop when the action
channel is full.

None of the three calls of `try_send` looks at its answer before it goes
on, so the loop makes the same attempts whatever the channel does:
`slots n` says whether the `n`-th of them found room. A controller is
charged for its action either way, and a new one is `Sent` either way;
the state keeps step with the channel exactly when nothing is dropped but
actions that change nothing (`inStep_iff`).
-/
import RealTimeTrading.Rtts.ForcedExit
import RealTimeTrading.Rtts.ControllerTheorems
import RealTimeTrading.Rtts.ControllerRuns
import Mathlib.Data.List.Induction

namespace RealTimeTrading.Rtts

open Concurrency

/-! ## What an action leaves behind -/

/-- What an action may change on its controller. -/
structure Footprint where
  cancelCount : Nat
  replaceCount : Nat
  currentPrice : Option ℚ
  currentStrategy : ExecutionStrategy
  canceled : Bool
  deriving DecidableEq

namespace ExecutionController

def footprint (c : ExecutionController) : Footprint :=
  { cancelCount := c.cancelCount
    replaceCount := c.replaceCount
    currentPrice := c.currentPrice
    currentStrategy := c.currentStrategy
    canceled := c.status == .canceled }

/-- The action has nothing to change: its counter is full, its price and its
strategy are the ones the controller has. -/
def Leaves (c : ExecutionController) : ExecutionAction → Prop
  | .holdPassive => True
  | .cancel | .exitPosition _ => c.cancelCount = 2 ^ 32 - 1
  | .stepAhead newPrice | .replace newPrice =>
    c.replaceCount = 2 ^ 32 - 1 ∧ c.currentPrice = some newPrice
  | .crossSpread =>
    c.replaceCount = 2 ^ 32 - 1 ∧ c.currentPrice = c.crossPrice ∧ c.currentStrategy = .aggressive
  | .switchStrategy newStrategy => c.currentStrategy = newStrategy
  | .abort => c.cancelCount = 2 ^ 32 - 1 ∧ c.status = .canceled

theorem saturatingAddU32_eq_self_iff (n : Nat) : saturatingAddU32 n 1 = n ↔ n = 2 ^ 32 - 1 := by
  unfold saturatingAddU32
  omega

theorem footprint_applyAction_iff (c : ExecutionController) (action : ExecutionAction)
    (nowTs : Nat) : (c.applyAction action nowTs).footprint = c.footprint ↔ c.Leaves action := by
  cases action with
  | holdPassive => exact iff_of_true rfl trivial
  | cancel | exitPosition price =>
    simp [applyAction, footprint, Leaves, saturatingAddU32_eq_self_iff]
  | stepAhead newPrice | replace newPrice =>
    simp [applyAction, footprint, Leaves, saturatingAddU32_eq_self_iff,
      eq_comm (a := some newPrice)]
  | crossSpread =>
    have hcharged : (c.applyAction .crossSpread nowTs).footprint =
        { c.footprint with
          replaceCount := saturatingAddU32 c.replaceCount 1
          currentPrice := c.crossPrice
          currentStrategy := .aggressive } := rfl
    rw [hcharged]
    simp [footprint, Leaves, saturatingAddU32_eq_self_iff, eq_comm (a := c.crossPrice),
      eq_comm (a := ExecutionStrategy.aggressive)]
  | switchStrategy newStrategy =>
    simp [applyAction, footprint, Leaves, eq_comm]
  | abort => simp [applyAction, footprint, Leaves, saturatingAddU32_eq_self_iff]

end ExecutionController

/-! ## The attempts of a run -/

namespace Attempt

/-- It submits an order under this key. -/
def Submits (key : String) : Attempt → Prop
  | .submit _ controller => controller.idempotencyKey = key
  | .act _ _ _ _ => False

/-- It changes nothing that the channel would have to know. -/
def Harmless : Attempt → Prop
  | .submit _ _ => False
  | .act _ controller nowTs _ => controller.Leaves (controller.evaluateAction nowTs)

end Attempt

namespace Controllers

/-- `step`, showing its attempts. -/
def attemptStep (cfg : Config) (s : Controllers) (input : ControllerInput) :
    List Attempt × Controllers := (attempts cfg s input, (step cfg s input).2)

/-- All attempts of a run from the empty maps, in order. -/
def allAttempts (cfg : Config) (inputs : List ControllerInput) : List Attempt :=
  (emit (attemptStep cfg) {} inputs).1

variable {cfg : Config} {inputs before after : List ControllerInput} {input : ControllerInput}
  {key : String}

theorem run_eq (cfg : Config) (inputs : List ControllerInput) :
    run cfg inputs = ((allAttempts cfg inputs).map Attempt.instruction,
      (emit (attemptStep cfg) {} inputs).2) := by
  unfold run allAttempts
  refine emit_map Attempt.instruction (fun s input => ?_) _ inputs
  rw [attemptStep, attempts_instructions]

theorem allAttempts_append (cfg : Config) (first second : List ControllerInput) :
    ∃ later, allAttempts cfg (first ++ second) = allAttempts cfg first ++ later := by
  unfold allAttempts
  rw [emit_append]
  exact ⟨_, rfl⟩

theorem allAttempts_concat (cfg : Config) (inputs : List ControllerInput)
    (input : ControllerInput) :
    allAttempts cfg (inputs ++ [input]) =
      allAttempts cfg inputs ++ attempts cfg (run cfg inputs).2 input := by
  rw [run_eq]
  unfold allAttempts
  rw [emit_append]
  simp only [emit_cons, emit_nil, List.append_nil, attemptStep]

/-- Where in a run its `n`-th attempt was made. -/
theorem getElem?_allAttempts {n : Nat} {a : Attempt} (h : (allAttempts cfg inputs)[n]? = some a) :
    ∃ before input after m, inputs = before ++ input :: after ∧
      n = (allAttempts cfg before).length + m ∧
      (attempts cfg (run cfg before).2 input)[m]? = some a := by
  obtain ⟨before, input, after, m, hsplit, hn, ha⟩ := getElem?_emit h
  refine ⟨before, input, after, m, hsplit, hn, ?_⟩
  rw [run_eq]
  exact ha

/-- There is no controller without a `Submit`. -/
theorem exists_submits {c : ExecutionController}
    (h : (run cfg inputs).2.controllers.lookup key = some c) :
    ∃ a ∈ allAttempts cfg inputs, a.Submits key := by
  induction inputs using List.reverseRecOn generalizing c with
  | nil => cases h
  | append_singleton earlier input ih =>
    rw [run_concat] at h
    rw [allAttempts_concat]
    have hearlier : ∀ c', (run cfg earlier).2.controllers.lookup key = some c' →
        ∃ a ∈ allAttempts cfg earlier ++ attempts cfg (run cfg earlier).2 input, a.Submits key := by
      intro c' hc'
      obtain ⟨a, ha, hsubmits⟩ := ih hc'
      exact ⟨a, List.mem_append_left _ ha, hsubmits⟩
    rcases step_lookup h with hold | ⟨intent, rfl, rfl, -⟩ | ⟨update, c', -, hc', -⟩ |
        ⟨update, c', -, hc', -⟩
    · exact hearlier c hold
    · exact ⟨.submit intent (submitted cfg intent),
        List.mem_append_right _ (List.mem_singleton_self _), rfl⟩
    · exact hearlier c' hc'
    · exact hearlier c' hc'

/-! ## State and channel -/

/-- The `n`-th attempt is the `Submit` of the controller under this key: the
last one that was made under it. -/
def SubmittedAt (made : List Attempt) (key : String) (n : Nat) : Prop :=
  (∃ a, made[n]? = some a ∧ a.Submits key) ∧
    ∀ m a, n < m → made[m]? = some a → ¬ a.Submits key

/-- The controllers never run ahead of what was enqueued: an action that changed
something was, and so was the `Submit` of every controller that is `Sent`. -/
structure InStep (cfg : Config) (slots : Nat → Bool) (inputs : List ControllerInput) : Prop where
  actions : ∀ n key c nowTs instruction,
    (allAttempts cfg inputs)[n]? = some (.act key c nowTs instruction) →
    (c.applyAction (c.evaluateAction nowTs) nowTs).footprint ≠ c.footprint → slots n = true
  sent : ∀ before, before <+: inputs → ∀ key c,
    (run cfg before).2.controllers.lookup key = some c → c.status = .sent →
    ∃ n, SubmittedAt (allAttempts cfg before) key n ∧ slots n = true

theorem exists_submittedAt {made : List Attempt} (h : ∃ a ∈ made, a.Submits key) :
    ∃ n, SubmittedAt made key n := by
  induction made with
  | nil =>
    obtain ⟨a, ha, -⟩ := h
    cases ha
  | cons first rest ih =>
    by_cases hrest : ∃ a ∈ rest, a.Submits key
    · obtain ⟨n, ⟨a, ha, hsubmits⟩, hlast⟩ := ih hrest
      refine ⟨n + 1, ⟨a, ha, hsubmits⟩, fun m b hm hb => ?_⟩
      obtain ⟨m, rfl⟩ : ∃ k, m = k + 1 := ⟨m - 1, by omega⟩
      exact hlast m b (by omega) hb
    · obtain ⟨a, ha, hsubmits⟩ := h
      rcases List.mem_cons.mp ha with rfl | ha
      · refine ⟨0, ⟨a, rfl, hsubmits⟩, fun m b hm hb hsubmits => hrest ⟨b, ?_, hsubmits⟩⟩
        obtain ⟨m, rfl⟩ : ∃ k, m = k + 1 := ⟨m - 1, by omega⟩
        exact List.mem_of_getElem? hb
      · exact absurd ⟨a, ha, hsubmits⟩ hrest

/-- A submission is the last attempt of the run that ends with its order. -/
theorem submittedAt_concat {made : List Attempt} {a : Attempt} {n : Nat} (ha : a.Submits key)
    (h : SubmittedAt (made ++ [a]) key n) : n = made.length := by
  obtain ⟨⟨b, hb, -⟩, hlast⟩ := h
  have hlt := (List.getElem?_eq_some_iff.mp hb).1
  rw [List.length_append, List.length_singleton] at hlt
  rcases Nat.lt_or_ge n made.length with hbefore | hfrom
  · exact absurd ha (hlast made.length a hbefore (by simp))
  · omega

/-- A `Submit` is the attempt of an order. -/
theorem eq_order_of_submits {s : Controllers} {intent : OrderIntent} {c : ExecutionController}
    (ha : Attempt.submit intent c ∈ attempts cfg s input) :
    input = .order intent ∧ c = submitted cfg intent := by
  rcases mem_attempts ha with ⟨intent', hin, hsame⟩ | ⟨_, _, _, _, _, _, hact⟩ |
      ⟨_, _, _, _, _, _, _, hact⟩
  · obtain ⟨rfl, rfl⟩ := Attempt.submit.inj hsame
    exact ⟨hin, rfl⟩
  · obtain ⟨_, _, hne⟩ := ExecutionController.mem_attempt_iff.mp hact
    cases hne
  · obtain ⟨_, _, hne⟩ := ExecutionController.mem_attempt_iff.mp hact
    cases hne

/-- A run in step enqueued every `Submit` it made: right after the order its
controller is there, and `Sent`. -/
theorem InStep.submit_enqueued {inputs : List ControllerInput} {n : Nat} {intent : OrderIntent}
    {c : ExecutionController} (h : InStep cfg slots inputs)
    (ha : (allAttempts cfg inputs)[n]? = some (.submit intent c)) : slots n = true := by
  obtain ⟨before, input, after, m, rfl, rfl, hm⟩ := getElem?_allAttempts ha
  obtain ⟨rfl, rfl⟩ := eq_order_of_submits (List.mem_of_getElem? hm)
  have hattempts : attempts cfg (run cfg before).2 (.order intent) =
      [.submit intent (submitted cfg intent)] := rfl
  obtain rfl : m = 0 := by
    have hlt := (List.getElem?_eq_some_iff.mp hm).1
    rw [hattempts, List.length_singleton] at hlt
    omega
  have hlookup : (run cfg (before ++ [.order intent])).2.controllers.lookup
      (submitted cfg intent).idempotencyKey = some (submitted cfg intent) := by
    rw [run_concat]
    exact lookup_after (List.mem_of_getElem? hm)
  obtain ⟨n, hat, hroom⟩ := h.sent (before ++ [.order intent]) ⟨after, by simp⟩ _ _ hlookup rfl
  rw [allAttempts_concat, hattempts] at hat
  have hsubmits : (Attempt.submit intent (submitted cfg intent)).Submits
      (submitted cfg intent).idempotencyKey := rfl
  rwa [submittedAt_concat hsubmits hat] at hroom

/-- The state keeps in step if and only if every attempt that finds the channel
full is an action with nothing to change. -/
theorem inStep_iff (cfg : Config) (slots : Nat → Bool) (inputs : List ControllerInput) :
    InStep cfg slots inputs ↔
      ∀ n a, (allAttempts cfg inputs)[n]? = some a → slots n = false → a.Harmless := by
  constructor
  · intro h n a ha hfull
    cases a with
    | act key c nowTs instruction =>
      by_contra hharm
      have hchanged := mt (c.footprint_applyAction_iff _ nowTs).mp hharm
      rw [h.actions n key c nowTs instruction ha hchanged] at hfull
      cases hfull
    | submit intent c =>
      rw [h.submit_enqueued ha] at hfull
      cases hfull
  · intro h
    constructor
    · intro n key c nowTs instruction ha hchanged
      by_contra hfull
      exact hchanged ((c.footprint_applyAction_iff _ nowTs).mpr
        (h n _ ha (Bool.not_eq_true _ |>.mp hfull)))
    · rintro before ⟨after, rfl⟩ key c hlookup -
      obtain ⟨n, hat⟩ := exists_submittedAt (exists_submits hlookup)
      obtain ⟨a, ha, hsubmits⟩ := hat.1
      refine ⟨n, hat, ?_⟩
      by_contra hfull
      obtain ⟨later, hlater⟩ := allAttempts_append cfg before after
      have hall : (allAttempts cfg (before ++ after))[n]? = some a := by
        rw [hlater, List.getElem?_append_left (List.getElem?_eq_some_iff.mp ha).1, ha]
      have hharmless := h n a hall (Bool.not_eq_true _ |>.mp hfull)
      cases a with
      | submit intent controller => exact hharmless
      | act => exact hsubmits

end Controllers

namespace Desk

/-- The order of a calm signal, when the channel has no room: nothing is sent,
and its controller is `Sent`. -/
theorem sent_without_submit :
    ¬ ∀ (slots : Nat → Bool) (inputs : List ControllerInput),
      Controllers.InStep {} slots inputs := by
  intro h
  let order := ControllerInput.order (intent {} .buy 1 false calmSignal {})
  obtain ⟨n, -, hroom⟩ := (h (fun _ => false) [order]).sent [order] (List.prefix_refl _) _ _
    (AList.lookup_insert _) rfl
  cases hroom

end Desk

end RealTimeTrading.Rtts
