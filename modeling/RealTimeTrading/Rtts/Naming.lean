/-
RealTimeTrading.Rtts.Naming — what a controller calls its order.

It is the client key until the first execution event, and the id of that
event from then on (`AllNamed.step`). What a controller sends goes to the
order it goes by; so all instructions of a step go to stored orders
exactly when no controller acts on a market update before it has heard of
its order (`step_targets_stored_iff`). `evaluateAction_hold_iff` says when
a controller does not act.
-/
import RealTimeTrading.Rtts.ControllerTheorems

namespace RealTimeTrading.Rtts

/-- The order a control instruction is sent to. -/
def ExecutionInstruction.target : ExecutionInstruction → Option String
  | .cancel orderId _ _ | .replace orderId _ _ _ | .switchStrategy orderId _ _ _ _
  | .abort orderId _ _ => some orderId
  | .submit _ _ | .exitPosition _ _ _ _ _ _ => none

theorem dash_mem_idempotencyKey (intent : OrderIntent) : '-' ∈ (idempotencyKey intent).toList := by
  simp [idempotencyKey, String.toList_append]

namespace ExecutionController

/-! ### Doing nothing -/

/-- `evaluate_action` finds nothing to do. -/
structure Calm (c : ExecutionController) (nowTs : Nat) : Prop where
  approved : c.validationApproved = true
  edge : c.initialDecision.edgeState ≠ .invalid
  competition : c.queueState.competitionState ≠ .saturated
  lasting : c.elapsedTimeMs nowTs ≤ c.edgeHalfLifeMs
  fillable : c.expectedFillTimeMs ≤ c.edgeHalfLifeMs
  keep : ¬ c.shouldExitPosition
  strategy : c.shouldSwitchStrategy nowTs = none
  price : c.shouldReplace nowTs → c.computeImprovedPrice = none
  patience : ¬ c.shouldCancel nowTs

variable {c : ExecutionController} {nowTs : Nat}

theorem queueAction_hold_iff :
    c.queueAction nowTs = .holdPassive ↔
      (c.shouldReplace nowTs → c.computeImprovedPrice = none) ∧ ¬ c.shouldCancel nowTs := by
  have hrest : (if c.shouldCancel nowTs then ExecutionAction.cancel else .holdPassive) =
      .holdPassive ↔ ¬ c.shouldCancel nowTs := by
    split <;> simp [*]
  unfold queueAction
  dsimp only
  by_cases hreplace : c.shouldReplace nowTs
  · rw [if_pos hreplace]
    cases hprice : c.computeImprovedPrice with
    | none => simp [hrest]
    | some newPrice =>
      dsimp only
      split_ifs <;> simp [hreplace]
  · rw [if_neg hreplace, hrest]
    simp [hreplace]

theorem evaluateAction_hold_iff (hactive : c.status.isTerminal = false) :
    c.evaluateAction nowTs = .holdPassive ↔ ¬ c.cooldownElapsed nowTs ∨ c.Calm nowTs := by
  unfold evaluateAction
  rw [hactive, if_neg Bool.false_ne_true]
  by_cases hcooling : ¬ c.cooldownElapsed nowTs
  · rw [if_pos hcooling]
    exact iff_of_true rfl (Or.inl hcooling)
  rw [if_neg hcooling, or_iff_right hcooling]
  by_cases hstress : c.validationApproved = false ∨ c.initialDecision.edgeState = .invalid ∨
      c.queueState.competitionState = .saturated ∨ c.edgeHalfLifeMs < c.elapsedTimeMs nowTs
  · have hrestless : ¬ c.Calm nowTs := by
      intro hcalm
      rcases hstress with hrefused | hinvalid | hsaturated | hover
      · rw [hcalm.approved] at hrefused
        cases hrefused
      · exact hcalm.edge hinvalid
      · exact hcalm.competition hsaturated
      · exact absurd hcalm.lasting (not_le.mpr hover)
    rw [if_pos hstress]
    refine iff_of_false ?_ hrestless
    split <;> simp
  rw [if_neg hstress]
  split_ifs with hdecay hswitch hexit
  · exact iff_of_false (by simp) fun hcalm => absurd hcalm.fillable (not_le.mpr hdecay)
  · exact iff_of_false (by simp) fun hcalm => absurd hcalm.fillable (not_le.mpr hdecay)
  · exact iff_of_false (by simp) fun hcalm => hcalm.keep hexit
  · obtain ⟨happroved, hedge, hcompetition, hlasting⟩ := by simpa only [not_or] using hstress
    cases hstrategy : c.shouldSwitchStrategy nowTs with
    | some newStrategy =>
      refine iff_of_false (by simp) fun hcalm => ?_
      rw [hcalm.strategy] at hstrategy
      cases hstrategy
    | none =>
      dsimp only
      rw [queueAction_hold_iff]
      constructor
      · rintro ⟨hprice, hpatience⟩
        exact ⟨by simpa using happroved, hedge, hcompetition, not_lt.mp hlasting, not_lt.mp hdecay,
          hexit, hstrategy, hprice, hpatience⟩
      · exact fun hcalm => ⟨hcalm.price, hcalm.patience⟩

theorem convert_target {action : ExecutionAction} {instruction : ExecutionInstruction}
    (h : convert action c = some instruction) :
    instruction.target = some c.orderId ∨
      instruction.target = none ∧ ∃ price, action = .exitPosition price := by
  cases action with
  | holdPassive => cases h
  | exitPosition price =>
    obtain rfl := Option.some.inj h
    exact Or.inr ⟨rfl, price, rfl⟩
  | _ =>
    obtain rfl := Option.some.inj h
    exact Or.inl rfl

end ExecutionController

/-! ## Names -/

namespace Controllers

open ExecutionController

/-- The controller under a key goes by the key, its order unfilled, or by the
id of a stored order. -/
structure Named (stored : String → Prop) (key : String) (c : ExecutionController) : Prop where
  filed : c.idempotencyKey = key
  client : '-' ∈ key.toList
  name : (c.orderId = key ∧ c.fillState.filledQty = 0) ∨ stored c.orderId

/-- All controllers are named so. -/
def AllNamed (stored : String → Prop) (s : Controllers) : Prop :=
  ∀ key c, s.controllers.lookup key = some c → Named stored key c

section Named

variable {stored stored' : String → Prop} {key : String} {c : ExecutionController} {cfg : Config}
  {s : Controllers} {input : ControllerInput}

theorem Named.mono (h : Named stored key c) (hmono : ∀ id, stored id → stored' id) :
    Named stored' key c := ⟨h.filed, h.client, h.name.imp_right (hmono _)⟩

theorem Named.submitted (intent : OrderIntent) :
    Named stored (submitted cfg intent).idempotencyKey (submitted cfg intent) :=
  ⟨rfl, dash_mem_idempotencyKey intent, Or.inl ⟨rfl, rfl⟩⟩

theorem Named.onMarketUpdate (h : Named stored key c) (update : MarketUpdate) :
    Named stored key (c.onMarketUpdate update) :=
  ⟨by rw [onMarketUpdate_idempotencyKey, h.filed], h.client,
    by rw [onMarketUpdate_orderId, onMarketUpdate_fillState]; exact h.name⟩

theorem Named.onExecutionEvent (h : Named stored key c) {event : ExecutionControllerEvent}
    (hstored : stored event.orderId) : Named stored key (c.onExecutionEvent event) :=
  ⟨by rw [onExecutionEvent_idempotencyKey, h.filed], h.client,
    Or.inr (by rw [onExecutionEvent_orderId]; exact hstored)⟩

theorem Named.evaluateAndConvert (h : Named stored key c) (nowTs : Nat) :
    Named stored key (c.evaluateAndConvert nowTs).2 := by
  rcases c.evaluateAndConvert_cases nowTs with hsame | happlied
  · rwa [hsame]
  · rw [happlied]
    exact ⟨by rw [applyAction_idempotencyKey, h.filed], h.client,
      by rw [applyAction_orderId, applyAction_fillState]; exact h.name⟩

/-- A step keeps the names, if the events are about stored orders. -/
theorem AllNamed.step (h : s.AllNamed stored)
    (hevent : ∀ update, input = .execution update → stored update.orderId) :
    (step cfg s input).2.AllNamed stored := by
  intro key c' hlookup
  rcases step_lookup hlookup with hold | ⟨intent, -, rfl, rfl⟩ | ⟨update, c, hin, hc, rfl⟩ |
      ⟨update, c, -, hc, rfl⟩
  · exact h key c' hold
  · exact .submitted intent
  · exact ((h key c hc).onExecutionEvent (hevent update hin)).evaluateAndConvert _
  · exact ((h key c hc).onMarketUpdate update).evaluateAndConvert _

/-- No controller acts at this input before it has heard of its order. -/
def ActsInformed (cfg : Config) (s : Controllers) (input : ControllerInput) : Prop :=
  ∀ update, input = .market update → ∀ key c, s.controllers.lookup key = some c →
    c.symbol = cfg.symbol → c.status.isTerminal = false → c.orderId = key →
    ¬ (c.onMarketUpdate update).cooldownElapsed (marketTimestamp update) ∨
      (c.onMarketUpdate update).Calm (marketTimestamp update)

/-- What a controller sends is sent to the order it goes by. -/
theorem mem_attempt_target {nowTs : Nat} {a : Attempt} {id : String}
    (ha : a ∈ c.attempt nowTs key) (hid : a.instruction.target = some id) : id = c.orderId := by
  obtain ⟨instruction, hconvert, rfl⟩ := mem_attempt_iff.mp ha
  rcases convert_target hconvert with htarget | ⟨hnone, -⟩
  · exact Option.some.inj (hid.symm.trans htarget)
  · rw [show instruction.target = some id from hid] at hnone
    cases hnone

/-- An unfilled order is never exited: its controller sends to it, or waits. -/
theorem exists_target_of_acts (key : String) {nowTs : Nat} (hactive : c.status.isTerminal = false)
    (hunfilled : c.fillState.filledQty = 0)
    (hacts : ¬ (¬ c.cooldownElapsed nowTs ∨ c.Calm nowTs)) :
    ∃ a ∈ c.attempt nowTs key, a.instruction.target = some c.orderId := by
  rw [← evaluateAction_hold_iff hactive, ← convert_eq_none_iff] at hacts
  obtain ⟨instruction, hconvert⟩ := Option.ne_none_iff_exists'.mp hacts
  refine ⟨_, mem_attempt_iff.mpr ⟨instruction, hconvert, rfl⟩, ?_⟩
  rcases convert_target hconvert with htarget | ⟨-, price, hexit⟩
  · exact htarget
  · obtain ⟨hfilled, -⟩ := evaluateAction_exit hexit
    rw [hunfilled] at hfilled
    exact absurd hfilled epsilon_pos.not_gt

/-- The instructions of a step name stored orders if and only if no controller
acts too early. -/
theorem step_targets_stored_iff (h : s.AllNamed stored)
    (hevent : ∀ update, input = .execution update → stored update.orderId)
    (hids : ∀ id, stored id → '-' ∉ id.toList) :
    (∀ sent ∈ (step cfg s input).1.instructions, ∀ id, sent.target = some id → stored id) ↔
      ActsInformed cfg s input := by
  rw [← attempts_instructions]
  simp only [List.forall_mem_map]
  constructor
  · rintro hstored update rfl key c hlookup hsymbol hactive hname
    by_contra hacts
    have hnamed := h key c hlookup
    have hunfilled : c.fillState.filledQty = 0 := by
      rcases hnamed.name with ⟨-, hunfilled⟩ | hbad
      · exact hunfilled
      · rw [hname] at hbad
        exact absurd hnamed.client (hids key hbad)
    obtain ⟨a, ha, htarget⟩ := exists_target_of_acts key
      (by rw [onMarketUpdate_status, hactive]) (by rw [onMarketUpdate_fillState, hunfilled]) hacts
    rw [onMarketUpdate_orderId, hname] at htarget
    have hvisited : ⟨key, c⟩ ∈ visited cfg s := mem_visited_iff.mpr ⟨hlookup, hsymbol, hactive⟩
    exact hids key (hstored a (List.mem_flatMap.mpr ⟨_, hvisited, ha⟩) key htarget) hnamed.client
  · intro hinformed a ha id hid
    rcases mem_attempts ha with ⟨intent, -, rfl⟩ | ⟨update, key, c, hin, -, -, ha⟩ |
        ⟨update, key, c, hin, hlookup, hsymbol, hactive, ha⟩
    · cases hid
    · rw [mem_attempt_target ha hid, onExecutionEvent_orderId]
      exact hevent update hin
    · rw [mem_attempt_target ha hid, onMarketUpdate_orderId]
      rcases (h key c hlookup).name with ⟨hname, -⟩ | hstored
      · -- it waits, so it attempts nothing
        have hwaits := hinformed update hin key c hlookup hsymbol hactive hname
        rw [← evaluateAction_hold_iff (by rw [onMarketUpdate_status, hactive]),
          ← convert_eq_none_iff] at hwaits
        obtain ⟨instruction, hconvert, -⟩ := mem_attempt_iff.mp ha
        rw [hwaits] at hconvert
        cases hconvert
      · exact hstored

end Named

end Controllers

end RealTimeTrading.Rtts
