/-
RealTimeTrading.Rtts.ControllerTheorems — runs of the controller loop.

A fact about single controllers that every operation keeps (`Kept`) holds
of all controllers of a run, and every instruction of a run is either a
submission or what one such controller was converted to
(`instruction_origin`). An order that is left to exit has something to
exit: `exit_size_pos`.
-/
import RealTimeTrading.Rtts.Attempts

namespace RealTimeTrading.Rtts

open Concurrency

/-! ## The order of a controller -/

namespace ExecutionController

section Frames

variable (c : ExecutionController)

variable {c} in
/-- A market update is a trade, a book with both sides, or nothing. -/
theorem onMarketUpdate_keeps {P : ExecutionController → Prop} (hsame : P c)
    (htrade : ∀ t, P (c.onTrade t)) (hbook : ∀ book bid ask, P (c.onBook book bid ask))
    (update : MarketUpdate) : P (c.onMarketUpdate update) := by
  cases update with
  | trade t => exact htrade t
  | bookDelta book =>
    simp only [onMarketUpdate]
    split
    · exact hbook book _ _
    · exact hsame

/-- What neither a trade nor a book changes. -/
theorem onMarketUpdate_frame {α : Type} (f : ExecutionController → α)
    (htrade : ∀ t, f (c.onTrade t) = f c) (hbook : ∀ book bid ask, f (c.onBook book bid ask) = f c)
    (update : MarketUpdate) : f (c.onMarketUpdate update) = f c :=
  onMarketUpdate_keeps (P := fun c' => f c' = f c) rfl htrade hbook update

@[simp] theorem onMarketUpdate_fillState (update : MarketUpdate) :
    (c.onMarketUpdate update).fillState = c.fillState :=
  c.onMarketUpdate_frame (·.fillState) (fun _ => rfl) (fun _ _ _ => rfl) update

@[simp] theorem onMarketUpdate_orderId (update : MarketUpdate) :
    (c.onMarketUpdate update).orderId = c.orderId :=
  c.onMarketUpdate_frame (·.orderId) (fun _ => rfl) (fun _ _ _ => rfl) update

@[simp] theorem onMarketUpdate_idempotencyKey (update : MarketUpdate) :
    (c.onMarketUpdate update).idempotencyKey = c.idempotencyKey :=
  c.onMarketUpdate_frame (·.idempotencyKey) (fun _ => rfl) (fun _ _ _ => rfl) update

@[simp] theorem onMarketUpdate_status (update : MarketUpdate) :
    (c.onMarketUpdate update).status = c.status :=
  c.onMarketUpdate_frame (·.status) (fun _ => rfl) (fun _ _ _ => rfl) update

@[simp] theorem onExecutionEvent_orderId (event : ExecutionControllerEvent) :
    (c.onExecutionEvent event).orderId = event.orderId := by
  unfold onExecutionEvent
  dsimp only
  split <;> rfl

@[simp] theorem onExecutionEvent_idempotencyKey (event : ExecutionControllerEvent) :
    (c.onExecutionEvent event).idempotencyKey = c.idempotencyKey := by
  unfold onExecutionEvent
  dsimp only
  split <;> rfl

@[simp] theorem applyAction_orderId (action : ExecutionAction) (nowTs : Nat) :
    (c.applyAction action nowTs).orderId = c.orderId := by
  cases action <;> rfl

@[simp] theorem applyAction_idempotencyKey (action : ExecutionAction) (nowTs : Nat) :
    (c.applyAction action nowTs).idempotencyKey = c.idempotencyKey := by
  cases action <;> rfl

/-- `evaluate_and_convert` leaves the controller as it is or applies an action. -/
theorem evaluateAndConvert_cases (nowTs : Nat) :
    (c.evaluateAndConvert nowTs).2 = c ∨
      (c.evaluateAndConvert nowTs).2 = c.applyAction (c.evaluateAction nowTs) nowTs := by
  unfold evaluateAndConvert
  dsimp only
  cases convert (c.evaluateAction nowTs) c with
  | none => exact Or.inl rfl
  | some instruction => exact Or.inr rfl

@[simp] theorem applyAction_fillState (action : ExecutionAction) (nowTs : Nat) :
    (c.applyAction action nowTs).fillState = c.fillState := by
  cases action <;> rfl

/-- An execution event leaves the fills alone, unless it brings one. -/
theorem onExecutionEvent_fillState (event : ExecutionControllerEvent) :
    (c.onExecutionEvent event).fillState = c.fillState ∨
      (c.onExecutionEvent event).fillState.remainingQty = max event.remainingQty 0 := by
  by_cases hfill : 0 < event.filledQtyDelta
  · right
    simp only [onExecutionEvent, if_pos hfill]
    rfl
  · left
    simp only [onExecutionEvent, if_neg hfill]

end Frames

/-- What is still open of a filled order is not negative. -/
def RemainderTracked (c : ExecutionController) : Prop :=
  epsilon < c.fillState.filledQty → 0 ≤ c.fillState.remainingQty

theorem RemainderTracked.of_fillState {c c' : ExecutionController} (hc : c.RemainderTracked)
    (hfills : c'.fillState = c.fillState) : c'.RemainderTracked := by
  unfold RemainderTracked
  rw [hfills]
  exact hc

theorem RemainderTracked.onExecutionEvent {c : ExecutionController} (hc : c.RemainderTracked)
    (event : ExecutionControllerEvent) : (c.onExecutionEvent event).RemainderTracked := by
  rcases c.onExecutionEvent_fillState event with hsame | hremaining
  · exact hc.of_fillState hsame
  · intro _
    rw [hremaining]
    exact le_max_right _ _

/-! ## What is evaluated to an exit -/

/-- What working the queue comes to. -/
theorem queueAction_cases (c : ExecutionController) (nowTs : Nat) :
    c.queueAction nowTs = .holdPassive ∨
      (c.queueAction nowTs = .cancel ∧ c.shouldCancel nowTs) ∨
        c.shouldReplace nowTs ∧
          ((∃ newPrice, c.queueAction nowTs = .stepAhead newPrice) ∨
            c.queueAction nowTs = .crossSpread ∨
            ∃ newPrice, c.queueAction nowTs = .replace newPrice) := by
  have hrest (h : c.queueAction nowTs =
      if c.shouldCancel nowTs then ExecutionAction.cancel else .holdPassive) :
      c.queueAction nowTs = .holdPassive ∨
        (c.queueAction nowTs = .cancel ∧ c.shouldCancel nowTs) := by
    by_cases hcancel : c.shouldCancel nowTs
    · exact .inr ⟨h.trans (if_pos hcancel), hcancel⟩
    · exact .inl (h.trans (if_neg hcancel))
  rw [← or_assoc]
  by_cases hreplace : c.shouldReplace nowTs
  · cases hprice : c.computeImprovedPrice with
    | none =>
      refine .inl (hrest ?_)
      simp only [queueAction, if_pos hreplace, hprice]
    | some newPrice =>
      refine .inr ⟨hreplace, ?_⟩
      simp only [queueAction, if_pos hreplace, hprice]
      split_ifs
      · exact .inl ⟨_, rfl⟩
      · exact .inr (.inl rfl)
      · exact .inr (.inr ⟨_, rfl⟩)
  · refine .inl (hrest ?_)
    simp only [queueAction, if_neg hreplace]

/-- No other action works the queue. -/
theorem queueAction_ne (c : ExecutionController) (nowTs : Nat) {action : ExecutionAction}
    (h : ∀ newPrice, action ∉ [ExecutionAction.holdPassive, .cancel, .stepAhead newPrice,
      .crossSpread, .replace newPrice]) : c.queueAction nowTs ≠ action := by
  rintro rfl
  rcases c.queueAction_cases nowTs with hhold | ⟨hcancel, -⟩ |
      ⟨-, ⟨p, hstep⟩ | hcross | ⟨p, hreplace⟩⟩
  · exact h 0 (by simp [hhold])
  · exact h 0 (by simp [hcancel])
  · exact h p (by simp [hstep])
  · exact h 0 (by simp [hcross])
  · exact h p (by simp [hreplace])

theorem queueAction_ne_exit (c : ExecutionController) (nowTs : Nat) (price : Option ℚ) :
    c.queueAction nowTs ≠ .exitPosition price := c.queueAction_ne nowTs (by simp)

/-- An exit is only ever of an order that was filled, at the crossing price. -/
theorem evaluateAction_exit {c : ExecutionController} {nowTs : Nat} {price : Option ℚ}
    (h : c.evaluateAction nowTs = .exitPosition price) :
    epsilon < c.fillState.filledQty ∧ price = c.crossPrice := by
  simp only [evaluateAction] at h
  split_ifs at h with hterminal hcooldown hstress hfilled hdecay hswitch hexit
  · exact ⟨hfilled, (ExecutionAction.exitPosition.inj h).symm⟩
  · exact ⟨hexit.1, (ExecutionAction.exitPosition.inj h).symm⟩
  · split at h
    · cases h
    · exact absurd h (queueAction_ne_exit c nowTs price)

theorem convert_eq_none_iff {action : ExecutionAction} {c : ExecutionController} :
    convert action c = none ↔ action = .holdPassive := by
  cases action <;> simp [convert]

theorem convert_eq_exit {action : ExecutionAction} {c : ExecutionController}
    {orderId symbol reason : String} {side : Side} {size : ℚ} {price : Option ℚ}
    (h : convert action c = some (.exitPosition orderId symbol side size price reason)) :
    action = .exitPosition price ∧ orderId = c.orderId ∧
      size = min c.fillState.filledQty (c.fillState.filledQty + c.fillState.remainingQty) := by
  cases action with
  | exitPosition p =>
    simp only [convert, Option.some.injEq, ExecutionInstruction.exitPosition.injEq] at h
    obtain ⟨hid, -, -, hsize, hprice, -⟩ := h
    exact ⟨by rw [hprice], hid.symm, hsize.symm⟩
  | _ => simp [convert] at h

/-- The quantity to exit is all that is filled. -/
theorem RemainderTracked.exit_size {c : ExecutionController} (hc : c.RemainderTracked)
    (hfilled : epsilon < c.fillState.filledQty) :
    min c.fillState.filledQty (c.fillState.filledQty + c.fillState.remainingQty) =
      c.fillState.filledQty :=
  min_eq_left (le_add_of_nonneg_right (hc hfilled))

/-- So it is positive. -/
theorem RemainderTracked.exit_size_pos {c : ExecutionController} (hc : c.RemainderTracked)
    {nowTs : Nat} {orderId symbol reason : String} {side : Side} {size : ℚ} {price : Option ℚ}
    (h : convert (c.evaluateAction nowTs) c =
      some (.exitPosition orderId symbol side size price reason)) : 0 < size := by
  obtain ⟨haction, -, rfl⟩ := convert_eq_exit h
  obtain ⟨hfilled, -⟩ := evaluateAction_exit haction
  rw [hc.exit_size hfilled]
  exact epsilon_pos.trans hfilled

end ExecutionController

/-! ## Runs -/

namespace Controllers

open ExecutionController

/-- What every operation on a controller keeps. -/
structure Kept (cfg : Config) (P : ExecutionController → Prop) : Prop where
  new : ∀ i, P { ExecutionController.new i cfg with status := .sent }
  event : ∀ c e, P c → P (c.onExecutionEvent e)
  market : ∀ c u, P c → P (c.onMarketUpdate u)
  action : ∀ c a nowTs, P c → P (c.applyAction a nowTs)

def All (P : ExecutionController → Prop) (s : Controllers) : Prop :=
  ∀ key c, s.controllers.lookup key = some c → P c

/-- Where an instruction comes from. -/
def Origin (P : ExecutionController → Prop) (sent : ExecutionInstruction) : Prop :=
  (∃ i, sent = .submit i (Rtts.idempotencyKey i)) ∨
    ∃ c nowTs, P c ∧ convert (c.evaluateAction nowTs) c = some sent

variable {cfg : Config} {P : ExecutionController → Prop}

theorem Kept.evaluateAndConvert (h : Kept cfg P) {c : ExecutionController} (hc : P c)
    (nowTs : Nat) : P (c.evaluateAndConvert nowTs).2 := by
  rcases c.evaluateAndConvert_cases nowTs with hsame | happlied
  · rwa [hsame]
  · rw [happlied]
    exact h.action _ _ _ hc

/-- A step keeps it of all controllers. -/
theorem Kept.step (h : Kept cfg P) {s : Controllers} (hs : s.All P) (input : ControllerInput) :
    (step cfg s input).2.All P := by
  intro key c' hlookup
  rcases step_lookup hlookup with hold | ⟨intent, -, -, rfl⟩ | ⟨update, c, -, hc, rfl⟩ |
      ⟨update, c, -, hc, rfl⟩
  · exact hs key c' hold
  · exact h.new intent
  · exact h.evaluateAndConvert (h.event _ _ (hs key c hc)) _
  · exact h.evaluateAndConvert (h.market _ _ (hs key c hc)) _

theorem origin_of_mem_attempt {c : ExecutionController} (hc : P c) {nowTs : Nat} {key : String}
    {a : Attempt} (ha : a ∈ c.attempt nowTs key) : Origin P a.instruction := by
  obtain ⟨instruction, hconvert, rfl⟩ := mem_attempt_iff.mp ha
  exact .inr ⟨c, nowTs, hc, hconvert⟩

theorem Kept.origin (h : Kept cfg P) {s : Controllers} (hs : s.All P) (input : ControllerInput) :
    ∀ sent ∈ (Controllers.step cfg s input).1.instructions, Origin P sent := by
  rw [← attempts_instructions]
  simp only [List.forall_mem_map]
  intro a ha
  rcases mem_attempts ha with ⟨intent, -, rfl⟩ | ⟨update, key, c, -, hc, -, ha⟩ |
      ⟨update, key, c, -, hc, -, -, ha⟩
  · exact .inl ⟨intent, rfl⟩
  · exact origin_of_mem_attempt (h.event _ _ (hs key c hc)) ha
  · exact origin_of_mem_attempt (h.market _ _ (hs key c hc)) ha

/-- Every instruction of a run is a submission or was made of a controller
that has what is kept. -/
theorem instruction_origin (h : Kept cfg P) {inputs : List ControllerInput}
    {sent : ExecutionInstruction} (hsent : sent ∈ (run cfg inputs).1) : Origin P sent :=
  emit_outputs (fun _ input hs => h.step hs input) (fun _ input hs => h.origin hs input)
    (fun key c hlookup => by cases hlookup) hsent

theorem remainderTracked_kept (cfg : Config) : Kept cfg RemainderTracked where
  new _ hfilled := absurd hfilled epsilon_pos.not_gt
  event _ e hc := hc.onExecutionEvent e
  market c u hc := hc.of_fillState (c.onMarketUpdate_fillState u)
  action c a nowTs hc := hc.of_fillState (c.applyAction_fillState a nowTs)

/-- Every exit that is sent in a run is of a positive size. -/
theorem exit_size_pos {inputs : List ControllerInput} {orderId symbol reason : String} {side : Side}
    {size : ℚ} {price : Option ℚ}
    (hsent : .exitPosition orderId symbol side size price reason ∈ (run cfg inputs).1) :
    0 < size := by
  rcases instruction_origin (remainderTracked_kept cfg) hsent with ⟨i, hsubmit⟩ | ⟨c, nowTs, hc, h⟩
  · cases hsubmit
  · exact hc.exit_size_pos h

end Controllers

end RealTimeTrading.Rtts
