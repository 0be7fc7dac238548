/-
RealTimeTrading.Rtts.Attempts — what one step of the controller loop does.

An `Attempt` is one call of `try_send` on the action channel, with the
controller behind it. `attempts` lists those of a step, and
`attempts_instructions` says that they carry the step's instructions;
`step_lookup` says where a controller of the state after it comes from. A
market update visits every controller of the map at most once, so the
controllers act as the state before found them (`foldl_onMarketKey`).
-/
import RealTimeTrading.Rtts.ExecutionController

namespace RealTimeTrading.Rtts

open Concurrency

inductive Attempt where
  /-- `Submit` of an order, with the controller made for it. -/
  | submit (intent : OrderIntent) (controller : ExecutionController)
  /-- A controller's action, by this clock, with what it was converted to. -/
  | act (key : String) (controller : ExecutionController) (nowTs : Nat)
      (instruction : ExecutionInstruction)

namespace Attempt

def instruction : Attempt → ExecutionInstruction
  | .submit intent controller => .submit intent controller.idempotencyKey
  | .act _ _ _ instruction => instruction

/-- The key of the controller. -/
def key : Attempt → String
  | .submit _ controller => controller.idempotencyKey
  | .act key _ _ _ => key

/-- The controller after the attempt, whether or not it found room. -/
def after : Attempt → ExecutionController
  | .submit _ controller => controller
  | .act _ controller nowTs _ => controller.applyAction (controller.evaluateAction nowTs) nowTs

end Attempt

namespace ExecutionController

/-- The controller's turn at a market update. -/
def turn (update : MarketUpdate) (c : ExecutionController) :
    Option ExecutionInstruction × ExecutionController :=
  (c.onMarketUpdate update).evaluateAndConvert (marketTimestamp update)

/-- `evaluate_and_convert` of the controller under this key. -/
def attempt (nowTs : Nat) (key : String) (c : ExecutionController) : List Attempt :=
  (convert (c.evaluateAction nowTs) c).toList.map (.act key c nowTs)

theorem mem_attempt_iff {nowTs : Nat} {key : String} {c : ExecutionController} {a : Attempt} :
    a ∈ c.attempt nowTs key ↔
      ∃ instruction, convert (c.evaluateAction nowTs) c = some instruction ∧
        a = .act key c nowTs instruction := by
  simp only [attempt, List.mem_map, Option.mem_toList, eq_comm]

theorem attempt_instructions (nowTs : Nat) (key : String) (c : ExecutionController) :
    (c.attempt nowTs key).map Attempt.instruction = (c.evaluateAndConvert nowTs).1.toList := by
  unfold attempt evaluateAndConvert
  dsimp only
  cases convert (c.evaluateAction nowTs) c <;> rfl

/-- An action that is converted is also applied. -/
theorem attempt_after {nowTs : Nat} {key : String} {c : ExecutionController} {a : Attempt}
    (ha : a ∈ c.attempt nowTs key) : a.key = key ∧ a.after = (c.evaluateAndConvert nowTs).2 := by
  obtain ⟨instruction, hconvert, rfl⟩ := mem_attempt_iff.mp ha
  simp only [evaluateAndConvert, hconvert]
  exact ⟨rfl, rfl⟩

end ExecutionController

namespace Controllers

open ExecutionController

/-! ## The attempts of a step -/

/-- The controller of a new order. -/
def submitted (cfg : Config) (intent : OrderIntent) : ExecutionController :=
  { ExecutionController.new intent cfg with status := .sent }

/-- The controller an execution event is for. -/
def addressee (update : ExecutionControllerEvent) (s : Controllers) :
    Option (String × ExecutionController) :=
  (resolveControllerKey update s.orderLookup).bind fun key =>
    (s.controllers.lookup key).map fun controller => (key, controller)

/-- The controllers a market update visits. -/
def visited (cfg : Config) (s : Controllers) : List (Sigma fun _ : String => ExecutionController) :=
  s.controllers.entries.filter fun e =>
    decide (e.2.symbol = cfg.symbol) && !e.2.status.isTerminal

def attempts (cfg : Config) (s : Controllers) : ControllerInput → List Attempt
  | .order intent => [.submit intent (submitted cfg intent)]
  | .execution update =>
    match s.addressee update with
    | none => []
    | some (key, controller) =>
      if (controller.onExecutionEvent update).status.isTerminal then []
      else (controller.onExecutionEvent update).attempt update.eventTs key
  | .market update =>
    (visited cfg s).flatMap fun e =>
      (e.2.onMarketUpdate update).attempt (marketTimestamp update) e.1

theorem mem_visited_iff {cfg : Config} {s : Controllers}
    {e : Sigma fun _ : String => ExecutionController} :
    e ∈ visited cfg s ↔ s.controllers.lookup e.1 = some e.2 ∧ e.2.symbol = cfg.symbol ∧
      e.2.status.isTerminal = false := by
  simp only [visited, List.mem_filter, Bool.and_eq_true, decide_eq_true_eq, Bool.not_eq_true',
    AList.lookup]
  rw [← Option.mem_def, List.mem_dlookup_iff s.controllers.nodupKeys]

/-! ## The market branch -/

theorem onMarketKey_eq {update : MarketUpdate} {x : Sent × Controllers} {key : String}
    {c : ExecutionController} (h : x.2.controllers.lookup key = some c) :
    onMarketKey update key x =
      ({ x.1 with instructions := x.1.instructions ++ (c.turn update).1.toList },
        { x.2 with controllers := x.2.controllers.insert key (c.turn update).2 }) := by
  simp only [onMarketKey, h]
  rfl

/-- Controllers under different keys do not get in each other's way. -/
theorem foldl_onMarketKey (update : MarketUpdate)
    (entries : List (Sigma fun _ : String => ExecutionController))
    (hnodup : (entries.map Sigma.fst).Nodup) (x : Sent × Controllers)
    (hlookup : ∀ e ∈ entries, x.2.controllers.lookup e.1 = some e.2) :
    let y := (entries.map Sigma.fst).foldl (fun x key => onMarketKey update key x) x
    y.1.instructions = x.1.instructions ++ entries.flatMap (fun e => (e.2.turn update).1.toList) ∧
      (∀ e ∈ entries, y.2.controllers.lookup e.1 = some (e.2.turn update).2) ∧
      ∀ key ∉ entries.map Sigma.fst, y.2.controllers.lookup key = x.2.controllers.lookup key := by
  induction entries generalizing x with
  | nil => simp
  | cons e rest ih =>
    obtain ⟨hfirst, hrest⟩ := List.forall_mem_cons.mp hlookup
    rw [List.map_cons, List.nodup_cons] at hnodup
    have hne : ∀ e' ∈ rest, e'.1 ≠ e.1 := fun e' he' heq =>
      hnodup.1 (heq ▸ List.mem_map_of_mem he')
    obtain ⟨hsent, hturned, hother⟩ := ih hnodup.2 (onMarketKey update e.1 x) (by
      intro e' he'
      rw [onMarketKey_eq hfirst, AList.lookup_insert_ne (hne e' he')]
      exact hrest e' he')
    simp only [List.map_cons, List.foldl_cons] at hsent hturned hother ⊢
    refine ⟨?_, ?_, ?_⟩
    · rw [hsent, onMarketKey_eq hfirst, List.flatMap_cons, List.append_assoc]
    · refine List.forall_mem_cons.mpr ⟨?_, hturned⟩
      rw [hother e.1 hnodup.1, onMarketKey_eq hfirst, AList.lookup_insert]
    · intro key hkey
      rw [List.mem_cons, not_or] at hkey
      rw [hother key hkey.2, onMarketKey_eq hfirst, AList.lookup_insert_ne hkey.1]

theorem visited_nodup (cfg : Config) (s : Controllers) :
    ((visited cfg s).map Sigma.fst).Nodup :=
  List.NodupKeys.sublist List.filter_sublist s.controllers.nodupKeys

/-- What a market update does: the visited controllers take their turns. -/
theorem onMarket_spec (cfg : Config) (update : MarketUpdate) (s : Controllers) :
    (onMarket cfg update s).1.instructions =
        (visited cfg s).flatMap (fun e => (e.2.turn update).1.toList) ∧
      (∀ e ∈ visited cfg s,
        (onMarket cfg update s).2.controllers.lookup e.1 = some (e.2.turn update).2) ∧
      ∀ key ∉ (visited cfg s).map Sigma.fst,
        (onMarket cfg update s).2.controllers.lookup key = s.controllers.lookup key := by
  have h := foldl_onMarketKey update (visited cfg s) (visited_nodup cfg s) ({}, s)
    fun e he => (mem_visited_iff.mp he).1
  simp only [List.nil_append] at h
  exact h

/-! ## A step -/

section Step

variable {cfg : Config} {s : Controllers}

theorem onExecution_of_none {update : ExecutionControllerEvent} (h : s.addressee update = none) :
    onExecution update s = ({}, s) := by
  unfold addressee at h
  unfold onExecution
  cases hkey : resolveControllerKey update s.orderLookup with
  | none => rfl
  | some key =>
    rw [hkey, Option.bind_some, Option.map_eq_none_iff] at h
    simp only [h]

theorem onExecution_of_some {update : ExecutionControllerEvent} {key : String}
    {c : ExecutionController} (h : s.addressee update = some (key, c)) :
    s.controllers.lookup key = some c ∧
      (onExecution update s).1.instructions =
        (if (c.onExecutionEvent update).status.isTerminal then []
          else ((c.onExecutionEvent update).evaluateAndConvert update.eventTs).1.toList) ∧
      (onExecution update s).2.controllers =
        if (c.onExecutionEvent update).status.isTerminal then s.controllers.erase key
        else s.controllers.insert key
          ((c.onExecutionEvent update).evaluateAndConvert update.eventTs).2 := by
  obtain ⟨key', hkey, hc⟩ := Option.bind_eq_some_iff.mp h
  obtain ⟨c', hlookup, hpair⟩ := Option.map_eq_some_iff.mp hc
  obtain ⟨rfl, rfl⟩ := Prod.mk.inj hpair
  refine ⟨hlookup, ?_⟩
  simp only [onExecution, hkey, hlookup]
  split <;> exact ⟨rfl, rfl⟩

/-- The attempts of a step carry its instructions, in order. -/
theorem attempts_instructions (cfg : Config) (s : Controllers) (input : ControllerInput) :
    (attempts cfg s input).map Attempt.instruction = (step cfg s input).1.instructions := by
  cases input with
  | order intent => rfl
  | execution update =>
    simp only [attempts, step]
    cases h : s.addressee update with
    | none => rw [onExecution_of_none h]; rfl
    | some found =>
      obtain ⟨key, c⟩ := found
      rw [(onExecution_of_some h).2.1]
      dsimp only
      split
      · rfl
      · exact attempt_instructions _ _ _
  | market update =>
    simp only [attempts, step, (onMarket_spec cfg update s).1, List.map_flatMap,
      attempt_instructions]
    rfl

/-- An execution event makes its addressee act, unless the order is finished. -/
theorem mem_attempts_execution {update : ExecutionControllerEvent} {a : Attempt}
    (ha : a ∈ attempts cfg s (.execution update)) :
    ∃ key c, s.addressee update = some (key, c) ∧
      (c.onExecutionEvent update).status.isTerminal = false ∧
      a ∈ (c.onExecutionEvent update).attempt update.eventTs key := by
  simp only [attempts] at ha
  cases h : s.addressee update with
  | none => rw [h] at ha; cases ha
  | some found =>
    obtain ⟨key, c⟩ := found
    rw [h] at ha
    dsimp only at ha
    split at ha
    · cases ha
    · exact ⟨key, c, rfl, Bool.not_eq_true _ |>.mp ‹_›, ha⟩

/-- Where an attempt comes from. -/
theorem mem_attempts {input : ControllerInput} {a : Attempt} (ha : a ∈ attempts cfg s input) :
    (∃ intent, input = .order intent ∧ a = .submit intent (submitted cfg intent)) ∨
    (∃ update key c, input = .execution update ∧ s.controllers.lookup key = some c ∧
      (c.onExecutionEvent update).status.isTerminal = false ∧
      a ∈ (c.onExecutionEvent update).attempt update.eventTs key) ∨
    ∃ update key c, input = .market update ∧ s.controllers.lookup key = some c ∧
      c.symbol = cfg.symbol ∧ c.status.isTerminal = false ∧
      a ∈ (c.onMarketUpdate update).attempt (marketTimestamp update) key := by
  cases input with
  | order intent => exact Or.inl ⟨intent, rfl, List.mem_singleton.mp ha⟩
  | execution update =>
    obtain ⟨key, c, h, hactive, ha⟩ := mem_attempts_execution ha
    exact Or.inr (Or.inl ⟨update, key, c, rfl, (onExecution_of_some h).1, hactive, ha⟩)
  | market update =>
    obtain ⟨⟨key, c⟩, he, ha⟩ := List.mem_flatMap.mp ha
    obtain ⟨hlookup, hsymbol, hactive⟩ := mem_visited_iff.mp he
    exact Or.inr (Or.inr ⟨update, key, c, rfl, hlookup, hsymbol, hactive, ha⟩)

/-- Each leaves its controller in the map. -/
theorem lookup_after {input : ControllerInput} {a : Attempt} (ha : a ∈ attempts cfg s input) :
    (step cfg s input).2.controllers.lookup a.key = some a.after := by
  cases input with
  | order intent =>
    obtain rfl := List.mem_singleton.mp ha
    exact AList.lookup_insert _
  | execution update =>
    obtain ⟨key, c, h, hactive, ha⟩ := mem_attempts_execution ha
    obtain ⟨hkey, hafter⟩ := attempt_after ha
    simp only [step]
    rw [(onExecution_of_some h).2.2, hactive, if_neg Bool.false_ne_true, hkey, hafter,
      AList.lookup_insert]
  | market update =>
    obtain ⟨e, he, ha⟩ := List.mem_flatMap.mp ha
    obtain ⟨hkey, hafter⟩ := attempt_after ha
    rw [hkey, hafter]
    exact (onMarket_spec cfg update s).2.1 e he

/-- A controller is as it was, new, or has had its turn. -/
theorem step_lookup {input : ControllerInput} {key : String} {c' : ExecutionController}
    (h : (step cfg s input).2.controllers.lookup key = some c') :
    s.controllers.lookup key = some c' ∨
    (∃ intent, input = .order intent ∧ key = (submitted cfg intent).idempotencyKey ∧
      c' = submitted cfg intent) ∨
    (∃ update c, input = .execution update ∧ s.controllers.lookup key = some c ∧
      c' = ((c.onExecutionEvent update).evaluateAndConvert update.eventTs).2) ∨
    ∃ update c, input = .market update ∧ s.controllers.lookup key = some c ∧
      c' = (c.turn update).2 := by
  cases input with
  | order intent =>
    by_cases hkey : key = (submitted cfg intent).idempotencyKey
    · subst hkey
      refine Or.inr (Or.inl ⟨intent, rfl, rfl, ?_⟩)
      exact (Option.some.inj ((AList.lookup_insert _).symm.trans h)).symm
    · exact Or.inl ((AList.lookup_insert_ne hkey).symm.trans h)
  | execution update =>
    simp only [step] at h
    cases hfound : s.addressee update with
    | none => rw [onExecution_of_none hfound] at h; exact Or.inl h
    | some found =>
      obtain ⟨key', c⟩ := found
      obtain ⟨hlookup, -, hafter⟩ := onExecution_of_some hfound
      rw [hafter] at h
      by_cases hkey : key = key'
      · subst hkey
        split at h
        · rw [AList.lookup_erase] at h; cases h
        · rw [AList.lookup_insert] at h
          exact Or.inr (Or.inr (Or.inl ⟨update, c, rfl, hlookup, (Option.some.inj h).symm⟩))
      · split at h
        · exact Or.inl ((AList.lookup_erase_ne hkey).symm.trans h)
        · exact Or.inl ((AList.lookup_insert_ne hkey).symm.trans h)
  | market update =>
    obtain ⟨-, hturned, hother⟩ := onMarket_spec cfg update s
    by_cases hkey : key ∈ (visited cfg s).map Sigma.fst
    · obtain ⟨e, he, rfl⟩ := List.mem_map.mp hkey
      have hafter := hturned e he
      refine Or.inr (Or.inr (Or.inr ⟨update, e.2, rfl, (mem_visited_iff.mp he).1, ?_⟩))
      exact Option.some.inj (h.symm.trans hafter)
    · exact Or.inl ((hother key hkey).symm.trans h)

end Step

end Controllers

end RealTimeTrading.Rtts
