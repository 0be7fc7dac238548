/-
RealTimeTrading.Wire.OrderNames — whether control instructions name orders
that the control plane knows.

The store never knows a client key as an id: `newID` writes no dash, and
`idempotency_key` writes two. So in a session of the two programs every
instruction names a stored order exactly when no controller acts before
it has heard of its order (`instructions_known_iff`).
-/
import RealTimeTrading.Concurrency.Observer
import RealTimeTrading.ControlPlane.Announced
import RealTimeTrading.ControlPlane.Schedule
import RealTimeTrading.Rtts.Naming
import RealTimeTrading.Wire.DecisionGate
import RealTimeTrading.Wire.ExecutionFeed

namespace RealTimeTrading.Wire

open Concurrency
open ControlPlane (Env Plane PlaneConfig PlaneEntry OrderID)
open Rtts (Config ControllerInput Controllers ExecutionInstruction)

/-! ## Sessions -/

/-- The digits `newID` writes: those of random bytes, or of the time. -/
def IsNewID (id : OrderID) : Prop := ∀ digit ∈ id.toList, digit ∈ "0123456789abcdef.".toList

instance (id : OrderID) : Decidable (IsNewID id) :=
  List.decidableBAll (· ∈ "0123456789abcdef.".toList) id.toList

theorem IsNewID.no_dash {id : OrderID} (h : IsNewID id) : '-' ∉ id.toList := by
  intro hdash
  exact absurd (h _ hdash) (by decide)

/-- What the controllers may receive: any intent and market update, and what
the control plane has emitted, in any order and any number of times. -/
def Offers (p : Plane) : ControllerInput → Prop
  | .execution event => ∃ update, .executionUpdate update ∈ p.updates ∧
      controllerEvent update = some event
  | .order _ | .market _ => True

/-- The two programs side by side; what the controllers received is recorded
with the state of the control plane at that moment. -/
abbrev Session (env : Env) (p₀ : Plane) :
    List PlaneEntry → PlaneConfig → List (Plane × ControllerInput) → Prop :=
  Watched (ControlPlane.plane env) Offers p₀

/-- The controllers after what they received. -/
def controllersAfter (cfg : Config) (received : List (Plane × ControllerInput)) : Controllers :=
  (Controllers.run cfg (received.map Prod.snd)).2

/-- Every instruction to an order names one that is stored at that moment. -/
def InstructionsKnown (cfg : Config) (received : List (Plane × ControllerInput)) : Prop :=
  ∀ before p input after, received = before ++ (p, input) :: after →
    ∀ sent ∈ (Controllers.step cfg (controllersAfter cfg before) input).1.instructions,
      ∀ id, sent.target = some id → (p.store.order id).isSome = true

/-- Whatever was submitted before an input came in was accepted by then. -/
def SubmitsAccepted (cfg : Config) (received : List (Plane × ControllerInput)) : Prop :=
  ∀ before p input after, received = before ++ (p, input) :: after →
    ∀ intent key, .submit intent key ∈ (Controllers.run cfg (before.map Prod.snd)).1 →
      (p.store.orderByIdempotency key).isSome = true

/-- No controller acts before it has heard of its order. -/
def ActsInformed (cfg : Config) (received : List (Plane × ControllerInput)) : Prop :=
  ∀ before p input after, received = before ++ (p, input) :: after →
    (controllersAfter cfg before).ActsInformed cfg input

/-- A control plane whose ids are of `newID`'s making. -/
structure Registered (p : Plane) : Prop where
  wellFormed : p.store.WellFormed
  announced : p.Announced
  ids : ∀ id ∈ p.store.orders, IsNewID id

section Session

variable {env : Env} {p₀ : Plane} {tr : List PlaneEntry} {c : PlaneConfig}
  {received : List (Plane × ControllerInput)} {cfg : Config}

theorem controllersAfter_concat (received : List (Plane × ControllerInput)) (p : Plane)
    (input : ControllerInput) :
    controllersAfter cfg (received ++ [(p, input)]) =
      (Controllers.step cfg (controllersAfter cfg received) input).2 := by
  unfold controllersAfter Controllers.run
  rw [List.map_append, emit_append]
  rfl

/-- An event that is offered is about a stored order. -/
theorem event_stored (h₀ : Registered p₀) (hsession : Session env p₀ tr c received)
    {input : ControllerInput} (hoffer : Offers c.shared input) :
    ∀ event, input = .execution event → event.orderId ∈ c.shared.store.orders := by
  rintro event rfl
  obtain ⟨update, hupdate, hevent⟩ := hoffer
  rw [controllerEvent_orderId hevent]
  exact ControlPlane.run_announced h₀.wellFormed h₀.announced hsession.run update hupdate

/-- In every session the controllers go by client keys and stored ids. -/
theorem session_named (cfg : Config) (h₀ : Registered p₀)
    (hsession : Session env p₀ tr c received) :
    (controllersAfter cfg received).AllNamed (· ∈ c.shared.store.orders) := by
  induction hsession with
  | init =>
    intro key controller hlookup
    cases hlookup
  | start j _ ih => exact ih
  | step _ _ hs ih =>
    exact fun key controller hlookup =>
      (ih key controller hlookup).mono fun _ => ControlPlane.mem_of_sem hs
  | take input h hoffer ih =>
    rw [controllersAfter_concat]
    exact ih.step (event_stored h₀ h hoffer)

/-- A stored order has an id of `newID`'s making, if all that were issued are. -/
theorem stored_no_dash (h₀ : Registered p₀) (hsession : Session env p₀ tr c received)
    (hids : ∀ id ∈ c.shared.issued, IsNewID id) :
    ∀ id, id ∈ c.shared.store.orders → '-' ∉ id.toList := by
  intro id hid
  rcases ControlPlane.run_ids h₀.wellFormed hsession.run id hid with hold | hissued
  · exact (h₀.ids id hold).no_dash
  · exact (hids id hissued).no_dash

/-- Over any session of the two programs, all instructions name orders that the
store holds if and only if no controller acts on a market update before its
first execution event. -/
theorem instructions_known_iff (cfg : Config) (h₀ : Registered p₀)
    (hsession : Session env p₀ tr c received) (hids : ∀ id ∈ c.shared.issued, IsNewID id) :
    InstructionsKnown cfg received ↔ ActsInformed cfg received := by
  refine forall_congr' fun before => forall_congr' fun p => forall_congr' fun input =>
    forall_congr' fun after => forall_congr' fun hsplit => ?_
  obtain ⟨hoffer, hissued, tr', ts, hbefore⟩ :=
    hsession.split (fun p p' => ∀ id ∈ p.issued, id ∈ p'.issued) (fun _ _ hid => hid)
      (fun _ _ _ h h' id hid => h' id (h id hid))
      (fun _ _ _ _ hsem _ hid => ControlPlane.issued_step hsem hid) hsplit
  have hstored : ∀ id, (p.store.order id).isSome = true ↔ id ∈ p.store.orders :=
    fun id => AList.lookup_isSome
  simp only [hstored]
  exact Controllers.step_targets_stored_iff (session_named cfg h₀ hbefore)
    (event_stored h₀ hbefore hoffer)
    (stored_no_dash h₀ hbefore fun id hid => hids id (hissued id hid))

end Session

/-! ## An order aborted before it is heard of -/

namespace Unheard

open ControlPlane (Command schedule)

/-- The request of the order `Toxic.order`, under the key of its controller. -/
def request : ControlPlane.ExecutionRequest :=
  { ControlPlane.Desk.request with idempotencyKey := Rtts.idempotencyKey Toxic.order }

def accepted : List Command :=
  [.start (.submit request), .run 0 16 (ControlPlane.Desk.acked "1f")]

theorem accepted_admissible : ∀ command ∈ accepted, command.Admissible ControlPlane.Desk.env := by
  simp only [accepted, List.forall_mem_cons]
  exact ⟨trivial, ControlPlane.Desk.acked_admissible _ _ _, by simp⟩

/-- The control plane once it has the order. -/
def desk : PlaneConfig := (schedule ControlPlane.Desk.env ControlPlane.Desk.plane accepted).2

def trade : Rtts.TradeEvent := { timestamp := 1050, price := 100, volume := 1, side := .sell }

def received : List (Plane × ControllerInput) :=
  [(ControlPlane.Desk.plane, .order Toxic.order), (desk.shared, .market (.trade trade))]

theorem session : Session ControlPlane.Desk.env ControlPlane.Desk.plane
    (schedule ControlPlane.Desk.env ControlPlane.Desk.plane accepted).1 desk received :=
  (Watched.opening (ControlPlane.schedule_run accepted_admissible) trivial).closing trivial

theorem desk_ids : ∀ id ∈ desk.shared.issued, IsNewID id := by decide +kernel

/-- The last input, or the first. -/
theorem received_split {before after : List (Plane × ControllerInput)} {p : Plane}
    {input : ControllerInput} (h : received = before ++ (p, input) :: after) :
    before = [] ∨ (before = [(ControlPlane.Desk.plane, .order Toxic.order)] ∧ p = desk.shared) := by
  rcases before with _ | ⟨first, _ | ⟨second, rest⟩⟩
  · exact Or.inl rfl
  · obtain ⟨rfl, hrest⟩ := List.cons.inj h
    obtain ⟨hlast, -⟩ := List.cons.inj hrest
    exact Or.inr ⟨rfl, (Prod.mk.inj hlast).1.symm⟩
  · obtain ⟨-, hrest⟩ := List.cons.inj h
    obtain ⟨-, hnone⟩ := List.cons.inj hrest
    exact absurd hnone (by simp)

theorem submits_accepted : SubmitsAccepted {} received := by
  intro before p input after hsplit intent key hsent
  rcases received_split hsplit with rfl | ⟨rfl, rfl⟩
  · cases hsent
  · obtain ⟨-, rfl⟩ := ExecutionInstruction.submit.inj (List.mem_singleton.mp hsent)
    decide +kernel

/-- The controllers have the order, and have not heard of it. -/
def waiting : Controllers :=
  controllersAfter {} [(ControlPlane.Desk.plane, .order Toxic.order)]

theorem aborted :
    (Controllers.step {} waiting (.market (.trade trade))).1.instructions.filterMap
      ExecutionInstruction.target = ["BTCUSDT-1000-buy"] := by decide +kernel

theorem key_not_stored : (desk.shared.store.order "BTCUSDT-1000-buy").isSome = false := by
  decide +kernel

theorem desk_registered : Registered ControlPlane.Desk.plane where
  wellFormed := ControlPlane.Desk.plane_wellFormed
  announced _ hupdate := absurd hupdate List.not_mem_nil
  ids _ hid := absurd hid List.not_mem_nil

end Unheard

/-- The order is accepted as `1f`, and then aborted under its client key. -/
theorem abort_unknown : ¬ ∀ tr c received,
    Session ControlPlane.Desk.env ControlPlane.Desk.plane tr c received →
    (∀ id ∈ c.shared.issued, IsNewID id) → SubmitsAccepted {} received →
    InstructionsKnown {} received := by
  intro h
  have hknown := h _ _ _ Unheard.session Unheard.desk_ids Unheard.submits_accepted
    [(ControlPlane.Desk.plane, .order Toxic.order)] Unheard.desk.shared
    (.market (.trade Unheard.trade)) [] rfl
  have htarget : "BTCUSDT-1000-buy" ∈
      (Controllers.step {} Unheard.waiting
        (.market (.trade Unheard.trade))).1.instructions.filterMap ExecutionInstruction.target := by
    rw [Unheard.aborted]
    exact List.mem_singleton_self _
  obtain ⟨sent, hsent, hid⟩ := List.mem_filterMap.mp htarget
  have hstored := hknown sent hsent _ hid
  rw [Unheard.key_not_stored] at hstored
  cases hstored

theorem instructions_known_iff_unheard :
    InstructionsKnown {} Unheard.received ↔ ActsInformed {} Unheard.received :=
  instructions_known_iff {} Unheard.desk_registered Unheard.session Unheard.desk_ids

end RealTimeTrading.Wire
