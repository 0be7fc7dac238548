/-
RealTimeTrading.ControlPlane.Couriers — every fill of the paper exchange is
applied once, and announced once.

A running call owes two things: the fills of the reply it was given that it
has still to apply, and the announcement of a fill it has applied. `Courier`
carries both along its calls. In every run the fills that were sent are those
applied and those still due, and the fills applied are those announced and
those not yet (`CourierInv`).

The exchange id of a paper order is its own id, so a fill lands on the order
it names.
-/
import RealTimeTrading.Concurrency.Emitting
import RealTimeTrading.ControlPlane.PaperFills
import RealTimeTrading.ControlPlane.Reported
import Mathlib.Data.Multiset.Basic

namespace RealTimeTrading.ControlPlane

open RealTimeTrading.Concurrency

/-! ## Reading fills off a trace -/

/-- A fill the exchange sent for an order, with the record of its execution. -/
structure Duty where
  orderID : OrderID
  ledger : FillLedgerEntry
  execution : ExecutionEvent

/-- What a step sent for an order has its caller apply. -/
def ExchangeStep.duty (orderID : OrderID) (step : ExchangeStep) : Option Duty :=
  match step.status with
  | .partially | .filled =>
    match step.ledger, step.execution with
    | some ledger, some execution => some ⟨orderID, ledger, execution⟩
    | _, _ => none
  | _ => none

namespace PlaneEntry

/-- The fills that come with the reply to a `SendOrder`. -/
def brings (e : PlaneEntry) : List Duty :=
  match e.event with
  | ⟨.sendOrder order, .ok steps⟩ => steps.filterMap (·.duty order.id)
  | _ => []

/-- The fill that is given to `ApplyExternalFill`. -/
def serves (e : PlaneEntry) : Option Duty :=
  match e.event with
  | ⟨.applyExternalFill id ledger execution, _⟩ => some ⟨id, ledger, execution⟩
  | _ => none

/-- The announcement of a fill that was applied. -/
def owes (e : PlaneEntry) : Option ExecutionUpdate :=
  match e.event with
  | ⟨.applyExternalFill _ ledger execution, (updated, position, none)⟩ =>
    some (executionUpdate updated (some ledger) (some execution) (some position))
  | _ => none

/-- The announcement of a fill that is made. -/
def tells (e : PlaneEntry) : Option ExecutionUpdate :=
  match e.event with
  | ⟨.emit (.executionUpdate update), _⟩ => if update.ledger.isSome then some update else none
  | _ => none

end PlaneEntry

def brought (tr : List PlaneEntry) : List Duty := tr.flatMap PlaneEntry.brings

def served (tr : List PlaneEntry) : List Duty := tr.filterMap PlaneEntry.serves

def applied (tr : List PlaneEntry) : List ExecutionUpdate := tr.filterMap PlaneEntry.owes

def told (tr : List PlaneEntry) : List ExecutionUpdate := tr.filterMap PlaneEntry.tells

section Concat

variable (tr : List PlaneEntry) (e : PlaneEntry)

theorem brought_concat : brought (tr ++ [e]) = brought tr ++ e.brings := by
  rw [brought, List.flatMap_append, List.flatMap_singleton, brought]

theorem served_concat : served (tr ++ [e]) = served tr ++ e.serves.toList :=
  filterMap_concat _ _ _

theorem applied_concat : applied (tr ++ [e]) = applied tr ++ e.owes.toList :=
  filterMap_concat _ _ _

theorem told_concat : told (tr ++ [e]) = told tr ++ e.tells.toList := filterMap_concat _ _ _

end Concat

/-! ## The protocol -/

/-- The exchange knows the order by its own id, if at all. -/
def Order.OwnName (o : Order) : Prop := o.exchangeOrderID = "" ∨ o.exchangeOrderID = o.id

/-- The jobs there are without an exchange stream. -/
abbrev PaperJob : Type := {j : Job // j.brought = []}

/-- A call with the fills it has to apply and the announcements it has to make. -/
structure Courier where
  job : PaperJob
  due : List Duty := []
  owed : List ExecutionUpdate := []

namespace Courier

def allowed (g : Courier) : Op → Prop
  | .reserveOrder order =>
    order.exchangeOrderID = "" ∧ order.id ≠ "" ∧
      ∃ req, g.job.1 = .submit req ∧ |order.size| ≤ |req.size|
  | .updateOrder copy => copy.OwnName
  | .bindExchangeOrderID id exchangeOrderID => exchangeOrderID = id
  | .applyExternalFill id ledger execution => g.due.head? = some ⟨id, ledger, execution⟩
  | .emit (.executionUpdate update) => update.ledger = none ∨ g.owed.head? = some update
  | _ => True

def returns (_ : Courier) : (o : Op) → Res o → Prop
  | .newID, id => id ≠ ""
  | .reserveOrder order, r => r.2.1 = false → r.1.id = order.id ∧ r.1.OwnName
  | .markOrderSent id _, r => r.2 = none → r.1.id = id ∧ r.1.OwnName
  | .order _, found => ∀ o, found = some o → o.OwnName
  | .sendOrder order, .ok steps => ∀ step ∈ steps, step.exchangeOrderID = order.id
  | _, _ => True

def next (g : Courier) : (o : Op) → Res o → Courier
  | .sendOrder order, .ok steps => { g with due := steps.filterMap (·.duty order.id) ++ g.due }
  | .applyExternalFill _ ledger execution, (updated, position, none) =>
    { g with
      due := g.due.tail
      owed :=
        executionUpdate updated (some ledger) (some execution) (some position) :: g.owed }
  | .applyExternalFill _ _ _, (_, _, some _) => { g with due := g.due.tail }
  | .emit (.executionUpdate update), _ =>
    if update.ledger.isSome then { g with owed := g.owed.tail } else g
  | _, _ => g

end Courier

def courierProtocol : Protocol Op Res Courier := ⟨Courier.allowed, Courier.returns, Courier.next⟩

/-! ## Programs that carry nothing -/

/-- From any state of its caller the program conforms, and leaves it as it was. -/
def Idle {α : Type} (p : Gw α) : Prop :=
  ∀ g : Courier, p.Conforms courierProtocol (fun g' _ => g' = g) g

/-- The calls that are always allowed and change nothing of their caller. -/
def Op.isLight : Op → Bool
  | .reserveOrder _ | .updateOrder _ | .bindExchangeOrderID _ _ | .applyExternalFill _ _ _
  | .sendOrder _ | .emit (.executionUpdate _) => false
  | _ => true

namespace Idle

variable {α β : Type}

theorem pure (a : α) : Idle (Pure.pure a) := fun _ => rfl

theorem bind {p : Gw α} {f : α → Gw β} (hp : Idle p) (hf : ∀ a, Idle (f a)) : Idle (p >>= f) :=
  fun g => (hp g).bind fun g' a hg => hg ▸ hf a g'

theorem call {o : Op} (h : o.isLight = true) : Idle (ControlPlane.call o) := by
  intro g
  cases o with
  | emit update =>
    cases update with
    | executionUpdate update => cases h
    | _ => exact ⟨trivial, fun _ _ => rfl⟩
  | reserveOrder | updateOrder | bindExchangeOrderID | applyExternalFill | sendOrder => cases h
  | _ => exact ⟨trivial, fun _ _ => rfl⟩

/-- An announcement without a fill. -/
theorem bare {update : ExecutionUpdate} (h : update.ledger = none) :
    Idle (ControlPlane.call (.emit (.executionUpdate update))) := by
  refine fun g => ⟨.inl h, fun _ _ => ?_⟩
  show (if update.ledger.isSome then _ else g) = g
  rw [h]
  rfl

theorem currentOrder (id : OrderID) : Idle (currentOrder id) := by
  refine (call rfl).bind fun found => ?_
  cases found with
  | none => exact .pure _
  | some order => exact .pure _

theorem announceOrLookup (id : OrderID) (r : Order × Option Err) :
    Idle (announceOrLookup id r) := by
  obtain ⟨updated, _ | err⟩ := r
  · exact ((bare rfl).bind fun _ => call rfl).bind fun _ => .pure _
  · exact currentOrder id

theorem announceUpdated (updated : Order) : Idle (announceUpdated updated) :=
  (bare rfl).bind fun _ => (call rfl).bind fun _ => .pure _

theorem applyReject (id : OrderID) (reason : String) : Idle (applyReject id reason) := by
  refine fun g => ⟨trivial, fun found hfound => ?_⟩
  cases found with
  | none => exact rfl
  | some order => exact ⟨hfound order rfl, fun _ _ => ⟨trivial, fun _ _ => rfl⟩⟩

theorem cancelSelfTrades (async : Bool) (req : ExecutionRequest) (opened : List Order) :
    Idle (cancelSelfTrades async req opened) := by
  induction opened with
  | nil => exact .pure _
  | cons order rest ih =>
    unfold ControlPlane.cancelSelfTrades
    dsimp only
    split
    · split
      · exact (call rfl).bind fun _ => (call rfl).bind fun _ => (call rfl).bind fun _ => ih
      · exact (call rfl).bind fun _ => (call rfl).bind fun _ => ih
    · exact ih

theorem cancelLocal (id : OrderID) (reason : String) : Idle (cancelLocal id reason) := by
  refine (call rfl).bind fun canceledAt => (call rfl).bind fun r => ?_
  obtain ⟨updated, _ | err⟩ := r
  · exact announceUpdated updated
  · exact .pure _

theorem cancel (async : Bool) (id : OrderID) (reason : String) : Idle (cancel async id reason) := by
  refine (call rfl).bind fun stopped => ?_
  cases stopped with
  | some message => exact .pure _
  | none =>
    refine (call rfl).bind fun found => ?_
    cases found with
    | none => exact .pure _
    | some order =>
      dsimp only
      split
      · exact .pure _
      · split
        · refine (call rfl).bind fun remote => ?_
          cases remote with
          | some message => exact .pure _
          | none => exact cancelLocal id reason
        · exact cancelLocal id reason

theorem replace (async : Bool) (id : OrderID) (newPrice : ℚ) :
    Idle (replace async id newPrice) := by
  refine (call rfl).bind fun stopped => ?_
  cases stopped with
  | some message => exact .pure _
  | none =>
    refine (call rfl).bind fun r => ?_
    obtain ⟨updated, _ | err⟩ := r
    · dsimp only
      split
      · refine (call rfl).bind fun remote => ?_
        cases remote with
        | some message => exact .pure _
        | none => exact announceUpdated _
      · exact announceUpdated _
    · exact .pure _

theorem switchStrategy (async : Bool) (id : OrderID) (strategy : String) (price : Option ℚ)
    (reason : String) : Idle (switchStrategy async id strategy price reason) := by
  refine (call rfl).bind fun stopped => ?_
  cases stopped with
  | some message => exact .pure _
  | none =>
    dsimp only
    split
    · cases price with
      | none => exact cancel async id reason
      | some price => exact replace async id price
    · split
      · cases price with
        | none => exact currentOrder id
        | some price => exact replace async id price
      · exact currentOrder id

end Idle

/-! ## Applying fills -/

section Fills

variable {g : Courier} {rest : List Duty}

/-- A fill that is due is applied, and announced if it was. -/
theorem serves_applyFill {id : OrderID} {ledger : FillLedgerEntry} {execution : ExecutionEvent}
    (hdue : g.due = ⟨id, ledger, execution⟩ :: rest) :
    (applyFill id ledger execution).Conforms courierProtocol
      (fun g' _ => g' = { g with due := rest }) g := by
  have hhead : g.due.head? = some ⟨id, ledger, execution⟩ := by rw [hdue]; rfl
  have hkept : ({ g with due := g.due.tail } : Courier) = { g with due := rest } := by
    rw [hdue, List.tail_cons]
  refine ⟨hhead, fun r _ => ?_⟩
  obtain ⟨updated, position, _ | err⟩ := r
  · exact ⟨trivial, fun _ _ => ⟨trivial, fun _ _ => ⟨trivial, fun _ _ => ⟨.inr rfl, fun _ _ =>
      ⟨trivial, fun _ _ => ⟨trivial, fun _ _ => hkept⟩⟩⟩⟩⟩⟩
  · exact hkept

theorem serves_applyStatus {id : OrderID} {step : ExchangeStep}
    (hdue : g.due = (step.duty id).toList ++ rest) :
    (applyStatus id step).Conforms courierProtocol (fun g' _ => g' = { g with due := rest }) g := by
  have hidle : ∀ {p : Gw (Order × Option Err)}, Idle p → step.duty id = none →
      p.Conforms courierProtocol (fun g' _ => g' = { g with due := rest }) g := by
    intro p hp hnone
    rw [hnone, Option.toList_none, List.nil_append] at hdue
    refine (hp g).mono fun g' _ hg => ?_
    rw [hg, ← hdue]
  have hfill : ∀ {status : OrderStatus}, step.status = status →
      (status = .partially ∨ status = .filled) →
      (match step.ledger, step.execution with
        | some ledger, some execution => applyFill id ledger execution
        | _, _ => pure (default, none) : Gw (Order × Option Err)).Conforms courierProtocol
          (fun g' _ => g' = { g with due := rest }) g := by
    intro status hstatus hcase
    split
    · rename_i ledger execution hledger hexecution
      refine serves_applyFill (hdue.trans ?_)
      rcases hcase with rfl | rfl <;>
        simp only [ExchangeStep.duty, hstatus, hledger, hexecution, Option.toList_some,
          List.singleton_append]
    · refine hidle (.pure _) ?_
      rcases hcase with rfl | rfl <;> simp only [ExchangeStep.duty, hstatus]
  unfold applyStatus
  split
  · rename_i hstatus
    exact hidle ((Idle.call rfl).bind fun r => Idle.announceOrLookup id r)
      (by simp only [ExchangeStep.duty, hstatus])
  · exact hfill ‹_› (.inl rfl)
  · exact hfill ‹_› (.inr rfl)
  · rename_i hstatus
    exact hidle ((Idle.call rfl).bind fun r => Idle.announceOrLookup id r)
      (by simp only [ExchangeStep.duty, hstatus])
  · rename_i hstatus
    exact hidle (Idle.applyReject id step.cancelReason)
      (by simp only [ExchangeStep.duty, hstatus])
  all_goals
    rename_i hstatus
    exact hidle (Idle.currentOrder id) (by simp only [ExchangeStep.duty, hstatus])

/-- A named update refers to the order it names. -/
theorem resolveReference_named {update : AsyncExchangeUpdate} (h : update.orderID ≠ "") :
    resolveReference update = pure update.orderID := by
  unfold resolveReference
  dsimp only
  rw [if_neg fun hboth => h hboth.1]
  show (if _ then _ else _) = _
  rw [if_neg fun hboth => h hboth.1]

/-- The fill of a step is applied, unless the step fails before. -/
theorem serves_applyStep (update : AsyncExchangeUpdate) (hnamed : update.orderID ≠ "")
    (hown : update.exchangeOrderID = update.orderID)
    (hdue : g.due = (update.step.duty update.orderID).toList ++ rest) :
    (applyStep update).Conforms courierProtocol
      (fun g' r => g'.owed = g.owed ∧ (r.2 = none → g' = { g with due := rest })) g := by
  have hstatus : (applyStatus update.orderID update.step).Conforms courierProtocol
      (fun g' r => g'.owed = g.owed ∧ (r.2 = none → g' = { g with due := rest })) g :=
    (serves_applyStatus hdue).mono fun g' _ hg => ⟨by rw [hg], fun _ => hg⟩
  unfold applyStep
  rw [resolveReference_named hnamed]
  show Prog.Conforms _ _ _ (if update.orderID = "" then _ else _)
  rw [if_neg hnamed]
  split
  · refine ⟨hown, fun r _ => ?_⟩
    obtain ⟨bound, _ | err⟩ := r
    · exact hstatus
    · exact ⟨rfl, nofun⟩
  · exact hstatus

theorem serves_applySteps {reserved : Order} (hnamed : reserved.id ≠ "")
    {steps : List ExchangeStep} (hown : ∀ step ∈ steps, step.exchangeOrderID = reserved.id)
    (final : Order) (hdue : g.due = steps.filterMap (·.duty reserved.id) ++ rest) :
    (applySteps reserved steps final).Conforms courierProtocol
      (fun g' _ => g'.owed = g.owed) g := by
  induction steps generalizing g final with
  | nil => exact rfl
  | cons step steps ih =>
    obtain ⟨hstep, hsteps⟩ := List.forall_mem_cons.mp hown
    rw [List.filterMap_eq_flatMap_toList, List.flatMap_cons, ← List.filterMap_eq_flatMap_toList,
      List.append_assoc] at hdue
    unfold applySteps
    refine (serves_applyStep ⟨reserved.id, step.exchangeOrderID, reserved.idempotencyKey, step⟩
      hnamed hstep hdue).bind fun g' r hr => ?_
    obtain ⟨updated, _ | err⟩ := r
    · obtain rfl := hr.2 rfl
      exact (ih hsteps updated rfl).mono fun _ _ h => h
    · exact hr.1

end Fills

/-! ## Submit -/

section Submit

variable {g : Courier} {req : ExecutionRequest}

/-- No request is scaled up. -/
theorem abs_scaledRequest_le (decision : RiskDecision) (req : ExecutionRequest) :
    |(scaledRequest decision req).size| ≤ |req.size| := by
  unfold scaledRequest
  split
  · rename_i h
    show |req.size * decision.sizeMultiplier| ≤ |req.size|
    rw [abs_mul]
    refine mul_le_of_le_one_right (abs_nonneg _) ?_
    rw [abs_of_pos h.1]
    exact h.2.1.le
  · exact le_rfl

theorem serves_markSent {reserved : Order} (hown : reserved.OwnName) :
    (markSent reserved).Conforms courierProtocol
      (fun g' sent => g' = g ∧ sent.id = reserved.id ∧ sent.OwnName) g := by
  refine ⟨trivial, fun sentAt _ => ⟨trivial, fun r hr => ?_⟩⟩
  obtain ⟨sent, _ | err⟩ := r
  · exact ⟨trivial, fun _ _ => ⟨rfl, hr rfl⟩⟩
  · exact ⟨rfl, rfl, hown⟩

theorem serves_sendReserved (started : Time) {reserved : Order} (hnamed : reserved.id ≠ "")
    (hown : reserved.OwnName) :
    (sendReserved started reserved).Conforms courierProtocol (fun g' _ => g'.owed = g.owed) g := by
  refine (serves_markSent hown).bind fun g' sent hsent => ?_
  obtain ⟨rfl, hid, hsentOwn⟩ := hsent
  refine ⟨trivial, fun reply hreply => ⟨trivial, fun finished _ => ?_⟩⟩
  cases reply with
  | error message =>
    exact ⟨trivial, fun _ _ => ⟨hsentOwn, fun _ _ => ⟨trivial, fun _ _ => rfl⟩⟩⟩
  | ok steps =>
    refine ⟨trivial, fun _ _ => ?_⟩
    exact (serves_applySteps (hid ▸ hnamed) hreply sent rfl).mono fun _ _ h => h

theorem serves_reserveAndSend (async : Bool) (started requestAt : Time)
    {original : ExecutionRequest} (hjob : g.job.1 = .submit original)
    (hsize : |req.size| ≤ |original.size|) :
    (reserveAndSend async started requestAt req).Conforms courierProtocol
      (fun g' _ => g'.owed = g.owed) g := by
  refine ⟨trivial, fun opened _ => ?_⟩
  refine (Idle.cancelSelfTrades async req opened g).bind fun g' _ hg => ?_
  obtain rfl := hg
  refine ⟨trivial, fun id hid => ⟨trivial, fun sendAt _ =>
    ⟨⟨rfl, hid, original, hjob, hsize⟩, fun r hr => ?_⟩⟩⟩
  obtain ⟨reserved, duplicate, err⟩ := r
  show Prog.Conforms _ _ _ (if duplicate = true then _ else _)
  split
  · exact rfl
  · rename_i hnew
    obtain ⟨hreserved, hown⟩ := hr (by simpa using hnew)
    have hnamed : reserved.id ≠ "" := hreserved ▸ hid
    split
    · exact rfl
    · exact rfl
    · exact serves_sendReserved started hnamed hown
    · exact serves_sendReserved started hnamed hown

theorem serves_submit (async : Bool) (hjob : g.job.1 = .submit req) :
    (submit async req).Conforms courierProtocol (fun g' _ => g'.owed = g.owed) g := by
  refine (Idle.call rfl g).bind fun g' started hg => ?_
  obtain rfl := hg
  dsimp only
  split
  · exact rfl
  · refine (Idle.call rfl g').bind fun g'' decision hg => ?_
    obtain rfl := hg
    split
    · exact serves_reserveAndSend async started _ hjob (abs_scaledRequest_le decision req)
    · exact ⟨trivial, fun _ _ => ⟨trivial, fun _ _ => rfl⟩⟩

end Submit

theorem serves_code (env : Env) (j : PaperJob) :
    (code env j.1).Conforms courierProtocol (fun g' _ => g'.owed = []) ⟨j, [], []⟩ := by
  have hidle : ∀ {p : Gw (Order × Option Err)}, Idle p →
      p.Conforms courierProtocol (fun g' _ => g'.owed = []) ⟨j, [], []⟩ := fun hp =>
    (hp _).mono fun _ _ hg => by rw [hg]
  obtain ⟨j, hpaper⟩ := j
  cases j with
  | submit req => exact serves_submit _ rfl
  | cancel orderID reason => exact hidle (Idle.cancel _ _ _)
  | replace orderID newPrice => exact hidle (Idle.replace _ _ _)
  | switchStrategy orderID strategy price reason => exact hidle (Idle.switchStrategy _ _ _ _ _)
  | applyAsyncUpdate update => cases hpaper
  | streamHandler update => cases hpaper
  | executionEvent | marketEvent | killSwitch =>
    exact hidle ((Idle.call rfl).bind fun _ => .pure _)

/-- The control plane on the paper exchange. -/
def paperPlane (exp : ℚ → ℚ) : System Op Res Plane PaperJob (Order × Option Err) :=
  (plane ⟨exp, PaperExchange.exchange⟩).among (·.brought = [])

def couriers (exp : ℚ → ℚ) : Discipline (paperPlane exp) Courier where
  protocol := courierProtocol
  jobOf := Courier.job
  init j := ⟨j, [], []⟩
  post g _ := g.owed = []
  jobOf_init _ := rfl
  jobOf_next g o r := by
    show (g.next o r).job = g.job
    unfold Courier.next
    split
    · rfl
    · rfl
    · rfl
    · split <;> rfl
    · rfl
  code j := serves_code _ j

/-! ## What a call keeps -/

section Call

variable {env : Env} {p p' : Plane} {g : Courier} {o : Op} {r : Res o}

/-- Every stored order has its own name, or none. -/
def Store.OwnNames (s : Store) : Prop := ∀ x o, s.orders.lookup x = some o → o.OwnName

/-- An exchange id stands for the order with this id. -/
def Store.SameNames (s : Store) : Prop := ∀ x id, s.exchangeIDs.lookup x = some id → id = x

theorem Store.SameNames.resolve {s : Store} (h : s.SameNames) (id : OrderID) :
    s.resolve id = id := by
  unfold Store.resolve
  cases hid : s.exchangeIDs.lookup id with
  | none => rfl
  | some x => exact h id x hid

theorem Store.SameNames.bindExchangeID {s : Store} (h : s.SameNames) {x : String} {id : OrderID}
    (hx : x = "" ∨ x = id) : (s.bindExchangeID x id).SameNames := by
  intro y i hy
  unfold Store.bindExchangeID at hy
  split at hy
  · rename_i hset
    rw [GoMap.lookup_insert_ite] at hy
    split at hy
    · rename_i hyx
      rw [← Option.some.inj hy, hyx]
      exact (hx.resolve_left hset).symm
    · exact h y i hy
  · exact h y i hy

theorem ownName_written (hwf : p.store.WellFormed) (hown : p.store.OwnNames)
    (hallowed : g.allowed o) {now : Time} {w : Order} (hw : o.written now p.store = some w) :
    w.OwnName := by
  cases o with
  | reserveOrder order =>
    simp only [Op.written] at hw
    split at hw
    · obtain rfl := Option.some.inj hw
      exact .inl hallowed.1
    · cases hw
  | updateOrder order =>
    obtain rfl := Option.some.inj hw
    exact hallowed
  | replaceOrderPrice id price =>
    obtain ⟨stored, hs, hw⟩ := Option.bind_eq_some_iff.mp hw
    split at hw
    · cases hw
    · obtain rfl := Option.some.inj hw
      exact hown id stored hs
  | markOrderSent | markOrderAck | cancelOrder | applyExternalFill =>
    obtain ⟨stored, hs, rfl⟩ := Option.map_eq_some_iff.mp hw
    exact hown _ stored hs
  | bindExchangeOrderID id x =>
    obtain ⟨stored, hs, rfl⟩ := Option.map_eq_some_iff.mp hw
    obtain rfl : x = id := hallowed
    exact .inr (hwf.stored x stored hs).symm
  | _ => cases hw

theorem ownNames_step (hwf : p.store.WellFormed) (hown : p.store.OwnNames)
    (hallowed : g.allowed o) (hsem : sem env o p r p') : p'.store.OwnNames := by
  obtain ⟨now, horders⟩ := sem_orders hsem
  intro x order hx
  rw [horders] at hx
  cases hw : o.written now p.store with
  | none =>
    rw [hw] at hx
    exact hown x order hx
  | some w =>
    rw [hw, Store.lookup_writeOrder_some] at hx
    split at hx
    · rw [← Option.some.inj hx]
      exact ownName_written hwf hown hallowed hw
    · exact hown x order hx

theorem sameNames_step (hwf : p.store.WellFormed) (hsame : p.store.SameNames)
    (hallowed : g.allowed o) (hsem : sem env o p r p') : p'.store.SameNames := by
  cases o with
  | reserveOrder order =>
    obtain ⟨now, -, rfl⟩ := hsem
    simp only [Store.reserveOrder]
    split
    · exact hsame
    · exact Store.SameNames.bindExchangeID (s := Store.reserveKey _ _ (p.store.putOrder _)) hsame
        (.inl hallowed.1)
  | updateOrder order =>
    obtain ⟨now, -, rfl⟩ := hsem
    exact Store.SameNames.bindExchangeID (s := p.store.putOrder _) hsame hallowed
  | bindExchangeOrderID id x =>
    obtain ⟨now, -, rfl⟩ := hsem
    simp only [Store.bindExchangeOrderID]
    split
    · exact hsame
    · rename_i order horder
      refine Store.SameNames.bindExchangeID (s := p.store.putOrder _) hsame (.inr ?_)
      rw [hwf.stored id order horder]
      exact hallowed
  | markOrderSent | markOrderAck | cancelOrder =>
    obtain ⟨now, -, rfl⟩ := hsem
    simp only [Store.markOrderSent, Store.markOrderAck, Store.cancelOrder, Store.amend]
    split
    · exact hsame
    · exact hsame
  | replaceOrderPrice id price =>
    obtain ⟨now, -, rfl⟩ := hsem
    simp only [Store.replaceOrderPrice]
    split
    · exact hsame
    · split
      · exact hsame
      · exact hsame
  | applyExternalFill id ledger execution =>
    obtain ⟨now, -, rfl⟩ := hsem
    simp only [Store.applyExternalFill]
    split
    · exact hsame
    · exact hsame
  | setAccountState account =>
    obtain ⟨now, -, rfl⟩ := hsem
    exact hsame
  | _ =>
    rw [sem_reads hsem rfl]
    exact hsame

/-- The exchange names an order by its id. -/
theorem exchangeOrderID_sendOrder {done : Option String} {now : Time} {order : Order}
    {steps : List ExchangeStep} (h : .ok steps = PaperExchange.sendOrder done now order) :
    ∀ step ∈ steps, step.exchangeOrderID = order.id := by
  cases done with
  | some message => cases h
  | none =>
    obtain rfl := Except.ok.inj (h.trans (PaperExchange.sendOrder_ok now order))
    refine List.forall_mem_cons.mpr ⟨rfl, ?_⟩
    generalize PaperExchange.buildPaperFills order _ _ = fills
    induction fills with
    | nil => exact fun _ hstep => absurd hstep List.not_mem_nil
    | cons fill rest ih =>
      cases rest with
      | nil => exact List.forall_mem_singleton.mpr rfl
      | cons fill' rest => exact List.forall_mem_cons.mpr ⟨rfl, ih⟩

/-- The store and the exchange answer as the protocol relies on. -/
theorem courier_returns {exp : ℚ → ℚ} (hwf : p.store.WellFormed) (hown : p.store.OwnNames)
    (hallowed : g.allowed o) (hsem : sem ⟨exp, PaperExchange.exchange⟩ o p r p') :
    g.returns o r := by
  cases o with
  | newID => exact hsem.1.1
  | reserveOrder order =>
    rcases sem_reserveOrder hsem with ⟨id, -, rfl, -⟩ | ⟨-, now, rfl, -, -⟩
    · exact nofun
    · exact fun _ => ⟨rfl, .inl hallowed.1⟩
  | markOrderSent id sentAt =>
    intro hr
    obtain ⟨now, stored, hs, hsent⟩ := sem_markOrderSent hsem hr
    rw [hsent]
    exact ⟨hwf.stored id stored hs, hown id stored hs⟩
  | order id =>
    obtain ⟨hfound, -⟩ := hsem
    exact fun order horder => hown id order (hfound.symm.trans horder)
  | sendOrder order =>
    obtain ⟨⟨done, now, hreply⟩, -⟩ := hsem
    cases r with
    | error message => exact trivial
    | ok steps => exact exchangeOrderID_sendOrder hreply
  | _ => exact trivial

/-- What is applied was due, and what is brought is due. -/
theorem due_next (hallowed : g.allowed o) (i : Nat) (p p' : Plane) (r : Res o) :
    (PlaneEntry.serves ⟨i, p, ⟨o, r⟩, p'⟩).toList ++ (g.next o r).due =
      PlaneEntry.brings ⟨i, p, ⟨o, r⟩, p'⟩ ++ g.due := by
  cases o with
  | sendOrder order =>
    cases r with
    | error message => rfl
    | ok steps => rfl
  | applyExternalFill id ledger execution =>
    have hdue : ⟨id, ledger, execution⟩ :: g.due.tail = g.due :=
      List.cons_head?_tail hallowed
    obtain ⟨updated, position, _ | err⟩ := r
    · exact hdue
    · exact hdue
  | emit update =>
    cases update with
    | executionUpdate update =>
      show (if update.ledger.isSome then _ else g).due = g.due
      split
      · rfl
      · rfl
    | _ => rfl
  | _ => rfl

/-- What is announced was owed, and what is applied is owed. -/
theorem owed_next (hallowed : g.allowed o) (i : Nat) (p p' : Plane) (r : Res o) :
    (PlaneEntry.tells ⟨i, p, ⟨o, r⟩, p'⟩).toList ++ (g.next o r).owed =
      (PlaneEntry.owes ⟨i, p, ⟨o, r⟩, p'⟩).toList ++ g.owed := by
  cases o with
  | sendOrder order =>
    cases r with
    | error message => rfl
    | ok steps => rfl
  | applyExternalFill id ledger execution =>
    obtain ⟨updated, position, _ | err⟩ := r
    · rfl
    · rfl
  | emit update =>
    cases update with
    | executionUpdate update =>
      show (if update.ledger.isSome then some update else none).toList ++
        (if update.ledger.isSome then { g with owed := g.owed.tail } else g).owed = g.owed
      split
      · rename_i hfill
        rcases hallowed with hnone | howed
        · rw [hnone] at hfill
          cases hfill
        · exact List.cons_head?_tail howed
      · rfl
    | _ => rfl
  | _ => rfl

end Call

/-! ## Runs -/

structure CourierInv (tr : List PlaneEntry) (gs : List Courier) (p : Plane) : Prop where
  wellFormed : p.store.WellFormed
  own : p.store.OwnNames
  same : p.store.SameNames
  served : (served tr : Multiset Duty) + (gs.map fun g => (g.due : Multiset Duty)).sum = brought tr
  told : (told tr : Multiset ExecutionUpdate) +
    (gs.map fun g => (g.owed : Multiset ExecutionUpdate)).sum = applied tr

theorem CourierInv.step {exp : ℚ → ℚ} {tr : List PlaneEntry} {gs : List Courier} {p p' : Plane}
    {i : Nat} {g : Courier} {o : Op} {r : Res o} (h : CourierInv tr gs p) (hg : gs[i]? = some g)
    (hallowed : g.allowed o) (hsem : sem ⟨exp, PaperExchange.exchange⟩ o p r p') :
    CourierInv (tr ++ [⟨i, p, ⟨o, r⟩, p'⟩]) (gs.set i (g.next o r)) p' where
  wellFormed := sem_wellFormed hsem h.wellFormed
  own := ownNames_step h.wellFormed h.own hallowed hsem
  same := sameNames_step h.wellFormed h.same hallowed hsem
  served := by
    rw [served_concat, brought_concat, ← Multiset.coe_add, ← Multiset.coe_add]
    refine Data.balanced_set _ hg h.served ?_
    rw [Multiset.coe_add, Multiset.coe_add, due_next hallowed]
  told := by
    rw [told_concat, applied_concat, ← Multiset.coe_add, ← Multiset.coe_add]
    refine Data.balanced_set _ hg h.told ?_
    rw [Multiset.coe_add, Multiset.coe_add, owed_next hallowed]

theorem courierInvariant (exp : ℚ → ℚ) {p₀ : Plane} (hnew : p₀.store = .newStore) :
    (couriers exp).Invariant p₀ CourierInv where
  init := {
    wellFormed := hnew ▸ Store.newStore_wellFormed
    own := fun x o h => by
      rw [hnew] at h
      cases h
    same := fun x id h => by
      rw [hnew] at h
      cases h
    served := rfl
    told := rfl }
  start tr gs p j h := {
    h with
    served := by
      rw [List.map_append, List.sum_append, List.map_singleton, List.sum_singleton]
      exact (congrArg _ (add_zero _)).trans h.served
    told := by
      rw [List.map_append, List.sum_append, List.map_singleton, List.sum_singleton]
      exact (congrArg _ (add_zero _)).trans h.told }
  step tr gs p i g o r p' h hg hallowed hsem :=
    ⟨courier_returns h.wellFormed h.own hallowed hsem, h.step hg hallowed hsem⟩

end RealTimeTrading.ControlPlane
