/-
RealTimeTrading.ControlPlane.Protocol — what a gateway program may call,
given what it has been told.

Each running call carries a `Local`: the orders it has copies of, the ids
`newID` gave it, and how far its `Submit` is. The protocol says that only
an order `Submit` made is reserved, that `UpdateOrder` is only called with
a copy of a stored order marked REJECTED, and that `SendOrder` is called
once, by the holder of a fresh reservation. Every program of the gateway
conforms (`discipline`).
-/
import RealTimeTrading.ControlPlane.PlaneTheorems
import RealTimeTrading.ControlPlane.Programs

namespace RealTimeTrading.ControlPlane

open RealTimeTrading.Concurrency

/-! ## Local state of a call -/

/-- How far a `Submit` is. Other calls stay in `checking`. -/
inductive Phase where
  /-- The risk service has not allowed the request. -/
  | checking
  | passed
  /-- It reserved this order and has not sent it yet. -/
  | holding (ident : OrderIdent)
  | sent
  /-- The key was taken; this is the order it was answered with. -/
  | answered (order : Order)

structure Local where
  job : Job
  known : List OrderIdent := []
  minted : List OrderID := []
  phase : Phase := .checking

/-- The order was made for this request. A reduce-only request is never scaled. -/
structure OrderIdent.For (req : ExecutionRequest) (i : OrderIdent) : Prop where
  idempotencyKey : i.idempotencyKey = req.idempotencyKey
  symbol : i.symbol = req.symbol
  side : i.side = req.side
  size : req.reduceOnly = true → i.size = req.size

/-! ## The protocol -/

namespace Local

def allowed (g : Local) : Op → Prop
  | .evaluate req => g.job = .submit req ∧ g.phase = .checking
  | .reserveOrder order =>
    g.phase = .passed ∧ order.id ∈ g.minted ∧ order.filled = 0 ∧
      ∃ req, g.job = .submit req ∧ order.ident.For req
  | .updateOrder order => order.status = .rejected ∧ order.ident ∈ g.known
  | .sendOrder order => g.phase = .holding order.ident
  | _ => True

def returns (g : Local) : (o : Op) → Res o → Prop
  | .reserveOrder order, r => r.2.1 = false → r.1.ident = order.ident ∧ r.2.2 = none
  | .markOrderSent id _, r =>
    r.2 = none → r.1.id = id ∧ ∀ i ∈ g.known, i.id = id → r.1.ident = i
  | .order id, r => ∀ o, r = some o → o.id = id
  | _, _ => True

def learn (g : Local) (order : Order) : Local := { g with known := order.ident :: g.known }

def next (g : Local) : (o : Op) → Res o → Local
  | .evaluate _, decision => if decision.allowed = true then { g with phase := .passed } else g
  | .newID, id => { g with minted := id :: g.minted }
  | .reserveOrder _, (reserved, duplicate, _) =>
    if duplicate = true then { g with phase := .answered reserved }
    else
      { g.learn reserved with
        minted := g.minted.filter (· ≠ reserved.id)
        phase := .holding reserved.ident }
  | .markOrderSent _ _, (sent, none) => g.learn sent
  | .order _, some found => g.learn found
  | .sendOrder _, _ => { g with phase := .sent }
  | _, _ => g

/-- What a call has done when it returns. -/
def done (g : Local) (result : Order × Option Err) : Prop :=
  match g.phase with
  | .checking | .sent => True
  | .passed | .holding _ => False
  | .answered order => result = (order, none)

end Local

def protocol : Protocol Op Res Local := ⟨Local.allowed, Local.returns, Local.next⟩

/-! ## Programs that keep their caller's phase -/

/-- The call may have read orders, and nothing else changed for it. -/
structure Local.Keeps (g g' : Local) : Prop where
  job : g'.job = g.job
  known : g.known ⊆ g'.known
  minted : g'.minted = g.minted
  phase : g'.phase = g.phase

namespace Local.Keeps

theorem refl (g : Local) : g.Keeps g := ⟨rfl, fun _ h => h, rfl, rfl⟩

theorem learn (g : Local) (o : Order) : g.Keeps (g.learn o) :=
  ⟨rfl, fun _ h => List.mem_cons_of_mem _ h, rfl, rfl⟩

theorem trans {a b c : Local} (h : a.Keeps b) (h' : b.Keeps c) : a.Keeps c :=
  ⟨h'.job.trans h.job, fun _ hx => h'.known (h.known hx), h'.minted.trans h.minted,
    h'.phase.trans h.phase⟩

end Local.Keeps

/-- The program conforms from any local state and keeps it. -/
def Quiet {α : Type} (p : Gw α) : Prop :=
  ∀ g : Local, p.Conforms protocol (fun g' _ => g.Keeps g') g

namespace Quiet

variable {α β : Type}

theorem pure (a : α) : Quiet (Pure.pure a) := Local.Keeps.refl

theorem bind {p : Gw α} {f : α → Gw β} (hp : Quiet p) (hf : ∀ a, Quiet (f a)) :
    Quiet (p >>= f) := fun g =>
  (hp g).bind fun g' a h => (hf a g').mono fun _ _ h' => h.trans h'

/-- A call that is always allowed and changes nothing but what is known. -/
theorem call {o : Op} (hallowed : ∀ g, Local.allowed g o)
    (hnext : ∀ (g : Local) r, g.Keeps (g.next o r)) : Quiet (call o) := fun g =>
  ⟨hallowed g, fun r _ => hnext g r⟩

end Quiet

section QuietCalls

/-- The calls that are always allowed and teach their caller nothing. -/
def Op.isSilent : Op → Bool
  | .evaluate _ | .newID | .reserveOrder _ | .updateOrder _ | .markOrderSent _ _ | .order _
  | .sendOrder _ => false
  | _ => true

theorem quiet_silent {o : Op} (h : o.isSilent = true) : Quiet (call o) := by
  cases o <;> first | exact .call (fun _ => trivial) (fun g _ => .refl g) | cases h

theorem quiet_order (id : OrderID) : Quiet (call (.order id)) :=
  .call (fun _ => trivial) fun g r => by
    cases r with
    | none => exact .refl g
    | some o => exact .learn g o

theorem quiet_sequenced : Sequenced @Quiet where
  ret := .pure
  bind := .bind
  plain {o} h := by
    cases o with
    | order id => exact quiet_order id
    | _ => first | exact quiet_silent rfl | cases h

theorem quiet_announceOrLookup (id : OrderID) (result : Order × Option Err) :
    Quiet (announceOrLookup id result) := by
  obtain ⟨updated, _ | err⟩ := result
  · exact (quiet_silent rfl).bind fun _ => (quiet_silent rfl).bind fun _ => .pure _
  · exact quiet_sequenced.currentOrder id

theorem quiet_announceUpdated (updated : Order) : Quiet (announceUpdated updated) :=
  (quiet_silent rfl).bind fun _ => (quiet_silent rfl).bind fun _ => .pure _

theorem quiet_applyFill (id : OrderID) (ledger : FillLedgerEntry) (execution : ExecutionEvent) :
    Quiet (applyFill id ledger execution) := by
  refine (quiet_silent rfl).bind fun r => ?_
  obtain ⟨updated, position, _ | err⟩ := r
  · exact (quiet_silent rfl).bind fun _ => (quiet_silent rfl).bind fun _ =>
      (quiet_silent rfl).bind fun _ => (quiet_silent rfl).bind fun _ =>
      (quiet_silent rfl).bind fun _ => (quiet_silent rfl).bind fun _ => .pure _
  · exact .pure _

/-- The REJECTED branch writes back the copy it has just read. -/
theorem quiet_applyReject (id : OrderID) (reason : String) : Quiet (applyReject id reason) := by
  intro g
  refine ⟨trivial, fun found _ => ?_⟩
  cases found with
  | none => exact .refl g
  | some o => exact ⟨⟨rfl, List.mem_cons_self⟩, fun _ _ => ⟨trivial, fun _ _ => .learn g o⟩⟩

theorem quiet_cancelLocal (id : OrderID) (reason : String) : Quiet (cancelLocal id reason) := by
  refine (quiet_silent rfl).bind fun t => (quiet_silent rfl).bind fun r => ?_
  obtain ⟨updated, _ | err⟩ := r
  · exact quiet_announceUpdated updated
  · exact .pure _

theorem quiet_replace (async : Bool) (id : OrderID) (newPrice : ℚ) :
    Quiet (replace async id newPrice) := by
  refine (quiet_silent rfl).bind fun stopped => ?_
  cases stopped with
  | some message => exact .pure _
  | none =>
    refine (quiet_silent rfl).bind fun r => ?_
    obtain ⟨updated, _ | err⟩ := r
    · dsimp only
      split
      · refine (quiet_silent rfl).bind fun remote => ?_
        cases remote with
        | some message => exact .pure _
        | none => exact quiet_announceUpdated _
      · exact quiet_announceUpdated _
    · exact .pure _

theorem quiet_stepwise : Stepwise @Quiet where
  toSequenced := quiet_sequenced
  acked id _ := (quiet_silent rfl).bind (quiet_announceOrLookup id)
  canceled id _ _ := (quiet_silent rfl).bind (quiet_announceOrLookup id)
  applyFill := quiet_applyFill
  applyReject := quiet_applyReject

theorem quiet_made : Made @Quiet where
  toStepwise := quiet_stepwise
  cancelLocal := quiet_cancelLocal
  replace := quiet_replace

end QuietCalls

/-! ## Submit -/

section Submit

variable {req : ExecutionRequest} {g : Local}

/-- `MarkOrderSent` returns the order that was reserved, or the caller keeps
the copy it has. -/
theorem conforms_markSent {reserved : Order} (hknown : reserved.ident ∈ g.known) :
    (markSent reserved).Conforms protocol
      (fun g' sent => g.Keeps g' ∧ sent.ident = reserved.ident ∧ sent.ident ∈ g'.known) g := by
  refine ⟨trivial, fun sentAt _ => ⟨trivial, fun r hr => ?_⟩⟩
  obtain ⟨sent, _ | err⟩ := r
  · have hident : sent.ident = reserved.ident := (hr rfl).2 _ hknown rfl
    exact ⟨trivial, fun _ _ => ⟨.learn g sent, hident, List.mem_cons_self⟩⟩
  · exact ⟨.refl g, rfl, hknown⟩

/-- The holder of a reservation sends it, and afterwards only writes back the
copy it sent. -/
theorem conforms_sendReserved (started : Time) {reserved : Order}
    (hphase : g.phase = .holding reserved.ident) (hknown : reserved.ident ∈ g.known) :
    (sendReserved started reserved).Conforms protocol Local.done g := by
  refine (conforms_markSent hknown).bind fun g' sent ⟨hkeeps, hident, hmem⟩ => ?_
  refine ⟨?_, fun reply _ => ⟨trivial, fun finished _ => ?_⟩⟩
  · show g'.phase = .holding sent.ident
    rw [hkeeps.phase, hphase, hident]
  · cases reply with
    | error message =>
      exact ⟨trivial, fun _ _ => ⟨⟨rfl, hmem⟩, fun _ _ => ⟨trivial, fun _ _ => trivial⟩⟩⟩
    | ok steps =>
      refine ⟨trivial, fun _ _ =>
        (quiet_stepwise.applySteps sent steps sent _).mono fun g'' result h => ?_⟩
      have hsent : g''.phase = .sent := h.phase
      simp only [Local.done, hsent]

theorem scaledRequest_for (decision : RiskDecision) (id : OrderID) (requestAt sendAt : Time) :
    (requestOrder id requestAt sendAt (scaledRequest decision req)).ident.For req := by
  unfold scaledRequest
  split
  · rename_i h
    exact ⟨rfl, rfl, rfl, fun hreduce => by simp [hreduce] at h⟩
  · exact ⟨rfl, rfl, rfl, fun _ => rfl⟩

theorem conforms_reserveAndSend (async : Bool) (started requestAt : Time) (decision : RiskDecision)
    (hjob : g.job = .submit req) (hphase : g.phase = .passed) :
    (reserveAndSend async started requestAt (scaledRequest decision req)).Conforms protocol
      Local.done g := by
  refine ⟨trivial, fun opened _ =>
    (quiet_sequenced.cancelSelfTrades async _ opened _).bind fun g' _ h => ?_⟩
  refine ⟨trivial, fun id _ => ⟨trivial, fun sendAt _ => ⟨?_, fun r hr => ?_⟩⟩⟩
  · exact ⟨h.phase.trans hphase, List.mem_cons_self, rfl, req, h.job.trans hjob,
      scaledRequest_for decision id requestAt sendAt⟩
  · obtain ⟨reserved, duplicate, err⟩ := r
    cases duplicate with
    | true => exact rfl
    | false =>
      obtain ⟨-, herr⟩ := hr rfl
      obtain rfl : err = none := herr
      exact conforms_sendReserved started rfl List.mem_cons_self

theorem conforms_submit (async : Bool) (hjob : g.job = .submit req) (hphase : g.phase = .checking) :
    (submit async req).Conforms protocol Local.done g := by
  have hdone : ∀ (g' : Local) result, g'.phase = .checking → g'.done result := by
    intro g' result h
    simp only [Local.done, h]
  refine ⟨trivial, fun started _ => ?_⟩
  dsimp only
  split
  · exact hdone _ _ hphase
  · refine ⟨⟨hjob, hphase⟩, fun decision _ => ?_⟩
    show Prog.Conforms protocol Local.done _ (if decision.allowed = true then _ else _)
    split
    · rename_i hallowed
      refine conforms_reserveAndSend async started _ decision ?_ ?_ <;>
        simp [protocol, Local.next, hallowed, hjob]
    · rename_i hrefused
      refine ⟨trivial, fun id _ => ⟨trivial, fun _ _ => hdone _ _ ?_⟩⟩
      simp [protocol, Local.next, hrefused, hphase]

end Submit

/-! ## The discipline of the control plane -/

theorem Quiet.conforms {p : Gw (Order × Option Err)} (h : Quiet p) (j : Job) :
    p.Conforms protocol Local.done ⟨j, [], [], .checking⟩ :=
  (h _).mono fun g' _ hkeeps => by simp only [Local.done, hkeeps.phase]

theorem conforms_code (env : Env) (j : Job) :
    (code env j).Conforms protocol Local.done ⟨j, [], [], .checking⟩ := by
  cases j with
  | submit req => exact conforms_submit _ rfl rfl
  | cancel orderID reason => exact (quiet_made.cancel _ _ _).conforms _
  | replace orderID newPrice => exact (quiet_replace _ _ _).conforms _
  | switchStrategy orderID strategy price reason =>
    exact (quiet_made.switchStrategy _ _ _ _ _).conforms _
  | applyAsyncUpdate update => exact (quiet_stepwise.applyStep update).conforms _
  | streamHandler update => exact (quiet_stepwise.streamHandler update).conforms _
  | executionEvent | marketEvent | killSwitch =>
    exact ((quiet_silent rfl).bind fun _ => Quiet.pure _).conforms _

theorem Local.next_job (g : Local) (o : Op) (r : Res o) : (g.next o r).job = g.job := by
  unfold Local.next
  split <;> first | rfl | (split <;> rfl)

/-- Every job of the control plane follows the protocol. -/
def discipline (env : Env) : Discipline (plane env) Local where
  protocol := protocol
  jobOf := Local.job
  init j := ⟨j, [], [], .checking⟩
  post := Local.done
  jobOf_init _ := rfl
  jobOf_next := Local.next_job
  code := conforms_code env

end RealTimeTrading.ControlPlane
