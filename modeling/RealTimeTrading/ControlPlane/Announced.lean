/-
RealTimeTrading.ControlPlane.Announced — what a listener may believe.

An execution update is only ever emitted for an order that a method of
the store has just returned (`announcing`), so it is about a stored order
(`run_announced`). The ids of the stored orders are those there were at
the start and those `newID` handed out since (`run_ids`).
-/
import RealTimeTrading.ControlPlane.Invariant

namespace RealTimeTrading.ControlPlane

open RealTimeTrading.Concurrency

/-! ## The protocol -/

/-- The order that was amended, where the call returned one. -/
def Op.amended : (o : Op) → Res o → Option Order
  | .markOrderAck _ _, (updated, none) | .cancelOrder _ _ _, (updated, none)
  | .replaceOrderPrice _ _, (updated, none) => some updated
  | .applyExternalFill _ _ _, (updated, _, none) => some updated
  | _, _ => none

def Op.announces : Op → Bool
  | .emit (.executionUpdate _) => true
  | _ => false

/-- A call with the ids of the orders it got back amended. -/
structure Teller where
  job : Job
  told : List OrderID := []

namespace Teller

def allowed (g : Teller) : Op → Prop
  | .emit (.executionUpdate update) => update.order.id ∈ g.told
  | _ => True

def next (g : Teller) (o : Op) (r : Res o) : Teller :=
  match o.amended r with
  | some order => { g with told := order.id :: g.told }
  | none => g

end Teller

def tellerProtocol : Protocol Op Res Teller := ⟨Teller.allowed, fun _ _ _ => True, Teller.next⟩

/-- From any state of its caller, the program announces only what it was told. -/
def Truthful {α : Type} (p : Gw α) : Prop :=
  ∀ g : Teller, p.Conforms tellerProtocol (fun _ _ => True) g

/-! ## The programs -/

namespace Truthful

variable {α β : Type}

theorem pure (a : α) : Truthful (Pure.pure a) := fun _ => trivial

theorem bind {p : Gw α} {f : α → Gw β} (hp : Truthful p) (hf : ∀ a, Truthful (f a)) :
    Truthful (p >>= f) := fun g => (hp g).bind fun g' a _ => hf a g'

theorem call {o : Op} (h : o.announces = false) : Truthful (call o) := by
  intro g
  refine ⟨?_, fun _ _ => trivial⟩
  cases o with
  | emit update =>
    cases update with
    | executionUpdate update => cases h
    | _ => trivial
  | _ => trivial

theorem sequenced : Sequenced @Truthful where
  ret := .pure
  bind := .bind
  plain {o} h := .call (by cases o <;> first | rfl | cases h)

end Truthful

section Told

variable {g : Teller} {updated : Order}

theorem told_emitOrder (h : updated.id ∈ g.told) :
    (emitOrder updated).Conforms tellerProtocol (fun _ _ => True) g :=
  ⟨h, fun _ _ => Truthful.call rfl _⟩

theorem told_announceUpdated (h : updated.id ∈ g.told) :
    (announceUpdated updated).Conforms tellerProtocol (fun _ _ => True) g :=
  ⟨h, fun _ _ => ((Truthful.call rfl).bind fun _ => .pure _) _⟩

theorem told_announceOrLookup (id : OrderID) {r : Order × Option Err}
    (h : r.2 = none → r.1.id ∈ g.told) :
    (announceOrLookup id r).Conforms tellerProtocol (fun _ _ => True) g := by
  obtain ⟨updated, _ | err⟩ := r
  · exact (told_emitOrder (h rfl)).bind fun _ _ _ => trivial
  · exact Truthful.sequenced.currentOrder id _

end Told

section Blocks

theorem truthful_acked (id : OrderID) (ackAt : Time) :
    Truthful (call (.markOrderAck id ackAt) >>= announceOrLookup id) := by
  refine fun g => ⟨trivial, fun r _ => told_announceOrLookup id fun hok => ?_⟩
  obtain ⟨updated, err⟩ := r
  obtain rfl : err = none := hok
  exact List.mem_cons_self

theorem truthful_canceled (id : OrderID) (reason : String) (canceledAt : Time) :
    Truthful (call (.cancelOrder id reason canceledAt) >>= announceOrLookup id) := by
  refine fun g => ⟨trivial, fun r _ => told_announceOrLookup id fun hok => ?_⟩
  obtain ⟨updated, err⟩ := r
  obtain rfl : err = none := hok
  exact List.mem_cons_self

theorem truthful_applyFill (id : OrderID) (ledger : FillLedgerEntry) (execution : ExecutionEvent) :
    Truthful (applyFill id ledger execution) := by
  intro g
  refine ⟨trivial, fun r _ => ?_⟩
  obtain ⟨updated, position, _ | err⟩ := r
  · have hrest : Truthful (do
        call (.emit (.positionUpdate position))
        call (.emit (.orderUpdate updated))
        pure (updated, none) : Gw (Order × Option Err)) :=
      (Truthful.call rfl).bind fun _ => (Truthful.call rfl).bind fun _ => .pure _
    exact ⟨trivial, fun _ _ => ⟨trivial, fun _ _ => ⟨trivial, fun _ _ =>
      ⟨List.mem_cons_self, fun _ _ => hrest _⟩⟩⟩⟩
  · exact trivial

theorem truthful_applyReject (id : OrderID) (reason : String) :
    Truthful (applyReject id reason) := by
  refine (Truthful.call rfl).bind fun found => ?_
  cases found with
  | none => exact .pure _
  | some o => exact (Truthful.call rfl).bind fun _ => (Truthful.call rfl).bind fun _ => .pure _

theorem truthful_stepwise : Stepwise @Truthful where
  toSequenced := Truthful.sequenced
  acked := truthful_acked
  canceled := truthful_canceled
  applyFill := truthful_applyFill
  applyReject := truthful_applyReject

theorem truthful_cancelLocal (id : OrderID) (reason : String) :
    Truthful (cancelLocal id reason) := by
  refine (Truthful.call rfl).bind fun canceledAt => ?_
  intro g
  refine ⟨trivial, fun r _ => ?_⟩
  obtain ⟨updated, _ | err⟩ := r
  · exact told_announceUpdated List.mem_cons_self
  · exact trivial

theorem truthful_replace (async : Bool) (id : OrderID) (newPrice : ℚ) :
    Truthful (replace async id newPrice) := by
  refine (Truthful.call rfl).bind fun stopped => ?_
  cases stopped with
  | some message => exact .pure _
  | none =>
    intro g
    refine ⟨trivial, fun r _ => ?_⟩
    obtain ⟨updated, _ | err⟩ := r
    · show Prog.Conforms _ _ _ (if async = true ∧ updated.exchangeOrderID ≠ "" then _ else _)
      split
      · refine ⟨trivial, fun remote _ => ?_⟩
        cases remote with
        | some message => exact trivial
        | none => exact told_announceUpdated List.mem_cons_self
      · exact told_announceUpdated List.mem_cons_self
    · exact trivial

theorem truthful_made : Made @Truthful where
  toStepwise := truthful_stepwise
  cancelLocal := truthful_cancelLocal
  replace := truthful_replace

end Blocks

section Submit

theorem truthful_markSent (reserved : Order) : Truthful (markSent reserved) := by
  refine (Truthful.call rfl).bind fun sentAt => (Truthful.call rfl).bind fun r => ?_
  obtain ⟨sent, _ | err⟩ := r
  · exact (Truthful.call rfl).bind fun _ => .pure _
  · exact .pure _

theorem truthful_sendReserved (started : Time) (reserved : Order) :
    Truthful (sendReserved started reserved) := by
  refine (truthful_markSent reserved).bind fun reserved => (Truthful.call rfl).bind fun reply =>
    (Truthful.call rfl).bind fun finished => ?_
  cases reply with
  | error message =>
    exact (Truthful.call rfl).bind fun _ => (Truthful.call rfl).bind fun _ =>
      (Truthful.call rfl).bind fun _ => .pure _
  | ok steps => exact (Truthful.call rfl).bind fun _ => truthful_stepwise.applySteps _ _ _

theorem truthful_reserveAndSend (async : Bool) (started requestAt : Time)
    (req : ExecutionRequest) : Truthful (reserveAndSend async started requestAt req) := by
  refine (Truthful.call rfl).bind fun opened =>
    (Truthful.sequenced.cancelSelfTrades async req opened).bind fun _ =>
    (Truthful.call rfl).bind fun id => (Truthful.call rfl).bind fun sendAt =>
    (Truthful.call rfl).bind fun r => ?_
  obtain ⟨reserved, duplicate, err⟩ := r
  dsimp only
  split
  · exact .pure _
  · split
    · exact .pure _
    · exact .pure _
    · exact truthful_sendReserved _ _
    · exact truthful_sendReserved _ _

theorem truthful_submit (async : Bool) (req : ExecutionRequest) :
    Truthful (submit async req) := by
  refine (Truthful.call rfl).bind fun started => ?_
  dsimp only
  split
  · exact .pure _
  · refine (Truthful.call rfl).bind fun decision => ?_
    split
    · exact truthful_reserveAndSend _ _ _ _
    · exact (Truthful.call rfl).bind fun _ => (Truthful.call rfl).bind fun _ => .pure _

end Submit

theorem truthful_code (env : Env) (j : Job) : Truthful (code env j) := by
  cases j with
  | submit req => exact truthful_submit _ _
  | cancel orderID reason => exact truthful_made.cancel _ _ _
  | replace orderID newPrice => exact truthful_replace _ _ _
  | switchStrategy orderID strategy price reason =>
    exact truthful_made.switchStrategy _ _ _ _ _
  | applyAsyncUpdate update => exact truthful_stepwise.applyStep update
  | streamHandler update => exact truthful_stepwise.streamHandler update
  | executionEvent | marketEvent | killSwitch =>
    exact (Truthful.call rfl).bind fun _ => .pure _

def announcing (env : Env) : Discipline (plane env) Teller where
  protocol := tellerProtocol
  jobOf := Teller.job
  init j := ⟨j, []⟩
  post _ _ := True
  jobOf_init _ := rfl
  jobOf_next g o r := by
    show (g.next o r).job = g.job
    unfold Teller.next
    split <;> rfl
  code j := truthful_code env j _

/-! ## Stored orders -/

section Stored

variable {env : Env} {p p' : Plane} {o : Op} {r : Res o}

theorem amend_stored {s : Store} {id : OrderID} {f : Order → Order} {updated : Order}
    (h : (s.amend id f).1 = (updated, none)) : updated.id ∈ (s.amend id f).2.orders := by
  cases hs : s.orders.lookup id with
  | none =>
    simp only [Store.amend, hs, Prod.mk.injEq, reduceCtorEq, and_false] at h
  | some stored =>
    simp only [Store.amend, hs, Prod.mk.injEq, and_true] at h ⊢
    rw [← h]
    exact Store.WellFormed.mem_putOrder _ _

/-- The order that a call returns amended is stored. -/
theorem sem_amended (hwf : p.store.WellFormed) (h : sem env o p r p') {updated : Order}
    (hr : o.amended r = some updated) : updated.id ∈ p'.store.orders := by
  cases o with
  | markOrderAck id ackAt | cancelOrder id reason canceledAt =>
    obtain ⟨now, hresult, rfl⟩ := h
    obtain ⟨order, _ | err⟩ := r
    · obtain rfl := Option.some.inj hr
      exact amend_stored hresult.symm
    · cases hr
  | replaceOrderPrice id price =>
    obtain ⟨now, hresult, rfl⟩ := h
    obtain ⟨order, _ | err⟩ := r
    · obtain rfl := Option.some.inj hr
      cases hs : p.store.orders.lookup id with
      | none =>
        simp only [Store.replaceOrderPrice, hs, Prod.mk.injEq, reduceCtorEq, and_false] at hresult
      | some stored =>
        simp only [Store.replaceOrderPrice, hs] at hresult ⊢
        by_cases hdone : stored.status.isTerminal = true
        · -- a finished order is returned as it is stored
          rw [if_pos hdone] at hresult ⊢
          rw [(Prod.mk.inj hresult).1, hwf.stored id stored hs]
          exact (GoMap.mem_iff_lookup _ _).mpr ⟨stored, hs⟩
        · rw [if_neg hdone] at hresult ⊢
          rw [(Prod.mk.inj hresult).1]
          exact Store.WellFormed.mem_putOrder _ _
    · cases hr
  | applyExternalFill id fill event =>
    obtain ⟨order, position, _ | err⟩ := r
    · obtain rfl := Option.some.inj hr
      rcases sem_applyExternalFill h with ⟨hrefused, -⟩ | ⟨-, now, stored, hs, hfilled, horders⟩
      · exact absurd rfl hrefused
      · rw [horders]
        exact (AList.mem_insert _).mpr (Or.inl rfl)
    · cases hr
  | _ => cases hr

theorem sem_updates (h : sem env o p r p') :
    p'.updates = p.updates ∨ ∃ update, o = .emit update ∧ p'.updates = p.updates ++ [update] := by
  cases o with
  | emit update =>
    rcases h with rfl | rfl
    · exact Or.inl rfl
    · exact Or.inr ⟨update, rfl, rfl⟩
  | newID | openOrdersBySymbol | order | orderByIdempotency | orderByExchangeID | sendOrder =>
    obtain ⟨-, rfl⟩ := h
    exact Or.inl rfl
  | evaluate req => obtain ⟨_, _, -, rfl⟩ := h; exact Or.inl rfl
  | observeMarket event => obtain ⟨_, rfl⟩ := h; exact Or.inl rfl
  | now | ctxErr | observeExecution | observeExecutionEvent | setKillSwitch | cancelRemote |
      replaceRemote | getAccountState =>
    obtain rfl := h
    exact Or.inl rfl
  | _ =>
    obtain ⟨now, -, rfl⟩ := h
    exact Or.inl rfl

end Stored

/-! ## Runs -/

/-- Every order that was announced is stored. -/
def Plane.Announced (p : Plane) : Prop :=
  ∀ update, Update.executionUpdate update ∈ p.updates → update.order.id ∈ p.store.orders

structure TellerInv (gs : List Teller) (p : Plane) : Prop where
  wellFormed : p.store.WellFormed
  told : ∀ (i : Nat) g, gs[i]? = some g → ∀ id ∈ g.told, id ∈ p.store.orders
  announced : p.Announced

section Run

variable {env : Env} {p₀ p p' : Plane} {tr : List PlaneEntry} {c : PlaneConfig} {gs : List Teller}
  {i : Nat} {g : Teller} {o : Op} {r : Res o}

theorem TellerInv.told_next (h : TellerInv gs p) (hg : gs[i]? = some g) (hsem : sem env o p r p') :
    ∀ id ∈ (g.next o r).told, id ∈ p'.store.orders := by
  have hold : ∀ id ∈ g.told, id ∈ p'.store.orders := fun id hid =>
    mem_of_sem hsem (h.told i g hg id hid)
  unfold Teller.next
  split
  · rename_i updated hr
    exact List.forall_mem_cons.mpr ⟨sem_amended h.wellFormed hsem hr, hold⟩
  · exact hold

theorem TellerInv.step (h : TellerInv gs p) (hg : gs[i]? = some g) (hallowed : g.allowed o)
    (hsem : sem env o p r p') : TellerInv (gs.set i (g.next o r)) p' where
  wellFormed := sem_wellFormed hsem h.wellFormed
  told j gj hj := by
    rcases getElem?_set_cases hj with ⟨rfl, rfl⟩ | ⟨-, hj⟩
    · exact h.told_next hg hsem
    · exact fun id hid => mem_of_sem hsem (h.told j gj hj id hid)
  announced update hupdate := by
    rcases sem_updates hsem with hsame | ⟨emitted, rfl, hadded⟩
    · rw [hsame] at hupdate
      exact mem_of_sem hsem (h.announced update hupdate)
    · rw [hadded] at hupdate
      rcases List.mem_append.mp hupdate with hearlier | hnow
      · exact mem_of_sem hsem (h.announced update hearlier)
      · obtain rfl := List.mem_singleton.mp hnow
        exact mem_of_sem hsem (h.told i g hg _ hallowed)

theorem tellerInvariant (env : Env) (hwf : p₀.store.WellFormed) (h₀ : p₀.Announced) :
    (announcing env).Invariant p₀ (fun _ gs p => TellerInv gs p) where
  init := ⟨hwf, by simp, h₀⟩
  start tr gs p j h :=
    { h with
      told := fun i g hg => by
        rcases getElem?_concat_cases hg with ⟨-, rfl⟩ | hg
        · exact fun id hid => absurd hid List.not_mem_nil
        · exact h.told i g hg }
  step tr gs p i g o r p' h hg hallowed hsem := ⟨trivial, h.step hg hallowed hsem⟩

/-- Whatever is announced in a run is about a stored order. -/
theorem run_announced (hwf : p₀.store.WellFormed) (h₀ : p₀.Announced)
    (hrun : PlaneRun env p₀ tr c) : c.shared.Announced := by
  obtain ⟨gs, hinv, -⟩ := Discipline.rely_guarantee (tellerInvariant env hwf h₀) hrun
  exact hinv.announced

/-- A stored order has an id from the start or one that was issued since. -/
theorem run_ids (hwf : p₀.store.WellFormed) (hrun : PlaneRun env p₀ tr c) :
    ∀ id ∈ c.shared.store.orders, id ∈ p₀.store.orders ∨ id ∈ c.shared.issued := by
  refine (Run.induct_trace (fun _ p => ∀ id ∈ p.store.orders, id ∈ p₀.store.orders ∨ id ∈ p.issued)
    (fun id hid => Or.inl hid) hrun ?_).1
  intro pre e post hsplit hids id hid
  obtain ⟨gs, g, hg⟩ := Discipline.guaranteed (gatewayInvariant env hwf) hrun pre e post hsplit
  rcases mem_step hg.before.1 hg.ghost hg.allowed hg.sem hid with hold | ⟨order, ho, rfl⟩
  · exact (hids id hold).imp_right fun hissued => issued_step hg.sem hissued
  · have hallowed : g.allowed e.event.1 := hg.allowed
    rw [ho] at hallowed
    exact Or.inr (issued_step hg.sem (hg.before.1.minted _ _ hg.ghost _ hallowed.2.1).1)

end Run

end RealTimeTrading.ControlPlane
