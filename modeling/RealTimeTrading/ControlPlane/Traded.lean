/-
RealTimeTrading.ControlPlane.Traded — what the fills announced by a paper
control plane go back to.

Every fill that is announced is one the exchange sent for a stored order, and
none is announced twice (`told_le_brought`); when every call has returned, the
fills announced are those applied (`told_perm_applied`). A stored order was made
for a request (`run_requested`), at most one order is sent for a key, and what
is announced of it is no more than its size (`told_within`).
-/
import RealTimeTrading.ControlPlane.Announced
import RealTimeTrading.ControlPlane.Couriers
import RealTimeTrading.ControlPlane.Idempotency

namespace RealTimeTrading.ControlPlane

open RealTimeTrading.Concurrency

/-! ## Orders keep what they are -/

/-- Orders are kept, and so is what no method changes of them. -/
def Store.Holds (s s' : Store) : Prop :=
  ∀ x o, s.orders.lookup x = some o → ∃ o', s'.orders.lookup x = some o' ∧ o'.ident = o.ident

/-- A call that holds a reservation knows its order. -/
def HoldsKnown (gs : List Local) : Prop :=
  ∀ (i : Nat) g, gs[i]? = some g → ∀ ident, g.phase = .holding ident → ident ∈ g.known

theorem holding_next {g : Local} (h : ∀ ident, g.phase = .holding ident → ident ∈ g.known)
    (o : Op) (r : Res o) :
    ∀ ident, (g.next o r).phase = .holding ident → ident ∈ (g.next o r).known := by
  intro ident hident
  cases o with
  | evaluate req =>
    simp only [Local.next] at hident ⊢
    split at hident
    · cases hident
    · rename_i hrefused
      rw [if_neg hrefused]
      exact h ident hident
  | reserveOrder order =>
    obtain ⟨reserved, duplicate, err⟩ := r
    simp only [Local.next] at hident ⊢
    split at hident
    · cases hident
    · rename_i hnew
      rw [if_neg hnew]
      obtain rfl := Phase.holding.inj hident
      exact List.mem_cons_self
  | markOrderSent id sentAt =>
    obtain ⟨sent, _ | err⟩ := r
    · exact List.mem_cons_of_mem _ (h ident hident)
    · exact h ident hident
  | order id =>
    cases r with
    | none => exact h ident hident
    | some found => exact List.mem_cons_of_mem _ (h ident hident)
  | sendOrder order => cases hident
  | _ => exact h ident hident

theorem holdingInvariant (env : Env) {p₀ : Plane} (hwf : p₀.store.WellFormed) :
    (discipline env).Invariant p₀
      (fun tr gs p => (GatewayInv tr gs p ∧ ∀ e ∈ tr, e.tid < gs.length) ∧ HoldsKnown gs) where
  init := ⟨(gatewayInvariant env hwf).init, by simp [HoldsKnown]⟩
  start tr gs p j h := by
    refine ⟨(gatewayInvariant env hwf).start tr gs p j h.1, fun i g hg => ?_⟩
    rcases getElem?_concat_cases hg with ⟨-, rfl⟩ | hg
    · intro ident hident
      cases hident
    · exact h.2 i g hg
  step tr gs p i g o r p' h hg hallowed hsem := by
    obtain ⟨hreturns, hkept⟩ :=
      (gatewayInvariant env hwf).step tr gs p i g o r p' h.1 hg hallowed hsem
    refine ⟨hreturns, hkept, fun j gj hj => ?_⟩
    rcases getElem?_set_cases hj with ⟨rfl, rfl⟩ | ⟨-, hj⟩
    · exact holding_next (h.2 j g hg) o r
    · exact h.2 j gj hj

section Run

variable {env : Env} {p₀ : Plane} {tr : List PlaneEntry} {c : PlaneConfig}

/-- An order stored at any line of a run is stored at its end. -/
theorem run_holds (hwf : p₀.store.WellFormed) (hrun : PlaneRun env p₀ tr c) {e : PlaneEntry}
    (he : e ∈ tr) : e.pre.store.Holds c.shared.store ∧ e.post.store.Holds c.shared.store := by
  refine hrun.related_to_end (fun p p' => p.store.Holds p'.store) (fun p x o ho => ⟨o, ho, rfl⟩)
    (fun a b d hab hbd x o ho => ?_) (fun e he x o ho => ?_) e he
  · obtain ⟨o', ho', hsame⟩ := hab x o ho
    obtain ⟨o'', ho'', hsame'⟩ := hbd x o' ho'
    exact ⟨o'', ho'', hsame'.trans hsame⟩
  · obtain ⟨pre, post, hsplit⟩ := List.append_of_mem he
    obtain ⟨gs, g, hg⟩ := Discipline.guaranteed (gatewayInvariant env hwf) hrun pre e post hsplit
    exact ident_step hg.before.1 hg.ghost hg.allowed hg.sem ho

/-- An order that was sent is stored. -/
theorem run_sent (hwf : p₀.store.WellFormed) (hrun : PlaneRun env p₀ tr c) {e : PlaneEntry}
    (he : e ∈ tr) {order : Order} (hsend : e.event.1 = .sendOrder order) :
    ∃ o, c.shared.store.orders.lookup order.id = some o ∧ o.ident = order.ident := by
  obtain ⟨pre, post, hsplit⟩ := List.append_of_mem he
  obtain ⟨gs, g, hg⟩ := Discipline.guaranteed (holdingInvariant env hwf) hrun pre e post hsplit
  have hallowed : g.allowed e.event.1 := hg.allowed
  rw [hsend] at hallowed
  have hknown := hg.before.1.1.known _ _ hg.ghost _ (hg.before.2 _ _ hg.ghost _ hallowed)
  obtain ⟨stored, hs, hident⟩ := Option.map_eq_some_iff.mp hknown
  obtain ⟨o, ho, hsame⟩ := (run_holds hwf hrun he).1 _ _ hs
  exact ⟨o, ho, hsame.trans hident⟩

end Run

/-! ## Requests -/

/-- The order was made for the request, and for no more than it asked. -/
structure OrderIdent.Within (i : OrderIdent) (req : ExecutionRequest) : Prop where
  made : i.For req
  size : |i.size| ≤ |req.size|

section Paper

variable {exp : ℚ → ℚ} {p₀ : Plane} {tr : List PlaneEntry} {c : PlaneConfig}

/-- What is known of a line of a run on paper. -/
theorem paper_line (hnew : p₀.store = .newStore)
    (hrun : PlaneRun ⟨exp, PaperExchange.exchange⟩ p₀ tr c)
    (hpaper : ∀ t ∈ c.threads, t.job.brought = []) {pre post : List PlaneEntry} {e : PlaneEntry}
    (hsplit : tr = pre ++ e :: post) :
    ∃ (gs : List Courier) (g : Courier), CourierInv pre gs e.pre ∧ g.allowed e.event.1 ∧
      (c.threads[e.tid]?).map (·.job) = some g.job.1 := by
  obtain ⟨ts, hamong, hts⟩ := Run.among (·.brought = []) hrun hpaper
  obtain ⟨gs, g, hg⟩ :=
    Discipline.guaranteed (courierInvariant exp hnew) hamong pre e post hsplit
  refine ⟨gs, g, hg.before, hg.allowed, ?_⟩
  have hjob := congrArg (Option.map Subtype.val) hg.job
  rw [Option.map_map] at hjob
  rw [← hts, List.getElem?_map, Option.map_map]
  exact hjob

/-- What is known at its end, where every call has returned besides. -/
theorem paper_end (hnew : p₀.store = .newStore)
    (hrun : PlaneRun ⟨exp, PaperExchange.exchange⟩ p₀ tr c)
    (hpaper : ∀ t ∈ c.threads, t.job.brought = []) :
    ∃ gs, CourierInv tr gs c.shared ∧
      ((∀ t ∈ c.threads, ∃ result, t.prog = .ret result) → ∀ g ∈ gs, g.owed = []) := by
  obtain ⟨ts, hamong, hts⟩ := Run.among (·.brought = []) hrun hpaper
  obtain ⟨gs, hinv, htracks⟩ := Discipline.rely_guarantee (courierInvariant exp hnew) hamong
  refine ⟨gs, hinv, fun hreturned => ?_⟩
  have hall : ∀ t ∈ ts, ∃ result, t.prog = .ret result := fun t ht =>
    hreturned t.plain (hts ▸ List.mem_map_of_mem ht)
  change (couriers exp).Tracks gs ts at htracks
  clear hts hinv hamong
  induction htracks with
  | nil => exact fun g hg => absurd hg List.not_mem_nil
  | @cons g t gs ts hgt hrest ih =>
    obtain ⟨⟨result, hresult⟩, hothers⟩ := List.forall_mem_cons.mp hall
    refine List.forall_mem_cons.mpr ⟨?_, ih hothers⟩
    have hconforms := hgt.2
    rw [hresult] at hconforms
    exact hconforms

/-- The order was made for the request of a `Submit`, and holds its key. -/
structure Requested (c : PlaneConfig) (s : Store) (x : OrderID) (o : Order) : Prop where
  request : ∃ t ∈ c.threads, ∃ req, t.job = .submit req ∧ o.ident.Within req
  reserved : s.idempotency.lookup o.idempotencyKey = some x

/-- Every stored order was made for the request of a `Submit`. -/
theorem run_requested (hnew : p₀.store = .newStore)
    (hrun : PlaneRun ⟨exp, PaperExchange.exchange⟩ p₀ tr c)
    (hpaper : ∀ t ∈ c.threads, t.job.brought = []) {x : OrderID} {o : Order}
    (ho : c.shared.store.orders.lookup x = some o) : Requested c c.shared.store x o := by
  have hwf : p₀.store.WellFormed := hnew ▸ Store.newStore_wellFormed
  refine (Run.induct_trace (fun _ p => ∀ x o, p.store.orders.lookup x = some o →
    Requested c p.store x o) (fun x o ho => ?_) hrun
    (fun pre e post hsplit hbefore x o ho => ?_)).1 x o ho
  · rw [hnew] at ho
    cases ho
  · obtain ⟨gs, g, hg⟩ := Discipline.guaranteed (gatewayInvariant _ hwf) hrun pre e post hsplit
    obtain ⟨-, courier, -, hcourier, hjob⟩ := paper_line hnew hrun hpaper hsplit
    have hold : ∀ old, e.pre.store.orders.lookup x = some old → Requested c e.post.store x o := by
      intro old hlook
      obtain ⟨o', ho', hsame⟩ := ident_step hg.before.1 hg.ghost hg.allowed hg.sem hlook
      obtain rfl := Option.some.inj (ho'.symm.trans ho)
      obtain ⟨⟨t, ht, req, hreq, hwithin⟩, hreserved⟩ := hbefore x old hlook
      have hkey : o'.idempotencyKey = old.idempotencyKey :=
        congrArg OrderIdent.idempotencyKey hsame
      exact ⟨⟨t, ht, req, hreq, hsame ▸ hwithin⟩, hkey ▸ reserved_step hg.sem hreserved⟩
    by_cases hstored : ∃ old, e.pre.store.orders.lookup x = some old
    · exact hstored.elim hold
    · -- the order was just reserved, for the request of this call
      have hmem := (GoMap.mem_iff_lookup _ _).mpr ⟨o, ho⟩
      obtain ⟨order, horder, rfl⟩ :=
        (mem_step hg.before.1 hg.ghost hg.allowed hg.sem hmem).resolve_left
          fun h => hstored ((GoMap.mem_iff_lookup _ _).mp h)
      obtain ⟨tid, p, ⟨op, r⟩, p'⟩ := e
      obtain rfl : op = .reserveOrder order := horder
      obtain ⟨-, -, -, req, hreq, hfor⟩ : g.allowed (.reserveOrder order) := hg.allowed
      obtain ⟨-, -, req', hreq', hsize⟩ := hcourier
      have hsame : g.job = courier.job.1 := Option.some.inj (hg.job.symm.trans hjob)
      obtain rfl := Job.submit.inj (hreq.symm.trans (hsame.trans hreq'))
      have hsem : sem ⟨exp, PaperExchange.exchange⟩ (.reserveOrder order) p r p' := hg.sem
      rcases sem_reserveOrder hsem with ⟨id, -, -, hkept⟩ | ⟨-, now, -, horders, hkeys⟩
      · exact absurd ⟨o, hkept ▸ ho⟩ hstored
      · have hlook : p'.store.orders.lookup order.id = some (Store.reservedOrder now order) := by
          rw [horders]
          exact AList.lookup_insert _
        obtain rfl := Option.some.inj (hlook.symm.trans ho)
        obtain ⟨t, ht, htjob⟩ := Option.map_eq_some_iff.mp hjob
        refine ⟨⟨t, List.mem_of_getElem? ht, req, htjob.trans hreq', hfor, hsize⟩, ?_⟩
        show p'.store.idempotency.lookup order.idempotencyKey = _
        rw [hkeys]
        exact AList.lookup_insert _

end Paper

/-! ## Fills -/

/-- The fill an announcement is about. -/
def ExecutionUpdate.duty (update : ExecutionUpdate) : Option Duty :=
  match update.ledger, update.execution with
  | some ledger, some execution => some ⟨update.order.id, ledger, execution⟩
  | _, _ => none

theorem ExecutionUpdate.records_duty {update : ExecutionUpdate} {duty : Duty}
    (h : update.duty = some duty) :
    update.ledger = some duty.ledger ∧ update.execution = some duty.execution := by
  unfold ExecutionUpdate.duty at h
  split at h
  · rename_i ledger execution hledger hexecution
    rw [← Option.some.inj h]
    exact ⟨hledger, hexecution⟩
  · cases h

theorem ExecutionUpdate.order_duty {update : ExecutionUpdate} {duty : Duty}
    (h : update.duty = some duty) : duty.orderID = update.order.id := by
  unfold ExecutionUpdate.duty at h
  split at h
  · rw [← Option.some.inj h]
  · cases h

def Duty.quantity (duty : Duty) : ℚ := duty.ledger.quantity

/-- What is brought for an order by this line. -/
def PlaneEntry.quantityFor (id : OrderID) (e : PlaneEntry) : ℚ :=
  ((e.brings.filter (·.orderID = id)).map Duty.quantity).sum

section Paper

variable {exp : ℚ → ℚ} {p₀ : Plane} {tr : List PlaneEntry} {c : PlaneConfig}

/-- A fill that was applied was given to be applied to the order that is announced. -/
theorem owes_serves {env : Env} {e : PlaneEntry} (hwf : e.pre.store.WellFormed)
    (hsame : e.pre.store.SameNames) (hsem : sem env e.event.1 e.pre e.event.2 e.post)
    {update : ExecutionUpdate} (h : e.owes = some update) :
    ∃ duty, update.duty = some duty ∧ e.serves = some duty ∧
      e.post.store.orders.lookup duty.orderID = some update.order := by
  obtain ⟨tid, p, ⟨o, r⟩, p'⟩ := e
  cases o with
  | applyExternalFill id ledger execution =>
    obtain ⟨updated, position, _ | err⟩ := r
    · obtain rfl := Option.some.inj h
      rcases sem_applyExternalFill hsem with ⟨hne, -⟩ | ⟨-, now, stored, hs, hfilled, horders⟩
      · exact absurd rfl hne
      · have hid : updated.id = id := by
          rw [hsame.resolve] at hs
          rw [show updated = _ from hfilled]
          exact hwf.stored id stored hs
        refine ⟨⟨updated.id, ledger, execution⟩, rfl, ?_, ?_⟩
        · rw [hid]
          rfl
        · show p'.store.orders.lookup updated.id = some updated
          rw [horders]
          exact AList.lookup_insert _
    · cases h
  | _ => cases h

theorem orderID_duty {id : OrderID} {step : ExchangeStep} {duty : Duty}
    (h : step.duty id = some duty) : duty.orderID = id := by
  unfold ExchangeStep.duty at h
  split at h
  · split at h
    · rw [← Option.some.inj h]
    · cases h
  · split at h
    · rw [← Option.some.inj h]
    · cases h
  · cases h

theorem map_ledger_fillSteps (id : OrderID) (order : Order) (ackAt : Time)
    (fills : List FillLedgerEntry) :
    ((PaperExchange.fillSteps order ackAt fills).filterMap (·.duty id)).map (·.ledger) = fills := by
  induction fills with
  | nil => rfl
  | cons fill rest ih =>
    cases rest with
    | nil => rfl
    | cons fill' rest => exact congrArg (List.cons fill) ih

/-- What the exchange sends with its reply are fills of the order, of its size in all. -/
theorem brings_sum {e : PlaneEntry} {order : Order} {steps : List ExchangeStep}
    (he : e.event = ⟨.sendOrder order, .ok steps⟩)
    (hsem : sem ⟨exp, PaperExchange.exchange⟩ e.event.1 e.pre e.event.2 e.post) :
    (∀ duty ∈ e.brings, duty.orderID = order.id ∧ duty.ledger.orderID = order.id ∧
        0 < duty.quantity) ∧ (e.brings.map Duty.quantity).sum = max order.size 0 := by
  obtain ⟨tid, p, event, p'⟩ := e
  obtain rfl : event = ⟨.sendOrder order, .ok steps⟩ := he
  obtain ⟨⟨done, now, hreply⟩, -⟩ := hsem
  cases done with
  | some message => cases hreply
  | none =>
    obtain rfl := Except.ok.inj (hreply.trans (PaperExchange.sendOrder_ok now order))
    have hledgers := map_ledger_fillSteps order.id order (now + 2 * millisecond)
      (PaperExchange.buildPaperFills order (PaperExchange.reference order.price)
        (now + 2 * millisecond))
    constructor
    · intro duty hduty
      obtain ⟨step, -, hstep⟩ := List.mem_filterMap.mp hduty
      have hmem : duty.ledger ∈ PaperExchange.buildPaperFills order
          (PaperExchange.reference order.price) (now + 2 * millisecond) :=
        hledgers ▸ List.mem_map_of_mem hduty
      have hfill := PaperExchange.fillOf_of_mem hmem
      exact ⟨orderID_duty hstep, hfill.orderID, hfill.quantity⟩
    · have hsum := PaperExchange.buildPaperFills_sum order (PaperExchange.reference order.price)
        (now + 2 * millisecond)
      rw [← hledgers, List.map_map] at hsum
      exact hsum

/-- A line that brings fills is a reply of the exchange. -/
theorem brings_sent {e : PlaneEntry} {duty : Duty} (h : duty ∈ e.brings) :
    ∃ order steps, e.event = ⟨.sendOrder order, .ok steps⟩ := by
  unfold PlaneEntry.brings at h
  split at h
  · rename_i order steps he
    exact ⟨order, steps, he⟩
  · cases h

/-- The fills that are announced have been applied, each as it is announced. -/
theorem told_subperm_applied (hnew : p₀.store = .newStore)
    (hrun : PlaneRun ⟨exp, PaperExchange.exchange⟩ p₀ tr c)
    (hpaper : ∀ t ∈ c.threads, t.job.brought = []) : (told tr).Subperm (applied tr) := by
  obtain ⟨gs, hinv, -⟩ := paper_end hnew hrun hpaper
  exact Multiset.coe_le.mp (Multiset.le_add_right _ _ |>.trans_eq hinv.told)

/-- Once every call has returned, all that was applied is announced. -/
theorem told_perm_applied (hnew : p₀.store = .newStore)
    (hrun : PlaneRun ⟨exp, PaperExchange.exchange⟩ p₀ tr c)
    (hpaper : ∀ t ∈ c.threads, t.job.brought = [])
    (hreturned : ∀ t ∈ c.threads, ∃ result, t.prog = .ret result) :
    (told tr).Perm (applied tr) := by
  obtain ⟨gs, hinv, howed⟩ := paper_end hnew hrun hpaper
  have hnone : (gs.map fun g => (g.owed : Multiset ExecutionUpdate)).sum = 0 :=
    List.sum_eq_zero fun owed hmem => by
      obtain ⟨g, hg, rfl⟩ := List.mem_map.mp hmem
      rw [howed hreturned g hg, Multiset.coe_nil]
  have htold := hinv.told
  rw [hnone, add_zero] at htold
  exact Multiset.coe_eq_coe.mp htold

/-- A line of a run on paper that applied a fill. -/
theorem applied_line (hnew : p₀.store = .newStore)
    (hrun : PlaneRun ⟨exp, PaperExchange.exchange⟩ p₀ tr c)
    (hpaper : ∀ t ∈ c.threads, t.job.brought = []) {e : PlaneEntry} (he : e ∈ tr)
    {update : ExecutionUpdate} (h : e.owes = some update) :
    ∃ duty, update.duty = some duty ∧ e.serves = some duty ∧
      e.post.store.orders.lookup duty.orderID = some update.order := by
  obtain ⟨pre, post, hsplit⟩ := List.append_of_mem he
  obtain ⟨gs, g, hinv, -⟩ := paper_line hnew hrun hpaper hsplit
  exact owes_serves hinv.wellFormed hinv.same (run_sem hrun he) h

/-- Every fill that is announced was brought by the exchange, and none is announced twice. -/
theorem told_le_brought (hnew : p₀.store = .newStore)
    (hrun : PlaneRun ⟨exp, PaperExchange.exchange⟩ p₀ tr c)
    (hpaper : ∀ t ∈ c.threads, t.job.brought = []) :
    ((told tr).filterMap ExecutionUpdate.duty).Subperm (brought tr) := by
  have htold : ((told tr).filterMap ExecutionUpdate.duty).Subperm
      ((applied tr).filterMap ExecutionUpdate.duty) :=
    Multiset.coe_le.mp (Multiset.filterMap_le_filterMap _
      (Multiset.coe_le.mpr (told_subperm_applied hnew hrun hpaper)))
  have happlied : ((applied tr).filterMap ExecutionUpdate.duty).Sublist (served tr) := by
    rw [applied, List.filterMap_filterMap, served]
    refine filterMap_sublist fun e he duty hduty => ?_
    obtain ⟨update, howes, hupdate⟩ := Option.bind_eq_some_iff.mp hduty
    obtain ⟨duty', hduty', hserves, -⟩ := applied_line hnew hrun hpaper he howes
    obtain rfl := Option.some.inj (hduty'.symm.trans hupdate)
    exact hserves
  obtain ⟨gs, hinv, -⟩ := paper_end hnew hrun hpaper
  have hserved : (served tr).Subperm (brought tr) :=
    Multiset.coe_le.mp (Multiset.le_add_right _ _ |>.trans_eq hinv.served)
  exact (htold.trans happlied.subperm).trans hserved

/-- The announcement is of a fill of a stored order. -/
structure ExecutionUpdate.Traded (update : ExecutionUpdate) (s : Store) (duty : Duty) : Prop where
  ledger : update.ledger = some duty.ledger
  execution : update.execution = some duty.execution
  order : duty.orderID = update.order.id
  record : duty.ledger.orderID = update.order.id
  positive : 0 < duty.quantity
  stored : ∃ o, s.orders.lookup update.order.id = some o ∧ o.ident = update.order.ident

theorem run_traded (hnew : p₀.store = .newStore)
    (hrun : PlaneRun ⟨exp, PaperExchange.exchange⟩ p₀ tr c)
    (hpaper : ∀ t ∈ c.threads, t.job.brought = []) {update : ExecutionUpdate}
    (h : update ∈ told tr) :
    ∃ duty, update.duty = some duty ∧ update.Traded c.shared.store duty := by
  have hwf : p₀.store.WellFormed := hnew ▸ Store.newStore_wellFormed
  obtain ⟨e, he, howes⟩ :=
    List.mem_filterMap.mp ((told_subperm_applied hnew hrun hpaper).subset h)
  obtain ⟨duty, hduty, -, hstored⟩ := applied_line hnew hrun hpaper he howes
  have hmem : duty ∈ brought tr := (told_le_brought hnew hrun hpaper).subset
    (List.mem_filterMap.mpr ⟨update, h, hduty⟩)
  obtain ⟨e', he', hbrings⟩ := List.mem_flatMap.mp hmem
  obtain ⟨order, steps, hsent⟩ := brings_sent hbrings
  obtain ⟨hid, hrecord, hpos⟩ := (brings_sum hsent (run_sem hrun he')).1 duty hbrings
  have horder := ExecutionUpdate.order_duty hduty
  refine ⟨duty, hduty, {
    ledger := (ExecutionUpdate.records_duty hduty).1
    execution := (ExecutionUpdate.records_duty hduty).2
    order := horder
    record := hrecord.trans (hid.symm.trans horder)
    positive := hpos
    stored := ?_ }⟩
  exact (run_holds hwf hrun he).2 _ _ (horder ▸ hstored)

/-- What an update reports filled. -/
def ExecutionUpdate.quantity (update : ExecutionUpdate) : ℚ :=
  (update.ledger.map (·.quantity)).getD 0

/-- What a line brings for an order is its size, if the line sends that order. -/
theorem quantityFor_le (hnew : p₀.store = .newStore)
    (hrun : PlaneRun ⟨exp, PaperExchange.exchange⟩ p₀ tr c) {id : OrderID} {o : Order}
    (ho : c.shared.store.orders.lookup id = some o) {e : PlaneEntry} (he : e ∈ tr) :
    e.quantityFor id ≤
      if PlaneEntry.sendsKey o.idempotencyKey e then max o.size 0 else 0 := by
  have hwf : p₀.store.WellFormed := hnew ▸ Store.newStore_wellFormed
  have hnone : (∀ duty ∈ e.brings, duty.orderID ≠ id) → e.quantityFor id ≤
      if PlaneEntry.sendsKey o.idempotencyKey e then max o.size 0 else 0 := by
    intro hother
    have hempty : e.brings.filter (·.orderID = id) = [] :=
      List.filter_eq_nil_iff.mpr fun duty hduty => by simpa using hother duty hduty
    rw [PlaneEntry.quantityFor, hempty, List.map_nil, List.sum_nil]
    split
    · exact le_max_right _ _
    · exact le_rfl
  by_cases hmine : ∃ duty ∈ e.brings, duty.orderID = id
  · obtain ⟨duty, hduty, hid⟩ := hmine
    obtain ⟨order, steps, hsent⟩ := brings_sent hduty
    obtain ⟨hall, hsum⟩ := brings_sum hsent (run_sem hrun he)
    have hown : order.id = id := ((hall duty hduty).1.symm.trans hid)
    -- the order that was sent is the one that is stored
    obtain ⟨o', ho', hident⟩ := run_sent hwf hrun he (congrArg Sigma.fst hsent)
    obtain rfl := Option.some.inj (ho.symm.trans (hown ▸ ho'))
    have hkey : order.idempotencyKey = o.idempotencyKey :=
      (congrArg OrderIdent.idempotencyKey hident).symm
    have hsize : order.size = o.size := (congrArg OrderIdent.size hident).symm
    have hmatch : PlaneEntry.sendsKey o.idempotencyKey e = true := by
      simp only [PlaneEntry.sendsKey, hsent, hkey, decide_true]
    rw [if_pos hmatch, PlaneEntry.quantityFor, List.filter_eq_self.mpr, hsum, hsize]
    exact fun duty hduty => decide_eq_true ((hall duty hduty).1.trans hown)
  · exact hnone fun duty hduty hid => hmine ⟨duty, hduty, hid⟩

/-- What is announced of an order is no more than its size. -/
theorem told_within (hnew : p₀.store = .newStore)
    (hrun : PlaneRun ⟨exp, PaperExchange.exchange⟩ p₀ tr c)
    (hpaper : ∀ t ∈ c.threads, t.job.brought = []) {id : OrderID} {o : Order}
    (ho : c.shared.store.orders.lookup id = some o) :
    (((told tr).filter (·.order.id = id)).map ExecutionUpdate.quantity).sum ≤ max o.size 0 := by
  have hpos : ∀ duty ∈ (brought tr).filter (·.orderID = id), 0 ≤ duty.quantity := by
    intro duty hduty
    obtain ⟨e, he, hbrings⟩ := List.mem_flatMap.mp (List.mem_filter.mp hduty).1
    obtain ⟨order, steps, hsent⟩ := brings_sent hbrings
    exact ((brings_sum hsent (run_sem hrun he)).1 duty hbrings).2.2.le
  have hone := sends_le_one (hnew ▸ Store.newStore_wellFormed) hrun o.idempotencyKey
  calc (((told tr).filter (·.order.id = id)).map ExecutionUpdate.quantity).sum
      = ((((told tr).filterMap ExecutionUpdate.duty).filter (·.orderID = id)).map
          Duty.quantity).sum := by
        rw [map_filter_filterMap fun update hupdate => ?_]
        obtain ⟨duty, hduty, htraded⟩ := run_traded hnew hrun hpaper hupdate
        refine ⟨duty, hduty, by rw [htraded.order], ?_⟩
        rw [ExecutionUpdate.quantity, htraded.ledger]
        rfl
    _ ≤ (((brought tr).filter (·.orderID = id)).map Duty.quantity).sum :=
        Data.sum_map_le_of_subperm ((told_le_brought hnew hrun hpaper).filter _) hpos
    _ = (tr.map (PlaneEntry.quantityFor id)).sum := by
        rw [brought, List.filter_flatMap, List.map_flatMap, List.flatMap_def,
          List.sum_flatten, List.map_map]
        rfl
    _ ≤ sends o.idempotencyKey tr • max o.size 0 :=
        Data.sum_map_le_countP fun e he => quantityFor_le hnew hrun ho he
    _ ≤ 1 • max o.size 0 := nsmul_le_nsmul_left (le_max_right _ _) hone
    _ = max o.size 0 := one_nsmul _

end Paper

end RealTimeTrading.ControlPlane
