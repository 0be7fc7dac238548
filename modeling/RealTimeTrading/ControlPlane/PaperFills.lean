/-
RealTimeTrading.ControlPlane.PaperFills — what one `Submit` against the
paper exchange makes of the store.

`Executed` is what a new order and the fills it had so far have made of a
store. The calls that amend the order keep it (`Executed.amended`), and
`ApplyExternalFill` adds its fill (`Executed.fill`), so that after the
last step of the reply it holds of all the fills the exchange sent
(`FilledOnPaper`).
-/
import RealTimeTrading.ControlPlane.FillCalls
import RealTimeTrading.ControlPlane.FillDelivery
import RealTimeTrading.ControlPlane.LedgerCheck
import RealTimeTrading.ControlPlane.Paper

namespace RealTimeTrading.ControlPlane

open RealTimeTrading.Concurrency

/-! ## A new order -/

/-- The order is stored under its id, which is not empty. -/
def Placed (s : Store) (ident : OrderIdent) : Prop :=
  ident.id ≠ "" ∧ (s.orders.lookup ident.id).map Order.ident = some ident

/-- The position after these fills, one after the other. -/
def filledBy (side : Side) (size : ℚ) (fills : List FillLedgerEntry) : ℚ :=
  fills.foldl (fun size fill => settle (size + side.signed fill.quantity)) size

/-- The store `s` with a new order in it that these calls filled. -/
structure Executed (ident : OrderIdent) (s : Store) (calls : List FillCall) (s' : Store) :
    Prop where
  wellFormed : s'.WellFormed
  placed : Placed s' ident
  order : ∃ order, ∀ o, s'.orders.lookup ident.id = some o → FilledWith order calls o
  others : ∀ x, x ≠ ident.id → s'.orders.lookup x = s.orders.lookup x
  keys : s'.idempotency = s.idempotency.insert ident.idempotencyKey ident.id
  position : (s'.position ident.symbol).size =
    filledBy ident.side (s.position ident.symbol).size (calls.map (·.fill))
  positions : ∀ symbol, symbol ≠ ident.symbol → s'.position symbol = s.position symbol
  ledger : s'.ledger = s.ledger ++ calls.map (·.fill)
  executions : s'.executions = s.executions ++ calls.map (·.event)
  quantity : ∀ c ∈ calls, 0 < c.quantity

section Calls

variable {env : Env} {p p' : Plane} {ident : OrderIdent} {s s' : Store} {calls : List FillCall}

theorem Executed.stored (h : Executed ident s calls s') : ∃ order o,
    s'.orders.lookup ident.id = some o ∧ o.ident = ident ∧ FilledWith order calls o := by
  obtain ⟨o, ho, hident⟩ := Option.map_eq_some_iff.mp h.placed.2
  obtain ⟨order, hfilled⟩ := h.order
  exact ⟨order, o, ho, hident, hfilled o ho⟩

/-- A reservation under a key that is free. -/
theorem Executed.reserved {order : Order} {now : Time} (hwf : p'.store.WellFormed)
    (hid : order.id ≠ "") (hnew : order.filled = 0 ∧ order.firstFillAt = 0)
    (hsem : sem env (.reserveOrder order) p (Store.reservedOrder now order, false, none) p')
    (horders : p'.store.orders = p.store.orders.insert order.id (Store.reservedOrder now order))
    (hkeys : p'.store.idempotency = p.store.idempotency.insert order.idempotencyKey order.id) :
    Executed (Store.reservedOrder now order).ident p.store [] p'.store := by
  have hstored : p'.store.orders.lookup order.id = some (Store.reservedOrder now order) := by
    rw [horders]
    exact AList.lookup_insert _
  have hpositions := sem_positions hsem (by simp)
  obtain ⟨hledger, hexecutions⟩ := sem_records hsem (by simp)
  constructor
  · exact hwf
  · exact ⟨hid, (congrArg (Option.map Order.ident) hstored).trans rfl⟩
  · refine ⟨Store.reservedOrder now order, fun o ho => ?_⟩
    obtain rfl := Option.some.inj (hstored.symm.trans ho)
    exact .unfilled hnew.1 hnew.2
  · intro x hx
    rw [horders]
    exact AList.lookup_insert_ne hx
  · exact hkeys
  · rw [Store.position, Store.position, hpositions]
    rfl
  · intro symbol _
    rw [Store.position, Store.position, hpositions]
  · rw [hledger, List.map_nil, List.append_nil]
  · rw [hexecutions, List.map_nil, List.append_nil]
  · exact fun c hc => absurd hc List.not_mem_nil

theorem Executed.reads {o : Op} {r : Res o} (h : Executed ident s calls p.store)
    (hsem : sem env o p r p') (ho : o.writesStore = false) : Executed ident s calls p'.store := by
  rw [sem_reads hsem ho]
  exact h

/-- A call that amends the order, and nothing its fills are counted in. -/
theorem Executed.amended {o : Op} {r : Res o} (h : Executed ident s calls p.store)
    (hsem : sem env o p r p') (hreserve : ∀ order, o ≠ .reserveOrder order)
    (hfill : ∀ id fill event, o ≠ .applyExternalFill id fill event) {f : Time → Order → Order}
    (hwritten : ∀ now, o.written now p.store = (p.store.orders.lookup ident.id).map (f now))
    (hident : ∀ now w, (f now w).ident = w.ident)
    (hkeeps : ∀ now order w, FilledWith order calls w → FilledWith order calls (f now w)) :
    Executed ident s calls p'.store := by
  obtain ⟨now, horders⟩ := sem_orders hsem
  obtain ⟨order, w, hw, hwident, hwith⟩ := h.stored
  have hid : (f now w).id = ident.id := Order.id_eq_of_ident (b := w) (hident now w) ▸
    congrArg OrderIdent.id hwident
  have hlook : ∀ x, p'.store.orders.lookup x =
      if x = ident.id then some (f now w) else p.store.orders.lookup x := by
    intro x
    rw [horders, hwritten, hw, Option.map_some, Store.lookup_writeOrder_some, hid]
  have hstored : p'.store.orders.lookup ident.id = some (f now w) := by rw [hlook, if_pos rfl]
  have hpositions := sem_positions hsem hfill
  obtain ⟨hledger, hexecutions⟩ := sem_records hsem hfill
  constructor
  · exact sem_wellFormed hsem h.wellFormed
  · exact ⟨h.placed.1, by rw [hstored, Option.map_some, hident, hwident]⟩
  · refine ⟨order, fun o' ho' => ?_⟩
    obtain rfl := Option.some.inj (hstored.symm.trans ho')
    exact hkeeps now order w hwith
  · intro x hx
    rw [hlook, if_neg hx]
    exact h.others x hx
  · rw [sem_idempotency hsem hreserve]
    exact h.keys
  · rw [Store.position, hpositions]
    exact h.position
  · intro symbol hsymbol
    rw [Store.position, hpositions]
    exact h.positions symbol hsymbol
  · rw [hledger]
    exact h.ledger
  · rw [hexecutions]
    exact h.executions
  · exact h.quantity

/-- A fill of the order, applied under its own id. -/
theorem Executed.fill {fill : FillLedgerEntry} {event : ExecutionEvent}
    {r : Order × Position × Option Err} (h : Executed ident s calls p.store)
    (hresolve : p.store.resolve ident.id = ident.id) (hpos : 0 < fill.quantity)
    (hsem : sem env (.applyExternalFill ident.id fill event) p r p') : r.2.2 = none ∧
      ∃ now, Executed ident s (calls ++ [⟨now, ident.id, fill, event⟩]) p'.store := by
  have hwf := sem_wellFormed hsem h.wellFormed
  have hkeys := sem_idempotency hsem (by simp)
  obtain ⟨order, o, ho, hident, hwith⟩ := h.stored
  obtain ⟨now, rfl, rfl⟩ := hsem
  have hlook : p.store.orders.lookup (p.store.resolve ident.id) = some o := by rw [hresolve, ho]
  have hsymbol : o.symbol = ident.symbol := congrArg OrderIdent.symbol hident
  have hside : o.side = ident.side := congrArg OrderIdent.side hident
  refine ⟨by simp only [Store.applyExternalFill, hlook], now, ?_⟩
  let c : FillCall := ⟨now, ident.id, fill, event⟩
  have horders : (c.apply p.store).orders =
      p.store.orders.insert ident.id (Store.fillOrder now fill event o) := by
    rw [FillCall.apply_orders (c := c) hlook, show o.id = ident.id from
      congrArg OrderIdent.id hident]
  have hstored : (c.apply p.store).orders.lookup ident.id =
      some (Store.fillOrder now fill event o) := by
    rw [horders]
    exact AList.lookup_insert _
  constructor
  · exact hwf
  · exact ⟨h.placed.1, by rw [show (p.store.applyExternalFill now ident.id fill event).2 =
      c.apply p.store from rfl, hstored, Option.map_some, ← hident]; rfl⟩
  · refine ⟨order, fun o' ho' => ?_⟩
    obtain rfl := Option.some.inj (hstored.symm.trans ho')
    exact hwith.fill (c := c) hpos (totalQuantity_nonneg h.quantity)
  · intro x hx
    show (c.apply p.store).orders.lookup x = _
    rw [horders, AList.lookup_insert_ne hx]
    exact h.others x hx
  · exact hkeys.trans h.keys
  · show ((c.apply p.store).position ident.symbol).size = _
    rw [← hsymbol, FillCall.apply_position (c := c) hlook, fillPosition_size, hsymbol, hside,
      h.position, List.map_append, filledBy, filledBy, List.foldl_append]
    rfl
  · intro symbol hne
    have hother : (c.apply p.store).positions.lookup symbol = p.store.positions.lookup symbol := by
      simp only [FillCall.apply, Store.applyExternalFill, c, hlook]
      exact AList.lookup_insert_ne (hsymbol ▸ hne)
    show (c.apply p.store).position symbol = _
    rw [Store.position, hother]
    exact h.positions symbol hne
  · simp only [Store.applyExternalFill, hlook, h.ledger, List.map_append, List.append_assoc]
    rfl
  · simp only [Store.applyExternalFill, hlook, h.executions, List.map_append, List.append_assoc]
    rfl
  · intro c' hc'
    rcases List.mem_append.mp hc' with hold | hnew
    · exact h.quantity c' hold
    · rw [List.mem_singleton.mp hnew]
      exact hpos

end Calls

/-! ## The steps of the reply -/

section Steps

variable {env : Env} {p p' : Plane} {ident : OrderIdent} {s : Store} {calls : List FillCall}
  {a : Order × Option Err}

/-- A step that names the order, under its own id, binds that id first. -/
theorem exec_bound {update : AsyncExchangeUpdate} (h : Executed ident s calls p.store)
    (hid : update.orderID = ident.id) (hx : update.exchangeOrderID = ident.id)
    (hexec : Exec (sem env) (applyStep update) p a p') :
    ∃ q, Executed ident s calls q.store ∧ q.store.resolve ident.id = ident.id ∧
      Exec (sem env) (applyStatus ident.id update.step) q a p' := by
  have hne := h.placed.1
  have href : resolveReference update = pure ident.id := by
    unfold resolveReference
    dsimp only
    rw [hid, if_neg fun h => hne h.1]
    exact if_neg fun h => hne h.1
  unfold applyStep at hexec
  rw [href, exec_bind] at hexec
  obtain ⟨_, _, ⟨rfl, rfl⟩, hbound⟩ := hexec
  rw [if_neg hne, hx, if_pos hne] at hbound
  obtain ⟨r, q, hbind, hstatus⟩ := exec_call_bind.mp hbound
  obtain ⟨order, o, ho, hident, -⟩ := h.stored
  have hoid : o.id = ident.id := congrArg OrderIdent.id hident
  refine ⟨q, h.amended hbind (by simp) (by simp) (fun _ => rfl) (fun _ _ => rfl)
    (fun _ _ _ hw => { hw with }), ?_, ?_⟩
  · obtain ⟨now, -, rfl⟩ := hbind
    simp [Store.bindExchangeOrderID, ho, Store.bindExchangeID, hne, hoid, Store.resolve]
  · obtain ⟨now, rfl, rfl⟩ := hbind
    simpa only [Store.bindExchangeOrderID, ho] using hstatus

theorem exec_ack {step : ExchangeStep} (h : Executed ident s [] p.store)
    (hstatus : step.status = .ack) (hexec : Exec (sem env) (applyStatus ident.id step) p a p') :
    a.2 = none ∧ Executed ident s [] p'.store := by
  obtain ⟨order, o, ho, -⟩ := h.stored
  simp only [applyStatus, hstatus] at hexec
  obtain ⟨r, q, hack, hannounce⟩ := exec_call_bind.mp hexec
  have hq := h.amended hack (by simp) (by simp) (fun _ => rfl) (fun _ _ => rfl)
    (fun _ _ _ hw => { hw with last := fun c hc => by cases hc })
  obtain ⟨now, rfl, rfl⟩ := hack
  have hstore := reads_announceOrLookup _ _ _ _ _ hannounce
  simp only [Store.markOrderAck, Store.amend, ho] at hannounce
  obtain ⟨_, _, _, rfl, -⟩ := (exec_bind _ _ _).mp hannounce
  rw [hstore]
  exact ⟨rfl, hq⟩

theorem exec_fill {fill : FillLedgerEntry} {event : ExecutionEvent}
    (h : Executed ident s calls p.store) (hresolve : p.store.resolve ident.id = ident.id)
    (hpos : 0 < fill.quantity) (hexec : Exec (sem env) (applyFill ident.id fill event) p a p') :
    a.2 = none ∧ ∃ now, Executed ident s (calls ++ [⟨now, ident.id, fill, event⟩]) p'.store := by
  unfold applyFill at hexec
  obtain ⟨⟨updated, position, err⟩, q, hfill, hrest⟩ := exec_call_bind.mp hexec
  obtain ⟨hnone, now, hq⟩ := h.fill hresolve hpos hfill
  obtain rfl : err = none := hnone
  obtain ⟨_, _, h₁, _, _, h₂, _, _, h₃, _, _, h₄, _, _, h₅, _, _, h₆, rfl, rfl⟩ := hrest
  -- what follows the fill only announces it
  exact ⟨rfl, now, (((((hq.reads h₁ rfl).reads h₂ rfl).reads h₃ rfl).reads h₄ rfl).reads h₅
    rfl).reads h₆ rfl⟩

/-- The first of these steps, which reports a fill. -/
theorem exec_fillStep {reserved order final : Order} {ackAt : Time} {last : Bool}
    {fill : FillLedgerEntry} {rest : List ExchangeStep} (hreserved : reserved.id = ident.id)
    (horder : order.id = ident.id) (h : Executed ident s calls p.store)
    (hpos : 0 < fill.quantity) (hexec : Exec (sem env)
      (applySteps reserved (PaperExchange.fillStep order ackAt last fill :: rest) final) p a p') :
    ∃ q final' c, c.fill = fill ∧
      c.event.orderID = order.id ∧ c.event.filledQuantity = fill.quantity ∧
      Executed ident s (calls ++ [c]) q.store ∧
      Exec (sem env) (applySteps reserved rest final') q a p' := by
  unfold applySteps at hexec
  obtain ⟨⟨updated, err⟩, q, hstep, hrest⟩ := (exec_bind _ _ _).mp hexec
  obtain ⟨p₁, h₁, hresolve, hstatus⟩ := exec_bound h hreserved horder hstep
  have hfill : Exec (sem env) (applyFill ident.id fill
      ((PaperExchange.fillStep order ackAt last fill).execution.get rfl)) p₁ (updated, err) q := by
    cases last <;> exact hstatus
  obtain ⟨hnone, now, hq⟩ := exec_fill h₁ hresolve hpos hfill
  obtain rfl : err = none := hnone
  exact ⟨q, updated, _, rfl, rfl, rfl, hq, hrest⟩

/-- The steps of the fills apply them one by one. -/
theorem exec_fillSteps {reserved order : Order} {ackAt : Time} (hreserved : reserved.id = ident.id)
    (horder : order.id = ident.id) {fills : List FillLedgerEntry}
    (hfills : ∀ fill ∈ fills, fill.orderID = order.id ∧ 0 < fill.quantity) {final : Order}
    (h : Executed ident s calls p.store) (hexec : Exec (sem env)
      (applySteps reserved (PaperExchange.fillSteps order ackAt fills) final) p a p') :
    ∃ more : List FillCall, more.map (·.fill) = fills ∧
      (∀ c ∈ more, Store.Paired c.fill c.event) ∧ Executed ident s (calls ++ more) p'.store := by
  induction fills generalizing p final calls with
  | nil =>
    obtain ⟨-, rfl⟩ := hexec
    exact ⟨[], rfl, by simp, by rwa [List.append_nil]⟩
  | cons fill rest ih =>
    obtain ⟨⟨hid, hpos⟩, hrest⟩ := List.forall_mem_cons.mp hfills
    have hsteps : ∃ last, PaperExchange.fillSteps order ackAt (fill :: rest) =
        PaperExchange.fillStep order ackAt last fill ::
          PaperExchange.fillSteps order ackAt rest := by
      cases rest
      · exact ⟨true, rfl⟩
      · exact ⟨false, rfl⟩
    obtain ⟨last, hsteps⟩ := hsteps
    rw [hsteps] at hexec
    obtain ⟨q, final', c, rfl, hevent, hquantity, hq, hexec'⟩ :=
      exec_fillStep hreserved horder h hpos hexec
    obtain ⟨more, rfl, hpaired, hall⟩ := ih hrest hq hexec'
    refine ⟨c :: more, rfl, List.forall_mem_cons.mpr ⟨⟨hid.trans hevent.symm, hquantity.symm⟩,
      hpaired⟩, ?_⟩
    rwa [List.append_assoc] at hall

end Steps

/-! ## The fills that were sent -/

/-- The fills of the reply, for an order that was sent. -/
def replyFills : Event Op Res → List FillLedgerEntry
  | ⟨.sendOrder _, .ok steps⟩ => steps.filterMap ExchangeStep.fill
  | _ => []

/-- The fills the exchange sent. -/
def sentFills (log : List (Event Op Res)) : List FillLedgerEntry := log.flatMap replyFills

theorem sentFills_append (log log' : List (Event Op Res)) :
    sentFills (log ++ log') = sentFills log ++ sentFills log' := List.flatMap_append

/-- A call that sends no order. -/
def Op.Unsent (o : Op) : Prop := ∀ order, o ≠ .sendOrder order

theorem unsent_block (o : Op) (h : o.isBlock = true) : o.Unsent := by
  rintro order rfl
  cases h

theorem replyFills_unsent {e : Event Op Res} (h : e.1.Unsent) : replyFills e = [] := by
  unfold replyFills
  split
  · exact absurd rfl (h _)
  · rfl

theorem sentFills_unsent {log : List (Event Op Res)} (h : ∀ e ∈ log, e.1.Unsent) :
    sentFills log = [] :=
  List.flatMap_eq_nil_iff.mpr fun e he => replyFills_unsent (h e he)

theorem filterMap_fillSteps (order : Order) (ackAt : Time) (fills : List FillLedgerEntry) :
    (PaperExchange.fillSteps order ackAt fills).filterMap ExchangeStep.fill = fills := by
  induction fills with
  | nil => rfl
  | cons fill rest ih =>
    cases rest with
    | nil => rfl
    | cons fill' rest => exact congrArg (List.cons fill) ih

/-! ## Submit -/

/-- The order is new in the store, and had all the fills the exchange sent. -/
def FilledOnPaper (order : Order) (s : Store) (log : List (Event Op Res)) (s' : Store) : Prop :=
  ∃ ackAt calls, calls.map (·.fill) =
      PaperExchange.buildPaperFills order (PaperExchange.reference order.price) ackAt ∧
    (∀ c ∈ calls, Store.Paired c.fill c.event) ∧
    sentFills log = calls.map (·.fill) ∧ Executed order.ident s calls s'

section Submit

variable {env : Env} {p p' : Plane} {log : List (Event Op Res)} {a : Order × Option Err}
  {s : Store}

/-- What `MarkOrderSent` makes of the order that was just reserved. -/
theorem logged_markSent {reserved sent : Order} (h : Executed reserved.ident s [] p.store)
    (hs : p.store.orders.lookup reserved.id = some reserved)
    (hlog : Logged (sem env) (markSent reserved) p log sent p') :
    sent.ident = reserved.ident ∧ sent.price = reserved.price ∧
      Executed reserved.ident s [] p'.store := by
  unfold markSent at hlog
  obtain ⟨t, _, _, -, rfl, hmark⟩ := logged_call.mp hlog
  obtain ⟨r, q, _, -, hsem, hrest⟩ := logged_call.mp hmark
  have hq := h.amended hsem (by simp) (by simp) (fun _ => rfl) (fun _ _ => rfl)
    (fun _ _ _ hw => { hw with last := fun c hc => by cases hc })
  obtain ⟨now, hr, rfl⟩ := hsem
  simp only [Store.markOrderSent, Store.amend, hs] at hr
  subst hr
  obtain ⟨_, _, _, -, hemit, -, rfl, rfl⟩ := logged_call.mp hrest
  exact ⟨rfl, rfl, hq.reads hemit rfl⟩

/-- All of the order is filled, at its price. -/
theorem FilledOnPaper.order {order : Order} {s' : Store} (h : FilledOnPaper order s log s')
    (hsize : 0 < order.size) : ∃ o, s'.orders.lookup order.id = some o ∧ o.ident = order.ident ∧
      o.status = .filled ∧ o.filled = o.size ∧
      o.weightedAvgFillPrice = PaperExchange.reference order.price := by
  obtain ⟨ackAt, calls, hcalls, -, -, hexecuted⟩ := h
  obtain ⟨order₀, o, ho, hident, hfilled⟩ := hexecuted.stored
  have hosize : o.size = order.size := congrArg OrderIdent.size hident
  have hquantity : totalQuantity calls = order.size := by
    have hsum := PaperExchange.buildPaperFills_sum order (PaperExchange.reference order.price) ackAt
    rw [← hcalls, List.map_map, max_eq_left hsize.le] at hsum
    exact hsum
  have hall : o.filled = o.size := by rw [hfilled.filled, hquantity, hosize]
  have hnotional : totalNotional calls =
      totalQuantity calls * PaperExchange.reference order.price := by
    have hprice : ∀ c ∈ calls, c.quantity * c.price =
        c.quantity * PaperExchange.reference order.price := fun c hc => by
      have hmem : c.fill ∈ PaperExchange.buildPaperFills order
          (PaperExchange.reference order.price) ackAt := hcalls ▸ List.mem_map_of_mem hc
      rw [FillCall.price, (PaperExchange.fillOf_of_mem hmem).price]
    rw [totalNotional, List.map_congr_left hprice, List.sum_map_mul_right]
    rfl
  have hne : calls ≠ [] := by
    rintro rfl
    exact hsize.ne hquantity
  obtain ⟨-, -, hstatus⟩ := hfilled.last _ (List.getLast?_eq_some_getLast hne)
  refine ⟨o, ho, hident, by rw [hstatus, if_pos hall.ge], hall, ?_⟩
  have havg := hfilled.notional
  rw [hnotional, hfilled.filled, mul_comm] at havg
  exact mul_left_cancel₀ (hquantity ▸ hsize.ne') havg

/-- Sent to the paper exchange, which answers, the order is filled. -/
theorem logged_sendReserved {started : Time} {reserved : Order}
    (hexchange : env.exchange = PaperExchange.exchange) (h : Executed reserved.ident s [] p.store)
    (hs : p.store.orders.lookup reserved.id = some reserved)
    (hanswered : ∀ order message, (⟨.sendOrder order, .error message⟩ : Event Op Res) ∉ log)
    (hlog : Logged (sem env) (sendReserved started reserved) p log a p') :
    ∃ order, order.ident = reserved.ident ∧ order.price = reserved.price ∧
      FilledOnPaper order s log p'.store := by
  unfold sendReserved at hlog
  obtain ⟨sent, q, log₁, log₂, rfl, hmark, hsend⟩ := (logged_bind _ _ _).mp hlog
  obtain ⟨hident, hprice, hq⟩ := logged_markSent h hs hmark
  obtain ⟨reply, _, _, rfl, ⟨hreply, rfl⟩, hfinish⟩ := logged_call.mp hsend
  obtain ⟨finished, _, _, rfl, rfl, hanswer⟩ := logged_call.mp hfinish
  rw [hexchange] at hreply
  obtain ⟨done, now, rfl⟩ := hreply
  cases done with
  | some message => exact absurd (by simp [PaperExchange.sendOrder]) (hanswered sent message)
  | none =>
    rw [PaperExchange.sendOrder_ok] at hanswer ⊢
    obtain ⟨⟨⟩, q₁, log₃, rfl, hobserve, hsteps⟩ := logged_call.mp hanswer
    have hunsent : ∀ e ∈ log₃, e.1.Unsent :=
      hsteps.only ((only_stepwise unsent_block).applySteps _ _ _)
    have hid : sent.id = reserved.ident.id := Order.id_eq_of_ident hident
    -- the ACK first, then the fills
    obtain ⟨⟨updated, err⟩, q₂, hack, hfills⟩ :=
      (exec_bind _ _ _).mp ((exec_iff_logged _ _).mpr ⟨_, hsteps⟩)
    obtain ⟨q₃, h₃, -, hstatus⟩ := exec_bound (hq.reads hobserve rfl) hid hid hack
    obtain ⟨hnone, h₂⟩ := exec_ack h₃ rfl hstatus
    obtain rfl : err = none := hnone
    obtain ⟨calls, hcalls, hpaired, hall⟩ := exec_fillSteps hid hid
      (fun fill hfill => ⟨(PaperExchange.fillOf_of_mem hfill).orderID,
        (PaperExchange.fillOf_of_mem hfill).quantity⟩) h₂ hfills
    refine ⟨sent, hident, hprice, _, calls, hcalls, hpaired, ?_, hident ▸ hall⟩
    have hmarked : sentFills log₁ = [] :=
      sentFills_unsent (hmark.only (only_markSent unsent_block reserved))
    rw [sentFills_append, hmarked, hcalls]
    show (List.filterMap ExchangeStep.fill _) ++ sentFills log₃ = _
    rw [sentFills_unsent hunsent, List.append_nil]
    exact filterMap_fillSteps _ _ _

/-- The self-trade loop leaves positions and reservations alone. -/
theorem cancelSelfTrades_frame {async : Bool} {req : ExecutionRequest} {opened : List Order}
    (h : Logged (sem env) (cancelSelfTrades async req opened) p log () p') :
    p'.store.positions = p.store.positions ∧ p'.store.idempotency = p.store.idempotency := by
  induction opened generalizing p log with
  | nil =>
    obtain ⟨-, -, rfl⟩ := h
    exact ⟨rfl, rfl⟩
  | cons o rest ih =>
    rcases cancelSelfTrades_cons h with ⟨-, t, r, p₁, log₁, hcancel, hrest⟩ | ⟨-, hrest⟩
    · rw [(ih hrest).1, (ih hrest).2]
      exact ⟨sem_positions hcancel (by simp), sem_idempotency hcancel (by simp)⟩
    · exact ih hrest

/-- After the risk check: the loop, and then an order under a free key is filled. -/
theorem logged_reserveAndSend {async : Bool} {started requestAt : Time} {req : ExecutionRequest}
    (hexchange : env.exchange = PaperExchange.exchange) (hwf : p.store.WellFormed)
    (hfree : p.store.idempotency.lookup req.idempotencyKey = none)
    (hanswered : ∀ order message, (⟨.sendOrder order, .error message⟩ : Event Op Res) ∉ log)
    (h : Logged (sem env) (reserveAndSend async started requestAt req) p log a p') :
    ∃ opened p₁ log₁ id order, opened.Perm (p.store.openOrdersBySymbol req.symbol) ∧
      Logged (sem env) (cancelSelfTrades async req opened) p log₁ () p₁ ∧
      p₁.store.orders.lookup id = none ∧
      order.ident = ⟨id, req.idempotencyKey, req.symbol, req.side, req.size⟩ ∧
      order.price = req.price ∧ FilledOnPaper order p₁.store log p'.store := by
  unfold reserveAndSend at h
  obtain ⟨opened, _, _, rfl, ⟨hperm, rfl⟩, hlisted⟩ := logged_call.mp h
  obtain ⟨⟨⟩, p₁, log₁, log₂, rfl, hloop, hrest⟩ := (logged_bind _ _ _).mp hlisted
  have hkeys := (cancelSelfTrades_frame hloop).2
  have hwf₁ : p₁.store.WellFormed :=
    hloop.invariant (P := fun p => p.store.WellFormed)
      (fun _ _ _ _ hp hs => sem_wellFormed hs hp) hwf
  obtain ⟨id, p₂, _, rfl, ⟨⟨hid, -, hnew, -⟩, rfl⟩, hnamed⟩ := logged_call.mp hrest
  obtain ⟨sendAt, _, _, rfl, rfl, htimed⟩ := logged_call.mp hnamed
  obtain ⟨r, p₃, log₃, rfl, hreserve, hreserved⟩ := logged_call.mp htimed
  rcases sem_reserveOrder hreserve with ⟨id', hid', -⟩ | ⟨-, now, rfl, horders, hkey⟩
  · have htaken : p₁.store.idempotency.lookup req.idempotencyKey = some id' := hid'
    rw [hkeys, hfree] at htaken
    cases htaken
  · -- the reservation is new: its order is stored as it was reserved, and sent
    have hwf₃ := sem_wellFormed hreserve hwf₁
    let reserved := Store.reservedOrder now (requestOrder id requestAt sendAt req)
    have hstored : p₃.store.orders.lookup reserved.id = some reserved := by
      rw [horders]
      exact AList.lookup_insert _
    have hexecuted := Executed.reserved hwf₃ hid ⟨rfl, rfl⟩ hreserve horders hkey
    obtain ⟨order, hident, hprice, ackAt, calls, hcalls, hpaired, hsent, hall⟩ :=
      logged_sendReserved hexchange hexecuted hstored
        (fun order message hmem => hanswered order message (by simp [hmem])) hreserved
    refine ⟨opened, p₁, log₁, id, order, hperm, hloop, GoMap.lookup_none_of_notMem hnew, hident,
      hprice, ackAt, calls, hcalls, hpaired, ?_, hall⟩
    have hunsent : sentFills log₁ = [] :=
      sentFills_unsent (hloop.only ((only_sequenced unsent_block).cancelSelfTrades _ _ _))
    rw [← hsent]
    show sentFills (log₁ ++ _) = _
    rw [sentFills_append, hunsent]
    rfl

end Submit

end RealTimeTrading.ControlPlane
