/-
RealTimeTrading.ControlPlane.PlaneTheorems — what one call can do to the
shared state.

`Op.written` is the order a call writes, if it writes one; the inversion
`written_cases` says where such an order comes from, and `sem_reads`,
`sem_orders` and `sem_idempotency` are the frame of a call. Every
invariant of the runs is derived from these, not from the definitions.
-/
import RealTimeTrading.ControlPlane.Plane
import RealTimeTrading.ControlPlane.StoreTheorems

namespace RealTimeTrading.ControlPlane

open RealTimeTrading.Concurrency

/-! ## The part of an order no method changes -/

structure OrderIdent where
  id : OrderID
  idempotencyKey : String
  symbol : Symbol
  side : Side
  size : ℚ
  deriving DecidableEq

def Order.ident (o : Order) : OrderIdent :=
  ⟨o.id, o.idempotencyKey, o.symbol, o.side, o.size⟩

@[simp] theorem Order.ident_id (o : Order) : o.ident.id = o.id := rfl

theorem Order.id_eq_of_ident {a b : Order} (h : a.ident = b.ident) : a.id = b.id :=
  congrArg OrderIdent.id h

/-! ## The order a call writes -/

namespace Store

/-- The map of orders after writing `w`. -/
def writeOrder (w : Option Order) (m : GoMap OrderID Order) : GoMap OrderID Order :=
  match w with
  | some o => m.insert o.id o
  | none => m

@[simp] theorem writeOrder_none (m : GoMap OrderID Order) : writeOrder none m = m := rfl

theorem lookup_writeOrder_some (o : Order) (m : GoMap OrderID Order) (x : OrderID) :
    (writeOrder (some o) m).lookup x = if x = o.id then some o else m.lookup x :=
  GoMap.lookup_insert_ite _ _ _ _

end Store

/-- The order a call writes when its clock read `now`. -/
def Op.written (now : Time) (s : Store) : Op → Option Order
  | .reserveOrder o =>
    match s.idempotency.lookup o.idempotencyKey with
    | none => some (Store.reservedOrder now o)
    | some _ => none
  | .updateOrder o => some (Store.updatedOrder now o)
  | .markOrderSent id sentAt => (s.orders.lookup id).map (Store.sentOrder now sentAt)
  | .markOrderAck id ackAt => (s.orders.lookup id).map (Store.ackedOrder now ackAt)
  | .cancelOrder id reason canceledAt =>
    (s.orders.lookup id).map (Store.canceledOrder now reason canceledAt)
  | .replaceOrderPrice id price =>
    (s.orders.lookup id).bind fun o =>
      if o.status.isTerminal then none else some (Store.repricedOrder now price o)
  | .applyExternalFill id fill event =>
    (s.orders.lookup (s.resolve id)).map (Store.fillOrder now fill event)
  | .bindExchangeOrderID id x => (s.orders.lookup id).map (Store.boundOrder now x)
  | _ => none

/-- An order that is written is a new reservation, a copy the caller held, or
the stored order amended, its identity kept and, but for a fill, its filled
quantity. -/
theorem written_cases {now : Time} {s : Store} {o : Op} {w : Order}
    (h : o.written now s = some w) :
    (∃ order, o = .reserveOrder order ∧ s.idempotency.lookup order.idempotencyKey = none ∧
      w = Store.reservedOrder now order) ∨
    (∃ order, o = .updateOrder order ∧ w = Store.updatedOrder now order) ∨
    (∃ id stored, s.orders.lookup id = some stored ∧ w.ident = stored.ident ∧
      ((∀ x fill event, o ≠ .applyExternalFill x fill event) → w.filled = stored.filled)) := by
  cases o with
  | reserveOrder order =>
    simp only [Op.written] at h
    split at h
    · exact Or.inl ⟨order, rfl, ‹_›, (Option.some.inj h).symm⟩
    · cases h
  | updateOrder order => exact Or.inr (Or.inl ⟨order, rfl, (Option.some.inj h).symm⟩)
  | replaceOrderPrice id price =>
    obtain ⟨stored, hs, hw⟩ := Option.bind_eq_some_iff.mp h
    split at hw
    · cases hw
    · obtain rfl := Option.some.inj hw
      exact Or.inr (Or.inr ⟨id, stored, hs, rfl, fun _ => rfl⟩)
  | applyExternalFill x fill event =>
    obtain ⟨stored, hs, rfl⟩ := Option.map_eq_some_iff.mp h
    exact Or.inr (Or.inr ⟨_, stored, hs, rfl, fun hne => absurd rfl (hne x fill event)⟩)
  | markOrderSent | markOrderAck | cancelOrder | bindExchangeOrderID =>
    obtain ⟨stored, hs, rfl⟩ := Option.map_eq_some_iff.mp h
    exact Or.inr (Or.inr ⟨_, stored, hs, rfl, fun _ => rfl⟩)
  | _ => cases h

/-! ## The frame of a call -/

/-- The methods of the store that write. -/
def Op.writesStore : Op → Bool
  | .reserveOrder _ | .updateOrder _ | .markOrderSent _ _ | .markOrderAck _ _ | .cancelOrder _ _ _
  | .replaceOrderPrice _ _ | .applyExternalFill _ _ _ | .bindExchangeOrderID _ _
  | .setAccountState _ => true
  | _ => false

section Frame

variable {env : Env} {o : Op} {p p' : Plane} {r : Res o}

theorem sem_reads (h : sem env o p r p') (ho : o.writesStore = false) : p'.store = p.store := by
  cases o with
  | emit update => rcases h with rfl | rfl <;> rfl
  | newID | openOrdersBySymbol | order | orderByIdempotency | orderByExchangeID | sendOrder =>
    obtain ⟨-, rfl⟩ := h; rfl
  | evaluate req => obtain ⟨_, _, -, rfl⟩ := h; rfl
  | observeMarket event => obtain ⟨_, rfl⟩ := h; rfl
  | now | ctxErr | observeExecution | observeExecutionEvent | setKillSwitch | cancelRemote |
      replaceRemote | getAccountState =>
    obtain rfl := h; rfl
  | _ => cases ho

theorem sem_orders (h : sem env o p r p') :
    ∃ now, p'.store.orders = Store.writeOrder (o.written now p.store) p.store.orders := by
  cases o with
  | reserveOrder order =>
    obtain ⟨now, -, rfl⟩ := h
    refine ⟨now, ?_⟩
    simp only [Op.written, Store.reserveOrder]
    split <;> simp [Store.reserveKey, Store.putOrder, Store.writeOrder, *]
  | updateOrder order =>
    obtain ⟨now, -, rfl⟩ := h
    exact ⟨now, by simp [Op.written, Store.updateOrder, Store.putOrder, Store.writeOrder]⟩
  | markOrderSent id t | markOrderAck id t | cancelOrder id reason t =>
    obtain ⟨now, -, rfl⟩ := h
    refine ⟨now, ?_⟩
    simp only [Op.written, Store.markOrderSent, Store.markOrderAck, Store.cancelOrder, Store.amend]
    split <;> simp [Store.putOrder, Store.writeOrder, *]
  | replaceOrderPrice id price =>
    obtain ⟨now, -, rfl⟩ := h
    refine ⟨now, ?_⟩
    simp only [Op.written, Store.replaceOrderPrice]
    split
    · simp [*]
    · split <;> simp [Store.putOrder, Store.writeOrder, *]
  | applyExternalFill id fill event =>
    obtain ⟨now, -, rfl⟩ := h
    refine ⟨now, ?_⟩
    simp only [Op.written, Store.applyExternalFill]
    split <;> simp [Store.putOrder, Store.writeOrder, *]
  | bindExchangeOrderID id x =>
    obtain ⟨now, -, rfl⟩ := h
    refine ⟨now, ?_⟩
    simp only [Op.written, Store.bindExchangeOrderID]
    split <;> simp [Store.putOrder, Store.writeOrder, *]
  | setAccountState account =>
    obtain ⟨now, -, rfl⟩ := h
    exact ⟨now, rfl⟩
  | _ =>
    rw [sem_reads h rfl]
    exact ⟨0, rfl⟩

/-- No call removes an order. -/
theorem mem_of_sem (h : sem env o p r p') {id : OrderID} (hid : id ∈ p.store.orders) :
    id ∈ p'.store.orders := by
  obtain ⟨now, horders⟩ := sem_orders h
  rw [horders]
  cases o.written now p.store with
  | none => exact hid
  | some w => exact (AList.mem_insert _).mpr (Or.inr hid)

/-- Orders and exchange ids apart, only reservations and fills touch the books. -/
theorem sem_frame (h : sem env o p r p') (hreserve : ∀ order, o ≠ .reserveOrder order)
    (hfill : ∀ id fill event, o ≠ .applyExternalFill id fill event) :
    p'.store.idempotency = p.store.idempotency ∧ p'.store.positions = p.store.positions ∧
      p'.store.ledger = p.store.ledger ∧ p'.store.executions = p.store.executions := by
  cases o with
  | reserveOrder order => exact absurd rfl (hreserve order)
  | applyExternalFill id fill event => exact absurd rfl (hfill id fill event)
  | updateOrder order => obtain ⟨now, -, rfl⟩ := h; simp [Store.updateOrder]
  | markOrderSent | markOrderAck | cancelOrder =>
    obtain ⟨now, -, rfl⟩ := h
    simp only [Store.markOrderSent, Store.markOrderAck, Store.cancelOrder, Store.amend]
    split <;> exact ⟨rfl, rfl, rfl, rfl⟩
  | replaceOrderPrice id price =>
    obtain ⟨now, -, rfl⟩ := h
    simp only [Store.replaceOrderPrice]
    split
    · exact ⟨rfl, rfl, rfl, rfl⟩
    · split <;> exact ⟨rfl, rfl, rfl, rfl⟩
  | bindExchangeOrderID id x =>
    obtain ⟨now, -, rfl⟩ := h
    simp only [Store.bindExchangeOrderID]
    split <;> simp
  | setAccountState account => obtain ⟨now, -, rfl⟩ := h; exact ⟨rfl, rfl, rfl, rfl⟩
  | _ => rw [sem_reads h rfl]; exact ⟨rfl, rfl, rfl, rfl⟩

/-- A reservation touches the orders, their keys and their exchange ids only. -/
theorem sem_reserveOrder_books {order : Order} {r : Order × Bool × Option Err}
    (h : sem env (.reserveOrder order) p r p') : p'.store.positions = p.store.positions ∧
      p'.store.ledger = p.store.ledger ∧ p'.store.executions = p.store.executions := by
  obtain ⟨now, -, rfl⟩ := h
  simp only [Store.reserveOrder]
  split
  · exact ⟨rfl, rfl, rfl⟩
  · simp [Store.reserveKey]

/-- Only a reservation touches the idempotency map. -/
theorem sem_idempotency (h : sem env o p r p') (hne : ∀ order, o ≠ .reserveOrder order) :
    p'.store.idempotency = p.store.idempotency := by
  cases o with
  | applyExternalFill id fill event =>
    obtain ⟨now, -, rfl⟩ := h
    simp only [Store.applyExternalFill]
    split <;> rfl
  | _ => exact (sem_frame h hne (by simp)).1

/-- Only a fill touches the positions. -/
theorem sem_positions (h : sem env o p r p')
    (hne : ∀ id fill event, o ≠ .applyExternalFill id fill event) :
    p'.store.positions = p.store.positions := by
  cases o with
  | reserveOrder order => exact (sem_reserveOrder_books h).1
  | _ => exact (sem_frame h (by simp) hne).2.1

/-- Only a fill is recorded. -/
theorem sem_records (h : sem env o p r p')
    (hne : ∀ id fill event, o ≠ .applyExternalFill id fill event) :
    p'.store.ledger = p.store.ledger ∧ p'.store.executions = p.store.executions := by
  cases o with
  | reserveOrder order => exact (sem_reserveOrder_books h).2
  | _ => exact (sem_frame h (by simp) hne).2.2

theorem sem_issued (h : sem env o p r p') (hne : o ≠ .newID) : p'.issued = p.issued := by
  cases o with
  | newID => exact absurd rfl hne
  | emit update => rcases h with rfl | rfl <;> rfl
  | openOrdersBySymbol | order | orderByIdempotency | orderByExchangeID | sendOrder =>
    obtain ⟨-, rfl⟩ := h; rfl
  | evaluate req => obtain ⟨_, _, -, rfl⟩ := h; rfl
  | observeMarket event => obtain ⟨_, rfl⟩ := h; rfl
  | now | ctxErr | observeExecution | observeExecutionEvent | setKillSwitch | cancelRemote |
      replaceRemote | getAccountState =>
    obtain rfl := h; rfl
  | _ => obtain ⟨now, -, rfl⟩ := h; rfl

theorem sem_wellFormed (h : sem env o p r p') (hp : p.store.WellFormed) :
    p'.store.WellFormed := by
  cases o with
  | reserveOrder order => obtain ⟨now, -, rfl⟩ := h; exact hp.reserveOrder _ _
  | updateOrder order => obtain ⟨now, -, rfl⟩ := h; exact hp.updateOrder _ _
  | markOrderSent | markOrderAck | cancelOrder => obtain ⟨now, -, rfl⟩ := h; exact hp.amend _ _
  | replaceOrderPrice id price => obtain ⟨now, -, rfl⟩ := h; exact hp.replaceOrderPrice _ _ _
  | applyExternalFill id fill event =>
    obtain ⟨now, -, rfl⟩ := h; exact hp.applyExternalFill _ _ _ _
  | bindExchangeOrderID id x => obtain ⟨now, -, rfl⟩ := h; exact hp.bindExchangeOrderID _ _ _
  | setAccountState account => obtain ⟨now, -, rfl⟩ := h; exact hp.setAccountState _
  | _ => rwa [sem_reads h rfl]

/-- Referential integrity holds in every reachable state. -/
theorem run_wellFormed {p₀ : Plane} {tr : List PlaneEntry} {c : PlaneConfig}
    (hwf : p₀.store.WellFormed) (hrun : PlaneRun env p₀ tr c) : c.shared.store.WellFormed :=
  Run.induct_shared (fun _ p => p.store.WellFormed) hwf
    (fun _ _ _ _ _ _ hp hsem => sem_wellFormed hsem hp) hrun

/-! ## Calls whose results matter -/

/-- A reservation either finds the key taken and changes nothing, or stores
the new order and takes the key. -/
theorem sem_reserveOrder {order : Order} {r : Order × Bool × Option Err}
    (h : sem env (.reserveOrder order) p r p') :
    (∃ id, p.store.idempotency.lookup order.idempotencyKey = some id ∧
      r = ((p.store.orders.lookup id).getD default, true, some .duplicate) ∧ p' = p) ∨
    (p.store.idempotency.lookup order.idempotencyKey = none ∧
      ∃ now, r = (Store.reservedOrder now order, false, none) ∧
        p'.store.orders = p.store.orders.insert order.id (Store.reservedOrder now order) ∧
        p'.store.idempotency = p.store.idempotency.insert order.idempotencyKey order.id) := by
  obtain ⟨now, rfl, rfl⟩ := h
  simp only [Store.reserveOrder]
  split
  · exact Or.inl ⟨_, ‹_›, rfl, rfl⟩
  · refine Or.inr ⟨‹_›, now, rfl, ?_, ?_⟩
    · simp [Store.reserveKey, Store.putOrder, Store.reservedOrder]
    · simp [Store.reserveKey]

theorem sem_markOrderSent {id : OrderID} {t : Time} {r : Order × Option Err}
    (h : sem env (.markOrderSent id t) p r p') (hr : r.2 = none) :
    ∃ now stored, p.store.orders.lookup id = some stored ∧ r.1 = Store.sentOrder now t stored := by
  obtain ⟨now, rfl, rfl⟩ := h
  revert hr
  simp only [Store.markOrderSent, Store.amend]
  split
  · intro hr; cases hr
  · intro _; exact ⟨now, _, ‹_›, rfl⟩

/-- A fill is refused without effect, or lands on the order its id resolves to. -/
theorem sem_applyExternalFill {id : OrderID} {fill : FillLedgerEntry} {event : ExecutionEvent}
    {r : Order × Position × Option Err} (h : sem env (.applyExternalFill id fill event) p r p') :
    (r.2.2 ≠ none ∧ p' = p) ∨
    (r.2.2 = none ∧ ∃ now stored, p.store.orders.lookup (p.store.resolve id) = some stored ∧
      r.1 = Store.fillOrder now fill event stored ∧
      p'.store.orders = p.store.orders.insert r.1.id r.1) := by
  obtain ⟨now, rfl, rfl⟩ := h
  simp only [Store.applyExternalFill]
  split
  · exact Or.inl ⟨nofun, rfl⟩
  · exact Or.inr ⟨rfl, now, _, ‹_›, rfl, rfl⟩

end Frame

end RealTimeTrading.ControlPlane
