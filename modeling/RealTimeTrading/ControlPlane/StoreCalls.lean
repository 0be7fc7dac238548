/-
RealTimeTrading.ControlPlane.StoreCalls — the store after any sequence of
calls of its methods.

`StoreCall` is a call of a method that writes, with the reading of the
clock it made. Referential integrity is kept by every call; that a
reservation keeps its order rests on one thing more, that no order is
entered under the empty id (`StoreCall.Named`), because `UpsertOrder`
takes an empty reservation for none. The gateway enters orders under ids
of `newID` and reserves no empty key (`reached_run`).
-/
import RealTimeTrading.ControlPlane.Alone

namespace RealTimeTrading.ControlPlane

open RealTimeTrading.Concurrency

/-! ## Calls -/

inductive StoreCall where
  | reserveOrder (now : Time) (order : Order)
  | updateOrder (now : Time) (order : Order)
  | markOrderSent (now : Time) (orderID : OrderID) (sentAt : Time)
  | markOrderAck (now : Time) (orderID : OrderID) (ackAt : Time)
  | cancelOrder (now : Time) (orderID : OrderID) (reason : String) (canceledAt : Time)
  | replaceOrderPrice (now : Time) (orderID : OrderID) (price : Option ℚ)
  | applyExternalFill (now : Time) (orderID : OrderID) (fill : FillLedgerEntry)
    (event : ExecutionEvent)
  | bindExchangeOrderID (now : Time) (orderID : OrderID) (exchangeOrderID : String)
  | upsertOrder (now : Time) (order : Order)
  | setPosition (position : Position)
  | setAccountState (account : AccountState)
  | appendReconciliationReport (report : ReconciliationReport)

namespace StoreCall

def apply (s : Store) : StoreCall → Store
  | .reserveOrder now order => (s.reserveOrder now order).2
  | .updateOrder now order => s.updateOrder now order
  | .markOrderSent now id sentAt => (s.markOrderSent now id sentAt).2
  | .markOrderAck now id ackAt => (s.markOrderAck now id ackAt).2
  | .cancelOrder now id reason canceledAt => (s.cancelOrder now id reason canceledAt).2
  | .replaceOrderPrice now id price => (s.replaceOrderPrice now id price).2
  | .applyExternalFill now id fill event => (s.applyExternalFill now id fill event).2
  | .bindExchangeOrderID now id exchangeOrderID => (s.bindExchangeOrderID now id exchangeOrderID).2
  | .upsertOrder now order => s.upsertOrder now order
  | .setPosition position => s.setPosition position
  | .setAccountState account => s.setAccountState account
  | .appendReconciliationReport report => s.appendReconciliationReport report

/-- The order a call may enter under a key. -/
def enters : StoreCall → Option Order
  | .reserveOrder _ order | .upsertOrder _ order => some order
  | _ => none

/-- No order is entered under the empty id. -/
def Named (c : StoreCall) : Prop := ∀ order ∈ c.enters, order.id ≠ ""

/-- A named call that does not reserve the empty key. -/
structure Issued (c : StoreCall) : Prop where
  named : c.Named
  keyed : ∀ now order, c = .reserveOrder now order → order.idempotencyKey ≠ ""

end StoreCall

/-- The stores that calls of this kind lead to. -/
inductive Store.Reached (P : StoreCall → Prop) : Store → Prop where
  | new : Store.Reached P .newStore
  | call {s : Store} {c : StoreCall} (h : Store.Reached P s) (hc : P c) :
    Store.Reached P (c.apply s)

/-! ## What one call keeps -/

namespace Store

/-- Nothing stored or reserved is lost, and no reservation changes its order. -/
structure Keeps (s s' : Store) : Prop where
  orders : ∀ id ∈ s.orders, id ∈ s'.orders
  reservations : ∀ k id, s.idempotency.lookup k = some id → s'.idempotency.lookup k = some id

theorem Keeps.refl (s : Store) : s.Keeps s := ⟨fun _ h => h, fun _ _ h => h⟩

theorem Keeps.trans {s s' s'' : Store} (h : s.Keeps s') (h' : s'.Keeps s'') : s.Keeps s'' :=
  ⟨fun id hid => h'.orders id (h.orders id hid),
    fun k id hk => h'.reservations k id (h.reservations k id hk)⟩

section Keeps

variable {s : Store}

theorem keeps_putOrder (o : Order) (s : Store) : s.Keeps (s.putOrder o) :=
  ⟨fun _ hid => (AList.mem_insert _).mpr (Or.inr hid), fun _ _ hk => hk⟩

theorem keeps_bindExchangeID (x : String) (id : OrderID) (s : Store) :
    s.Keeps (s.bindExchangeID x id) := by
  constructor
  · intro i hi
    rwa [bindExchangeID_orders]
  · intro k i hk
    rwa [bindExchangeID_idempotency]

/-- A key may be written if it is free, or with the order it has. -/
theorem keeps_reserveKey {k : String} {id : OrderID}
    (hfree : ∀ i, s.idempotency.lookup k = some i → i = id) : s.Keeps (s.reserveKey k id) := by
  refine ⟨fun _ hid => hid, fun k' i hk => ?_⟩
  simp only [reserveKey, GoMap.lookup_insert_ite]
  split
  · rename_i heq
    rw [hfree i (heq ▸ hk)]
  · exact hk

theorem keeps_amend (id : OrderID) (f : Order → Order) (s : Store) : s.Keeps (s.amend id f).2 := by
  unfold amend
  split
  · exact .refl s
  · exact keeps_putOrder _ s

theorem keeps_reserveOrder (now : Time) (o : Order) (s : Store) :
    s.Keeps (s.reserveOrder now o).2 := by
  unfold reserveOrder
  split
  · exact .refl s
  · rename_i hfree
    refine ((keeps_putOrder _ s).trans (keeps_reserveKey fun i hi => ?_)).trans
      (keeps_bindExchangeID _ _ _)
    rw [putOrder_idempotency, hfree] at hi
    cases hi

theorem keeps_replaceOrderPrice (now : Time) (id : OrderID) (price : Option ℚ) (s : Store) :
    s.Keeps (s.replaceOrderPrice now id price).2 := by
  unfold replaceOrderPrice
  split
  · exact .refl s
  · split
    · exact .refl s
    · exact keeps_putOrder _ s

theorem keeps_applyExternalFill (now : Time) (id : OrderID) (fill : FillLedgerEntry)
    (event : ExecutionEvent) (s : Store) : s.Keeps (s.applyExternalFill now id fill event).2 := by
  unfold applyExternalFill
  split
  · exact .refl s
  · have hput := keeps_putOrder (fillOrder now fill event ‹Order›) s
    exact ⟨hput.orders, hput.reservations⟩

theorem keeps_bindExchangeOrderID (now : Time) (id : OrderID) (x : String) (s : Store) :
    s.Keeps (s.bindExchangeOrderID now id x).2 := by
  unfold bindExchangeOrderID
  split
  · exact .refl s
  · exact (keeps_putOrder _ s).trans (keeps_bindExchangeID _ _ _)

/-- `UpsertOrder` writes a taken key with the order that has it. -/
theorem keeps_upsertOrder (now : Time) (o : Order)
    (hnamed : ∀ k id, s.idempotency.lookup k = some id → id ≠ "") :
    s.Keeps (s.upsertOrder now o) := by
  have htaken : ∀ i, s.idempotency.lookup o.idempotencyKey = some i →
      i = (upsertedOrder now s o).id := by
    intro i hi
    simp only [upsertedOrder, hi, if_pos (hnamed _ i hi)]
  unfold upsertOrder
  dsimp only
  split
  · exact ((keeps_putOrder _ s).trans (keeps_reserveKey htaken)).trans (keeps_bindExchangeID _ _ _)
  · exact (keeps_putOrder _ s).trans (keeps_bindExchangeID _ _ _)

end Keeps

/-! ## Reserved orders have a name -/

/-- No key is reserved for the empty id. -/
def ReservesNamed (s : Store) : Prop := ∀ k id, s.idempotency.lookup k = some id → id ≠ ""

section Named

variable {s : Store}

theorem ReservesNamed.of_idempotency {s' : Store} (h : s.ReservesNamed)
    (heq : s'.idempotency = s.idempotency) : s'.ReservesNamed := by
  intro k id hk
  exact h k id (heq ▸ hk)

theorem ReservesNamed.reserveKey (h : s.ReservesNamed) (k : String) {id : OrderID}
    (hid : id ≠ "") : (s.reserveKey k id).ReservesNamed := by
  intro k' i hk
  simp only [Store.reserveKey, GoMap.lookup_insert_ite] at hk
  split at hk
  · rwa [← Option.some.inj hk]
  · exact h k' i hk

theorem ReservesNamed.amend (h : s.ReservesNamed) (id : OrderID) (f : Order → Order) :
    (s.amend id f).2.ReservesNamed := by
  refine h.of_idempotency ?_
  unfold Store.amend
  split <;> rfl

theorem ReservesNamed.reserveOrder (h : s.ReservesNamed) (now : Time) {o : Order}
    (hid : o.id ≠ "") : (s.reserveOrder now o).2.ReservesNamed := by
  unfold Store.reserveOrder
  split
  · exact h
  · have hput : (s.putOrder (reservedOrder now o)).ReservesNamed := h
    exact (hput.reserveKey _ hid).of_idempotency (bindExchangeID_idempotency _ _ _)

theorem ReservesNamed.upsertOrder (h : s.ReservesNamed) (now : Time) {o : Order}
    (hid : o.id ≠ "") : (s.upsertOrder now o).ReservesNamed := by
  have hupserted : (upsertedOrder now s o).id ≠ "" := by
    unfold upsertedOrder
    dsimp only
    split
    · split
      · assumption
      · exact hid
    · exact hid
  have hput : (s.putOrder (upsertedOrder now s o)).ReservesNamed := h
  unfold Store.upsertOrder
  dsimp only
  split
  · exact (hput.reserveKey _ hupserted).of_idempotency (bindExchangeID_idempotency _ _ _)
  · exact hput.of_idempotency (bindExchangeID_idempotency _ _ _)

end Named

end Store

/-! ## Every call -/

namespace StoreCall

variable {s : Store}

theorem wellFormed (h : s.WellFormed) (c : StoreCall) : (c.apply s).WellFormed := by
  cases c with
  | reserveOrder now o => exact h.reserveOrder now o
  | updateOrder now o => exact h.updateOrder now o
  | markOrderSent now id t => exact h.amend id _
  | markOrderAck now id t => exact h.amend id _
  | cancelOrder now id reason t => exact h.amend id _
  | replaceOrderPrice now id price => exact h.replaceOrderPrice now id price
  | applyExternalFill now id fill event => exact h.applyExternalFill now id fill event
  | bindExchangeOrderID now id x => exact h.bindExchangeOrderID now id x
  | upsertOrder now o => exact h.upsertOrder now o
  | setPosition p => exact h.setPosition p
  | setAccountState a => exact h.setAccountState a
  | appendReconciliationReport r => exact ⟨h.stored, h.reserved, h.bound⟩

theorem keeps (h : s.ReservesNamed) (c : StoreCall) : s.Keeps (c.apply s) := by
  cases c with
  | reserveOrder now o => exact Store.keeps_reserveOrder now o s
  | updateOrder now o =>
    exact (Store.keeps_putOrder _ s).trans (Store.keeps_bindExchangeID _ _ _)
  | markOrderSent now id t => exact Store.keeps_amend id _ s
  | markOrderAck now id t => exact Store.keeps_amend id _ s
  | cancelOrder now id reason t => exact Store.keeps_amend id _ s
  | replaceOrderPrice now id price => exact Store.keeps_replaceOrderPrice now id price s
  | applyExternalFill now id fill event => exact Store.keeps_applyExternalFill now id fill event s
  | bindExchangeOrderID now id x => exact Store.keeps_bindExchangeOrderID now id x s
  | upsertOrder now o => exact Store.keeps_upsertOrder now o h
  | setPosition | setAccountState | appendReconciliationReport =>
    exact ⟨fun _ hid => hid, fun _ _ hk => hk⟩

theorem reservesNamed (h : s.ReservesNamed) {c : StoreCall} (hc : c.Named) :
    (c.apply s).ReservesNamed := by
  cases c with
  | reserveOrder now o => exact h.reserveOrder now (hc o rfl)
  | updateOrder now o => exact h.of_idempotency (Store.bindExchangeID_idempotency _ _ _)
  | markOrderSent now id t => exact h.amend id _
  | markOrderAck now id t => exact h.amend id _
  | cancelOrder now id reason t => exact h.amend id _
  | replaceOrderPrice now id price =>
    refine h.of_idempotency ?_
    simp only [apply, Store.replaceOrderPrice]
    split
    · rfl
    · split <;> rfl
  | applyExternalFill now id fill event =>
    refine h.of_idempotency ?_
    simp only [apply, Store.applyExternalFill]
    split <;> rfl
  | bindExchangeOrderID now id x =>
    refine h.of_idempotency ?_
    simp only [apply, Store.bindExchangeOrderID]
    split
    · rfl
    · exact Store.bindExchangeID_idempotency _ _ _
  | upsertOrder now o => exact h.upsertOrder now (hc o rfl)
  | setPosition | setAccountState | appendReconciliationReport => exact h

end StoreCall

/-! ## Every reached store -/

namespace Store.Reached

variable {P Q : StoreCall → Prop} {s : Store}

theorem mono (hPQ : ∀ c, P c → Q c) (h : Store.Reached P s) : Store.Reached Q s := by
  induction h with
  | new => exact .new
  | call _ hc ih => exact ih.call (hPQ _ hc)

theorem wellFormed (h : Store.Reached P s) : s.WellFormed := by
  induction h with
  | new => exact newStore_wellFormed
  | call _ _ ih => exact StoreCall.wellFormed ih _

theorem reservesNamed (h : Store.Reached StoreCall.Named s) : s.ReservesNamed := by
  induction h with
  | new => exact fun k id hk => by simp [newStore] at hk
  | call _ hc ih => exact StoreCall.reservesNamed ih hc

/-- Whatever calls led to the store, as long as orders were entered under
names: it is well formed, and no further call of any kind removes an order or
a reservation or gives a reservation to another order. -/
theorem integrity (h : Store.Reached StoreCall.Named s) :
    (∀ id o, s.orders.lookup id = some o → o.id = id) ∧
      (∀ k id, s.idempotency.lookup k = some id → id ∈ s.orders) ∧
      (∀ x id, s.exchangeIDs.lookup x = some id → id ∈ s.orders) ∧
      ∀ c : StoreCall, (∀ id ∈ s.orders, id ∈ (c.apply s).orders) ∧
        ∀ k id, s.idempotency.lookup k = some id →
          (c.apply s).idempotency.lookup k = some id :=
  ⟨h.wellFormed.stored, h.wellFormed.reserved, h.wellFormed.bound, fun c =>
    ⟨(c.keeps h.reservesNamed).orders, (c.keeps h.reservesNamed).reservations⟩⟩

/-- A reservation under the key `k`. -/
def reservation : StoreCall :=
  .reserveOrder 1 { id := "a", idempotencyKey := "k", symbol := "BTCUSDT", side := .buy, size := 1 }

theorem integrity_reservation :
    (∀ id o, (reservation.apply .newStore).orders.lookup id = some o → o.id = id) ∧
      (∀ k id, (reservation.apply .newStore).idempotency.lookup k = some id →
        id ∈ (reservation.apply .newStore).orders) ∧
      (∀ x id, (reservation.apply .newStore).exchangeIDs.lookup x = some id →
        id ∈ (reservation.apply .newStore).orders) ∧
      ∀ c : StoreCall, (∀ id ∈ (reservation.apply .newStore).orders,
          id ∈ (c.apply (reservation.apply .newStore)).orders) ∧
        ∀ k id, (reservation.apply .newStore).idempotency.lookup k = some id →
          (c.apply (reservation.apply .newStore)).idempotency.lookup k = some id :=
  integrity (.call .new (by
    intro order horder
    rw [← Option.some.inj horder]
    decide))

end Store.Reached

/-! ## The gateway issues such calls -/

section Gateway

variable {env : Env} {p p' : Plane} {o : Op} {r : Res o}

/-- A call of the gateway is a call of the store, or leaves it alone. -/
theorem sem_storeCall (h : sem env o p r p')
    (hreserves : ∀ order, o = .reserveOrder order → order.id ≠ "" ∧ order.idempotencyKey ≠ "") :
    p'.store = p.store ∨ ∃ c : StoreCall, c.Issued ∧ p'.store = c.apply p.store := by
  have hplain : ∀ c : StoreCall, c.enters = none → c.Issued := by
    intro c hc
    constructor
    · intro order horder
      rw [hc] at horder
      cases horder
    · rintro now order rfl
      cases hc
  cases o with
  | reserveOrder order =>
    obtain ⟨now, -, rfl⟩ := h
    obtain ⟨hid, hkey⟩ := hreserves order rfl
    refine Or.inr ⟨.reserveOrder now order, ⟨fun order' horder => ?_, ?_⟩, rfl⟩
    · rw [← Option.some.inj horder]
      exact hid
    · intro now' order' heq
      cases heq
      exact hkey
  | updateOrder order =>
    obtain ⟨now, -, rfl⟩ := h
    exact Or.inr ⟨.updateOrder now order, hplain _ rfl, rfl⟩
  | markOrderSent id t =>
    obtain ⟨now, -, rfl⟩ := h
    exact Or.inr ⟨.markOrderSent now id t, hplain _ rfl, rfl⟩
  | markOrderAck id t =>
    obtain ⟨now, -, rfl⟩ := h
    exact Or.inr ⟨.markOrderAck now id t, hplain _ rfl, rfl⟩
  | cancelOrder id reason t =>
    obtain ⟨now, -, rfl⟩ := h
    exact Or.inr ⟨.cancelOrder now id reason t, hplain _ rfl, rfl⟩
  | replaceOrderPrice id price =>
    obtain ⟨now, -, rfl⟩ := h
    exact Or.inr ⟨.replaceOrderPrice now id price, hplain _ rfl, rfl⟩
  | applyExternalFill id fill event =>
    obtain ⟨now, -, rfl⟩ := h
    exact Or.inr ⟨.applyExternalFill now id fill event, hplain _ rfl, rfl⟩
  | bindExchangeOrderID id x =>
    obtain ⟨now, -, rfl⟩ := h
    exact Or.inr ⟨.bindExchangeOrderID now id x, hplain _ rfl, rfl⟩
  | setAccountState account =>
    obtain ⟨now, -, rfl⟩ := h
    exact Or.inr ⟨.setAccountState account, hplain _ rfl, rfl⟩
  | _ => exact Or.inl (sem_reads h rfl)

end Gateway

/-- The call reserves no empty key. -/
def Op.Keyed (o : Op) : Prop := ∀ order, o = .reserveOrder order → order.idempotencyKey ≠ ""

theorem keyed_of_ne {o : Op} (h : ∀ order, o ≠ .reserveOrder order) : o.Keyed :=
  fun order heq => absurd heq (h order)

theorem keyed_block (o : Op) (h : o.isBlock = true) : o.Keyed := by
  refine keyed_of_ne fun order heq => ?_
  rw [heq] at h
  cases h

theorem keyed_sendReserved (started : Time) (reserved : Order) :
    (sendReserved started reserved).Only Op.Keyed := by
  have hcall : ∀ {o : Op}, (∀ order, o ≠ .reserveOrder order) → (call o).Only Op.Keyed :=
    fun h => only_call (keyed_of_ne h)
  refine (only_markSent keyed_block reserved).bind fun sent => ?_
  refine (hcall (by simp)).bind fun reply => (hcall (by simp)).bind fun finished => ?_
  cases reply with
  | error message =>
    exact (hcall (by simp)).bind fun _ => (hcall (by simp)).bind fun _ =>
      (hcall (by simp)).bind fun _ => only_pure _
  | ok steps =>
    exact (hcall (by simp)).bind fun _ => (only_stepwise keyed_block).applySteps sent steps sent

/-- `Submit` turns an empty key away before it reserves. -/
theorem keyed_submit (async : Bool) (req : ExecutionRequest) :
    (submit async req).Only Op.Keyed := by
  have hcall : ∀ {o : Op}, (∀ order, o ≠ .reserveOrder order) → (call o).Only Op.Keyed :=
    fun h => only_call (keyed_of_ne h)
  refine (hcall (by simp)).bind fun started => ?_
  dsimp only
  split
  · exact only_pure _
  · rename_i hkey
    refine (hcall (by simp)).bind fun decision => ?_
    split
    · refine (hcall (by simp)).bind fun opened =>
        ((only_sequenced keyed_block).cancelSelfTrades _ _ _).bind fun _ =>
        (hcall (by simp)).bind fun id => (hcall (by simp)).bind fun sendAt => ?_
      refine (only_call fun order heq => ?_).bind fun r => ?_
      · cases heq
        rw [requestOrder, scaledRequest_idempotencyKey]
        exact hkey
      · obtain ⟨reserved, duplicate, err⟩ := r
        dsimp only
        split
        · exact only_pure _
        · split
          · exact only_pure _
          · exact only_pure _
          · exact keyed_sendReserved _ _
          · exact keyed_sendReserved _ _
    · exact (hcall (by simp)).bind fun _ => (hcall (by simp)).bind fun _ => only_pure _

theorem keyed_code (env : Env) (j : Job) : (code env j).Only Op.Keyed := by
  have hmade := only_made keyed_block
  cases j with
  | submit req => exact keyed_submit _ _
  | cancel orderID reason => exact hmade.cancel _ _ _
  | replace orderID newPrice => exact hmade.replace _ _ _
  | switchStrategy orderID strategy price reason => exact hmade.switchStrategy _ _ _ _ _
  | applyAsyncUpdate update => exact hmade.toStepwise.applyStep update
  | streamHandler update => exact hmade.toStepwise.streamHandler update
  | executionEvent | marketEvent | killSwitch =>
    exact (only_call (keyed_of_ne (by simp))).bind fun _ => only_pure _

/-- In every run of the control plane the store is one that such calls lead to. -/
theorem reached_run {env : Env} {p₀ : Plane} {tr : List PlaneEntry} {c : PlaneConfig}
    (h₀ : p₀.store.Reached StoreCall.Issued) (hrun : PlaneRun env p₀ tr c) :
    c.shared.store.Reached StoreCall.Issued := by
  have hgateway := gatewayInvariant env h₀.wellFormed
  -- besides: the ids a call was given are not empty
  have hinv : (discipline env).Invariant p₀ fun tr gs p =>
      (GatewayInv tr gs p ∧ ∀ e ∈ tr, e.tid < gs.length) ∧
        (∀ (i : Nat) g, gs[i]? = some g → ∀ id ∈ g.minted, id ≠ "") ∧
        ((∀ e ∈ tr, e.event.1.Keyed) → p.store.Reached StoreCall.Issued) := by
    refine ⟨⟨hgateway.init, by simp, fun _ => h₀⟩, ?_, ?_⟩
    · rintro tr gs p j ⟨hP, hminted, hreached⟩
      refine ⟨hgateway.start tr gs p j hP, fun i g hi => ?_, hreached⟩
      rcases getElem?_concat_cases hi with ⟨-, rfl⟩ | hi
      · simp [discipline]
      · exact hminted i g hi
    · rintro tr gs p i g o r p' ⟨hP, hminted, hreached⟩ hg hallowed hsem
      obtain ⟨hreturns, hP'⟩ := hgateway.step _ _ _ _ _ _ _ _ hP hg hallowed hsem
      refine ⟨hreturns, hP', fun j gj hj id hid => ?_, fun hkeyed => ?_⟩
      · rcases getElem?_set_cases hj with ⟨rfl, rfl⟩ | ⟨-, hj⟩
        · rcases minted_next hsem hid with hid | ⟨-, -, -, hnamed⟩
          · exact hminted _ g hg id hid
          · exact hnamed
        · exact hminted j gj hj id hid
      · have hbefore := hreached fun e he => hkeyed e (List.mem_append_left _ he)
        have hreserves : ∀ order, o = .reserveOrder order →
            order.id ≠ "" ∧ order.idempotencyKey ≠ "" := by
          rintro order rfl
          refine ⟨hminted i g hg order.id hallowed.2.1, ?_⟩
          exact hkeyed ⟨i, p, ⟨_, r⟩, p'⟩ (List.mem_append_right _ (List.mem_singleton_self _))
            order rfl
        rcases sem_storeCall hsem hreserves with heq | ⟨call, hcall, heq⟩
        · rwa [heq]
        · rw [heq]
          exact hbefore.call hcall
  obtain ⟨gs, ⟨-, -, hreached⟩, -⟩ := Discipline.rely_guarantee hinv hrun
  exact hreached (hrun.only (keyed_code env)).1

end RealTimeTrading.ControlPlane
