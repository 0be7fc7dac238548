/-
RealTimeTrading.ControlPlane.StoreTheorems — what each store method does
to the maps of the store, and the referential integrity they keep.

`WellFormed` is the invariant: an order is stored under its own id, and
the two index maps only point at stored orders. Every method keeps it,
`UpdateOrder` and `UpsertOrder` for any order at all.
-/
import RealTimeTrading.ControlPlane.Store
import RealTimeTrading.Data.Tally

namespace RealTimeTrading.ControlPlane

/-! ## Maps -/

theorem GoMap.lookup_insert_ite {K V : Type} [DecidableEq K] (m : GoMap K V) (k x : K) (v : V) :
    (m.insert k v).lookup x = if x = k then some v else m.lookup x := by
  by_cases h : x = k
  · subst h; simp
  · rw [if_neg h, AList.lookup_insert_ne h]

theorem GoMap.mem_iff_lookup {K V : Type} [DecidableEq K] (m : GoMap K V) (k : K) :
    k ∈ m ↔ ∃ v, m.lookup k = some v := by
  rw [← AList.lookup_isSome, Option.isSome_iff_exists]

theorem GoMap.lookup_none_of_notMem {K V : Type} [DecidableEq K] {m : GoMap K V} {k : K}
    (h : k ∉ m) : m.lookup k = none := AList.lookup_eq_none.mpr h

namespace Store

/-! ## The two writing steps -/

section Frames

variable (o : Order) (s : Store)

theorem lookup_putOrder (x : OrderID) :
    (s.putOrder o).orders.lookup x = if x = o.id then some o else s.orders.lookup x :=
  GoMap.lookup_insert_ite _ _ _ _

@[simp] theorem putOrder_idempotency : (s.putOrder o).idempotency = s.idempotency := rfl
@[simp] theorem putOrder_exchangeIDs : (s.putOrder o).exchangeIDs = s.exchangeIDs := rfl
@[simp] theorem putOrder_positions : (s.putOrder o).positions = s.positions := rfl
@[simp] theorem putOrder_ledger : (s.putOrder o).ledger = s.ledger := rfl
@[simp] theorem putOrder_executions : (s.putOrder o).executions = s.executions := rfl
variable (x : String) (id : OrderID)

@[simp] theorem bindExchangeID_orders : (s.bindExchangeID x id).orders = s.orders := by
  unfold bindExchangeID; split <;> rfl

@[simp] theorem bindExchangeID_idempotency :
    (s.bindExchangeID x id).idempotency = s.idempotency := by
  unfold bindExchangeID; split <;> rfl

@[simp] theorem bindExchangeID_positions : (s.bindExchangeID x id).positions = s.positions := by
  unfold bindExchangeID; split <;> rfl

@[simp] theorem bindExchangeID_ledger : (s.bindExchangeID x id).ledger = s.ledger := by
  unfold bindExchangeID; split <;> rfl

@[simp] theorem bindExchangeID_executions :
    (s.bindExchangeID x id).executions = s.executions := by
  unfold bindExchangeID; split <;> rfl

theorem lookup_bindExchangeID {y : String} {i : OrderID}
    (h : (s.bindExchangeID x id).exchangeIDs.lookup y = some i) :
    i = id ∨ s.exchangeIDs.lookup y = some i := by
  unfold bindExchangeID at h
  split at h
  · rw [GoMap.lookup_insert_ite] at h
    split at h
    · exact Or.inl (Option.some.inj h).symm
    · exact Or.inr h
  · exact Or.inr h

end Frames

/-! ## Referential integrity -/

/-- Orders are stored under their own ids, and reservations and exchange ids
point at stored orders. -/
structure WellFormed (s : Store) : Prop where
  stored : ∀ id o, s.orders.lookup id = some o → o.id = id
  reserved : ∀ k id, s.idempotency.lookup k = some id → id ∈ s.orders
  bound : ∀ x id, s.exchangeIDs.lookup x = some id → id ∈ s.orders

theorem newStore_wellFormed : newStore.WellFormed := by
  constructor
  · intro id o h; simp [newStore] at h
  · intro k id h; simp [newStore] at h
  · intro x id h; simp [newStore] at h

namespace WellFormed

variable {s : Store}

theorem putOrder (h : s.WellFormed) (o : Order) : (s.putOrder o).WellFormed where
  stored id o' ho' := by
    rw [lookup_putOrder] at ho'
    split at ho'
    · rename_i hid; rw [← Option.some.inj ho', hid]
    · exact h.stored id o' ho'
  reserved k id hk := (AList.mem_insert _).mpr (Or.inr (h.reserved k id hk))
  bound x id hx := (AList.mem_insert _).mpr (Or.inr (h.bound x id hx))

theorem bindExchangeID (h : s.WellFormed) (x : String) {id : OrderID} (hid : id ∈ s.orders) :
    (s.bindExchangeID x id).WellFormed where
  stored := by simpa using h.stored
  reserved := by simpa using h.reserved
  bound := by
    intro y i hy
    rw [bindExchangeID_orders]
    rcases lookup_bindExchangeID s x id hy with rfl | hy
    · exact hid
    · exact h.bound y i hy

theorem reserveKey (h : s.WellFormed) (k : String) {id : OrderID} (hid : id ∈ s.orders) :
    (s.reserveKey k id).WellFormed where
  stored := h.stored
  reserved := by
    intro k' i hk'
    simp only [Store.reserveKey] at hk' ⊢
    rw [GoMap.lookup_insert_ite] at hk'
    split at hk'
    · rw [← Option.some.inj hk']; exact hid
    · exact h.reserved k' i hk'
  bound := h.bound

theorem mem_putOrder (o : Order) (s : Store) : o.id ∈ (s.putOrder o).orders :=
  (AList.mem_insert _).mpr (Or.inl rfl)

theorem amend (h : s.WellFormed) (id : OrderID) (f : Order → Order) :
    (s.amend id f).2.WellFormed := by
  unfold Store.amend
  split
  · exact h
  · exact h.putOrder _

theorem reserveOrder (h : s.WellFormed) (now : Time) (o : Order) :
    (s.reserveOrder now o).2.WellFormed := by
  unfold Store.reserveOrder
  split
  · exact h
  · have hid : o.id ∈ (s.putOrder (reservedOrder now o)).orders := mem_putOrder _ _
    exact ((h.putOrder _).reserveKey _ hid).bindExchangeID _ hid

theorem updateOrder (h : s.WellFormed) (now : Time) (o : Order) :
    (s.updateOrder now o).WellFormed :=
  (h.putOrder _).bindExchangeID _ (mem_putOrder (updatedOrder now o) s)

theorem replaceOrderPrice (h : s.WellFormed) (now : Time) (id : OrderID) (price : Option ℚ) :
    (s.replaceOrderPrice now id price).2.WellFormed := by
  unfold Store.replaceOrderPrice
  split
  · exact h
  · split
    · exact h
    · exact h.putOrder _

theorem applyExternalFill (h : s.WellFormed) (now : Time) (id : OrderID) (fill : FillLedgerEntry)
    (event : ExecutionEvent) : (s.applyExternalFill now id fill event).2.WellFormed := by
  unfold Store.applyExternalFill
  split
  · exact h
  · have hput := h.putOrder (fillOrder now fill event ‹Order›)
    exact ⟨hput.stored, hput.reserved, hput.bound⟩

theorem bindExchangeOrderID (h : s.WellFormed) (now : Time) (id : OrderID) (x : String) :
    (s.bindExchangeOrderID now id x).2.WellFormed := by
  unfold Store.bindExchangeOrderID
  split
  · exact h
  · rename_i o _
    exact (h.putOrder _).bindExchangeID x (mem_putOrder (boundOrder now x o) s)

theorem upsertOrder (h : s.WellFormed) (now : Time) (o : Order) :
    (s.upsertOrder now o).WellFormed := by
  have hid := mem_putOrder (upsertedOrder now s o) s
  unfold Store.upsertOrder
  dsimp only
  split
  · exact ((h.putOrder _).reserveKey _ hid).bindExchangeID _ hid
  · exact (h.putOrder _).bindExchangeID _ hid

theorem setPosition (h : s.WellFormed) (p : Position) : (s.setPosition p).WellFormed :=
  ⟨h.stored, h.reserved, h.bound⟩

theorem setAccountState (h : s.WellFormed) (a : AccountState) :
    (s.setAccountState a).WellFormed := ⟨h.stored, h.reserved, h.bound⟩

end WellFormed

/-! ## Quantities per order -/

/-- The quantity the ledger holds for an order id. -/
def qtyOf (x : String) (ledger : List FillLedgerEntry) : ℚ :=
  (ledger.map fun f => if f.orderID = x then f.quantity else 0).sum

@[simp] theorem qtyOf_nil (x : String) : qtyOf x [] = 0 := rfl

@[simp] theorem qtyOf_cons (x : String) (f : FillLedgerEntry) (ledger : List FillLedgerEntry) :
    qtyOf x (f :: ledger) = (if f.orderID = x then f.quantity else 0) + qtyOf x ledger := rfl

@[simp] theorem qtyOf_append (x : String) (l l' : List FillLedgerEntry) :
    qtyOf x (l ++ l') = qtyOf x l + qtyOf x l' := Data.totalOf_append x l l'

/-- The map the reconciliation check builds holds just these quantities. -/
theorem lookup_ledgerQtyByOrder (s : Store) (x : String) :
    (s.ledgerQtyByOrder.lookup x).getD 0 = qtyOf x s.ledger := Data.lookup_tally s.ledger x

end Store

end RealTimeTrading.ControlPlane
