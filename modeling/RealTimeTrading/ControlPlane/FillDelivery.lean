/-
RealTimeTrading.ControlPlane.FillDelivery — what delivering exchange
updates one after another does to fills.

`FillView` is the part of a store fills act on. Delivering an update for
an order takes the view to `FillView.deliver`, a function of the view and
the update: neither the clock nor what else the store holds has a say.
-/
import RealTimeTrading.Concurrency.Sequential
import RealTimeTrading.ControlPlane.PlaneTheorems
import Mathlib.Logic.Function.Basic
import Mathlib.Data.Finset.Basic
import Mathlib.Data.Fintype.EquivFin

namespace RealTimeTrading.ControlPlane

open RealTimeTrading.Concurrency

/-! ## Updates -/

/-- The fill a step carries: `applyStep` looks at it in a PARTIAL or FILLED
step that has both records. -/
def ExchangeStep.fill (step : ExchangeStep) : Option FillLedgerEntry :=
  match step.status with
  | .partially | .filled =>
    match step.ledger, step.execution with
    | some ledger, some _ => some ledger
    | _, _ => none
  | _ => none

/-! ## The view -/

structure FillState where
  ident : OrderIdent
  exchangeOrderID : String
  filled : ℚ
  weightedAvgFillPrice : ℚ

def Order.fillState (o : Order) : FillState :=
  ⟨o.ident, o.exchangeOrderID, o.filled, o.weightedAvgFillPrice⟩

structure FillView where
  orders : OrderID → Option FillState
  positions : Symbol → ℚ × ℚ
  ledger : List FillLedgerEntry
  idempotency : String → Option OrderID
  exchangeIDs : String → Option OrderID

def Store.fillView (s : Store) : FillView where
  orders x := (s.orders.lookup x).map Order.fillState
  positions symbol := ((s.position symbol).size, (s.position symbol).avgPrice)
  ledger := s.ledger
  idempotency k := s.idempotency.lookup k
  exchangeIDs x := s.exchangeIDs.lookup x

namespace FillState

def fill (f : FillLedgerEntry) (o : FillState) : FillState :=
  { o with
    filled := o.filled + f.quantity
    weightedAvgFillPrice :=
      if 0 < o.filled + f.quantity then
        (o.weightedAvgFillPrice * o.filled + f.price * f.quantity) / (o.filled + f.quantity)
      else o.weightedAvgFillPrice }

end FillState

namespace FillView

/-- Size and average price after a fill on this side. -/
def positionAfter (side : Side) (f : FillLedgerEntry) (pos : ℚ × ℚ) : ℚ × ℚ :=
  let after := Store.fillPosition 0 "" side f { size := pos.1, avgPrice := pos.2 }
  (after.size, after.avgPrice)

/-- An order bound to an exchange id. -/
def bind (id : OrderID) (x : String) (v : FillView) : FillView :=
  { v with
    orders := Function.update v.orders id
      ((v.orders id).map fun o => { o with exchangeOrderID := x })
    exchangeIDs := if x ≠ "" then Function.update v.exchangeIDs x (some id) else v.exchangeIDs }

def applyFill (f : FillLedgerEntry) (id : OrderID) (v : FillView) : FillView :=
  match v.orders id with
  | none => v
  | some o =>
    { v with
      orders := Function.update v.orders id (some (o.fill f))
      positions := Function.update v.positions o.ident.symbol
        (positionAfter o.ident.side f (v.positions o.ident.symbol))
      ledger := v.ledger ++ [f] }

/-- `UpdateOrder` binds the order's exchange id once more. -/
def rebind (id : OrderID) (v : FillView) : FillView :=
  match v.orders id with
  | some o => if o.exchangeOrderID ≠ "" then
      { v with exchangeIDs := Function.update v.exchangeIDs o.exchangeOrderID (some id) } else v
  | none => v

/-- The order id an update names, by its own or by its idempotency key. -/
def named (u : AsyncExchangeUpdate) (v : FillView) : OrderID :=
  if u.orderID = "" ∧ u.idempotencyKey ≠ "" then
    (((v.idempotency u.idempotencyKey).bind v.orders).map (·.ident.id)).getD u.orderID
  else u.orderID

/-- The exchange id of the update is asked when nothing was named. -/
def orBound (u : AsyncExchangeUpdate) (id : OrderID) (v : FillView) : OrderID :=
  if id = "" ∧ u.exchangeOrderID ≠ "" then
    (((v.exchangeIDs u.exchangeOrderID).bind v.orders).map (·.ident.id)).getD id
  else id

/-- The order id `applyStep` works on. -/
def reference (u : AsyncExchangeUpdate) (v : FillView) : OrderID := v.orBound u (v.named u)

/-- The effect of a step's status on the order `id`. -/
def status (id : OrderID) (step : ExchangeStep) (v : FillView) : FillView :=
  match step.fill with
  | some f => v.applyFill f ((v.exchangeIDs id).getD id)
  | none => if step.status = .rejected then v.rebind id else v

/-- The effect of an update that refers to the order `id`. -/
def deliver (id : OrderID) (u : AsyncExchangeUpdate) (v : FillView) : FillView :=
  (if u.exchangeOrderID ≠ "" then v.bind id u.exchangeOrderID else v).status id u.step

end FillView

/-! ## The view of each writing step -/

section View

variable {s : Store}

theorem fillView_putOrder (w : Order) (s : Store) :
    (s.putOrder w).fillView =
      { s.fillView with orders := Function.update s.fillView.orders w.id (some w.fillState) } := by
  simp only [Store.fillView, FillView.mk.injEq, Store.position, Store.putOrder_positions,
    Store.putOrder_idempotency, Store.putOrder_exchangeIDs, Store.putOrder_ledger, and_true]
  funext x
  rw [Store.lookup_putOrder, Function.update_apply]
  split <;> rfl

/-- Writing an order whose fills are those of the stored one changes nothing. -/
theorem fillView_putOrder_same {w old : Order} (hold : s.orders.lookup w.id = some old)
    (hsame : w.fillState = old.fillState) : (s.putOrder w).fillView = s.fillView := by
  rw [fillView_putOrder]
  have horders : Function.update s.fillView.orders w.id (some w.fillState) = s.fillView.orders := by
    apply Function.update_eq_self_iff.mpr
    simp only [Store.fillView, hold, hsame, Option.map_some]
  rw [horders]

theorem fillView_bindExchangeID (x : String) (id : OrderID) (s : Store) :
    (s.bindExchangeID x id).fillView =
      { s.fillView with
        exchangeIDs := if x ≠ "" then Function.update s.fillView.exchangeIDs x (some id)
          else s.fillView.exchangeIDs } := by
  unfold Store.bindExchangeID
  split
  · simp only [Store.fillView, FillView.mk.injEq, Store.position, true_and]
    funext y
    rw [GoMap.lookup_insert_ite, Function.update_apply]
  · rfl

theorem fillView_amend (hwf : s.WellFormed) (id : OrderID) (f : Order → Order)
    (hf : ∀ o, (f o).fillState = o.fillState) : (s.amend id f).2.fillView = s.fillView := by
  unfold Store.amend
  split
  · rfl
  · rename_i o ho
    have hid : (f o).id = o.id := Order.id_eq_of_ident (congrArg FillState.ident (hf o))
    have hold : s.orders.lookup (f o).id = some o := by rw [hid, hwf.stored id o ho, ho]
    exact fillView_putOrder_same hold (hf o)

theorem fillView_bindExchangeOrderID (hwf : s.WellFormed) (now : Time) (id : OrderID) {x : String}
    (hx : x ≠ "") (hid : id ∈ s.orders) :
    (s.bindExchangeOrderID now id x).2.fillView = s.fillView.bind id x := by
  obtain ⟨o, ho⟩ := (GoMap.mem_iff_lookup _ _).mp hid
  have hoid := hwf.stored id o ho
  have hview : s.fillView.orders id = some o.fillState := by
    simp only [Store.fillView, ho, Option.map_some]
  simp only [Store.bindExchangeOrderID, ho]
  rw [fillView_bindExchangeID, fillView_putOrder, FillView.bind, hview, hoid]
  simp only [hx, ne_eq, not_false_eq_true, if_true, FillView.mk.injEq, and_true]
  rw [show (Store.boundOrder now x o).id = id from hoid]
  rfl

theorem fillView_updateOrder_same (copy : Order) {old : Order} (now : Time)
    (hold : s.orders.lookup copy.id = some old) (hsame : copy.fillState = old.fillState) :
    (s.updateOrder now copy).fillView = s.fillView.rebind copy.id := by
  have hview : s.fillView.orders copy.id = some old.fillState := by
    simp only [Store.fillView, hold, Option.map_some]
  have hx : copy.exchangeOrderID = old.exchangeOrderID := congrArg FillState.exchangeOrderID hsame
  have hput : (s.putOrder (Store.updatedOrder now copy)).fillView = s.fillView :=
    fillView_putOrder_same (w := Store.updatedOrder now copy) hold hsame
  rw [Store.updateOrder, fillView_bindExchangeID, hput, FillView.rebind, hview]
  by_cases hempty : old.exchangeOrderID = "" <;> simp [Order.fillState, hx, hempty]

/-- Size and average price after a fill depend on size and average price alone. -/
theorem fillPosition_view (now : Time) (symbol : Symbol) (side : Side) (f : FillLedgerEntry)
    (pos : Position) :
    ((Store.fillPosition now symbol side f pos).size,
      (Store.fillPosition now symbol side f pos).avgPrice) =
      FillView.positionAfter side f (pos.size, pos.avgPrice) := by
  simp only [FillView.positionAfter, Store.fillPosition]
  generalize (if side = .sell then -f.quantity else f.quantity) = signed
  by_cases hflat : |pos.size + signed| < 1e-12
  · simp only [if_pos hflat]
  · by_cases hadds : pos.size = 0 ∨ sign pos.size = sign signed
    · simp only [if_neg hflat, if_pos hadds]
    · simp only [if_neg hflat, if_neg hadds]

theorem fillView_applyExternalFill (hwf : s.WellFormed) (now : Time) (id : OrderID)
    (f : FillLedgerEntry) (event : ExecutionEvent) :
    (s.applyExternalFill now id f event).2.fillView = s.fillView.applyFill f (s.resolve id) := by
  unfold Store.applyExternalFill FillView.applyFill
  cases ho : s.orders.lookup (s.resolve id) with
  | none => simp only [Store.fillView, ho, Option.map_none]
  | some o =>
    have hoid : (Store.fillOrder now f event o).id = s.resolve id := hwf.stored _ o ho
    have hview : s.fillView.orders (s.resolve id) = some o.fillState := by
      simp only [Store.fillView, ho, Option.map_some]
    simp only [hview]
    have hput := fillView_putOrder (Store.fillOrder now f event o) s
    simp only [Store.fillView, FillView.mk.injEq] at hput ⊢
    refine ⟨?_, ?_, trivial, rfl, rfl⟩
    · rw [hput.1, hoid]
      rfl
    · funext symbol
      rw [Function.update_apply, show o.fillState.ident.symbol = o.symbol from rfl]
      simp only [Store.position, GoMap.lookup_insert_ite]
      by_cases hs : symbol = o.symbol
      · subst hs
        rw [if_pos rfl, if_pos rfl]
        exact fillPosition_view _ _ _ _ _
      · rw [if_neg hs, if_neg hs]

theorem fillView_orderByIdempotency (s : Store) (key : String) :
    (s.orderByIdempotency key).map (·.id) =
      ((s.fillView.idempotency key).bind s.fillView.orders).map (·.ident.id) := by
  rw [Store.orderByIdempotency, Option.map_bind, Option.map_bind]
  congr 1
  funext x
  simp only [Store.fillView, Function.comp_apply, Option.map_map]
  rfl

theorem fillView_orderByExchangeID (s : Store) (x : String) :
    (s.orderByExchangeID x).map (·.id) =
      ((s.fillView.exchangeIDs x).bind s.fillView.orders).map (·.ident.id) := by
  rw [Store.orderByExchangeID, Option.map_bind, Option.map_bind]
  congr 1
  funext x
  simp only [Store.fillView, Function.comp_apply, Option.map_map]
  rfl

end View

/-! ## Executing the programs -/

section Exec

variable {env : Env} {p p' : Plane}

theorem sem_total (env : Env) (o : Op) (p : Plane) : ∃ r p', sem env o p r p' := by
  cases o with
  | now => exact ⟨(0 : Time), p, rfl⟩
  | ctxErr => exact ⟨none, p, rfl⟩
  | newID =>
    have hinf : Infinite String := Infinite.of_injective
      (fun n : Nat => String.ofList (.replicate n 'x'))
      fun a b h => by simpa using congrArg String.length h
    obtain ⟨id, hid⟩ := Infinite.exists_notMem_finset
      (insert "" (p.issued.toFinset ∪ p.store.orders.keys.toFinset ∪
        p.store.exchangeIDs.keys.toFinset))
    simp only [Finset.mem_insert, Finset.mem_union, List.mem_toFinset, not_or] at hid
    exact ⟨id, _, ⟨hid.1, hid.2.1.1, hid.2.1.2, hid.2.2⟩, rfl⟩
  | evaluate req => exact ⟨_, _, 0, 0, rfl, rfl⟩
  | observeMarket event => exact ⟨(), _, 0, rfl⟩
  | observeExecution | observeExecutionEvent | setKillSwitch => exact ⟨(), _, rfl⟩
  | openOrdersBySymbol symbol => exact ⟨_, p, .refl _, rfl⟩
  | order | orderByIdempotency | orderByExchangeID => exact ⟨_, p, rfl, rfl⟩
  | sendOrder order =>
    obtain ⟨steps, h⟩ := env.exchange.answers order
    exact ⟨steps, p, h, rfl⟩
  | cancelRemote | replaceRemote => exact ⟨none, p, rfl⟩
  | getAccountState => exact ⟨.error "", p, rfl⟩
  | emit update => exact ⟨(), p, Or.inl rfl⟩
  | _ => exact ⟨_, _, 0, rfl, rfl⟩

theorem exec_wellFormed {α : Type} {prog : Gw α} {a : α} (h : Exec (sem env) prog p a p')
    (hp : p.store.WellFormed) : p'.store.WellFormed := by
  induction prog generalizing p with
  | ret b => obtain ⟨-, rfl⟩ := h; exact hp
  | call o k ih =>
    obtain ⟨r, t, hs, hk⟩ := h
    exact ih r hk (sem_wellFormed hs hp)

/-- The program leaves the store as it finds it. -/
def Reads {α : Type} (env : Env) (prog : Gw α) : Prop :=
  ∀ p a p', Exec (sem env) prog p a p' → p'.store = p.store

namespace Reads

variable {α β : Type}

theorem pure (a : α) : Reads env (Pure.pure a) := by
  rintro p b p' ⟨-, rfl⟩
  rfl

theorem bind {prog : Gw α} {f : α → Gw β} (hp : Reads env prog) (hf : ∀ a, Reads env (f a)) :
    Reads env (prog >>= f) := by
  intro p b p' h
  obtain ⟨a, t, ha, hb⟩ := (exec_bind _ _ _).mp h
  rw [hf a _ _ _ hb, hp _ _ _ ha]

end Reads

theorem reads_call {o : Op} (ho : o.writesStore = false) : Reads env (call o) := by
  rintro p r p' ⟨_, t, hs, rfl, rfl⟩
  exact sem_reads hs ho

theorem reads_currentOrder (id : OrderID) : Reads env (currentOrder id) :=
  (reads_call rfl).bind fun found => by cases found <;> exact .pure _

theorem reads_emitOrder (updated : Order) : Reads env (emitOrder updated) :=
  (reads_call rfl).bind fun _ => reads_call rfl

theorem reads_announceOrLookup (id : OrderID) (result : Order × Option Err) :
    Reads env (announceOrLookup id result) := by
  obtain ⟨updated, _ | err⟩ := result
  · exact (reads_emitOrder updated).bind fun _ => .pure _
  · exact reads_currentOrder id

theorem exec_resolveReference {u : AsyncExchangeUpdate} {id : OrderID}
    (h : Exec (sem env) (resolveReference u) p id p') :
    id = p.store.fillView.reference u ∧ p'.store = p.store := by
  have tail : ∀ {q : Plane} {x y : OrderID},
      Exec (sem env) (if x = "" ∧ u.exchangeOrderID ≠ "" then do
        let existing ← call (.orderByExchangeID u.exchangeOrderID)
        pure ((existing.map (·.id)).getD x)
      else pure x) q y p' → y = q.store.fillView.orBound u x ∧ p'.store = q.store := by
    intro q x y h
    unfold FillView.orBound
    split at h
    · obtain ⟨found, t, ⟨rfl, rfl⟩, rfl, rfl⟩ := h
      rw [if_pos ‹_›, ← fillView_orderByExchangeID]
      exact ⟨rfl, rfl⟩
    · obtain ⟨rfl, rfl⟩ := h
      rw [if_neg ‹_›]
      exact ⟨rfl, rfl⟩
  unfold resolveReference at h
  dsimp only at h
  unfold FillView.reference FillView.named
  split at h
  · obtain ⟨found, t, ⟨rfl, rfl⟩, h⟩ := h
    rw [if_pos ‹_›, ← fillView_orderByIdempotency]
    exact tail h
  · rw [if_neg ‹_›]
    exact tail h

theorem exec_applyFill (hwf : p.store.WellFormed) {id : OrderID} {f : FillLedgerEntry}
    {event : ExecutionEvent} {a : Order × Option Err}
    (h : Exec (sem env) (applyFill id f event) p a p') :
    p'.store.fillView = p.store.fillView.applyFill f (p.store.resolve id) := by
  obtain ⟨r, t, ⟨now, -, rfl⟩, h⟩ := h
  have hview := fillView_applyExternalFill hwf now id f event
  obtain ⟨updated, position, _ | err⟩ := r
  · have hreads : Reads env (do
        call (.observeExecutionEvent event)
        call (.emit (.fillLedgerEntry f))
        call (.emit (.executionEvent event))
        call (.emit (.executionUpdate (executionUpdate updated (some f) (some event)
          (some position))))
        call (.emit (.positionUpdate position))
        call (.emit (.orderUpdate updated))
        pure (updated, (none : Option Err)) : Gw (Order × Option Err)) :=
      (reads_call rfl).bind fun _ => (reads_call rfl).bind fun _ =>
        (reads_call rfl).bind fun _ => (reads_call rfl).bind fun _ =>
        (reads_call rfl).bind fun _ => (reads_call rfl).bind fun _ => .pure _
    rw [hreads _ _ _ h, hview]
  · obtain ⟨-, rfl⟩ := h
    exact hview

theorem exec_applyReject (hwf : p.store.WellFormed) {id : OrderID} {reason : String}
    {a : Order × Option Err} (h : Exec (sem env) (applyReject id reason) p a p') :
    p'.store.fillView = p.store.fillView.rebind id := by
  obtain ⟨found, t, ⟨hfound, rfl⟩, h⟩ := h
  cases hs : t.store.orders.lookup id with
  | none =>
    obtain rfl : found = none := hfound.trans hs
    obtain ⟨-, rfl⟩ := h
    simp only [FillView.rebind, Store.fillView, hs, Option.map_none]
  | some o =>
    obtain rfl : found = some o := hfound.trans hs
    obtain ⟨_, q, ⟨now, -, rfl⟩, _, q', hemit, -, rfl⟩ := h
    obtain rfl := hwf.stored id o hs
    rw [sem_reads hemit rfl]
    exact fillView_updateOrder_same { o with status := .rejected, rejectReason := reason } now hs
      rfl

theorem exec_applyStatus (hwf : p.store.WellFormed) {id : OrderID} {step : ExchangeStep}
    {a : Order × Option Err} (h : Exec (sem env) (applyStatus id step) p a p') :
    p'.store.fillView = p.store.fillView.status id step := by
  have hfill : ∀ status, step.status = status → (status = .partially ∨ status = .filled) →
      Exec (sem env) (match step.ledger, step.execution with
        | some ledger, some execution => applyFill id ledger execution
        | _, _ => pure (default, none)) p a p' →
      p'.store.fillView = p.store.fillView.status id step := by
    intro status hstatus hcase h
    unfold FillView.status ExchangeStep.fill
    rw [hstatus]
    split at h
    · rcases hcase with rfl | rfl <;> exact exec_applyFill hwf h
    · obtain ⟨-, rfl⟩ := h
      rcases hcase with rfl | rfl <;> simp
  unfold applyStatus at h
  split at h
  · rename_i hstatus
    obtain ⟨r, t, ⟨now, -, rfl⟩, h⟩ := h
    rw [reads_announceOrLookup id r _ _ _ h]
    have hview := fillView_amend hwf id (Store.ackedOrder now step.occurredAt) fun _ => rfl
    simp only [FillView.status, ExchangeStep.fill, hstatus]
    exact hview
  · exact hfill .partially ‹_› (Or.inl rfl) h
  · exact hfill .filled ‹_› (Or.inr rfl) h
  · rename_i hstatus
    obtain ⟨r, t, ⟨now, -, rfl⟩, h⟩ := h
    rw [reads_announceOrLookup id r _ _ _ h]
    have hview := fillView_amend hwf id (Store.canceledOrder now step.cancelReason step.occurredAt)
      fun _ => rfl
    simp only [FillView.status, ExchangeStep.fill, hstatus]
    exact hview
  · rename_i hstatus
    simp only [FillView.status, ExchangeStep.fill, hstatus, if_true]
    exact exec_applyReject hwf h
  all_goals
    rename_i hstatus
    simp only [FillView.status, ExchangeStep.fill, hstatus]
    rw [reads_currentOrder id _ _ _ h]
    rfl

theorem sem_bindExchangeOrderID (hwf : p.store.WellFormed) {id : OrderID} {x : String} (hx : x ≠ "")
    (hid : id ∈ p.store.orders) {r : Order × Option Err}
    (h : sem env (.bindExchangeOrderID id x) p r p') :
    r.2 = none ∧ p'.store.fillView = p.store.fillView.bind id x := by
  obtain ⟨now, rfl, rfl⟩ := h
  refine ⟨?_, fillView_bindExchangeOrderID hwf now id hx hid⟩
  obtain ⟨o, ho⟩ := (GoMap.mem_iff_lookup _ _).mp hid
  simp only [Store.bindExchangeOrderID, ho]

/-- An update that refers to a stored order takes the view where `deliver` says. -/
theorem exec_applyAsyncUpdate (hwf : p.store.WellFormed) {u : AsyncExchangeUpdate} {id : OrderID}
    (href : p.store.fillView.reference u = id) (hne : id ≠ "") (hid : id ∈ p.store.orders)
    {a : Order × Option Err} (h : Exec (sem env) (applyAsyncUpdate u) p a p') :
    p'.store.fillView = p.store.fillView.deliver id u := by
  obtain ⟨x, t, hx, h⟩ := (exec_bind _ _ _).mp h
  obtain ⟨rfl, hstore⟩ := exec_resolveReference hx
  rw [href, if_neg hne] at h
  rw [← hstore] at hwf hid ⊢
  unfold FillView.deliver
  split at h
  · rename_i hex
    rw [if_pos hex]
    obtain ⟨r, q, hbind, h⟩ := h
    have hq := sem_wellFormed hbind hwf
    obtain ⟨hr, hview⟩ := sem_bindExchangeOrderID hwf hex hid hbind
    obtain ⟨bound, err⟩ := r
    obtain rfl : err = none := hr
    rw [← hview]
    exact exec_applyStatus hq h
  · rw [if_neg ‹_›]
    exact exec_applyStatus hwf h

end Exec

end RealTimeTrading.ControlPlane
