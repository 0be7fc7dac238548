/-
RealTimeTrading.ControlPlane.Programs — what the programs of the gateway
are made of.

A class of programs that is closed under sequencing (`Sequenced`) and has
the blocks in which an order is amended and announced (`Stepwise`, `Made`)
has all programs but `Submit`, whose blocks depend on one another. The
class may have the block that applies a fill for some fills only
(`Applying`), or be about no steps of an exchange at all (`Amending`).
-/
import RealTimeTrading.ControlPlane.Plane

namespace RealTimeTrading.ControlPlane

open RealTimeTrading.Concurrency

/-- The calls made outside the blocks. -/
def Op.isPlain : Op → Bool
  | .now | .ctxErr | .order _ | .orderByIdempotency _ | .orderByExchangeID _ | .cancelOrder _ _ _
  | .bindExchangeOrderID _ _ | .cancelRemote _ | .getAccountState | .setAccountState _ => true
  | _ => false

/-- The calls the blocks are made of, beside these. -/
def Op.isBlock : Op → Bool
  | .markOrderAck _ _ | .markOrderSent _ _ | .applyExternalFill _ _ _ | .replaceOrderPrice _ _
  | .updateOrder _ | .observeExecutionEvent _ | .replaceRemote _ _ | .emit _ => true
  | o => o.isPlain

structure Sequenced (Q : ∀ {α : Type}, Gw α → Prop) : Prop where
  ret : ∀ {α : Type} (a : α), Q (pure a : Gw α)
  bind : ∀ {α β : Type} {p : Gw α} {f : α → Gw β}, Q p → (∀ a, Q (f a)) → Q (p >>= f)
  plain : ∀ {o : Op}, o.isPlain = true → Q (call o)

structure Stepwise (Q : ∀ {α : Type}, Gw α → Prop) : Prop extends Sequenced @Q where
  acked : ∀ id ackAt, Q (call (.markOrderAck id ackAt) >>= announceOrLookup id)
  canceled : ∀ id reason canceledAt,
    Q (call (.cancelOrder id reason canceledAt) >>= announceOrLookup id)
  applyFill : ∀ id ledger execution, Q (applyFill id ledger execution)
  applyReject : ∀ id reason, Q (applyReject id reason)

/-- The blocks of a step but for the one that applies its fill. -/
structure Applying (Q : ∀ {α : Type}, Gw α → Prop) : Prop extends Sequenced @Q where
  acked : ∀ id ackAt, Q (call (.markOrderAck id ackAt) >>= announceOrLookup id)
  canceled : ∀ id reason canceledAt,
    Q (call (.cancelOrder id reason canceledAt) >>= announceOrLookup id)
  applyReject : ∀ id reason, Q (applyReject id reason)

/-- The blocks of the calls that name an order. -/
structure Amending (Q : ∀ {α : Type}, Gw α → Prop) : Prop extends Sequenced @Q where
  cancelLocal : ∀ id reason, Q (cancelLocal id reason)
  replace : ∀ async id newPrice, Q (replace async id newPrice)

structure Made (Q : ∀ {α : Type}, Gw α → Prop) : Prop extends Stepwise @Q where
  cancelLocal : ∀ id reason, Q (cancelLocal id reason)
  replace : ∀ async id newPrice, Q (replace async id newPrice)

variable {Q : ∀ {α : Type}, Gw α → Prop}

namespace Sequenced

theorem currentOrder (h : Sequenced @Q) (id : OrderID) : Q (currentOrder id) := by
  refine h.bind (h.plain rfl) fun found => ?_
  cases found <;> exact h.ret _

theorem resolveReference (h : Sequenced @Q) (update : AsyncExchangeUpdate) :
    Q (resolveReference update) := by
  have tail : ∀ id : OrderID, Q (if id = "" ∧ update.exchangeOrderID ≠ "" then do
      let existing ← call (.orderByExchangeID update.exchangeOrderID)
      pure ((existing.map (·.id)).getD id)
    else pure id : Gw OrderID) := by
    intro id
    split
    · exact h.bind (h.plain rfl) fun _ => h.ret _
    · exact h.ret _
  unfold ControlPlane.resolveReference
  dsimp only
  split
  · exact h.bind (h.plain rfl) fun _ => h.bind (h.ret _) tail
  · exact h.bind (h.ret _) tail

theorem cancelSelfTrades (h : Sequenced @Q) (async : Bool) (req : ExecutionRequest)
    (opened : List Order) : Q (cancelSelfTrades async req opened) := by
  induction opened with
  | nil => exact h.ret _
  | cons o rest ih =>
    unfold ControlPlane.cancelSelfTrades
    dsimp only
    split
    · split
      · exact h.bind (h.plain rfl) fun _ => h.bind (h.plain rfl) fun _ =>
          h.bind (h.plain rfl) fun _ => ih
      · exact h.bind (h.plain rfl) fun _ => h.bind (h.plain rfl) fun _ => ih
    · exact ih

end Sequenced

namespace Applying

variable (h : Applying @Q)

include h

theorem applyStatus (id : OrderID) (step : ExchangeStep)
    (hfill : ∀ ledger execution, step.ledger = some ledger → step.execution = some execution →
      Q (applyFill id ledger execution)) :
    Q (applyStatus id step) := by
  unfold ControlPlane.applyStatus
  split
  · exact h.acked _ _
  · split
    · exact hfill _ _ ‹_› ‹_›
    · exact h.ret _
  · split
    · exact hfill _ _ ‹_› ‹_›
    · exact h.ret _
  · exact h.canceled _ _ _
  · exact h.applyReject _ _
  all_goals exact h.toSequenced.currentOrder _

theorem applyStep (update : AsyncExchangeUpdate)
    (hfill : ∀ id ledger execution, update.step.ledger = some ledger →
      update.step.execution = some execution → Q (applyFill id ledger execution)) :
    Q (applyStep update) := by
  refine h.bind (h.toSequenced.resolveReference update) fun id => ?_
  split
  · exact h.ret _
  · split
    · refine h.bind (h.plain rfl) fun r => ?_
      obtain ⟨_, _ | err⟩ := r
      · exact h.applyStatus _ _ (hfill id)
      · exact h.ret _
    · exact h.applyStatus _ _ (hfill id)

theorem applySteps (reserved : Order) (steps : List ExchangeStep)
    (hfill : ∀ step ∈ steps, ∀ id ledger execution, step.ledger = some ledger →
      step.execution = some execution → Q (applyFill id ledger execution)) (finalOrder : Order) :
    Q (applySteps reserved steps finalOrder) := by
  induction steps generalizing finalOrder with
  | nil => exact h.ret _
  | cons step rest ih =>
    obtain ⟨hstep, hrest⟩ := List.forall_mem_cons.mp hfill
    refine h.bind (h.applyStep _ hstep) fun r => ?_
    obtain ⟨updated, _ | err⟩ := r
    · exact ih hrest updated
    · exact h.ret _

theorem streamHandler (update : AsyncExchangeUpdate)
    (hfill : ∀ id ledger execution, update.step.ledger = some ledger →
      update.step.execution = some execution → Q (applyFill id ledger execution)) :
    Q (streamHandler update) := by
  refine h.bind (h.applyStep update hfill) fun r => h.bind (h.plain rfl) fun account => ?_
  cases account with
  | error message => exact h.ret _
  | ok account => exact h.bind (h.plain rfl) fun _ => h.ret _

end Applying

namespace Stepwise

theorem toApplying (h : Stepwise @Q) : Applying @Q :=
  ⟨h.toSequenced, h.acked, h.canceled, h.applyReject⟩

theorem applyStep (h : Stepwise @Q) (update : AsyncExchangeUpdate) : Q (applyStep update) :=
  h.toApplying.applyStep update fun id _ _ _ _ => h.applyFill id _ _

theorem applySteps (h : Stepwise @Q) (reserved : Order) (steps : List ExchangeStep)
    (finalOrder : Order) : Q (applySteps reserved steps finalOrder) :=
  h.toApplying.applySteps reserved steps (fun _ _ id _ _ _ _ => h.applyFill id _ _) finalOrder

theorem streamHandler (h : Stepwise @Q) (update : AsyncExchangeUpdate) :
    Q (streamHandler update) :=
  h.toApplying.streamHandler update fun id _ _ _ _ => h.applyFill id _ _

end Stepwise

namespace Amending

variable (h : Amending @Q)

include h

theorem cancel (async : Bool) (id : OrderID) (reason : String) : Q (cancel async id reason) := by
  refine h.bind (h.plain rfl) fun stopped => ?_
  cases stopped with
  | some message => exact h.ret _
  | none =>
    refine h.bind (h.plain rfl) fun found => ?_
    cases found with
    | none => exact h.ret _
    | some o =>
      dsimp only
      split
      · exact h.ret _
      · split
        · refine h.bind (h.plain rfl) fun remote => ?_
          cases remote with
          | some message => exact h.ret _
          | none => exact h.cancelLocal _ _
        · exact h.cancelLocal _ _

theorem switchStrategy (async : Bool) (id : OrderID) (strategy : String) (price : Option ℚ)
    (reason : String) : Q (switchStrategy async id strategy price reason) := by
  refine h.bind (h.plain rfl) fun stopped => ?_
  cases stopped with
  | some message => exact h.ret _
  | none =>
    dsimp only
    split
    · cases price with
      | none => exact h.cancel _ _ _
      | some price => exact h.replace _ _ _
    · split
      · cases price with
        | none => exact h.toSequenced.currentOrder _
        | some price => exact h.replace _ _ _
      · exact h.toSequenced.currentOrder _

end Amending

namespace Made

theorem toAmending (h : Made @Q) : Amending @Q := ⟨h.toSequenced, h.cancelLocal, h.replace⟩

theorem cancel (h : Made @Q) (async : Bool) (id : OrderID) (reason : String) :
    Q (cancel async id reason) :=
  h.toAmending.cancel async id reason

theorem switchStrategy (h : Made @Q) (async : Bool) (id : OrderID) (strategy : String)
    (price : Option ℚ) (reason : String) : Q (switchStrategy async id strategy price reason) :=
  h.toAmending.switchStrategy async id strategy price reason

end Made

/-! ## Programs that issue one kind of calls -/

section Only

variable {kind : Op → Prop}

theorem only_call {o : Op} (h : kind o) : (call o).Only kind := Prog.Only.op h

theorem only_pure {α : Type} (a : α) : (pure a : Gw α).Only kind := trivial

variable (hkind : ∀ o : Op, o.isBlock = true → kind o)

include hkind

theorem only_sequenced : Sequenced (fun {_} p => p.Only kind) where
  ret := only_pure
  bind := .bind
  plain {o} h := only_call (hkind o (by cases o <;> first | rfl | exact h))

theorem only_announceOrLookup (id : OrderID) (result : Order × Option Err) :
    (announceOrLookup id result).Only kind := by
  obtain ⟨updated, _ | err⟩ := result
  · exact (only_call (hkind _ rfl)).bind fun _ => (only_call (hkind _ rfl)).bind fun _ =>
      only_pure _
  · exact (only_sequenced hkind).currentOrder id

theorem only_announceUpdated (updated : Order) : (announceUpdated updated).Only kind :=
  (only_call (hkind _ rfl)).bind fun _ => (only_call (hkind _ rfl)).bind fun _ => only_pure _

theorem only_applyFill (id : OrderID) (ledger : FillLedgerEntry) (execution : ExecutionEvent) :
    (applyFill id ledger execution).Only kind := by
  refine (only_call (hkind _ rfl)).bind fun r => ?_
  obtain ⟨updated, position, _ | err⟩ := r
  · exact (only_call (hkind _ rfl)).bind fun _ => (only_call (hkind _ rfl)).bind fun _ =>
      (only_call (hkind _ rfl)).bind fun _ => (only_call (hkind _ rfl)).bind fun _ =>
      (only_call (hkind _ rfl)).bind fun _ => (only_call (hkind _ rfl)).bind fun _ => only_pure _
  · exact only_pure _

theorem only_applyReject (id : OrderID) (reason : String) : (applyReject id reason).Only kind := by
  refine (only_call (hkind _ rfl)).bind fun found => ?_
  cases found with
  | none => exact only_pure _
  | some o =>
    exact (only_call (hkind _ rfl)).bind fun _ => (only_call (hkind _ rfl)).bind fun _ =>
      only_pure _

theorem only_stepwise : Stepwise (fun {_} p => p.Only kind) where
  toSequenced := only_sequenced hkind
  acked id _ := (only_call (hkind _ rfl)).bind (only_announceOrLookup hkind id)
  canceled id _ _ := (only_call (hkind _ rfl)).bind (only_announceOrLookup hkind id)
  applyFill := only_applyFill hkind
  applyReject := only_applyReject hkind

theorem only_replace (async : Bool) (id : OrderID) (newPrice : ℚ) :
    (replace async id newPrice).Only kind := by
  refine (only_call (hkind _ rfl)).bind fun stopped => ?_
  cases stopped with
  | some message => exact only_pure _
  | none =>
    refine (only_call (hkind _ rfl)).bind fun r => ?_
    obtain ⟨updated, _ | err⟩ := r
    · dsimp only
      split
      · refine (only_call (hkind _ rfl)).bind fun remote => ?_
        cases remote with
        | some message => exact only_pure _
        | none => exact only_announceUpdated hkind _
      · exact only_announceUpdated hkind _
    · exact only_pure _

theorem only_made : Made (fun {_} p => p.Only kind) where
  toStepwise := only_stepwise hkind
  cancelLocal id reason := by
    refine (only_call (hkind _ rfl)).bind fun canceledAt =>
      (only_call (hkind _ rfl)).bind fun r => ?_
    obtain ⟨updated, _ | err⟩ := r
    · exact only_announceUpdated hkind updated
    · exact only_pure _
  replace := only_replace hkind

theorem only_markSent (reserved : Order) : (markSent reserved).Only kind := by
  refine (only_call (hkind _ rfl)).bind fun sentAt => (only_call (hkind _ rfl)).bind fun r => ?_
  obtain ⟨sent, _ | err⟩ := r
  · exact (only_call (hkind _ rfl)).bind fun _ => only_pure _
  · exact only_pure _

end Only

end RealTimeTrading.ControlPlane
