/-
RealTimeTrading.ControlPlane.Lifecycle — the order lifecycle
NEW → SENT → ACK → PARTIAL → FILLED/CANCELED/REJECTED.

A status may move up in rank, and a final status may not move at all.
The store methods do not check this; `Op.OnTime` is the condition on the
stored status under which a call respects it, method by method, and
`advances_iff_onTime` says that it is the exact one.
-/
import RealTimeTrading.ControlPlane.Invariant
import RealTimeTrading.ControlPlane.Schedule

namespace RealTimeTrading.ControlPlane

open RealTimeTrading.Concurrency

/-! ## Ranks -/

namespace OrderStatus

/-- `unset` is Go's zero value, which no method assigns. -/
def rank : OrderStatus → Nat
  | .unset => 0
  | .new => 1
  | .sent => 2
  | .ack => 3
  | .partially => 4
  | .filled | .canceled | .rejected => 5

/-- A stored status may be followed by this one. -/
def Advances (a b : OrderStatus) : Prop := a.rank ≤ b.rank ∧ (a.isTerminal = true → b = a)

instance (a b : OrderStatus) : Decidable (a.Advances b) := by unfold Advances; infer_instance

theorem Advances.refl (a : OrderStatus) : a.Advances a := ⟨le_rfl, fun _ => rfl⟩

theorem Advances.trans {a b c : OrderStatus} (h : a.Advances b) (h' : b.Advances c) :
    a.Advances c := by
  refine ⟨h.1.trans h'.1, fun ha => ?_⟩
  have hb := h.2 ha
  rw [← hb] at ha
  rw [h'.2 ha, hb]

theorem advances_sent (a : OrderStatus) : a.Advances .sent ↔ a = .unset ∨ a = .new ∨ a = .sent := by
  cases a <;> decide

theorem advances_ack (a : OrderStatus) :
    a.Advances .ack ↔ a = .unset ∨ a = .new ∨ a = .sent ∨ a = .ack := by
  cases a <;> decide

theorem advances_canceled (a : OrderStatus) :
    a.Advances .canceled ↔ a ≠ .filled ∧ a ≠ .rejected := by
  cases a <;> decide

theorem advances_rejected (a : OrderStatus) :
    a.Advances .rejected ↔ a ≠ .filled ∧ a ≠ .canceled := by
  cases a <;> decide

theorem advances_filled (a : OrderStatus) : a.Advances .filled ↔ a ≠ .canceled ∧ a ≠ .rejected := by
  cases a <;> decide

theorem advances_partially (a : OrderStatus) : a.Advances .partially ↔ a.isTerminal = false := by
  cases a <;> decide

end OrderStatus

/-- Every stored order is still stored, its status at most advanced. -/
def Store.AdvancesTo (s s' : Store) : Prop :=
  ∀ id o, s.orders.lookup id = some o →
    ∃ o', s'.orders.lookup id = some o' ∧ o.status.Advances o'.status

namespace Store.AdvancesTo

theorem refl (s : Store) : s.AdvancesTo s := fun _ o h => ⟨o, h, .refl _⟩

theorem trans {a b c : Store} (h : a.AdvancesTo b) (h' : b.AdvancesTo c) : a.AdvancesTo c := by
  intro id o ho
  obtain ⟨o', ho', hs⟩ := h id o ho
  obtain ⟨o'', ho'', hs'⟩ := h' id o' ho'
  exact ⟨o'', ho'', hs.trans hs'⟩

/-- What it says of one order. -/
def check (id : OrderID) (s s' : Store) : Bool :=
  (s.orders.lookup id).all fun o =>
    (s'.orders.lookup id).any fun o' => decide (o.status.Advances o'.status)

theorem check_eq_true {s s' : Store} (h : s.AdvancesTo s') (id : OrderID) :
    check id s s' = true := by
  unfold check
  cases hs : s.orders.lookup id with
  | none => rfl
  | some o =>
    obtain ⟨o', ho', hadv⟩ := h id o hs
    simp [ho', hadv]

end Store.AdvancesTo

/-! ## The condition on the state a call finds -/

/-- The status the call finds is one its new status may follow. For a fill of
an order already FILLED: the total still reaches the size. -/
def Op.OnTime (s : Store) : Op → Prop
  | .markOrderSent id _ => ∀ o, s.orders.lookup id = some o →
    o.status = .unset ∨ o.status = .new ∨ o.status = .sent
  | .markOrderAck id _ => ∀ o, s.orders.lookup id = some o →
    o.status = .unset ∨ o.status = .new ∨ o.status = .sent ∨ o.status = .ack
  | .cancelOrder id _ _ => ∀ o, s.orders.lookup id = some o →
    o.status ≠ .filled ∧ o.status ≠ .rejected
  | .updateOrder copy => ∀ o, s.orders.lookup copy.id = some o →
    o.status ≠ .filled ∧ o.status ≠ .canceled
  | .applyExternalFill id fill _ => ∀ o, s.orders.lookup (s.resolve id) = some o →
    o.status ≠ .canceled ∧ o.status ≠ .rejected ∧
      (o.status = .filled → o.size ≤ o.filled + fill.quantity)
  | _ => True

theorem advances_fill (o : Order) (now : Time) (fill : FillLedgerEntry) (event : ExecutionEvent) :
    o.status.Advances (Store.fillOrder now fill event o).status ↔
      o.status ≠ .canceled ∧ o.status ≠ .rejected ∧
        (o.status = .filled → o.size ≤ o.filled + fill.quantity) := by
  simp only [Store.fillOrder]
  by_cases hsize : o.size ≤ o.filled + fill.quantity
  · rw [if_pos hsize, OrderStatus.advances_filled]
    simp [hsize]
  · rw [if_neg hsize, OrderStatus.advances_partially]
    cases o.status <;> simp [OrderStatus.isTerminal, hsize]

/-! ## One step -/

section Step

variable {s : Store} {m : GoMap OrderID Order}

/-- A write of `w` advances the store exactly if it advances the order it replaces. -/
theorem advancesTo_write {s' : Store} {w : Order}
    (h : s'.orders = Store.writeOrder (some w) s.orders) :
    s.AdvancesTo s' ↔ ∀ o, s.orders.lookup w.id = some o → o.status.Advances w.status := by
  constructor
  · intro hadv o ho
    obtain ⟨o', ho', hs⟩ := hadv w.id o ho
    rw [h, Store.lookup_writeOrder_some, if_pos rfl] at ho'
    rw [Option.some.inj ho']
    exact hs
  · intro hw id o ho
    rw [h, Store.lookup_writeOrder_some]
    by_cases hid : id = w.id
    · subst hid
      exact ⟨w, if_pos rfl, hw o ho⟩
    · exact ⟨o, by rw [if_neg hid]; exact ho, .refl _⟩

theorem advancesTo_same {s' : Store} (h : s'.orders = s.orders) : s.AdvancesTo s' := by
  intro id o ho
  exact ⟨o, by rw [h]; exact ho, .refl _⟩

/-- A method that reads an order and writes it back amended. -/
theorem advancesTo_amend {s' : Store} (hwf : s.WellFormed) (id : OrderID) (f : Order → Order)
    (hf : ∀ o, (f o).id = o.id)
    (h : s'.orders = Store.writeOrder ((s.orders.lookup id).map f) s.orders) :
    s.AdvancesTo s' ↔ ∀ o, s.orders.lookup id = some o → o.status.Advances (f o).status := by
  cases hs : s.orders.lookup id with
  | none =>
    rw [hs] at h
    simpa using advancesTo_same h
  | some stored =>
    rw [hs] at h
    have hid : (f stored).id = id := by rw [hf, hwf.stored id stored hs]
    rw [advancesTo_write h, hid, hs]
    simp

end Step

section Call

variable {env : Env} {tr : List PlaneEntry} {gs : List Local} {p p' : Plane} {i : Nat} {g : Local}
  {o : Op} {r : Res o}

/-- An allowed call respects the lifecycle exactly when it comes on time. -/
theorem advances_iff_onTime (hinv : GatewayInv tr gs p) (hg : gs[i]? = some g)
    (hallowed : g.allowed o) (hsem : sem env o p r p') :
    p.store.AdvancesTo p'.store ↔ o.OnTime p.store := by
  have hwf := hinv.wellFormed
  obtain ⟨now, horders⟩ := sem_orders hsem
  cases o with
  | reserveOrder order =>
    refine iff_of_true ?_ trivial
    have hfresh : p.store.orders.lookup order.id = none :=
      GoMap.lookup_none_of_notMem (hinv.minted i g hg order.id hallowed.2.1).2
    simp only [Op.written] at horders
    split at horders
    · rw [advancesTo_write horders]
      intro o ho
      rw [show (Store.reservedOrder now order).id = order.id from rfl, hfresh] at ho
      cases ho
    · exact advancesTo_same horders
  | updateOrder copy =>
    rw [advancesTo_write horders]
    have hstatus : (Store.updatedOrder now copy).status = .rejected := hallowed.1
    simp only [hstatus, OrderStatus.advances_rejected]
    rfl
  | markOrderSent id t =>
    rw [advancesTo_amend hwf id (Store.sentOrder now t) (fun _ => rfl) horders]
    simp only [Store.sentOrder, OrderStatus.advances_sent]
    rfl
  | markOrderAck id t =>
    rw [advancesTo_amend hwf id (Store.ackedOrder now t) (fun _ => rfl) horders]
    simp only [Store.ackedOrder, OrderStatus.advances_ack]
    rfl
  | cancelOrder id reason t =>
    rw [advancesTo_amend hwf id (Store.canceledOrder now reason t) (fun _ => rfl) horders]
    simp only [Store.canceledOrder, OrderStatus.advances_canceled]
    rfl
  | applyExternalFill id fill event =>
    rw [advancesTo_amend hwf _ (Store.fillOrder now fill event) (fun _ => rfl) horders]
    simp only [advances_fill]
    rfl
  | bindExchangeOrderID id x =>
    rw [advancesTo_amend hwf id (Store.boundOrder now x) (fun _ => rfl) horders]
    exact iff_of_true (fun _ _ => .refl _) trivial
  | replaceOrderPrice id price =>
    refine iff_of_true ?_ trivial
    cases hw : (Op.replaceOrderPrice id price).written now p.store with
    | none => rw [hw] at horders; exact advancesTo_same horders
    | some w =>
      rw [hw] at horders
      obtain ⟨stored, hs, hw⟩ := Option.bind_eq_some_iff.mp hw
      split at hw
      · cases hw
      · obtain rfl := Option.some.inj hw
        rw [advancesTo_write horders]
        intro o ho
        rw [show (Store.repricedOrder now price stored).id = id from hwf.stored id stored hs,
          hs] at ho
        rw [← Option.some.inj ho]
        exact .refl _
  | _ => exact iff_of_true (advancesTo_same horders) trivial

end Call

/-! ## Runs -/

/-- In every run, a step respects the lifecycle exactly when its call comes on
time; and if every call of the run does, every order's status has only
advanced from any state of the run to the last. -/
theorem lifecycle_iff_onTime {env : Env} {p₀ : Plane} {tr : List PlaneEntry} {c : PlaneConfig}
    (hwf : p₀.store.WellFormed) (hrun : PlaneRun env p₀ tr c) :
    (∀ e ∈ tr, e.pre.store.AdvancesTo e.post.store ↔ e.event.1.OnTime e.pre.store) ∧
      ((∀ e ∈ tr, e.event.1.OnTime e.pre.store) →
        ∀ e ∈ tr, e.pre.store.AdvancesTo c.shared.store) := by
  have hstep : ∀ e ∈ tr, e.pre.store.AdvancesTo e.post.store ↔ e.event.1.OnTime e.pre.store := by
    intro e he
    obtain ⟨pre, post, hsplit⟩ := List.append_of_mem he
    obtain ⟨gs, g, hg⟩ := Discipline.guaranteed (gatewayInvariant env hwf) hrun pre e post hsplit
    exact advances_iff_onTime hg.before.1 hg.ghost hg.allowed hg.sem
  refine ⟨hstep, fun honTime e he => ?_⟩
  have hlink := Run.related_to_end (fun p p' : Plane => p.store.AdvancesTo p'.store)
    (fun p => .refl p.store) (fun _ _ _ h h' => h.trans h') hrun
    fun e he => (hstep e he).mpr (honTime e he)
  exact (hlink e he).1

/-- The stream reports the order filled before `Submit` handles the ACK that
`SendOrder` returned. -/
def lateAck : List Command :=
  [.start (.submit Desk.request), .run 0 10 (Desk.acked "id-1"),
    .start (.applyAsyncUpdate Desk.filledUpdate), .run 1 9 (Desk.acked "id-1"),
    .run 0 4 (Desk.acked "id-1")]

theorem lateAck_admissible : ∀ command ∈ lateAck, command.Admissible Desk.env := by
  simp only [lateAck, List.forall_mem_cons]
  exact ⟨trivial, Desk.acked_admissible _ _ _, trivial, Desk.acked_admissible _ _ _,
    Desk.acked_admissible _ _ _, by simp⟩

/-- The late ACK takes the order from FILLED back to ACK. -/
theorem late_ack_regresses : ¬ ∀ tr c, PlaneRun Desk.env Desk.plane tr c →
    ∀ e ∈ tr, e.pre.store.AdvancesTo e.post.store := by
  intro h
  have hrun := h _ _ (schedule_run lateAck_admissible)
  have hcheck : (schedule Desk.env Desk.plane lateAck).1.all
      (fun e => Store.AdvancesTo.check "id-1" e.pre.store e.post.store) = true :=
    List.all_eq_true.mpr fun e he => (hrun e he).check_eq_true "id-1"
  exact absurd hcheck (by decide +kernel)

/-- The same interleaving, seen through the general theorem. -/
theorem lifecycle_iff_onTime_lateAck :
    (∀ e ∈ (schedule Desk.env Desk.plane lateAck).1,
      e.pre.store.AdvancesTo e.post.store ↔ e.event.1.OnTime e.pre.store) ∧
      ((∀ e ∈ (schedule Desk.env Desk.plane lateAck).1, e.event.1.OnTime e.pre.store) →
        ∀ e ∈ (schedule Desk.env Desk.plane lateAck).1,
          e.pre.store.AdvancesTo (schedule Desk.env Desk.plane lateAck).2.shared.store) :=
  lifecycle_iff_onTime Desk.plane_wellFormed (schedule_run lateAck_admissible)

end RealTimeTrading.ControlPlane
