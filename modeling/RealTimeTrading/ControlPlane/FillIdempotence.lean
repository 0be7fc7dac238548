/-
RealTimeTrading.ControlPlane.FillIdempotence — redelivered fill reports.

The user stream delivers at least once, and `ApplyExternalFill` does not
look at the `FillID`: every delivery moves the order, the position and
the ledger again. Only a sequence without repetitions has the effect of
delivering each report once.
-/
import RealTimeTrading.ControlPlane.FillDelivery
import RealTimeTrading.ControlPlane.Schedule
import Mathlib.Tactic.Linarith

namespace RealTimeTrading.ControlPlane

open RealTimeTrading.Concurrency

/-! ## First deliveries -/

namespace AsyncExchangeUpdate

/-- What identifies a fill report: its order id and its fill id. -/
def reportID (u : AsyncExchangeUpdate) : Option (String × String) :=
  u.step.fill.map fun f => (f.orderID, f.fillID)

end AsyncExchangeUpdate

/-- The updates without the fill reports already seen. -/
def dropSeen : List (String × String) → List AsyncExchangeUpdate → List AsyncExchangeUpdate
  | _, [] => []
  | seen, u :: us =>
    match u.reportID with
    | none => u :: dropSeen seen us
    | some k => if k ∈ seen then dropSeen seen us else u :: dropSeen (k :: seen) us

/-- Each distinct fill report once, at its first position. -/
def firstDeliveries (us : List AsyncExchangeUpdate) : List AsyncExchangeUpdate := dropSeen [] us

def fillsOf (us : List AsyncExchangeUpdate) : List FillLedgerEntry := us.filterMap (·.step.fill)

theorem fillsOf_cons_none {u : AsyncExchangeUpdate} (h : u.step.fill = none)
    (us : List AsyncExchangeUpdate) : fillsOf (u :: us) = fillsOf us := List.filterMap_cons_none h

theorem fillsOf_cons_some {u : AsyncExchangeUpdate} {f : FillLedgerEntry}
    (h : u.step.fill = some f) (us : List AsyncExchangeUpdate) :
    fillsOf (u :: us) = f :: fillsOf us := List.filterMap_cons_some h

theorem mem_dropSeen {seen : List (String × String)} {us : List AsyncExchangeUpdate}
    {u : AsyncExchangeUpdate} (h : u ∈ dropSeen seen us) : u ∈ us := by
  induction us generalizing seen with
  | nil => cases h
  | cons v rest ih =>
    unfold dropSeen at h
    split at h
    · rcases List.mem_cons.mp h with rfl | h
      · exact List.mem_cons_self
      · exact List.mem_cons_of_mem _ (ih h)
    · split at h
      · exact List.mem_cons_of_mem _ (ih h)
      · rcases List.mem_cons.mp h with rfl | h
        · exact List.mem_cons_self
        · exact List.mem_cons_of_mem _ (ih h)

/-- The report ids are distinct and none was seen. -/
def NoRepeats (seen : List (String × String)) (us : List AsyncExchangeUpdate) : Prop :=
  (us.filterMap AsyncExchangeUpdate.reportID).Nodup ∧
    ∀ k ∈ us.filterMap AsyncExchangeUpdate.reportID, k ∉ seen

theorem noRepeats_cons {seen : List (String × String)} {u : AsyncExchangeUpdate}
    {us : List AsyncExchangeUpdate} {k : String × String} (hk : u.reportID = some k) :
    NoRepeats seen (u :: us) ↔ k ∉ seen ∧ NoRepeats (k :: seen) us := by
  unfold NoRepeats
  rw [List.filterMap_cons_some hk, List.nodup_cons, List.forall_mem_cons]
  constructor
  · rintro ⟨⟨hnotin, hnodup⟩, hseen, hrest⟩
    refine ⟨hseen, hnodup, fun x hx hmem => ?_⟩
    rcases List.mem_cons.mp hmem with rfl | hmem
    · exact hnotin hx
    · exact hrest x hx hmem
  · rintro ⟨hseen, hnodup, hrest⟩
    exact ⟨⟨fun hx => hrest k hx List.mem_cons_self, hnodup⟩, hseen,
      fun x hx hmem => hrest x hx (List.mem_cons_of_mem _ hmem)⟩

theorem dropSeen_of_noRepeats {seen : List (String × String)} {us : List AsyncExchangeUpdate}
    (h : NoRepeats seen us) : dropSeen seen us = us := by
  induction us generalizing seen with
  | nil => rfl
  | cons u rest ih =>
    unfold dropSeen
    cases hk : u.reportID with
    | none =>
      unfold NoRepeats at h
      rw [List.filterMap_cons_none hk] at h
      simp only [ih h]
    | some k =>
      obtain ⟨hseen, hrest⟩ := (noRepeats_cons hk).mp h
      simp only [if_neg hseen, ih hrest]

/-- Dropping reports of positive quantity never adds to an order's quantity. -/
theorem qtyOf_dropSeen_le {us : List AsyncExchangeUpdate}
    (hpos : ∀ f ∈ fillsOf us, 0 < f.quantity) (seen : List (String × String)) (x : String) :
    Store.qtyOf x (fillsOf (dropSeen seen us)) ≤ Store.qtyOf x (fillsOf us) := by
  induction us generalizing seen with
  | nil => exact le_rfl
  | cons u rest ih =>
    unfold dropSeen AsyncExchangeUpdate.reportID
    cases hf : u.step.fill with
    | none =>
      rw [fillsOf_cons_none hf] at hpos ⊢
      simp only [Option.map_none, fillsOf_cons_none hf]
      exact ih hpos seen
    | some f =>
      rw [fillsOf_cons_some hf] at hpos ⊢
      obtain ⟨hf0, hrest⟩ := List.forall_mem_cons.mp hpos
      simp only [Option.map_some]
      split
      · have hle := ih hrest seen
        have hterm : 0 ≤ if f.orderID = x then f.quantity else 0 := by split <;> linarith
        rw [Store.qtyOf_cons]
        linarith
      · rw [fillsOf_cons_some hf, Store.qtyOf_cons, Store.qtyOf_cons]
        have hle := ih hrest ((f.orderID, f.fillID) :: seen)
        linarith

/-- If no order's quantity suffers, nothing was dropped. -/
theorem noRepeats_of_qtyOf_eq {us : List AsyncExchangeUpdate}
    (hpos : ∀ f ∈ fillsOf us, 0 < f.quantity) (seen : List (String × String))
    (h : ∀ x, Store.qtyOf x (fillsOf us) = Store.qtyOf x (fillsOf (dropSeen seen us))) :
    NoRepeats seen us := by
  induction us generalizing seen with
  | nil => exact ⟨List.nodup_nil, by simp⟩
  | cons u rest ih =>
    unfold dropSeen AsyncExchangeUpdate.reportID at h
    cases hf : u.step.fill with
    | none =>
      rw [fillsOf_cons_none hf] at hpos
      have hk : u.reportID = none := by rw [AsyncExchangeUpdate.reportID, hf, Option.map_none]
      unfold NoRepeats
      rw [List.filterMap_cons_none hk]
      refine ih hpos seen fun x => ?_
      have hx := h x
      rw [fillsOf_cons_none hf, hf] at hx
      simp only [Option.map_none, fillsOf_cons_none hf] at hx
      exact hx
    | some f =>
      rw [fillsOf_cons_some hf] at hpos
      obtain ⟨hf0, hrest⟩ := List.forall_mem_cons.mp hpos
      have hk : u.reportID = some (f.orderID, f.fillID) := by
        rw [AsyncExchangeUpdate.reportID, hf, Option.map_some]
      rw [noRepeats_cons hk]
      by_cases hseen : (f.orderID, f.fillID) ∈ seen
      · -- a dropped report would be missing from its order's quantity
        have hx := h f.orderID
        rw [hf] at hx
        simp only [Option.map_some, if_pos hseen] at hx
        rw [fillsOf_cons_some hf, Store.qtyOf_cons, if_pos rfl] at hx
        have hle := qtyOf_dropSeen_le hrest seen f.orderID
        linarith
      · refine ⟨hseen, ih hrest _ fun x => ?_⟩
        have hx := h x
        rw [hf] at hx
        simp only [Option.map_some, if_neg hseen] at hx
        rw [fillsOf_cons_some hf, fillsOf_cons_some hf, Store.qtyOf_cons, Store.qtyOf_cons] at hx
        linarith

/-! ## What a delivery keeps -/

namespace FillView

/-- Orders keep their identity, keys their order, and an exchange id moves to
`id` or nowhere. -/
structure Extends (id : OrderID) (v v' : FillView) : Prop where
  idents : ∀ x, (v'.orders x).map (·.ident) = (v.orders x).map (·.ident)
  idempotency : v'.idempotency = v.idempotency
  exchangeIDs : ∀ x, v'.exchangeIDs x = v.exchangeIDs x ∨ v'.exchangeIDs x = some id

theorem Extends.refl (id : OrderID) (v : FillView) : Extends id v v :=
  ⟨fun _ => rfl, rfl, fun _ => Or.inl rfl⟩

theorem Extends.trans {id : OrderID} {a b c : FillView} (h : Extends id a b) (h' : Extends id b c) :
    Extends id a c where
  idents x := (h'.idents x).trans (h.idents x)
  idempotency := h'.idempotency.trans h.idempotency
  exchangeIDs x := by
    rcases h'.exchangeIDs x with hx | hx
    · rw [hx]; exact h.exchangeIDs x
    · exact Or.inr hx

theorem update_exchangeIDs (id : OrderID) (x y : String) (v : FillView) :
    Function.update v.exchangeIDs x (some id) y = v.exchangeIDs y ∨
      Function.update v.exchangeIDs x (some id) y = some id := by
  rw [Function.update_apply]
  split
  · exact Or.inr rfl
  · exact Or.inl rfl

theorem update_idents {v : FillView} {id : OrderID} {o : Option FillState}
    (h : o.map (·.ident) = (v.orders id).map (·.ident)) (x : OrderID) :
    (Function.update v.orders id o x).map (·.ident) = (v.orders x).map (·.ident) := by
  rw [Function.update_apply]
  split
  · rename_i hx; rw [hx, h]
  · rfl

theorem extends_bind (id : OrderID) (x : String) (v : FillView) : Extends id v (v.bind id x) where
  idents := update_idents (by rw [Option.map_map]; rfl)
  idempotency := rfl
  exchangeIDs y := by
    unfold bind
    split
    · exact update_exchangeIDs id x y v
    · exact Or.inl rfl

theorem extends_applyFill (id : OrderID) (f : FillLedgerEntry) (x : OrderID) (v : FillView) :
    Extends id v (v.applyFill f x) := by
  unfold applyFill
  split
  · exact .refl id v
  · rename_i o ho
    exact ⟨update_idents (by rw [ho]; rfl), rfl, fun _ => Or.inl rfl⟩

theorem extends_rebind (id : OrderID) (v : FillView) : Extends id v (v.rebind id) := by
  unfold rebind
  split
  · split
    · exact ⟨fun _ => rfl, rfl, fun y => update_exchangeIDs id _ y v⟩
    · exact .refl id v
  · exact .refl id v

theorem extends_deliver (id : OrderID) (u : AsyncExchangeUpdate) (v : FillView) :
    Extends id v (v.deliver id u) := by
  have hstatus : ∀ w : FillView, Extends id w (w.status id u.step) := by
    intro w
    unfold status
    split
    · exact extends_applyFill id _ _ w
    · split
      · exact extends_rebind id w
      · exact .refl id w
  unfold deliver
  split
  · exact (extends_bind id _ v).trans (hstatus _)
  · exact hstatus v

/-- The order is stored under its own id. -/
def Has (id : OrderID) (v : FillView) : Prop := ((v.orders id).map (·.ident.id)) = some id

theorem Extends.has {id x : OrderID} {v v' : FillView} (h : Extends id v v') (hx : v.Has x) :
    v'.Has x := by
  have hmap : ∀ w : FillView, (w.orders x).map (·.ident.id) =
      ((w.orders x).map (·.ident)).map (·.id) := fun w => by rw [Option.map_map]; rfl
  unfold Has at hx ⊢
  rw [hmap, h.idents, ← hmap, hx]

/-- An update that referred to the order still does. -/
theorem Extends.reference {id : OrderID} {v v' : FillView} (h : Extends id v v') (hid : v.Has id)
    {u : AsyncExchangeUpdate} (href : v.reference u = id) : v'.reference u = id := by
  have hbind : ∀ k : Option OrderID, (k.bind v'.orders).map (·.ident.id) =
      (k.bind v.orders).map (·.ident.id) := by
    intro k
    cases k with
    | none => rfl
    | some x =>
      have hmap : ∀ w : FillView, (w.orders x).map (·.ident.id) =
          ((w.orders x).map (·.ident)).map (·.id) := fun w => by rw [Option.map_map]; rfl
      rw [Option.bind_some, Option.bind_some, hmap, h.idents, ← hmap]
  have hnamed : v'.named u = v.named u := by
    unfold named
    rw [h.idempotency, hbind]
  unfold FillView.reference at href ⊢
  rw [hnamed]
  unfold orBound at href ⊢
  split at href
  · rename_i hasked
    rw [if_pos hasked]
    rcases h.exchangeIDs u.exchangeOrderID with hx | hx
    · rw [hx, hbind]; exact href
    · rw [hx, Option.bind_some, h.has hid, Option.getD_some]
  · rw [if_neg ‹_›]; exact href

/-! ## The ledger -/

/-- Exchange ids are bound to stored orders. -/
def Bound (v : FillView) : Prop := ∀ x i, v.exchangeIDs x = some i → v.Has i

theorem Extends.bound {id : OrderID} {v v' : FillView} (h : Extends id v v') (hid : v.Has id)
    (hbound : v.Bound) : v'.Bound := by
  intro x i hx
  rcases h.exchangeIDs x with hold | hnew
  · exact h.has (hbound x i (hold.symm.trans hx))
  · rw [← Option.some.inj (hnew.symm.trans hx)]
    exact h.has hid

/-- Every fill delivered for a stored order ends up in the ledger. -/
theorem ledger_deliver {id : OrderID} {v : FillView} (hid : v.Has id) (hbound : v.Bound)
    (u : AsyncExchangeUpdate) : (v.deliver id u).ledger = v.ledger ++ u.step.fill.toList := by
  have hstatus : ∀ w : FillView, w.Has id → w.Bound →
      (w.status id u.step).ledger = w.ledger ++ u.step.fill.toList := by
    intro w hw hwb
    unfold status
    cases hf : u.step.fill with
    | none =>
      simp only [Option.toList_none, List.append_nil]
      unfold rebind
      split
      · split
        · split <;> rfl
        · rfl
      · rfl
    | some f =>
      have hresolved : w.Has ((w.exchangeIDs id).getD id) := by
        cases hx : w.exchangeIDs id with
        | none => exact hw
        | some i => exact hwb id i hx
      obtain ⟨o, ho, -⟩ := Option.map_eq_some_iff.mp hresolved
      simp only [applyFill, ho, Option.toList_some]
  unfold deliver
  split
  · have hext := extends_bind id u.exchangeOrderID v
    rw [hstatus _ (hext.has hid) (hext.bound hid hbound)]
    rfl
  · exact hstatus v hid hbound

end FillView

/-! ## Deliveries -/

/-- The updates are applied one after another, each call alone. -/
def Delivers (env : Env) : List AsyncExchangeUpdate → Plane → Plane → Prop
  | [], p, p' => p' = p
  | u :: us, p, p' => ∃ a t, Exec (sem env) (applyAsyncUpdate u) p a t ∧ Delivers env us t p'

theorem delivers_total (env : Env) (us : List AsyncExchangeUpdate) (p : Plane) :
    ∃ p', Delivers env us p p' := by
  induction us generalizing p with
  | nil => exact ⟨p, rfl⟩
  | cons u rest ih =>
    obtain ⟨a, t, ht⟩ := exec_total (sem_total env) (applyAsyncUpdate u) p
    obtain ⟨p', hp'⟩ := ih t
    exact ⟨p', a, t, ht, hp'⟩

theorem Store.WellFormed.fillView_has {s : Store} (hwf : s.WellFormed) {id : OrderID}
    (hid : id ∈ s.orders) : s.fillView.Has id := by
  obtain ⟨o, ho⟩ := (GoMap.mem_iff_lookup _ _).mp hid
  simp only [FillView.Has, Store.fillView, ho, Option.map_some, Order.fillState, Order.ident]
  rw [hwf.stored id o ho]

theorem Store.WellFormed.fillView_bound {s : Store} (hwf : s.WellFormed) : s.fillView.Bound :=
  fun x i hx => hwf.fillView_has (hwf.bound x i hx)

section Delivery

variable {env : Env} {id : OrderID} (hne : id ≠ "")
include hne

/-- The view and the ledger after delivering updates for one order. -/
theorem delivers_view {us : List AsyncExchangeUpdate} {p p' : Plane} (hwf : p.store.WellFormed)
    (hid : id ∈ p.store.orders) (href : ∀ u ∈ us, p.store.fillView.reference u = id)
    (h : Delivers env us p p') :
    p'.store.fillView = us.foldl (fun v u => v.deliver id u) p.store.fillView ∧
      p'.store.ledger = p.store.ledger ++ fillsOf us := by
  induction us generalizing p with
  | nil =>
    obtain rfl : p' = p := h
    exact ⟨rfl, (List.append_nil _).symm⟩
  | cons u rest ih =>
    obtain ⟨a, t, ht, hrest⟩ := h
    obtain ⟨hu, hrefs⟩ := List.forall_mem_cons.mp href
    have hview := exec_applyAsyncUpdate hwf hu hne hid ht
    have hext := FillView.extends_deliver id u p.store.fillView
    have hhas := hwf.fillView_has hid
    have hid' : id ∈ t.store.orders := by
      have hthas : t.store.fillView.Has id := by rw [hview]; exact hext.has hhas
      obtain ⟨o, ho, -⟩ := Option.map_eq_some_iff.mp hthas
      obtain ⟨o', ho', -⟩ := Option.map_eq_some_iff.mp ho
      exact (GoMap.mem_iff_lookup _ _).mpr ⟨o', ho'⟩
    have href' : ∀ u' ∈ rest, t.store.fillView.reference u' = id := by
      intro u' hu'
      rw [hview]
      exact hext.reference hhas (hrefs u' hu')
    obtain ⟨hv, hl⟩ := ih (exec_wellFormed ht hwf) hid' href' hrest
    refine ⟨by rw [hv, hview, List.foldl_cons], ?_⟩
    have hledger : t.store.ledger = p.store.ledger ++ u.step.fill.toList := by
      rw [show t.store.ledger = t.store.fillView.ledger from rfl, hview,
        FillView.ledger_deliver hhas hwf.fillView_bound]
      rfl
    rw [hl, hledger, List.append_assoc]
    congr 1
    cases hf : u.step.fill with
    | none => rw [fillsOf_cons_none hf]; rfl
    | some f => rw [fillsOf_cons_some hf]; rfl

end Delivery

/-! ## The comparison -/

/-- Two stores agree on the fills of an order: its filled quantity and average
price, its symbol's position, and the ledger quantity of every order id. -/
structure FillsAgree (id : OrderID) (s s' : Store) : Prop where
  order : (s.orders.lookup id).map (fun o => (o.filled, o.weightedAvgFillPrice)) =
    (s'.orders.lookup id).map (fun o => (o.filled, o.weightedAvgFillPrice))
  position : ∀ o, s.orders.lookup id = some o →
    (s.position o.symbol).size = (s'.position o.symbol).size ∧
      (s.position o.symbol).avgPrice = (s'.position o.symbol).avgPrice
  ledger : ∀ x, (s.ledgerQtyByOrder.lookup x).getD 0 = (s'.ledgerQtyByOrder.lookup x).getD 0

theorem fillsAgree_of_fillView (id : OrderID) {s s' : Store} (h : s.fillView = s'.fillView) :
    FillsAgree id s s' where
  order := by
    have horders := congrFun (congrArg FillView.orders h) id
    have hproj := congrArg
      (Option.map fun o : FillState => (o.filled, o.weightedAvgFillPrice)) horders
    simp only [Store.fillView, Option.map_map] at hproj
    exact hproj
  position o _ := by
    have hpos := congrFun (congrArg FillView.positions h) o.symbol
    exact ⟨congrArg Prod.fst hpos, congrArg Prod.snd hpos⟩
  ledger x := by
    rw [Store.lookup_ledgerQtyByOrder, Store.lookup_ledgerQtyByOrder,
      show s.ledger = s'.ledger from congrArg FillView.ledger h]

section Comparison

variable {env : Env} {p : Plane} {id : OrderID} {us : List AsyncExchangeUpdate}
  (hwf : p.store.WellFormed) (hne : id ≠ "") (hid : id ∈ p.store.orders)
  (href : ∀ u ∈ us, p.store.fillView.reference u = id)
include hwf hne hid href

/-- If repetitions left no mark on the ledger, there were none. -/
theorem nodup_of_fillsAgree (hpos : ∀ u ∈ us, ∀ f, u.step.fill = some f → 0 < f.quantity)
    (h : ∀ p₁ p₂, Delivers env us p p₁ → Delivers env (firstDeliveries us) p p₂ →
      FillsAgree id p₁.store p₂.store) : (us.filterMap AsyncExchangeUpdate.reportID).Nodup := by
  have hfills : ∀ f ∈ fillsOf us, 0 < f.quantity := by
    intro f hf
    obtain ⟨u, hu, huf⟩ := List.mem_filterMap.mp hf
    exact hpos u hu f huf
  have hrefFirst : ∀ u ∈ firstDeliveries us, p.store.fillView.reference u = id :=
    fun u hu => href u (mem_dropSeen hu)
  obtain ⟨p₁, h₁⟩ := delivers_total env us p
  obtain ⟨p₂, h₂⟩ := delivers_total env (firstDeliveries us) p
  have hagree := (h p₁ p₂ h₁ h₂).ledger
  refine (noRepeats_of_qtyOf_eq hfills [] fun x => ?_).1
  have hx := hagree x
  rw [Store.lookup_ledgerQtyByOrder, Store.lookup_ledgerQtyByOrder,
    (delivers_view hne hwf hid href h₁).2, (delivers_view hne hwf hid hrefFirst h₂).2,
    Store.qtyOf_append, Store.qtyOf_append] at hx
  exact add_left_cancel hx

/-- The effect of a sequence on fills is determined by the sequence. -/
theorem fillsAgree_of_nodup (hnodup : (us.filterMap AsyncExchangeUpdate.reportID).Nodup)
    {p₁ p₂ : Plane} (h₁ : Delivers env us p p₁) (h₂ : Delivers env (firstDeliveries us) p p₂) :
    FillsAgree id p₁.store p₂.store := by
  have hsame : firstDeliveries us = us := dropSeen_of_noRepeats ⟨hnodup, by simp⟩
  rw [hsame] at h₂
  apply fillsAgree_of_fillView
  rw [(delivers_view hne hwf hid href h₁).1, (delivers_view hne hwf hid href h₂).1]

/-- Delivering a sequence of updates for an order leaves the same fills as
delivering each of its fill reports once, at its first position, exactly when
no fill report is repeated. -/
theorem fills_as_once_iff (hpos : ∀ u ∈ us, ∀ f, u.step.fill = some f → 0 < f.quantity) :
    (∀ p₁ p₂, Delivers env us p p₁ → Delivers env (firstDeliveries us) p p₂ →
      FillsAgree id p₁.store p₂.store) ↔
      (us.filterMap AsyncExchangeUpdate.reportID).Nodup :=
  ⟨nodup_of_fillsAgree hwf hne hid href hpos,
    fun hnodup _ _ => fillsAgree_of_nodup hwf hne hid href hnodup⟩

end Comparison

/-- The stream only passes on fills of positive quantity. -/
theorem BingX.mapExecutionReport_fill_pos (std : BingX.Std) (now : Time)
    (event : BingX.ExecutionReport) {f : FillLedgerEntry}
    (hf : (BingX.mapExecutionReport std now event).step.fill = some f) : 0 < f.quantity := by
  by_cases hqty : 0 < std.parseFloat event.lastQty
  · simp only [BingX.mapExecutionReport, ExchangeStep.fill, hqty, decide_true, if_true] at hf
    split at hf
    · rw [← Option.some.inj hf]; exact hqty
    · rw [← Option.some.inj hf]; exact hqty
    · cases hf
  · simp only [BingX.mapExecutionReport, ExchangeStep.fill, hqty, decide_false] at hf
    split at hf <;> simp at hf

namespace Desk

/-- The desk with its order sent and acknowledged. -/
def live : Plane := (schedule env plane submitted).2.shared

/-- The stream reconnects and reports the fill again. -/
def redelivered : List AsyncExchangeUpdate := [filledUpdate, filledUpdate]

theorem live_wellFormed : live.store.WellFormed :=
  run_wellFormed plane_wellFormed (schedule_run submitted_admissible)

theorem live_has_order : "id-1" ∈ live.store.orders := by decide +kernel

theorem redelivered_reference : ∀ u ∈ redelivered, live.store.fillView.reference u = "id-1" := by
  decide +kernel

theorem redelivered_pos : ∀ u ∈ redelivered, ∀ f, u.step.fill = some f → 0 < f.quantity := by
  intro u hu f hf
  simp only [redelivered, List.mem_cons, List.not_mem_nil, or_false, or_self] at hu
  subst hu
  exact BingX.mapExecutionReport_fill_pos std clock filledReport hf

end Desk

/-- The fill reported twice is counted twice. -/
theorem redelivered_fill_counts : ¬ ∀ p₁ p₂,
    Delivers Desk.env Desk.redelivered Desk.live p₁ →
    Delivers Desk.env (firstDeliveries Desk.redelivered) Desk.live p₂ →
    FillsAgree "id-1" p₁.store p₂.store := by
  intro h
  have hnodup := nodup_of_fillsAgree Desk.live_wellFormed (by decide) Desk.live_has_order
    Desk.redelivered_reference Desk.redelivered_pos h
  exact absurd hnodup (by decide +kernel)

theorem fills_as_once_iff_redelivered :
    (∀ p₁ p₂, Delivers Desk.env Desk.redelivered Desk.live p₁ →
      Delivers Desk.env (firstDeliveries Desk.redelivered) Desk.live p₂ →
      FillsAgree "id-1" p₁.store p₂.store) ↔
      (Desk.redelivered.filterMap AsyncExchangeUpdate.reportID).Nodup :=
  fills_as_once_iff Desk.live_wellFormed (by decide) Desk.live_has_order
    Desk.redelivered_reference Desk.redelivered_pos

end RealTimeTrading.ControlPlane
