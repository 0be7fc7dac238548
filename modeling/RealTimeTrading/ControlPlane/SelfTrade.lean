/-
RealTimeTrading.ControlPlane.SelfTrade — self-trade prevention: no two
open orders of one symbol on opposite sides.

`Submit` cancels the open orders of the other side and reserves its own
order afterwards, in two steps of the store; and the store reopens an
order that a late message finds closed. `Op.OpensAlone` is the condition
on the state a call finds under which it opens an order with nothing on
the other side, and `uncrossed_step` says that it is the exact one.
-/
import RealTimeTrading.ControlPlane.Invariant
import RealTimeTrading.ControlPlane.Schedule

namespace RealTimeTrading.ControlPlane

open RealTimeTrading.Concurrency

/-! ## Crossed orders -/

/-- The two orders would trade with each other: one symbol, opposite sides. -/
def Order.Opposes (a b : Order) : Prop :=
  a.symbol = b.symbol ∧ (a.side = .buy ∧ b.side = .sell ∨ a.side = .sell ∧ b.side = .buy)

instance (a b : Order) : Decidable (a.Opposes b) := by unfold Order.Opposes; infer_instance

theorem Order.Opposes.symm {a b : Order} (h : a.Opposes b) : b.Opposes a :=
  ⟨h.1.symm, h.2.symm.imp And.symm And.symm⟩

theorem Order.not_opposes_self (a : Order) : ¬ a.Opposes a := by
  rintro ⟨-, ⟨hbuy, hsell⟩ | ⟨hsell, hbuy⟩⟩ <;> rw [hbuy] at hsell <;> cases hsell

theorem Order.opposes_congr {a a' : Order} (h : a'.ident = a.ident) (b : Order) :
    a'.Opposes b ↔ a.Opposes b := by
  have hsymbol : a'.symbol = a.symbol := congrArg OrderIdent.symbol h
  have hside : a'.side = a.side := congrArg OrderIdent.side h
  rw [Order.Opposes, Order.Opposes, hsymbol, hside]

namespace Store

/-- No two open orders oppose each other. -/
def Uncrossed (s : Store) : Prop :=
  ∀ x y a b, s.orders.lookup x = some a → s.orders.lookup y = some b →
    a.status.isOpen = true → b.status.isOpen = true → ¬ a.Opposes b

/-- No open order opposes this one. -/
def Unopposed (s : Store) (order : Order) : Prop :=
  ∀ y b, s.orders.lookup y = some b → b.status.isOpen = true → ¬ order.Opposes b

theorem newStore_uncrossed : newStore.Uncrossed := by
  intro x y a b ha
  simp [newStore] at ha

/-- What it says of two orders. -/
def crossedAt (s : Store) (x y : OrderID) : Bool :=
  match s.orders.lookup x, s.orders.lookup y with
  | some a, some b => a.status.isOpen && b.status.isOpen && decide (a.Opposes b)
  | _, _ => false

theorem Uncrossed.crossedAt_eq_false {s : Store} (h : s.Uncrossed) (x y : OrderID) :
    s.crossedAt x y = false := by
  unfold crossedAt
  split
  · rename_i a b ha hb
    by_contra hcrossed
    simp only [Bool.not_eq_false, Bool.and_eq_true, decide_eq_true_eq] at hcrossed
    exact h x y a b ha hb hcrossed.1.1 hcrossed.1.2 hcrossed.2
  · rfl

end Store

/-! ## The condition on the state a call finds -/

/-- A call that opens an order finds no open order opposing it: a reservation
that takes its key; and a message that reopens a closed order. -/
def Op.OpensAlone (s : Store) : Op → Prop
  | .reserveOrder o => s.idempotency.lookup o.idempotencyKey = none → s.Unopposed o
  | .markOrderSent id _ | .markOrderAck id _ => ∀ o, s.orders.lookup id = some o →
    o.status.isOpen = false → s.Unopposed o
  | .applyExternalFill id fill _ => ∀ o, s.orders.lookup (s.resolve id) = some o →
    o.status.isOpen = false → o.filled + fill.quantity < o.size → s.Unopposed o
  | _ => True

/-! ## One write -/

section Write

variable {s s' : Store}

/-- A written order crosses nothing exactly if it is closed or unopposed by the others. -/
theorem uncrossed_write {w : Order} (hs : s.Uncrossed)
    (h : s'.orders = Store.writeOrder (some w) s.orders) :
    s'.Uncrossed ↔ (w.status.isOpen = true → ∀ y b, y ≠ w.id → s.orders.lookup y = some b →
      b.status.isOpen = true → ¬ w.Opposes b) := by
  have hlook : ∀ x, s'.orders.lookup x = if x = w.id then some w else s.orders.lookup x := by
    intro x
    rw [h, Store.lookup_writeOrder_some]
  constructor
  · intro hs' hopen y b hy hb hb'
    refine hs' w.id y w b ?_ ?_ hopen hb'
    · rw [hlook, if_pos rfl]
    · rw [hlook, if_neg hy, hb]
  · intro hw x y a b ha hb hopena hopenb hopp
    rw [hlook] at ha hb
    by_cases hx : x = w.id
    · rw [if_pos hx] at ha
      obtain rfl := Option.some.inj ha
      by_cases hy : y = w.id
      · rw [if_pos hy] at hb
        obtain rfl := Option.some.inj hb
        exact Order.not_opposes_self _ hopp
      · rw [if_neg hy] at hb
        exact hw hopena y b hy hb hopenb hopp
    · rw [if_neg hx] at ha
      by_cases hy : y = w.id
      · rw [if_pos hy] at hb
        obtain rfl := Option.some.inj hb
        exact hw hopenb x a hx ha hopena hopp.symm
      · rw [if_neg hy] at hb
        exact hs x y a b ha hb hopena hopenb hopp

theorem uncrossed_same (hs : s.Uncrossed) (h : s'.orders = s.orders) : s'.Uncrossed := by
  unfold Store.Uncrossed at hs ⊢
  rwa [h]

/-- A new order crosses nothing exactly if it is closed or unopposed. -/
theorem uncrossed_fresh {w : Order} (hs : s.Uncrossed) (hfresh : s.orders.lookup w.id = none)
    (h : s'.orders = Store.writeOrder (some w) s.orders) :
    s'.Uncrossed ↔ (w.status.isOpen = true → s.Unopposed w) := by
  rw [uncrossed_write hs h]
  refine imp_congr_right fun _ => ⟨fun hw y b hb => ?_, fun hw y b _ => hw y b⟩
  have hy : y ≠ w.id := by
    rintro rfl
    rw [hfresh] at hb
    cases hb
  exact hw y b hy hb

/-- An amended order crosses nothing exactly if the amendment does not reopen
an order that is opposed. -/
theorem uncrossed_amend (hwf : s.WellFormed) (hs : s.Uncrossed) (id : OrderID) (f : Order → Order)
    (hf : ∀ o, (f o).ident = o.ident)
    (h : s'.orders = Store.writeOrder ((s.orders.lookup id).map f) s.orders) :
    s'.Uncrossed ↔ ∀ o, s.orders.lookup id = some o → o.status.isOpen = false →
      (f o).status.isOpen = true → s.Unopposed o := by
  cases hstored : s.orders.lookup id with
  | none =>
    rw [hstored] at h
    simpa using uncrossed_same hs h
  | some o =>
    rw [hstored] at h
    have hid : (f o).id = id := (Order.id_eq_of_ident (hf o)).trans (hwf.stored id o hstored)
    simp only [uncrossed_write hs h, hid, Order.opposes_congr (hf o), Option.some.injEq,
      forall_eq']
    constructor
    · intro hw hclosed hopen y b hb hb'
      have hy : y ≠ id := by
        rintro rfl
        rw [hstored] at hb
        rw [← Option.some.inj hb, hclosed] at hb'
        cases hb'
      exact hw hopen y b hy hb hb'
    · intro hw hopen y b _ hb hb'
      cases hold : o.status.isOpen with
      | true => exact hs id y o b hstored hb hold hb'
      | false => exact hw hold hopen y b hb hb'

/-- An amendment that leaves the status alone, or closes the order. -/
theorem uncrossed_closing (hwf : s.WellFormed) (hs : s.Uncrossed) (id : OrderID) (f : Order → Order)
    (hf : ∀ o, (f o).ident = o.ident)
    (hopens : ∀ o, (f o).status.isOpen = true → o.status.isOpen = true)
    (h : s'.orders = Store.writeOrder ((s.orders.lookup id).map f) s.orders) : s'.Uncrossed := by
  refine (uncrossed_amend hwf hs id f hf h).mpr fun o _ hclosed hopen => ?_
  rw [hopens o hopen] at hclosed
  cases hclosed

theorem isOpen_fillOrder (now : Time) (fill : FillLedgerEntry) (event : ExecutionEvent)
    (o : Order) : (Store.fillOrder now fill event o).status.isOpen = true ↔
      o.filled + fill.quantity < o.size := by
  simp only [Store.fillOrder]
  split
  · simpa [OrderStatus.isOpen] using ‹_›
  · simpa [OrderStatus.isOpen] using not_le.mp ‹_›

end Write

/-! ## One call -/

section Call

variable {env : Env} {tr : List PlaneEntry} {gs : List Local} {p p' : Plane} {i : Nat} {g : Local}
  {o : Op} {r : Res o}

/-- An allowed call leaves an uncrossed store uncrossed exactly when it opens alone. -/
theorem uncrossed_step (hinv : GatewayInv tr gs p) (hg : gs[i]? = some g) (hallowed : g.allowed o)
    (hsem : sem env o p r p') (hs : p.store.Uncrossed) :
    p'.store.Uncrossed ↔ o.OpensAlone p.store := by
  have hwf := hinv.wellFormed
  obtain ⟨now, horders⟩ := sem_orders hsem
  cases o with
  | reserveOrder order =>
    have hfresh : p.store.orders.lookup order.id = none :=
      GoMap.lookup_none_of_notMem (hinv.minted i g hg order.id hallowed.2.1).2
    simp only [Op.written] at horders
    split at horders
    · rename_i hfree
      have hwrite : p'.store.Uncrossed ↔ _ :=
        uncrossed_fresh (w := Store.reservedOrder now order) hs hfresh horders
      exact hwrite.trans ⟨fun h _ => h rfl, fun h _ => h hfree⟩
    · rename_i holder htaken
      refine iff_of_true (uncrossed_same hs horders) fun hfree => ?_
      rw [htaken] at hfree
      cases hfree
  | updateOrder copy =>
    -- the copy is marked REJECTED, so nothing is opened
    refine iff_of_true ((uncrossed_write hs horders).mpr fun hopen => ?_) trivial
    rw [show (Store.updatedOrder now copy).status = .rejected from hallowed.1] at hopen
    cases hopen
  | markOrderSent id t =>
    rw [uncrossed_amend hwf hs id (Store.sentOrder now t) (fun _ => rfl) horders]
    exact forall₃_congr fun _ _ _ => ⟨fun h => h rfl, fun h _ => h⟩
  | markOrderAck id t =>
    rw [uncrossed_amend hwf hs id (Store.ackedOrder now t) (fun _ => rfl) horders]
    exact forall₃_congr fun _ _ _ => ⟨fun h => h rfl, fun h _ => h⟩
  | cancelOrder id reason t =>
    refine iff_of_true (uncrossed_closing hwf hs id (Store.canceledOrder now reason t)
      (fun _ => rfl) (fun _ h => ?_) horders) trivial
    cases h
  | applyExternalFill id fill event =>
    rw [uncrossed_amend hwf hs _ (Store.fillOrder now fill event) (fun _ => rfl) horders]
    simp only [isOpen_fillOrder]
    rfl
  | bindExchangeOrderID id x =>
    exact iff_of_true (uncrossed_closing hwf hs id (Store.boundOrder now x) (fun _ => rfl)
      (fun _ h => h) horders) trivial
  | replaceOrderPrice id price =>
    refine iff_of_true ?_ trivial
    cases hw : (Op.replaceOrderPrice id price).written now p.store with
    | none => rw [hw] at horders; exact uncrossed_same hs horders
    | some w =>
      obtain ⟨stored, hstored, hterminal⟩ := Option.bind_eq_some_iff.mp hw
      split at hterminal
      · cases hterminal
      · refine uncrossed_closing hwf hs id (Store.repricedOrder now price) (fun _ => rfl)
          (fun _ h => h) ?_
        rw [horders, hw, ← Option.some.inj hterminal, hstored]
        rfl
  | _ => exact iff_of_true (uncrossed_same hs horders) trivial

end Call

/-! ## Runs -/

/-- The call is a `ReserveOrder`. -/
def PlaneEntry.isReserve (e : PlaneEntry) : Bool :=
  match e.event with
  | ⟨.reserveOrder _, _⟩ => true
  | _ => false

/-- Every `Submit` has performed its `ReserveOrder`, or has returned. -/
def AllReserved (tr : List PlaneEntry) (c : PlaneConfig) : Prop :=
  ∀ (i : Nat) t req, c.threads[i]? = some t → t.job = .submit req →
    (∃ result, t.prog = .ret result) ∨ ∃ e ∈ tr, e.tid = i ∧ PlaneEntry.isReserve e = true

/-- In every run, every state reached is uncrossed exactly if every call that
opens an order opens it alone; the last state is one of them. -/
theorem uncrossed_iff_opensAlone {env : Env} {p₀ : Plane} {tr : List PlaneEntry} {c : PlaneConfig}
    (hwf : p₀.store.WellFormed) (h0 : p₀.store.Uncrossed) (hrun : PlaneRun env p₀ tr c) :
    ((∀ e ∈ tr, e.post.store.Uncrossed) ↔ ∀ e ∈ tr, e.event.1.OpensAlone e.pre.store) ∧
      ((∀ e ∈ tr, e.event.1.OpensAlone e.pre.store) → c.shared.store.Uncrossed) := by
  have hstep : ∀ pre e post, tr = pre ++ e :: post → e.pre.store.Uncrossed →
      (e.post.store.Uncrossed ↔ e.event.1.OpensAlone e.pre.store) := by
    intro pre e post hsplit hs
    obtain ⟨gs, g, hg⟩ := Discipline.guaranteed (gatewayInvariant env hwf) hrun pre e post hsplit
    exact uncrossed_step hg.before.1 hg.ghost hg.allowed hg.sem hs
  have hmem : ∀ {pre e post}, tr = pre ++ e :: post → e ∈ tr := fun hsplit =>
    hsplit ▸ List.mem_append_right _ List.mem_cons_self
  have halone (h : ∀ e ∈ tr, e.event.1.OpensAlone e.pre.store) :=
    Run.induct_trace (fun _ p => p.store.Uncrossed) h0 hrun
      fun pre e post hsplit hs => (hstep pre e post hsplit hs).mpr (h e (hmem hsplit))
  refine ⟨⟨fun hposts e he => ?_, fun h e he => ?_⟩, fun h => (halone h).1⟩
  · obtain ⟨pre, post, hsplit⟩ := List.append_of_mem he
    have hpre := ((Run.induct_trace (fun _ p => p.store.Uncrossed) h0 hrun
      fun _ e _ hsplit _ => hposts e (hmem hsplit)).2 pre e post hsplit).1
    exact (hstep pre e post hsplit hpre).mp (hposts e he)
  · obtain ⟨pre, post, hsplit⟩ := List.append_of_mem he
    exact ((halone h).2 pre e post hsplit).2

/-- The opposite request, under a key of its own. -/
def Desk.opposite : ExecutionRequest :=
  { Desk.request with idempotencyKey := "cid-2", side := .sell }

/-- Both requests list the open orders before either is reserved. -/
def scanScan : List Command :=
  [.start (.submit Desk.request), .start (.submit Desk.opposite), .run 0 3 (Desk.acked "id-1"),
    .run 1 3 (Desk.acked "id-2"), .run 0 3 (Desk.acked "id-1"), .run 1 3 (Desk.acked "id-2")]

theorem scanScan_admissible : ∀ command ∈ scanScan, command.Admissible Desk.env := by
  simp only [scanScan, List.forall_mem_cons]
  exact ⟨trivial, trivial, Desk.acked_admissible _ _ _, Desk.acked_admissible _ _ _,
    Desk.acked_admissible _ _ _, Desk.acked_admissible _ _ _, by simp⟩

theorem scanScan_reserved : AllReserved (schedule Desk.env Desk.plane scanScan).1
    (schedule Desk.env Desk.plane scanScan).2 := by
  intro i t req hi _
  have hlen : (schedule Desk.env Desk.plane scanScan).2.threads.length = 2 := by decide +kernel
  have hall : ∀ j < 2, (schedule Desk.env Desk.plane scanScan).1.any
      (fun e => decide (e.tid = j) && PlaneEntry.isReserve e) = true := by decide +kernel
  have hlt : i < 2 := hlen ▸ (List.getElem?_eq_some_iff.mp hi).1
  obtain ⟨e, he, hres⟩ := List.any_eq_true.mp (hall i hlt)
  rw [Bool.and_eq_true, decide_eq_true_eq] at hres
  exact Or.inr ⟨e, he, hres⟩

/-- Both orders end up reserved, neither having seen the other. -/
theorem both_sides_reserved : ¬ ∀ tr c, PlaneRun Desk.env Desk.plane tr c → AllReserved tr c →
    c.shared.store.Uncrossed := by
  intro h
  have huncrossed := h _ _ (schedule_run scanScan_admissible) scanScan_reserved
  exact absurd (huncrossed.crossedAt_eq_false "id-1" "id-2") (by decide +kernel)

/-- The same interleaving, seen through the general theorem. -/
theorem uncrossed_iff_opensAlone_scanScan :
    ((∀ e ∈ (schedule Desk.env Desk.plane scanScan).1, e.post.store.Uncrossed) ↔
      ∀ e ∈ (schedule Desk.env Desk.plane scanScan).1, e.event.1.OpensAlone e.pre.store) ∧
      ((∀ e ∈ (schedule Desk.env Desk.plane scanScan).1, e.event.1.OpensAlone e.pre.store) →
        (schedule Desk.env Desk.plane scanScan).2.shared.store.Uncrossed) :=
  uncrossed_iff_opensAlone Desk.plane_wellFormed Store.newStore_uncrossed
    (schedule_run scanScan_admissible)

end RealTimeTrading.ControlPlane
