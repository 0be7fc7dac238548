/-
RealTimeTrading.ControlPlane.FillSums — the filled quantity of an order
against the fills applied to it.

`Submit` and the REJECTED branch of `applyStep` write back a copy of the
order they took some calls earlier. What that costs is exact: the filled
quantities agree with the fills in every state of a run if and only if no
`UpdateOrder` comes after a fill its copy has not seen.
-/
import RealTimeTrading.ControlPlane.Invariant
import RealTimeTrading.ControlPlane.Schedule

namespace RealTimeTrading.ControlPlane

open RealTimeTrading.Concurrency

/-! ## Reading fills off a trace -/

namespace PlaneEntry

/-- The order a successful reservation stored. -/
def reserves (e : PlaneEntry) : Option OrderID :=
  match e.event with
  | ⟨.reserveOrder order, (_, false, _)⟩ => some order.id
  | _ => none

/-- The quantity `ApplyExternalFill` applied to order `id` in this call. -/
def fillOf (id : OrderID) (e : PlaneEntry) : ℚ :=
  match e.event with
  | ⟨.applyExternalFill _ fill _, (order, _, none)⟩ => if order.id = id then fill.quantity else 0
  | _ => 0

end PlaneEntry

/-- The orders created by `Submit`. -/
def created (tr : List PlaneEntry) : List OrderID := tr.filterMap PlaneEntry.reserves

def appliedQty (tr : List PlaneEntry) (id : OrderID) : ℚ := (tr.map (PlaneEntry.fillOf id)).sum

/-- The filled quantity of every created order is the sum of its fills. -/
def FillsAccounted (tr : List PlaneEntry) (s : Store) : Prop :=
  ∀ id ∈ created tr, ∃ o, s.orders.lookup id = some o ∧ o.filled = appliedQty tr id

/-- If the call writes back a copy of a created order, no fill has landed on
the order since the copy was taken. -/
def WritesCurrent (tr : List PlaneEntry) (e : PlaneEntry) : Prop :=
  ∀ copy, e.event.1 = .updateOrder copy → copy.id ∈ created tr →
    ∀ o, e.pre.store.orders.lookup copy.id = some o → copy.filled = o.filled

@[simp] theorem created_concat (tr : List PlaneEntry) (e : PlaneEntry) :
    created (tr ++ [e]) = created tr ++ (PlaneEntry.reserves e).toList := by
  rw [created, List.filterMap_append]
  cases he : PlaneEntry.reserves e <;> simp [created, he]

@[simp] theorem appliedQty_concat (tr : List PlaneEntry) (e : PlaneEntry) (id : OrderID) :
    appliedQty (tr ++ [e]) id = appliedQty tr id + PlaneEntry.fillOf id e := by
  simp [appliedQty]

/-! ## One call -/

section Call

variable {env : Env} {tr : List PlaneEntry} {gs : List Local} {p p' : Plane} {i : Nat} {g : Local}
  {o : Op} {r : Res o}

theorem fillOf_eq_zero {id : OrderID} (hne : ∀ x fill event, o ≠ .applyExternalFill x fill event) :
    PlaneEntry.fillOf id ⟨i, p, ⟨o, r⟩, p'⟩ = 0 := by
  cases o with
  | applyExternalFill x fill event => exact absurd rfl (hne x fill event)
  | _ => rfl

/-- A stored order other than one that is written back keeps its filled
quantity, but for the fill the call applies to it. -/
theorem filled_step (hwf : p.store.WellFormed) (hsem : sem env o p r p') {x : OrderID}
    {old new : Order} (hold : p.store.orders.lookup x = some old)
    (hnew : p'.store.orders.lookup x = some new)
    (hfresh : ∀ order, o = .reserveOrder order → order.id ∉ p.store.orders)
    (hupdate : ∀ copy, o = .updateOrder copy → copy.id ≠ x) :
    new.filled = old.filled + PlaneEntry.fillOf x ⟨i, p, ⟨o, r⟩, p'⟩ := by
  by_cases hfill : ∃ y fill event, o = .applyExternalFill y fill event
  · obtain ⟨y, fill, event, rfl⟩ := hfill
    obtain ⟨order, pos, err⟩ := r
    rcases sem_applyExternalFill hsem with ⟨herr, rfl⟩ | ⟨herr, now, stored, hs, horder, hp'⟩
    · obtain ⟨err, rfl⟩ := Option.ne_none_iff_exists'.mp herr
      obtain rfl := Option.some.inj (hold.symm.trans hnew)
      simp [PlaneEntry.fillOf]
    · obtain rfl : err = none := herr
      obtain rfl : order = Store.fillOrder now fill event stored := horder
      have hid : (Store.fillOrder now fill event stored).id = p.store.resolve y :=
        hwf.stored _ stored hs
      rw [hp', GoMap.lookup_insert_ite] at hnew
      simp only [PlaneEntry.fillOf]
      by_cases hx : x = (Store.fillOrder now fill event stored).id
      · rw [if_pos hx] at hnew
        rw [if_pos hx.symm, ← Option.some.inj hnew]
        rw [hx, hid, hs] at hold
        rw [← Option.some.inj hold]
        rfl
      · rw [if_neg hx, hold] at hnew
        rw [if_neg (Ne.symm hx), Option.some.inj hnew, add_zero]
  · have hne : ∀ y fill event, o ≠ .applyExternalFill y fill event :=
      fun y fill event h => hfill ⟨y, fill, event, h⟩
    rw [fillOf_eq_zero hne, add_zero]
    obtain ⟨now, horders⟩ := sem_orders hsem
    cases hw : o.written now p.store with
    | none =>
      rw [horders, hw, Store.writeOrder_none, hold] at hnew
      rw [Option.some.inj hnew]
    | some w =>
      rw [horders, hw, Store.lookup_writeOrder_some] at hnew
      by_cases hx : x = w.id
      · rw [if_pos hx] at hnew
        rw [← Option.some.inj hnew]
        rcases written_cases hw with ⟨order, rfl, -, rfl⟩ | ⟨copy, rfl, rfl⟩ |
          ⟨id, stored, hs, hi, hkept⟩
        · rw [hx] at hold
          exact absurd ((GoMap.mem_iff_lookup _ _).mpr ⟨old, hold⟩) (hfresh order rfl)
        · exact absurd hx.symm (hupdate copy rfl)
        · have hid : id = x := by rw [← hwf.stored id stored hs, hx, Order.id_eq_of_ident hi]
          rw [hid, hold] at hs
          rw [hkept hne, Option.some.inj hs]
      · rw [if_neg hx, hold] at hnew
        rw [Option.some.inj hnew]

/-- Nothing was applied to an order that is not stored. -/
def NoStrayFills (tr : List PlaneEntry) (s : Store) : Prop :=
  ∀ id, id ∉ s.orders → appliedQty tr id = 0

theorem noStrayFills_step (hinv : GatewayInv tr gs p) (hg : gs[i]? = some g)
    (hallowed : g.allowed o) (hsem : sem env o p r p') (h : NoStrayFills tr p.store) :
    NoStrayFills (tr ++ [⟨i, p, ⟨o, r⟩, p'⟩]) p'.store := by
  intro id hid
  have hbefore : id ∉ p.store.orders := by
    intro hmem
    obtain ⟨old, hold⟩ := (GoMap.mem_iff_lookup _ _).mp hmem
    obtain ⟨new, hnew, -⟩ := ident_step hinv hg hallowed hsem hold
    exact hid ((GoMap.mem_iff_lookup _ _).mpr ⟨new, hnew⟩)
  rw [appliedQty_concat, h id hbefore, zero_add]
  by_cases hfill : ∃ y fill event, o = .applyExternalFill y fill event
  · obtain ⟨y, fill, event, rfl⟩ := hfill
    obtain ⟨order, pos, _ | err⟩ := r
    · rcases sem_applyExternalFill hsem with ⟨herr, -⟩ | ⟨-, now, stored, hs, -, hp'⟩
      · exact absurd rfl herr
      · have hne : order.id ≠ id := by
          rintro rfl
          rw [hp'] at hid
          exact hid ((AList.mem_insert _).mpr (Or.inl rfl))
        simp [PlaneEntry.fillOf, hne]
    · rfl
  · exact fillOf_eq_zero fun y fill event h => hfill ⟨y, fill, event, h⟩

/-- A call keeps the fills accounted for exactly when it writes back nothing stale. -/
theorem fillsAccounted_step (hinv : GatewayInv tr gs p) (hg : gs[i]? = some g)
    (hallowed : g.allowed o) (hsem : sem env o p r p') (hstray : NoStrayFills tr p.store)
    (h : FillsAccounted tr p.store) :
    FillsAccounted (tr ++ [⟨i, p, ⟨o, r⟩, p'⟩]) p'.store ↔
      WritesCurrent tr ⟨i, p, ⟨o, r⟩, p'⟩ := by
  have hfresh : ∀ order, o = .reserveOrder order → order.id ∉ p.store.orders := by
    rintro order rfl
    exact (hinv.minted i g hg order.id hallowed.2.1).2
  -- what is stored after a write-back is the copy
  have hwritten : ∀ copy, o = .updateOrder copy →
      ∃ new, p'.store.orders.lookup copy.id = some new ∧ new.filled = copy.filled := by
    rintro copy rfl
    obtain ⟨now, horders⟩ := sem_orders hsem
    refine ⟨Store.updatedOrder now copy, ?_, rfl⟩
    rw [horders]
    exact (Store.lookup_writeOrder_some _ _ _).trans (if_pos rfl)
  constructor
  · intro hafter copy hcopy hcreated old hold
    obtain rfl : o = .updateOrder copy := hcopy
    obtain ⟨new, hnew, hfilled⟩ := hwritten copy rfl
    obtain ⟨old', hold', hbefore⟩ := h copy.id hcreated
    obtain ⟨new', hnew', hnow⟩ := hafter copy.id (by
      rw [created_concat]; exact List.mem_append_left _ hcreated)
    have hzero : PlaneEntry.fillOf copy.id ⟨i, p, ⟨.updateOrder copy, r⟩, p'⟩ = 0 :=
      fillOf_eq_zero (by simp)
    obtain rfl := Option.some.inj (hnew.symm.trans hnew')
    obtain rfl := Option.some.inj (hold'.symm.trans hold)
    rw [← hfilled, hnow, hbefore, appliedQty_concat, hzero, add_zero]
  · intro hcurrent id hid
    rw [created_concat] at hid
    rcases List.mem_append.mp hid with hmem | hid
    · obtain ⟨old, hold, hbefore⟩ := h id hmem
      obtain ⟨new, hnew, -⟩ := ident_step hinv hg hallowed hsem hold
      refine ⟨new, hnew, ?_⟩
      rw [appliedQty_concat, ← hbefore]
      by_cases hupdate : ∃ copy, o = .updateOrder copy ∧ copy.id = id
      · obtain ⟨copy, rfl, rfl⟩ := hupdate
        obtain ⟨new', hnew', hfilled⟩ := hwritten copy rfl
        obtain rfl := Option.some.inj (hnew'.symm.trans hnew)
        rw [hfilled, fillOf_eq_zero (by simp), add_zero]
        exact hcurrent copy rfl hmem old hold
      · exact filled_step hinv.wellFormed hsem hold hnew hfresh
          fun copy hcopy hcopyid => hupdate ⟨copy, hcopy, hcopyid⟩
    · -- the reservation just made
      cases o with
      | reserveOrder order =>
        rcases sem_reserveOrder hsem with ⟨_, -, rfl, -⟩ | ⟨-, now, rfl, hp', -⟩
        · simp [PlaneEntry.reserves] at hid
        · obtain rfl : id = order.id := by simpa [PlaneEntry.reserves] using hid
          refine ⟨Store.reservedOrder now order, by rw [hp', AList.lookup_insert], ?_⟩
          rw [appliedQty_concat, fillOf_eq_zero (by simp), add_zero, hstray _ (hfresh order rfl)]
          exact hallowed.2.2.1
      | _ => simp [PlaneEntry.reserves] at hid

end Call

/-! ## Runs -/

/-- In every run: the filled quantity of every order created by `Submit` is
the sum of the fills applied to it, in every state reached, if and only if no
`UpdateOrder` of the run writes back a copy that misses a fill. -/
theorem fillsAccounted_iff {env : Env} {p₀ : Plane} {tr : List PlaneEntry} {c : PlaneConfig}
    (hwf : p₀.store.WellFormed) (hrun : PlaneRun env p₀ tr c) :
    (∀ pre e post, tr = pre ++ e :: post → FillsAccounted (pre ++ [e]) e.post.store) ↔
      ∀ pre e post, tr = pre ++ e :: post → WritesCurrent pre e := by
  have hguaranteed := Discipline.guaranteed (gatewayInvariant env hwf) hrun
  have hstray := (Run.induct_trace (fun tr p => NoStrayFills tr p.store) (fun _ _ => rfl) hrun
    fun pre e post hsplit hbefore => by
      obtain ⟨gs, g, hg⟩ := hguaranteed pre e post hsplit
      exact noStrayFills_step hg.before.1 hg.ghost hg.allowed hg.sem hbefore).2
  have hstep : ∀ pre e post, tr = pre ++ e :: post → FillsAccounted pre e.pre.store →
      (FillsAccounted (pre ++ [e]) e.post.store ↔ WritesCurrent pre e) := by
    intro pre e post hsplit hbefore
    obtain ⟨gs, g, hg⟩ := hguaranteed pre e post hsplit
    exact fillsAccounted_step hg.before.1 hg.ghost hg.allowed hg.sem
      (hstray pre e post hsplit).1 hbefore
  have h0 : FillsAccounted [] p₀.store := by simp [FillsAccounted, created]
  constructor
  · intro h
    have hall := (Run.induct_trace (fun tr p => FillsAccounted tr p.store) h0 hrun
      fun pre e post hsplit _ => h pre e post hsplit).2
    intro pre e post hsplit
    exact (hstep pre e post hsplit (hall pre e post hsplit).1).mp (h pre e post hsplit)
  · intro h
    have hall := (Run.induct_trace (fun tr p => FillsAccounted tr p.store) h0 hrun
      fun pre e post hsplit hbefore =>
        (hstep pre e post hsplit hbefore).mpr (h pre e post hsplit)).2
    exact fun pre e post hsplit => (hall pre e post hsplit).2

/-- The exchange fills the order, the stream reports it, and the answer to
`SendOrder` is lost. -/
def lostAnswer : List Command :=
  [.start (.submit Desk.request), .run 0 9 Desk.lost,
    .start (.applyAsyncUpdate Desk.filledUpdate), .run 1 9 Desk.lost, .run 0 5 Desk.lost]

theorem lostAnswer_admissible : ∀ command ∈ lostAnswer, command.Admissible Desk.env := by
  simp only [lostAnswer, List.forall_mem_cons]
  exact ⟨trivial, Desk.lost_admissible _ _, trivial, Desk.lost_admissible _ _,
    Desk.lost_admissible _ _, by simp⟩

/-- `Submit` writes its copy back and the fill is gone from the order. -/
theorem lost_answer_erases_fill : ¬ ∀ tr c, PlaneRun Desk.env Desk.plane tr c →
    FillsAccounted tr c.shared.store := by
  intro h
  obtain ⟨o, ho, hfilled⟩ := h _ _ (schedule_run lostAnswer_admissible) "id-1" (by decide +kernel)
  have hstored : ((schedule Desk.env Desk.plane lostAnswer).2.shared.store.orders.lookup
      "id-1").map (·.filled) = some 0 := by decide +kernel
  have happlied : appliedQty (schedule Desk.env Desk.plane lostAnswer).1 "id-1" = 1 := by
    decide +kernel
  rw [ho, Option.map_some, hfilled, happlied] at hstored
  exact absurd hstored (by decide)

/-- The same interleaving, seen through the general theorem. -/
theorem fillsAccounted_iff_lostAnswer :
    (∀ pre e post, (schedule Desk.env Desk.plane lostAnswer).1 = pre ++ e :: post →
      FillsAccounted (pre ++ [e]) e.post.store) ↔
    ∀ pre e post, (schedule Desk.env Desk.plane lostAnswer).1 = pre ++ e :: post →
      WritesCurrent pre e :=
  fillsAccounted_iff Desk.plane_wellFormed (schedule_run lostAnswer_admissible)

end RealTimeTrading.ControlPlane
