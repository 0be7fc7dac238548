/-
RealTimeTrading.ControlPlane.Invariant — the invariant of the running
control plane.

It ties the local state of every call to the store and to the trace:
copies a call holds keep the identity of the stored order, ids a call was
given are nobody else's, and for every idempotency key the sends so far
and the calls still holding a reservation number at most one, and none
while the key is free. `gatewayInv` is its proof, by `rely_guarantee`.
-/
import RealTimeTrading.ControlPlane.Protocol
import RealTimeTrading.Data.Sums

namespace RealTimeTrading.ControlPlane

open RealTimeTrading.Concurrency

/-! ## Reading a trace -/

namespace PlaneEntry

/-- The call is a risk evaluation that allowed its request. -/
def passes (e : PlaneEntry) : Bool :=
  match e.event with
  | ⟨.evaluate _, decision⟩ => decision.allowed
  | _ => false

def isSend (e : PlaneEntry) : Bool :=
  match e.event with
  | ⟨.sendOrder _, _⟩ => true
  | _ => false

/-- The call is a `SendOrder` of an order with this key. -/
def sendsKey (key : String) (e : PlaneEntry) : Bool :=
  match e.event with
  | ⟨.sendOrder order, _⟩ => decide (order.idempotencyKey = key)
  | _ => false

end PlaneEntry

/-- The number of `SendOrder` calls for a key. -/
def sends (key : String) (tr : List PlaneEntry) : Nat := tr.countP (PlaneEntry.sendsKey key)

/-- Whether a call holds an unsent reservation of a key. -/
def Local.holds (key : String) (g : Local) : Nat :=
  match g.phase with
  | .holding ident => if ident.idempotencyKey = key then 1 else 0
  | _ => 0

/-- One once the key is reserved. -/
def Store.grant (s : Store) (key : String) : Nat :=
  if (s.idempotency.lookup key).isSome then 1 else 0

/-- What the trace and the store say about the phase of the call of thread `i`. -/
def Witnessed (tr : List PlaneEntry) (p : Plane) (i : Nat) (g : Local) : Prop :=
  match g.phase with
  | .checking => ∀ e ∈ tr, e.tid = i → PlaneEntry.passes e = false
  | .passed => True
  | .holding ident => ∃ req, g.job = .submit req ∧ ident.For req
  | .sent => ∃ e ∈ tr, e.tid = i ∧ PlaneEntry.isSend e = true
  | .answered o => ∃ req, g.job = .submit req ∧
      p.store.idempotency.lookup req.idempotencyKey = some o.id ∧
      ∃ e ∈ tr, e.tid = i ∧ e.pre.store.orderByIdempotency req.idempotencyKey = some o

structure GatewayInv (tr : List PlaneEntry) (gs : List Local) (p : Plane) : Prop where
  wellFormed : p.store.WellFormed
  known : ∀ (i : Nat) g, gs[i]? = some g → ∀ ident ∈ g.known,
    (p.store.orders.lookup ident.id).map Order.ident = some ident
  minted : ∀ (i : Nat) g, gs[i]? = some g → ∀ id ∈ g.minted, id ∈ p.issued ∧ id ∉ p.store.orders
  apart : ∀ (i j : Nat) gi gj, gs[i]? = some gi → gs[j]? = some gj → i ≠ j →
    gi.minted.Disjoint gj.minted
  credit : ∀ key, sends key tr + (gs.map (Local.holds key)).sum ≤ p.store.grant key
  witnessed : ∀ (i : Nat) g, gs[i]? = some g → Witnessed tr p i g

/-! ## What an allowed call does to the orders -/

section Call

variable {env : Env} {tr : List PlaneEntry} {gs : List Local} {p p' : Plane} {i : Nat} {g : Local}
  {o : Op} {r : Res o}

/-- No call changes the identity of a stored order, or removes one. -/
theorem ident_step (hinv : GatewayInv tr gs p) (hg : gs[i]? = some g) (hallowed : g.allowed o)
    (hsem : sem env o p r p') {x : OrderID} {old : Order}
    (hx : p.store.orders.lookup x = some old) :
    ∃ new, p'.store.orders.lookup x = some new ∧ new.ident = old.ident := by
  obtain ⟨now, horders⟩ := sem_orders hsem
  rw [horders]
  cases hw : o.written now p.store with
  | none => exact ⟨old, hx, rfl⟩
  | some w =>
    rw [Store.lookup_writeOrder_some]
    by_cases hxw : x = w.id
    · refine ⟨w, if_pos hxw, ?_⟩
      rcases written_cases hw with ⟨order, rfl, -, rfl⟩ | ⟨order, rfl, rfl⟩ |
          ⟨id, stored, hs, hi, -⟩
      · -- the id of a new reservation is not stored yet
        have hfresh := (hinv.minted i g hg order.id hallowed.2.1).2
        rw [hxw] at hx
        exact absurd ((GoMap.mem_iff_lookup _ _).mpr ⟨old, hx⟩) hfresh
      · -- the copy was read from the store, and identities have not changed since
        have hknown := hinv.known i g hg _ hallowed.2
        rw [show order.ident.id = x from hxw.symm, hx] at hknown
        exact (Option.some.inj hknown).symm
      · have hid : id = x := by
          rw [← hinv.wellFormed.stored id stored hs, hxw, Order.id_eq_of_ident hi]
        rw [hid, hx] at hs
        rw [hi, Option.some.inj hs]
    · exact ⟨old, by rw [if_neg hxw]; exact hx, rfl⟩

/-- An order that appears was just reserved. -/
theorem mem_step (hinv : GatewayInv tr gs p) (hg : gs[i]? = some g) (hallowed : g.allowed o)
    (hsem : sem env o p r p') {x : OrderID} (hx : x ∈ p'.store.orders) :
    x ∈ p.store.orders ∨ ∃ order, o = .reserveOrder order ∧ x = order.id := by
  obtain ⟨now, horders⟩ := sem_orders hsem
  rw [horders] at hx
  cases hw : o.written now p.store with
  | none => rw [hw] at hx; exact Or.inl hx
  | some w =>
    rw [hw] at hx
    rcases (AList.mem_insert _).mp hx with rfl | hx
    · rcases written_cases hw with ⟨order, rfl, -, rfl⟩ | ⟨order, rfl, rfl⟩ |
          ⟨id, stored, hs, hi, -⟩
      · exact Or.inr ⟨order, rfl, rfl⟩
      · have hknown := hinv.known i g hg _ hallowed.2
        obtain ⟨stored, hs, -⟩ := Option.map_eq_some_iff.mp hknown
        exact Or.inl ((GoMap.mem_iff_lookup _ _).mpr ⟨stored, hs⟩)
      · have hid : id = w.id := by
          rw [← hinv.wellFormed.stored id stored hs, Order.id_eq_of_ident hi]
        exact Or.inl ((GoMap.mem_iff_lookup _ _).mpr ⟨stored, hid ▸ hs⟩)
    · exact Or.inl hx

/-- A reserved key keeps its order. -/
theorem reserved_step (hsem : sem env o p r p') {key : String} {id : OrderID}
    (hk : p.store.idempotency.lookup key = some id) :
    p'.store.idempotency.lookup key = some id := by
  by_cases hne : ∃ order, o = .reserveOrder order
  · obtain ⟨order, rfl⟩ := hne
    rcases sem_reserveOrder hsem with ⟨_, -, -, rfl⟩ | ⟨hfree, now, -, -, hp'⟩
    · exact hk
    · have hkey : key ≠ order.idempotencyKey := by
        rintro rfl
        rw [hk] at hfree
        cases hfree
      rw [hp', GoMap.lookup_insert_ite, if_neg hkey, hk]
  · rw [sem_idempotency hsem fun order h => hne ⟨order, h⟩, hk]

/-! ## What an allowed call does to its caller -/

/-- A copy the call learns is of a stored order. -/
theorem known_next (hinv : GatewayInv tr gs p) (hg : gs[i]? = some g) (hallowed : g.allowed o)
    (hsem : sem env o p r p') {ident : OrderIdent} (hident : ident ∈ (g.next o r).known) :
    (p'.store.orders.lookup ident.id).map Order.ident = some ident := by
  have hold : ∀ x ∈ g.known, (p'.store.orders.lookup x.id).map Order.ident = some x := by
    intro x hx
    obtain ⟨old, hlook, hold⟩ := Option.map_eq_some_iff.mp (hinv.known i g hg x hx)
    obtain ⟨new, hnew, hni⟩ := ident_step hinv hg hallowed hsem hlook
    rw [hnew, Option.map_some, hni, hold]
  cases o with
  | reserveOrder order =>
    rcases sem_reserveOrder hsem with ⟨id, -, rfl, rfl⟩ | ⟨-, now, rfl, hp', -⟩
    · exact hold _ hident
    · rcases List.mem_cons.mp hident with rfl | hx
      · rw [hp', Order.ident_id]
        simp [Store.reservedOrder, Order.ident, AList.lookup_insert]
      · exact hold _ hx
  | markOrderSent id t =>
    obtain ⟨sent, _ | err⟩ := r
    · obtain ⟨now, stored, hs, hsent⟩ := sem_markOrderSent hsem rfl
      obtain rfl : sent = Store.sentOrder now t stored := hsent
      rcases List.mem_cons.mp hident with rfl | hx
      · obtain ⟨new, hnew, hni⟩ := ident_step hinv hg hallowed hsem hs
        have hid : (Store.sentOrder now t stored).ident.id = id :=
          hinv.wellFormed.stored id stored hs
        rw [hid, hnew, Option.map_some, hni]
        rfl
      · exact hold _ hx
    · exact hold _ hident
  | order id =>
    cases r with
    | none => exact hold _ hident
    | some found =>
      rcases List.mem_cons.mp hident with rfl | hx
      · obtain ⟨hfound, rfl⟩ := hsem
        have hs : p'.store.orders.lookup id = some found := hfound.symm
        rw [Order.ident_id, hinv.wellFormed.stored id found hs, hs, Option.map_some]
      · exact hold _ hx
  | evaluate req =>
    refine hold _ ?_
    simp only [Local.next] at hident
    split at hident <;> exact hident
  | _ => exact hold _ hident

/-- An id the call still has is one it had, or a new one nobody was given before. -/
theorem minted_next (hsem : sem env o p r p') {id : OrderID} (hid : id ∈ (g.next o r).minted) :
    id ∈ g.minted ∨ (id ∉ p.issued ∧ id ∈ p'.issued ∧ id ∉ p'.store.orders ∧ id ≠ "") := by
  cases o with
  | newID =>
    obtain ⟨⟨hnamed, hissued, hstored, -⟩, rfl⟩ := hsem
    rcases List.mem_cons.mp hid with rfl | hid
    · exact Or.inr ⟨hissued, List.mem_cons_self, hstored, hnamed⟩
    · exact Or.inl hid
  | reserveOrder order =>
    obtain ⟨reserved, _ | _, err⟩ := r
    · exact Or.inl (List.mem_of_mem_filter hid)
    · exact Or.inl hid
  | markOrderSent _ _ => obtain ⟨sent, _ | err⟩ := r <;> exact Or.inl hid
  | order _ => cases r <;> exact Or.inl hid
  | evaluate req =>
    simp only [Local.next] at hid
    split at hid <;> exact Or.inl hid
  | _ => exact Or.inl hid

theorem issued_step (hsem : sem env o p r p') {id : OrderID} (hid : id ∈ p.issued) :
    id ∈ p'.issued := by
  by_cases ho : o = .newID
  · subst ho
    obtain ⟨-, rfl⟩ := hsem
    exact List.mem_cons_of_mem _ hid
  · rw [sem_issued hsem ho]; exact hid

/-- An id the caller still has is issued and not stored, also after the call. -/
theorem minted_step (hinv : GatewayInv tr gs p) (hg : gs[i]? = some g) (hallowed : g.allowed o)
    (hsem : sem env o p r p') {id : OrderID} (hid : id ∈ (g.next o r).minted) :
    id ∈ p'.issued ∧ id ∉ p'.store.orders := by
  rcases minted_next hsem hid with hold | ⟨-, hissued, hstored, -⟩
  · obtain ⟨hissued, hstored⟩ := hinv.minted i g hg id hold
    refine ⟨issued_step hsem hissued, fun hnow => ?_⟩
    rcases mem_step hinv hg hallowed hsem hnow with hnow | ⟨order, rfl, rfl⟩
    · exact hstored hnow
    · -- the call has just used the id up, or it lost the reservation
      rcases sem_reserveOrder hsem with ⟨_, -, -, rfl⟩ | ⟨-, now, rfl, -, -⟩
      · exact hstored hnow
      · simp [Local.next, Store.reservedOrder] at hid
  · exact ⟨hissued, hstored⟩

/-! ## Credit -/

theorem grant_step (hsem : sem env o p r p') (hne : ∀ order, o ≠ .reserveOrder order)
    (key : String) : p'.store.grant key = p.store.grant key := by
  rw [Store.grant, Store.grant, sem_idempotency hsem hne]

/-- What a call spends, what its caller then holds, and what was granted. -/
def Balanced (i : Nat) (g : Local) (o : Op) (p : Plane) (r : Res o) (p' : Plane) (key : String) :
    Prop :=
  (if PlaneEntry.sendsKey key ⟨i, p, ⟨o, r⟩, p'⟩ then 1 else 0) + (g.next o r).holds key +
    p.store.grant key ≤ g.holds key + p'.store.grant key

/-- A call that neither reserves nor sends, and keeps what its caller holds. -/
theorem balanced_kept (hsem : sem env o p r p') {key : String}
    (hne : ∀ order, o ≠ .reserveOrder order)
    (hsend : PlaneEntry.sendsKey key ⟨i, p, ⟨o, r⟩, p'⟩ = false)
    (hholds : (g.next o r).holds key = g.holds key) : Balanced i g o p r p' key := by
  rw [Balanced, hsend, hholds, grant_step hsem hne]
  simp

/-- A call never spends more than it held or was just granted. -/
theorem balanced (hallowed : g.allowed o) (hsem : sem env o p r p') (key : String) :
    Balanced i g o p r p' key := by
  cases o with
  | reserveOrder order =>
    have hphase : g.holds key = 0 := by simp only [Local.holds, hallowed.1]
    rcases sem_reserveOrder hsem with ⟨id, -, rfl, rfl⟩ | ⟨hfree, now, rfl, -, hp'⟩
    · simp [Balanced, PlaneEntry.sendsKey, Local.next, Local.holds]
    · by_cases hk : order.idempotencyKey = key
      · subst hk
        simp [Balanced, PlaneEntry.sendsKey, Local.next, Local.holds, Store.grant, hfree, hp',
          Order.ident, Store.reservedOrder]
      · have hk' : key ≠ order.idempotencyKey := fun h => hk h.symm
        simp [Balanced, PlaneEntry.sendsKey, Local.next, Local.holds, Store.grant, hp',
          Order.ident, Store.reservedOrder, hk, hk']
  | sendOrder order =>
    obtain ⟨-, rfl⟩ := hsem
    have hphase : g.holds key = if order.idempotencyKey = key then 1 else 0 := by
      have h : g.phase = .holding order.ident := hallowed
      simp [Local.holds, h, Order.ident]
    rw [Balanced, hphase]
    by_cases hk : order.idempotencyKey = key <;>
      simp [PlaneEntry.sendsKey, Local.next, Local.holds, hk]
  | evaluate req =>
    have h : g.phase = .checking := hallowed.2
    refine balanced_kept hsem (by simp) rfl ?_
    simp only [Local.next]
    split <;> simp [Local.holds, h]
  | markOrderSent id t =>
    refine balanced_kept hsem (by simp) rfl ?_
    obtain ⟨sent, _ | err⟩ := r <;> rfl
  | order id =>
    refine balanced_kept hsem (by simp) rfl ?_
    cases r <;> rfl
  | _ => exact balanced_kept hsem (by simp) rfl rfl

/-! ## The phases -/

/-- A call of another thread, or one that does not pass the risk check, leaves
a thread's phase witnessed. -/
theorem Witnessed.frame {e : PlaneEntry} (h : Witnessed tr p i g) {g' : Local}
    (hjob : g'.job = g.job) (hphase : g'.phase = g.phase)
    (hpass : e.tid = i → PlaneEntry.passes e = false)
    (hreserved : ∀ key id, p.store.idempotency.lookup key = some id →
      p'.store.idempotency.lookup key = some id) : Witnessed (tr ++ [e]) p' i g' := by
  unfold Witnessed at h ⊢
  rw [hphase, hjob]
  cases hg : g.phase with
  | checking =>
    rw [hg] at h
    intro e' he'
    rcases List.mem_append.mp he' with he' | he'
    · exact h e' he'
    · rw [List.mem_singleton.mp he']; exact hpass
  | passed => trivial
  | holding ident => rw [hg] at h; exact h
  | sent =>
    rw [hg] at h
    obtain ⟨e', he', hsent⟩ := h
    exact ⟨e', List.mem_append_left _ he', hsent⟩
  | answered o =>
    rw [hg] at h
    obtain ⟨req, hreq, hk, e', he', hread⟩ := h
    exact ⟨req, hreq, hreserved _ _ hk, e', List.mem_append_left _ he', hread⟩

/-- The caller's own phase is witnessed after its call. -/
theorem witnessed_next (hinv : GatewayInv tr gs p) (hg : gs[i]? = some g) (hallowed : g.allowed o)
    (hsem : sem env o p r p') : Witnessed (tr ++ [⟨i, p, ⟨o, r⟩, p'⟩]) p' i (g.next o r) := by
  have hold := hinv.witnessed i g hg
  have hreserved : ∀ key id, p.store.idempotency.lookup key = some id →
      p'.store.idempotency.lookup key = some id := fun _ _ => reserved_step hsem
  cases o with
  | evaluate req =>
    simp only [Local.next]
    split
    · trivial
    · rename_i hrefused
      exact hold.frame rfl rfl (fun _ => by simpa [PlaneEntry.passes] using hrefused) hreserved
  | reserveOrder order =>
    obtain ⟨-, -, -, req, hjob, hfor⟩ := hallowed
    rcases sem_reserveOrder hsem with ⟨id, hk, rfl, rfl⟩ | ⟨hfree, now, rfl, -, hp'⟩
    · obtain ⟨o, ho⟩ := (GoMap.mem_iff_lookup _ _).mp (hinv.wellFormed.reserved _ id hk)
      have hkey : order.idempotencyKey = req.idempotencyKey := hfor.idempotencyKey
      rw [hkey] at hk
      have hread : p'.store.orderByIdempotency req.idempotencyKey = some o := by
        rw [Store.orderByIdempotency, hk, Option.bind_some, ho]
      refine ⟨req, hjob, ?_, _, List.mem_append_right _ (List.mem_singleton_self _), rfl, ?_⟩
      · rw [hk, ho, Option.getD_some, hinv.wellFormed.stored id o ho]
      · rw [ho, Option.getD_some]; exact hread
    · exact ⟨req, hjob, hfor⟩
  | sendOrder order => exact ⟨_, List.mem_append_right _ (List.mem_singleton_self _), rfl, rfl⟩
  | markOrderSent id t =>
    obtain ⟨sent, _ | err⟩ := r <;> exact hold.frame rfl rfl (fun _ => rfl) hreserved
  | order id => cases r <;> exact hold.frame rfl rfl (fun _ => rfl) hreserved
  | _ => exact hold.frame rfl rfl (fun _ => rfl) hreserved

/-- The store answers as the protocol relies on. -/
theorem returns_of_sem (hinv : GatewayInv tr gs p) (hg : gs[i]? = some g)
    (hsem : sem env o p r p') : g.returns o r := by
  cases o with
  | reserveOrder order =>
    rcases sem_reserveOrder hsem with ⟨id, -, rfl, -⟩ | ⟨-, now, rfl, -, -⟩
    · exact fun h => by cases h
    · exact fun _ => ⟨rfl, rfl⟩
  | markOrderSent id t =>
    intro hr
    obtain ⟨now, stored, hs, hsent⟩ := sem_markOrderSent hsem hr
    have hid := hinv.wellFormed.stored id stored hs
    refine ⟨by rw [hsent]; exact hid, fun ident hident hi => ?_⟩
    have hknown := hinv.known i g hg ident hident
    rw [hi, hs] at hknown
    rw [hsent]
    exact Option.some.inj hknown
  | order id =>
    intro o ho
    obtain ⟨hfound, -⟩ := hsem
    rw [ho] at hfound
    exact hinv.wellFormed.stored id o hfound.symm
  | _ => trivial

end Call

/-! ## The invariant -/

theorem gatewayInv_init {p₀ : Plane} (h : p₀.store.WellFormed) : GatewayInv [] [] p₀ where
  wellFormed := h
  known := by simp
  minted := by simp
  apart := by simp
  credit := by simp [sends]
  witnessed := by simp

theorem GatewayInv.start {tr : List PlaneEntry} {gs : List Local} {p : Plane}
    (h : GatewayInv tr gs p) (hnew : ∀ e ∈ tr, e.tid < gs.length) (j : Job) :
    GatewayInv tr (gs ++ [⟨j, [], [], .checking⟩]) p where
  wellFormed := h.wellFormed
  known i g hi := by
    rcases getElem?_concat_cases hi with ⟨-, rfl⟩ | hi
    · simp
    · exact h.known i g hi
  minted i g hi := by
    rcases getElem?_concat_cases hi with ⟨-, rfl⟩ | hi
    · simp
    · exact h.minted i g hi
  apart i j gi gj hi hj hij := by
    rcases getElem?_concat_cases hi with ⟨-, rfl⟩ | hi
    · simp
    · rcases getElem?_concat_cases hj with ⟨-, rfl⟩ | hj
      · simp
      · exact h.apart i j gi gj hi hj hij
  credit key := by simpa [Local.holds] using h.credit key
  witnessed i g hi := by
    rcases getElem?_concat_cases hi with ⟨rfl, rfl⟩ | hi
    · intro e he htid
      exact absurd (hnew e he) (by omega)
    · exact h.witnessed i g hi

theorem GatewayInv.step {env : Env} {tr : List PlaneEntry} {gs : List Local} {p p' : Plane}
    {i : Nat} {g : Local} {o : Op} {r : Res o} (h : GatewayInv tr gs p) (hg : gs[i]? = some g)
    (hallowed : g.allowed o) (hsem : sem env o p r p') :
    GatewayInv (tr ++ [⟨i, p, ⟨o, r⟩, p'⟩]) (gs.set i (g.next o r)) p' where
  wellFormed := sem_wellFormed hsem h.wellFormed
  known j gj hj ident hident := by
    rcases getElem?_set_cases hj with ⟨rfl, rfl⟩ | ⟨-, hj⟩
    · exact known_next h hg hallowed hsem hident
    · obtain ⟨old, hlook, hold⟩ := Option.map_eq_some_iff.mp (h.known j gj hj ident hident)
      obtain ⟨new, hnew, hni⟩ := ident_step h hg hallowed hsem hlook
      rw [hnew, Option.map_some, hni, hold]
  minted j gj hj id hid := by
    rcases getElem?_set_cases hj with ⟨rfl, rfl⟩ | ⟨hji, hj'⟩
    · exact minted_step h hg hallowed hsem hid
    · obtain ⟨hissued, hstored⟩ := h.minted j gj hj' id hid
      refine ⟨issued_step hsem hissued, fun hnow => ?_⟩
      rcases mem_step h hg hallowed hsem hnow with hnow | ⟨order, rfl, rfl⟩
      · exact hstored hnow
      · exact h.apart j i gj g hj' hg hji hid hallowed.2.1
  apart j k gj gk hj hk hjk := by
    have own : ∀ {l : Nat} {gl : Local}, l ≠ i → gs[l]? = some gl →
        (g.next o r).minted.Disjoint gl.minted := by
      intro l gl hli hl id hid hid'
      rcases minted_next hsem hid with hid | ⟨hissued, -, -⟩
      · exact h.apart i l g gl hg hl (Ne.symm hli) hid hid'
      · exact hissued (h.minted l gl hl id hid').1
    rcases getElem?_set_cases hj with ⟨rfl, rfl⟩ | ⟨hji, hj'⟩
    · rcases getElem?_set_cases hk with ⟨rfl, rfl⟩ | ⟨hki, hk'⟩
      · exact absurd rfl hjk
      · exact own hki hk'
    · rcases getElem?_set_cases hk with ⟨rfl, rfl⟩ | ⟨hki, hk'⟩
      · exact fun id hid hid' => own hji hj' hid' hid
      · exact h.apart j k gj gk hj' hk' hjk
  credit key := by
    have hbalanced : Balanced i g o p r p' key := balanced hallowed hsem key
    have hcredit := h.credit key
    have hsum := Data.sum_map_set (Local.holds key) gs hg (g.next o r)
    unfold Balanced at hbalanced
    have hsends : sends key (tr ++ [⟨i, p, ⟨o, r⟩, p'⟩]) = sends key tr +
        if PlaneEntry.sendsKey key ⟨i, p, ⟨o, r⟩, p'⟩ then 1 else 0 := by
      simp only [sends, List.countP_append, List.countP_singleton]
    rw [hsends]
    omega
  witnessed j gj hj := by
    rcases getElem?_set_cases hj with ⟨rfl, rfl⟩ | ⟨hji, hj⟩
    · exact witnessed_next h hg hallowed hsem
    · exact (h.witnessed j gj hj).frame rfl rfl (fun htid => absurd htid.symm hji)
        fun _ _ => reserved_step hsem

/-- The invariant with the bound on thread numbers that `start` needs. -/
theorem gatewayInvariant (env : Env) {p₀ : Plane} (h : p₀.store.WellFormed) :
    (discipline env).Invariant p₀
      (fun tr gs p => GatewayInv tr gs p ∧ ∀ e ∈ tr, e.tid < gs.length) where
  init := ⟨gatewayInv_init h, by simp⟩
  start tr gs p j hP := ⟨hP.1.start hP.2 j, fun e he => by
    rw [List.length_append]; have := hP.2 e he; omega⟩
  step tr gs p i g o r p' hP hg hallowed hsem := by
    refine ⟨returns_of_sem hP.1 hg hsem, hP.1.step hg hallowed hsem, fun e he => ?_⟩
    rw [List.length_set]
    rcases List.mem_append.mp he with he | he
    · exact hP.2 e he
    · rw [List.mem_singleton.mp he]; exact (List.getElem?_eq_some_iff.mp hg).1

end RealTimeTrading.ControlPlane
