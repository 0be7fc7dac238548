/-
RealTimeTrading.ControlPlane.Atomicity — `Cancel`, `Replace` and
`SwitchStrategy` either happen or leave the order alone.

`Cancel` asks the exchange before it touches the store, and asks nothing
about a finished order. `Replace` writes the new price first and asks
afterwards, whatever the order's status; `SwitchStrategy` inherits the
behaviour of whichever of the two it calls. `atomic_iff` draws the line.
-/
import RealTimeTrading.ControlPlane.Alone
import Mathlib.Tactic.Tauto

namespace RealTimeTrading.ControlPlane

open RealTimeTrading.Concurrency

/-! ## The three operations -/

namespace Job

/-- The order one of the three operations is about. -/
def target : Job → Option OrderID
  | .cancel orderID _ | .replace orderID _ | .switchStrategy orderID _ _ _ => some orderID
  | _ => none

/-- The operation goes through `Replace`. -/
def reprices : Job → Prop
  | .replace _ _ => True
  | .switchStrategy _ strategy price _ =>
    (strategy = "AGGRESSIVE" ∨ strategy = "DEFENSIVE" ∨ strategy = "PASSIVE") ∧ price.isSome = true
  | _ => False

end Job

/-- What is asked of an operation on an order that made these calls. -/
structure Atomic (id : OrderID) (p : Plane) (log : List (Event Op Res))
    (result : Order × Option Err) (p' : Plane) : Prop where
  failed : result.2 ≠ none → p'.store.orders.lookup id = p.store.orders.lookup id
  finished : ∀ o, p.store.orders.lookup id = some o → o.status.isTerminal = true →
    (∀ event ∈ log, event.1.isRemote = false) ∧ p'.store.orders.lookup id = some o

/-- The order is at the exchange: the store has an exchange id for it. -/
def Store.Listed (s : Store) (id : OrderID) : Prop :=
  ∃ o, s.orders.lookup id = some o ∧ o.exchangeOrderID ≠ ""

section Programs

variable {env : Env} {async : Bool} {id : OrderID} {reason : String} {p p' : Plane}
  {log : List (Event Op Res)} {result : Order × Option Err}

namespace Atomic

/-- Nothing was written and the exchange was not asked. -/
theorem idle (hstore : p'.store = p.store) (hlog : ∀ event ∈ log, event.1.isRemote = false) :
    Atomic id p log result p' where
  failed _ := by rw [hstore]
  finished o ho _ := ⟨hlog, by rw [hstore, ho]⟩

/-- The order is not finished, and nothing was written if an error came back. -/
theorem live {o : Order} (ho : p.store.orders.lookup id = some o)
    (hlive : o.status.isTerminal = false) (hfailed : result.2 ≠ none → p'.store = p.store) :
    Atomic id p log result p' where
  failed h := by rw [hfailed h]
  finished x hx hterminal := by
    rw [ho] at hx
    rw [← Option.some.inj hx, hlive] at hterminal
    cases hterminal

/-- A call that neither writes nor reaches the exchange may come first. -/
theorem cons_iff {event : Event Op Res} (hevent : event.1.isRemote = false) :
    Atomic id p (event :: log) result p' ↔ Atomic id p log result p' := by
  constructor
  · exact fun h => ⟨h.failed, fun o ho hterminal =>
      (h.finished o ho hterminal).imp_left fun hlog => (List.forall_mem_cons.mp hlog).2⟩
  · exact fun h => ⟨h.failed, fun o ho hterminal =>
      (h.finished o ho hterminal).imp_left fun hlog => List.forall_mem_cons.mpr ⟨hevent, hlog⟩⟩

end Atomic

/-- The announcement succeeds and writes nothing. -/
theorem announceUpdated_logged {updated : Order}
    (h : Logged (sem env) (announceUpdated updated) p log result p') :
    result = (updated, none) ∧ p'.store = p.store ∧ ∀ event ∈ log, event.1.isRemote = false := by
  obtain ⟨⟨⟩, p₁, _, rfl, h₁, ⟨⟩, p₂, _, rfl, h₂, rfl, rfl, rfl⟩ := h
  refine ⟨rfl, ?_, by simp [Op.isRemote]⟩
  rcases h₁ with rfl | rfl <;> rcases h₂ with rfl | rfl <;> rfl

theorem currentOrder_atomic (h : Logged (sem env) (currentOrder id) p log result p') :
    Atomic id p log result p' := by
  unfold currentOrder at h
  obtain ⟨found, _, rest, rfl, ⟨-, rfl⟩, hrest⟩ := logged_call.mp h
  cases found <;> obtain ⟨rfl, -, rfl⟩ := hrest <;> exact .idle rfl (by simp [Op.isRemote])

/-- The local cancellation of a stored order succeeds. -/
theorem cancelLocal_succeeds {o : Order} (ho : p.store.orders.lookup id = some o)
    (h : Logged (sem env) (cancelLocal id reason) p log result p') : result.2 = none := by
  unfold cancelLocal at h
  obtain ⟨t, _, _, rfl, rfl, hnow⟩ := logged_call.mp h
  obtain ⟨r, p₁, rest, rfl, ⟨now, rfl, -⟩, hrest⟩ := logged_call.mp hnow
  simp only [Store.cancelOrder, Store.amend, ho] at hrest
  obtain ⟨rfl, -, -⟩ := announceUpdated_logged hrest
  rfl

/-- Each operation asks first whether its context is still live, and returns
the error if it is not. -/
theorem guarded_atomic {k : Option String → Gw (Order × Option Err)}
    (hstopped : ∀ message, k (some message) = pure (default, some (.text message)))
    (h : Logged (sem env) (.call .ctxErr k) p log result p')
    (hready : ∀ rest, Logged (sem env) (k none) p rest result p' → Atomic id p rest result p') :
    Atomic id p log result p' := by
  obtain ⟨stopped, _, rest, rfl, rfl, hrest⟩ := logged_call.mp h
  refine (Atomic.cons_iff rfl).mpr ?_
  cases stopped with
  | some message =>
    rw [hstopped] at hrest
    obtain ⟨rfl, rfl, rfl⟩ := hrest
    exact .idle rfl (by simp)
  | none => exact hready rest hrest

/-- `Cancel` is atomic: it writes only after the exchange agreed, and only an
order that is not finished. -/
theorem cancel_atomic (h : Logged (sem env) (cancel async id reason) p log result p') :
    Atomic id p log result p' := by
  unfold cancel at h
  refine guarded_atomic (fun _ => rfl) h fun rest hready => ?_
  obtain ⟨found, _, _, rfl, ⟨hfound, rfl⟩, hrun⟩ := logged_call.mp hready
  refine (Atomic.cons_iff rfl).mpr ?_
  cases found with
  | none =>
    obtain ⟨rfl, rfl, rfl⟩ := hrun
    exact .idle rfl (by simp)
  | some o =>
    have ho : _ = some o := hfound.symm
    dsimp only at hrun
    split at hrun
    · obtain ⟨rfl, rfl, rfl⟩ := hrun
      exact .idle rfl (by simp)
    · rename_i hlive
      rw [Bool.not_eq_true] at hlive
      split at hrun
      · obtain ⟨remote, _, _, rfl, rfl, hasked⟩ := logged_call.mp hrun
        cases remote with
        | some message =>
          obtain ⟨rfl, rfl, rfl⟩ := hasked
          exact .live ho hlive fun _ => rfl
        | none =>
          exact .live ho hlive fun hfailed => absurd (cancelLocal_succeeds ho hasked) hfailed
      · exact .live ho hlive fun hfailed => absurd (cancelLocal_succeeds ho hrun) hfailed

/-- What `ReplaceOrderPrice` answers. -/
theorem replaceOrderPrice_cases (now : Time) (id : OrderID) (price : Option ℚ) (s : Store) :
    (s.orders.lookup id = none ∧
      s.replaceOrderPrice now id price = ((default, some Store.orderNotFound), s)) ∨
    ∃ o, s.orders.lookup id = some o ∧
      ((o.status.isTerminal = true ∧ s.replaceOrderPrice now id price = ((o, none), s)) ∨
        (o.status.isTerminal = false ∧ s.replaceOrderPrice now id price =
          ((Store.repricedOrder now price o, none),
            s.putOrder (Store.repricedOrder now price o)))) := by
  unfold Store.replaceOrderPrice
  split
  · exact Or.inl ⟨‹_›, rfl⟩
  · rename_i o ho
    refine Or.inr ⟨o, ho, ?_⟩
    split
    · exact Or.inl ⟨‹_›, rfl⟩
    · rename_i hlive
      exact Or.inr ⟨Bool.not_eq_true _ ▸ hlive, rfl⟩

/-- `Replace` is atomic on an order that is not at the exchange. -/
theorem replace_atomic {newPrice : ℚ} (hunlisted : ¬ (async = true ∧ p.store.Listed id))
    (h : Logged (sem env) (replace async id newPrice) p log result p') :
    Atomic id p log result p' := by
  have hlocal : ∀ o, p.store.orders.lookup id = some o →
      ¬ (async = true ∧ o.exchangeOrderID ≠ "") :=
    fun o ho hlisted => hunlisted ⟨hlisted.1, o, ho, hlisted.2⟩
  unfold replace at h
  refine guarded_atomic (fun _ => rfl) h fun rest hready => ?_
  obtain ⟨r, _, rest, rfl, ⟨now, rfl, rfl⟩, hrun⟩ := logged_call.mp hready
  refine (Atomic.cons_iff rfl).mpr ?_
  rcases replaceOrderPrice_cases now id (some newPrice) p.store with
    ⟨-, heq⟩ | ⟨o, ho, ⟨-, heq⟩ | ⟨hlive, heq⟩⟩ <;> simp only [heq] at hrun
  · obtain ⟨rfl, rfl, rfl⟩ := hrun
    exact .idle rfl (by simp)
  · rw [if_neg (hlocal o ho)] at hrun
    obtain ⟨rfl, hstore, hquiet⟩ := announceUpdated_logged hrun
    exact .idle hstore hquiet
  · have hlocal' : ¬ (async = true ∧
        (Store.repricedOrder now (some newPrice) o).exchangeOrderID ≠ "") := hlocal o ho
    rw [if_neg hlocal'] at hrun
    obtain ⟨rfl, -, -⟩ := announceUpdated_logged hrun
    exact .live ho hlive fun hfailed => absurd rfl hfailed

/-- The exchange may refuse a replacement after the store has answered. -/
theorem replace_refuses {now : Time} {o' : Order} {s' : Store} (newPrice : ℚ)
    (hexchange : o'.exchangeOrderID ≠ "")
    (h : p.store.replaceOrderPrice now id (some newPrice) = ((o', none), s')) :
    Logged (sem env) (replace true id newPrice) p
      [⟨.ctxErr, none⟩, ⟨.replaceOrderPrice id (some newPrice), (o', none)⟩,
        ⟨.replaceRemote o'.exchangeOrderID newPrice, some ""⟩]
      (default, some (.text "")) { p with store := s' } := by
  unfold replace
  refine logged_call.mpr ⟨none, p, _, rfl, rfl, logged_call.mpr
    ⟨(o', none), _, _, rfl, ⟨now, (congrArg Prod.fst h).symm, rfl⟩, ?_⟩⟩
  dsimp only
  rw [if_pos ⟨rfl, hexchange⟩, h]
  exact logged_call.mpr ⟨some "", _, _, rfl, rfl, rfl, rfl, rfl⟩

/-- `Replace` of an order at the exchange is not atomic: the new price is stored
before the exchange can refuse, and a finished order is asked about all the same. -/
theorem replace_not_atomic (env : Env) (newPrice : ℚ) (hwf : p.store.WellFormed)
    (hlisted : p.store.Listed id) :
    ∃ log result p', Logged (sem env) (replace true id newPrice) p log result p' ∧
      ¬ Atomic id p log result p' := by
  obtain ⟨o, ho, hexchange⟩ := hlisted
  rcases replaceOrderPrice_cases (o.updatedAt + 1) id (some newPrice) p.store with
    ⟨hnone, -⟩ | ⟨o', ho', hcases⟩
  · rw [ho] at hnone
    cases hnone
  · obtain rfl : o = o' := Option.some.inj (ho.symm.trans ho')
    rcases hcases with ⟨hterminal, heq⟩ | ⟨-, heq⟩
    · refine ⟨_, _, _, replace_refuses newPrice hexchange heq, fun hatomic => ?_⟩
      have hquiet := (hatomic.finished o ho hterminal).1
      simp [Op.isRemote] at hquiet
    · have hexchange' : (Store.repricedOrder (o.updatedAt + 1) (some newPrice) o).exchangeOrderID
          ≠ "" := hexchange
      refine ⟨_, _, _, replace_refuses newPrice hexchange' heq, fun hatomic => ?_⟩
      have hkept := hatomic.failed (by simp)
      have hid : (Store.repricedOrder (o.updatedAt + 1) (some newPrice) o).id = id :=
        hwf.stored id o ho
      rw [Store.lookup_putOrder, if_pos hid.symm, ho] at hkept
      have htime : o.updatedAt + 1 = o.updatedAt := congrArg Order.updatedAt (Option.some.inj hkept)
      simp at htime

/-- `SwitchStrategy` is atomic when it does not go through `Replace`, and
otherwise when `Replace` is. -/
theorem switchStrategy_atomic {strategy : String} {price : Option ℚ}
    (hunlisted : ¬ (async = true ∧ (Job.switchStrategy id strategy price reason).reprices ∧
      p.store.Listed id))
    (h : Logged (sem env) (switchStrategy async id strategy price reason) p log result p') :
    Atomic id p log result p' := by
  have hreplace : ∀ {newPrice : ℚ}, price = some newPrice →
      (strategy = "AGGRESSIVE" ∨ strategy = "DEFENSIVE" ∨ strategy = "PASSIVE") →
      ¬ (async = true ∧ p.store.Listed id) := by
    rintro newPrice rfl hstrategy ⟨hasync, hlisted⟩
    exact hunlisted ⟨hasync, ⟨hstrategy, rfl⟩, hlisted⟩
  unfold switchStrategy at h
  refine guarded_atomic (fun _ => rfl) h fun rest hready => ?_
  split at hready
  · rename_i hstrategy
    cases price with
    | none => exact cancel_atomic hready
    | some newPrice =>
      exact replace_atomic (hreplace rfl (hstrategy.imp_right Or.inl)) hready
  · split at hready
    · rename_i hstrategy
      cases price with
      | none => exact currentOrder_atomic hready
      | some newPrice => exact replace_atomic (hreplace rfl (Or.inr (Or.inr hstrategy))) hready
    · exact currentOrder_atomic hready

/-- `SwitchStrategy` to one of the three strategies, with a price, is `Replace`. -/
theorem switchStrategy_replaces {strategy : String} {newPrice : ℚ}
    (hstrategy : strategy = "AGGRESSIVE" ∨ strategy = "DEFENSIVE" ∨ strategy = "PASSIVE")
    (h : Logged (sem env) (replace async id newPrice) p log result p') :
    Logged (sem env) (switchStrategy async id strategy (some newPrice) reason) p
      (⟨.ctxErr, none⟩ :: log) result p' := by
  unfold switchStrategy
  refine logged_call.mpr ⟨none, p, log, rfl, rfl, ?_⟩
  dsimp only
  split
  · exact h
  · rename_i hother
    rw [if_pos (by tauto)]
    exact h

/-- Whatever the exchange answers, the operation is atomic, exactly when it does
not go through `Replace` for an order at an exchange that can be asked. -/
theorem atomic_iff {j : Job} (hwf : p.store.WellFormed) (htarget : j.target = some id) :
    (∀ log result p', Logged (sem env) (code env j) p log result p' → Atomic id p log result p') ↔
      ¬ (env.exchange.async = true ∧ j.reprices ∧ p.store.Listed id) := by
  constructor
  · rintro h ⟨hasync, hreprices, hlisted⟩
    cases j with
    | replace orderID newPrice =>
      obtain rfl : orderID = id := Option.some.inj htarget
      obtain ⟨log, result, p', hlog, hnot⟩ := replace_not_atomic env newPrice hwf hlisted
      exact hnot (h log result p' (by rw [code, hasync]; exact hlog))
    | switchStrategy orderID strategy price reason =>
      obtain rfl : orderID = id := Option.some.inj htarget
      obtain ⟨hstrategy, hprice⟩ := hreprices
      obtain ⟨newPrice, rfl⟩ := Option.isSome_iff_exists.mp hprice
      obtain ⟨log, result, p', hlog, hnot⟩ := replace_not_atomic env newPrice hwf hlisted
      refine hnot ((Atomic.cons_iff rfl).mp (h (⟨.ctxErr, none⟩ :: log) result p' ?_))
      rw [code, hasync]
      exact switchStrategy_replaces hstrategy hlog
    | _ => exact hreprices.elim
  · intro hline log result p' h
    cases j with
    | cancel orderID reason =>
      obtain rfl : orderID = id := Option.some.inj htarget
      exact cancel_atomic h
    | replace orderID newPrice =>
      obtain rfl : orderID = id := Option.some.inj htarget
      exact replace_atomic (fun hlisted => hline ⟨hlisted.1, trivial, hlisted.2⟩) h
    | switchStrategy orderID strategy price reason =>
      obtain rfl : orderID = id := Option.some.inj htarget
      exact switchStrategy_atomic hline h
    | _ => cases htarget

end Programs

/-- The resting order is replaced and the exchange refuses: the error comes
back, and the price has changed. -/
theorem refused_replace_keeps_price : ¬ ∀ tr c, PlaneRun Desk.env Desk.plane tr c →
    ∀ j id, j.target = some id → ∀ log result p',
      Logged (sem Desk.env) (code Desk.env j) c.shared log result p' →
      Atomic id c.shared log result p' := by
  intro h
  have hlisted : Desk.holding.store.Listed "id-1" := by
    have hany : (Desk.holding.store.orders.lookup "id-1").any
        (fun o => decide (o.exchangeOrderID ≠ "")) = true := by decide +kernel
    obtain ⟨o, ho, hexchange⟩ := (Option.any_eq_true _ _).mp hany
    exact ⟨o, ho, of_decide_eq_true hexchange⟩
  obtain ⟨log, result, p', hlog, hnot⟩ :=
    replace_not_atomic Desk.env 101 Desk.holding_wellFormed hlisted
  exact hnot (h _ _ (schedule_run Desk.submitted_admissible) (.replace "id-1" 101) "id-1" rfl
    log result p' hlog)

/-- The general theorem at the same order: canceling it is atomic, as a cancel
never goes through `Replace`. -/
theorem atomic_iff_cancel :
    (∀ log result p', Logged (sem Desk.env) (code Desk.env (.cancel "id-1" "user"))
        Desk.holding log result p' → Atomic "id-1" Desk.holding log result p') ↔
      ¬ (Desk.env.exchange.async = true ∧ (Job.cancel "id-1" "user").reprices ∧
        Desk.holding.store.Listed "id-1") :=
  atomic_iff Desk.holding_wellFormed rfl

end RealTimeTrading.ControlPlane
