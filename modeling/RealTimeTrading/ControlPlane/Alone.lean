/-
RealTimeTrading.ControlPlane.Alone — a program of the gateway run on its
own.

`Logged` at the meaning of the calls: what one `Submit` does with nothing
in between, call by call, up to the point where `ReserveOrder` decides.
`playout` computes such an execution from readings of the world, which may
depend on the call.
-/
import RealTimeTrading.Concurrency.Sequential
import RealTimeTrading.ControlPlane.Invariant
import RealTimeTrading.ControlPlane.Risk.Gate
import RealTimeTrading.ControlPlane.Schedule

namespace RealTimeTrading.ControlPlane

open RealTimeTrading.Concurrency

/-! ## Executions -/

/-- The program run to its end, each call with the readings `world` has for it. -/
def playout {α : Type} (exp : ℚ → ℚ) (world : Op → World) :
    Gw α → Plane → Option (List (Event Op Res) × α × Plane)
  | .ret a, p => some ([], a, p)
  | .call o k, p =>
    match perform exp (world o) p o with
    | none => none
    | some (r, p') => (playout exp world (k r) p').map fun x => (⟨o, r⟩ :: x.1, x.2)

theorem playout_logged {α : Type} {env : Env} {world : Op → World}
    (hreply : ∀ order, env.exchange.replies order (world (.sendOrder order)).reply) {prog : Gw α}
    {p p' : Plane} {log : List (Event Op Res)} {a : α}
    (h : playout env.exp world prog p = some (log, a, p')) : Logged (sem env) prog p log a p' := by
  induction prog generalizing p log with
  | ret b =>
    cases h
    exact ⟨rfl, rfl, rfl⟩
  | call o k ih =>
    unfold playout at h
    split at h
    · cases h
    · rename_i r t hperform
      obtain ⟨⟨rest, x⟩, hx, heq⟩ := Option.map_eq_some_iff.mp h
      cases heq
      have hsem := perform_sem_of (by rintro order rfl; exact hreply order) hperform
      exact ⟨r, t, rest, rfl, hsem, ih r hx⟩

theorem exec_call_bind {α : Type} {env : Env} {p p' : Plane} {o : Op} {f : Res o → Gw α} {a : α} :
    Exec (sem env) (call o >>= f) p a p' ↔
      ∃ r p₁, sem env o p r p₁ ∧ Exec (sem env) (f r) p₁ a p' := Iff.rfl

theorem logged_call {α : Type} {env : Env} {p p' : Plane} {log : List (Event Op Res)} {o : Op}
    {f : Res o → Gw α} {a : α} : Logged (sem env) (call o >>= f) p log a p' ↔
      ∃ r p₁ rest, log = ⟨o, r⟩ :: rest ∧ sem env o p r p₁ ∧ Logged (sem env) (f r) p₁ rest a p' :=
  Iff.rfl

/-- The call sends, cancels or replaces an order at the exchange. -/
def Op.isRemote : Op → Bool
  | .sendOrder _ | .cancelRemote _ | .replaceRemote _ _ => true
  | _ => false

/-! ## The book -/

namespace Store

theorem mem_valuesOf {V : Type} (m : GoMap String V) (v : V) :
    v ∈ valuesOf m ↔ ∃ x, m.lookup x = some v := by
  simp only [valuesOf, List.mem_map, AList.mem_lookup_iff, ← Option.mem_def]
  constructor
  · rintro ⟨⟨x, _⟩, hx, rfl⟩
    exact ⟨x, hx⟩
  · rintro ⟨x, hx⟩
    exact ⟨⟨x, v⟩, hx, rfl⟩

theorem mem_openOrdersBySymbol (s : Store) (symbol : Symbol) (o : Order) :
    o ∈ s.openOrdersBySymbol symbol ↔
      (∃ x, s.orders.lookup x = some o) ∧ o.symbol = symbol ∧ o.status.isOpen = true := by
  simp [openOrdersBySymbol, orderList, mem_valuesOf]

/-- No open order of the symbol is on another side. -/
def OneSided (s : Store) (symbol : Symbol) (side : Side) : Prop :=
  ∀ x o, s.orders.lookup x = some o → o.symbol = symbol → o.status.isOpen = true → o.side = side

theorem oneSided_iff_listed {s : Store} {symbol : Symbol} {side : Side} {opened : List Order}
    (hperm : opened.Perm (s.openOrdersBySymbol symbol)) :
    s.OneSided symbol side ↔ ∀ o ∈ opened, o.side = side := by
  simp only [hperm.mem_iff, mem_openOrdersBySymbol]
  exact ⟨fun h o ⟨⟨x, hx⟩, hsymbol, hopen⟩ => h x o hx hsymbol hopen,
    fun h x o hx hsymbol hopen => h o ⟨⟨x, hx⟩, hsymbol, hopen⟩⟩

/-- Every order is as it was, or has been canceled. -/
def CanceledTo (s s' : Store) : Prop :=
  ∀ x o, s.orders.lookup x = some o →
    ∃ o', s'.orders.lookup x = some o' ∧ (o' = o ∨ o'.status = .canceled)

theorem CanceledTo.refl (s : Store) : s.CanceledTo s := fun _ o h => ⟨o, h, Or.inl rfl⟩

theorem CanceledTo.trans {a b c : Store} (h : a.CanceledTo b) (h' : b.CanceledTo c) :
    a.CanceledTo c := by
  intro x o ho
  obtain ⟨o', ho', heq⟩ := h x o ho
  obtain ⟨o'', ho'', heq'⟩ := h' x o' ho'
  refine ⟨o'', ho'', ?_⟩
  rcases heq' with rfl | hcanceled
  · exact heq
  · exact Or.inr hcanceled

end Store

theorem OrderStatus.not_terminal_of_open {st : OrderStatus} (h : st.isOpen = true) :
    st.isTerminal = false := by
  cases st <;> first | rfl | cases h

/-! ## The self-trade loop -/

section Loop

variable {env : Env} {async : Bool} {req : ExecutionRequest} {p p' : Plane}
  {log : List (Event Op Res)}

theorem sem_cancelOrder {id : OrderID} {reason : String} {t : Time} {r : Order × Option Err}
    (hwf : p.store.WellFormed) (h : sem env (.cancelOrder id reason t) p r p') :
    p.store.CanceledTo p'.store ∧ ∀ o, p.store.orders.lookup id = some o →
      ∃ o', p'.store.orders.lookup id = some o' ∧ o'.status = .canceled := by
  obtain ⟨now, horders⟩ := sem_orders h
  cases hstored : p.store.orders.lookup id with
  | none =>
    simp only [Op.written, hstored, Option.map_none, Store.writeOrder_none] at horders
    refine ⟨fun x o ho => ⟨o, by rw [horders]; exact ho, Or.inl rfl⟩, fun o ho => by cases ho⟩
  | some stored =>
    simp only [Op.written, hstored, Option.map_some] at horders
    have hid : (Store.canceledOrder now reason t stored).id = id := hwf.stored id stored hstored
    have hlook : ∀ x, p'.store.orders.lookup x =
        if x = id then some (Store.canceledOrder now reason t stored)
        else p.store.orders.lookup x := by
      intro x
      rw [horders, Store.lookup_writeOrder_some, hid]
    refine ⟨fun x o ho => ?_, fun _ _ => ⟨_, by rw [hlook, if_pos rfl], rfl⟩⟩
    by_cases hx : x = id
    · exact ⟨_, by rw [hlook, if_pos hx], Or.inr rfl⟩
    · exact ⟨o, by rw [hlook, if_neg hx, ho], Or.inl rfl⟩

/-- Nothing on another side: the loop makes no call. -/
theorem cancelSelfTrades_oneSided (opened : List Order) (h : ∀ o ∈ opened, o.side = req.side) :
    cancelSelfTrades async req opened = pure () := by
  induction opened with
  | nil => rfl
  | cons o rest ih =>
    rw [List.forall_mem_cons] at h
    simp [cancelSelfTrades, h.1, ih h.2]

/-- One round of the loop: an order on another side is canceled, any other skipped. -/
theorem cancelSelfTrades_cons {o : Order} {rest : List Order}
    (h : Logged (sem env) (cancelSelfTrades async req (o :: rest)) p log () p') :
    ((o.side ≠ req.side ∧ o.status.isTerminal = false) ∧ ∃ t r p₁ log₁,
      sem env (.cancelOrder o.id "self_trade_prevention" t) p r p₁ ∧
        Logged (sem env) (cancelSelfTrades async req rest) p₁ log₁ () p') ∨
    (¬ (o.side ≠ req.side ∧ o.status.isTerminal = false) ∧
      Logged (sem env) (cancelSelfTrades async req rest) p log () p') := by
  unfold cancelSelfTrades at h
  dsimp only at h
  split at h
  · rename_i hother
    refine Or.inl ⟨hother, ?_⟩
    split at h
    · obtain ⟨_, _, _, -, rfl, t, _, _, -, rfl, r, p₁, log₁, -, hcancel, hrest⟩ := h
      exact ⟨t, r, p₁, log₁, hcancel, hrest⟩
    · obtain ⟨t, _, _, -, rfl, r, p₁, log₁, -, hcancel, hrest⟩ := h
      exact ⟨t, r, p₁, log₁, hcancel, hrest⟩
  · exact Or.inr ⟨‹_›, h⟩

/-- The loop cancels every stored order on another side it is given. -/
theorem cancelSelfTrades_cancels (opened : List Order) (hwf : p.store.WellFormed)
    (h : Logged (sem env) (cancelSelfTrades async req opened) p log () p') :
    p.store.CanceledTo p'.store ∧
      ∀ o ∈ opened, o.side ≠ req.side → o.status.isTerminal = false →
        (∃ stored, p.store.orders.lookup o.id = some stored) →
        ∃ o', p'.store.orders.lookup o.id = some o' ∧ o'.status = .canceled := by
  induction opened generalizing p log with
  | nil =>
    obtain ⟨-, -, rfl⟩ := h
    exact ⟨.refl _, fun o ho => absurd ho List.not_mem_nil⟩
  | cons o rest ih =>
    rcases cancelSelfTrades_cons h with ⟨-, t, r, p₁, log₁, hcancel, hrest⟩ | ⟨hskip, hrest⟩
    · obtain ⟨hto, hdone⟩ := sem_cancelOrder hwf hcancel
      obtain ⟨hto', hdone'⟩ := ih (sem_wellFormed hcancel hwf) hrest
      refine ⟨hto.trans hto', fun x hx hside hterminal ⟨stored, hstored⟩ => ?_⟩
      rcases List.mem_cons.mp hx with rfl | hx
      · obtain ⟨o₁, ho₁, hcanceled⟩ := hdone stored hstored
        obtain ⟨o₂, ho₂, rfl | hcanceled'⟩ := hto' x.id o₁ ho₁
        · exact ⟨o₂, ho₂, hcanceled⟩
        · exact ⟨o₂, ho₂, hcanceled'⟩
      · obtain ⟨o₁, ho₁, -⟩ := hto x.id stored hstored
        exact hdone' x hx hside hterminal ⟨o₁, ho₁⟩
    · obtain ⟨hto', hdone'⟩ := ih hwf hrest
      refine ⟨hto', fun x hx hside hterminal hstored => ?_⟩
      rcases List.mem_cons.mp hx with rfl | hx
      · exact absurd ⟨hside, hterminal⟩ hskip
      · exact hdone' x hx hside hterminal hstored

end Loop

/-! ## The risk check -/

section Submit

variable {env : Env} {p p' : Plane} {req : ExecutionRequest} {log : List (Event Op Res)}
  {result : Order × Option Err}

theorem scaledRequest_cases (decision : RiskDecision) (req : ExecutionRequest) :
    scaledRequest decision req = { req with size := (scaledRequest decision req).size } := by
  unfold scaledRequest
  split <;> rfl

@[simp] theorem scaledRequest_idempotencyKey (decision : RiskDecision) (req : ExecutionRequest) :
    (scaledRequest decision req).idempotencyKey = req.idempotencyKey := by
  rw [scaledRequest_cases]

@[simp] theorem scaledRequest_symbol (decision : RiskDecision) (req : ExecutionRequest) :
    (scaledRequest decision req).symbol = req.symbol := by
  rw [scaledRequest_cases]

@[simp] theorem scaledRequest_side (decision : RiskDecision) (req : ExecutionRequest) :
    (scaledRequest decision req).side = req.side := by
  rw [scaledRequest_cases]

/-- `Submit` of a key: the risk check, then the refusal or the rest. -/
theorem submit_logged {async : Bool} (hkey : req.idempotencyKey ≠ "")
    (h : Logged (sem env) (submit async req) p log result p') :
    ∃ started requestAt now now' rest,
      log = ⟨.now, started⟩ ::
        ⟨.evaluate req, (p.risk.evaluate env.exp now now' p.store req).1⟩ :: rest ∧
      Logged (sem env)
        (let decision := (p.risk.evaluate env.exp now now' p.store req).1
        if decision.allowed = true then
          reserveAndSend async started requestAt (scaledRequest decision req)
        else do
          let id ← call .newID
          let order := refusedOrder id req decision.reason
          call (.emit (.orderRejected order))
          pure (order, some (.riskRejected decision.reason)))
        { p with risk := (p.risk.evaluate env.exp now now' p.store req).2 } rest result p' := by
  unfold submit at h
  obtain ⟨started, _, _, rfl, rfl, hchecked⟩ := logged_call.mp h
  dsimp only at hchecked
  rw [if_neg hkey] at hchecked
  obtain ⟨decision, _, rest, rfl, ⟨now, now', rfl, rfl⟩, hrest⟩ := logged_call.mp hchecked
  exact ⟨started, _, now, now', rest, rfl, hrest⟩

/-- After the risk check: the loop, and then the key is found taken. -/
theorem reserveAndSend_taken {async : Bool} {started requestAt : Time} {id : OrderID}
    (hkey : p.store.idempotency.lookup req.idempotencyKey = some id)
    (h : Logged (sem env) (reserveAndSend async started requestAt req) p log result p') :
    ∃ opened p₁ log₁ log₂, opened.Perm (p.store.openOrdersBySymbol req.symbol) ∧
      log = ⟨.openOrdersBySymbol req.symbol, opened⟩ :: (log₁ ++ log₂) ∧
      Logged (sem env) (cancelSelfTrades async req opened) p log₁ () p₁ ∧
      p'.store = p₁.store ∧ (∀ event ∈ log₂, event.1.isRemote = false) ∧
      result = ((p₁.store.orders.lookup id).getD default, none) := by
  unfold reserveAndSend at h
  obtain ⟨opened, _, _, rfl, ⟨hperm, rfl⟩, hlisted⟩ := logged_call.mp h
  obtain ⟨⟨⟩, p₁, log₁, log₂, rfl, hloop, h⟩ := (logged_bind _ _ _).mp hlisted
  have htaken : p₁.store.idempotency.lookup req.idempotencyKey = some id :=
    hloop.invariant (P := fun p => p.store.idempotency.lookup req.idempotencyKey = some id)
      (fun _ _ _ _ hp hs => reserved_step hs hp) hkey
  obtain ⟨newID, _, _, rfl, ⟨-, rfl⟩, sendAt, _, _, rfl, rfl, r, _, _, rfl, hreserve, h⟩ := h
  rcases sem_reserveOrder hreserve with ⟨id', hid', rfl, rfl⟩ | ⟨hfree, -⟩
  · have hsame : id' = id := Option.some.inj (hid'.symm.trans htaken)
    subst hsame
    obtain ⟨rfl, rfl, rfl⟩ := h
    exact ⟨opened, p₁, log₁, _, hperm, rfl, hloop, rfl, by simp [Op.isRemote], rfl⟩
  · rw [show p₁.store.idempotency.lookup req.idempotencyKey = none from hfree] at htaken
    cases htaken

/-- The second call of a `Submit` with a key is the risk check. -/
theorem submit_evaluates {async : Bool} (hkey : req.idempotencyKey ≠ "")
    (h : Logged (sem env) (submit async req) p log result p') : ∃ now now',
    log[1]? = some ⟨.evaluate req, (p.risk.evaluate env.exp now now' p.store req).1⟩ := by
  obtain ⟨started, requestAt, now, now', rest, rfl, -⟩ := submit_logged hkey h
  exact ⟨now, now', rfl⟩

end Submit

/-- The desk with its request sent and acknowledged. -/
def Desk.holding : Plane := (schedule Desk.env Desk.plane Desk.submitted).2.shared

theorem Desk.holding_wellFormed : Desk.holding.store.WellFormed :=
  run_wellFormed Desk.plane_wellFormed (schedule_run Desk.submitted_admissible)

end RealTimeTrading.ControlPlane
