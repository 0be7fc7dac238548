/-
RealTimeTrading.ControlPlane.Reported — where the fill of an execution
update comes from.

An execution update with a fill is emitted right after `ApplyExternalFill`
returned the order that is in it (`run_reported`), and a fill is applied
only if a step of the exchange brought it: a step of the reply to a
`SendOrder`, or the one the job is about (`run_given`).
-/
import RealTimeTrading.ControlPlane.Invariant

namespace RealTimeTrading.ControlPlane

open RealTimeTrading.Concurrency

/-! ## The protocol -/

/-- The step a job is about. -/
def Job.brought : Job → List ExchangeStep
  | .applyAsyncUpdate update | .streamHandler update => [update.step]
  | _ => []

/-- A call with the steps it was given and the updates on the fills it applied. -/
structure Reporter where
  job : Job
  given : List ExchangeStep
  filled : List ExecutionUpdate := []

/-- The calls that make something of a fill. -/
def Op.reports : Op → Bool
  | .applyExternalFill _ _ _ | .emit (.executionUpdate _) => true
  | _ => false

/-- The step carries these two records. -/
def ExchangeStep.Carries (step : ExchangeStep) (ledger : FillLedgerEntry)
    (execution : ExecutionEvent) : Prop :=
  step.ledger = some ledger ∧ step.execution = some execution

/-- The update is on no fill. -/
def ExecutionUpdate.Bare (update : ExecutionUpdate) : Prop :=
  update.ledger = none ∧ update.execution = none

namespace Reporter

def allowed (g : Reporter) : Op → Prop
  | .applyExternalFill _ ledger execution => ∃ step ∈ g.given, step.Carries ledger execution
  | .emit (.executionUpdate update) => update.Bare ∨ update ∈ g.filled
  | _ => True

def next (g : Reporter) : (o : Op) → Res o → Reporter
  | .sendOrder _, .ok steps => { g with given := steps ++ g.given }
  | .applyExternalFill _ ledger execution, (updated, position, none) =>
    { g with
      filled :=
        executionUpdate updated (some ledger) (some execution) (some position) :: g.filled }
  | _, _ => g

theorem next_job (g : Reporter) (o : Op) (r : Res o) : (g.next o r).job = g.job := by
  unfold next
  split <;> rfl

/-- What was given stays given. -/
theorem given_next (g : Reporter) (o : Op) (r : Res o) : g.given ⊆ (g.next o r).given := by
  unfold next
  split
  · exact List.subset_append_right _ _
  · exact List.Subset.refl _
  · exact List.Subset.refl _

end Reporter

def reporterProtocol : Protocol Op Res Reporter :=
  ⟨Reporter.allowed, fun _ _ _ => True, Reporter.next⟩

/-- From any state of its caller that was given these steps, the program
applies and announces only what it may. -/
def Reports (steps : List ExchangeStep) {α : Type} (p : Gw α) : Prop :=
  ∀ g : Reporter, steps ⊆ g.given →
    p.Conforms reporterProtocol (fun g' _ => steps ⊆ g'.given) g

/-! ## The programs -/

namespace Reports

variable {α β : Type} {steps : List ExchangeStep}

theorem pure (a : α) : Reports steps (Pure.pure a) := fun _ hg => hg

theorem bind {p : Gw α} {f : α → Gw β} (hp : Reports steps p) (hf : ∀ a, Reports steps (f a)) :
    Reports steps (p >>= f) := fun g hg => (hp g hg).bind fun g' a hg' => hf a g' hg'

theorem op {o : Op} (h : ∀ g : Reporter, steps ⊆ g.given → g.allowed o) :
    Reports steps (ControlPlane.call o) := fun g hg =>
  ⟨h g hg, fun r _ => List.Subset.trans hg (g.given_next o r)⟩

/-- Calls other than these two are free. -/
theorem call {o : Op} (h : o.reports = false) : Reports steps (ControlPlane.call o) := by
  refine op fun g _ => ?_
  cases o with
  | applyExternalFill => cases h
  | emit update =>
    cases update with
    | executionUpdate update => cases h
    | _ => trivial
  | _ => trivial

theorem sequenced : Sequenced (fun {_} p => Reports steps p) where
  ret := pure
  bind := bind
  plain {o} h := call (by cases o <;> first | rfl | cases h)

theorem bare {update : ExecutionUpdate} (h : update.Bare) :
    Reports steps (ControlPlane.call (.emit (.executionUpdate update))) := op fun _ _ => .inl h

theorem announceOrLookup (id : OrderID) (r : Order × Option Err) :
    Reports steps (announceOrLookup id r) := by
  obtain ⟨updated, _ | err⟩ := r
  · exact (bare ⟨rfl, rfl⟩).bind fun _ => (call rfl).bind fun _ => .pure _
  · exact sequenced.currentOrder id

theorem announceUpdated (updated : Order) : Reports steps (announceUpdated updated) :=
  (bare ⟨rfl, rfl⟩).bind fun _ => (call rfl).bind fun _ => .pure _

theorem applying : Applying (fun {_} p => Reports steps p) where
  toSequenced := sequenced
  acked id _ := (call rfl).bind (announceOrLookup id)
  canceled id _ _ := (call rfl).bind (announceOrLookup id)
  applyReject id reason := by
    refine (call rfl).bind fun found => ?_
    cases found with
    | none => exact .pure _
    | some order =>
      exact (call rfl).bind fun _ => (call rfl).bind fun _ => .pure _

theorem amending : Amending (fun {_} p => Reports steps p) where
  toSequenced := sequenced
  cancelLocal id reason := by
    refine (call rfl).bind fun canceledAt => (call rfl).bind fun r => ?_
    obtain ⟨updated, _ | err⟩ := r
    · exact announceUpdated updated
    · exact .pure _
  replace async id newPrice := by
    refine (call rfl).bind fun stopped => ?_
    cases stopped with
    | some message => exact .pure _
    | none =>
      refine (call rfl).bind fun r => ?_
      obtain ⟨updated, _ | err⟩ := r
      · dsimp only
        split
        · refine (call rfl).bind fun remote => ?_
          cases remote with
          | some message => exact .pure _
          | none => exact announceUpdated _
        · exact announceUpdated _
      · exact .pure _

/-- The announcement of a fill follows its application. -/
theorem applyFill (id : OrderID) {ledger : FillLedgerEntry} {execution : ExecutionEvent}
    (h : ∃ step ∈ steps, step.Carries ledger execution) :
    Reports steps (applyFill id ledger execution) := by
  intro g hg
  obtain ⟨step, hstep, hcarries⟩ := h
  refine ⟨⟨step, hg hstep, hcarries⟩, fun r _ => ?_⟩
  obtain ⟨updated, position, _ | err⟩ := r
  · have hrest : Reports steps (do
        ControlPlane.call (.emit (.positionUpdate position))
        ControlPlane.call (.emit (.orderUpdate updated))
        Pure.pure (updated, none) : Gw (Order × Option Err)) :=
      (call rfl).bind fun _ => (call rfl).bind fun _ => .pure _
    exact ⟨trivial, fun _ _ => ⟨trivial, fun _ _ => ⟨trivial, fun _ _ =>
      ⟨.inr List.mem_cons_self, fun _ _ => hrest _ hg⟩⟩⟩⟩
  · exact hg

theorem streamHandler (update : AsyncExchangeUpdate) :
    Reports [update.step] (streamHandler update) :=
  applying.streamHandler update fun id _ _ hledger hexecution =>
    applyFill id ⟨update.step, List.mem_singleton_self _, hledger, hexecution⟩

theorem applyStep (update : AsyncExchangeUpdate) : Reports [update.step] (applyStep update) :=
  applying.applyStep update fun id _ _ hledger hexecution =>
    applyFill id ⟨update.step, List.mem_singleton_self _, hledger, hexecution⟩

theorem applySteps (reserved : Order) (steps : List ExchangeStep) (final : Order) :
    Reports steps (applySteps reserved steps final) :=
  applying.applySteps reserved steps (fun step hstep id _ _ hledger hexecution =>
    applyFill id ⟨step, hstep, hledger, hexecution⟩) final

end Reports

section Submit

theorem reports_markSent (reserved : Order) : Reports [] (markSent reserved) := by
  refine (Reports.call rfl).bind fun sentAt =>
    (Reports.call rfl).bind fun r => ?_
  obtain ⟨sent, _ | err⟩ := r
  · exact (Reports.call rfl).bind fun _ => .pure _
  · exact .pure _

/-- The steps of the reply are given to the caller that applies them. -/
theorem reports_sendReserved (started : Time) (reserved : Order) :
    Reports [] (sendReserved started reserved) := by
  refine (reports_markSent reserved).bind fun sent => ?_
  intro g _
  refine ⟨trivial, fun reply _ => ⟨trivial, fun finished _ => ?_⟩⟩
  cases reply with
  | error message =>
    exact ⟨trivial, fun _ _ => ⟨trivial, fun _ _ => ⟨trivial, fun _ _ =>
      List.nil_subset _⟩⟩⟩
  | ok steps =>
    exact ⟨trivial, fun _ _ => (Reports.applySteps sent steps sent _
      (List.subset_append_left _ _)).mono fun _ _ _ => List.nil_subset _⟩

theorem reports_reserveAndSend (async : Bool) (started requestAt : Time)
    (req : ExecutionRequest) : Reports [] (reserveAndSend async started requestAt req) := by
  refine (Reports.call rfl).bind fun opened =>
    (Reports.sequenced.cancelSelfTrades async req opened).bind fun _ =>
    (Reports.call rfl).bind fun id => (Reports.call rfl).bind fun sendAt =>
    (Reports.call rfl).bind fun r => ?_
  obtain ⟨reserved, duplicate, err⟩ := r
  dsimp only
  split
  · exact .pure _
  · split
    · exact .pure _
    · exact .pure _
    · exact reports_sendReserved _ _
    · exact reports_sendReserved _ _

theorem reports_submit (async : Bool) (req : ExecutionRequest) :
    Reports [] (submit async req) := by
  refine (Reports.call rfl).bind fun started => ?_
  dsimp only
  split
  · exact .pure _
  · refine (Reports.call rfl).bind fun decision => ?_
    split
    · exact reports_reserveAndSend _ _ _ _
    · exact (Reports.call rfl).bind fun _ =>
        (Reports.call rfl).bind fun _ => .pure _

end Submit

theorem reports_code (env : Env) (j : Job) : Reports j.brought (code env j) := by
  cases j with
  | submit req => exact reports_submit _ _
  | cancel orderID reason => exact Reports.amending.cancel _ _ _
  | replace orderID newPrice => exact Reports.amending.replace _ _ _
  | switchStrategy orderID strategy price reason =>
    exact Reports.amending.switchStrategy _ _ _ _ _
  | applyAsyncUpdate update => exact Reports.applyStep update
  | streamHandler update => exact Reports.streamHandler update
  | executionEvent | marketEvent | killSwitch =>
    exact (Reports.call rfl).bind fun _ => .pure _

def reporting (env : Env) : Discipline (plane env) Reporter where
  protocol := reporterProtocol
  jobOf := Reporter.job
  init j := ⟨j, j.brought, []⟩
  post _ _ := True
  jobOf_init _ := rfl
  jobOf_next := Reporter.next_job
  code j := (reports_code env j _ (List.Subset.refl _)).mono fun _ _ _ => trivial

/-! ## Runs -/

/-- The step is the one the job is about, or came with a reply to `SendOrder`. -/
def ExchangeStep.From (step : ExchangeStep) (tr : List PlaneEntry) (j : Job) : Prop :=
  step ∈ j.brought ∨ ∃ e ∈ tr, ∃ order steps, e.event = ⟨.sendOrder order, .ok steps⟩ ∧ step ∈ steps

/-- The update is on the fill that this line of the trace applied. -/
structure ExecutionUpdate.On (update : ExecutionUpdate) (e : PlaneEntry) (id : OrderID)
    (ledger : FillLedgerEntry) (execution : ExecutionEvent) : Prop where
  event : ∃ position, e.event =
    ⟨.applyExternalFill id ledger execution, (update.order, position, none)⟩
  update : ∃ position, update =
    executionUpdate update.order (some ledger) (some execution) (some position)

theorem ExecutionUpdate.On.records {update : ExecutionUpdate} {e : PlaneEntry} {id : OrderID}
    {ledger : FillLedgerEntry} {execution : ExecutionEvent} (h : update.On e id ledger execution) :
    update.ledger = some ledger ∧ update.execution = some execution := by
  obtain ⟨position, hupdate⟩ := h.update
  rw [hupdate]
  exact ⟨rfl, rfl⟩

/-- The update is on a fill applied in this trace. -/
def ExecutionUpdate.Applied (update : ExecutionUpdate) (tr : List PlaneEntry) : Prop :=
  ∃ e ∈ tr, ∃ id ledger execution, update.On e id ledger execution

structure ReporterInv (tr : List PlaneEntry) (gs : List Reporter) : Prop where
  given : ∀ (i : Nat) g, gs[i]? = some g → ∀ step ∈ g.given, step.From tr g.job
  filled : ∀ (i : Nat) g, gs[i]? = some g → ∀ update ∈ g.filled, update.Applied tr

section Run

variable {env : Env} {p₀ : Plane} {tr : List PlaneEntry} {c : PlaneConfig} {gs : List Reporter}

theorem ExchangeStep.From.concat {step : ExchangeStep} {j : Job} (h : step.From tr j)
    (e : PlaneEntry) : step.From (tr ++ [e]) j :=
  h.imp_right fun ⟨e', he', hsent⟩ => ⟨e', List.mem_append_left _ he', hsent⟩

theorem ExecutionUpdate.Applied.concat {update : ExecutionUpdate} (h : update.Applied tr)
    (e : PlaneEntry) : update.Applied (tr ++ [e]) := by
  obtain ⟨e', he', hon⟩ := h
  exact ⟨e', List.mem_append_left _ he', hon⟩

/-- What a caller knows after its call, it knew, or the call told it. -/
theorem Reporter.next_cases (g : Reporter) (i : Nat) (p p' : Plane) (o : Op) (r : Res o) :
    (∀ step ∈ (g.next o r).given, step ∈ g.given ∨
        ∃ order steps, (⟨i, p, ⟨o, r⟩, p'⟩ : PlaneEntry).event = ⟨.sendOrder order, .ok steps⟩ ∧
          step ∈ steps) ∧
      ∀ update ∈ (g.next o r).filled, update ∈ g.filled ∨
        ∃ id ledger execution, update.On ⟨i, p, ⟨o, r⟩, p'⟩ id ledger execution := by
  unfold Reporter.next
  split
  · rename_i order steps
    refine ⟨fun step hstep => ?_, fun update hupdate => .inl hupdate⟩
    rcases List.mem_append.mp hstep with hnew | hold
    · exact .inr ⟨order, steps, rfl, hnew⟩
    · exact .inl hold
  · rename_i id ledger execution updated position
    refine ⟨fun step hstep => .inl hstep, fun update hupdate => ?_⟩
    rcases List.mem_cons.mp hupdate with rfl | hold
    · exact .inr ⟨id, ledger, execution, ⟨position, rfl⟩, position, rfl⟩
    · exact .inl hold
  · exact ⟨fun step hstep => .inl hstep, fun update hupdate => .inl hupdate⟩

theorem ReporterInv.step (h : ReporterInv tr gs) {i : Nat} {g : Reporter} (hg : gs[i]? = some g)
    (p p' : Plane) (o : Op) (r : Res o) :
    ReporterInv (tr ++ [⟨i, p, ⟨o, r⟩, p'⟩]) (gs.set i (g.next o r)) := by
  obtain ⟨hgiven, hfilled⟩ := g.next_cases i p p' o r
  constructor
  · intro j gj hj step hstep
    rcases getElem?_set_cases hj with ⟨rfl, rfl⟩ | ⟨-, hj⟩
    · rw [g.next_job]
      rcases hgiven step hstep with hold | hnew
      · exact (h.given j g hg step hold).concat _
      · exact .inr ⟨_, List.mem_append_right _ (List.mem_singleton_self _), hnew⟩
    · exact (h.given j gj hj step hstep).concat _
  · intro j gj hj update hupdate
    rcases getElem?_set_cases hj with ⟨rfl, rfl⟩ | ⟨-, hj⟩
    · rcases hfilled update hupdate with hold | hnew
      · exact (h.filled j g hg update hold).concat _
      · exact ⟨_, List.mem_append_right _ (List.mem_singleton_self _), hnew⟩
    · exact (h.filled j gj hj update hupdate).concat _

theorem reporterInvariant (env : Env) (p₀ : Plane) :
    (reporting env).Invariant p₀ (fun tr gs _ => ReporterInv tr gs) where
  init := ⟨by simp, by simp⟩
  start tr gs p j h := by
    constructor
    · intro i g hg
      rcases getElem?_concat_cases hg with ⟨-, rfl⟩ | hg
      · exact fun step hstep => .inl hstep
      · exact h.given i g hg
    · intro i g hg
      rcases getElem?_concat_cases hg with ⟨-, rfl⟩ | hg
      · exact fun update hupdate => absurd hupdate List.not_mem_nil
      · exact h.filled i g hg
  step tr gs p i g o r p' h hg _ _ := ⟨trivial, h.step hg p p' o r⟩

/-- An execution update that is emitted is on no fill, or on one that was applied. -/
theorem run_reported (hrun : PlaneRun env p₀ tr c) {pre post : List PlaneEntry} {e : PlaneEntry}
    (hsplit : tr = pre ++ e :: post) {update : ExecutionUpdate}
    (he : e.event.1 = .emit (.executionUpdate update)) : update.Bare ∨ update.Applied pre := by
  obtain ⟨gs, g, hg⟩ := Discipline.guaranteed (reporterInvariant env p₀) hrun pre e post hsplit
  have hallowed : g.allowed e.event.1 := hg.allowed
  rw [he] at hallowed
  exact hallowed.imp_right (hg.before.filled _ _ hg.ghost update)

/-- A fill that is applied came with a step, of the thread's job or of a reply. -/
theorem run_given (hrun : PlaneRun env p₀ tr c) {pre post : List PlaneEntry} {e : PlaneEntry}
    (hsplit : tr = pre ++ e :: post) {id : OrderID} {ledger : FillLedgerEntry}
    {execution : ExecutionEvent} (he : e.event.1 = .applyExternalFill id ledger execution) :
    ∃ (step : ExchangeStep) (t : Thread Op Res Job (Order × Option Err)),
      c.threads[e.tid]? = some t ∧ step.From pre t.job ∧ step.Carries ledger execution := by
  obtain ⟨gs, g, hg⟩ := Discipline.guaranteed (reporterInvariant env p₀) hrun pre e post hsplit
  have hallowed : g.allowed e.event.1 := hg.allowed
  rw [he] at hallowed
  obtain ⟨step, hstep, hcarries⟩ := hallowed
  obtain ⟨t, ht, hjob⟩ := Option.map_eq_some_iff.mp hg.job
  have hjob' : t.job = g.job := hjob
  exact ⟨step, t, ht, hjob' ▸ hg.before.given _ _ hg.ghost step hstep, hcarries⟩

/-- Every line of a trace is a call as the plane performs it. -/
theorem run_sem (hrun : PlaneRun env p₀ tr c) {e : PlaneEntry} (he : e ∈ tr) :
    sem env e.event.1 e.pre e.event.2 e.post := by
  obtain ⟨pre, post, hsplit⟩ := List.append_of_mem he
  obtain ⟨gs, g, hg⟩ := Discipline.guaranteed (reporterInvariant env p₀) hrun pre e post hsplit
  exact hg.sem

end Run

end RealTimeTrading.ControlPlane
