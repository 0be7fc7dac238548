/-
RealTimeTrading.ControlPlane.Gatekeeping — no order leaves but through the
risk service.

A call is past the check exactly if the service has passed its request, so
what is stored and what is sent is no more than what was passed (`Vetted`).
The kill switch is the first thing `Evaluate` reads: from the moment it is on
nothing passes, and all that can still be sent are requests that had passed
by then.
-/
import RealTimeTrading.Concurrency.Emitting
import RealTimeTrading.ControlPlane.FillSums
import RealTimeTrading.ControlPlane.Risk.Gate

namespace RealTimeTrading.ControlPlane

open RealTimeTrading.Concurrency

/-! ## Reading a trace -/

namespace PlaneEntry

/-- Where `SetKillSwitch` puts the kill switch. -/
def turns (e : PlaneEntry) : Option Bool :=
  match e.event with
  | ⟨.setKillSwitch enabled, _⟩ => some enabled
  | _ => none

/-- The risk service passed this request, with all it asks for met. -/
def Vets (env : Env) (req : ExecutionRequest) (e : PlaneEntry) : Prop :=
  e.event.1 = .evaluate req ∧ ∃ now now', e.pre.risk.Passes env.exp now now' e.pre.store req

end PlaneEntry

/-- Where the kill switch is after these calls. -/
def killed (before : Bool) (tr : List PlaneEntry) : Bool :=
  (tr.filterMap PlaneEntry.turns).getLast?.getD before

theorem killed_concat (before : Bool) (tr : List PlaneEntry) (e : PlaneEntry) :
    killed before (tr ++ [e]) = e.turns.getD (killed before tr) := by
  unfold killed
  rw [filterMap_concat]
  cases e.turns with
  | none => rw [Option.toList_none, List.append_nil, Option.getD_none]
  | some enabled =>
    rw [Option.toList_some, List.getLast?_concat, Option.getD_some, Option.getD_some]

/-! ## How far the calls are -/

namespace Local

def cleared (g : Local) : Nat :=
  match g.phase with
  | .checking => 0
  | _ => 1

def stored (g : Local) : Nat :=
  match g.phase with
  | .holding _ | .sent => 1
  | _ => 0

def dispatched (g : Local) : Nat :=
  match g.phase with
  | .sent => 1
  | _ => 0

theorem stored_le_cleared (g : Local) : g.stored ≤ g.cleared := by
  unfold stored cleared
  split <;> simp [*]

theorem dispatched_le_stored (g : Local) : g.dispatched ≤ g.stored := by
  unfold dispatched stored
  split <;> simp [*]

end Local

section Call

variable {env : Env} {g : Local} {o : Op} {r : Res o} {p p' : Plane}

/-- A call is counted where it goes through a stage. -/
theorem stages_next (hallowed : g.allowed o) {e : PlaneEntry} (he : e.event = ⟨o, r⟩) :
    (g.next o r).cleared = g.cleared + (if e.passes = true then 1 else 0) ∧
      (g.next o r).stored = g.stored + e.reserves.toList.length ∧
      (g.next o r).dispatched = g.dispatched + if e.isSend = true then 1 else 0 := by
  obtain ⟨i, p, event, p'⟩ := e
  obtain rfl : event = ⟨o, r⟩ := he
  cases o with
  | evaluate req =>
    obtain ⟨-, hphase⟩ := hallowed
    simp only [Local.next, PlaneEntry.passes, PlaneEntry.reserves, PlaneEntry.isSend]
    split
    · simp [Local.cleared, Local.stored, Local.dispatched, *]
    · simp [Local.cleared, Local.stored, Local.dispatched, *]
  | reserveOrder order =>
    have hphase : g.phase = .passed := hallowed.1
    obtain ⟨reserved, duplicate, err⟩ := r
    cases duplicate <;>
      simp [Local.next, Local.learn, PlaneEntry.passes, PlaneEntry.reserves, PlaneEntry.isSend,
        Local.cleared, Local.stored, Local.dispatched, hphase]
  | sendOrder order =>
    have hphase : g.phase = .holding order.ident := hallowed
    simp [Local.next, PlaneEntry.passes, PlaneEntry.reserves, PlaneEntry.isSend, Local.cleared,
      Local.stored, Local.dispatched, hphase]
  | markOrderSent id sentAt =>
    obtain ⟨sent, _ | err⟩ := r <;> exact ⟨rfl, rfl, rfl⟩
  | order id => cases r <;> exact ⟨rfl, rfl, rfl⟩
  | _ => exact ⟨rfl, rfl, rfl⟩

/-- Only `SetKillSwitch` touches the kill switch. -/
theorem kill_step (hsem : sem env o p r p') {e : PlaneEntry} (he : e.event = ⟨o, r⟩) :
    p'.risk.kill = e.turns.getD p.risk.kill := by
  obtain ⟨i, _, event, _⟩ := e
  obtain rfl : event = ⟨o, r⟩ := he
  cases o with
  | evaluate req =>
    obtain ⟨now, now', -, rfl⟩ := hsem
    unfold Service.evaluate Service.observeDecision
    dsimp only
    split <;> rfl
  | observeExecution latency rejected =>
    obtain rfl := hsem
    unfold Service.observeExecution
    dsimp only
    split <;> rfl
  | observeMarket event =>
    obtain ⟨now, rfl⟩ := hsem
    unfold Service.observeMarket
    dsimp only
    split <;> rfl
  | emit update => rcases hsem with rfl | rfl <;> rfl
  | observeExecutionEvent | setKillSwitch | now | ctxErr | cancelRemote | replaceRemote
  | getAccountState =>
    obtain rfl := hsem
    rfl
  | newID | openOrdersBySymbol | order | orderByIdempotency | orderByExchangeID | sendOrder =>
    obtain ⟨-, rfl⟩ := hsem
    rfl
  | _ =>
    obtain ⟨now, -, rfl⟩ := hsem
    rfl

/-- What passes has been vetted. -/
theorem vets_of_passes {e : PlaneEntry} (hsem : sem env e.event.1 e.pre e.event.2 e.post)
    (hpasses : e.passes = true) : ∃ req, e.Vets env req := by
  obtain ⟨i, p, ⟨o, r⟩, p'⟩ := e
  cases o with
  | evaluate req =>
    obtain ⟨now, now', hdecision, -⟩ := hsem
    have hallowed : (p.risk.evaluate env.exp now now' p.store req).1.allowed = true :=
      hdecision ▸ hpasses
    exact ⟨req, rfl, now, now', (Service.evaluate_allowed_iff _ _ _ _ _ _).mp hallowed⟩
  | _ => cases hpasses

end Call

/-! ## Runs -/

/-- The books of the gate: who has passed it, and where the kill switch is. -/
structure Vetted (env : Env) (before : Bool) (tr : List PlaneEntry) (gs : List Local)
    (p : Plane) : Prop where
  kill : p.risk.kill = killed before tr
  cleared : tr.countP PlaneEntry.passes = (gs.map Local.cleared).sum
  stored : (created tr).length = (gs.map Local.stored).sum
  dispatched : tr.countP PlaneEntry.isSend = (gs.map Local.dispatched).sum
  vets : ∀ (i : Nat) g, gs[i]? = some g → g.cleared = 1 →
    ∃ req, g.job = .submit req ∧ ∃ e ∈ tr, e.tid = i ∧ e.passes = true ∧ e.Vets env req

section Runs

variable {env : Env} {tr : List PlaneEntry} {gs : List Local} {p p' : Plane} {before : Bool}

theorem Vetted.start (h : Vetted env before tr gs p) (j : Job) :
    Vetted env before tr (gs ++ [⟨j, [], [], .checking⟩]) p where
  kill := h.kill
  cleared := by simpa [Local.cleared] using h.cleared
  stored := by simpa [Local.stored] using h.stored
  dispatched := by simpa [Local.dispatched] using h.dispatched
  vets i g hi hcleared := by
    rcases getElem?_concat_cases hi with ⟨-, rfl⟩ | hi
    · cases hcleared
    · exact h.vets i g hi hcleared

theorem Vetted.step (h : Vetted env before tr gs p) {i : Nat} {g : Local} {o : Op} {r : Res o}
    (hg : gs[i]? = some g) (hallowed : g.allowed o) (hsem : sem env o p r p') :
    Vetted env before (tr ++ [⟨i, p, ⟨o, r⟩, p'⟩]) (gs.set i (g.next o r)) p' := by
  obtain ⟨hcleared, hstored, hdispatched⟩ := stages_next (r := r) hallowed
    (e := ⟨i, p, ⟨o, r⟩, p'⟩) rfl
  refine ⟨?_, ?_, ?_, ?_, fun j gj hj hpast => ?_⟩
  · rw [killed_concat, ← h.kill]
    exact kill_step hsem rfl
  · have hsum := Data.sum_map_set Local.cleared gs hg (g.next o r)
    rw [List.countP_append, List.countP_singleton, h.cleared]
    omega
  · have hsum := Data.sum_map_set Local.stored gs hg (g.next o r)
    rw [created_concat, List.length_append, h.stored]
    omega
  · have hsum := Data.sum_map_set Local.dispatched gs hg (g.next o r)
    rw [List.countP_append, List.countP_singleton, h.dispatched]
    omega
  · rcases getElem?_set_cases hj with ⟨rfl, rfl⟩ | ⟨-, hj⟩
    · rw [Local.next_job]
      cases hpasses : PlaneEntry.passes ⟨j, p, ⟨o, r⟩, p'⟩ with
      | true =>
        obtain ⟨req, hvets⟩ : ∃ req, PlaneEntry.Vets env req ⟨j, p, ⟨o, r⟩, p'⟩ :=
          vets_of_passes hsem hpasses
        obtain rfl : o = .evaluate req := hvets.1
        exact ⟨req, hallowed.1, _, List.mem_append_right _ (List.mem_singleton_self _), rfl,
          hpasses, hvets⟩
      | false =>
        rw [hpasses] at hcleared
        obtain ⟨req, hjob, e, he, hvets⟩ := h.vets j g hg (hcleared.symm.trans hpast)
        exact ⟨req, hjob, e, List.mem_append_left _ he, hvets⟩
    · obtain ⟨req, hjob, e, he, hvets⟩ := h.vets j gj hj hpast
      exact ⟨req, hjob, e, List.mem_append_left _ he, hvets⟩

theorem vettedInvariant (env : Env) {p₀ : Plane} (h : p₀.store.WellFormed) :
    (discipline env).Invariant p₀ (fun tr gs p =>
      (GatewayInv tr gs p ∧ ∀ e ∈ tr, e.tid < gs.length) ∧ Vetted env p₀.risk.kill tr gs p) where
  init := ⟨(gatewayInvariant env h).init, ⟨rfl, rfl, rfl, rfl, by simp⟩⟩
  start tr gs p j hP := ⟨(gatewayInvariant env h).start tr gs p j hP.1, hP.2.start j⟩
  step tr gs p i g o r p' hP hg hallowed hsem := by
    obtain ⟨hreturns, hinv⟩ :=
      (gatewayInvariant env h).step tr gs p i g o r p' hP.1 hg hallowed hsem
    exact ⟨hreturns, hinv, hP.2.step hg hallowed hsem⟩

variable {p₀ : Plane} {c : PlaneConfig}

/-- An order is stored and sent past the check. -/
theorem cleared_of_leaving {g : Local} {e : PlaneEntry} (hallowed : g.allowed e.event.1)
    (hleaves : e.isSend = true ∨ e.reserves.isSome = true) : g.cleared = 1 := by
  obtain ⟨i, p, ⟨o, r⟩, p'⟩ := e
  cases o with
  | sendOrder order =>
    have hphase : g.phase = .holding order.ident := hallowed
    simp [Local.cleared, hphase]
  | reserveOrder order =>
    have hphase : g.phase = .passed := hallowed.1
    simp [Local.cleared, hphase]
  | _ => rcases hleaves with h | h <;> cases h

/-- What the gate lets out in a run. -/
structure Mediated (env : Env) (tr : List PlaneEntry) (c : PlaneConfig) : Prop where
  vetted : ∀ pre e post, tr = pre ++ e :: post → e.isSend = true ∨ e.reserves.isSome = true →
    ∃ req, (c.threads[e.tid]?).map (·.job) = some (.submit req) ∧
      ∃ e' ∈ pre, e'.tid = e.tid ∧ e'.Vets env req
  sent : tr.countP PlaneEntry.isSend ≤ (created tr).length
  stored : (created tr).length ≤ tr.countP PlaneEntry.passes

theorem Vetted.sent_le (h : Vetted env before tr gs p) :
    tr.countP PlaneEntry.isSend ≤ (created tr).length := by
  rw [h.dispatched, h.stored]
  exact List.sum_le_sum fun g _ => g.dispatched_le_stored

theorem Vetted.stored_le (h : Vetted env before tr gs p) :
    (created tr).length ≤ tr.countP PlaneEntry.passes := by
  rw [h.stored, h.cleared]
  exact List.sum_le_sum fun g _ => g.stored_le_cleared

/-- In every interleaving an order is stored or sent only by a `Submit` whose request the risk
service has passed before, and no more orders than requests passed. -/
theorem all_vetted (hwf : p₀.store.WellFormed) (hrun : PlaneRun env p₀ tr c) :
    Mediated env tr c := by
  obtain ⟨gs, ⟨-, hbooks⟩, -⟩ := Discipline.rely_guarantee (vettedInvariant env hwf) hrun
  refine ⟨fun pre e post hsplit hleaves => ?_, hbooks.sent_le, hbooks.stored_le⟩
  obtain ⟨hs, g, hg⟩ := Discipline.guaranteed (vettedInvariant env hwf) hrun pre e post hsplit
  obtain ⟨req, hjob, e', he', htid, -, hvets⟩ :=
    hg.before.2.vets _ _ hg.ghost (cleared_of_leaving hg.allowed hleaves)
  exact ⟨req, hg.job.trans (congrArg some hjob), e', he', htid, hvets⟩

/-! ## The kill switch -/

/-- What is still to come once the kill switch is on. -/
structure Halted (tr after : List PlaneEntry) : Prop where
  refused : ∀ e ∈ after, e.passes = false
  owned : ∀ e ∈ after, e.isSend = true ∨ e.reserves.isSome = true →
    ∃ e' ∈ tr, e'.tid = e.tid ∧ e'.passes = true
  sent : (tr ++ after).countP PlaneEntry.isSend ≤ tr.countP PlaneEntry.passes
  stored : (created (tr ++ after)).length ≤ tr.countP PlaneEntry.passes

theorem killed_append {tr after : List PlaneEntry} (hkilled : killed before tr = true)
    (hkept : ∀ e ∈ after, e.turns ≠ some false) : killed before (tr ++ after) = true := by
  induction after using List.reverseRecOn with
  | nil => rwa [List.append_nil]
  | append_singleton after e ih =>
    obtain ⟨hafter, hlast⟩ := List.forall_mem_append.mp hkept
    rw [← List.append_assoc, killed_concat, ih hafter]
    have hturns : e.turns ≠ some false := hlast e (List.mem_singleton_self e)
    cases h : e.turns with
    | none => rfl
    | some enabled =>
      cases enabled with
      | true => rfl
      | false => exact absurd h hturns

/-- From the moment the kill switch is on, and as long as nobody turns it off, no request
passes, and only requests that had passed by then are still stored and sent, each once. -/
theorem kill_switch_halts (hwf : p₀.store.WellFormed) {after : List PlaneEntry}
    (hrun : PlaneRun env p₀ (tr ++ after) c) (hkilled : killed p₀.risk.kill tr = true)
    (hkept : ∀ e ∈ after, e.turns ≠ some false) : Halted tr after := by
  have hline := Discipline.guaranteed (vettedInvariant env hwf) hrun
  have hrefused : ∀ e ∈ after, e.passes = false := by
    intro e he
    obtain ⟨mid, post, rfl⟩ := List.append_of_mem he
    obtain ⟨gs, g, hg⟩ := hline (tr ++ mid) e post (List.append_assoc _ _ _).symm
    have hon : e.pre.risk.kill = true := by
      rw [hg.before.2.kill]
      exact killed_append hkilled fun x hx => hkept x (List.mem_append_left _ hx)
    by_contra hpasses
    obtain ⟨req, -, now, now', hall⟩ := vets_of_passes hg.sem (by simpa using hpasses)
    rw [hall.notKilled] at hon
    cases hon
  have hnone : after.countP PlaneEntry.passes = 0 :=
    List.countP_eq_zero.mpr fun e he => by rw [hrefused e he]; exact Bool.false_ne_true
  obtain ⟨gs, ⟨-, hbooks⟩, -⟩ := Discipline.rely_guarantee (vettedInvariant env hwf) hrun
  have hstored := hbooks.stored_le
  rw [List.countP_append, hnone, Nat.add_zero] at hstored
  refine ⟨hrefused, fun e he hleaves => ?_, hbooks.sent_le.trans hstored, hstored⟩
  obtain ⟨mid, post, rfl⟩ := List.append_of_mem he
  obtain ⟨gs, g, hg⟩ := hline (tr ++ mid) e post (List.append_assoc _ _ _).symm
  obtain ⟨req, -, e', he', htid, hpasses, -⟩ :=
    hg.before.2.vets _ _ hg.ghost (cleared_of_leaving hg.allowed hleaves)
  rcases List.mem_append.mp he' with htr | hmid
  · exact ⟨e', htr, htid, hpasses⟩
  · rw [hrefused e' (List.mem_append_left _ hmid)] at hpasses
    cases hpasses

end Runs

/-! ## One order, and then none -/

namespace Desk

/-- A second client. -/
def secondRequest : ExecutionRequest := { request with idempotencyKey := "cid-2" }

/-- The request passes the check, the kill switch is put on, the order goes out, and the second
request is refused. -/
def killedDesk : List Command :=
  [.start (.submit request), .start (.killSwitch true), .start (.submit secondRequest),
    .run 0 2 (acked "id-1"), .run 1 1 (acked ""), .run 0 16 (acked "id-1"),
    .run 2 16 (acked "id-2")]

theorem killedDesk_admissible : ∀ command ∈ killedDesk, command.Admissible env := by
  simp only [killedDesk, List.forall_mem_cons]
  exact ⟨trivial, trivial, trivial, acked_admissible _ _ _, acked_admissible _ _ _,
    acked_admissible _ _ _, acked_admissible _ _ _, by simp⟩

theorem all_vetted_killed :
    Mediated env (schedule env plane killedDesk).1 (schedule env plane killedDesk).2 :=
  all_vetted plane_wellFormed (schedule_run killedDesk_admissible)

theorem kill_switch_halts_killed :
    Halted ((schedule env plane killedDesk).1.take 3) ((schedule env plane killedDesk).1.drop 3) ∧
      ((schedule env plane killedDesk).1.drop 3).countP PlaneEntry.isSend = 1 := by
  have hrun : PlaneRun env plane (schedule env plane killedDesk).1
      (schedule env plane killedDesk).2 := schedule_run killedDesk_admissible
  rw [← List.take_append_drop 3 (schedule env plane killedDesk).1] at hrun
  exact ⟨kill_switch_halts plane_wellFormed hrun (by decide +kernel) (by decide +kernel),
    by decide +kernel⟩

end Desk

end RealTimeTrading.ControlPlane
