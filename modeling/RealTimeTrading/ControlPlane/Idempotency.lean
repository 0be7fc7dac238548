/-
RealTimeTrading.ControlPlane.Idempotency — at most one remote submission
per idempotency key.

The credit clause of the invariant is the argument: a key is granted
once, by the reservation, and only the caller that got it may send.
-/
import RealTimeTrading.ControlPlane.Invariant
import RealTimeTrading.ControlPlane.Schedule

namespace RealTimeTrading.ControlPlane

open RealTimeTrading.Concurrency

section Run

variable {env : Env} {p₀ : Plane} {tr : List PlaneEntry} {c : PlaneConfig}

theorem Store.grant_le_one (s : Store) (key : String) : s.grant key ≤ 1 := by
  unfold Store.grant
  split <;> omega

theorem sends_le_one (hwf : p₀.store.WellFormed) (hrun : PlaneRun env p₀ tr c) (key : String) :
    sends key tr ≤ 1 := by
  obtain ⟨gs, ⟨hinv, -⟩, -⟩ := Discipline.rely_guarantee (gatewayInvariant env hwf) hrun
  have hcredit := hinv.credit key
  have hgrant := c.shared.store.grant_le_one key
  omega

/-- A `SendOrder` is a step of a `Submit`, of an order made for its request. -/
theorem send_for_request (hwf : p₀.store.WellFormed) (hrun : PlaneRun env p₀ tr c) {e : PlaneEntry}
    (he : e ∈ tr) {order : Order} (hsend : e.event.1 = .sendOrder order) :
    ∃ req, (c.threads[e.tid]?).map (·.job) = some (.submit req) ∧ order.ident.For req := by
  obtain ⟨pre, post, hsplit⟩ := List.append_of_mem he
  obtain ⟨gs, g, hg⟩ := Discipline.guaranteed (gatewayInvariant env hwf) hrun pre e post hsplit
  have hallowed : g.allowed e.event.1 := hg.allowed
  rw [hsend] at hallowed
  have hwitnessed := hg.before.1.witnessed _ _ hg.ghost
  have hphase : g.phase = .holding order.ident := hallowed
  simp only [Witnessed, hphase] at hwitnessed
  obtain ⟨req, hjob, hfor⟩ := hwitnessed
  exact ⟨req, by rw [hg.job]; exact congrArg some hjob, hfor⟩

/-- A `Submit` that passed the risk check and returned without sending was
answered with the order that holds the reservation of its key. -/
theorem answered_of_unsent (hwf : p₀.store.WellFormed) (hrun : PlaneRun env p₀ tr c) {i : Nat}
    {req : ExecutionRequest} {result : Order × Option Err}
    (hi : c.threads[i]? = some ⟨.submit req, .ret result⟩)
    (hpass : ∃ e ∈ tr, e.tid = i ∧ PlaneEntry.passes e = true)
    (hunsent : ∀ e ∈ tr, e.tid = i → PlaneEntry.isSend e = false) :
    ∃ order, result = (order, none) ∧
      c.shared.store.idempotency.lookup req.idempotencyKey = some order.id ∧
      ∃ e ∈ tr, e.tid = i ∧ e.pre.store.orderByIdempotency req.idempotencyKey = some order := by
  obtain ⟨gs, ⟨hinv, -⟩, htracks⟩ := Discipline.rely_guarantee (gatewayInvariant env hwf) hrun
  obtain ⟨g, hg, hjob, hdone⟩ := Discipline.tracks_get htracks hi
  have hwitnessed := hinv.witnessed i g hg
  have hdone : g.done result := hdone
  unfold Witnessed at hwitnessed
  unfold Local.done at hdone
  cases hphase : g.phase with
  | checking =>
    rw [hphase] at hwitnessed
    obtain ⟨e, he, htid, hpassed⟩ := hpass
    rw [hwitnessed e he htid] at hpassed
    cases hpassed
  | passed => rw [hphase] at hdone; exact hdone.elim
  | holding ident => rw [hphase] at hdone; exact hdone.elim
  | sent =>
    rw [hphase] at hwitnessed
    obtain ⟨e, he, htid, hsent⟩ := hwitnessed
    rw [hunsent e he htid] at hsent
    cases hsent
  | answered order =>
    rw [hphase] at hwitnessed hdone
    obtain ⟨req', hreq, hreserved, hread⟩ := hwitnessed
    have hsame : Job.submit req = Job.submit req' := hjob.symm.trans hreq
    injection hsame with hsame
    subst hsame
    exact ⟨order, hdone, hreserved, hread⟩

/-- At most one `SendOrder` per idempotency key over any interleaving, every
`SendOrder` being for the key of the `Submit` that issues it; and a `Submit`
that passes the risk check without sending returns the order that holds the
reservation. -/
theorem submit_at_most_once (hwf : p₀.store.WellFormed) (hrun : PlaneRun env p₀ tr c)
    (key : String) :
    sends key tr ≤ 1 ∧
    (∀ e ∈ tr, PlaneEntry.isSend e = true → ∃ req,
      (c.threads[e.tid]?).map (·.job) = some (.submit req) ∧
        PlaneEntry.sendsKey req.idempotencyKey e = true) ∧
    ∀ (i : Nat) req result, c.threads[i]? = some ⟨.submit req, .ret result⟩ →
      req.idempotencyKey = key →
      (∃ e ∈ tr, e.tid = i ∧ PlaneEntry.passes e = true) →
      (∀ e ∈ tr, e.tid = i → PlaneEntry.isSend e = false) →
      ∃ order, result = (order, none) ∧
        c.shared.store.idempotency.lookup key = some order.id ∧
        ∃ e ∈ tr, e.tid = i ∧ e.pre.store.orderByIdempotency key = some order := by
  refine ⟨sends_le_one hwf hrun key, fun e he hsend => ?_, ?_⟩
  · unfold PlaneEntry.isSend at hsend
    split at hsend
    · rename_i order reply hevent
      obtain ⟨req, hjob, hfor⟩ := send_for_request hwf hrun he (congrArg Sigma.fst hevent)
      refine ⟨req, hjob, ?_⟩
      have hkey : order.idempotencyKey = req.idempotencyKey := hfor.idempotencyKey
      simp only [PlaneEntry.sendsKey, hevent, hkey, decide_true]
    · cases hsend
  · rintro i req result hi rfl hpass hunsent
    exact answered_of_unsent hwf hrun hi hpass hunsent

end Run

/-- Two submissions of one request, the second while the first is being sent. -/
def resubmitted : List Command :=
  [.start (.submit Desk.request), .start (.submit Desk.request), .run 0 10 (Desk.acked "id-1"),
    .run 1 8 (Desk.acked "id-2"), .run 0 8 (Desk.acked "id-1")]

theorem resubmitted_admissible : ∀ command ∈ resubmitted, command.Admissible Desk.env := by
  simp only [resubmitted, List.forall_mem_cons]
  exact ⟨trivial, trivial, Desk.acked_admissible _ _ _, Desk.acked_admissible _ _ _,
    Desk.acked_admissible _ _ _, by simp⟩

theorem submit_at_most_once_resubmitted :
    sends "cid-1" (schedule Desk.env Desk.plane resubmitted).1 ≤ 1 :=
  (submit_at_most_once Desk.plane_wellFormed (schedule_run resubmitted_admissible) "cid-1").1

end RealTimeTrading.ControlPlane
