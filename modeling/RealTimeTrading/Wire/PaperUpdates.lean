/-
RealTimeTrading.Wire.PaperUpdates — which execution updates of the paper
exchange the other side can read.

`LatencyBreakdown` holds Go durations and is read as five `u64`. The paper
exchange counts the decision latency from `RequestAt`, which the client may
have given, to `SendAt`, which is read from the control plane's own clock:
a client whose clock is ahead has its fills dropped (`updates_decode_iff`). Of
the fills that are read, only the first of an order looks the same to the
position and to the controllers (`meets_paper_iff`).
-/
import RealTimeTrading.Wire.FillViews

namespace RealTimeTrading.Wire

open ControlPlane (ExecutionUpdate ExecutionEvent ExchangeStep FillLedgerEntry Plane PlaneEntry
  PlaneConfig PlaneRun PaperExchange.exchange millisecond)
open ControlPlane.PaperExchange (buildPaperFills sendOrder fillStep fillSteps latencyBreakdown)

/-! ## The steps of a reply -/

/-- The order was sent no earlier than it was requested, and acknowledged no
earlier than it was sent. -/
def Timely (order : ControlPlane.Order) (ackAt : ControlPlane.Time) : Prop :=
  order.requestAt ≤ order.sendAt ∧ order.sendAt ≤ ackAt

theorem mem_fillSteps {order : ControlPlane.Order} {ackAt : ControlPlane.Time}
    {fills : List FillLedgerEntry} {step : ExchangeStep}
    (h : step ∈ fillSteps order ackAt fills) :
    ∃ fill ∈ fills, ∃ final, step = fillStep order ackAt final fill := by
  induction fills with
  | nil => cases h
  | cons fill rest ih =>
    cases rest with
    | nil => exact ⟨fill, List.mem_cons_self, true, List.mem_singleton.mp h⟩
    | cons fill' rest =>
      rcases List.mem_cons.mp h with rfl | h
      · exact ⟨fill, List.mem_cons_self, false, rfl⟩
      · obtain ⟨f, hf, final, hstep⟩ := ih h
        exact ⟨f, List.mem_cons_of_mem _ hf, final, hstep⟩

/-- The latencies of a fill can be read if the order is timely, and not otherwise. -/
theorem readable_latencyBreakdown (order : ControlPlane.Order) {ackAt fillAt : ControlPlane.Time}
    (hfill : ackAt ≤ fillAt) :
    LatencyBreakdown.readable (latencyBreakdown order ackAt fillAt) = true ↔
      Timely order ackAt := by
  simp only [LatencyBreakdown.readable, latencyBreakdown, Bool.and_eq_true, decide_eq_true_eq,
    sub_nonneg, le_refl, and_true, Timely]
  constructor
  · rintro ⟨⟨⟨hdecision, hack⟩, -⟩, -⟩
    exact ⟨hdecision, hack⟩
  · rintro ⟨hdecision, hack⟩
    exact ⟨⟨⟨hdecision, hack⟩, hack.trans hfill⟩, hack.trans hfill⟩

/-- Every fill a reply carries is readable exactly if the order is timely. -/
theorem readable_reply {order : ControlPlane.Order} {now : ControlPlane.Time}
    {steps : List ExchangeStep} (hreply : .ok steps = sendOrder none now order)
    {step : ExchangeStep} (hstep : step ∈ steps) {ledger : FillLedgerEntry}
    {execution : ExecutionEvent} (hcarries : step.Carries ledger execution) :
    LatencyBreakdown.readable execution.latencyBreakdown = true ↔
      Timely order (now + 2 * millisecond) := by
  obtain rfl := Except.ok.inj (hreply.trans (ControlPlane.PaperExchange.sendOrder_ok now order))
  rcases List.mem_cons.mp hstep with rfl | hstep
  · cases hcarries.1
  · obtain ⟨fill, hfill, final, rfl⟩ := mem_fillSteps hstep
    obtain ⟨-, hexecution⟩ := hcarries
    obtain rfl := Option.some.inj hexecution
    exact readable_latencyBreakdown order
      (ControlPlane.PaperExchange.fillOf_of_mem hfill).eventTime

/-! ## The two halves -/

theorem meets_fillStep {order o : ControlPlane.Order} {ackAt : ControlPlane.Time}
    {fill : FillLedgerEntry} (hlate : ackAt ≤ fill.eventTime) (hpos : 0 < order.size)
    {final : Bool} {ledger : FillLedgerEntry} {execution : ExecutionEvent}
    (hcarries : (fillStep order ackAt final fill).Carries ledger execution) :
    Meets o ledger execution ↔ Timely order ackAt ∧
      (o.filled = 0 ∨ (o.size ≤ fill.quantity ∧ o.size ≤ o.filled + fill.quantity)) ∧
      (0.999 * max order.size 1e-12 ≤ fill.quantity ↔ o.size ≤ o.filled + fill.quantity) := by
  obtain ⟨hledger, hexecution⟩ := hcarries
  obtain rfl := Option.some.inj hledger
  obtain rfl := Option.some.inj hexecution
  have hread := readable_latencyBreakdown order hlate
  have hratio : 0.999 ≤ fill.quantity / max order.size 1e-12 ↔
      0.999 * max order.size 1e-12 ≤ fill.quantity :=
    le_div_iff₀ (lt_max_of_lt_left hpos)
  exact ⟨fun h => ⟨hread.mp h.readable, h.remaining, hratio.symm.trans h.complete⟩,
    fun h => ⟨hread.mpr h.1, h.2.1, hratio.trans h.2.2⟩⟩

theorem quantities_buildPaperFills {order : ControlPlane.Order} (hpos : 0 < order.size)
    (reference : ℚ) (ackAt : ControlPlane.Time) :
    (buildPaperFills order reference ackAt).map (·.quantity) =
      if order.price.isSome then [order.size * 0.5, order.size - order.size * 0.5]
      else [order.size] := by
  unfold buildPaperFills
  dsimp only
  rw [if_neg (not_le.mpr hpos)]
  split <;> rfl

/-- A fill of a paper order meets the order as the fills before it left it
exactly if it is the first one: the second half of a priced order never does. -/
theorem meets_paper_iff {order o : ControlPlane.Order} {reference : ℚ}
    {ackAt : ControlPlane.Time} {pre post : List FillLedgerEntry} {fill : FillLedgerEntry}
    (hfills : buildPaperFills order reference ackAt = pre ++ fill :: post)
    (hsize : o.size = order.size) (hfilled : o.filled = (pre.map (·.quantity)).sum)
    {final : Bool} {ledger : FillLedgerEntry} {execution : ExecutionEvent}
    (hcarries : (fillStep order ackAt final fill).Carries ledger execution) :
    Meets o ledger execution ↔ Timely order ackAt ∧ pre = [] ∧
      (order.price = none → 0.999 * 1e-12 ≤ order.size) := by
  have hmem : fill ∈ buildPaperFills order reference ackAt := by
    rw [hfills]
    exact List.mem_append_right _ List.mem_cons_self
  have hpos : 0 < order.size := by
    by_contra hnot
    rw [buildPaperFills, if_pos (not_lt.mp hnot)] at hmem
    cases hmem
  rw [meets_fillStep (ControlPlane.PaperExchange.fillOf_of_mem hmem).eventTime hpos hcarries,
    hsize, hfilled, ← List.map_eq_nil_iff (f := fun fill : FillLedgerEntry => fill.quantity)]
  refine and_congr_right fun _ => ?_
  have hquantities := quantities_buildPaperFills hpos reference ackAt
  rw [hfills, List.map_append, List.map_cons] at hquantities
  have hmax : order.size ≤ max order.size 1e-12 := le_max_left _ _
  generalize pre.map (·.quantity) = before at *
  generalize fill.quantity = quantity at *
  split at hquantities
  · rename_i hpriced
    have hlimit : order.price ≠ none := Option.isSome_iff_ne_none.mp hpriced
    rcases ControlPlane.eq_append_of_pair hquantities.symm with ⟨rfl, rfl⟩ | ⟨rfl, rfl⟩
    · refine iff_of_true ⟨.inl rfl, ?_⟩ ⟨rfl, fun hnone => absurd hnone hlimit⟩
      rw [List.sum_nil]
      exact iff_of_false (by linarith) (by linarith)
    · refine iff_of_false ?_ (fun h => absurd h.1 (List.cons_ne_nil _ _))
      rw [List.sum_singleton]
      rintro ⟨hnone | ⟨hcovers, -⟩, -⟩
      · linarith
      · linarith
  · rename_i hmarket
    have hnone : order.price = none := by simpa using hmarket
    obtain ⟨rfl, rfl⟩ : before = [] ∧ quantity = order.size := by
      rcases before with - | ⟨first, rest⟩
      · exact ⟨rfl, (List.cons.inj hquantities).1⟩
      · simp at hquantities
    simp only [List.sum_nil, zero_add, le_refl, iff_true, true_or, true_and, hnone, true_implies]
    rcases le_total order.size 1e-12 with hle | hge
    · rw [max_eq_right hle]
    · rw [max_eq_left hge]
      exact iff_of_true (by linarith) (by linarith)

/-! ## Runs -/

section Run

variable {exp : ℚ → ℚ} {p₀ : Plane} {tr : List PlaneEntry} {c : PlaneConfig}

/-- The other side can read the update. -/
def Decodes (update : ExecutionUpdate) : Prop := (decodeUpdate (encodeUpdate update)).isSome = true

theorem decodes_iff (update : ExecutionUpdate) : Decodes update ↔ Readable update := by
  unfold Decodes
  rw [decodeUpdate_encodeUpdate]
  split <;> simp [*]

/-- A fill of this reply is announced. -/
def FillAnnounced (tr : List PlaneEntry) (steps : List ExchangeStep) : Prop :=
  ∃ update, Announced tr update ∧ ∃ step ∈ steps, ∃ ledger execution,
    step.Carries ledger execution ∧ update.execution = some execution

/-- In every run against the paper exchange, every execution update decodes
exactly if every order was timely that a fill is announced of. -/
theorem updates_decode_iff (hrun : PlaneRun ⟨exp, PaperExchange.exchange⟩ p₀ tr c)
    (hpaper : ∀ t ∈ c.threads, t.job.brought = []) :
    (∀ update, Announced tr update → Decodes update) ↔
      ∀ e ∈ tr, ∀ order steps now, e.event = ⟨.sendOrder order, .ok steps⟩ →
        .ok steps = sendOrder none now order → FillAnnounced tr steps →
        Timely order (now + 2 * millisecond) := by
  constructor
  · rintro hdecodes e - order steps now - hreply ⟨update, hannounced, step, hstep, ledger,
      execution, hcarries, hexecution⟩
    have hread := (decodes_iff update).mp (hdecodes update hannounced)
    exact (readable_reply hreply hstep hcarries).mp (hread execution hexecution)
  · intro htimely update hannounced
    obtain ⟨e', he', hemit⟩ := hannounced
    obtain ⟨pre, post, hsplit⟩ := List.append_of_mem he'
    rw [decodes_iff]
    intro execution hexecution
    rcases ControlPlane.run_reported hrun hsplit hemit with hbare | ⟨e, he, id, ledger, event, hon⟩
    · rw [hbare.2] at hexecution
      cases hexecution
    · obtain ⟨-, hrecord⟩ := hon.records
      obtain rfl := Option.some.inj (hrecord.symm.trans hexecution)
      obtain ⟨position, hfill⟩ := hon.event
      obtain ⟨pre', post', hsplit'⟩ := List.append_of_mem (hsplit ▸ List.mem_append_left _ he)
      obtain ⟨step, t, ht, hfrom, hcarries⟩ :=
        ControlPlane.run_given hrun hsplit' (by rw [hfill])
      rcases hfrom with hbrought | ⟨sent, hsent, order, steps, hevent, hstep⟩
      · rw [hpaper t (List.mem_of_getElem? ht)] at hbrought
        cases hbrought
      · have hmem : sent ∈ tr := hsplit' ▸ List.mem_append_left _ hsent
        -- the fill came with the reply to `sent`, which the paper exchange gave
        have hsem := ControlPlane.run_sem hrun hmem
        rw [hevent] at hsem
        obtain ⟨⟨done, now, hreply⟩, -⟩ := hsem
        cases done with
        | some message => cases hreply
        | none =>
          exact (readable_reply hreply hstep hcarries).mpr (htimely sent hmem order steps now hevent
            hreply ⟨update, ⟨e', he', hemit⟩, step, hstep, ledger, event, hcarries, hexecution⟩)

end Run

/-! ## A client whose clock is ahead -/

namespace Desk

open ControlPlane.Desk (expCubic plane request clock)

/-- The request, stamped a second later than the control plane's clock reads. -/
def ahead : ControlPlane.ExecutionRequest :=
  { request with requestTime := clock + 1000 * millisecond }

theorem ahead_unread : ∃ tr p' result, PlaneRun ⟨expCubic, PaperExchange.exchange⟩ plane tr
      ⟨p', [⟨.submit ahead, .ret result⟩]⟩ ∧
    ∃ update, Announced tr update ∧ decide (¬ Readable update) = true :=
  paper_announces (by decide +kernel)

/-- Its fills are announced, and cannot be read. -/
theorem ahead_drops_fills : ¬ ∀ tr c,
    PlaneRun ⟨expCubic, PaperExchange.exchange⟩ plane tr c →
    (∀ t ∈ c.threads, t.job.brought = []) →
    ∀ update, Announced tr update → Decodes update := by
  intro h
  obtain ⟨tr, p', result, hrun, update, hannounced, hunread⟩ := ahead_unread
  have hdecodes := h tr _ hrun (by simp [ControlPlane.Job.brought]) update hannounced
  exact of_decide_eq_true hunread ((decodes_iff update).mp hdecodes)

/-- The same run, seen through the general theorem. -/
theorem updates_decode_iff_ahead : ∃ tr c,
    PlaneRun ⟨expCubic, PaperExchange.exchange⟩ plane tr c ∧
    (∀ t ∈ c.threads, t.job.brought = []) ∧ (∃ update, Announced tr update) ∧
    ((∀ update, Announced tr update → Decodes update) ↔
      ∀ e ∈ tr, ∀ order steps now, e.event = ⟨.sendOrder order, .ok steps⟩ →
        .ok steps = sendOrder none now order → FillAnnounced tr steps →
        Timely order (now + 2 * millisecond)) := by
  obtain ⟨tr, p', result, hrun, update, hannounced, -⟩ := ahead_unread
  have hpaper : ∀ t ∈ [(⟨.submit ahead, .ret result⟩ :
      RealTimeTrading.Concurrency.Thread ControlPlane.Op ControlPlane.Res ControlPlane.Job _)],
      t.job.brought = [] := by
    simp [ControlPlane.Job.brought]
  exact ⟨tr, _, hrun, hpaper, ⟨update, hannounced⟩, updates_decode_iff hrun hpaper⟩

end Desk

end RealTimeTrading.Wire
