/-
RealTimeTrading.ControlPlane.Duplicate — a `Submit` whose idempotency key
is already reserved.

`ReserveOrder` notices the duplicate, and what `Submit` does in front of
it, the risk check and the self-trade loop, does not ask. So a duplicate
goes unnoticed exactly when the risk service allows it and the loop finds
nothing to cancel.
-/
import RealTimeTrading.ControlPlane.Alone

namespace RealTimeTrading.ControlPlane

open RealTimeTrading.Concurrency

/-! ## A duplicate -/

/-- What is asked of a duplicate `Submit` that made these calls. -/
structure Untouched (req : ExecutionRequest) (p : Plane) (log : List (Event Op Res))
    (result : Order × Option Err) (p' : Plane) : Prop where
  orders : ∀ x, p'.store.orders.lookup x = p.store.orders.lookup x
  positions : p'.store.positions = p.store.positions
  ledger : p'.store.ledger = p.store.ledger
  reservations : p'.store.idempotency = p.store.idempotency
  remote : ∀ event ∈ log, event.1.isRemote = false
  answer : ∃ order, p.store.orderByIdempotency req.idempotencyKey = some order ∧
    result = (order, none)

section Submit

variable {env : Env} {p p' : Plane} {req : ExecutionRequest} {log : List (Event Op Res)}
  {result : Order × Option Err}

/-- The loop of a duplicate leaves the orders alone exactly if it finds no
open order on another side. -/
theorem cancelSelfTrades_untouched_iff {async : Bool} {opened : List Order}
    {req' : ExecutionRequest} (hwf : p.store.WellFormed)
    (hperm : opened.Perm (p.store.openOrdersBySymbol req'.symbol))
    (h : Logged (sem env) (cancelSelfTrades async req' opened) p log () p') :
    (∀ x, p'.store.orders.lookup x = p.store.orders.lookup x) ↔
      p.store.OneSided req'.symbol req'.side := by
  constructor
  · intro hsame x o ho hsymbol hopen
    by_contra hside
    have hlisted : o ∈ opened := by
      rw [hperm.mem_iff, Store.mem_openOrdersBySymbol]
      exact ⟨⟨x, ho⟩, hsymbol, hopen⟩
    have hid : o.id = x := hwf.stored x o ho
    obtain ⟨o', ho', hcanceled⟩ := (cancelSelfTrades_cancels opened hwf h).2 o hlisted hside
      (OrderStatus.not_terminal_of_open hopen) ⟨o, hid ▸ ho⟩
    rw [hid, hsame, ho] at ho'
    rw [Option.some.inj ho', hcanceled] at hopen
    cases hopen
  · intro hsided
    rw [cancelSelfTrades_oneSided opened ((Store.oneSided_iff_listed hperm).mp hsided)] at h
    obtain ⟨-, -, rfl⟩ := h
    exact fun _ => rfl

/-- After the risk check, all that can show is the loop. -/
theorem reserveAndSend_untouched_iff {async : Bool} {started requestAt : Time} {id : OrderID}
    (hwf : p.store.WellFormed)
    (hkey : p.store.idempotency.lookup req.idempotencyKey = some id)
    (h : Logged (sem env) (reserveAndSend async started requestAt req) p log result p') :
    Untouched req p log result p' ↔ p.store.OneSided req.symbol req.side := by
  obtain ⟨opened, p₁, log₁, log₂, hperm, rfl, hloop, hstore, hremote, rfl⟩ :=
    reserveAndSend_taken hkey h
  constructor
  · intro hun
    refine (cancelSelfTrades_untouched_iff hwf hperm hloop).mp fun x => ?_
    rw [← hstore]
    exact hun.orders x
  · intro hsided
    have hall := (Store.oneSided_iff_listed hperm).mp hsided
    rw [cancelSelfTrades_oneSided opened hall] at hloop
    obtain ⟨rfl, -, rfl⟩ := hloop
    obtain ⟨order, horder⟩ := (GoMap.mem_iff_lookup _ _).mp (hwf.reserved _ id hkey)
    exact {
      orders := fun x => by rw [hstore]
      positions := by rw [hstore]
      ledger := by rw [hstore]
      reservations := by rw [hstore]
      remote := by simpa [Op.isRemote] using hremote
      answer := ⟨order, by rw [Store.orderByIdempotency, hkey, Option.bind_some, horder],
        by rw [horder, Option.getD_some]⟩ }

/-- The risk check changes nothing that a duplicate could. -/
theorem untouched_checked {p₁ : Plane} {req' : ExecutionRequest} (checks : List (Event Op Res))
    (hstore : p₁.store = p.store) (hkey : req'.idempotencyKey = req.idempotencyKey)
    (hchecks : ∀ event ∈ checks, event.1.isRemote = false) :
    Untouched req p (checks ++ log) result p' ↔ Untouched req' p₁ log result p' := by
  have hremote : (∀ event ∈ checks ++ log, event.1.isRemote = false) ↔
      ∀ event ∈ log, event.1.isRemote = false := by
    rw [List.forall_mem_append]
    exact and_iff_right hchecks
  constructor
  · rintro ⟨h1, h2, h3, h4, h5, h6⟩
    exact ⟨by rwa [hstore], by rwa [hstore], by rwa [hstore], by rwa [hstore], hremote.mp h5,
      by rwa [hstore, hkey]⟩
  · rintro ⟨h1, h2, h3, h4, h5, h6⟩
    rw [hstore] at h1 h2 h3 h4 h6
    rw [hkey] at h6
    exact ⟨h1, h2, h3, h4, hremote.mpr h5, h6⟩

/-- A duplicate `Submit`, run alone, leaves everything alone and answers with
the holder exactly when the risk service allows it and no open order of its
symbol is on another side. -/
theorem duplicate_untouched_iff {now now' : Time} {id : OrderID} (hwf : p.store.WellFormed)
    (hkey : p.store.idempotency.lookup req.idempotencyKey = some id)
    (h : Logged (sem env) (submit env.exchange.async req) p log result p')
    (hclock : log[1]? =
      some ⟨.evaluate req, (p.risk.evaluate env.exp now now' p.store req).1⟩) :
    Untouched req p log result p' ↔
      (p.risk.evaluate env.exp now now' p.store req).1.allowed = true ∧
        p.store.OneSided req.symbol req.side := by
  have hne : req.idempotencyKey ≠ "" := by
    intro hempty
    unfold submit at h
    obtain ⟨_, _, _, rfl, -, hchecked⟩ := logged_call.mp h
    dsimp only at hchecked
    rw [if_pos hempty] at hchecked
    obtain ⟨rfl, -, -⟩ := hchecked
    cases hclock
  obtain ⟨started, requestAt, n, n', rest, rfl, hrest⟩ := submit_logged hne h
  have hdecision : (p.risk.evaluate env.exp n n' p.store req).1 =
      (p.risk.evaluate env.exp now now' p.store req).1 := by simpa using hclock
  rw [← hdecision]
  dsimp only at hrest
  split at hrest
  · rename_i hallowed
    generalize hscaled : scaledRequest _ req = req' at hrest
    have hkey' : req'.idempotencyKey = req.idempotencyKey := by
      rw [← hscaled, scaledRequest_idempotencyKey]
    have hrest_iff := reserveAndSend_untouched_iff
      (p := { p with risk := (p.risk.evaluate env.exp n n' p.store req).2 }) hwf
      (by rw [hkey']; exact hkey) hrest
    rw [and_iff_right hallowed, ← scaledRequest_symbol _ req, ← scaledRequest_side _ req, hscaled]
    refine Iff.trans ?_ hrest_iff
    exact untouched_checked [_, _] rfl hkey' (by simp [Op.isRemote])
  · rename_i hrefused
    refine iff_of_false (fun hun => ?_) fun hcond => hrefused hcond.1
    obtain ⟨_, _, _, _, _, _, _, _, _, _, _, rfl, _⟩ := hrest
    obtain ⟨order, -, heq⟩ := hun.answer
    cases heq

end Submit

/-! ## A duplicate that cancels its holder -/

/-- The same key on the other side. -/
def Desk.reversed : ExecutionRequest := { Desk.request with side := .sell }

/-- The order id-1 is there before and has another status after. -/
def statusChanged (p p' : Plane) : Bool :=
  decide ((p'.store.orders.lookup "id-1").map (·.status) ≠
    (p.store.orders.lookup "id-1").map (·.status))

theorem Desk.reversed_logged : ∃ log result p',
    Logged (sem Desk.env) (submit Desk.env.exchange.async Desk.reversed) Desk.holding log result
        p' ∧
      statusChanged Desk.holding p' = true := by
  have hplayout : (playout Desk.expCubic (fun _ => Desk.acked "id-2") (submit true Desk.reversed)
      Desk.holding).any (fun x => statusChanged Desk.holding x.2.2) = true := by decide +kernel
  obtain ⟨⟨log, result, p'⟩, hx, hchanged⟩ := (Option.any_eq_true _ _).mp hplayout
  have hreply : ∀ order, env.exchange.replies order (acked "id-2").reply :=
    acked_admissible 0 0 "id-2"
  exact ⟨log, result, p', playout_logged hreply hx, hchanged⟩

/-- The duplicate cancels the order that holds its key. -/
theorem duplicate_cancels_holder : ¬ ∀ tr c, PlaneRun Desk.env Desk.plane tr c →
    ∀ req log result p', (c.shared.store.idempotency.lookup req.idempotencyKey).isSome = true →
      Logged (sem Desk.env) (submit Desk.env.exchange.async req) c.shared log result p' →
      Untouched req c.shared log result p' := by
  intro h
  obtain ⟨log, result, p', hlog, hchanged⟩ := Desk.reversed_logged
  have hun := h _ _ (schedule_run Desk.submitted_admissible) Desk.reversed log result p'
    (by decide +kernel) hlog
  rw [statusChanged, hun.orders] at hchanged
  simp [Desk.holding] at hchanged

/-- The same submission, seen through the general theorem. -/
theorem duplicate_untouched_iff_reversed : ∃ log result p' now now',
    Logged (sem Desk.env) (submit Desk.env.exchange.async Desk.reversed) Desk.holding log result
        p' ∧
      (Untouched Desk.reversed Desk.holding log result p' ↔
        (Desk.holding.risk.evaluate Desk.env.exp now now' Desk.holding.store
          Desk.reversed).1.allowed = true ∧
          Desk.holding.store.OneSided Desk.reversed.symbol Desk.reversed.side) := by
  obtain ⟨log, result, p', hlog, -⟩ := Desk.reversed_logged
  obtain ⟨now, now', hclock⟩ := submit_evaluates (by decide) hlog
  exact ⟨log, result, p', now, now', hlog, duplicate_untouched_iff
    Desk.holding_wellFormed
    (show _ = some "id-1" by decide +kernel) hlog hclock⟩

end RealTimeTrading.ControlPlane
