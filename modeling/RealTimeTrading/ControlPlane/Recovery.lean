/-
RealTimeTrading.ControlPlane.Recovery — whether trading resumes once the
circuit is open.

A `Course` is a history of the desk, one job at a time: submissions,
execution events and market events. Its log tells which sends failed,
and that is all there is to the circuit: as long as none did, quiet
executions close it again; after the first one it stays open, for a
`Submit` that is refused sends nothing, and nothing else than a send
that goes through would lower the failure average.
-/
import RealTimeTrading.ControlPlane.Alone
import RealTimeTrading.ControlPlane.Risk.Circuit

namespace RealTimeTrading.ControlPlane

open RealTimeTrading.Concurrency

/-! ## Courses -/

/-- Submissions and events, the jobs of a course. -/
def Job.isCourse : Job → Bool
  | .submit _ | .executionEvent _ | .marketEvent _ => true
  | _ => false

/-- The histories of a desk, one job after the other, with the calls made. -/
inductive Course (env : Env) (p₀ : Plane) : List (Event Op Res) → Plane → Prop where
  | start : Course env p₀ [] p₀
  | next {log log' : List (Event Op Res)} {p p' : Plane} {j : Job} {result : Order × Option Err}
      (h : Course env p₀ log p) (hj : j.isCourse = true)
      (hrun : Logged (sem env) (code env j) p log' result p') : Course env p₀ (log ++ log') p'

/-- The exchange did not take the order. -/
def sendFailed : Event Op Res → Bool
  | ⟨.sendOrder _, reply⟩ =>
    match reply with
    | .error _ => true
    | .ok _ => false
  | _ => false

/-- A desk that has just started, with this store and this configuration. -/
def Plane.fresh (cfg : RiskConfig) (store : Store) : Plane :=
  { store := store, risk := .newService cfg }

/-! ## Calls -/

/-- The calls that neither send an order nor tell the service about a send. -/
def Op.isAside : Op → Bool
  | .evaluate _ | .sendOrder _ | .observeExecution _ _ | .setKillSwitch _ => false
  | _ => true

abbrev Op.Aside (o : Op) : Prop := o.isAside = true

/-- The service after some calls, of which `failed` says whether a send failed. -/
structure Service.Standing (failed : Bool) (cfg : RiskConfig) (s : Service) : Prop where
  untold : s.Untold cfg
  circuit : if failed = true then s.Tripped else s.Untripped

section Calls

variable {env : Env} {cfg : RiskConfig} {failed : Bool} {p p' : Plane} {o : Op} {r : Res o}

/-- A call changes the service by one of its methods, or not at all. -/
theorem sem_serviceCall (h : sem env o p r p') (hkill : ∀ enabled, o ≠ .setKillSwitch enabled) :
    p'.risk = p.risk ∨ ∃ c : ServiceCall, p'.risk = (c.perform env.exp p.risk).2 ∧
      ∀ store latency rejected, c = .observeExecution store latency rejected →
        o = .observeExecution latency rejected := by
  cases o with
  | evaluate req =>
    obtain ⟨now, now', -, rfl⟩ := h
    exact Or.inr ⟨.evaluate now now' p.store req, rfl, by simp⟩
  | observeExecution latency rejected =>
    obtain rfl := h
    refine Or.inr ⟨.observeExecution p.store latency rejected, rfl, ?_⟩
    rintro _ _ _ ⟨⟩
    rfl
  | observeExecutionEvent event =>
    obtain rfl := h
    exact Or.inr ⟨.observeExecutionEvent p.store event, rfl, by simp⟩
  | observeMarket event =>
    obtain ⟨now, rfl⟩ := h
    exact Or.inr ⟨.observeMarket now p.store event, rfl, by simp⟩
  | setKillSwitch enabled => exact absurd rfl (hkill enabled)
  | emit update => rcases h with rfl | rfl <;> exact Or.inl rfl
  | newID | openOrdersBySymbol | order | orderByIdempotency | orderByExchangeID | sendOrder =>
    obtain ⟨-, rfl⟩ := h
    exact Or.inl rfl
  | now | ctxErr | cancelRemote | replaceRemote | getAccountState =>
    obtain rfl := h
    exact Or.inl rfl
  | _ =>
    obtain ⟨now, -, rfl⟩ := h
    exact Or.inl rfl

/-- Until a send has failed, only a failed send matters; from then on, only one
that goes through. -/
theorem standing_step (hs : p.risk.Standing failed cfg) (h : sem env o p r p')
    (hkill : ∀ enabled, o ≠ .setKillSwitch enabled)
    (hsend : ∀ latency, o ≠ .observeExecution latency !failed) : p'.risk.Standing failed cfg := by
  rcases sem_serviceCall h hkill with hsame | ⟨c, hrisk, hc⟩
  · rwa [hsame]
  · have hnot : ∀ store latency, c ≠ .observeExecution store latency !failed :=
      fun store latency heq => hsend latency (hc _ _ _ heq)
    rw [hrisk]
    refine ⟨hs.untold.perform c, ?_⟩
    cases failed with
    | false => exact Service.Untripped.perform hs.circuit hnot
    | true => exact Service.Tripped.perform hs.circuit hnot

theorem standing_aside (hs : p.risk.Standing failed cfg) (h : sem env o p r p') (ho : o.Aside) :
    p'.risk.Standing failed cfg := by
  refine standing_step hs h ?_ ?_
  · rintro enabled rfl
    cases ho
  · rintro latency rfl
    cases ho

theorem standing_trips {latency : Duration} {u : Unit} (hs : p.risk.Standing false cfg)
    (h : sem env (.observeExecution latency true) p u p') : p'.risk.Standing true cfg := by
  have huntold : (p.risk.observeExecution env.exp p.store latency true).Untold cfg :=
    hs.untold.perform (.observeExecution p.store latency true)
  obtain rfl := h
  exact ⟨huntold, Service.Untripped.trips hs.circuit latency⟩

end Calls

/-! ## Programs -/

section Aside

theorem aside_block (o : Op) (h : o.isBlock = true) : o.Aside := by
  cases o <;> first | rfl | cases h

theorem aside_call {o : Op} (h : o.Aside) : (call o).Only Op.Aside := only_call h

theorem aside_pure {α : Type} (a : α) : (pure a : Gw α).Only Op.Aside := only_pure a

end Aside

/-! ## The circuit follows the log -/

/-- From such a standing, the program leaves the one its log calls for. -/
def Follows {α : Type} (env : Env) (cfg : RiskConfig) (failed : Bool) (prog : Gw α) : Prop :=
  ∀ {p p' : Plane} {log : List (Event Op Res)} {a : α}, p.risk.Standing failed cfg →
    Logged (sem env) prog p log a p' → p'.risk.Standing (failed || log.any sendFailed) cfg

section Follows

variable {α β : Type} {env : Env} {cfg : RiskConfig} {failed : Bool}

theorem any_sendFailed_aside {log : List (Event Op Res)} (h : ∀ e ∈ log, e.1.Aside) :
    log.any sendFailed = false := by
  rw [List.any_eq_false]
  rintro ⟨o, r⟩ he
  cases o with
  | sendOrder order => cases h _ he
  | _ => simp [sendFailed]

theorem follows_aside {prog : Gw α} (h : prog.Only Op.Aside) : Follows env cfg failed prog := by
  intro p p' log a hs hlog
  rw [any_sendFailed_aside (hlog.only h), Bool.or_false]
  exact hlog.invariant_only (P := fun q : Plane => q.risk.Standing failed cfg)
    (fun o _ _ _ (ho : o.Aside) hp hsem => standing_aside hp hsem ho) h hs

theorem Follows.after {prog : Gw α} {f : α → Gw β} (h : prog.Only Op.Aside)
    (hf : ∀ a, Follows env cfg failed (f a)) : Follows env cfg failed (prog >>= f) := by
  intro p p' log b hs hlog
  obtain ⟨a, p₁, log₁, log₂, rfl, h₁, h₂⟩ := (logged_bind _ _ _).mp hlog
  have hs₁ := follows_aside h hs h₁
  rw [any_sendFailed_aside (h₁.only h), Bool.or_false] at hs₁
  rw [List.any_append, any_sendFailed_aside (h₁.only h), Bool.false_or]
  exact hf a hs₁ h₂

/-- The send itself: a reply that is an error trips the circuit. -/
theorem follows_sendReserved (started : Time) (reserved : Order) :
    Follows env cfg false (sendReserved started reserved) := by
  refine Follows.after (only_markSent aside_block reserved) fun reserved => ?_
  intro p p' log result hs hlog
  obtain ⟨reply, _, _, rfl, ⟨-, rfl⟩, finished, _, _, rfl, rfl, hlog⟩ := hlog
  cases reply with
  | error message =>
    obtain ⟨u, p₁, rest, rfl, htrip, hlog⟩ := logged_call.mp hlog
    have hs' := follows_aside ((aside_call rfl).bind fun _ => (aside_call rfl).bind fun _ =>
      aside_pure _) (standing_trips hs htrip) hlog
    simpa [sendFailed] using hs'
  | ok steps =>
    obtain ⟨u, p₁, rest, rfl, hsent, hlog⟩ := logged_call.mp hlog
    have hs₁ : p₁.risk.Standing false cfg := standing_step hs hsent (by simp) (by simp)
    have hs' :=
      follows_aside ((only_stepwise aside_block).applySteps reserved steps reserved) hs₁ hlog
    simpa [sendFailed] using hs'

theorem follows_reserveAndSend (async : Bool) (started requestAt : Time) (req : ExecutionRequest) :
    Follows env cfg false (reserveAndSend async started requestAt req) := by
  refine Follows.after (aside_call rfl) fun opened =>
    Follows.after ((only_sequenced aside_block).cancelSelfTrades async req opened) fun _ =>
    Follows.after (aside_call rfl) fun id => Follows.after (aside_call rfl) fun sendAt =>
    Follows.after (aside_call rfl) fun r => ?_
  obtain ⟨reserved, duplicate, err⟩ := r
  dsimp only
  split
  · exact follows_aside (aside_pure _)
  · split
    · exact follows_aside (aside_pure _)
    · exact follows_aside (aside_pure _)
    · exact follows_sendReserved started reserved
    · exact follows_sendReserved started reserved

/-- A `Submit` sends only when the circuit lets it. -/
theorem follows_submit (async : Bool) (req : ExecutionRequest) :
    Follows env cfg failed (submit async req) := by
  refine Follows.after (aside_call rfl) fun started => ?_
  dsimp only
  split
  · exact follows_aside (aside_pure _)
  · intro p p' log result hs hlog
    obtain ⟨decision, p₁, rest, rfl, hsem, hlog⟩ := logged_call.mp hlog
    have hs₁ : p₁.risk.Standing failed cfg := standing_step hs hsem (by simp) (by simp)
    obtain ⟨now, now', hdecision, -⟩ := hsem
    split at hlog
    · rename_i hallowed
      cases failed with
      | false =>
        have hs' := follows_reserveAndSend async _ _ _ hs₁ hlog
        simpa [sendFailed] using hs'
      | true =>
        rw [hdecision, Service.Tripped.refuses hs.circuit] at hallowed
        cases hallowed
    · have hs' := follows_aside ((aside_call rfl).bind fun _ => (aside_call rfl).bind fun _ =>
        aside_pure _) hs₁ hlog
      simpa [sendFailed] using hs'

theorem follows_code {j : Job} (hj : j.isCourse = true) : Follows env cfg failed (code env j) := by
  cases j with
  | submit req => exact follows_submit _ req
  | executionEvent event | marketEvent event =>
    exact follows_aside ((aside_call rfl).bind fun _ => aside_pure _)
  | _ => cases hj

theorem standing_fresh (cfg : RiskConfig) (store : Store) :
    (Plane.fresh cfg store).risk.Standing false cfg :=
  ⟨untold_newService cfg, Service.untripped_newService cfg⟩

/-- After any course, the circuit stands as its log says. -/
theorem Course.standing {p₀ p : Plane} {log : List (Event Op Res)} (h : Course env p₀ log p)
    (hs : p₀.risk.Standing failed cfg) : p.risk.Standing (failed || log.any sendFailed) cfg := by
  induction h with
  | start => rwa [List.any_nil, Bool.or_false]
  | next _ hj hrun ih =>
    rw [List.any_append, ← Bool.or_assoc]
    exact follows_code hj ih hrun

end Follows

/-! ## The way back -/

/-- A request that is not refused for its own shape. -/
structure ExecutionRequest.WellFormed (req : ExecutionRequest) : Prop where
  key : req.idempotencyKey ≠ ""
  symbol : req.symbol ≠ ""
  execute : req.decision = .execute
  size : 0 < req.size
  price : ∀ price, req.price = some price → 0 < price

/-- Events and submissions whose sends succeed lead to a state in which, at any
reading of the clock, some well-formed request is allowed. -/
def Recovers (env : Env) (p : Plane) : Prop :=
  ∃ log p', Course env p log p' ∧ log.any sendFailed = false ∧
    ∀ now now', ∃ req : ExecutionRequest, req.WellFormed ∧
      (p'.risk.evaluate env.exp now now' p'.store req).1.allowed = true

section Recovery

variable {env : Env} {cfg : RiskConfig} {p : Plane}

/-- Calm executions, as a course. -/
theorem course_calmed (env : Env) (p : Plane) (n : Nat) : ∃ log,
    Course env p log { p with risk := p.risk.calmed p.store n } ∧ log.any sendFailed = false := by
  induction n with
  | zero => exact ⟨[], .start, rfl⟩
  | succ n ih =>
    obtain ⟨log, hcourse, hlog⟩ := ih
    let event := (p.risk.calmed p.store n).feedback.calmEvent
    refine ⟨log ++ [⟨.observeExecutionEvent event, ()⟩], ?_, ?_⟩
    · exact hcourse.next (j := .executionEvent event) rfl ⟨(), _, [], rfl, rfl, rfl, rfl, rfl⟩
    · rw [List.any_append, hlog]
      rfl

/-- A request that reduces a position, as old as it may be. -/
def reducing (maxSignalAge : Duration) (now : Time) : ExecutionRequest :=
  { idempotencyKey := "cid-1"
    symbol := "BTCUSDT"
    side := .sell
    size := 1
    price := some 100
    decision := .execute
    signalTime := now - maxSignalAge
    reduceOnly := true }

theorem reducing_wellFormed (maxSignalAge : Duration) (now : Time) :
    (reducing maxSignalAge now).WellFormed where
  key := show "cid-1" ≠ "" by decide
  symbol := show "BTCUSDT" ≠ "" by decide
  execute := rfl
  size := show (0 : ℚ) < 1 from zero_lt_one
  price := by
    rintro _ ⟨⟩
    decide +kernel

/-- On a steady service that knows of no loss, it passes. -/
theorem reducing_passes {exp : ℚ → ℚ} {s : Service} {store : Store} (h : s.Untold cfg)
    (hlimit : 0 < cfg.maxDailyLossUSD) (hsteady : s.intelligence.Steady) (now now' : Time) :
    (s.evaluate exp now now' store (reducing cfg.maxSignalAge now)).1.allowed = true := by
  rw [Service.evaluate_allowed_iff, h.passes_iff hlimit]
  exact {
    execute := rfl
    fresh := by
      rw [h.cfg]
      exact le_of_eq (Int.sub_sub_self now cfg.maxSignalAge)
    size := show (0 : ℚ) < 1 from zero_lt_one
    price := show (0 : ℚ) < 100 by norm_num
    affordable := fun hreduce => by cases hreduce
    steady := hsteady
    worthwhile := fun hreduce => by cases hreduce }

theorem recovers_of_untripped (h : p.risk.Standing false cfg) (hlimit : 0 < cfg.maxDailyLossUSD) :
    Recovers env p := by
  obtain ⟨n, hsteady⟩ : ∃ n, (p.risk.calmed p.store n).intelligence.Steady :=
    Service.exists_calmed h.circuit
  obtain ⟨log, hcourse, hlog⟩ := course_calmed env p n
  have hs := hcourse.standing h
  exact ⟨log, _, hcourse, hlog, fun now now' => ⟨_, reducing_wellFormed cfg.maxSignalAge now,
    reducing_passes hs.untold hlimit hsteady now now'⟩⟩

/-- Once tripped, no course ever leads to a state in which a request is allowed. -/
theorem tripped_refuses (h : p.risk.Standing true cfg) {log : List (Event Op Res)} {p' : Plane}
    (hcourse : Course env p log p') (now now' : Time) (req : ExecutionRequest) :
    (p'.risk.evaluate env.exp now now' p'.store req).1.allowed = false :=
  Service.Tripped.refuses (hcourse.standing h).circuit now now' req

theorem no_limit_refuses {failed : Bool} (h : p.risk.Standing failed cfg)
    (hlimit : cfg.maxDailyLossUSD ≤ 0) (now now' : Time) (req : ExecutionRequest) :
    (p.risk.evaluate env.exp now now' p.store req).1.allowed = false := by
  rw [← Bool.not_eq_true, Service.evaluate_allowed_iff]
  intro hp
  have hloss := hp.loss
  rw [h.untold.cfg, h.untold.dailyPnL] at hloss
  linarith

end Recovery

namespace Desk

/-- The desk's request, whose send fails, from its first call to its last. -/
def lostSubmit : Option (List (Event Op Res) × (Order × Option Err) × Plane) :=
  playout expCubic (fun _ => lost) (submit env.exchange.async request) (.fresh riskConfig .newStore)

theorem lostSubmit_course : ∃ log p, Course env (.fresh riskConfig .newStore) log p ∧
    log.any sendFailed = true := by
  have hsome : lostSubmit.isSome = true := by decide +kernel
  obtain ⟨⟨log, result, p⟩, hrun⟩ := Option.isSome_iff_exists.mp hsome
  have hfailed : ∀ x, lostSubmit = some x → x.1.any sendFailed = true := by
    have h : lostSubmit.all (fun x => x.1.any sendFailed) = true := by decide +kernel
    intro x hx
    rw [hx] at h
    exact h
  have hlogged : Logged (sem env) (code env (.submit request)) (.fresh riskConfig .newStore) log
      result p := by
    have hreply : ∀ order, env.exchange.replies order lost.reply := lost_admissible 0 0
    exact playout_logged hreply hrun
  exact ⟨log, p, Course.start.next rfl hlogged, hfailed _ hrun⟩

end Desk

end RealTimeTrading.ControlPlane
