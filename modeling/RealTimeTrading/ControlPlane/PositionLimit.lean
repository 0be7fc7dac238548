/-
RealTimeTrading.ControlPlane.PositionLimit — `MaxPositionUSD` against the
paper exchange.

The gate compares the limit with the notional of one order; the position
is what all the orders so far add up to. A `Submit` against the paper
exchange moves the position by exactly the scaled size of its order, in
two halves (`Submission.position_after`), so the limit holds after it
exactly when the position it found plus the order is within the limit.
-/
import RealTimeTrading.ControlPlane.PaperFills
import Mathlib.Tactic.Linarith
import Mathlib.Tactic.Ring

namespace RealTimeTrading.ControlPlane

open RealTimeTrading.Concurrency

/-! ## A submission -/

/-- The position after an order of this size is filled in two halves. -/
def grown (position : ℚ) (side : Side) (size : ℚ) : ℚ :=
  settle (settle (position + side.signed (size * 0.5)) + side.signed (size - size * 0.5))

theorem filledBy_paper {order : Order} (hsize : 0 < order.size) (hprice : order.price.isSome = true)
    (side : Side) (position reference : ℚ) (ackAt : Time) :
    filledBy side position (PaperExchange.buildPaperFills order reference ackAt) =
      grown position side order.size := by
  simp [PaperExchange.buildPaperFills, not_le.mpr hsize, hprice, filledBy, grown,
    PaperExchange.newLedgerFill]

section Submit

variable {env : Env} {p p' : Plane} {log : List (Event Op Res)} {a : Order × Option Err}

/-- After the risk check: a duplicate moves no position, a new order its own size. -/
theorem position_reserveAndSend {async : Bool} {started requestAt : Time} {req : ExecutionRequest}
    {key : String} (hkey : req.idempotencyKey = key)
    (hexchange : env.exchange = PaperExchange.exchange) (hwf : p.store.WellFormed)
    (hsize : 0 < req.size) (hprice : req.price.isSome = true)
    (hanswered : ∀ order message, (⟨.sendOrder order, .error message⟩ : Event Op Res) ∉ log)
    (h : Logged (sem env) (reserveAndSend async started requestAt req) p log a p') :
    (p'.store.position req.symbol).size =
      if (p.store.idempotency.lookup key).isSome = true then (p.store.position req.symbol).size
      else grown (p.store.position req.symbol).size req.side req.size := by
  subst hkey
  split
  · rename_i htaken
    obtain ⟨id, hid⟩ := Option.isSome_iff_exists.mp htaken
    obtain ⟨opened, p₁, log₁, log₂, -, -, hloop, hstore, -, -⟩ := reserveAndSend_taken hid h
    rw [hstore, Store.position, Store.position, (cancelSelfTrades_frame hloop).1]
  · rename_i hfree
    rw [Option.not_isSome_iff_eq_none] at hfree
    obtain ⟨opened, p₁, log₁, id, order, -, hloop, -, hident, hpriced, ackAt, calls, hcalls, -, -,
      hexecuted⟩ := logged_reserveAndSend hexchange hwf hfree hanswered h
    have hsymbols : order.ident.symbol = req.symbol := congrArg OrderIdent.symbol hident
    have hsides : order.ident.side = req.side := congrArg OrderIdent.side hident
    have hsizes : order.size = req.size := congrArg OrderIdent.size hident
    have hposition := hexecuted.position
    rw [hcalls, filledBy_paper (hsizes ▸ hsize) (hpriced ▸ hprice), hsymbols, hsides,
      hsizes] at hposition
    rw [hposition, Store.position, Store.position, (cancelSelfTrades_frame hloop).1]

end Submit

/-! ## Sequences of submissions -/

/-- One `Submit`: the state it found, the readings of the clock its risk check
made, its calls, and what it left. -/
structure Submission where
  req : ExecutionRequest
  now : Time
  now' : Time
  before : Plane
  log : List (Event Op Res)
  result : Order × Option Err
  after : Plane

namespace Submission

variable (exp : ℚ → ℚ) (x : Submission)

/-- What the risk service decides. -/
def decision : RiskDecision :=
  (x.before.risk.evaluate exp x.now x.now' x.before.store x.req).1

/-- The request carries a key and the risk service allows it. -/
def Admitted : Prop := x.req.idempotencyKey ≠ "" ∧ (x.decision exp).allowed = true

/-- The position the submission found, in its symbol. -/
def position : ℚ := (x.before.store.position x.req.symbol).size

/-- The position with the order added to it: none, for a key that is taken. -/
def extended : ℚ :=
  if (x.before.store.idempotency.lookup x.req.idempotencyKey).isSome = true then x.position
  else grown x.position x.req.side (scaledRequest (x.decision exp) x.req).size

/-- The program ran alone against the paper exchange, which answered. -/
structure OnPaper : Prop where
  logged : Logged (sem ⟨exp, PaperExchange.exchange⟩) (submit false x.req) x.before x.log x.result
    x.after
  clock : x.req.idempotencyKey ≠ "" → x.log[1]? = some ⟨.evaluate x.req, x.decision exp⟩
  answered : ∀ order message, (⟨.sendOrder order, .error message⟩ : Event Op Res) ∉ x.log

end Submission

/-- These submissions, one after the other. -/
inductive Session (exp : ℚ → ℚ) : Plane → List Submission → Plane → Prop where
  | nil (p : Plane) : Session exp p [] p
  | cons {x : Submission} {xs : List Submission} {p : Plane} (h : x.OnPaper exp)
      (hrest : Session exp x.after xs p) : Session exp x.before (x :: xs) p

/-! ## The limit -/

section Limit

variable {exp : ℚ → ℚ}

theorem Submission.scaled_pos {x : Submission} (hadmitted : x.Admitted exp) :
    0 < (scaledRequest (x.decision exp) x.req).size := by
  have hpasses := (Service.evaluate_allowed_iff _ _ _ _ _ _).mp hadmitted.2
  unfold scaledRequest
  split
  · rename_i h
    exact mul_pos hpasses.size h.1
  · exact hpasses.size

/-- A submission with a key is the risk check, and what follows its decision. -/
theorem Submission.checked {x : Submission} (hx : x.OnPaper exp)
    (hkey : x.req.idempotencyKey ≠ "") : ∃ started requestAt risk rest,
      x.log = ⟨.now, started⟩ :: ⟨.evaluate x.req, x.decision exp⟩ :: rest ∧
      Logged (sem ⟨exp, PaperExchange.exchange⟩)
        (if (x.decision exp).allowed = true then
          reserveAndSend false started requestAt (scaledRequest (x.decision exp) x.req)
        else do
          let id ← call .newID
          let order := refusedOrder id x.req (x.decision exp).reason
          call (.emit (.orderRejected order))
          pure (order, some (.riskRejected (x.decision exp).reason)))
        { x.before with risk := risk } rest x.result x.after := by
  obtain ⟨started, requestAt, n, n', rest, hlog, hrest⟩ := submit_logged hkey hx.logged
  have hdecision : (x.before.risk.evaluate exp n n' x.before.store x.req).1 = x.decision exp := by
    have hclock := hx.clock hkey
    rw [hlog] at hclock
    simpa using hclock
  rw [hdecision] at hlog hrest
  exact ⟨started, requestAt, _, rest, hlog, hrest⟩

/-- An admitted submission goes on to the reservation. -/
theorem Submission.admitted_logged {x : Submission} (hx : x.OnPaper exp)
    (hadmitted : x.Admitted exp) : ∃ started requestAt risk rest,
      sentFills x.log = sentFills rest ∧
      (∀ order message, (⟨.sendOrder order, .error message⟩ : Event Op Res) ∉ rest) ∧
      Logged (sem ⟨exp, PaperExchange.exchange⟩)
        (reserveAndSend false started requestAt (scaledRequest (x.decision exp) x.req))
        { x.before with risk := risk } rest x.result x.after := by
  obtain ⟨hkey, hallowed⟩ := hadmitted
  obtain ⟨started, requestAt, risk, rest, hlog, hrest⟩ := x.checked hx hkey
  rw [if_pos hallowed] at hrest
  refine ⟨started, requestAt, risk, rest, by rw [hlog]; rfl, ?_, hrest⟩
  intro order message hmem
  exact hx.answered order message (by rw [hlog]; simp [hmem])

/-- An admitted submission leaves the position extended by its order. -/
theorem Submission.position_after {x : Submission} (hx : x.OnPaper exp)
    (hwf : x.before.store.WellFormed) (hprice : x.req.price.isSome = true)
    (hadmitted : x.Admitted exp) :
    (x.after.store.position x.req.symbol).size = x.extended exp := by
  obtain ⟨started, requestAt, risk, rest, -, hanswered, hrest⟩ := x.admitted_logged hx hadmitted
  have hafter := position_reserveAndSend (scaledRequest_idempotencyKey _ _) rfl
    (p := { x.before with risk := risk }) hwf (x.scaled_pos hadmitted)
    (by rw [scaledRequest_cases]; exact hprice) hanswered hrest
  simp only [scaledRequest_symbol, scaledRequest_side] at hafter
  exact hafter

/-- In every sequence of submissions on one symbol at one price against the
paper exchange, the position is within the limit after every admitted request
that may add to it exactly if for each of them the position it found,
extended by its order, is. -/
theorem position_within_iff {p₀ p' : Plane} {xs : List Submission} (hwf : p₀.store.WellFormed)
    (h : Session exp p₀ xs p') {symbol : Symbol} {price : ℚ}
    (hreq : ∀ x ∈ xs, x.req.symbol = symbol ∧ x.req.price = some price) :
    (∀ x ∈ xs, x.Admitted exp → x.req.reduceOnly = false →
        |(x.after.store.position symbol).size| * price ≤ p₀.risk.cfg.maxPositionUSD) ↔
      ∀ x ∈ xs, x.Admitted exp → x.req.reduceOnly = false →
        |x.extended exp| * price ≤ p₀.risk.cfg.maxPositionUSD := by
  suffices hall : ∀ x ∈ xs, x.Admitted exp →
      (x.after.store.position symbol).size = x.extended exp by
    constructor
    · intro hwithin x hx hadmitted hreduce
      rw [← hall x hx hadmitted]
      exact hwithin x hx hadmitted hreduce
    · intro hfits x hx hadmitted hreduce
      rw [hall x hx hadmitted]
      exact hfits x hx hadmitted hreduce
  induction h with
  | nil => simp
  | @cons x xs p hx _ ih =>
    obtain ⟨⟨hsymbol, hpriced⟩, hrest⟩ := List.forall_mem_cons.mp hreq
    have hwf' : x.after.store.WellFormed := hx.logged.invariant (P := fun p => p.store.WellFormed)
      (fun _ _ _ _ hp hs => sem_wellFormed hs hp) hwf
    refine List.forall_mem_cons.mpr ⟨fun hadmitted => ?_, ih hwf' hrest⟩
    rw [← hsymbol]
    exact x.position_after hx hwf (by rw [hpriced]; rfl) hadmitted

/-- From a flat position, an order grows no further than its size. -/
theorem abs_grown_flat {size : ℚ} (hsize : 0 ≤ size) (side : Side) :
    |grown 0 side size| ≤ size := by
  have hhalf : |side.signed (size * 0.5)| = size * 0.5 := by
    rw [Side.abs_signed, abs_of_nonneg (by linarith)]
  have hrest : |side.signed (size - size * 0.5)| = size - size * 0.5 := by
    rw [Side.abs_signed, abs_of_nonneg (by linarith)]
  calc |grown 0 side size|
      ≤ |settle (0 + side.signed (size * 0.5)) + side.signed (size - size * 0.5)| := abs_settle_le _
    _ ≤ |settle (0 + side.signed (size * 0.5))| + |side.signed (size - size * 0.5)| :=
        abs_add_le _ _
    _ ≤ |side.signed (size * 0.5)| + |side.signed (size - size * 0.5)| :=
        add_le_add (by simpa using abs_settle_le (0 + side.signed (size * 0.5))) le_rfl
    _ = size := by rw [hhalf, hrest]; ring

/-- What the gate does guarantee: an admitted order on a flat position is within
the limit. -/
theorem Submission.within_of_flat {x : Submission} {price : ℚ} (hprice : x.req.price = some price)
    (hadmitted : x.Admitted exp) (hreduce : x.req.reduceOnly = false) (hflat : x.position = 0) :
    |x.extended exp| * price ≤ x.before.risk.cfg.maxPositionUSD := by
  have hpasses := (Service.evaluate_allowed_iff _ _ _ _ _ _).mp hadmitted.2
  have hchecked : x.before.risk.checkedPrice x.req = price := by
    rw [Service.checkedPrice, hprice, Option.getD_some]
  have hpos : 0 < price := hchecked ▸ hpasses.price
  have hlimit := (hpasses.affordable hreduce).position
  rw [hchecked] at hlimit
  have hscaled : (scaledRequest (x.decision exp) x.req).size ≤ x.req.size := by
    unfold scaledRequest
    split
    · rename_i h
      exact mul_le_of_le_one_right hpasses.size.le h.2.1.le
    · exact le_rfl
  have hgrown : |x.extended exp| ≤ x.req.size := by
    unfold Submission.extended
    rw [hflat]
    split
    · rw [abs_zero]
      exact hpasses.size.le
    · exact (abs_grown_flat (x.scaled_pos hadmitted).le _).trans hscaled
  exact (mul_le_mul_of_nonneg_right hgrown hpos.le).trans hlimit

end Limit

/-! ## Two orders within the limit -/

namespace Desk

/-- An order of 95 at 100, under a limit of 10000. -/
def large (key : String) : ExecutionRequest := { request with idempotencyKey := key, size := 95 }

/-- The paper exchange answers. -/
def paperWorld (id : OrderID) : Op → World
  | .sendOrder order =>
    { now := clock, id := id, reply := PaperExchange.sendOrder none clock order }
  | _ => { now := clock, id := id }

theorem paperWorld_replies (id : OrderID) (order : Order) :
    PaperExchange.exchange.replies order (paperWorld id (.sendOrder order)).reply :=
  ⟨none, clock, rfl⟩

/-- A playout of one request is a run against the paper exchange. -/
theorem paper_run {id : OrderID} {req : ExecutionRequest} {p p' : Plane}
    {log : List (Event Op Res)} {result : Order × Option Err}
    (h : playout expCubic (paperWorld id) (submit false req) p = some (log, result, p')) :
    ∃ tr, PlaneRun ⟨expCubic, PaperExchange.exchange⟩ p tr ⟨p', [⟨.submit req, .ret result⟩]⟩ ∧
      tr.map (·.event) = log := by
  obtain ⟨tr, hrun, hlog⟩ := Run.logged (S := ControlPlane.plane ⟨expCubic, PaperExchange.exchange⟩)
    (j := .submit req) Run.init (playout_logged (paperWorld_replies id) h)
  exact ⟨tr, hrun, hlog⟩

/-- The log shows an allowed request and no failed send. -/
def admittedIn (log : List (Event Op Res)) : Bool :=
  (match (log[1]? : Option (Event Op Res)) with
    | some ⟨.evaluate _, decision⟩ => decision.allowed
    | _ => false) &&
  log.all fun event => match event with
    | ⟨.sendOrder _, .error _⟩ => false
    | _ => true

/-- A playout of an admitted request against the paper exchange is a submission. -/
theorem submission_of_playout {req : ExecutionRequest} {id : OrderID} {p p' : Plane}
    {log : List (Event Op Res)} {result : Order × Option Err} (hkey : req.idempotencyKey ≠ "")
    (h : playout expCubic (paperWorld id) (submit false req) p = some (log, result, p'))
    (hadmitted : admittedIn log = true) :
    ∃ x : Submission, x.OnPaper expCubic ∧ x.Admitted expCubic ∧ x.req = req ∧
      x.before = p ∧ x.after = p' ∧ x.log = log := by
  have hlog : Logged (sem ⟨expCubic, PaperExchange.exchange⟩) (submit false req) p log result p' :=
    playout_logged (paperWorld_replies id) h
  obtain ⟨now, now', hclock⟩ := submit_evaluates hkey hlog
  rw [admittedIn, hclock, Bool.and_eq_true] at hadmitted
  refine ⟨⟨req, now, now', p, log, result, p'⟩, ⟨hlog, fun _ => hclock, ?_⟩,
    ⟨hkey, hadmitted.1⟩, rfl, rfl, rfl, rfl⟩
  intro order message hmem
  exact absurd (List.all_eq_true.mp hadmitted.2 _ hmem) (by simp)

/-- Two such orders leave 190 at 100. -/
theorem two_large : ∃ xs p', Session expCubic plane xs p' ∧
    (∀ x ∈ xs, x.req.symbol = "BTCUSDT" ∧ x.req.price = some 100) ∧
    ∃ x ∈ xs, x.Admitted expCubic ∧ x.req.reduceOnly = false ∧
      plane.risk.cfg.maxPositionUSD < |(x.after.store.position "BTCUSDT").size| * 100 := by
  have hplayouts : (playout expCubic (paperWorld "id-1") (submit false (large "cid-1")) plane).any
      (fun first => admittedIn first.1 &&
        (playout expCubic (paperWorld "id-2") (submit false (large "cid-2")) first.2.2).any
          fun second => admittedIn second.1 && decide (plane.risk.cfg.maxPositionUSD <
            |(second.2.2.store.position "BTCUSDT").size| * 100)) = true := by decide +kernel
  obtain ⟨⟨log₁, result₁, p₁⟩, h₁, hrest⟩ := (Option.any_eq_true _ _).mp hplayouts
  rw [Bool.and_eq_true] at hrest
  obtain ⟨⟨log₂, result₂, p₂⟩, h₂, hover⟩ := (Option.any_eq_true _ _).mp hrest.2
  rw [Bool.and_eq_true, decide_eq_true_eq] at hover
  obtain ⟨x, hx, -, hreqx, hbefore, hafter, -⟩ := submission_of_playout (by decide) h₁ hrest.1
  obtain ⟨y, hy, hadmitted, hreqy, hbefore', hafter', -⟩ :=
    submission_of_playout (by decide) h₂ hover.1
  refine ⟨[x, y], p₂, ?_, ?_, y, by simp, hadmitted, by rw [hreqy]; rfl,
    by rw [hafter']; exact hover.2⟩
  · have hlast : Session expCubic y.before [y] y.after := .cons hy (.nil _)
    rw [hbefore', hafter', ← hafter] at hlast
    rw [← hbefore]
    exact .cons hx hlast
  · simp [hreqx, hreqy, large, request]

/-- Each order is within the limit, the position is not. -/
theorem position_exceeds_limit : ¬ ∀ xs p', Session expCubic plane xs p' →
    (∀ x ∈ xs, x.req.symbol = "BTCUSDT" ∧ x.req.price = some 100) →
    ∀ x ∈ xs, x.Admitted expCubic → x.req.reduceOnly = false →
      |(x.after.store.position "BTCUSDT").size| * 100 ≤ plane.risk.cfg.maxPositionUSD := by
  intro h
  obtain ⟨xs, p', hsession, hreq, x, hx, hadmitted, hreduce, hover⟩ := two_large
  exact absurd hover (not_lt.mpr (h xs p' hsession hreq x hx hadmitted hreduce))

/-- The two orders, seen through the general theorem. -/
theorem position_within_iff_two : ∃ xs p', Session expCubic plane xs p' ∧ xs ≠ [] ∧
    ((∀ x ∈ xs, x.Admitted expCubic → x.req.reduceOnly = false →
        |(x.after.store.position "BTCUSDT").size| * 100 ≤ plane.risk.cfg.maxPositionUSD) ↔
      ∀ x ∈ xs, x.Admitted expCubic → x.req.reduceOnly = false →
        |x.extended expCubic| * 100 ≤ plane.risk.cfg.maxPositionUSD) := by
  obtain ⟨xs, p', hsession, hreq, x, hx, -⟩ := two_large
  exact ⟨xs, p', hsession, List.ne_nil_of_mem hx,
    position_within_iff plane_wellFormed hsession hreq⟩

end Desk

end RealTimeTrading.ControlPlane
