/-
RealTimeTrading.ControlPlane.ReduceOnly — what becomes of a reduce-only
request on its way to the exchange.

`domain.Order` has no field for the flag and `SendOrder` sets it to
false, so the parameters never carry it. The risk checks it switches off
leave the side and the size of the request alone: whether the order can
only reduce the position is decided by the request and the position.
-/
import RealTimeTrading.ControlPlane.Idempotency
import Mathlib.Tactic.Linarith

namespace RealTimeTrading.ControlPlane

open RealTimeTrading.Concurrency

/-! ## Orders that only reduce -/

/-- The side is opposite to the position and the size at most its size. -/
def Reduces (side : Side) (size : ℚ) (pos : Position) : Prop :=
  ((0 < pos.size ∧ side = .sell) ∨ (pos.size < 0 ∧ side = .buy)) ∧ size ≤ |pos.size|

instance (side : Side) (size : ℚ) (pos : Position) : Decidable (Reduces side size pos) := by
  unfold Reduces; infer_instance

/-- Fully filled, such an order leaves a position that is no larger and on the
same side, or flat. -/
theorem Reduces.filled {side : Side} {size : ℚ} {pos : Position} (h : Reduces side size pos)
    (hsize : 0 ≤ size) :
    let after := pos.size + (if side = .sell then -size else size)
    |after| ≤ |pos.size| ∧ 0 ≤ after * pos.size := by
  obtain ⟨⟨hlong, rfl⟩ | ⟨hshort, rfl⟩, hle⟩ := h
  · rw [abs_of_pos hlong] at hle ⊢
    simp only [if_true]
    have hafter : 0 ≤ pos.size + -size := by linarith
    exact ⟨by rw [abs_of_nonneg hafter]; linarith, mul_nonneg hafter hlong.le⟩
  · rw [abs_of_neg hshort] at hle ⊢
    rw [if_neg (by decide)]
    have hafter : pos.size + size ≤ 0 := by linarith
    exact ⟨by rw [abs_of_nonpos hafter]; linarith, mul_nonneg_of_nonpos_of_nonpos hafter hshort.le⟩

/-! ## The flag -/

namespace BingX

/-- `PlaceOrder` sends the flag exactly when its request has it. -/
theorem placeOrderParams_reduceOnly (std : Std) (req : ExecutionRequest) :
    (placeOrderParams std req).lookup "reduceOnly" =
      if req.reduceOnly = true then some "true" else none := by
  unfold placeOrderParams
  cases req.price <;> cases req.reduceOnly <;>
    simp [-AList.insert_empty]

/-- `SendOrder` never does. -/
theorem sendOrder_reduceOnly (std : Std) (order : Order) :
    (placeOrderParams std (sendOrderRequest order)).lookup "reduceOnly" = none := by
  rw [placeOrderParams_reduceOnly]
  rfl

end BingX

/-- What is asked of the send of a reduce-only order: the parameters say so,
or the order can only reduce the position stored at that moment. -/
def SendsSafely (std : BingX.Std) (s : Store) (order : Order) : Prop :=
  (BingX.placeOrderParams std (BingX.sendOrderRequest order)).lookup "reduceOnly" = some "true" ∨
    Reduces order.side order.size (s.position order.symbol)

instance (std : BingX.Std) (s : Store) (order : Order) : Decidable (SendsSafely std s order) := by
  unfold SendsSafely; infer_instance

/-- In every run, a reduce-only request is sent safely exactly when its side is
opposite to the position stored at the send and its size at most that position's. -/
theorem reduceOnly_sendsSafely_iff {env : Env} {p₀ : Plane} {tr : List PlaneEntry}
    {c : PlaneConfig} (std : BingX.Std) (hwf : p₀.store.WellFormed) (hrun : PlaneRun env p₀ tr c) :
    ∀ e ∈ tr, ∀ order, e.event.1 = .sendOrder order → ∀ req,
      (c.threads[e.tid]?).map (·.job) = some (.submit req) → req.reduceOnly = true →
      (SendsSafely std e.pre.store order ↔
        Reduces req.side req.size (e.pre.store.position req.symbol)) := by
  intro e he order hsend req hjob hreduce
  obtain ⟨req', hjob', hfor⟩ := send_for_request hwf hrun he hsend
  have hsame := hjob.symm.trans hjob'
  injection hsame with hsame
  injection hsame with hsame
  subst hsame
  have hside : order.side = req.side := hfor.side
  have hsymbol : order.symbol = req.symbol := hfor.symbol
  have hsize : order.size = req.size := hfor.size hreduce
  rw [SendsSafely, BingX.sendOrder_reduceOnly, hside, hsymbol, hsize]
  simp

/-- A reduce-only buy while the book is flat. -/
def flatReduce : List Command :=
  [.start (.submit { Desk.request with reduceOnly := true }), .run 0 16 (Desk.acked "id-1")]

theorem flatReduce_admissible : ∀ command ∈ flatReduce, command.Admissible Desk.env := by
  simp only [flatReduce, List.forall_mem_cons]
  exact ⟨trivial, Desk.acked_admissible _ _ _, by simp⟩

/-- The line sends, unsafely, an order of a reduce-only submission. -/
def PlaneEntry.unsafeSend (c : PlaneConfig) (e : PlaneEntry) : Bool :=
  match e.event, (c.threads[e.tid]?).map (·.job) with
  | ⟨.sendOrder order, _⟩, some (Job.submit req) =>
    req.reduceOnly && !decide (SendsSafely Desk.std e.pre.store order)
  | _, _ => false

theorem flatReduce_sends : ∃ e ∈ (schedule Desk.env Desk.plane flatReduce).1, ∃ order req,
    e.event.1 = .sendOrder order ∧
      ((schedule Desk.env Desk.plane flatReduce).2.threads[e.tid]?).map (·.job) =
        some (.submit req) ∧
      req.reduceOnly = true ∧ ¬ SendsSafely Desk.std e.pre.store order := by
  have hany : (schedule Desk.env Desk.plane flatReduce).1.any
      (PlaneEntry.unsafeSend (schedule Desk.env Desk.plane flatReduce).2) = true := by
    decide +kernel
  obtain ⟨e, he, hunsafe⟩ := List.any_eq_true.mp hany
  unfold PlaneEntry.unsafeSend at hunsafe
  split at hunsafe
  · rename_i order reply req hevent hjob
    rw [Bool.and_eq_true] at hunsafe
    exact ⟨e, he, order, req, congrArg Sigma.fst hevent, hjob, hunsafe.1, by simpa using hunsafe.2⟩
  · cases hunsafe

theorem flat_reduce_unsafe : ¬ ∀ tr c, PlaneRun Desk.env Desk.plane tr c →
    ∀ e ∈ tr, ∀ order, e.event.1 = .sendOrder order → ∀ req,
      (c.threads[e.tid]?).map (·.job) = some (.submit req) → req.reduceOnly = true →
      SendsSafely Desk.std e.pre.store order := by
  intro h
  obtain ⟨e, he, order, req, hsend, hjob, hreduce, hunsafe⟩ := flatReduce_sends
  exact hunsafe (h _ _ (schedule_run flatReduce_admissible) e he order hsend req hjob hreduce)

/-- The send of that run, seen through the general theorem. -/
theorem reduceOnly_sendsSafely_iff_flat :
    ∃ e ∈ (schedule Desk.env Desk.plane flatReduce).1, ∃ order, ∃ req : ExecutionRequest,
      e.event.1 = .sendOrder order ∧ req.reduceOnly = true ∧
      (SendsSafely Desk.std e.pre.store order ↔
        Reduces req.side req.size (e.pre.store.position req.symbol)) := by
  obtain ⟨e, he, order, req, hsend, hjob, hreduce, -⟩ := flatReduce_sends
  exact ⟨e, he, order, req, hsend, hreduce,
    reduceOnly_sendsSafely_iff Desk.std Desk.plane_wellFormed (schedule_run flatReduce_admissible)
      e he order hsend req hjob hreduce⟩

end RealTimeTrading.ControlPlane
