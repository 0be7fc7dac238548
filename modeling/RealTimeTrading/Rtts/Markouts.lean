/-
RealTimeTrading.Rtts.Markouts — when fills are measured, and in which order
they are reported.

A fill's prices are the first ones at or after its horizons among the
updates that follow it (`Arrival.measured`). They are set in the order of
the horizons, so a fill with the last one has them all, and the fills
reported are exactly the front of the queue that has (`reported_eq`).
-/
import RealTimeTrading.Data.Windows
import RealTimeTrading.Rtts.ExecutionTruth

namespace RealTimeTrading.Rtts.ExecutionTruth

open Concurrency Data

/-! ## What the prices are to be -/

/-- A fill that is queued, with the inputs that follow it. -/
structure Arrival where
  fill : TruthFill
  after : List TruthInput

/-- The fills that are queued, in the order they arrive. -/
def arrivals : List TruthInput → List Arrival
  | [] => []
  | .fill fill :: rest => if fill.simulated then arrivals rest else ⟨fill, rest⟩ :: arrivals rest
  | .market _ :: rest => arrivals rest

def TruthInput.price? : TruthInput → Option (Nat × ℚ)
  | .fill _ => none
  | .market update => marketPrice update

/-- The priced updates among the inputs. -/
def pricesOf (inputs : List TruthInput) : List (Nat × ℚ) := inputs.filterMap TruthInput.price?

/-- The price of the first update from this time on. -/
def firstFrom (time : Nat) (inputs : List TruthInput) : Option ℚ :=
  ((pricesOf inputs).find? fun u => time ≤ u.1).map (·.2)

/-- Each price is the first one at or after its horizon. -/
def Arrival.measured (arrival : Arrival) : PendingFill where
  fill := arrival.fill
  createdAt := arrival.fill.timestamp
  price100ms := firstFrom (arrival.fill.timestamp + 100) arrival.after
  price500ms := firstFrom (arrival.fill.timestamp + 500) arrival.after
  price1s := firstFrom (arrival.fill.timestamp + 1000) arrival.after
  price5s := firstFrom (arrival.fill.timestamp + 5000) arrival.after

structure Measured (item : PendingFill) : Prop where
  price100ms : item.price100ms.isSome
  price500ms : item.price500ms.isSome
  price1s : item.price1s.isSome
  price5s : item.price5s.isSome

/-! ## One more input -/

section Inputs

variable {inputs : List TruthInput}

def Arrival.push (input : TruthInput) (arrival : Arrival) : Arrival :=
  { arrival with after := arrival.after ++ [input] }

theorem arrivals_concat (inputs : List TruthInput) (input : TruthInput) :
    arrivals (inputs ++ [input]) =
      (arrivals inputs).map (Arrival.push input) ++ arrivals [input] := by
  induction inputs with
  | nil => rfl
  | cons first rest ih =>
    cases first with
    | fill fill =>
      simp only [List.cons_append, arrivals, ih]
      split_ifs
      · rfl
      · rfl
    | market update => exact ih

theorem firstFrom_concat (time : Nat) (inputs : List TruthInput) (input : TruthInput) :
    firstFrom time (inputs ++ [input]) = (firstFrom time inputs).or (firstFrom time [input]) := by
  unfold firstFrom pricesOf
  rw [List.filterMap_append, List.find?_append, Option.map_or]

theorem firstFrom_unpriced (time : Nat) {input : TruthInput} (h : input.price? = none) :
    firstFrom time [input] = none := by
  simp [firstFrom, pricesOf, h]

theorem latch_eq (elapsed horizon : Nat) (price : ℚ) (slot : Option ℚ) :
    latch elapsed horizon price slot =
      slot.or (if horizon ≤ elapsed then some price else none) := by
  unfold latch
  cases slot <;> simp

/-- A price is latched when its horizon is first reached. -/
theorem latch_firstFrom {created horizon ts : Nat} {price : ℚ} {input : TruthInput}
    (hhorizon : 0 < horizon) (h : input.price? = some (ts, price)) (inputs : List TruthInput) :
    latch (ts - created) horizon price (firstFrom (created + horizon) inputs) =
      firstFrom (created + horizon) (inputs ++ [input]) := by
  have hpast : created + horizon ≤ ts ↔ horizon ≤ ts - created := by omega
  have hone : firstFrom (created + horizon) [input] =
      if horizon ≤ ts - created then some price else none := by
    simp only [firstFrom, pricesOf, List.filterMap_cons_some h, List.filterMap_nil,
      List.find?_cons, List.find?_nil, hpast]
    split_ifs with hle <;> simp [hle]
  rw [latch_eq, firstFrom_concat, hone]

theorem measured_push_priced {ts : Nat} {price : ℚ} {input : TruthInput}
    (h : input.price? = some (ts, price)) (arrival : Arrival) :
    (arrival.push input).measured = measure ts price arrival.measured := by
  unfold Arrival.measured measure
  dsimp only [Arrival.push]
  congr 1
  · exact (latch_firstFrom (by decide) h arrival.after).symm
  · exact (latch_firstFrom (by decide) h arrival.after).symm
  · exact (latch_firstFrom (by decide) h arrival.after).symm
  · exact (latch_firstFrom (by decide) h arrival.after).symm

theorem measured_push_unpriced {input : TruthInput} (h : input.price? = none) (arrival : Arrival) :
    (arrival.push input).measured = arrival.measured := by
  simp only [Arrival.measured, Arrival.push, firstFrom_concat, firstFrom_unpriced _ h,
    Option.or_none]

/-- A later time is not reached before an earlier one. -/
theorem firstFrom_isSome {earlier later : Nat} (hle : earlier ≤ later)
    (h : (firstFrom later inputs).isSome) : (firstFrom earlier inputs).isSome := by
  simp only [firstFrom, Option.isSome_map, List.find?_isSome, decide_eq_true_eq] at h ⊢
  obtain ⟨u, hu, htime⟩ := h
  exact ⟨u, hu, hle.trans htime⟩

theorem Arrival.measured_of_price5s {arrival : Arrival} (h : arrival.measured.price5s.isSome) :
    Measured arrival.measured where
  price100ms := firstFrom_isSome (by omega) h
  price500ms := firstFrom_isSome (by omega) h
  price1s := firstFrom_isSome (by omega) h
  price5s := h

theorem latch_of_isSome {slot : Option ℚ} (h : slot.isSome) (elapsed horizon : Nat) (price : ℚ) :
    latch elapsed horizon price slot = slot := by
  rw [latch_eq, Option.or_of_isSome h]

/-- Nothing is measured twice. -/
theorem Measured.measure_eq {item : PendingFill} (h : Measured item) (ts : Nat) (price : ℚ) :
    measure ts price item = item := by
  unfold measure
  simp only [latch_of_isSome h.price100ms, latch_of_isSome h.price500ms, latch_of_isSome h.price1s,
    latch_of_isSome h.price5s]

end Inputs

/-! ## The queue -/

def hasLast (item : PendingFill) : Bool := item.price5s.isSome

/-- No fill is given up without its last price: by then the update has set it. -/
theorem ready_measure (ts : Nat) (price : ℚ) (item : PendingFill) :
    ready ts (measure ts price item) = hasLast (measure ts price item) := by
  unfold ready hasLast
  rw [Bool.or_eq_left_iff_imp]
  intro hlate
  have hpast : markout5S ≤ ts - item.createdAt := by
    have hlate' := of_decide_eq_true hlate
    simp only [measure] at hlate'
    omega
  simp [measure, latch_eq, hpast]

variable (sqrt : ℚ → ℚ) (powf : ℚ → ℚ → ℚ)

theorem drain_eq {ts : Nat} {queue : List PendingFill}
    (h : ∀ item ∈ queue, ready ts item = hasLast item) (loop : TruthLoop) :
    (drain sqrt powf ts queue loop).1.map (·.item) = queue.takeWhile hasLast ∧
      (drain sqrt powf ts queue loop).2.pending = queue.dropWhile hasLast := by
  induction queue generalizing loop with
  | nil => exact ⟨rfl, rfl⟩
  | cons item rest ih =>
    have hrest := ih fun item hitem => h item (List.mem_cons_of_mem _ hitem)
    unfold drain
    rw [h item List.mem_cons_self]
    cases hdone : hasLast item with
    | false => simp [hdone]
    | true =>
      have hlater := hrest (finalize sqrt powf item loop).2
      rw [List.takeWhile_cons_of_pos hdone, List.dropWhile_cons_of_pos hdone, ← hlater.1,
        ← hlater.2]
      exact ⟨rfl, rfl⟩

/-! ## Runs -/

/-- The queue after these inputs. -/
def after (inputs : List TruthInput) : TruthLoop := (emit (step sqrt powf) {} inputs).2

/-- What the fills queued so far were measured at. -/
def measurements (inputs : List TruthInput) : List PendingFill :=
  (arrivals inputs).map Arrival.measured

theorem measured_of_mem {inputs : List TruthInput} {item : PendingFill}
    (h : item ∈ measurements inputs) (hlast : hasLast item = true) : Measured item := by
  obtain ⟨arrival, -, rfl⟩ := List.mem_map.mp h
  exact arrival.measured_of_price5s hlast

theorem measurements_unpriced (inputs : List TruthInput) {input : TruthInput}
    (h : input.price? = none) :
    measurements (inputs ++ [input]) = measurements inputs ++ measurements [input] := by
  unfold measurements
  rw [arrivals_concat, List.map_append, List.map_map]
  congr 1
  exact List.map_congr_left fun arrival _ => measured_push_unpriced h arrival

theorem measurements_priced (inputs : List TruthInput) {update : MarketUpdate} {ts : Nat}
    {price : ℚ} (h : marketPrice update = some (ts, price)) :
    measurements (inputs ++ [.market update]) = (measurements inputs).map (measure ts price) := by
  unfold measurements
  rw [arrivals_concat, List.map_append, List.map_map, List.map_map]
  refine (List.append_nil _).trans (List.map_congr_left fun arrival _ => ?_)
  exact measured_push_priced (show (TruthInput.market update).price? = _ from h) arrival

/-- The fills reported are the front of the queue that has its last price; the others wait
in order. -/
structure InOrder (inputs : List TruthInput) (reported pending : List PendingFill) : Prop where
  reported : reported = (measurements inputs).takeWhile hasLast
  pending : pending = (measurements inputs).dropWhile hasLast

variable {inputs : List TruthInput} {reported : List PendingFill} {loop : TruthLoop}

theorem InOrder.fill (h : InOrder inputs reported loop.pending) (fill : TruthFill) :
    InOrder (inputs ++ [.fill fill])
      (reported ++ (step sqrt powf loop (.fill fill)).1.map (·.item))
      (step sqrt powf loop (.fill fill)).2.pending := by
  have hmeasurements := measurements_unpriced inputs (rfl : (TruthInput.fill fill).price? = none)
  by_cases hsimulated : fill.simulated = true
  · have hnone : measurements [.fill fill] = [] := by simp [measurements, arrivals, hsimulated]
    rw [step, if_pos hsimulated]
    rw [hnone, List.append_nil] at hmeasurements
    refine ⟨?_, ?_⟩
    · rw [hmeasurements, ← h.reported]
      exact List.append_nil _
    · rw [hmeasurements, ← h.pending]
  · have hone : measurements [.fill fill] = [{ fill := fill, createdAt := fill.timestamp }] := by
      simp [measurements, arrivals, hsimulated, Arrival.measured, firstFrom, pricesOf]
    rw [step, if_neg hsimulated]
    rw [hone] at hmeasurements
    obtain ⟨htake, hdrop⟩ := takeWhile_concat_of_not (p := hasLast) (measurements inputs)
      (a := { fill := fill, createdAt := fill.timestamp }) rfl
    refine ⟨?_, ?_⟩
    · rw [hmeasurements, htake, ← h.reported]
      exact List.append_nil _
    · rw [hmeasurements, hdrop, ← h.pending]

theorem InOrder.market (h : InOrder inputs reported loop.pending) (update : MarketUpdate) :
    InOrder (inputs ++ [.market update])
      (reported ++ (step sqrt powf loop (.market update)).1.map (·.item))
      (step sqrt powf loop (.market update)).2.pending := by
  cases hprice : marketPrice update with
  | none =>
    have hmeasurements := measurements_unpriced inputs
      (show (TruthInput.market update).price? = none from hprice)
    rw [show measurements [.market update] = [] from rfl, List.append_nil] at hmeasurements
    rw [step, hprice]
    refine ⟨?_, ?_⟩
    · rw [hmeasurements, ← h.reported]
      exact List.append_nil _
    · rw [hmeasurements, ← h.pending]
  | some priced =>
    obtain ⟨ts, price⟩ := priced
    -- What has left is measured for good, so only the queue's front can grow.
    obtain ⟨htake, hdrop⟩ := takeWhile_map_of_fixed (f := measure ts price)
      fun item (hitem : item ∈ measurements inputs) hlast =>
        (measured_of_mem hitem hlast).measure_eq ts price
    have hready : ∀ item ∈ loop.pending.map (measure ts price), ready ts item = hasLast item := by
      intro item hitem
      obtain ⟨before, -, rfl⟩ := List.mem_map.mp hitem
      exact ready_measure ts price before
    obtain ⟨hdrained, hleft⟩ := drain_eq sqrt powf hready loop
    rw [step, hprice]
    refine ⟨?_, ?_⟩
    · rw [measurements_priced inputs hprice, htake, ← h.reported, ← h.pending]
      exact congrArg _ hdrained
    · rw [measurements_priced inputs hprice, hdrop, ← h.pending]
      exact hleft

theorem inOrder_run (inputs : List TruthInput) :
    InOrder inputs ((run sqrt powf inputs).map (·.item)) (after sqrt powf inputs).pending := by
  induction inputs using List.reverseRecOn with
  | nil => exact ⟨rfl, rfl⟩
  | append_singleton inputs input ih =>
    have hrun : (run sqrt powf (inputs ++ [input])).map (·.item) =
        (run sqrt powf inputs).map (·.item) ++
          (step sqrt powf (after sqrt powf inputs) input).1.map (·.item) := by
      rw [run, emit_append, List.map_append, emit_cons, emit_nil, List.append_nil]
      rfl
    have hafter : after sqrt powf (inputs ++ [input]) =
        (step sqrt powf (after sqrt powf inputs) input).2 := by
      rw [after, emit_append]
      rfl
    rw [hrun, hafter]
    cases input with
    | fill fill => exact ih.fill sqrt powf fill
    | market update => exact ih.market sqrt powf update

/-- The fills reported are the first ones to arrive, each measured at all four horizons by the
first updates that follow it and reach them; none is reported before its last one. -/
theorem markouts_measured (inputs : List TruthInput) :
    (run sqrt powf inputs).map (·.item) <+: (arrivals inputs).map Arrival.measured ∧
      (∀ finalized ∈ run sqrt powf inputs, Measured finalized.item) ∧
      ∀ k arrival, k < (run sqrt powf inputs).length → (arrivals inputs)[k]? = some arrival →
        ∃ update ∈ pricesOf arrival.after, arrival.fill.timestamp + 5000 ≤ update.1 := by
  have hfront : (run sqrt powf inputs).map (·.item) <+: measurements inputs := by
    rw [(inOrder_run sqrt powf inputs).reported]
    exact List.takeWhile_prefix _
  have hmeasured : ∀ finalized ∈ run sqrt powf inputs, Measured finalized.item := by
    intro finalized hfinalized
    have hmem := List.mem_map_of_mem (f := Finalized.item) hfinalized
    have hlast := hmem
    rw [(inOrder_run sqrt powf inputs).reported] at hlast
    exact measured_of_mem (hfront.mem hmem) (List.all_eq_true.mp List.all_takeWhile _ hlast)
  refine ⟨hfront, hmeasured, fun k arrival hk harrival => ?_⟩
  obtain ⟨later, hlater⟩ := hfront
  have hat : (measurements inputs)[k]? = some arrival.measured := by
    rw [measurements, List.getElem?_map, harrival, Option.map_some]
  rw [← hlater, List.getElem?_append_left (by rwa [List.length_map]), List.getElem?_map,
    Option.map_eq_some_iff] at hat
  obtain ⟨finalized, hfinalized, hitem⟩ := hat
  have hlast := (hmeasured finalized (List.mem_of_getElem? hfinalized)).price5s
  rw [hitem] at hlast
  simpa [Arrival.measured, firstFrom] using hlast

/-- A fill, with updates at each of its horizons and a late one in between. -/
def oneFill : List TruthInput :=
  let trade (timestamp : Nat) (price : ℚ) : TruthInput :=
    .market (.trade { timestamp := timestamp, price := price, volume := 1, side := .buy })
  [.fill
    { orderId := "o", fillId := "f", symbol := "BTCUSDT", side := .buy, price := 100
      filledSize := 1, liquidityFlag := .taker, fee := 0, feeAsset := "USDT", rebateAmount := 0
      fundingAmount := 0, timestamp := 1000, truth := { lastFillTimestamp := 1000 }, size := 1
      latencyUs := 0, latencyBreakdown := {}, expectedMarkout := 1, actualSlippageBps := 0
      competitionFlag := .none, regime := ⟨0, 0, 0⟩, partialFillRatio := 1, queueDelayUs := 0
      simulated := false },
    trade 1100 101, trade 1600 102, trade 1050 99, trade 2000 103, trade 6000 104]

/-- It is the first one, for which no root is taken. -/
theorem markouts_measured_oneFill :
    (run id (fun v _ => v) oneFill).length = 1 ∧
      ∃ update ∈ pricesOf oneFill.tail, 6000 ≤ update.1 := by
  have hone : (run id (fun v _ => v) oneFill).length = 1 := by decide +kernel
  refine ⟨hone, ?_⟩
  exact (markouts_measured id (fun v _ => v) oneFill).2.2 0 ⟨_, _⟩
    (hone.symm ▸ zero_lt_one) rfl

end RealTimeTrading.Rtts.ExecutionTruth
