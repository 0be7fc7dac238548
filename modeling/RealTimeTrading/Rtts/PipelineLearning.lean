/-
RealTimeTrading.Rtts.PipelineLearning — what the pipeline learns from.

A sample comes to the adaptive loop from the truth alone, and the truth makes
one of each fill it has measured. So whatever the interleaving, what is
learned is of fills the control plane has reported, in order and none twice,
at the prices of updates the feed has sent. What the truth has neither
reported nor lost is still in its queue.
-/
import RealTimeTrading.Rtts.Markouts
import RealTimeTrading.Rtts.PipelineFills

namespace RealTimeTrading.Rtts

open Concurrency

/-! ## The truth -/

namespace ExecutionTruth

def TruthInput.fill? : TruthInput → Option TruthFill
  | .fill filled => some filled
  | .market _ => none

def TruthInput.update? : TruthInput → Option MarketUpdate
  | .fill _ => none
  | .market update => some update

/-- What is learned of a fill that is measured. -/
def sampleOf (item : PendingFill) : TruthSample := learningSampleFromEvent (finalizedEvent item)

/-- The price is that of one of these updates, no earlier than this. -/
def PricedFrom (updates : List MarketUpdate) (time : Nat) (price : Option ℚ) : Prop :=
  ∃ update ∈ updates, ∃ ts p, marketPrice update = some (ts, p) ∧ time ≤ ts ∧ price = some p

/-- Each markout is at the price of one of these updates, past its horizon. -/
structure MeasuredOn (updates : List MarketUpdate) (item : PendingFill) : Prop where
  price100ms : PricedFrom updates (item.fill.timestamp + 100) item.price100ms
  price500ms : PricedFrom updates (item.fill.timestamp + 500) item.price500ms
  price1s : PricedFrom updates (item.fill.timestamp + 1000) item.price1s
  price5s : PricedFrom updates (item.fill.timestamp + 5000) item.price5s

/-- The fill came among these inputs, and none after it has had a price five seconds past it. -/
structure Waits (inputs : List TruthInput) (item : PendingFill) : Prop where
  price5s : item.price5s = none
  arrived : ∃ arrival ∈ arrivals inputs, item = arrival.measured ∧
    ∀ u ∈ pricesOf arrival.after, u.1 < item.fill.timestamp + 5000

section Loop

variable {inputs : List TruthInput}

theorem arrivals_fill (inputs : List TruthInput) :
    (arrivals inputs).map (·.fill) =
      (inputs.filterMap (·.fill?)).filter fun fill => !fill.simulated := by
  induction inputs with
  | nil => rfl
  | cons input rest ih =>
    cases input with
    | fill fill =>
      rw [arrivals, List.filterMap_cons_some (rfl : (TruthInput.fill fill).fill? = some fill),
        List.filter_cons]
      cases hsimulated : fill.simulated with
      | true => simpa using ih
      | false => simpa using ih
    | market update => exact ih

theorem arrival_suffix {arrival : Arrival} (h : arrival ∈ arrivals inputs) :
    arrival.after <:+ inputs := by
  induction inputs with
  | nil => cases h
  | cons input rest ih =>
    have hlater (h : arrival ∈ arrivals rest) : arrival.after <:+ input :: rest :=
      (ih h).trans (List.suffix_cons _ _)
    cases input with
    | fill fill =>
      rw [arrivals] at h
      split at h
      · exact hlater h
      · rcases List.mem_cons.mp h with rfl | h
        · exact List.suffix_cons _ _
        · exact hlater h
    | market update => exact hlater h

/-- The first price from a time on is that of an update. -/
theorem pricedFrom_firstFrom {time : Nat} (h : (firstFrom time inputs).isSome) :
    PricedFrom (inputs.filterMap (·.update?)) time (firstFrom time inputs) := by
  obtain ⟨price, hprice⟩ := Option.isSome_iff_exists.mp h
  rw [hprice]
  obtain ⟨u, hfound, rfl⟩ := Option.map_eq_some_iff.mp hprice
  have hlate : time ≤ u.1 := by simpa using List.find?_some hfound
  obtain ⟨input, hinput, hpriced⟩ := List.mem_filterMap.mp (List.mem_of_find?_eq_some hfound)
  cases input with
  | fill fill => cases hpriced
  | market update =>
    exact ⟨update, List.mem_filterMap.mpr ⟨_, hinput, rfl⟩, u.1, u.2, hpriced, hlate, rfl⟩

theorem PricedFrom.mono {updates later : List MarketUpdate} {time : Nat} {price : Option ℚ}
    (h : PricedFrom updates time price) (hle : updates ⊆ later) : PricedFrom later time price := by
  obtain ⟨update, hupdate, hprice⟩ := h
  exact ⟨update, hle hupdate, hprice⟩

/-- A fill with its last price has been measured on the updates that came after it. -/
theorem measuredOn_of_mem {item : PendingFill} (h : item ∈ measurements inputs)
    (hlast : hasLast item = true) : MeasuredOn (inputs.filterMap (·.update?)) item := by
  have hmeasured := measured_of_mem h hlast
  obtain ⟨arrival, harrival, rfl⟩ := List.mem_map.mp h
  have hafter : arrival.after.filterMap (·.update?) ⊆ inputs.filterMap (·.update?) :=
    ((arrival_suffix harrival).filterMap _).subset
  exact
    { price100ms := (pricedFrom_firstFrom hmeasured.price100ms).mono hafter
      price500ms := (pricedFrom_firstFrom hmeasured.price500ms).mono hafter
      price1s := (pricedFrom_firstFrom hmeasured.price1s).mono hafter
      price5s := (pricedFrom_firstFrom hmeasured.price5s).mono hafter }

variable (sqrt : ℚ → ℚ) (powf : ℚ → ℚ → ℚ)

theorem sample_drain {ts : Nat} {queue : List PendingFill} {loop : TruthLoop}
    {finalized : Finalized} (h : finalized ∈ (drain sqrt powf ts queue loop).1) :
    finalized.sample = sampleOf finalized.item := by
  induction queue generalizing loop with
  | nil => cases h
  | cons item rest ih =>
    unfold drain at h
    split at h
    · rcases List.mem_cons.mp h with rfl | hlater
      · rfl
      · exact ih hlater
    · cases h

theorem sample_step {loop : TruthLoop} {input : TruthInput} {finalized : Finalized}
    (h : finalized ∈ (step sqrt powf loop input).1) :
    finalized.sample = sampleOf finalized.item := by
  cases input with
  | fill fill =>
    rw [step] at h
    split at h
    · cases h
    · cases h
  | market update =>
    rw [step] at h
    split at h
    · exact sample_drain sqrt powf h
    · cases h

/-- The sample sent is that of the fill. -/
theorem samples_run (inputs : List TruthInput) :
    (run sqrt powf inputs).map (·.sample) =
      ((run sqrt powf inputs).map (·.item)).map sampleOf := by
  rw [List.map_map]
  refine List.map_congr_left fun finalized hfinalized => ?_
  obtain ⟨before, input, rest, -, hmade⟩ := mem_emit_iff.mp hfinalized
  exact sample_step sqrt powf hmade

/-- The fills that have come are those reported and those that wait. -/
theorem finished_append_pending (inputs : List TruthInput) :
    (run sqrt powf inputs).map (·.item) ++ (after sqrt powf inputs).pending =
      measurements inputs := by
  rw [(inOrder_run sqrt powf inputs).reported, (inOrder_run sqrt powf inputs).pending]
  exact List.takeWhile_append_dropWhile

/-- The first fill that waits has no last price yet. -/
theorem waits_of_head {item : PendingFill}
    (h : item ∈ (after sqrt powf inputs).pending.head?) : Waits inputs item := by
  rw [(inOrder_run sqrt powf inputs).pending] at h
  have hnone : item.price5s = none := by
    have hlast : hasLast item = false := by
      have hhead := List.head?_dropWhile_not hasLast (measurements inputs)
      rw [Option.mem_def.mp h] at hhead
      exact hhead
    simpa [hasLast] using hlast
  have hmem := (List.dropWhile_suffix hasLast).subset (List.mem_of_mem_head? h)
  obtain ⟨arrival, harrival, rfl⟩ := List.mem_map.mp hmem
  refine ⟨hnone, arrival, harrival, rfl, fun u hu => ?_⟩
  have hfirst : firstFrom (arrival.fill.timestamp + 5000) arrival.after = none := hnone
  rw [firstFrom, Option.map_eq_none_iff, List.find?_eq_none] at hfirst
  have hearly := hfirst u hu
  exact not_le.mp fun hle => hearly (decide_eq_true hle)

theorem measuredOn_run {item : PendingFill}
    (h : item ∈ (run sqrt powf inputs).map (·.item)) :
    MeasuredOn (inputs.filterMap (·.update?)) item := by
  rw [(inOrder_run sqrt powf inputs).reported] at h
  exact measuredOn_of_mem ((List.takeWhile_prefix _).mem h)
    (List.all_eq_true.mp List.all_takeWhile _ h)

end Loop

end ExecutionTruth

/-! ## The pipeline -/

namespace Pipeline

open Concurrency.Network (Quiet)

/-- The fill an update reports, as the truth is told of it. -/
def truthOf (payload : Wire.ControlPlaneExecutionUpdate) : Option TruthFill :=
  (Wire.handleUpdate payload).2.map truthFill

/-- The fills the control plane has reported, as the truth sees them. -/
def truthsReported (trace : Trace) : List TruthFill :=
  (entered Chan.executionFeed trace).filterMap truthOf

variable (setup : Setup)

/-- What the truth has heard. -/
def truthHeard (trace : Trace) : List ExecutionTruth.TruthInput :=
  ((network setup).received .truth trace).filterMap truthInput

/-- The fills it is done with. -/
def finished (trace : Trace) : List PendingFill :=
  (ExecutionTruth.run setup.sqrt setup.powf (truthHeard setup trace)).map (·.item)

/-- Where the samples of a run come from. -/
structure Learned (trace : Trace) (x : Moment Task Chan Msg State) : Prop where
  fills : ((finished setup trace ++ (x.state .truth).pending).map (·.fill)).Sublist
    (truthsReported trace)
  measured : ∀ item ∈ finished setup trace,
    ExecutionTruth.MeasuredOn (updatesIn setup trace) item
  learning : (taken Chan.learning trace).Sublist
    ((finished setup trace).map ExecutionTruth.sampleOf)
  reversal : (taken Chan.learningReversal trace).Sublist
    ((finished setup trace).map ExecutionTruth.sampleOf)

/-- Nothing that was reported is missing, and what waits in front still has to. -/
structure LearnedAll (trace : Trace) (x : Moment Task Chan Msg State) : Prop where
  fills : (finished setup trace ++ (x.state .truth).pending).map (·.fill) = truthsReported trace
  learning : taken Chan.learning trace = (finished setup trace).map ExecutionTruth.sampleOf
  reversal : taken Chan.learningReversal trace =
    (finished setup trace).map ExecutionTruth.sampleOf
  waiting : ∀ item ∈ (x.state .truth).pending.head?,
    ExecutionTruth.Waits (truthHeard setup trace) item

variable {setup} {trace : Trace} {x : Moment Task Chan Msg State}

theorem emitted_truthFill (setup : Setup) (trace : Trace) :
    (network setup).emitted .external .truthFill trace =
      (taken Chan.executionFeed trace).filterMap truthOf := by
  rw [Network.taken_eq (network setup), List.filterMap_filterMap,
    List.filterMap_eq_flatMap_toList, ← List.map_id (Network.emitted _ _ _ _)]
  refine Network.emitted_map (fun s r => ?_) trace
  obtain ⟨env, c, m⟩ := r
  cases c with
  | executionFeed =>
    have hsent : (react setup .external s (env, ⟨.executionFeed, m⟩)).1 =
        (⟨.controllerExec, (Wire.handleUpdate m).1⟩ ::
          (Wire.handleUpdate m).2.toList.flatMap fillSends).flatMap fun m => [m] := rfl
    show List.map id ((react setup .external s (env, ⟨.executionFeed, m⟩)).1.filterMap _) =
      (truthOf m).toList
    rw [hsent, truthOf]
    cases (Wire.handleUpdate m).2 <;> rfl
  | _ => rfl

theorem fills_truthHeard (setup : Setup) (trace : Trace) :
    (truthHeard setup trace).filterMap (·.fill?) = taken .truthFill trace := by
  rw [Network.taken_eq (network setup), truthHeard, List.filterMap_filterMap]
  refine congrArg (List.filterMap · _) (funext fun r => ?_)
  obtain ⟨env, c, m⟩ := r
  cases c <;> rfl

theorem updates_truthHeard (setup : Setup) (trace : Trace) :
    (truthHeard setup trace).filterMap (·.update?) = taken .truthMarket trace := by
  rw [Network.taken_eq (network setup), truthHeard, List.filterMap_filterMap]
  refine congrArg (List.filterMap · _) (funext fun r => ?_)
  obtain ⟨env, c, m⟩ := r
  cases c <;> rfl

theorem state_truth (h : (network setup).Run trace x) :
    x.state .truth = ExecutionTruth.after setup.sqrt setup.powf (truthHeard setup trace) := by
  rw [h.accounts.state]
  show (emit (listen truthInput (ExecutionTruth.step setup.sqrt setup.powf) _) _ _).2 = _
  rw [emit_listen]
  rfl

theorem emitted_samples (setup : Setup) (trace : Trace) :
    (network setup).emitted .truth .learning trace =
        (finished setup trace).map ExecutionTruth.sampleOf ∧
      (network setup).emitted .truth .learningReversal trace =
        (finished setup trace).map ExecutionTruth.sampleOf := by
  have hsent (c : Chan) : (network setup).emitted .truth c trace =
      ((ExecutionTruth.run setup.sqrt setup.powf (truthHeard setup trace)).flatMap fun finalized =>
        [(⟨.learning, finalized.sample⟩ : Send), ⟨.learningReversal, finalized.sample⟩]).filterMap
          (on c) := by
    show (emit (listen truthInput (ExecutionTruth.step setup.sqrt setup.powf) _) _ _).1.filterMap
      (on c) = _
    rw [emit_listen]
    rfl
  rw [hsent, hsent, finished, ← ExecutionTruth.samples_run]
  generalize ExecutionTruth.run setup.sqrt setup.powf (truthHeard setup trace) = reports
  induction reports with
  | nil => exact ⟨rfl, rfl⟩
  | cons finalized rest ih =>
    exact ⟨congrArg (finalized.sample :: ·) ih.1, congrArg (finalized.sample :: ·) ih.2⟩

/-- No fill of the control plane counts as simulated. -/
theorem simulated_truthOf {payload : Wire.ControlPlaneExecutionUpdate} {fill : TruthFill}
    (h : truthOf payload = some fill) : fill.simulated = false := by
  unfold truthOf Wire.handleUpdate at h
  obtain ⟨filled, hfilled, rfl⟩ := Option.map_eq_some_iff.mp h
  dsimp only at hfilled
  split at hfilled
  · obtain rfl := Option.some.inj hfilled
    rfl
  · cases hfilled

/-- The truth takes fills that were reported, in order. -/
theorem taken_truthFill_sublist (h : (network setup).Run trace x) :
    (taken Chan.truthFill trace).Sublist (truthsReported trace) := by
  have hsome := h.taken_sublist (c := .truthFill) rfl
  rw [emitted_truthFill] at hsome
  have hheard : taken Chan.executionFeed trace <+: entered Chan.executionFeed trace := by
    rw [h.accounts.queued]
    exact List.prefix_append _ _
  exact hsome.trans (hheard.filterMap _).sublist

/-- Those it has taken it has finished with, or they wait. -/
theorem finished_append_waiting (h : (network setup).Run trace x) :
    (finished setup trace ++ (x.state .truth).pending).map (·.fill) =
      taken Chan.truthFill trace := by
  have hreal : ∀ fill ∈ taken Chan.truthFill trace, (!fill.simulated) = true := by
    intro fill hfill
    obtain ⟨payload, -, htruth⟩ :=
      List.mem_filterMap.mp ((taken_truthFill_sublist h).subset hfill)
    rw [simulated_truthOf htruth]
    rfl
  rw [state_truth h, finished, ExecutionTruth.finished_append_pending,
    ExecutionTruth.measurements, List.map_map]
  refine (ExecutionTruth.arrivals_fill _).trans ?_
  rw [fills_truthHeard, List.filter_eq_self.mpr hreal]

/-- In every run the pipeline learns of fills the control plane has reported, in order and
none twice, at the prices of updates of the feed. -/
theorem learned (setup : Setup) (trace : Trace) (x : Moment Task Chan Msg State)
    (h : (network setup).Run trace x) : Learned setup trace x where
  fills := by
    rw [finished_append_waiting h]
    exact taken_truthFill_sublist h
  measured item hitem := by
    obtain ⟨h100, h500, h1, h5⟩ := ExecutionTruth.measuredOn_run setup.sqrt setup.powf hitem
    rw [updates_truthHeard] at h100 h500 h1 h5
    have hfeed := (taken_truthMarket_sublist h).subset
    exact ⟨h100.mono hfeed, h500.mono hfeed, h1.mono hfeed, h5.mono hfeed⟩
  learning := (emitted_samples setup trace).1 ▸ h.taken_sublist (c := .learning) rfl
  reversal := (emitted_samples setup trace).2 ▸ h.taken_sublist (c := .learningReversal) rfl

/-- At rest, if nothing was refused on the way to the truth or from it, every fill reported
has been learned from once, in order, but for those that wait for their last price. -/
theorem learned_all (setup : Setup) (trace : Trace) (x : Moment Task Chan Msg State)
    (h : (network setup).Run trace x) (hquiet : Quiet x)
    (hkept : ∀ c ∈ [Chan.truthFill, .learning, .learningReversal], ∀ m, .drop c m ∉ trace) :
    LearnedAll setup trace x where
  fills := by
    have hfeed := h.accounts.queued Chan.executionFeed
    rw [hquiet.queue, List.append_nil] at hfeed
    rw [finished_append_waiting h, h.taken_of_kept hquiet (c := .truthFill) rfl
      (hkept _ (by simp)), emitted_truthFill, truthsReported, hfeed]
  learning := by
    rw [h.taken_of_kept hquiet (c := .learning) rfl (hkept _ (by simp)), (emitted_samples _ _).1]
  reversal := by
    rw [h.taken_of_kept hquiet (c := .learningReversal) rfl (hkept _ (by simp)),
      (emitted_samples _ _).2]
  waiting item hitem := by
    rw [state_truth h] at hitem
    exact ExecutionTruth.waits_of_head setup.sqrt setup.powf hitem

/-! ## One sample -/

/-- The market five seconds and more after the fill. -/
def later : MarketUpdate :=
  .bookDelta { timestamp := 6000, bids := [⟨101, 1⟩], asks := [⟨103, 1⟩] }

def filledSample : TruthSample :=
  ExecutionTruth.sampleOf
    { fill := truthFill filledFill
      createdAt := 12
      price100ms := some ((101 + 103) * 0.5)
      price500ms := some ((101 + 103) * 0.5)
      price1s := some ((101 + 103) * 0.5)
      price5s := some ((101 + 103) * 0.5) }

/-- The truth hears of the fill and then of the market, and the adaptive loop of both. -/
def learnedTrace : Trace :=
  [.arrive .executionFeed filled, .receive .executionFeed filled default,
    .enqueue .controllerExec (Wire.controllerView filled),
    .enqueue .truthFill (truthFill filledFill), .enqueue .fill filledFill.forPosition,
    .receive .truthFill (truthFill filledFill) default,
    .arrive .feed (quote 6000 101 103), .receive .feed (quote 6000 101 103) default,
    .enqueue .update later, .receive .update later default, .enqueue .microUpdate later,
    .enqueue .truthMarket later, .enqueue .controllerMarket later,
    .receive .truthMarket later default,
    .enqueue .learning filledSample, .enqueue .learningReversal filledSample,
    .receive .learning filledSample default]

theorem run_learned : ∃ x, (network shipped).Run learnedTrace x := by
  have hfill := (((((Network.Run.init (N := network shipped)).step
    (.arrive (c := .executionFeed) filled rfl)).step
    (.receive (c := .executionFeed) (m := filled) default rfl rfl)).step
    (.enqueue (t := .external) (c := .controllerExec) (m := Wire.controllerView filled) rfl
      (by decide))).step
    (.enqueue (t := .external) (c := .truthFill) (m := truthFill filledFill) rfl
      (by decide))).step
    (.enqueue (t := .external) (c := .fill) (m := filledFill.forPosition) rfl (by decide))
  have hmarket := (((hfill.step
    (.receive (c := .truthFill) (m := truthFill filledFill) default rfl rfl)).step
    (.arrive (c := .feed) (quote 6000 101 103) rfl)).step
    (.receive (c := .feed) (m := quote 6000 101 103) default rfl rfl)).step
    (.enqueue (t := .ingestion) (c := .update) (m := later) rfl (by decide))
  have hfanout := (((hmarket.step
    (.receive (c := .update) (m := later) default rfl rfl)).step
    (.enqueue (t := .fanout) (c := .microUpdate) (m := later) rfl (by decide))).step
    (.enqueue (t := .fanout) (c := .truthMarket) (m := later) rfl (by decide))).step
    (.enqueue (t := .fanout) (c := .controllerMarket) (m := later) rfl (by decide))
  have htruth := hfanout.step (.receive (c := .truthMarket) (m := later) default rfl rfl)
  have hsent := (htruth.step
    (.enqueue (t := .truth) (c := .learning) (m := filledSample) rfl (by decide))).step
    (.enqueue (t := .truth) (c := .learningReversal) (m := filledSample) rfl (by decide))
  have hlearned := hsent.step (.receive (c := Chan.learning) (m := filledSample) default rfl rfl)
  exact ⟨_, hlearned⟩

theorem learned_filled : ∃ x, Learned shipped learnedTrace x ∧
    taken Chan.learning learnedTrace = [filledSample] := by
  obtain ⟨x, hrun⟩ := run_learned
  exact ⟨x, learned shipped learnedTrace x hrun, rfl⟩

/-- The truth sends no more than one message for each update of the control plane. -/
theorem length_emitted_truth_le (h : (network setup).Run trace x) :
    ((network setup).emitted .external .truthFill trace).length ≤
        (entered Chan.executionFeed trace).length ∧
      (finished setup trace).length ≤ (entered Chan.executionFeed trace).length := by
  have hheard := congrArg List.length (h.accounts.queued Chan.executionFeed)
  have hfills := congrArg List.length (finished_append_waiting h)
  have hreported := (taken_truthFill_sublist h).length_le
  have htold := List.length_filterMap_le truthOf (entered Chan.executionFeed trace)
  rw [List.length_append] at hheard
  rw [List.length_map, List.length_append] at hfills
  rw [emitted_truthFill]
  refine ⟨(List.length_filterMap_le _ _).trans (by omega), ?_⟩
  unfold truthsReported at hreported
  omega

/-- Left alone after the sample is taken, the pipeline comes to rest with its one fill learned. -/
theorem learned_all_filled : ∃ more x, Quiet x ∧ LearnedAll shipped (learnedTrace ++ more) x ∧
    filledSample ∈ taken Chan.learning (learnedTrace ++ more) := by
  obtain ⟨x, hlearned⟩ := run_learned
  obtain ⟨more, y, hrun, hsilent, hquiet⟩ :=
    hlearned.drains (leadsDown shipped) (by decide) (descends shipped)
  have hentered : (entered Chan.executionFeed (learnedTrace ++ more)).length = 1 := by
    rw [hrun.entered_of_silent hsilent rfl]
    rfl
  obtain ⟨htold, hfinished⟩ := length_emitted_truth_le hrun
  obtain ⟨hlearning, hreversal⟩ := emitted_samples shipped (learnedTrace ++ more)
  have hroom : 1 < (network shipped).capacity := by decide
  refine ⟨more, y, hquiet, learned_all shipped _ y hrun hquiet ?_, ?_⟩
  · intro c hc m
    simp only [List.mem_cons, List.not_mem_nil, or_false] at hc
    rcases hc with rfl | rfl | rfl
    · exact hrun.kept_of_few (t := .external) rfl (by omega) m
    · refine hrun.kept_of_few (t := .truth) rfl ?_ m
      rw [hlearning, List.length_map]
      omega
    · refine hrun.kept_of_few (t := .truth) rfl ?_ m
      rw [hreversal, List.length_map]
      omega
  · have htaken : taken Chan.learning (learnedTrace ++ more) =
        taken Chan.learning learnedTrace ++ taken Chan.learning more := List.filterMap_append
    rw [htaken]
    exact List.mem_append_left _ List.mem_cons_self

end Pipeline

end RealTimeTrading.Rtts
