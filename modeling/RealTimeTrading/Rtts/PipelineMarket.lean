/-
RealTimeTrading.Rtts.PipelineMarket — how the market comes through the
pipeline.

From the feed to the position every stage waits for room, so whatever the
interleaving, the microstructure sees a first part of what the feed said, in
order, and there is one decision for each update, on the frame the
microstructure makes of it. At rest nothing is missing. The truth and the
controllers hear of some of the updates only, in order.
-/
import RealTimeTrading.Concurrency.Relays
import RealTimeTrading.Rtts.PipelineFlow

namespace RealTimeTrading.Rtts.Pipeline

open Concurrency
open Concurrency.Network (Relays Quiet)

abbrev Trace := List (Act Chan Env Msg)

variable (setup : Setup)

/-- The updates the ingestion makes of what the feed has said. -/
def updatesIn (trace : Trace) : List MarketUpdate :=
  (((network setup).received .ingestion trace).filterMap (heard .feed)).flatMap fun m =>
    Ingestion.updates m.1.now m.2

/-- The updates the microstructure has received, and when. -/
def seenIn (trace : Trace) : List Microstructure.Received :=
  ((network setup).received .microstructure trace).filterMap fun r =>
    (heard .microUpdate r).map fun m => ⟨m.2, m.1.now⟩

/-- The frames the microstructure makes of them. -/
def framesIn (trace : Trace) : List MicrostructureFrame :=
  Microstructure.run setup.sqrt setup.cfg.windowMs setup.cfg.maxDataAgeMs (seenIn setup trace)

/-- How far the market has come. -/
structure Delivered (trace : Trace) : Prop where
  seen : (seenIn setup trace).map (·.update) <+: updatesIn setup trace
  decided : (taken .decision trace).map (·.market) <+:
    (framesIn setup trace).map AdaptiveEngine.marketFromFrame
  truth : (taken Chan.truthMarket trace).Sublist (updatesIn setup trace)
  controllers : (taken Chan.controllerMarket trace).Sublist (updatesIn setup trace)

/-- All of it has come through. -/
structure Settled (trace : Trace) : Prop where
  heard : taken Chan.feed trace = entered Chan.feed trace
  seen : (seenIn setup trace).map (·.update) = updatesIn setup trace
  decided : (taken .decision trace).map (·.market) =
    (framesIn setup trace).map AdaptiveEngine.marketFromFrame

variable {setup}

/-! ## Stages -/

/-- The loops of the stages, from a frame to the next. -/
theorem relays_trigger (setup : Setup) :
    Relays (network setup) .micro .trigger MicrostructureFrame.market
      MicrostructureFrame.market where
  source := rfl
  waits := rfl
  shows s r := by
    obtain ⟨env, c, m⟩ := r
    cases c <;> rfl

theorem relays_reversal (setup : Setup) :
    Relays (network setup) .trigger .reversal MicrostructureFrame.market
      MicrostructureFrame.market where
  source := rfl
  waits := rfl
  shows s r := by
    obtain ⟨env, c, m⟩ := r
    cases c <;> rfl

theorem relays_classifier (setup : Setup) :
    Relays (network setup) .reversal .classifier MicrostructureFrame.market
      MicrostructureFrame.market where
  source := rfl
  waits := rfl
  shows s r := by
    obtain ⟨env, c, m⟩ := r
    cases c <;> rfl

theorem relays_decision (setup : Setup) :
    Relays (network setup) .classifier .decision AdaptiveEngine.marketFromFrame
      ScoredDecision.market where
  source := rfl
  waits := rfl
  shows s r := by
    obtain ⟨env, c, m⟩ := r
    cases c <;> rfl

theorem relays_microUpdate (setup : Setup) :
    Relays (network setup) .update .microUpdate id id where
  source := rfl
  waits := rfl
  shows s r := by
    obtain ⟨env, c, m⟩ := r
    cases c <;> rfl

section Flow

variable {trace : Trace} {x : Moment Task Chan Msg State}

/-- What the ingestion emits is what it makes of the feed. -/
theorem emitted_update (setup : Setup) (trace : Trace) :
    (network setup).emitted .ingestion .update trace = updatesIn setup trace := by
  show (emit (listen (heard .feed) _ (sendOn .update)) () _).1.filterMap (on .update) = _
  rw [emit_listen, filterMap_sendOn, updatesIn]
  generalize ((network setup).received .ingestion trace).filterMap (heard .feed) = messages
  induction messages with
  | nil => rfl
  | cons m rest ih => rw [emit_cons, ih, List.flatMap_cons]

theorem emitted_micro (setup : Setup) (trace : Trace) :
    (network setup).emitted .microstructure .micro trace = framesIn setup trace := by
  show (emit (listen _ _ (sendOn .micro)) _ _).1.filterMap (on .micro) = _
  rw [emit_listen, filterMap_sendOn]
  rfl

theorem map_update_seenIn (setup : Setup) (trace : Trace) :
    (seenIn setup trace).map (·.update) = taken .microUpdate trace := by
  rw [Network.taken_eq (network setup), seenIn, List.map_filterMap]
  refine congrArg (List.filterMap · _) (funext fun r => ?_)
  unfold heard
  rw [Option.map_map, Option.map_map]
  exact Option.map_id'

/-- The update goes out again on each of the channels of the fan-out. -/
theorem emitted_fanout (setup : Setup) (trace : Trace) :
    (network setup).emitted .fanout .truthMarket trace = taken .update trace ∧
      (network setup).emitted .fanout .controllerMarket trace = taken .update trace := by
  rw [Network.taken_eq (network setup), List.filterMap_eq_flatMap_toList]
  constructor
  · rw [← List.map_id (Network.emitted _ _ _ _)]
    refine Network.emitted_map (fun s r => ?_) trace
    obtain ⟨env, c, m⟩ := r
    cases c <;> rfl
  · rw [← List.map_id (Network.emitted _ _ _ _)]
    refine Network.emitted_map (fun s r => ?_) trace
    obtain ⟨env, c, m⟩ := r
    cases c <;> rfl

theorem taken_in_order (h : (network setup).Run trace x) :
    taken Chan.update trace <+: updatesIn setup trace := by
  rw [← emitted_update]
  exact ⟨_, h.taken_prefix rfl rfl⟩

theorem decided_in_order (h : (network setup).Run trace x) :
    (taken .decision trace).map (·.market) <+:
      (taken Chan.micro trace).map AdaptiveEngine.marketFromFrame := by
  have hmarket : ((taken Chan.classifier trace).map MicrostructureFrame.market) <+:
      (taken Chan.micro trace).map MicrostructureFrame.market :=
    ((h.relayed (relays_classifier setup)).trans (h.relayed (relays_reversal setup))).trans
      (h.relayed (relays_trigger setup))
  have hshown := hmarket.map AdaptiveEngine.marketFromFrame
  rw [List.map_map, List.map_map] at hshown
  exact (h.relayed (relays_decision setup)).trans hshown

theorem taken_truthMarket_sublist (h : (network setup).Run trace x) :
    (taken Chan.truthMarket trace).Sublist (updatesIn setup trace) := by
  have hheard := h.taken_sublist (c := .truthMarket) rfl
  rw [(emitted_fanout setup trace).1] at hheard
  exact hheard.trans (taken_in_order h).sublist

/-- In every run the market comes through in order, one decision to an update. -/
theorem delivered (setup : Setup) (trace : Trace) (x : Moment Task Chan Msg State)
    (h : (network setup).Run trace x) : Delivered setup trace where
  seen := by
    have hpassed := h.relayed (relays_microUpdate setup)
    rw [List.map_id, List.map_id] at hpassed
    rw [map_update_seenIn]
    exact hpassed.trans (taken_in_order h)
  decided := by
    have hmade : taken Chan.micro trace <+: framesIn setup trace := by
      rw [← emitted_micro]
      exact ⟨_, h.taken_prefix rfl rfl⟩
    exact (decided_in_order h).trans (hmade.map _)
  truth := taken_truthMarket_sublist h
  controllers := by
    have hheard := h.taken_sublist (c := .controllerMarket) rfl
    rw [(emitted_fanout setup trace).2] at hheard
    exact hheard.trans (taken_in_order h).sublist

/-- Where nothing is on its way, nothing is missing. -/
theorem settled_of_quiet (h : (network setup).Run trace x) (hquiet : Quiet x) :
    Settled setup trace where
  heard := by
    have hqueued := h.accounts.queued Chan.feed
    rw [hquiet.queue, List.append_nil] at hqueued
    exact hqueued.symm
  seen := by
    have hpassed := h.relayed_of_quiet hquiet (relays_microUpdate setup)
    rw [List.map_id, List.map_id] at hpassed
    rw [map_update_seenIn, hpassed, ← emitted_update]
    exact h.taken_of_quiet hquiet rfl rfl
  decided := by
    have hmarket : ((taken Chan.classifier trace).map MicrostructureFrame.market) =
        (taken Chan.micro trace).map MicrostructureFrame.market :=
      ((h.relayed_of_quiet hquiet (relays_classifier setup)).trans
        (h.relayed_of_quiet hquiet (relays_reversal setup))).trans
          (h.relayed_of_quiet hquiet (relays_trigger setup))
    have hshown := congrArg (List.map AdaptiveEngine.marketFromFrame) hmarket
    rw [List.map_map, List.map_map] at hshown
    rw [← emitted_micro, ← h.taken_of_quiet hquiet rfl rfl]
    exact (h.relayed_of_quiet hquiet (relays_decision setup)).trans hshown

end Flow

/-- One quote, which the ingestion has taken. -/
def quoted : Trace := [.arrive .feed (quote 10 100 101), .receive .feed (quote 10 100 101) default]

/-- The update the ingestion makes of it. -/
def quotedUpdate : MarketUpdate :=
  .bookDelta { timestamp := 10, bids := [⟨100, 1⟩], asks := [⟨101, 1⟩] }

/-- The quote on its way to the microstructure. -/
def shown : Trace :=
  [.arrive .feed (quote 10 100 101), .receive .feed (quote 10 100 101) default,
    .enqueue .update quotedUpdate, .receive .update quotedUpdate default,
    .enqueue .microUpdate quotedUpdate, .enqueue .truthMarket quotedUpdate,
    .enqueue .controllerMarket quotedUpdate, .receive .microUpdate quotedUpdate default]

/-- A frame that is made is decided on before the pipeline comes to rest. -/
theorem decided_of_framed {trace more : Trace} {x : Moment Task Chan Msg State}
    (h : (network setup).Run (trace ++ more) x) (hquiet : Quiet x)
    (hframed : framesIn setup trace ≠ []) : taken Chan.decision (trace ++ more) ≠ [] := by
  have hframes : framesIn setup trace <+: framesIn setup (trace ++ more) := by
    rw [← emitted_micro, ← emitted_micro]
    exact Network.emitted_isPrefixOf _ _ trace more
  intro hnone
  have hdecided := (settled_of_quiet h hquiet).decided
  rw [hnone, List.map_nil] at hdecided
  have hempty := List.map_eq_nil_iff.mp hdecided.symm
  rw [hempty] at hframes
  exact hframed (List.prefix_nil.mp hframes)

theorem run_shown : ∃ more x, (network shipped).Run (shown ++ more) x ∧ Quiet x ∧
    (∀ a ∈ more, a.isArrival = false) ∧ taken Chan.decision (shown ++ more) ≠ [] := by
  have hfanout := ((((Network.Run.init (N := network shipped)).step
    (.arrive (c := .feed) (quote 10 100 101) rfl)).step
    (.receive (c := .feed) (m := quote 10 100 101) default rfl rfl)).step
    (.enqueue (t := .ingestion) (c := .update) (m := quotedUpdate) rfl (by decide))).step
    (.receive (c := .update) (m := quotedUpdate) default rfl rfl)
  have hframed := (((hfanout.step
    (.enqueue (t := .fanout) (c := .microUpdate) (m := quotedUpdate) rfl (by decide))).step
    (.enqueue (t := .fanout) (c := .truthMarket) (m := quotedUpdate) rfl (by decide))).step
    (.enqueue (t := .fanout) (c := .controllerMarket) (m := quotedUpdate) rfl (by decide))).step
    (.receive (c := .microUpdate) (m := quotedUpdate) default rfl rfl)
  obtain ⟨more, x, hrun, hsilent, hquiet⟩ :=
    hframed.drains (leadsDown shipped) (by decide) (descends shipped)
  exact ⟨more, x, hrun, hquiet, hsilent, decided_of_framed hrun hquiet (List.cons_ne_nil _ _)⟩

/-- The quote has come through to its decision. -/
theorem delivered_shown : ∃ more, Delivered shipped (shown ++ more) ∧
    taken Chan.decision (shown ++ more) ≠ [] := by
  obtain ⟨more, x, hrun, -, -, hdecided⟩ := run_shown
  exact ⟨more, delivered shipped (shown ++ more) x hrun, hdecided⟩

/-- Left alone, the pipeline comes to rest, with a decision for every update. -/
theorem settles (setup : Setup) (hcapacity : 0 < setup.cfg.channelCapacity) (trace : Trace)
    (x : Moment Task Chan Msg State) (h : (network setup).Run trace x) :
    ∃ more y, (network setup).Run (trace ++ more) y ∧ (∀ a ∈ more, a.isArrival = false) ∧
      Quiet y ∧ Settled setup (trace ++ more) := by
  obtain ⟨more, y, hrun, hmore, hquiet⟩ := h.drains (leadsDown setup) hcapacity (descends setup)
  exact ⟨more, y, hrun, hmore, hquiet, settled_of_quiet hrun hquiet⟩

theorem settles_quoted :
    ∃ more y, (network shipped).Run (quoted ++ more) y ∧ (∀ a ∈ more, a.isArrival = false) ∧
      Quiet y ∧ Settled shipped (quoted ++ more) :=
  settles shipped (by decide) quoted _
    ((Network.Run.init.step (.arrive _ rfl)).step (.receive default rfl rfl))

end RealTimeTrading.Rtts.Pipeline
