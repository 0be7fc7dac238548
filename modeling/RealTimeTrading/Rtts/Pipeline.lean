/-
RealTimeTrading.Rtts.Pipeline — `pipeline.rs`: the tasks of the process and
the channels between them.

A task is the loop of its stage, listening to the channels it receives from.
A stage hands its result to the next by `try_send`, and by `send` where that
fails, so it waits for room; what goes to the truth, to the controllers or
comes back from them is offered by `try_send` alone, and lost where there is
no room. Two channels come from outside: the exchange's feed, and the
control plane's updates of orders. What is posted to the control plane
leaves the pipeline and is on no channel.

`select!` takes any receiver that has a message, and those marked `biased`
the first: here a task takes any of its channels.
-/
import RealTimeTrading.Concurrency.Channels
import RealTimeTrading.Rtts.ExecutionSmart
import RealTimeTrading.Rtts.Ingestion
import RealTimeTrading.Rtts.Market.Microstructure
import RealTimeTrading.Rtts.Risk
import RealTimeTrading.Rtts.Scoring.AdaptiveLoop
import RealTimeTrading.Rtts.Scoring.FrameLoops
import RealTimeTrading.Wire.FillViews

namespace RealTimeTrading.Rtts.Pipeline

open Concurrency
open EdgeValidation (RegimeMemory)

/-! ## Tasks and channels -/

inductive Task where
  | ingestion
  | fanout
  | microstructure
  | trigger
  | reversal
  | classifier
  | adaptive
  | position
  | risk
  | metaEngine
  | controller
  | smart
  | external
  | truth
  deriving DecidableEq, Repr

/-- The channels, by the names of their senders in `pipeline.rs`; `feed` and
`executionFeed` are the two that come from outside. -/
inductive Chan where
  | feed
  | executionFeed
  | update
  | microUpdate
  | truthMarket
  | controllerMarket
  | micro
  | trigger
  | reversal
  | classifier
  | decision
  | intent
  | risk
  | metaIntent
  | executionAction
  | fill
  | truthFill
  | controllerExec
  | controllerFeedback
  | learning
  | learningReversal
  deriving DecidableEq, Repr

abbrev Msg : Chan → Type
  | .feed => Ingestion.FeedMessage
  | .executionFeed => Wire.ControlPlaneExecutionUpdate
  | .update | .microUpdate | .truthMarket | .controllerMarket => MarketUpdate
  | .micro | .trigger | .reversal | .classifier => MicrostructureFrame
  | .decision => ScoredDecision
  | .intent | .risk | .metaIntent => OrderIntent
  | .executionAction => ExecutionInstruction
  | .fill => FillEvent
  | .truthFill => TruthFill
  | .controllerExec => ExecutionControllerEvent
  | .controllerFeedback => ExecutionControlFeedback
  | .learning | .learningReversal => TruthSample

def source : Chan → Option Task
  | .feed | .executionFeed => none
  | .update => some .ingestion
  | .microUpdate | .truthMarket | .controllerMarket => some .fanout
  | .micro => some .microstructure
  | .trigger => some .trigger
  | .reversal => some .reversal
  | .classifier => some .classifier
  | .decision => some .adaptive
  | .intent => some .position
  | .risk => some .risk
  | .metaIntent => some .metaEngine
  | .executionAction | .controllerFeedback => some .controller
  | .fill | .truthFill | .controllerExec => some .external
  | .learning | .learningReversal => some .truth

def target : Chan → Task
  | .feed => .ingestion
  | .executionFeed => .external
  | .update => .fanout
  | .microUpdate => .microstructure
  | .micro => .trigger
  | .trigger | .learningReversal => .reversal
  | .reversal => .classifier
  | .classifier | .controllerFeedback | .learning => .adaptive
  | .decision | .fill => .position
  | .intent => .risk
  | .risk => .metaEngine
  | .metaIntent | .controllerMarket | .controllerExec => .controller
  | .executionAction => .smart
  | .truthMarket | .truthFill => .truth

def sending : Chan → Sending
  | .truthMarket | .controllerMarket | .executionAction | .controllerFeedback | .fill
  | .truthFill | .controllerExec | .learning | .learningReversal => .drops
  | _ => .waits

abbrev State : Task → Type
  | .ingestion | .fanout | .classifier | .external => Unit
  | .microstructure => Microstructure.Stage
  | .trigger => TriggerEngine
  | .reversal => ReversalLoop
  | .adaptive => AdaptiveLoop
  | .position => PositionLoop
  | .risk => RiskLoop
  | .metaEngine => MetaState
  | .controller => Controllers
  | .smart => SymbolProfile
  | .truth => ExecutionTruth.TruthLoop

/-- What a turn reads besides its message: the clock, twice, and the order in which
a `HashMap` lists its values. -/
structure Env where
  now : Nat := 0
  now' : Nat := 0
  met : List RegimeMemory := []

instance : Inhabited Env := ⟨{}⟩

abbrev Send := Σ c, Msg c

abbrev Received := Env × Send

/-- What does not change while the process runs. -/
structure Setup where
  cfg : RunConfig := {}
  modelWeights : RuntimeModelWeights := {}
  exp : ℚ → ℚ
  sqrt : ℚ → ℚ
  powf : ℚ → ℚ → ℚ

/-! ## What each task reads of a message, and where its results go -/

/-- The message with the turn's readings, if it is one for this channel. -/
def heard (c : Chan) (r : Received) : Option (Env × Msg c) := (on c r.2).map fun m => (r.1, m)

def fanoutStep (_ : Unit) (update : MarketUpdate) : List Send × Unit :=
  ([⟨.microUpdate, update⟩, ⟨.truthMarket, update⟩, ⟨.controllerMarket, update⟩], ())

def adaptiveInput (r : Received) : Option AdaptiveInput :=
  ((heard .learning r).map fun m => .sample m.2).or
    (((heard .controllerFeedback r).map fun m => .feedback m.2).or
      ((heard .classifier r).map fun m => .frame m.2 m.1.met m.1.now))

def reversalInput (r : Received) : Option ReversalInput :=
  ((heard .learningReversal r).map fun m => .sample m.2).or
    ((heard .trigger r).map fun m => .frame m.2)

def positionInput (r : Received) : Option PositionInput :=
  ((heard .fill r).map fun m => .fill m.2).or ((heard .decision r).map fun m => .signal m.2)

def controllerInput (r : Received) : Option ControllerInput :=
  ((heard .metaIntent r).map fun m => .order m.2).or
    (((heard .controllerExec r).map fun m => .execution m.2).or
      ((heard .controllerMarket r).map fun m => .market m.2))

def truthInput (r : Received) : Option ExecutionTruth.TruthInput :=
  ((heard .truthFill r).map fun m => .fill m.2).or
    ((heard .truthMarket r).map fun m => .market m.2)

def smartInput (r : Received) : Option Turn :=
  (heard .executionAction r).map fun m => { instruction := m.2, now := m.1.now, now' := m.1.now' }

def truthFill (fill : Wire.FillEvent) : TruthFill :=
  { fill.forPosition with
    size := fill.size
    latencyUs := fill.latencyUs
    latencyBreakdown := fill.latencyBreakdown
    expectedMarkout := fill.expectedMarkout
    actualSlippageBps := fill.actualSlippageBps
    competitionFlag := fill.competitionFlag
    regime := fill.regime
    partialFillRatio := fill.truth.partialFillRatio
    queueDelayUs := fill.truth.queueDelayUs
    simulated := fill.truth.simulated }

def fillSends (fill : Wire.FillEvent) : List Send :=
  [⟨.truthFill, truthFill fill⟩, ⟨.fill, fill.forPosition⟩]

/-- What `handle_update` sends, in order. -/
def externalStep (_ : Unit) (payload : Wire.ControlPlaneExecutionUpdate) : List Send × Unit :=
  let (event, fill) := Wire.handleUpdate payload
  (⟨.controllerExec, event⟩ :: fill.toList.flatMap fillSends, ())

def controllerStep (cfg : Config) (s : Controllers) (input : ControllerInput) :
    List Send × Controllers :=
  let (sent, s) := Controllers.step cfg s input
  (sent.instructions.map (⟨.executionAction, ·⟩) ++ sent.feedback.map (⟨.controllerFeedback, ·⟩), s)

def metaStep (cfg : Config) (s : MetaState) (intent : OrderIntent) : List OrderIntent × MetaState :=
  ((MetaEngine.handle cfg s intent).1.toList, (MetaEngine.handle cfg s intent).2)

/-! ## The network -/

/-- A result that goes to one channel. -/
def sendOn (c : Chan) (m : Msg c) : List Send := [⟨c, m⟩]

variable (setup : Setup)

def start : (t : Task) → State t
  | .ingestion | .fanout | .classifier | .external => ()
  | .microstructure => { tape := Tape.new setup.cfg.windowMs }
  | .trigger => .new setup.cfg.triggerDropPct setup.cfg.triggerResetPct
  | .reversal => {}
  | .adaptive => {}
  | .position => {}
  | .risk => {}
  | .metaEngine => {}
  | .controller => {}
  | .smart => { symbol := setup.cfg.symbol }
  | .truth => {}

def react : (t : Task) → State t → Received → List Send × State t
  | .ingestion => listen (heard .feed) (fun s m => (Ingestion.updates m.1.now m.2, s))
      (sendOn .update)
  | .fanout => listen (heard .update) (fun s m => fanoutStep s m.2) fun m => [m]
  | .microstructure => listen
      (fun r => (heard .microUpdate r).map fun m => ⟨m.2, m.1.now⟩)
      (Microstructure.step setup.sqrt setup.cfg.maxDataAgeMs) (sendOn .micro)
  | .trigger => listen (heard .micro) (fun s m => triggerStep s m.2) (sendOn .trigger)
  | .reversal => listen reversalInput ReversalLoop.step (sendOn .reversal)
  | .classifier => listen (heard .reversal)
      (fun s m => classifierStep setup.modelWeights.reversalClassifier s m.2) (sendOn .classifier)
  | .adaptive => listen adaptiveInput
      (AdaptiveLoop.step setup.exp setup.sqrt setup.modelWeights setup.cfg) (sendOn .decision)
  | .position => listen positionInput (PositionLoop.step setup.cfg.toConfig) (sendOn .intent)
  | .risk => listen (heard .intent) (fun s m => RiskLoop.step setup.cfg s m.2) (sendOn .risk)
  | .metaEngine => listen (heard .risk) (fun s m => metaStep setup.cfg.toConfig s m.2)
      (sendOn .metaIntent)
  | .controller => listen controllerInput (controllerStep setup.cfg.toConfig) fun m => [m]
  | .smart => listen smartInput (handleTurn setup.cfg.toConfig) fun _ => []
  | .external => listen (heard .executionFeed) (fun s m => externalStep s m.2) fun m => [m]
  | .truth => listen truthInput (ExecutionTruth.step setup.sqrt setup.powf) fun finalized =>
      [⟨.learning, finalized.sample⟩, ⟨.learningReversal, finalized.sample⟩]

section Own

variable {setup}

theorem source_of_sendOn {c : Chan} {m : Msg c} {sent : Send} (h : sent ∈ sendOn c m) :
    sent.1 = c := by
  rw [List.mem_singleton.mp h]

theorem source_of_react (setup : Setup) (t : Task) (s : State t) (r : Received) (sent : Send)
    (h : sent ∈ (react setup t s r).1) : source sent.1 = some t := by
  cases t with
  | fanout =>
    obtain ⟨m, -, o, ho, hsent⟩ := mem_listen h
    rw [List.mem_singleton.mp hsent]
    rcases ho with _ | ⟨_, _ | ⟨_, _ | ⟨_, ho⟩⟩⟩
    · rfl
    · rfl
    · rfl
    · cases ho
  | controller =>
    obtain ⟨m, -, o, ho, hsent⟩ := mem_listen h
    rw [List.mem_singleton.mp hsent]
    rcases List.mem_append.mp ho with hinstruction | hfeedback
    · obtain ⟨instruction, -, rfl⟩ := List.mem_map.mp hinstruction
      rfl
    · obtain ⟨feedback, -, rfl⟩ := List.mem_map.mp hfeedback
      rfl
  | external =>
    obtain ⟨m, -, o, ho, hsent⟩ := mem_listen h
    rw [List.mem_singleton.mp hsent]
    rcases List.mem_cons.mp ho with rfl | hfill
    · rfl
    · obtain ⟨fill, -, hfill⟩ := List.mem_flatMap.mp hfill
      rcases hfill with _ | ⟨_, _ | ⟨_, hfill⟩⟩
      · rfl
      · rfl
      · cases hfill
  | truth =>
    obtain ⟨m, -, o, -, hsent⟩ := mem_listen h
    rcases hsent with _ | ⟨_, _ | ⟨_, hsent⟩⟩
    · rfl
    · rfl
    · cases hsent
  | smart =>
    obtain ⟨m, -, o, -, hsent⟩ := mem_listen h
    cases hsent
  | ingestion | microstructure | trigger | reversal | classifier | adaptive | position | risk
  | metaEngine =>
    obtain ⟨m, -, o, -, hsent⟩ := mem_listen h
    rw [source_of_sendOn hsent]
    rfl

end Own

def network : Network Task Chan Env Msg State where
  source := source
  target := target
  sending := sending
  capacity := setup.cfg.channelCapacity
  start := start setup
  react := react setup
  own := source_of_react setup

/-- What a task hears on a channel is what it takes from it. -/
theorem map_heard (c : Chan) (trace : List (Act Chan Env Msg)) :
    (((network setup).received (target c) trace).filterMap (heard c)).map Prod.snd =
      taken c trace := by
  rw [Network.taken_eq (network setup), List.map_filterMap]
  refine congrArg (List.filterMap · _) (funext fun r => ?_)
  unfold heard
  rw [Option.map_map]
  exact Option.map_id'

/-- What a stage with one channel out has emitted there. -/
theorem filterMap_sendOn {c : Chan} (messages : List (Msg c)) :
    (messages.flatMap (sendOn c)).filterMap (on c) = messages := by
  induction messages with
  | nil => rfl
  | cons m rest ih =>
    show ((⟨c, m⟩ :: rest.flatMap (sendOn c)).filterMap (on c)) = _
    rw [List.filterMap_cons_some (on_self c m), ih]

/-- The default configuration; on the runs it is used for the three functions are not asked. -/
def shipped : Setup := { exp := id, sqrt := id, powf := fun base _ => base }

/-- The best bid and the best ask. -/
def quote (timestamp : Nat) (bid ask : ℚ) : Ingestion.FeedMessage :=
  .binance (.depth (some timestamp) [(bid, 1)] [(ask, 1)])

end RealTimeTrading.Rtts.Pipeline
