/-
RealTimeTrading.Rtts.PipelineFlow — what the channels of the pipeline
deliver, and that it never gets stuck.

The stages that wait for room form a line from the feed to the controllers
(`rank`), so they cannot block one another, although the learning samples
and the feedback go back up. A message leads to messages further down the
line only, or to ones that lead to nothing more (`level`), so the pipeline
comes to rest when nothing comes in.
-/
import RealTimeTrading.Concurrency.Drainage
import RealTimeTrading.Rtts.Pipeline

namespace RealTimeTrading.Rtts.Pipeline

open Concurrency
open EdgeValidation (RegimeMemory)

instance : Fintype Task where
  elems := {.ingestion, .fanout, .microstructure, .trigger, .reversal, .classifier, .adaptive,
    .position, .risk, .metaEngine, .controller, .smart, .external, .truth}
  complete t := by cases t <;> decide

instance : Fintype Chan where
  elems := {.feed, .executionFeed, .update, .microUpdate, .truthMarket, .controllerMarket, .micro,
    .trigger, .reversal, .classifier, .decision, .intent, .risk, .metaIntent, .executionAction,
    .fill, .truthFill, .controllerExec, .controllerFeedback, .learning, .learningReversal}
  complete c := by cases c <;> decide

/-! ## The line of the stages -/

def rank : Task → Nat
  | .ingestion => 10
  | .fanout => 9
  | .microstructure => 8
  | .trigger => 7
  | .reversal => 6
  | .classifier => 5
  | .adaptive => 4
  | .position => 3
  | .risk => 2
  | .metaEngine => 1
  | .controller | .smart | .external | .truth => 0

def level : Chan → Nat
  | .feed => 11
  | .update => 10
  | .microUpdate => 9
  | .micro => 8
  | .trigger => 7
  | .reversal => 6
  | .classifier => 5
  | .decision => 4
  | .intent => 3
  | .risk => 2
  | .executionFeed => 2
  | .metaIntent | .truthMarket | .controllerMarket | .controllerExec => 1
  | .executionAction | .controllerFeedback | .fill | .truthFill | .learning | .learningReversal => 0

variable (setup : Setup)

theorem leadsDown : Network.LeadsDown (network setup) rank := by
  show ∀ c t, source c = some t → sending c = .waits → rank (target c) < rank t
  decide

/-- What is heard on a channel came on it. -/
theorem heard_eq_some {c : Chan} {r : Received} {m : Env × Msg c} (h : heard c r = some m) :
    r = (m.1, ⟨c, m.2⟩) := by
  obtain ⟨env, d, sent⟩ := r
  obtain ⟨sent', hsent, rfl⟩ := Option.map_eq_some_iff.mp h
  unfold on at hsent
  split at hsent
  · rename_i hd
    obtain rfl : d = c := hd
    obtain rfl := Option.some.inj hsent
    rfl
  · cases hsent

/-- A task that listens to two channels hears on one of them. -/
theorem heard_or {I : Type} {c : Chan} {r : Received} {f : Env × Msg c → I} {other : Option I}
    {i : I} (h : ((heard c r).map f).or other = some i) :
    (∃ m, heard c r = some m ∧ i = f m) ∨ other = some i := by
  rcases Option.or_eq_some_iff.mp h with hhere | ⟨-, hother⟩
  · obtain ⟨m, hm, rfl⟩ := Option.map_eq_some_iff.mp hhere
    exact .inl ⟨m, hm, rfl⟩
  · exact .inr hother

theorem frame_of_adaptiveInput {r : Received} {frame : MicrostructureFrame}
    {met : List RegimeMemory} {now : Nat} (h : adaptiveInput r = some (.frame frame met now)) :
    ∃ m, heard .classifier r = some m := by
  rcases heard_or h with ⟨m, -, hm⟩ | h
  · cases hm
  · rcases heard_or h with ⟨m, -, hm⟩ | h
    · cases hm
    · obtain ⟨m, hm, -⟩ := Option.map_eq_some_iff.mp h
      exact ⟨m, hm⟩

theorem frame_of_reversalInput {r : Received} {frame : MicrostructureFrame}
    (h : reversalInput r = some (.frame frame)) : ∃ m, heard .trigger r = some m := by
  rcases heard_or h with ⟨m, -, hm⟩ | h
  · cases hm
  · obtain ⟨m, hm, -⟩ := Option.map_eq_some_iff.mp h
    exact ⟨m, hm⟩

theorem signal_of_positionInput {r : Received} {signal : ScoredDecision}
    (h : positionInput r = some (.signal signal)) : ∃ m, heard .decision r = some m := by
  rcases heard_or h with ⟨m, -, hm⟩ | h
  · cases hm
  · obtain ⟨m, hm, -⟩ := Option.map_eq_some_iff.mp h
    exact ⟨m, hm⟩

theorem market_of_truthInput {r : Received} {update : MarketUpdate}
    (h : truthInput r = some (.market update)) : ∃ m, heard .truthMarket r = some m := by
  rcases heard_or h with ⟨m, -, hm⟩ | h
  · cases hm
  · obtain ⟨m, hm, -⟩ := Option.map_eq_some_iff.mp h
    exact ⟨m, hm⟩

theorem level_of_controllerInput {r : Received} {i : ControllerInput}
    (h : controllerInput r = some i) : level r.2.1 = 1 := by
  rcases heard_or h with ⟨m, hm, -⟩ | h
  · rw [heard_eq_some hm]
    rfl
  · rcases heard_or h with ⟨m, hm, -⟩ | h
    · rw [heard_eq_some hm]
      rfl
    · obtain ⟨m, hm, -⟩ := Option.map_eq_some_iff.mp h
      rw [heard_eq_some hm]
      rfl

/-- A result sent on a lower channel than it was heard on. -/
theorem level_lt {c d : Chan} {r : Received} {m : Env × Msg c} {o : Msg d} {sent : Send}
    (hlevel : level d < level c) (hheard : heard c r = some m) (hsent : sent ∈ sendOn d o) :
    level sent.1 < level r.2.1 := by
  rw [heard_eq_some hheard, source_of_sendOn hsent]
  exact hlevel

theorem descends : Network.Descends (network setup) level := by
  intro t s r sent h
  replace h : sent ∈ (react setup t s r).1 := h
  cases t with
  | ingestion =>
    obtain ⟨m, hm, o, -, hsent⟩ := mem_listen h
    exact level_lt (by decide) hm hsent
  | fanout =>
    obtain ⟨m, hm, o, ho, hsent⟩ := mem_listen h
    rw [List.mem_singleton.mp hsent, heard_eq_some hm]
    rcases ho with _ | ⟨_, _ | ⟨_, _ | ⟨_, ho⟩⟩⟩
    · exact (by decide : level .microUpdate < level .update)
    · exact (by decide : level .truthMarket < level .update)
    · exact (by decide : level .controllerMarket < level .update)
    · cases ho
  | microstructure =>
    obtain ⟨i, hi, o, -, hsent⟩ := mem_listen h
    obtain ⟨m, hm, -⟩ := Option.map_eq_some_iff.mp hi
    exact level_lt (by decide) hm hsent
  | trigger =>
    obtain ⟨m, hm, o, -, hsent⟩ := mem_listen h
    exact level_lt (by decide) hm hsent
  | reversal =>
    obtain ⟨i, hi, o, ho, hsent⟩ := mem_listen h
    cases i with
    | sample learned => cases ho
    | frame seen =>
      obtain ⟨m, hm⟩ := frame_of_reversalInput hi
      exact level_lt (by decide) hm hsent
  | classifier =>
    obtain ⟨m, hm, o, -, hsent⟩ := mem_listen h
    exact level_lt (by decide) hm hsent
  | adaptive =>
    obtain ⟨i, hi, o, ho, hsent⟩ := mem_listen h
    cases i with
    | sample learned => cases ho
    | feedback failed => cases ho
    | frame seen met now =>
      obtain ⟨m, hm⟩ := frame_of_adaptiveInput hi
      exact level_lt (by decide) hm hsent
  | position =>
    obtain ⟨i, hi, o, ho, hsent⟩ := mem_listen h
    cases i with
    | fill filled => cases ho
    | signal decided =>
      obtain ⟨m, hm⟩ := signal_of_positionInput hi
      exact level_lt (by decide) hm hsent
  | risk =>
    obtain ⟨m, hm, o, -, hsent⟩ := mem_listen h
    exact level_lt (by decide) hm hsent
  | metaEngine =>
    obtain ⟨m, hm, o, -, hsent⟩ := mem_listen h
    exact level_lt (by decide) hm hsent
  | controller =>
    obtain ⟨i, hi, o, ho, hsent⟩ := mem_listen h
    rw [List.mem_singleton.mp hsent, level_of_controllerInput hi]
    rcases List.mem_append.mp ho with hinstruction | hfeedback
    · obtain ⟨instruction, -, rfl⟩ := List.mem_map.mp hinstruction
      exact zero_lt_one
    · obtain ⟨feedback, -, rfl⟩ := List.mem_map.mp hfeedback
      exact zero_lt_one
  | smart =>
    obtain ⟨m, -, o, -, hsent⟩ := mem_listen h
    cases hsent
  | external =>
    obtain ⟨m, hm, o, ho, hsent⟩ := mem_listen h
    rw [List.mem_singleton.mp hsent, heard_eq_some hm]
    rcases List.mem_cons.mp ho with rfl | hfill
    · exact (by decide : level .controllerExec < level .executionFeed)
    · obtain ⟨fill, -, hfill⟩ := List.mem_flatMap.mp hfill
      rcases hfill with _ | ⟨_, _ | ⟨_, hfill⟩⟩
      · exact (by decide : level .truthFill < level .executionFeed)
      · exact (by decide : level .fill < level .executionFeed)
      · cases hfill
  | truth =>
    obtain ⟨i, hi, o, ho, hsent⟩ := mem_listen h
    cases i with
    | fill filled =>
      have hnone : (ExecutionTruth.step setup.sqrt setup.powf s (.fill filled)).1 = [] := by
        rw [ExecutionTruth.step]
        cases filled.simulated <;> rfl
      rw [hnone] at ho
      cases ho
    | market update =>
      obtain ⟨m, hm⟩ := market_of_truthInput hi
      rw [heard_eq_some hm]
      rcases hsent with _ | ⟨_, _ | ⟨_, hsent⟩⟩
      · exact (by decide : level .learning < level .truthMarket)
      · exact (by decide : level .learningReversal < level .truthMarket)
      · cases hsent

/-- While anything is on its way some task can go on, and without arrivals that ends. -/
theorem never_stuck (setup : Setup) (hcapacity : 0 < setup.cfg.channelCapacity)
    (trace : List (Act Chan Env Msg)) (x : Moment Task Chan Msg State)
    (h : (network setup).Run trace x) :
    (¬ Network.Quiet x → ∃ y, (network setup).Silent x y) ∧
      Acc (fun later now => (network setup).Silent now later) x :=
  ⟨Network.exists_silent (leadsDown setup) hcapacity h.accounts.own,
    (Network.wellFounded_silent (descends setup)).apply x⟩

/-- The moment after a quote has come, with the ingestion about to take it. -/
def quotedMoment : Moment Task Chan Msg State :=
  { (network shipped).initial with
    queue := Function.update (network shipped).initial.queue .feed [quote 10 100 101] }

theorem never_stuck_quoted :
    (¬ Network.Quiet quotedMoment → ∃ y, (network shipped).Silent quotedMoment y) ∧
      Acc (fun later now => (network shipped).Silent now later) quotedMoment :=
  never_stuck shipped (by decide) [.arrive .feed (quote 10 100 101)] quotedMoment
    (Network.Run.init.step (.arrive _ rfl))

end RealTimeTrading.Rtts.Pipeline
