/-
RealTimeTrading.Rtts.PipelineColdStart — the pipeline before the first
fill.

Trading is disabled until there is a sample to judge the edge by, a sample
is made of a fill, and a fill comes of an order. The circle closes through
five tasks (`unfilled`): as long as the control plane reports no fill, no
order is ever decided on.
-/
import RealTimeTrading.Rtts.PipelineContracts
import RealTimeTrading.Rtts.PipelineMarket
import RealTimeTrading.Rtts.Scoring.Lockout

namespace RealTimeTrading.Rtts.Pipeline

open Concurrency
open Concurrency.Network (Keeps)
open EdgeValidation (RegimeMemory Untainted untainted_new tradingEnabled_eq_false_iff)

/-- There are no fills, so no samples; every signal is to be ignored, and no order is on its way. -/
def unfilled : Contract Task Chan Msg State where
  holds
    | .adaptive => fun s => Untainted 0 s.edgeValidation
    | .position => fun s => s.accounting.state.openPositions = ∅
    | .controller => fun s => s = {}
    | .truth => fun s => s.pending = []
    | _ => fun _ => True
  allows
    | .executionFeed => fun payload => (Wire.handleUpdate payload).2 = none
    | .decision => fun signal => signal.decision = .ignore ∧ signal.tradingEnabled = false
    | .fill | .truthFill | .learning | .learningReversal | .intent | .risk | .metaIntent
    | .executionAction => fun _ => False
    | _ => fun _ => True

variable (setup : Setup)

section Tasks

variable {setup}

/-- Nothing learned, and every frame is ignored. -/
theorem decide_of_untainted {s : AdaptiveLoop} (h : Untainted 0 s.edgeValidation)
    (exp sqrt : ℚ → ℚ) (modelWeights : RuntimeModelWeights) (cfg : RunConfig)
    (frame : MicrostructureFrame) (met : List RegimeMemory) (now : Nat) :
    (s.decide exp sqrt modelWeights cfg frame met now).decision = .ignore ∧
      (s.decide exp sqrt modelWeights cfg frame met now).tradingEnabled = false := by
  have hsaturated := (h.saturated_iff sqrt).mpr rfl
  have hdisabled : (s.edgeValidation.snapshot sqrt met s.drawdownPct).tradingEnabled = false :=
    tradingEnabled_eq_false_iff.mpr (.inr hsaturated)
  exact ⟨AdaptiveEngine.scoreFrame_locked exp modelWeights cfg.toConfig _ frame _ now
    (.inr (.inr hsaturated)), hdisabled⟩

/-- Without lots there is no position. -/
theorem sync_of_empty {accounting : Accounting.AccountingEngine}
    (h : accounting.state.openPositions = ∅) (symbol : String) (position : Position) :
    syncPositionFromAccounting accounting symbol position = {} := by
  have hexposure : accounting.positionExposure symbol = {} := by
    unfold Accounting.AccountingEngine.positionExposure
    rw [h]
    rfl
  unfold syncPositionFromAccounting
  rw [hexposure]
  exact if_pos (by rw [abs_zero]; exact epsilon_pos.le)

/-- A signal to ignore, without a position, leads to nothing. -/
theorem onSignal_of_empty {s : PositionLoop} (h : s.accounting.state.openPositions = ∅)
    (cfg : Config) {signal : ScoredDecision} (hignore : signal.decision = .ignore)
    (hdisabled : signal.tradingEnabled = false) : (s.onSignal cfg signal).1 = none := by
  have hflat : ¬ ({} : Position).isOpen := by
    unfold Position.isOpen
    rw [abs_zero]
    exact epsilon_pos.not_gt
  have hmarked : (s.accounting.markToMarket cfg.symbol
      signal.market.price).2.state.openPositions = ∅ := h
  show decideOrder cfg _ signal s.lastScore = none
  rw [sync_of_empty hmarked]
  exact (decideOrder_disabled cfg {} hdisabled hignore s.lastScore).flat hflat

/-- Nothing waits for the market, so nothing is reported. -/
theorem truth_of_empty {s : ExecutionTruth.TruthLoop} (h : s.pending = []) (sqrt : ℚ → ℚ)
    (powf : ℚ → ℚ → ℚ) (update : MarketUpdate) :
    (ExecutionTruth.step sqrt powf s (.market update)).1 = [] ∧
      (ExecutionTruth.step sqrt powf s (.market update)).2.pending = [] := by
  unfold ExecutionTruth.step
  dsimp only
  split
  · unfold ExecutionTruth.updatePending
    rw [h]
    exact ⟨rfl, rfl⟩
  · exact ⟨rfl, h⟩

/-- An event finds no controller. -/
theorem onExecution_of_empty (update : ExecutionControllerEvent) :
    Controllers.onExecution update {} = ({}, {}) := by
  have hnone : Controllers.resolveControllerKey update ∅ = none := by
    unfold Controllers.resolveControllerKey
    cases update.idempotencyKey <;> rfl
  unfold Controllers.onExecution
  rw [show ({} : Controllers).orderLookup = ∅ from rfl, hnone]

end Tasks

theorem keeps_unfilled : Keeps (network setup) unfilled where
  start t := by
    cases t with
    | adaptive => exact untainted_new _
    | position => exact rfl
    | controller => exact rfl
    | truth => exact rfl
    | _ => exact trivial
  state c s env m hs hm := by
    cases c with
    | classifier => exact hs
    | controllerFeedback => exact hs.observeFailure m.reason
    | decision => exact hs
    | controllerMarket =>
      obtain rfl : s = {} := hs
      exact rfl
    | controllerExec =>
      obtain rfl : s = {} := hs
      exact congrArg Prod.snd (onExecution_of_empty m)
    | truthMarket => exact (truth_of_empty hs setup.sqrt setup.powf m).2
    | fill | truthFill | learning | learningReversal | metaIntent | intent | risk
    | executionAction => exact hm.elim
    | _ => exact trivial
  sent c s env m hs hm := by
    cases c with
    | feed | microUpdate | micro | trigger | reversal => exact allows_of_sendOn fun _ _ => trivial
    | update => exact allows_of_fanout trivial trivial trivial
    | classifier =>
      refine allows_of_sendOn fun signal hsignal => ?_
      rw [List.mem_singleton.mp hsignal]
      exact decide_of_untainted hs _ _ _ _ m _ _
    | decision =>
      refine allows_of_sendOn fun order horder => ?_
      have hnone : (PositionLoop.onSignal setup.cfg.toConfig m s).1 = none :=
        onSignal_of_empty hs setup.cfg.toConfig hm.1 hm.2
      cases hnone ▸ Option.mem_toList.mp horder
    | controllerMarket =>
      obtain rfl : s = {} := hs
      exact allows_of_controller (fun _ h => nomatch h) fun _ _ => trivial
    | controllerExec =>
      obtain rfl : s = {} := hs
      have hstep : Controllers.step setup.cfg.toConfig {} (.execution m) = ({}, {}) :=
        onExecution_of_empty m
      refine allows_of_controller (fun sent hsent => ?_) fun _ _ => trivial
      rw [hstep] at hsent
      cases hsent
    | truthMarket =>
      refine allows_of_truth fun done hdone => ?_
      rw [(truth_of_empty hs setup.sqrt setup.powf m).1] at hdone
      cases hdone
    | executionFeed =>
      refine allows_of_external trivial fun fill hfill => ?_
      rw [show (Wire.handleUpdate m).2 = none from hm] at hfill
      cases hfill
    | controllerFeedback =>
      intro o ho
      cases ho
    | fill | truthFill | learning | learningReversal | metaIntent | intent | risk
    | executionAction => exact hm.elim

theorem meets_unfilled {setup : Setup} {trace : List (Act Chan Env Msg)}
    {x : Moment Task Chan Msg State} (h : (network setup).Run trace x)
    (hunfilled : ∀ payload ∈ entered Chan.executionFeed trace,
      (Wire.handleUpdate payload).2 = none) :
    Network.Meets unfilled trace x := by
  refine h.meets (keeps_unfilled setup) fun c hc m hm => ?_
  cases c with
  | feed => exact trivial
  | executionFeed => exact hunfilled m hm
  | _ => cases hc

/-- As long as no fill is reported, every signal is to be ignored, and nothing is ordered. -/
theorem nothing_ordered (setup : Setup) (trace : List (Act Chan Env Msg))
    (x : Moment Task Chan Msg State) (h : (network setup).Run trace x)
    (hunfilled : ∀ payload ∈ entered Chan.executionFeed trace,
      (Wire.handleUpdate payload).2 = none) :
    (∀ signal ∈ entered Chan.decision trace,
        signal.decision = .ignore ∧ signal.tradingEnabled = false) ∧
      entered Chan.intent trace = [] ∧ entered Chan.executionAction trace = [] := by
  have hmeets := meets_unfilled h hunfilled
  refine ⟨fun signal hsignal => hmeets.entered .decision signal hsignal, ?_, ?_⟩
  · exact List.eq_nil_iff_forall_not_mem.mpr fun order horder => hmeets.entered .intent order horder
  · exact List.eq_nil_iff_forall_not_mem.mpr fun sent hsent =>
      hmeets.entered .executionAction sent hsent

/-- An order the control plane has accepted, of which nothing is filled. -/
def accepted : Wire.ControlPlaneExecutionUpdate where
  order := ⟨some "ord-1", some "rtts-1", "BTCUSDT", "BUY", 1, some 100, some "ACCEPTED", some 0⟩
  ledger := none
  execution := none
  requestTimestampMs := 10
  sendTimestampMs := 11
  ackTimestampMs := 12
  firstFillTimestampMs := 0
  lastFillTimestampMs := 0
  expectedRealizedMarkout := none
  regimeKind := none
  regimeVolatility := none
  regimeSpread := none
  regimeTrendStrength := none

/-- A quote is decided on, and the order accepted. -/
def acceptedTrace (more : Trace) : Trace :=
  shown ++ more ++ [.arrive .executionFeed accepted] ++ [.receive .executionFeed accepted default]

theorem nothing_ordered_accepted : ∃ more,
    ((∀ signal ∈ entered Chan.decision (acceptedTrace more),
        signal.decision = .ignore ∧ signal.tradingEnabled = false) ∧
      entered Chan.intent (acceptedTrace more) = [] ∧
      entered Chan.executionAction (acceptedTrace more) = []) ∧
    taken Chan.decision (acceptedTrace more) ≠ [] := by
  obtain ⟨more, x, hrun, hquiet, hsilent, hdecided⟩ := run_shown
  have hqueue : Function.update x.queue Chan.executionFeed
      (x.queue .executionFeed ++ [accepted]) .executionFeed = [accepted] := by
    rw [Function.update_self, hquiet.queue]
    rfl
  have haccepted := (hrun.step (.arrive (c := .executionFeed) accepted rfl)).step
    (.receive (c := .executionFeed) (m := accepted) default (hquiet.pending _) hqueue)
  refine ⟨more, nothing_ordered shipped (acceptedTrace more) _ haccepted ?_, ?_⟩
  · intro payload hpayload
    have hbefore := hrun.entered_of_silent hsilent (c := .executionFeed) rfl
    unfold acceptedTrace at hpayload
    rw [Network.entered_concat, Network.entered_concat, hbefore] at hpayload
    obtain rfl := List.mem_singleton.mp hpayload
    rfl
  · unfold acceptedTrace
    rw [Network.taken_concat, Network.taken_concat]
    simp [hdecided]

end RealTimeTrading.Rtts.Pipeline
