/-
RealTimeTrading.Rtts.PipelineOrders — which orders leave the pipeline.

An order comes of a decision, and is checked by the risk stage, by the meta
engine and once more before it is posted. What each stage may rely on of
the one before it is the contract `guarded`. With it the risk stage never
comes to its kill switch, nor to a drawdown, and what is posted is an order
all checks were passed with, or the exit of a part that was filled.
-/
import Mathlib.Data.List.TakeWhile
import RealTimeTrading.Rtts.ControllerTheorems
import RealTimeTrading.Rtts.MetaThresholds
import RealTimeTrading.Rtts.PipelineContracts
import RealTimeTrading.Rtts.PipelineFills
import RealTimeTrading.Rtts.Scoring.DecisionBounds

namespace RealTimeTrading.Rtts

/-! ## What the stages promise -/

/-- Trading is enabled exactly for an edge that is not invalid, without saturation. -/
def ScoredDecision.Gated (signal : ScoredDecision) : Prop :=
  signal.tradingEnabled = true ↔
    signal.edgeState ≠ .invalid ∧ signal.competitionState ≠ .saturated

/-- An intent as the position makes it of a decision in range. -/
structure OrderIntent.Framed (cfg : Config) (intent : OrderIntent) : Prop where
  symbol : intent.request.symbol = cfg.symbol
  score : Unit01 intent.score
  slippage : intent.expectedSlippageBps ≤ intent.request.maxSlippageBps
  duration : 80 ≤ intent.expectedDurationMs
  gated : intent.tradingEnabled = true ↔
    intent.edgeState ≠ .invalid ∧ intent.competitionState ≠ .saturated

/-- An intent that passed all checks. -/
structure OrderIntent.Cleared (cfg : RunConfig) (intent : OrderIntent) : Prop where
  framed : intent.Framed cfg.toConfig
  meets : RiskLoop.Meets cfg intent
  unskipped : ∃ state, MetaEngine.Unskipped cfg.toConfig state intent
  executed : ∃ decided, intent.metaDecision = some decided ∧ decided.decision = .execute

/-- The validator said that trading is enabled. -/
theorem OrderIntent.Cleared.enabled {cfg : RunConfig} {intent : OrderIntent}
    (h : intent.Cleared cfg) : intent.tradingEnabled = true := by
  obtain ⟨state, hunskipped⟩ := h.unskipped
  exact h.framed.gated.mpr ⟨hunskipped.edge, hunskipped.competition⟩

theorem ReversalEngine.confidence_le_one (engine : ReversalEngine) (frame : MicrostructureFrame) :
    (engine.observeFrame frame).1.confidence ≤ 1 := by
  have hconfidence : ∀ confirmed, reversalConfidence frame confirmed ≤ 1 := by
    intro confirmed
    unfold reversalConfidence
    split
    · exact zero_le_one
    · exact clamp_le zero_le_one
  have hflip : ∀ (engine : ReversalEngine) blocked direction pressure previousPressure leans,
      (engine.observeFlip frame blocked direction pressure previousPressure leans).1.confidence ≤
        1 := by
    intro engine blocked direction pressure previousPressure leans
    unfold observeFlip
    split
    · exact zero_le_one
    · exact hconfidence _
  unfold observeFrame
  dsimp only
  split
  · exact zero_le_one
  · exact hflip _ _ _ _ _ _
  · exact hflip _ _ _ _ _ _

theorem AdaptiveLoop.decide_gated (exp sqrt : ℚ → ℚ) (modelWeights : RuntimeModelWeights)
    (cfg : RunConfig) (frame : MicrostructureFrame)
    (met : List EdgeValidation.RegimeMemory) (now : Nat) (s : AdaptiveLoop) :
    (s.decide exp sqrt modelWeights cfg frame met now).Gated := by
  show (s.edgeValidation.snapshot sqrt met s.drawdownPct).tradingEnabled = true ↔
    s.edgeValidation.edgeState sqrt ≠ .invalid ∧
      s.edgeValidation.competitionState sqrt ≠ .saturated
  rw [← not_or, ← EdgeValidation.tradingEnabled_eq_false_iff, Bool.not_eq_false]

/-- What the position makes of a decision in range. -/
theorem framed_of_onSignal {cfg : Config} {s : PositionLoop} {signal : ScoredDecision}
    {order : OrderIntent} (h : (s.onSignal cfg signal).1 = some order) (hrange : signal.InRange)
    (hgated : signal.Gated) : order.Framed cfg := by
  obtain ⟨side, size, reduceOnly, rfl⟩ := decideOrder_eq_some h
  refine ⟨rfl, hrange.score, ?_, hrange.duration.1, hgated⟩
  have hpos : 0 ≤ signal.expectedSlippageBps := le_trans (by norm_num) hrange.slippage.1
  show signal.expectedSlippageBps ≤ max (signal.expectedSlippageBps * 1.8) 2
  exact le_max_of_le_left (le_mul_of_one_le_right hpos (by norm_num))

theorem RiskLoop.normal_of_framed {cfg : Config} {intent : OrderIntent} (h : intent.Framed cfg) :
    RiskLoop.abnormal intent = false := by
  unfold RiskLoop.abnormal
  rw [decide_eq_false (not_lt.mpr h.score.2), decide_eq_false (not_lt.mpr h.score.1)]
  rfl

/-- The risk stage, on an intent of the position: it turns on the checks alone. -/
theorem RiskLoop.handle_framed {cfg : RunConfig} {intent : OrderIntent}
    (hallowance : 0 ≤ cfg.capital * cfg.maxDailyDrawdownPct) (h : intent.Framed cfg.toConfig) :
    RiskLoop.handle cfg (flat false) intent =
      (if Meets cfg intent then some intent else none, flat false) := by
  by_cases hmeets : Meets cfg intent
  · rw [handle_flat_of_meets hallowance hmeets, normal_of_framed h, if_neg Bool.false_ne_true,
      if_pos hmeets]
  · rw [handle_flat_of_not hallowance fun hall => hmeets hall.2, if_neg hmeets]

theorem cleared_of_handle {cfg : RunConfig} {state : MetaState} {intent out : OrderIntent}
    (hframed : intent.Framed cfg.toConfig) (hmeets : RiskLoop.Meets cfg intent)
    (h : (MetaEngine.handle cfg.toConfig state intent).1 = some out) : out.Cleared cfg := by
  obtain ⟨hexecute, rfl⟩ := MetaEngine.handle_forwards.mp h
  have hunskipped := (MetaEngine.decided_execute_iff.mp hexecute).1
  exact {
    framed := ⟨hframed.symbol, hframed.score, hframed.slippage, hframed.duration, hframed.gated⟩
    meets := ⟨hmeets.size, hmeets.price, hmeets.risk, hmeets.notional, hmeets.fresh,
      hmeets.duration, hmeets.slippage⟩
    unskipped := ⟨state, hunskipped.edge, hunskipped.competition, hunskipped.news,
      hunskipped.liquidity, hunskipped.stability, hunskipped.spread, hunskipped.volatility,
      hunskipped.hitRate, hunskipped.loss, hunskipped.scores⟩
    executed := ⟨_, rfl, hexecute⟩ }

/-- A submission is of a cleared intent, under its key; an exit is of something. -/
def ExecutionInstruction.Backed (cfg : RunConfig) : ExecutionInstruction → Prop
  | .submit intent key => intent.Cleared cfg ∧ key = idempotencyKey intent
  | .exitPosition _ _ _ size _ _ => 0 < size
  | _ => True

open ExecutionController in
theorem backed_of_convert {cfg : RunConfig} {c : ExecutionController} (hc : c.RemainderTracked)
    {nowTs : Nat} {sent : ExecutionInstruction}
    (h : convert (c.evaluateAction nowTs) c = some sent) : sent.Backed cfg := by
  cases sent with
  | submit intent key =>
    cases haction : c.evaluateAction nowTs <;> rw [haction] at h <;> cases h
  | exitPosition orderId symbol side size price reason => exact hc.exit_size_pos h
  | _ => exact trivial

open Controllers ExecutionController in
theorem backed_of_step {cfg : RunConfig} {s : Controllers} (hs : s.All RemainderTracked)
    {input : ControllerInput} (hinput : ∀ intent, input = .order intent → intent.Cleared cfg) :
    ∀ sent ∈ (Controllers.step cfg.toConfig s input).1.instructions, sent.Backed cfg := by
  rw [← attempts_instructions]
  simp only [List.forall_mem_map]
  intro a ha
  have hkept := remainderTracked_kept cfg.toConfig
  rcases mem_attempts ha with ⟨intent, rfl, rfl⟩ | ⟨update, key, c, -, hc, -, ha⟩ |
      ⟨update, key, c, -, hc, -, -, ha⟩
  · exact ⟨hinput intent rfl, rfl⟩
  · obtain ⟨instruction, hconvert, rfl⟩ := mem_attempt_iff.mp ha
    exact backed_of_convert (hkept.event _ _ (hs key c hc)) hconvert
  · obtain ⟨instruction, hconvert, rfl⟩ := mem_attempt_iff.mp ha
    exact backed_of_convert (hkept.market _ _ (hs key c hc)) hconvert

/-! ## The contract -/

namespace Pipeline

open Concurrency
open Concurrency.Network (Keeps)

def guarded (cfg : RunConfig) : Contract Task Chan Msg State where
  holds
    | .risk => fun s => s = RiskLoop.flat false
    | .controller => fun s => s.All ExecutionController.RemainderTracked
    | _ => fun _ => True
  allows
    | .reversal | .classifier => fun frame => frame.reversal.confidence ≤ 1
    | .decision => fun signal => signal.InRange ∧ signal.Gated
    | .intent => fun intent => intent.Framed cfg.toConfig
    | .risk => fun intent => intent.Framed cfg.toConfig ∧ RiskLoop.Meets cfg intent
    | .metaIntent => fun intent => intent.Cleared cfg
    | .executionAction => fun sent => sent.Backed cfg
    | _ => fun _ => True

theorem keeps_guarded (setup : Setup)
    (hallowance : 0 ≤ setup.cfg.capital * setup.cfg.maxDailyDrawdownPct) :
    Keeps (network setup) (guarded setup.cfg) where
  start t := by
    cases t with
    | risk => exact rfl
    | controller => exact fun key c hlookup => nomatch hlookup
    | _ => exact trivial
  state c s env m hs hm := by
    cases c with
    | intent =>
      obtain rfl : s = RiskLoop.flat false := hs
      exact congrArg Prod.snd (RiskLoop.handle_framed hallowance hm)
    | metaIntent =>
      exact (Controllers.remainderTracked_kept setup.cfg.toConfig).step hs (.order m)
    | controllerExec =>
      exact (Controllers.remainderTracked_kept setup.cfg.toConfig).step hs (.execution m)
    | controllerMarket =>
      exact (Controllers.remainderTracked_kept setup.cfg.toConfig).step hs (.market m)
    | _ => exact trivial
  sent c s env m hs hm := by
    cases c with
    | feed | microUpdate | micro => exact allows_of_sendOn fun _ _ => trivial
    | update => exact allows_of_fanout trivial trivial trivial
    | trigger =>
      refine allows_of_sendOn fun frame hframe => ?_
      rw [List.mem_singleton.mp hframe]
      exact ReversalEngine.confidence_le_one _ _
    | reversal =>
      refine allows_of_sendOn fun frame hframe => ?_
      rw [List.mem_singleton.mp hframe]
      exact hm
    | classifier =>
      refine allows_of_sendOn fun signal hsignal => ?_
      rw [List.mem_singleton.mp hsignal]
      exact ⟨AdaptiveLoop.decide_inRange _ _ _ _ _ _ _ hm,
        AdaptiveLoop.decide_gated _ _ _ _ _ _ _ _⟩
    | decision =>
      exact allows_of_sendOn fun order horder =>
        framed_of_onSignal (Option.mem_toList.mp horder) hm.1 hm.2
    | intent =>
      obtain rfl : s = RiskLoop.flat false := hs
      refine allows_of_sendOn fun order horder => ?_
      have hpassed : order ∈ (RiskLoop.handle setup.cfg (RiskLoop.flat false) m).1 :=
        Option.mem_toList.mp horder
      rw [RiskLoop.handle_framed hallowance hm] at hpassed
      by_cases hmeets : RiskLoop.Meets setup.cfg m
      · rw [if_pos hmeets] at hpassed
        obtain rfl := Option.some.inj hpassed
        exact ⟨hm, hmeets⟩
      · rw [if_neg hmeets] at hpassed
        cases hpassed
    | risk =>
      exact allows_of_sendOn fun order horder =>
        cleared_of_handle hm.1 hm.2 (Option.mem_toList.mp horder)
    | metaIntent =>
      refine allows_of_controller (backed_of_step hs fun intent hintent => ?_) fun _ _ => trivial
      obtain rfl := ControllerInput.order.inj hintent
      exact hm
    | controllerExec =>
      exact allows_of_controller (backed_of_step hs fun _ hintent => nomatch hintent)
        fun _ _ => trivial
    | controllerMarket =>
      exact allows_of_controller (backed_of_step hs fun _ hintent => nomatch hintent)
        fun _ _ => trivial
    | executionFeed => exact allows_of_external trivial fun _ _ => ⟨trivial, trivial⟩
    | truthMarket => exact allows_of_truth fun _ _ => ⟨trivial, trivial⟩
    | truthFill => exact allows_of_truth fun _ _ => ⟨trivial, trivial⟩
    | executionAction =>
      intro o ho
      obtain ⟨turn, -, post, -, hsent⟩ := mem_listen ho
      cases hsent
    | fill | learning | learningReversal | controllerFeedback =>
      intro o ho
      cases ho

/-! ## What leaves the pipeline -/

variable {setup : Setup} {trace : List (Act Chan Env Msg)} {x : Moment Task Chan Msg State}

/-- Nothing from outside breaks the contract. -/
theorem admits_guarded (setup : Setup) (trace : List (Act Chan Env Msg)) :
    (network setup).Admits (guarded setup.cfg) trace := by
  intro c hc m hm
  cases c with
  | feed => exact trivial
  | executionFeed => exact trivial
  | _ => cases hc

theorem emitted_risk (setup : Setup) (trace : List (Act Chan Env Msg)) :
    (network setup).emitted .risk .risk trace =
      (emit (RiskLoop.step setup.cfg) (RiskLoop.flat false) (taken .intent trace)).1 := by
  show (emit (listen (heard .intent) _ (sendOn .risk)) _ _).1.filterMap (on .risk) = _
  rw [emit_listen, filterMap_sendOn, emit_comap, ← map_heard setup]
  rfl

/-- In every run the risk stage passes on exactly the intents that meet its checks, and
never comes to its kill switch or a drawdown. -/
theorem risk_passes (setup : Setup)
    (hallowance : 0 ≤ setup.cfg.capital * setup.cfg.maxDailyDrawdownPct)
    (trace : List (Act Chan Env Msg)) (x : Moment Task Chan Msg State)
    (h : (network setup).Run trace x) :
    (network setup).emitted .risk .risk trace =
        (taken Chan.intent trace).filter (fun intent => decide (RiskLoop.Meets setup.cfg intent)) ∧
      (x.state .risk).killSwitch = false ∧ (x.state .risk).realizedPnl = 0 := by
  have hkept := keeps_guarded setup hallowance
  have hadmits := admits_guarded setup trace
  have hstate : x.state .risk = RiskLoop.flat false := (h.meets hkept hadmits).state .risk
  refine ⟨?_, by rw [hstate]; rfl, by rw [hstate]; rfl⟩
  have huntripped : ∀ intent ∈ taken Chan.intent trace,
      (!decide (RiskLoop.Trips setup.cfg intent)) = true := by
    intro intent hintent
    have hframed : intent.Framed setup.cfg.toConfig := h.allows_taken hkept hadmits hintent
    rw [decide_eq_false fun htrips => ?_]
    · rfl
    · have habnormal := htrips.2
      rw [RiskLoop.normal_of_framed hframed] at habnormal
      cases habnormal
  rw [emitted_risk, RiskLoop.emit_flat hallowance, RiskLoop.untilTripped,
    List.takeWhile_eq_self_iff.mpr huntripped]

/-- A fill is reported, and a quote decided on. -/
theorem risk_passes_served : ∃ (more : Trace) (x : Moment Task Chan Msg State),
    ((network shipped).emitted .risk .risk (filledTrace ++ shown ++ more) =
        (taken Chan.intent (filledTrace ++ shown ++ more)).filter
          (fun intent => decide (RiskLoop.Meets shipped.cfg intent)) ∧
      (x.state .risk).killSwitch = false ∧ (x.state .risk).realizedPnl = 0) ∧
    taken Chan.decision (filledTrace ++ shown ++ more) ≠ [] := by
  obtain ⟨more, x, hrun, hdecided⟩ := run_served
  exact ⟨more, x, risk_passes shipped (by decide +kernel) _ x hrun, hdecided⟩

/-- All that the smart stage posts. -/
def postsIn (setup : Setup) (trace : List (Act Chan Env Msg)) : List Post :=
  posts setup.cfg.toConfig { symbol := setup.cfg.symbol }
    (((network setup).received .smart trace).filterMap smartInput)

/-- The request places the intent, which passed all checks. -/
structure Places (cfg : RunConfig) (request : ControlPlaneExecutionRequest) (intent : OrderIntent) :
    Prop where
  cleared : intent.Cleared cfg
  decision : request.decision = "Execute"
  key : request.idempotencyKey = idempotencyKey intent
  symbol : request.symbol = cfg.symbol
  side : request.side = sideLabel intent.request.side
  size : request.size = intent.request.size
  reduceOnly : intent.request.reduceOnly = true → request.reduceOnly = true
  worth : executionThreshold cfg.toConfig < expectedRealMarkoutAfterCost .initial intent

/-- The request gets out of what an order has filled. -/
structure Exits (request : ControlPlaneExecutionRequest) : Prop where
  decision : request.decision = "Exit"
  reduceOnly : request.reduceOnly = true
  size : 0 < request.size

/-- What is made of an intent before it is placed. -/
theorem prepareExecution_request (profile : SymbolProfile) (intent : OrderIntent) :
    (prepareExecution profile intent).request.symbol = intent.request.symbol ∧
      (prepareExecution profile intent).request.side = intent.request.side ∧
      (prepareExecution profile intent).request.size = intent.request.size ∧
      (intent.request.reduceOnly = true →
        (prepareExecution profile intent).request.reduceOnly = true) := by
  unfold prepareExecution
  dsimp only
  generalize ExecutionModeSwitch.choose intent _ = mode
  cases mode with
  | passive => exact ⟨rfl, rfl, rfl, id⟩
  | aggressive => exact ⟨rfl, rfl, rfl, id⟩
  | defensive => exact ⟨rfl, rfl, rfl, fun _ => rfl⟩

theorem request_of_backed {cfg : RunConfig} {now now' : Nat} {sent : ExecutionInstruction}
    {profile : SymbolProfile} {request : ControlPlaneExecutionRequest} (hbacked : sent.Backed cfg)
    (h : (handleInstruction cfg.toConfig now now' sent profile).1 = some (.request request)) :
    (∃ intent, Places cfg request intent) ∨ Exits request := by
  cases sent with
  | submit intent key =>
    obtain ⟨hcleared, rfl⟩ := hbacked
    unfold handleInstruction at h
    dsimp only at h
    split_ifs at h with hstale hmeta hweak
    obtain rfl := Post.request.inj (Option.some.inj h)
    obtain ⟨hsymbol, hside, hsize, hreduce⟩ := prepareExecution_request
      (SymbolProfileEngine.observeIntent intent profile) intent
    exact .inl ⟨intent, {
      cleared := hcleared
      decision := rfl
      key := rfl
      symbol := hsymbol.trans hcleared.framed.symbol
      side := congrArg sideLabel hside
      size := hsize
      reduceOnly := hreduce
      worth := not_le.mp hweak }⟩
  | exitPosition orderId symbol side size price reason =>
    obtain rfl := Post.request.inj (Option.some.inj h)
    exact .inr ⟨rfl, rfl, hbacked⟩
  | cancel | replace | switchStrategy | abort => cases h

/-- What is posted comes of an instruction that was taken. -/
theorem taken_of_posted {post : Post} (h : post ∈ postsIn setup trace) :
    ∃ now now' sent profile, sent ∈ taken Chan.executionAction trace ∧
      (handleInstruction setup.cfg.toConfig now now' sent profile).1 = some post := by
  obtain ⟨before, turn, after, hturns, hpost⟩ := mem_posts_iff.mp h
  have hturn : turn ∈ ((network setup).received .smart trace).filterMap smartInput := by
    rw [hturns]
    exact List.mem_append_right _ List.mem_cons_self
  obtain ⟨r, hr, hread⟩ := List.mem_filterMap.mp hturn
  obtain ⟨m, hm, rfl⟩ := Option.map_eq_some_iff.mp hread
  refine ⟨m.1.now, m.1.now', m.2, _, ?_, hpost⟩
  rw [← map_heard setup]
  exact List.mem_map_of_mem (List.mem_filterMap.mpr ⟨r, hr, hm⟩)

/-- Every request posted places an intent that passed all checks, or gets out of what was
filled. -/
structure Orderly (setup : Setup) (trace : List (Act Chan Env Msg)) : Prop where
  requests : ∀ request, .request request ∈ postsIn setup trace →
    (∃ intent, Places setup.cfg request intent) ∨ Exits request

/-- In every run the requests are backed, whatever comes from outside. -/
theorem requests_backed (setup : Setup)
    (hallowance : 0 ≤ setup.cfg.capital * setup.cfg.maxDailyDrawdownPct)
    (trace : List (Act Chan Env Msg)) (x : Moment Task Chan Msg State)
    (h : (network setup).Run trace x) : Orderly setup trace where
  requests request hposted := by
    obtain ⟨now, now', sent, profile, htaken, hpost⟩ := taken_of_posted hposted
    exact request_of_backed
      (h.allows_taken (keeps_guarded setup hallowance) (admits_guarded setup trace) htaken) hpost

theorem requests_backed_served : ∃ more, Orderly shipped (filledTrace ++ shown ++ more) ∧
    taken Chan.decision (filledTrace ++ shown ++ more) ≠ [] := by
  obtain ⟨more, x, hrun, hdecided⟩ := run_served
  exact ⟨more, requests_backed shipped (by decide +kernel) _ x hrun, hdecided⟩

end Pipeline

end RealTimeTrading.Rtts
