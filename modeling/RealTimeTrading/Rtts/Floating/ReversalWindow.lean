/-
RealTimeTrading.Rtts.Floating.ReversalWindow — the reversal engine over
`f64`: a reversal is confirmed at most once for each activation, and near it.

A run is logged as its activations and its confirmations, in order. An
activation puts the engine on watch (`Watching`) and a confirmation ends
that, so each confirmation in the log directly follows the activation it
belongs to. How far the price has moved since is a quotient of `f64`, which
tells only where both prices are finite.
-/
import RealTimeTrading.Concurrency.Emitting
import RealTimeTrading.Rtts.Floating.Frame
import RealTimeTrading.Rtts.Scoring.ReversalEngine

namespace RealTimeTrading.Rtts.Floating

open Concurrency Data

/-- Of `LearningSample`, what the reversal engine reads. -/
structure ReversalSample where
  timestamp : Nat
  direction : Direction
  pnl : F64
  durationMs : Nat

structure ReversalContext where
  state : ReversalState := .idle
  activationTime : Nat := 0
  lastExitPrice : F64 := 0
  lastDirection : Side := .buy

structure ReversalEngine where
  context : ReversalContext := {}
  observationTimeoutMs : Nat
  maxPriceMovePct : F64
  previousBuyPressure : F64 := 0
  previousSellPressure : F64 := 0
  lastMarketPrice : F64 := 0
  lastMarketTs : Nat := 0

namespace ReversalEngine

def defaultShortThresholdMs : Nat := 10000

def defaultMaxMovePct : F64 := 0.0035

def new (observationTimeoutMs : Nat) : ReversalEngine :=
  { observationTimeoutMs := observationTimeoutMs, maxPriceMovePct := defaultMaxMovePct }

/-! ## Reading a frame -/

def allowFlip (context : MarketContext) : Bool :=
  decide (context.regime ≠ .trendExpansion) && decide (context.regime ≠ .highVolatility) &&
    decide (0.42 < context.stabilityScore) && decide (0.38 < context.liquidityScore)

def newDominantTrend (frame : MicrostructureFrame) : Direction → Bool
  | .long =>
    decide (1.2 < frame.regime.trendStrength) && decide (0.8 < frame.features.microPriceVelocity) &&
      decide (0.4 < frame.features.orderFlowDelta)
  | .short =>
    decide (1.2 < frame.regime.trendStrength) &&
      decide (frame.features.microPriceVelocity < -0.8) &&
      decide (frame.features.orderFlowDelta < -0.4)
  | .flat => false

def reversalConfidence (frame : MicrostructureFrame) (confirmed : Bool) : F64 :=
  if !confirmed then 0
  else
    (0.35 * frame.flow.exhaustion + 0.30 * frame.book.absorption +
      0.20 * frame.timing.timingScore + 0.15 * frame.context.stabilityScore).clamp 0 1

def reversalEdge (frame : MicrostructureFrame) : F64 :=
  max (frame.flow.exhaustion * 1.4 + frame.book.absorption + frame.timing.timingScore * 0.8 -
    frame.regime.spread * 0.05 - frame.features.liquidityPull * 0.75) 0

/-- How far the price is from the activation price, before it is clamped. -/
def priceMove (context : ReversalContext) (frame : MicrostructureFrame) : F64 :=
  (marketPrice frame - context.lastExitPrice).abs / max context.lastExitPrice F64.epsilon

/-! ## The engine -/

variable (engine : ReversalEngine)

/-- The context `observe_learning` sets, if it gets that far. -/
def activation (sample : ReversalSample) (frame : Option MicrostructureFrame) :
    Option ReversalContext :=
  let regimeIsTrend :=
    (frame.map fun value => decide (value.context.regime = .trendExpansion)).getD false
  if sample.pnl ≤ 0 ∨ defaultShortThresholdMs ≤ sample.durationMs ∨ regimeIsTrend = true then none
  else
    match sample.direction.side with
    | none => none
    | some lastDirection =>
      let price := ((frame.map marketPrice).filter fun value => decide (0 < value)).or
        (if 0 < engine.lastMarketPrice then some engine.lastMarketPrice else none)
      match price with
      | none => none
      | some price => some
        { state :=
            match lastDirection with
            | .buy => .observeLongToShort
            | .sell => .observeShortToLong
          activationTime := (frame.map (·.timestamp)).getD sample.timestamp
          lastExitPrice := price
          lastDirection := lastDirection }

def observeLearning (sample : ReversalSample) (frame : Option MicrostructureFrame) :
    ReversalEngine :=
  match engine.activation sample frame with
  | none => engine
  | some context => { engine with context := context }

def reset : ReversalEngine :=
  { engine with
    context := { engine.context with state := .idle, activationTime := 0, lastExitPrice := 0 } }

def expired (frame : MicrostructureFrame) : Bool :=
  if engine.context.state = .idle then false
  else if engine.observationTimeoutMs < frame.timestamp - engine.context.activationTime then true
  else
    decide (engine.maxPriceMovePct < (priceMove engine.context frame).clamp 0 1)

/-- The two observations mirror each other: which trend ends them, whose pressure has to
fade and to which side the top of the book may lean instead of absorbing. -/
def observeFlip (frame : MicrostructureFrame) (blocked direction : Direction)
    (pressure previousPressure : F64) (leans : Bool) : ReversalSnapshot × ReversalEngine :=
  if engine.expired frame || !allowFlip frame.context || newDominantTrend frame blocked then
    ({}, engine.reset)
  else
    let confirmed :=
      decide (frame.flow.signal = .exhaustion ∨ frame.flow.signal = .weakContinuation) &&
      decide (pressure < previousPressure * 0.82) &&
      (decide (0.30 < frame.book.absorption) || leans) &&
      decide (frame.timing.signal = .optimal) &&
      decide (frame.context.regime ≠ .trendExpansion) &&
      decide (frame.features.spreadDynamics ≤ 0.65) && decide (frame.regime.volatility < 3.0)
    let snapshot : ReversalSnapshot :=
      { state := engine.context.state
        active := true
        confirmed := confirmed
        direction := direction
        confidence := reversalConfidence frame confirmed
        expectedEdge := if confirmed then reversalEdge frame else 0 }
    (snapshot, if confirmed then engine.reset else engine)

def observeLongToShort (frame : MicrostructureFrame) : ReversalSnapshot × ReversalEngine :=
  engine.observeFlip frame .long .short (buyPressure frame) engine.previousBuyPressure
    (decide (frame.book.topPressure < 0))

def observeShortToLong (frame : MicrostructureFrame) : ReversalSnapshot × ReversalEngine :=
  engine.observeFlip frame .short .long (sellPressure frame) engine.previousSellPressure
    (decide (0 < frame.book.topPressure))

def observeFrame (frame : MicrostructureFrame) : ReversalSnapshot × ReversalEngine :=
  let engine :=
    { engine with lastMarketPrice := marketPrice frame, lastMarketTs := frame.timestamp }
  let (snapshot, engine) :=
    match engine.context.state with
    | .idle => (({} : ReversalSnapshot), engine)
    | .observeLongToShort => engine.observeLongToShort frame
    | .observeShortToLong => engine.observeShortToLong frame
  (snapshot,
    { engine with
      previousBuyPressure := buyPressure frame
      previousSellPressure := sellPressure frame })

/-! ## The log of a run -/

inductive Call where
  | observeLearning (sample : ReversalSample) (frame : Option MicrostructureFrame)
  | observeFrame (frame : MicrostructureFrame)

/-- An accepted activation with the context it set, and a confirmed snapshot. -/
inductive Event where
  | activated (sample : ReversalSample) (context : ReversalContext)
  | confirmed (frame : MicrostructureFrame) (snapshot : ReversalSnapshot)

def step (engine : ReversalEngine) : Call → List Event × ReversalEngine
  | .observeLearning sample frame =>
    (((engine.activation sample frame).map (Event.activated sample)).toList,
      engine.observeLearning sample frame)
  | .observeFrame frame =>
    (if (engine.observeFrame frame).1.confirmed then
        [.confirmed frame (engine.observeFrame frame).1] else [],
      (engine.observeFrame frame).2)

def log (observationTimeoutMs : Nat) (calls : List Call) : List Event :=
  (emit step (new observationTimeoutMs) calls).1

/-! ## One call -/

/-- What a confirmation says of its frame and of the context it was made in. -/
structure Confirms (timeout : Nat) (context : ReversalContext) (frame : MicrostructureFrame)
    (snapshot : ReversalSnapshot) : Prop where
  direction : snapshot.direction.side = some context.lastDirection.opposite
  inTime : frame.timestamp - context.activationTime ≤ timeout
  near : (marketPrice frame).isFinite = true → context.lastExitPrice.isFinite = true →
    priceMove context frame ≤ defaultMaxMovePct
  notTrending : frame.context.regime ≠ .trendExpansion
  notVolatile : frame.context.regime ≠ .highVolatility

/-- The engine keeps its bounds, and on watch it faces the way its last direction says. -/
structure WellSet (timeout : Nat) (engine : ReversalEngine) : Prop where
  timeout : engine.observationTimeoutMs = timeout
  maxMove : engine.maxPriceMovePct = defaultMaxMovePct
  long : engine.context.state = .observeLongToShort → engine.context.lastDirection = .buy
  short : engine.context.state = .observeShortToLong → engine.context.lastDirection = .sell

variable {timeout : Nat} {engine : ReversalEngine} {frame : MicrostructureFrame}

theorem wellSet_new (timeout : Nat) : WellSet timeout (new timeout) :=
  ⟨rfl, rfl, by rintro ⟨⟩, by rintro ⟨⟩⟩

theorem activation_spec {sample : ReversalSample} {seen : Option MicrostructureFrame}
    {context : ReversalContext} (h : engine.activation sample seen = some context) :
    sample.direction.side = some context.lastDirection ∧
      (context.state = .observeLongToShort → context.lastDirection = .buy) ∧
      (context.state = .observeShortToLong → context.lastDirection = .sell) := by
  unfold activation at h
  dsimp only at h
  split at h
  · cases h
  · split at h
    · cases h
    · rename_i lastDirection hside
      split at h
      · cases h
      · obtain rfl := Option.some.inj h
        refine ⟨hside, ?_, ?_⟩ <;> cases lastDirection <;> simp

/-- Between finite prices the move is a number. -/
theorem priceMove_ne_nan {context : ReversalContext} (hprice : (marketPrice frame).isFinite = true)
    (hexit : context.lastExitPrice.isFinite = true) : priceMove context frame ≠ .nan := by
  obtain ⟨p, hp⟩ := F64.exists_finite hprice
  obtain ⟨left, hleft⟩ := F64.exists_finite hexit
  obtain ⟨scale, hscale, -, hpos⟩ := F64.max_epsilon left
  unfold priceMove
  rw [hp, hleft, hscale, F64.sub_finite]
  exact F64.div_ne_nan (F64.abs_ne_nan (F64.round_ne_nan _)) hpos

/-- Not expired: in time and near the price the position was left at. -/
theorem near_of_not_expired (h : WellSet timeout engine) (hstate : engine.context.state ≠ .idle)
    (hopen : engine.expired frame = false) :
    frame.timestamp - engine.context.activationTime ≤ timeout ∧
      ((marketPrice frame).isFinite = true → engine.context.lastExitPrice.isFinite = true →
        priceMove engine.context frame ≤ defaultMaxMovePct) := by
  rw [expired, if_neg hstate] at hopen
  split at hopen
  · cases hopen
  · rename_i hintime
    rw [h.timeout] at hintime
    have hmove := of_decide_eq_false hopen
    rw [h.maxMove] at hmove
    refine ⟨not_lt.mp hintime, fun hprice hexit => ?_⟩
    have hnumber := priceMove_ne_nan hprice hexit
    have hzero : (0 : F64) ≤ defaultMaxMovePct := by decide +kernel
    have hone : defaultMaxMovePct < 1 := by decide +kernel
    unfold F64.clamp at hmove
    split_ifs at hmove with hlow hhigh
    · exact F64.le_trans (F64.le_of_lt hlow) hzero
    · exact absurd hone hmove
    · exact F64.le_of_not_lt (F64.ne_nan_of_lt_left hone) hnumber hmove

theorem allowFlip_regime {context : MarketContext} (h : allowFlip context = true) :
    context.regime ≠ .trendExpansion ∧ context.regime ≠ .highVolatility := by
  simp only [allowFlip, Bool.and_eq_true, decide_eq_true_eq] at h
  exact ⟨h.1.1.1, h.1.1.2⟩

/-- All that a context can go through at a frame: nothing, a reset, or a confirmation and
a reset. -/
def Outcome (timeout : Nat) (frame : MicrostructureFrame) (before : ReversalContext)
    (answer : ReversalSnapshot × ReversalEngine) : Prop :=
  (answer.1.confirmed = false ∧
    (answer.2.context = before ∨ answer.2.context.state = .idle)) ∨
  (answer.1.confirmed = true ∧ before.state ≠ .idle ∧ Confirms timeout before frame answer.1 ∧
    answer.2.context.state = .idle)

theorem observeFlip_outcome (h : WellSet timeout engine) (hstate : engine.context.state ≠ .idle)
    (frame : MicrostructureFrame) (blocked : Direction) {direction : Direction}
    (hdirection : direction.side = some engine.context.lastDirection.opposite)
    (pressure previousPressure : F64) (leans : Bool) :
    Outcome timeout frame engine.context
      (engine.observeFlip frame blocked direction pressure previousPressure leans) := by
  unfold observeFlip
  dsimp only
  split
  · exact .inl ⟨rfl, .inr rfl⟩
  · rename_i hopen
    simp only [Bool.or_eq_true, not_or, Bool.not_eq_true, Bool.not_eq_false'] at hopen
    obtain ⟨htime, hprice⟩ := near_of_not_expired h hstate hopen.1.1
    obtain ⟨htrend, hvolatile⟩ := allowFlip_regime hopen.1.2
    split
    · rename_i hconfirmed
      exact .inr ⟨hconfirmed, hstate, ⟨hdirection, htime, hprice, htrend, hvolatile⟩, rfl⟩
    · rename_i hunconfirmed
      exact .inl ⟨Bool.eq_false_iff.mpr hunconfirmed, .inl rfl⟩

theorem observeFrame_outcome (h : WellSet timeout engine) (frame : MicrostructureFrame) :
    Outcome timeout frame engine.context (engine.observeFrame frame) := by
  have hseen : WellSet timeout
      { engine with lastMarketPrice := marketPrice frame, lastMarketTs := frame.timestamp } :=
    ⟨h.timeout, h.maxMove, h.long, h.short⟩
  unfold observeFrame
  dsimp only
  cases hstate : engine.context.state with
  | idle => exact .inl ⟨rfl, .inl rfl⟩
  | observeLongToShort =>
    exact observeFlip_outcome hseen (by simp [hstate]) frame .long
      (by rw [h.long hstate]; rfl) _ _ _
  | observeShortToLong =>
    exact observeFlip_outcome hseen (by simp [hstate]) frame .short
      (by rw [h.short hstate]; rfl) _ _ _

/-! ## The whole run -/

theorem WellSet.reset (h : WellSet timeout engine) : WellSet timeout engine.reset :=
  ⟨h.timeout, h.maxMove, by rintro ⟨⟩, by rintro ⟨⟩⟩

theorem WellSet.observeFlip (h : WellSet timeout engine) (frame : MicrostructureFrame)
    (blocked direction : Direction) (pressure previousPressure : F64) (leans : Bool) :
    WellSet timeout
      (engine.observeFlip frame blocked direction pressure previousPressure leans).2 := by
  unfold ReversalEngine.observeFlip
  dsimp only
  split
  · exact h.reset
  · split
    · exact h.reset
    · exact h

theorem WellSet.observeFrame (h : WellSet timeout engine) (frame : MicrostructureFrame) :
    WellSet timeout (engine.observeFrame frame).2 := by
  have hseen : WellSet timeout
      { engine with lastMarketPrice := marketPrice frame, lastMarketTs := frame.timestamp } :=
    ⟨h.timeout, h.maxMove, h.long, h.short⟩
  have hanswer : ∀ answer : ReversalSnapshot × ReversalEngine, WellSet timeout answer.2 →
      WellSet timeout { answer.2 with
        previousBuyPressure := buyPressure frame
        previousSellPressure := sellPressure frame } := fun _ h =>
    ⟨h.timeout, h.maxMove, h.long, h.short⟩
  refine hanswer _ ?_
  dsimp only
  cases engine.context.state with
  | idle => exact hseen
  | observeLongToShort => exact hseen.observeFlip frame .long .short _ _ _
  | observeShortToLong => exact hseen.observeFlip frame .short .long _ _ _

theorem WellSet.observeLearning (h : WellSet timeout engine) (sample : ReversalSample)
    (seen : Option MicrostructureFrame) : WellSet timeout (engine.observeLearning sample seen) := by
  unfold ReversalEngine.observeLearning
  split
  · exact h
  · rename_i context hactivation
    obtain ⟨-, hlong, hshort⟩ := activation_spec hactivation
    exact ⟨h.timeout, h.maxMove, hlong, hshort⟩

theorem wellSet_step (engine : ReversalEngine) (call : Call) (h : WellSet timeout engine) :
    WellSet timeout (step engine call).2 := by
  cases call with
  | observeLearning sample seen => exact h.observeLearning sample seen
  | observeFrame frame => exact h.observeFrame frame

/-- On watch, the last event was the activation that set the context. -/
structure Watching (timeout : Nat) (last : Option Event) (engine : ReversalEngine) : Prop where
  wellSet : WellSet timeout engine
  activated : engine.context.state ≠ .idle →
    ∃ sample : ReversalSample, last = some (.activated sample engine.context) ∧
      sample.direction.side = some engine.context.lastDirection

theorem watching_new (timeout : Nat) : Watching timeout none (new timeout) :=
  ⟨wellSet_new timeout, fun h => absurd rfl h⟩

/-- What comes before a confirmation. -/
def Follows (timeout : Nat) (last : Option Event) : Event → Prop
  | .activated _ _ => True
  | .confirmed frame snapshot =>
    ∃ sample context, last = some (.activated sample context) ∧
      sample.direction.side = some context.lastDirection ∧
      Confirms timeout context frame snapshot

theorem watching_step (last : Option Event) (engine : ReversalEngine) (call : Call)
    (h : Watching timeout last engine) :
    ((step engine call).1 = [] ∧ Watching timeout last (step engine call).2) ∨
      ∃ event, (step engine call).1 = [event] ∧ Follows timeout last event ∧
        Watching timeout (some event) (step engine call).2 := by
  have hkept := wellSet_step engine call h.wellSet
  cases call with
  | observeLearning sample seen =>
    cases hactivation : engine.activation sample seen with
    | none =>
      left
      have hsame : engine.observeLearning sample seen = engine := by
        rw [observeLearning, hactivation]
      simp only [step, hactivation, hsame]
      exact ⟨rfl, h⟩
    | some context =>
      right
      have hset : engine.observeLearning sample seen = { engine with context := context } := by
        rw [observeLearning, hactivation]
      simp only [step, hactivation, hset] at hkept ⊢
      exact ⟨_, rfl, trivial, hkept, fun _ => ⟨sample, rfl, (activation_spec hactivation).1⟩⟩
  | observeFrame frame =>
    simp only [step] at hkept ⊢
    rcases observeFrame_outcome h.wellSet frame with
      ⟨hquiet, hcontext⟩ | ⟨hconfirmed, hstate, hconfirms, hidle⟩
    · left
      rw [hquiet]
      refine ⟨rfl, hkept, fun hwatch => ?_⟩
      rcases hcontext with hsame | hidle
      · rw [hsame] at hwatch ⊢
        exact h.activated hwatch
      · exact absurd hidle hwatch
    · right
      obtain ⟨sample, hlast, hside⟩ := h.activated hstate
      rw [hconfirmed]
      exact ⟨_, rfl, ⟨sample, _, hlast, hside, hconfirms⟩, hkept,
        fun hwatch => absurd hidle hwatch⟩

/-- A confirmation directly follows the activation whose context it was made in. -/
theorem confirmed_follows {calls : List Call} {before after : List Event}
    {snapshot : ReversalSnapshot}
    (h : log timeout calls = before ++ .confirmed frame snapshot :: after) :
    ∃ sample context, before.getLast? = some (.activated sample context) ∧
      sample.direction.side = some context.lastDirection ∧
      Confirms timeout context frame snapshot := by
  have hfollows := emit_preceded watching_step (watching_new timeout) h
  rw [Option.or_none] at hfollows
  exact hfollows

def Event.isActivated : Event → Bool
  | .activated _ _ => true
  | .confirmed _ _ => false

def Event.isConfirmed : Event → Bool
  | .activated _ _ => false
  | .confirmed _ _ => true

theorem confirmed_le_activated (timeout : Nat) (calls : List Call) :
    (log timeout calls).countP Event.isConfirmed ≤
      (log timeout calls).countP Event.isActivated := by
  have hpreceded := countP_le_of_preceded (p := Event.isActivated) (q := Event.isConfirmed)
    (fun event h => by cases event <;> first | rfl | cases h) (l := log timeout calls)
    (fun before event after hsplit hevent => by
      cases event with
      | activated => cases hevent
      | confirmed frame snapshot =>
        obtain ⟨sample, context, hlast, -⟩ := confirmed_follows hsplit
        exact ⟨_, hlast, rfl⟩)
  exact (Nat.le_add_right _ _).trans hpreceded

theorem idle_of_confirmed (h : WellSet timeout engine)
    (hconfirmed : (engine.observeFrame frame).1.confirmed = true) :
    (engine.observeFrame frame).2.context.state = .idle := by
  rcases observeFrame_outcome h frame with ⟨hquiet, -⟩ | ⟨-, -, -, hidle⟩
  · rw [hquiet] at hconfirmed
    cases hconfirmed
  · exact hidle

/-- Over every interleaving of samples and frames: no more confirmations than
activations; each of them turns against the last accepted sample, in time, in a market
that neither trends nor is volatile, and between finite prices within the permitted move, as
`f64` computes it of the activation price or of `f64::EPSILON`; and the engine is idle after
it. -/
theorem reversal_one_shot (timeout : Nat) (calls : List Call) :
    (log timeout calls).countP Event.isConfirmed ≤ (log timeout calls).countP Event.isActivated ∧
    (∀ before frame snapshot after,
      log timeout calls = before ++ .confirmed frame snapshot :: after →
      ∃ sample context, before.getLast? = some (.activated sample context) ∧
        sample.direction.side = some context.lastDirection ∧
        Confirms timeout context frame snapshot) ∧
    ∀ frame, ((emit step (new timeout) calls).2.observeFrame frame).1.confirmed = true →
      ((emit step (new timeout) calls).2.observeFrame frame).2.context.state = .idle := by
  have hrun : WellSet timeout (emit step (new timeout) calls).2 :=
    emit_invariant wellSet_step (wellSet_new timeout) calls
  exact ⟨confirmed_le_activated timeout calls, fun _ _ _ _ => confirmed_follows,
    fun _ => idle_of_confirmed hrun⟩

/-- A market where buyers tire. -/
def tiringFrame (price buying : F64) : MicrostructureFrame :=
  { timestamp := 1000
    trade := some { timestamp := 1000, price := price, volume := 1, side := .buy }
    book := { absorption := 0.45 }
    tape := { delta := buying, lastPrice := price }
    features := {}
    regime := { volatility := 0.7, spread := 2, trendStrength := 0.5 }
    context := { regime := .normal, liquidityScore := 0.8, stabilityScore := 0.75 }
    flow := { signal := .exhaustion, continuationStrength := 0.2 }
    timing := { signal := .optimal, tradeBurst := 0.2, timingScore := 0.74 } }

/-- A long position closed after 25 ms at a profit. -/
def quickWin : ReversalSample :=
  { timestamp := 1000, direction := .long, pnl := 2, durationMs := 25 }

def leaveAt (price : F64) : List Call :=
  [.observeFrame (tiringFrame price 10), .observeLearning quickWin (some (tiringFrame price 10))]

theorem reversal_one_shot_tiring :
    ((emit step (new 10000) (leaveAt 100)).2.observeFrame
      (tiringFrame 99.95 1)).2.context.state = .idle :=
  (reversal_one_shot 10000 (leaveAt 100)).2.2 (tiringFrame 99.95 1) (by decide +kernel)

-- a price that is not a number has not moved, however far it may be
example : ((emit step (new 10000) (leaveAt 100)).2.observeFrame
    (tiringFrame .nan 1)).1.confirmed = true := by
  decide +kernel

/-- The price an event is about. -/
def Event.price : Event → F64
  | .activated _ context => context.lastExitPrice
  | .confirmed frame _ => marketPrice frame

def tinyTurn : List Call := leaveAt 1e-17 ++ [.observeFrame (tiringFrame 1.05e-17 1)]

/-- Below `f64::EPSILON` the permitted move is not relative to the activation price: a
move of five percent is confirmed. -/
theorem reversal_move_exceeds : ¬ ∀ timeout calls before frame snapshot after,
    log timeout calls = before ++ .confirmed frame snapshot :: after →
    ∃ sample context, before.getLast? = some (.activated sample context) ∧
      (marketPrice frame - context.lastExitPrice).abs ≤
        defaultMaxMovePct * context.lastExitPrice := by
  intro h
  have hprices : (log 10000 tinyTurn).map (fun event => (event.isConfirmed, event.price)) =
      [(false, 1e-17), (true, 1.05e-17)] := by decide +kernel
  obtain ⟨first, rest, hlog, hfirst, hrest⟩ := List.map_eq_cons_iff.mp hprices
  obtain ⟨second, rest, rfl, hsecond, hrest⟩ := List.map_eq_cons_iff.mp hrest
  cases second with
  | activated sample context => cases congrArg Prod.fst hsecond
  | confirmed frame snapshot =>
    obtain ⟨sample, context, hlast, hnear⟩ := h 10000 tinyTurn [first] frame snapshot rest hlog
    obtain rfl := Option.some.inj hlast
    have hleft : context.lastExitPrice = 1e-17 := congrArg Prod.snd hfirst
    have hturned : marketPrice frame = 1.05e-17 := congrArg Prod.snd hsecond
    rw [hleft, hturned] at hnear
    exact absurd hnear (by decide +kernel)

end ReversalEngine

end RealTimeTrading.Rtts.Floating
