/-
RealTimeTrading.Rtts.Floating.TriggerWindow — the trigger engine over `f64`, and
what holds of it after any frames.

The drop is a share of the local high that never exceeds one; it is one
where the difference is rounded to the high itself. A usable frame raises
the high, computes the drop from it, arms, and only then settles; a frame
without a price changes nothing. A confirmation needs an armed engine, and
`armedSince_of_inObservation` finds the frame that armed it.
-/
import RealTimeTrading.Concurrency.Registers
import RealTimeTrading.Rtts.Floating.Frame
import Mathlib.Algebra.Order.Field.Basic
import Mathlib.Tactic.Linarith

namespace RealTimeTrading.Rtts.Floating

open Concurrency Data

structure PercentTriggerState where
  localHigh : F64 := 0
  dropPct : F64 := 0
  inObservation : Bool := false

structure TriggerEngine where
  state : PercentTriggerState := {}
  previousSellPressure : F64 := 0
  decayHighAlpha : F64 := 0
  dropThreshold : F64 := 0
  resetThreshold : F64 := 0

namespace TriggerEngine

def new (dropThreshold resetThreshold : F64) : TriggerEngine :=
  { decayHighAlpha := 0.003
    dropThreshold := dropThreshold.clamp 0.001 0.10
    resetThreshold := resetThreshold.clamp 0.002 0.20 }

/-! ## Reading a frame -/

/-- The price `observe` goes on with, if there is one. -/
def usablePrice (frame : MicrostructureFrame) : Option F64 :=
  let price := marketPrice frame
  if price.isFinite = false ∨ price ≤ 0 then none else some price

def confirmReversal (frame : MicrostructureFrame) (previousSellPressure : F64) : Bool :=
  let flowOk := decide (frame.flow.signal = .exhaustion ∨ frame.flow.signal = .weakContinuation)
  let sellingWeakening := decide (sellPressure frame < previousSellPressure * 0.82) ||
    decide (0.42 < frame.tape.exhaustion)
  let orderbookOk := decide (0.28 < frame.book.absorption) ||
    (decide (frame.book.liquidityPull < 0.28) && decide (-0.12 < frame.book.topPressure) &&
      decide (0.45 < frame.context.stabilityScore))
  let timingOk := decide (frame.timing.signal = .optimal)
  flowOk && sellingWeakening && orderbookOk && timingOk

def deriveExpectedEdge (frame : MicrostructureFrame) : F64 :=
  max (frame.flow.exhaustion * 1.6 + frame.book.absorption * 1.2 + frame.timing.timingScore +
    frame.context.stabilityScore * 0.6 - frame.features.liquidityPull * 0.9 -
    frame.regime.spread * 0.04) 0

/-! ## The engine -/

variable (engine : TriggerEngine)

/-- `local_high` once this price is in. -/
def raisedHigh (price : F64) : F64 :=
  if engine.state.localHigh ≤ 0 then price
  else
    max (max engine.state.localHigh price)
      (engine.state.localHigh * (1 - engine.decayHighAlpha))

/-- `drop_pct` as it is first computed for this price. -/
def computedDrop (price : F64) : F64 :=
  ((engine.raisedHigh price - price) / max (engine.raisedHigh price) F64.epsilon).clamp 0 1

/-- `in_observation` once this price is in. -/
def armed (price : F64) : Bool :=
  engine.state.inObservation || decide (engine.dropThreshold ≤ engine.computedDrop price)

/-- The state a usable frame leaves: observation ends with a confirmation or a recovery,
and a drop that is too deep starts it over from this price. -/
def settled (price : F64) (confirmed : Bool) : PercentTriggerState :=
  let state : PercentTriggerState :=
    { localHigh := engine.raisedHigh price
      dropPct := engine.computedDrop price
      inObservation := engine.armed price }
  if confirmed = true ∨ state.dropPct < engine.dropThreshold * 0.35 then
    { state with inObservation := false }
  else if state.inObservation = true ∧ engine.resetThreshold ≤ state.dropPct then
    { localHigh := price, dropPct := 0, inObservation := false }
  else state

/-- `should_exit` is asked with the default position, so it hands on the flag of the frame. -/
def observe (frame : MicrostructureFrame) : TriggerSnapshot × TriggerEngine :=
  match usablePrice frame with
  | none => ({}, engine)
  | some price =>
    let confirmed := engine.armed price && confirmReversal frame engine.previousSellPressure
    let state := engine.settled price confirmed
    ({ localHigh := state.localHigh
       dropPct := state.dropPct
       inObservation := state.inObservation
       confirmed := confirmed
       expectedEdge := if confirmed then deriveExpectedEdge frame else 0
       shouldExit := frame.trigger.shouldExit },
     { engine with state := state, previousSellPressure := sellPressure frame })

/-! ## Runs -/

def step (engine : TriggerEngine) (frame : MicrostructureFrame) :
    List TriggerSnapshot × TriggerEngine :=
  ([(engine.observe frame).1], (engine.observe frame).2)

/-- The engine after these frames. -/
def after (dropThreshold resetThreshold : F64) (frames : List MicrostructureFrame) :
    TriggerEngine :=
  (emit step (new dropThreshold resetThreshold) frames).2

theorem after_concat (dropThreshold resetThreshold : F64) (frames : List MicrostructureFrame)
    (frame : MicrostructureFrame) :
    after dropThreshold resetThreshold (frames ++ [frame]) =
      ((after dropThreshold resetThreshold frames).observe frame).2 := by
  rw [after, emit_append]
  rfl

/-! ## One frame -/

variable {engine : TriggerEngine} {frame : MicrostructureFrame} {price : F64}

theorem usablePrice_finite (h : usablePrice frame = some price) :
    ∃ x : Finite64, price = .finite x ∧ 0 < x.1 := by
  unfold usablePrice at h
  dsimp only at h
  split_ifs at h with hunusable
  obtain rfl := Option.some.inj h
  rw [not_or, Bool.not_eq_false] at hunusable
  obtain ⟨hfinite, hpos⟩ := hunusable
  cases hprice : marketPrice frame with
  | nan | negInf | posInf =>
    rw [hprice] at hfinite
    cases hfinite
  | finite x =>
    rw [hprice, F64.zero_eq, F64.finite_le_finite] at hpos
    exact ⟨x, rfl, not_le.mp hpos⟩

theorem observe_unusable (h : usablePrice frame = none) : engine.observe frame = ({}, engine) := by
  rw [observe, h]

theorem observe_usable (h : usablePrice frame = some price) :
    (engine.observe frame).2 = { engine with
      state := engine.settled price
        (engine.armed price && confirmReversal frame engine.previousSellPressure)
      previousSellPressure := sellPressure frame } := by
  rw [observe, h]

theorem confirmed_usable (h : usablePrice frame = some price) :
    (engine.observe frame).1.confirmed =
      (engine.armed price && confirmReversal frame engine.previousSellPressure) := by
  rw [observe, h]

/-- The high is a number, and it fades by a fixed share. -/
structure Steady (engine : TriggerEngine) : Prop where
  high : ∃ x : Finite64, engine.state.localHigh = .finite x ∧ 0 ≤ x.1
  decay : engine.decayHighAlpha = 0.003

/-- What the high keeps of itself is a share. -/
theorem kept_share : ∃ c : Finite64, (1 - 0.003 : F64) = .finite c ∧ 0 ≤ c.1 ∧ c.1 ≤ 1 := by
  have hlow : F64.finite F64.zero64 ≤ 1 - 0.003 := by decide +kernel
  have hhigh : (1 - 0.003 : F64) ≤ .finite F64.one64 := by decide +kernel
  exact F64.finite_of_between hlow hhigh

theorem raisedHigh_finite (h : Steady engine) {p : Finite64} :
    ∃ x : Finite64, engine.raisedHigh (.finite p) = .finite x ∧ p.1 ≤ x.1 := by
  obtain ⟨high, hhigh, hnonneg⟩ := h.high
  obtain ⟨c, hc, hc0, hc1⟩ := kept_share
  unfold raisedHigh
  rw [hhigh, h.decay, hc]
  split_ifs with hlow
  · exact ⟨p, rfl, le_rfl⟩
  · obtain ⟨top, htop, -, hprice⟩ := F64.max_finite high p
    obtain ⟨faded, hfaded, -⟩ := F64.round_between F64.zero64 high (mul_nonneg hnonneg hc0)
      (mul_le_of_le_one_right hnonneg hc1)
    have hmul : F64.finite high * F64.finite c = .finite faded := hfaded
    obtain ⟨x, hx, hle, -⟩ := F64.max_finite top faded
    exact ⟨x, by rw [htop, hmul, hx], hprice.trans hle⟩

/-- The drop is a share of the high. -/
theorem computedDrop_mem (h : Steady engine) {p : Finite64} (hp : 0 < p.1) :
    0 ≤ engine.computedDrop (.finite p) ∧ engine.computedDrop (.finite p) ≤ 1 := by
  obtain ⟨high, hhigh, hle⟩ := raisedHigh_finite h (p := p)
  obtain ⟨drop, hdrop, hdrop0, hdropHigh⟩ := F64.round_between F64.zero64 high
    (sub_nonneg.mpr hle) (sub_le_self high.1 hp.le)
  obtain ⟨scale, hscale, hscaleHigh, hscalePos⟩ := F64.max_epsilon high
  have hratio : drop.1 / scale.1 ≤ 1 :=
    (div_le_one₀ hscalePos).mpr (hdropHigh.trans hscaleHigh)
  obtain ⟨share, hshare, -⟩ := F64.round_between F64.zero64 F64.one64
    (div_nonneg hdrop0 hscalePos.le) hratio
  unfold computedDrop
  rw [hhigh, hscale, F64.sub_finite, hdrop, F64.div_finite drop hscalePos.ne', hshare]
  exact F64.clamp_mem (by simp) F64.zero_le_one

/-- The bounds of a state: a drop is a share, and under observation it is in the window. -/
structure Bounds (dropThreshold resetThreshold : F64) (state : PercentTriggerState) : Prop where
  drop_nonneg : 0 ≤ state.dropPct
  drop_le_one : state.dropPct ≤ 1
  window : state.inObservation = true →
    dropThreshold * 0.35 ≤ state.dropPct ∧
      (resetThreshold ≠ .nan → state.dropPct < resetThreshold)

/-- A threshold that is a number leaves one, times its share. -/
theorem scaled_ne_nan {v : F64} (h : v.clamp 0.001 0.10 ≠ .nan) :
    v.clamp 0.001 0.10 * 0.35 ≠ .nan := by
  have hv : v ≠ .nan := by
    rintro rfl
    exact h (F64.clamp_nan _ _)
  obtain ⟨lo, hlo⟩ := F64.exists_finite (v := 0.001) (by decide +kernel)
  obtain ⟨hi, hhi⟩ := F64.exists_finite (v := 0.10) (by decide +kernel)
  obtain ⟨share, hshare⟩ := F64.exists_finite (v := 0.35) (by decide +kernel)
  have hbounds : (0.001 : F64) ≤ 0.10 := by decide +kernel
  obtain ⟨hbelow, habove⟩ := F64.clamp_mem hv hbounds
  rw [hlo, hhi] at hbelow habove ⊢
  obtain ⟨x, hx, -⟩ := F64.finite_of_between hbelow habove
  rw [hx, hshare]
  exact F64.round_ne_nan _

/-- What the thresholds are clamped to, and what is set, stay so. -/
structure Sound (dropThreshold resetThreshold : F64) (engine : TriggerEngine) : Prop where
  steady : Steady engine
  drop : engine.dropThreshold = dropThreshold.clamp 0.001 0.10
  reset : engine.resetThreshold = resetThreshold.clamp 0.002 0.20
  number : engine.state.inObservation = true → engine.dropThreshold ≠ .nan
  bounds : Bounds engine.dropThreshold engine.resetThreshold engine.state

/-- Only an armed engine is under observation after a frame. -/
theorem armed_of_settled {confirmed : Bool}
    (h : (engine.settled price confirmed).inObservation = true) : engine.armed price = true := by
  unfold settled at h
  dsimp only at h
  split_ifs at h with hended hdeep
  exact h

section Settle

variable {dropThreshold resetThreshold : F64} (h : Sound dropThreshold resetThreshold engine)
  {p : Finite64} (confirmed : Bool)

include h

theorem settled_high :
    ∃ x : Finite64, (engine.settled (.finite p) confirmed).localHigh = .finite x ∧ p.1 ≤ x.1 := by
  obtain ⟨high, hhigh, hle⟩ := raisedHigh_finite h.steady (p := p)
  unfold settled
  dsimp only
  split_ifs with hended hdeep
  · exact ⟨high, hhigh, hle⟩
  · exact ⟨p, rfl, le_rfl⟩
  · exact ⟨high, hhigh, hle⟩

theorem number_of_armed (harmed : engine.armed price = true) : engine.dropThreshold ≠ .nan := by
  rw [armed, Bool.or_eq_true, decide_eq_true_eq] at harmed
  rcases harmed with hon | hreached
  · exact h.number hon
  · exact F64.ne_nan_of_le_left hreached

theorem settled_bounds (hp : 0 < p.1) :
    Bounds engine.dropThreshold engine.resetThreshold
      (engine.settled (.finite p) confirmed) := by
  obtain ⟨hnonneg, hle⟩ := computedDrop_mem h.steady hp
  have hnumber := F64.ne_nan_of_le_right hnonneg
  unfold settled
  dsimp only
  split_ifs with hended hdeep
  · exact ⟨hnonneg, hle, by simp⟩
  · exact ⟨F64.zero_le_zero, F64.zero_le_one, by simp⟩
  · refine ⟨hnonneg, hle, fun harmed => ⟨?_, fun hreset => ?_⟩⟩
    · have hscaled : engine.dropThreshold * 0.35 ≠ .nan := by
        have hdrop := number_of_armed h harmed
        rw [h.drop] at hdrop ⊢
        exact scaled_ne_nan hdrop
      exact F64.le_of_not_lt hnumber hscaled fun hlow => hended (.inr hlow)
    · exact F64.lt_of_not_le hreset hnumber fun hreached => hdeep ⟨harmed, hreached⟩

end Settle

/-! ## All frames so far -/

/-- The frame's drop reaches the threshold that arms the engine. -/
def Reaches (engine : TriggerEngine) (frame : MicrostructureFrame) : Prop :=
  ∃ price, usablePrice frame = some price ∧ engine.dropThreshold ≤ engine.computedDrop price

theorem Sound.observe {dropThreshold resetThreshold : F64}
    (h : Sound dropThreshold resetThreshold engine) (frame : MicrostructureFrame) :
    Sound dropThreshold resetThreshold (engine.observe frame).2 := by
  cases hprice : usablePrice frame with
  | none =>
    rw [observe_unusable hprice]
    exact h
  | some price =>
    obtain ⟨p, rfl, hp⟩ := usablePrice_finite hprice
    obtain ⟨high, hhigh, hle⟩ := settled_high h
      (engine.armed (.finite p) && confirmReversal frame engine.previousSellPressure)
    have hnumber : ∀ confirmed, (engine.settled (.finite p) confirmed).inObservation = true →
        engine.dropThreshold ≠ .nan := fun _ hon => number_of_armed h (armed_of_settled hon)
    rw [observe_usable hprice]
    exact
      { steady := ⟨⟨high, hhigh, hp.le.trans hle⟩, h.steady.decay⟩
        drop := h.drop
        reset := h.reset
        number := hnumber _
        bounds := settled_bounds h _ hp }

theorem sound_after (dropThreshold resetThreshold : F64) (frames : List MicrostructureFrame) :
    Sound dropThreshold resetThreshold (after dropThreshold resetThreshold frames) := by
  have hnew : Sound dropThreshold resetThreshold (new dropThreshold resetThreshold) :=
    { steady := ⟨⟨_, F64.zero_eq, le_rfl⟩, rfl⟩
      drop := rfl
      reset := rfl
      number := by rintro ⟨⟩
      bounds := ⟨F64.zero_le_zero, F64.zero_le_one, by rintro ⟨⟩⟩ }
  exact emit_invariant (fun engine frame h => h.observe frame) hnew frames

theorem latest_le_localHigh (dropThreshold resetThreshold : F64)
    (frames : List MicrostructureFrame) (hprice : latest usablePrice frames = some price) :
    price ≤ (after dropThreshold resetThreshold frames).state.localHigh := by
  induction frames using List.reverseRecOn with
  | nil => cases hprice
  | append_singleton frames frame ih =>
    rw [latest_append, latest_singleton] at hprice
    rw [after_concat]
    cases husable : usablePrice frame with
    | none =>
      rw [husable, Option.none_or] at hprice
      rw [observe_unusable husable]
      exact ih hprice
    | some last =>
      rw [husable, Option.some_or] at hprice
      obtain rfl := Option.some.inj hprice
      obtain ⟨p, rfl, hp⟩ := usablePrice_finite husable
      obtain ⟨high, hhigh, hle⟩ :=
        settled_high (sound_after dropThreshold resetThreshold frames) _
      rw [observe_usable husable]
      exact hhigh ▸ F64.finite_le_finite.mpr hle

/-- Some frame of the list armed the engine, and it has been under observation after
every frame since. -/
def ArmedSince (dropThreshold resetThreshold : F64) (frames : List MicrostructureFrame) : Prop :=
  ∃ before j rest, frames = before ++ j :: rest ∧
    Reaches (after dropThreshold resetThreshold before) j ∧
    ∀ p, before ++ [j] <+: p → p <+: frames →
      (after dropThreshold resetThreshold p).state.inObservation = true

theorem armedSince_of_inObservation (dropThreshold resetThreshold : F64)
    (frames : List MicrostructureFrame)
    (h : (after dropThreshold resetThreshold frames).state.inObservation = true) :
    ArmedSince dropThreshold resetThreshold frames := by
  induction frames using List.reverseRecOn with
  | nil => cases h
  | append_singleton frames frame ih =>
    have hlast := h
    rw [after_concat] at h
    -- the frame kept an observation that was on, or armed the engine itself
    by_cases hon : (after dropThreshold resetThreshold frames).state.inObservation = true
    · obtain ⟨before, j, rest, hsplit, hreaches, hsince⟩ := ih hon
      refine ⟨before, j, rest ++ [frame], by rw [hsplit]; simp, hreaches, fun p hj hp => ?_⟩
      rcases List.prefix_concat_iff.mp hp with rfl | hp
      · exact hlast
      · exact hsince p hj hp
    · cases hprice : usablePrice frame with
      | none =>
        rw [observe_unusable hprice] at h
        exact absurd h hon
      | some price =>
        rw [observe_usable hprice] at h
        have harmed := armed_of_settled h
        rw [armed, Bool.or_eq_true, decide_eq_true_eq] at harmed
        refine ⟨frames, frame, [], rfl, ⟨price, hprice, harmed.resolve_left hon⟩, fun p hj hp => ?_⟩
        rw [(hp.sublist.antisymm hj.sublist)]
        exact hlast

/-- For every pair of thresholds and all frames: the high is at least the last usable
price, the state keeps its bounds, and a confirmed frame follows one that reached the drop
threshold, with observation on after every frame between. -/
theorem trigger_window_sound (dropThreshold resetThreshold : F64)
    (frames : List MicrostructureFrame) :
    (∀ price, latest usablePrice frames = some price →
      price ≤ (after dropThreshold resetThreshold frames).state.localHigh) ∧
    Bounds (after dropThreshold resetThreshold frames).dropThreshold
      (after dropThreshold resetThreshold frames).resetThreshold
      (after dropThreshold resetThreshold frames).state ∧
    ∀ frame, ((after dropThreshold resetThreshold frames).observe frame).1.confirmed = true →
      ∃ before j rest, frames ++ [frame] = before ++ j :: rest ∧
        Reaches (after dropThreshold resetThreshold before) j ∧
        ∀ p, before ++ [j] <+: p → p <+: frames →
          (after dropThreshold resetThreshold p).state.inObservation = true := by
  refine ⟨fun price => latest_le_localHigh dropThreshold resetThreshold frames,
    (sound_after dropThreshold resetThreshold frames).bounds, fun frame hconfirmed => ?_⟩
  cases hprice : usablePrice frame with
  | none =>
    rw [observe_unusable hprice] at hconfirmed
    cases hconfirmed
  | some price =>
    rw [confirmed_usable hprice, Bool.and_eq_true] at hconfirmed
    have harmed := hconfirmed.1
    rw [armed, Bool.or_eq_true, decide_eq_true_eq] at harmed
    rcases harmed with hon | hreached
    · obtain ⟨before, j, rest, hsplit, hreaches, hsince⟩ :=
        armedSince_of_inObservation dropThreshold resetThreshold frames hon
      exact ⟨before, j, rest ++ [frame], by rw [hsplit]; simp, hreaches, hsince⟩
    · refine ⟨frames, frame, [], rfl, ⟨price, hprice, hreached⟩, fun p hj hp => ?_⟩
      have hlength := (hj.trans hp).length_le
      rw [List.length_append, List.length_singleton] at hlength
      omega

/-- A market where the selling dries up. -/
def dryingFrame (price exhaustion : F64) : MicrostructureFrame :=
  { timestamp := 1
    trade := some { timestamp := 1, price := price, volume := 1, side := .sell }
    book := { absorption := 0.40 }
    tape := { exhaustion := exhaustion, lastPrice := price }
    features := {}
    regime := { volatility := 0.5, spread := 2, trendStrength := 0.4 }
    context := { regime := .normal, liquidityScore := 0.8, stabilityScore := 0.75 }
    flow := { signal := .exhaustion, continuationStrength := 0.2 }
    timing := { signal := .optimal, tradeBurst := 0.2, timingScore := 0.7 } }

/-- A drop of two percent, confirmed one frame later. -/
theorem trigger_window_sound_drying :
    ∃ before j rest, [dryingFrame 100 0, dryingFrame 98 0, dryingFrame 98.1 0.5] =
        before ++ j :: rest ∧
      Reaches (after 0.02 0.05 before) j ∧
      ∀ p, before ++ [j] <+: p → p <+: [dryingFrame 100 0, dryingFrame 98 0] →
        (after 0.02 0.05 p).state.inObservation = true :=
  (trigger_window_sound 0.02 0.05 [dryingFrame 100 0, dryingFrame 98 0]).2.2
    (dryingFrame 98.1 0.5) (by decide +kernel)

/-- A fall to next to nothing is confirmed at a drop of exactly one: the difference to the
high is rounded to the high. -/
theorem drop_reaches_one : ¬ ∀ (dropThreshold resetThreshold : F64)
    (frames : List MicrostructureFrame),
    (after dropThreshold resetThreshold frames).state.dropPct < 1 := by
  intro h
  exact absurd (h 0.02 0.05 [dryingFrame 1e17 0, dryingFrame 1 0.5]) (by decide +kernel)

end TriggerEngine

end RealTimeTrading.Rtts.Floating
