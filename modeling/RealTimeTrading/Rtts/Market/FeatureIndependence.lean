/-
RealTimeTrading.Rtts.Market.FeatureIndependence — which features depend on
their own raw series alone.

The normaliser has an `EmaStats` for every feature but one: the velocity of
the micro price goes through that of the velocity. Seven of the nine
features are what a separate `EmaStats` returns in every run
(`others_alone`), and the two velocities are as long as the mid price does
not move (`features_alone`). From its first move on the shared mean is not
that of the velocity (`means_agree_iff`). The frames carry the features of
such a run (`features_run`).
-/
import Mathlib.Tactic.LinearCombination
import RealTimeTrading.Rtts.Market.Microstructure

namespace RealTimeTrading.Rtts

open Concurrency

namespace EmaStats

/-- One value, and how far the mean moves to it. -/
def take (sqrt : ℚ → ℚ) (stats : EmaStats) (sample : ℚ × ℚ) : List ℚ × EmaStats :=
  ([(stats.normalize sqrt sample.1 sample.2).1], (stats.normalize sqrt sample.1 sample.2).2)

/-- What an `EmaStats` of their own returns for these values. -/
def alone (sqrt : ℚ → ℚ) (samples : List (ℚ × ℚ)) : List ℚ := (emit (take sqrt) {} samples).1

end EmaStats

namespace FeatureNormalizer

structure Input where
  book : OrderBookState
  tape : TapeState
  timestamp : Nat

/-! ## Raw series -/

/-- The change of each value since the one before it. -/
def changes (previous : ℚ) (values : List ℚ) : List ℚ :=
  List.zipWith relativeChange (previous :: values) values

def mids (inputs : List Input) : List ℚ := inputs.map fun input => mid input.book input.tape

def rawVelocities (inputs : List Input) : List ℚ := changes 0 (mids inputs)

def spreadChanges (inputs : List Input) : List ℚ := changes 0 (inputs.map (·.book.spread))

def depthChanges (inputs : List Input) : List ℚ :=
  changes 0 (inputs.map fun input => depth input.book)

/-- A raw series with the alphas of its steps. -/
def paced (inputs : List Input) (values : List ℚ) : List (ℚ × ℚ) :=
  values.zip (inputs.map fun input => alphaAt input.timestamp)

/-! ## Runs -/

def step (sqrt : ℚ → ℚ) (normalizer : FeatureNormalizer) (input : Input) :
    List FrameFeatures × FeatureNormalizer :=
  ([(normalizer.features sqrt input.book input.tape input.timestamp).1],
    (normalizer.features sqrt input.book input.tape input.timestamp).2)

/-- The features of each input in turn. -/
def run (sqrt : ℚ → ℚ) (inputs : List Input) : List FrameFeatures :=
  (emit (step sqrt) {} inputs).1

/-- Each feature, the two velocities apart, is what an `EmaStats` of its own returns. -/
structure OthersAlone (sqrt : ℚ → ℚ) (inputs : List Input) : Prop where
  volZ : (run sqrt inputs).map (·.volZ) =
    EmaStats.alone sqrt (paced inputs (inputs.map (·.tape.volumeBurst)))
  volatility : (run sqrt inputs).map (·.volatility) =
    (EmaStats.alone sqrt (paced inputs ((rawVelocities inputs).map (|·| * 10000)))).map (|·|)
  spread : (run sqrt inputs).map (·.spread) =
    (EmaStats.alone sqrt (paced inputs (inputs.map (·.book.spread * 10000)))).map (max · 0)
  spreadDynamics : (run sqrt inputs).map (·.spreadDynamics) =
    EmaStats.alone sqrt (paced inputs (spreadChanges inputs))
  tradeClustering : (run sqrt inputs).map (·.tradeClustering) =
    EmaStats.alone sqrt (paced inputs (inputs.map (·.tape.tradeFrequency)))
  liquidityShift : (run sqrt inputs).map (·.liquidityShift) =
    EmaStats.alone sqrt (paced inputs (depthChanges inputs))
  orderFlowDelta : (run sqrt inputs).map (·.orderFlowDelta) =
    EmaStats.alone sqrt (paced inputs (inputs.map (·.tape.delta)))

/-- Each feature is. -/
structure Alone (sqrt : ℚ → ℚ) (inputs : List Input) : Prop extends OthersAlone sqrt inputs where
  velocity : (run sqrt inputs).map (·.velocity) =
    EmaStats.alone sqrt (paced inputs ((rawVelocities inputs).map (· * 10000)))
  microPriceVelocity : (run sqrt inputs).map (·.microPriceVelocity) =
    EmaStats.alone sqrt (paced inputs ((rawVelocities inputs).map (· * 100000)))

/-! ## Seven features -/

section Others

variable (sqrt : ℚ → ℚ) (part : FeatureNormalizer → EmaStats) (feature : FrameFeatures → ℚ)
  (f : ℚ → ℚ)

/-- A part that reads the input only. -/
theorem run_of_value (value : Input → ℚ)
    (hstep : ∀ normalizer input, (step sqrt normalizer input).1.map feature =
        (EmaStats.take sqrt (part normalizer) (value input, alphaAt input.timestamp)).1.map f ∧
      part (step sqrt normalizer input).2 =
        (EmaStats.take sqrt (part normalizer) (value input, alphaAt input.timestamp)).2)
    (hnew : part {} = {}) (inputs : List Input) :
    (run sqrt inputs).map feature =
      (EmaStats.alone sqrt (paced inputs (inputs.map value))).map f := by
  have hreadings : ∀ normalizer, readings (step sqrt)
      (fun _ input => (value input, alphaAt input.timestamp)) normalizer inputs =
        paced inputs (inputs.map value) := by
    unfold paced
    rw [List.zip_map']
    induction inputs with
    | nil => exact fun _ => rfl
    | cons input inputs ih => exact fun _ => congrArg _ (ih _)
  have hpart := emit_part (fun normalizer input => (hstep normalizer input).1.symm)
    (fun normalizer input => (hstep normalizer input).2.symm) {} inputs
  rw [hreadings, hnew] at hpart
  exact hpart.symm

/-- A part that reads the change of a value since the last input. -/
theorem run_of_change (value : Input → ℚ) (previous : FeatureNormalizer → ℚ) (scale : ℚ → ℚ)
    (hstep : ∀ normalizer input, (step sqrt normalizer input).1.map feature =
        (EmaStats.take sqrt (part normalizer) (scale (relativeChange (previous normalizer)
          (value input)), alphaAt input.timestamp)).1.map f ∧
      part (step sqrt normalizer input).2 =
        (EmaStats.take sqrt (part normalizer) (scale (relativeChange (previous normalizer)
          (value input)), alphaAt input.timestamp)).2 ∧
      previous (step sqrt normalizer input).2 = value input)
    (hnew : part {} = {}) (hnone : previous {} = 0) (inputs : List Input) :
    (run sqrt inputs).map feature =
      (EmaStats.alone sqrt (paced inputs ((changes 0 (inputs.map value)).map scale))).map f := by
  have hreadings : ∀ normalizer, readings (step sqrt) (fun normalizer input =>
      (scale (relativeChange (previous normalizer) (value input)), alphaAt input.timestamp))
        normalizer inputs =
      paced inputs ((changes (previous normalizer) (inputs.map value)).map scale) := by
    induction inputs with
    | nil => exact fun _ => rfl
    | cons input inputs ih =>
      intro normalizer
      rw [readings, ih, (hstep normalizer input).2.2]
      rfl
  have hpart := emit_part (fun normalizer input => (hstep normalizer input).1.symm)
    (fun normalizer input => (hstep normalizer input).2.1.symm) {} inputs
  rw [hreadings, hnew, hnone] at hpart
  exact hpart.symm

end Others

theorem others_alone (sqrt : ℚ → ℚ) (inputs : List Input) : OthersAlone sqrt inputs where
  volZ :=
    (run_of_value sqrt volume _ id (·.tape.volumeBurst) (fun _ _ => ⟨rfl, rfl⟩) rfl inputs).trans
      (List.map_id _)
  volatility :=
    run_of_change sqrt FeatureNormalizer.volatility _ _ _ previousMid (|·| * 10000)
      (fun _ _ => ⟨rfl, rfl, rfl⟩) rfl rfl inputs
  spread :=
    run_of_value sqrt FeatureNormalizer.spread _ _ (·.book.spread * 10000)
      (fun _ _ => ⟨rfl, rfl⟩) rfl inputs
  spreadDynamics := by
    have h := run_of_change sqrt FeatureNormalizer.spreadDynamics (·.spreadDynamics) id
      (·.book.spread) previousSpread id (fun _ _ => ⟨rfl, rfl, rfl⟩) rfl rfl inputs
    rwa [List.map_id, List.map_id] at h
  tradeClustering :=
    (run_of_value sqrt FeatureNormalizer.tradeClustering _ id (·.tape.tradeFrequency)
      (fun _ _ => ⟨rfl, rfl⟩) rfl inputs).trans (List.map_id _)
  liquidityShift := by
    have h := run_of_change sqrt FeatureNormalizer.liquidityShift (·.liquidityShift) id
      (fun input => depth input.book) previousDepth id (fun _ _ => ⟨rfl, rfl, rfl⟩) rfl rfl inputs
    rwa [List.map_id, List.map_id] at h
  orderFlowDelta :=
    (run_of_value sqrt delta _ id (·.tape.delta) (fun _ _ => ⟨rfl, rfl⟩) rfl inputs).trans
      (List.map_id _)

/-! ## The two velocities -/

end FeatureNormalizer

namespace EmaStats

variable (sqrt : ℚ → ℚ) {stats : EmaStats}

theorem mean_normalize (value alpha : ℚ) (stats : EmaStats) :
    (stats.normalize sqrt value alpha).2.mean =
      if stats.initialized then stats.mean + alpha * (value - stats.mean) else value := by
  unfold normalize
  split_ifs <;> rfl

theorem initialized_normalize (value alpha : ℚ) (stats : EmaStats) :
    (stats.normalize sqrt value alpha).2.initialized = true := by
  unfold normalize
  split_ifs with h
  · exact h
  · rfl

theorem mean_normalize_zero (h : stats.mean = 0) (alpha : ℚ) :
    (stats.normalize sqrt 0 alpha).2.mean = 0 := by
  rw [mean_normalize, h]
  split_ifs <;> simp

/-- Zero is zero deviations from a mean of zero. -/
theorem normalize_zero (h : stats.mean = 0) (alpha : ℚ) :
    (stats.normalize sqrt 0 alpha).1 = 0 := by
  unfold normalize
  split_ifs
  · simp only [h, sub_zero, mul_zero, add_zero, zero_div]
    exact clamp_of_mem (by norm_num) (by norm_num)
  · rfl

theorem emit_take_zero (h : stats.mean = 0) {samples : List (ℚ × ℚ)}
    (hzero : ∀ sample ∈ samples, sample.1 = 0) :
    (emit (take sqrt) stats samples).1 = samples.map fun _ => 0 := by
  induction samples generalizing stats with
  | nil => rfl
  | cons sample samples ih =>
    obtain ⟨hhere, hlater⟩ := List.forall_mem_cons.mp hzero
    rw [emit_cons, take, hhere, normalize_zero sqrt h, ih (mean_normalize_zero sqrt h _) hlater]
    rfl

end EmaStats

namespace FeatureNormalizer

section Velocities

variable (sqrt : ℚ → ℚ) {normalizer : FeatureNormalizer}

/-- The raw velocity at an input. -/
def rawVelocity (normalizer : FeatureNormalizer) (input : Input) : ℚ :=
  relativeChange normalizer.previousMid (mid input.book input.tape)

theorem rawVelocities_cons (normalizer : FeatureNormalizer) (input : Input) (inputs : List Input) :
    changes normalizer.previousMid (mids (input :: inputs)) =
      rawVelocity normalizer input ::
        changes (step sqrt normalizer input).2.previousMid (mids inputs) := rfl

/-- Both velocities go through one `EmaStats`, the micro price's last. -/
theorem velocity_step (normalizer : FeatureNormalizer) (input : Input) :
    (step sqrt normalizer input).2.velocity =
      ((normalizer.velocity.normalize sqrt (rawVelocity normalizer input * 10000)
          (alphaAt input.timestamp)).2.normalize sqrt (rawVelocity normalizer input * 100000)
        (alphaAt input.timestamp)).2 := rfl

/-- While the mid price stands still nothing is fed to it but zero. -/
theorem velocities_zero (hmean : normalizer.velocity.mean = 0) {input : Input}
    (hstill : rawVelocity normalizer input = 0) :
    (step sqrt normalizer input).1.map (·.velocity) = [0] ∧
      (step sqrt normalizer input).1.map (·.microPriceVelocity) = [0] ∧
      (step sqrt normalizer input).2.velocity.mean = 0 := by
  have hvelocity := EmaStats.normalize_zero sqrt hmean (alphaAt input.timestamp)
  have hafter := EmaStats.mean_normalize_zero sqrt hmean (alphaAt input.timestamp)
  refine ⟨?_, ?_, ?_⟩
  · show [(normalizer.velocity.normalize sqrt (rawVelocity normalizer input * 10000) _).1] = _
    rw [hstill, zero_mul, hvelocity]
  · show [((normalizer.velocity.normalize sqrt (rawVelocity normalizer input * 10000) _).2.normalize
      sqrt (rawVelocity normalizer input * 100000) _).1] = _
    rw [hstill, zero_mul, zero_mul, EmaStats.normalize_zero sqrt hafter]
  · rw [velocity_step, hstill, zero_mul, zero_mul]
    exact EmaStats.mean_normalize_zero sqrt hafter _

theorem emit_velocities_zero (hmean : normalizer.velocity.mean = 0) {inputs : List Input}
    (hstill : ∀ r ∈ changes normalizer.previousMid (mids inputs), r = 0) :
    (emit (step sqrt) normalizer inputs).1.map (·.velocity) = inputs.map (fun _ => 0) ∧
      (emit (step sqrt) normalizer inputs).1.map (·.microPriceVelocity) =
        inputs.map fun _ => 0 := by
  induction inputs generalizing normalizer with
  | nil => exact ⟨rfl, rfl⟩
  | cons input inputs ih =>
    rw [rawVelocities_cons sqrt] at hstill
    obtain ⟨hhere, hlater⟩ := List.forall_mem_cons.mp hstill
    obtain ⟨hvelocity, hmicro, hafter⟩ := velocities_zero sqrt hmean hhere
    obtain ⟨hvelocities, hmicros⟩ := ih hafter hlater
    rw [emit_cons, List.map_append, List.map_append, hvelocity, hmicro, hvelocities, hmicros]
    exact ⟨rfl, rfl⟩

theorem alone_zero {inputs : List Input} (hstill : ∀ r ∈ rawVelocities inputs, r = 0)
    (scale : ℚ) :
    EmaStats.alone sqrt (paced inputs ((rawVelocities inputs).map (· * scale))) =
      inputs.map fun _ => 0 := by
  have hzero : ∀ sample ∈ paced inputs ((rawVelocities inputs).map (· * scale)),
      sample.1 = 0 := by
    intro sample hsample
    obtain ⟨r, hr, hvalue⟩ := List.mem_map.mp (List.of_mem_zip hsample).1
    rw [← hvalue, hstill r hr, zero_mul]
  have hlength : (paced inputs ((rawVelocities inputs).map (· * scale))).length =
      inputs.length := by simp [paced, rawVelocities, changes, mids]
  rw [EmaStats.alone, EmaStats.emit_take_zero sqrt rfl hzero, List.map_const', List.map_const',
    hlength]

/-- In a run in which the raw velocity is always zero each feature depends on its own raw
series alone. -/
theorem features_alone {inputs : List Input} (hstill : ∀ r ∈ rawVelocities inputs, r = 0) :
    Alone sqrt inputs := by
  have hmean : ({} : FeatureNormalizer).velocity.mean = 0 := rfl
  obtain ⟨hvelocity, hmicro⟩ := emit_velocities_zero sqrt hmean hstill
  exact
    { others_alone sqrt inputs with
      velocity := hvelocity.trans (alone_zero sqrt hstill 10000).symm
      microPriceVelocity := hmicro.trans (alone_zero sqrt hstill 100000).symm }

end Velocities

/-- The book of this bid and ask, at this time. -/
def quoted (timestamp : Nat) (bid ask : ℚ) : Input where
  book := { bestBid := bid, bestAsk := ask, spread := ask - bid, bidVolume := bid, askVolume := 1 }
  tape := {}
  timestamp := timestamp

/-- The book moves around its mid price. -/
theorem features_alone_around : Alone decimalRoot [quoted 1 99 101, quoted 2 98 102] :=
  features_alone decimalRoot (by decide +kernel)

/-- The mid price rises by a basis point: the velocity is taken over a variance that the one of
the micro price has shrunk. -/
theorem features_crossfed : ¬Alone decimalRoot [quoted 1 99 101, quoted 3 99.01 101.01] := by
  intro h
  exact absurd h.velocity (by decide +kernel)

/-! ## The shared mean -/

section Means

variable (sqrt : ℚ → ℚ)

theorem alphaAt_pos (timestamp : Nat) : 0 < alphaAt timestamp := by
  unfold alphaAt
  split_ifs <;> norm_num

theorem alphaAt_lt_one (timestamp : Nat) : alphaAt timestamp < 1 := by
  unfold alphaAt
  split_ifs <;> norm_num

/-- What an `EmaStats` of the velocity's own is fed. -/
def velocitySample (normalizer : FeatureNormalizer) (input : Input) : ℚ × ℚ :=
  (rawVelocity normalizer input * 10000, alphaAt input.timestamp)

section Step

variable {normalizer : FeatureNormalizer} {stats : EmaStats}

/-- Feeding the micro price's value as well moves the mean, unless both values are zero. -/
theorem mean_step_iff (hmean : normalizer.velocity.mean = 0) (hstats : stats.mean = 0)
    (hsame : normalizer.velocity.initialized = stats.initialized) (input : Input) :
    (step sqrt normalizer input).2.velocity.mean =
        (EmaStats.take sqrt stats (velocitySample normalizer input)).2.mean ↔
      rawVelocity normalizer input = 0 := by
  have hpos := alphaAt_pos input.timestamp
  have hlt := alphaAt_lt_one input.timestamp
  rw [velocity_step, EmaStats.take, velocitySample]
  generalize rawVelocity normalizer input = r
  generalize alphaAt input.timestamp = alpha at hpos hlt ⊢
  simp only [EmaStats.mean_normalize, EmaStats.initialized_normalize, if_true, hsame, hmean, hstats]
  rw [add_eq_left, mul_eq_zero, or_iff_right hpos.ne', sub_eq_zero]
  constructor
  · intro heq
    split_ifs at heq
    · have hfactor : r * (100000 - alpha * 10000) = 0 := by linear_combination heq
      exact (mul_eq_zero.mp hfactor).resolve_right (by linarith)
    · linarith
  · rintro rfl
    split_ifs <;> simp

theorem mean_take_zero (hstats : stats.mean = 0) {input : Input}
    (hstill : rawVelocity normalizer input = 0) :
    (EmaStats.take sqrt stats (velocitySample normalizer input)).2.mean = 0 := by
  rw [EmaStats.take, velocitySample, hstill, zero_mul]
  exact EmaStats.mean_normalize_zero sqrt hstats _

theorem initialized_step (input : Input) :
    (step sqrt normalizer input).2.velocity.initialized =
      (EmaStats.take sqrt stats (velocitySample normalizer input)).2.initialized := by
  rw [velocity_step, EmaStats.take, EmaStats.initialized_normalize, EmaStats.initialized_normalize]

theorem means_agree_from (hmean : normalizer.velocity.mean = 0) (hstats : stats.mean = 0)
    (hsame : normalizer.velocity.initialized = stats.initialized) (inputs : List Input) :
    (∀ before, before <+: inputs → (emit (step sqrt) normalizer before).2.velocity.mean =
        (emit (EmaStats.take sqrt) stats (paced before
          ((changes normalizer.previousMid (mids before)).map (· * 10000)))).2.mean) ↔
      ∀ r ∈ changes normalizer.previousMid (mids inputs), r = 0 := by
  induction inputs generalizing normalizer stats with
  | nil =>
    refine iff_of_true (fun before hbefore => ?_) (by simp [changes, mids])
    rw [List.prefix_nil.mp hbefore]
    exact hmean.trans hstats.symm
  | cons input inputs ih =>
    have hone := mean_step_iff sqrt hmean hstats hsame input
    rw [rawVelocities_cons sqrt, List.forall_mem_cons]
    constructor
    · intro hall
      have hzero := hone.mp (hall [input] (List.prefix_append [input] inputs))
      have hrest := ih (velocities_zero sqrt hmean hzero).2.2 (mean_take_zero sqrt hstats hzero)
        (initialized_step sqrt input)
      refine ⟨hzero, hrest.mp fun before hbefore => ?_⟩
      exact hall (input :: before) (List.cons_prefix_cons.mpr ⟨rfl, hbefore⟩)
    · rintro ⟨hzero, hlater⟩ before hbefore
      have hrest := ih (velocities_zero sqrt hmean hzero).2.2 (mean_take_zero sqrt hstats hzero)
        (initialized_step sqrt input)
      rcases List.prefix_cons_iff.mp hbefore with rfl | ⟨rest, rfl, hprefix⟩
      · exact hmean.trans hstats.symm
      · exact hrest.mpr hlater rest hprefix

end Step

/-- The shared mean is the velocity's own after every input exactly if the raw velocity is
always zero. -/
theorem means_agree_iff (inputs : List Input) :
    (∀ before, before <+: inputs → (emit (step sqrt) {} before).2.velocity.mean =
        (emit (EmaStats.take sqrt) {} (paced before
          ((rawVelocities before).map (· * 10000)))).2.mean) ↔
      ∀ r ∈ rawVelocities inputs, r = 0 :=
  means_agree_from sqrt rfl rfl rfl inputs

end Means

end FeatureNormalizer

/-! ## The stage -/

namespace Microstructure

section Stage

variable (sqrt : ℚ → ℚ) (windowMs maxDataAgeMs : Nat)

/-- What the normaliser is given of an update. -/
def observed (stage : Stage) (received : Received) : FeatureNormalizer.Input where
  book := (observe received.update stage).1.2.2.1.toOrderBookState
  tape := (observe received.update stage).1.2.2.2
  timestamp := (observe received.update stage).1.1

/-- The features of the frames are those of a run of the normaliser. -/
theorem features_run (received : List Received) :
    (run sqrt windowMs maxDataAgeMs received).map (·.features) =
      FeatureNormalizer.run sqrt
        (readings (step sqrt maxDataAgeMs) observed { tape := Tape.new windowMs } received) := by
  have hout : ∀ stage r,
      (FeatureNormalizer.step sqrt stage.normalizer (observed stage r)).1.map id =
        (step sqrt maxDataAgeMs stage r).1.map (·.features) := by
    rintro stage ⟨update, now⟩
    cases update <;> rfl
  have hpart : ∀ stage r,
      (FeatureNormalizer.step sqrt stage.normalizer (observed stage r)).2 =
        (step sqrt maxDataAgeMs stage r).2.normalizer := by
    rintro stage ⟨update, now⟩
    cases update <;> rfl
  have hrun := emit_part hout hpart { tape := Tape.new windowMs } received
  rw [List.map_id] at hrun
  exact hrun.symm

end Stage

end Microstructure

end RealTimeTrading.Rtts
