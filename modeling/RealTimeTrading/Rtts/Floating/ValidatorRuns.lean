/-
RealTimeTrading.Rtts.Floating.ValidatorRuns — what the edge validator holds
after any observations, over `f64`.

The windows are those of the last samples (`Holds`), the streak counts at
least the last ones that were captured with the wrong sign, and the averages
are shares or not numbers. With that the reliability is a number exactly if
what is `Measurable` is.
-/
import RealTimeTrading.Rtts.Floating.SizeFactor
import Mathlib.Data.List.AList

namespace RealTimeTrading.Rtts.Floating.EdgeValidation

open Data F64
open RealTimeTrading.Rtts.EdgeValidation (minValidationSamples pushCapped)

/-! ## Observations -/

/-- What an engine is told, in the order it is told. -/
inductive Observation where
  | sample (sample : LearningSample) (drawdownPct : F64)
  | failure (reason : ExecutionFailureReason)

/-- The samples, without the failures. -/
def samplesOf : List Observation → List LearningSample
  | [] => []
  | .sample sample _ :: rest => sample :: samplesOf rest
  | .failure _ :: rest => samplesOf rest

theorem samplesOf_append (first second : List Observation) :
    samplesOf (first ++ second) = samplesOf first ++ samplesOf second := by
  induction first with
  | nil => rfl
  | cons observation first ih => cases observation <;> simp [samplesOf, ih]

theorem samplesOf_failures (reasons : List ExecutionFailureReason) :
    samplesOf (reasons.map .failure) = [] := by
  induction reasons with
  | nil => rfl
  | cons reason reasons ih => exact ih

section Runs

variable (sqrt : F64 → F64) (negativeNans : List F64 → Nat)

/-- Nothing where the call does not return. -/
def EdgeValidationEngine.tell (engine : EdgeValidationEngine) :
    Observation → Option EdgeValidationEngine
  | .sample sample drawdownPct => (engine.observe sqrt negativeNans sample drawdownPct).map (·.2)
  | .failure reason => some (engine.observeFailure reason)

/-- A new engine after these observations, if every one of them returned. -/
def told (window : UInt64) (observations : List Observation) : Option EdgeValidationEngine :=
  observations.foldlM (·.tell sqrt negativeNans) (.new window)

theorem told_append (window : UInt64) (first second : List Observation) :
    told sqrt negativeNans window (first ++ second) =
      (told sqrt negativeNans window first).bind
        fun engine => second.foldlM (·.tell sqrt negativeNans) engine := List.foldlM_append

end Runs

/-! ## What the windows hold -/

/-- The last `capacity` of the samples. -/
def lastOf (capacity : Nat) (samples : List LearningSample) : List LearningSample :=
  samples.drop (samples.length - capacity)

/-- A queue of at most `capacity` entries keeps the last ones pushed. -/
theorem pushCapped_lastOf {A : Type} (f : LearningSample → A) {capacity : Nat} (h : 0 < capacity)
    (samples : List LearningSample) (sample : LearningSample) :
    pushCapped ((lastOf capacity samples).map f) (f sample) capacity =
      (lastOf capacity (samples ++ [sample])).map f := by
  have hkept : lastOf capacity (samples ++ [sample]) =
      samples.drop (samples.length + 1 - capacity) ++ [sample] := by
    rw [lastOf, List.length_append, List.length_singleton,
      List.drop_append_of_le_length (by omega)]
  unfold pushCapped
  rw [hkept, List.map_append, List.map_singleton, lastOf, List.length_map, List.length_drop]
  split_ifs with hfull
  · have hnext : samples.length + 1 - capacity = samples.length - capacity + 1 := by omega
    rw [← List.map_tail, List.tail_drop, hnext]
  · have hroom : samples.length + 1 - capacity = samples.length - capacity := by omega
    rw [hroom]

theorem length_lastOf_le (capacity : Nat) (samples : List LearningSample) :
    (lastOf capacity samples).length ≤ capacity := by
  rw [lastOf, List.length_drop]
  omega

/-- The size of the windows. -/
def capacityOf (window : UInt64) : Nat := max window.toNat 32

theorem capacityOf_pos (window : UInt64) : 0 < capacityOf window := by
  unfold capacityOf
  omega

theorem capacityOf_le (window : UInt64) : capacityOf window ≤ 2 ^ 64 := by
  have hlt := window.toNat_lt
  unfold capacityOf
  omega

/-- What a window of this size holds after these observations. -/
def held (window : UInt64) (observations : List Observation) : List LearningSample :=
  lastOf (capacityOf window) (samplesOf observations)

/-- The ratio of a sample, as `observe` records it. -/
def captureRatio (sample : LearningSample) : F64 :=
  if noiseFloor < (filterNoise sample.expectedMarkout).abs then
    F64.clamp (filterNoise sample.pnl / filterNoise sample.expectedMarkout) (-5) 5
  else 0

/-- The error of a sample, as `observe` records it. -/
def edgeError (sample : LearningSample) : F64 :=
  filterNoise sample.expectedMarkout - filterNoise sample.realizedMarkout

/-- The return of a sample, as `observe` records it. -/
def adjustedReturn (sample : LearningSample) : F64 :=
  filterNoise sample.pnl - sample.actualSlippageBps.abs * 0.20 - (sample.durationMs : F64) * 0.0005

/-- The flag of a sample, as `observe` records it. -/
def outbidFlag (sample : LearningSample) : F64 :=
  match sample.competitionState with
  | .competitive | .saturated => 1
  | .normal => 0

/-- The engine of a window of this size holds these samples. -/
structure Holds (window : UInt64) (samples : List LearningSample)
    (engine : EdgeValidationEngine) : Prop where
  capacity : engine.capacity = capacityOf window
  minSamples : engine.minSamples = minValidationSamples
  edges : engine.expectedEdges =
    (lastOf (capacityOf window) samples).map fun s => filterNoise s.expectedMarkout
  pnls : engine.realizedPnls =
    (lastOf (capacityOf window) samples).map fun s => filterNoise s.pnl
  returns : engine.adjustedReturns = (lastOf (capacityOf window) samples).map adjustedReturn
  errors : engine.edgeErrors = (lastOf (capacityOf window) samples).map edgeError
  ratios : engine.captureRatios = (lastOf (capacityOf window) samples).map captureRatio
  alphas : engine.executionAlphas =
    (lastOf (capacityOf window) samples).map fun s => filterNoise s.executionAlpha
  fills : engine.fillRates =
    (lastOf (capacityOf window) samples).map fun s => F64.clamp s.fillRatio 0 1
  slippages : engine.slippages =
    (lastOf (capacityOf window) samples).map fun s => max s.actualSlippageBps 0
  flags : engine.outbidFlags = (lastOf (capacityOf window) samples).map outbidFlag
  failures : 0 ≤ engine.failureEma
  memories : ∀ key memory, engine.regimeMemory.lookup key = some memory → Remembered memory
  counts : ∀ key memory, engine.regimeMemory.lookup key = some memory →
    memory.sampleCount ≤ samples.length

theorem holds_new (window : UInt64) : Holds window [] (.new window) where
  capacity := rfl
  minSamples := rfl
  edges := by rw [lastOf, List.drop_nil, List.map_nil, EdgeValidationEngine.new]
  pnls := by rw [lastOf, List.drop_nil, List.map_nil, EdgeValidationEngine.new]
  returns := by rw [lastOf, List.drop_nil, List.map_nil, EdgeValidationEngine.new]
  alphas := by rw [lastOf, List.drop_nil, List.map_nil, EdgeValidationEngine.new]
  errors := by rw [lastOf, List.drop_nil, List.map_nil, EdgeValidationEngine.new]
  ratios := by rw [lastOf, List.drop_nil, List.map_nil, EdgeValidationEngine.new]
  fills := by rw [lastOf, List.drop_nil, List.map_nil, EdgeValidationEngine.new]
  slippages := by rw [lastOf, List.drop_nil, List.map_nil, EdgeValidationEngine.new]
  flags := by rw [lastOf, List.drop_nil, List.map_nil, EdgeValidationEngine.new]
  failures := zero_le_zero
  memories := by
    intro key memory hlookup
    cases hlookup
  counts := by
    intro key memory hlookup
    cases hlookup

/-! ### Averages -/

theorem ewma_nonneg {current value alpha : F64} (hcurrent : 0 ≤ current) (hvalue : 0 ≤ value)
    (halpha : alpha.isFinite = true ∧ 0 < alpha)
    (hrest : (1 - alpha).isFinite = true ∧ 0 < 1 - alpha) : 0 ≤ ewma current value alpha :=
  nonneg_add (nonneg_mul hcurrent hrest.1 hrest.2) (nonneg_mul hvalue halpha.1 halpha.2)

theorem ewma_ne_nan_iff {current value : F64} (hcurrent : Share current) (hvalue : Share value) :
    ewma current value 0.08 ≠ nan ↔ current ≠ nan ∧ value ≠ nan := by
  constructor
  · intro h
    refine ⟨fun hnan => h ?_, fun hnan => h ?_⟩
    · rw [ewma, hnan, nan_mul, nan_add]
    · rw [ewma, hnan, nan_mul, add_nan]
  · rintro ⟨hc, hv⟩
    exact ne_nan_of_le_right (ewma_nonneg (hcurrent.nonneg hc) (hvalue.nonneg hv)
      ⟨by decide +kernel, by decide +kernel⟩ ⟨by decide +kernel, by decide +kernel⟩)

theorem share_ewma {current value : F64} (hcurrent : Share current) (hvalue : Share value) :
    Share (ewma current value 0.08) := by
  by_cases h : current ≠ nan ∧ value ≠ nan
  · exact .inl (ewma_nonneg (hcurrent.nonneg h.1) (hvalue.nonneg h.2)
      ⟨by decide +kernel, by decide +kernel⟩ ⟨by decide +kernel, by decide +kernel⟩)
  · exact .inr (by_contra fun hne => h ((ewma_ne_nan_iff hcurrent hvalue).mp hne))

theorem Remembered.update {memory : RegimeMemory} (h : Remembered memory)
    {reliability quality : F64} (hreliability : Share reliability) (hquality : Share quality) (pnl capture : F64) :
    Remembered (memory.update reliability pnl quality capture) := by
  unfold RegimeMemory.update
  split_ifs
  · exact ⟨hreliability, hquality⟩
  · exact ⟨share_ewma h.reliability hreliability, share_ewma h.quality hquality⟩

/-- A memory counts from the eighth sample on, so the seven before it matter. -/
theorem recalled_update_iff {memory : RegimeMemory} (h : Remembered memory)
    {reliability quality : F64} (hreliability : Share reliability) (hquality : Share quality)
    (pnl capture : F64) :
    Recalled (memory.update reliability pnl quality capture) ↔
      (7 ≤ memory.sampleCount → (memory.reliabilityEwma ≠ nan ∧ reliability ≠ nan) ∧
        memory.executionQualityEwma ≠ nan ∧ quality ≠ nan) := by
  unfold Recalled RegimeMemory.update saturatingAddUsize
  split_ifs with hfirst
  · rw [hfirst]
    exact iff_of_true (fun hcount => absurd hcount (by dsimp only; omega))
      fun hcount => absurd hcount (by decide)
  · have hcount : 8 ≤ min (memory.sampleCount + 1) (2 ^ 64 - 1) ↔ 7 ≤ memory.sampleCount := by
      omega
    dsimp only
    rw [hcount, ewma_ne_nan_iff h.reliability hreliability, ewma_ne_nan_iff h.quality hquality]

theorem remembered_default : Remembered {} := ⟨.inl zero_le_zero, .inl zero_le_zero⟩

/-! ### Keeping them -/

section Step

variable {window : UInt64} {samples : List LearningSample} {engine : EdgeValidationEngine}

theorem Holds.record (h : Holds window samples engine) (sample : LearningSample) :
    Holds window (samples ++ [sample]) (engine.record sample).2 := by
  have hpush : ∀ {A : Type} {queue : List A} (f : LearningSample → A),
      queue = (lastOf (capacityOf window) samples).map f →
      pushCapped queue (f sample) engine.capacity =
        (lastOf (capacityOf window) (samples ++ [sample])).map f := by
    rintro A queue f rfl
    rw [h.capacity]
    exact pushCapped_lastOf f (capacityOf_pos window) samples sample
  exact {
    capacity := h.capacity
    minSamples := h.minSamples
    edges := hpush (fun s => filterNoise s.expectedMarkout) h.edges
    pnls := hpush (fun s => filterNoise s.pnl) h.pnls
    returns := hpush adjustedReturn h.returns
    alphas := hpush (fun s => filterNoise s.executionAlpha) h.alphas
    errors := hpush edgeError h.errors
    ratios := hpush captureRatio h.ratios
    fills := hpush (fun s => F64.clamp s.fillRatio 0 1) h.fills
    slippages := hpush (fun s => max s.actualSlippageBps 0) h.slippages
    flags := hpush outbidFlag h.flags
    failures := h.failures
    memories := h.memories
    counts := by
      intro key memory hlookup
      rw [List.length_append]
      exact (h.counts key memory hlookup).trans (Nat.le_add_right _ _) }

theorem Holds.observeFailure (h : Holds window samples engine) (reason : ExecutionFailureReason) :
    Holds window samples (engine.observeFailure reason) :=
  { h with
    failures := ewma_nonneg h.failures (by cases reason <;> decide +kernel)
      ⟨by decide +kernel, by decide +kernel⟩ ⟨by decide +kernel, by decide +kernel⟩ }

theorem Holds.remembered_lookup (h : Holds window samples engine) (key : String) :
    Remembered ((engine.regimeMemory.lookup key).getD {}) := by
  cases hlookup : engine.regimeMemory.lookup key with
  | none => exact remembered_default
  | some memory => exact h.memories key memory hlookup

theorem Holds.count_lookup (h : Holds window samples engine) (key : String) :
    ((engine.regimeMemory.lookup key).getD {}).sampleCount ≤ samples.length := by
  cases hlookup : engine.regimeMemory.lookup key with
  | none => exact Nat.zero_le _
  | some memory => exact h.counts key memory hlookup

theorem sampleCount_update_le (memory : RegimeMemory) (reliability pnl quality capture : F64) :
    (memory.update reliability pnl quality capture).sampleCount ≤ memory.sampleCount + 1 := by
  unfold RegimeMemory.update saturatingAddUsize
  split_ifs <;> exact min_le_left _ _

theorem share_reliability (sqrt : F64 → F64) (engine : EdgeValidationEngine) :
    Share (engine.reliability sqrt) := share_clamp zero_le_one

theorem share_executionQuality (fillRate slippageBps competitionScore : F64) :
    Share (executionQuality fillRate slippageBps competitionScore) := share_clamp zero_le_one

theorem Holds.remembered (h : Holds window samples engine) (sqrt : F64 → F64)
    (sample : LearningSample) (realizedPnl captureRatio : F64) :
    Remembered (engine.remembered sqrt sample realizedPnl captureRatio) :=
  (h.remembered_lookup _).update (share_reliability sqrt engine) (share_executionQuality _ _ _) _ _

/-- What `observe` returns, if it returns. -/
theorem observe_eq_some {sqrt : F64 → F64} {negativeNans : List F64 → Nat}
    {sample : LearningSample} {drawdownPct : F64} {record : EdgeValidationSnapshot}
    {after : EdgeValidationEngine}
    (h : engine.observe sqrt negativeNans sample drawdownPct = some (record, after)) :
    ∃ ks pnl ratio memory, memory = (engine.record sample).2.remembered sqrt sample pnl ratio ∧
      record = (engine.record sample).2.snapshotWith sqrt ks memory drawdownPct ∧
      after = { (engine.record sample).2 with
        regimeMemory := (engine.record sample).2.regimeMemory.insert
          (regimeBucket sample.regime) memory } := by
  unfold EdgeValidationEngine.observe at h
  rw [Option.map_eq_some_iff] at h
  obtain ⟨ks, -, heq⟩ := h
  obtain ⟨rfl, rfl⟩ := Prod.mk.inj heq
  exact ⟨ks, _, _, _, rfl, rfl, rfl⟩

theorem Holds.observe (h : Holds window samples engine) {sqrt : F64 → F64}
    {negativeNans : List F64 → Nat} {sample : LearningSample} {drawdownPct : F64}
    {record : EdgeValidationSnapshot} {after : EdgeValidationEngine}
    (hobserve : engine.observe sqrt negativeNans sample drawdownPct = some (record, after)) :
    Holds window (samples ++ [sample]) after := by
  obtain ⟨ks, pnl, ratio, memory, rfl, -, rfl⟩ := observe_eq_some hobserve
  have hrecord := h.record sample
  refine { hrecord with
    memories := fun key memory hlookup => ?_
    counts := fun key memory hlookup => ?_ }
  all_goals by_cases hkey : key = regimeBucket sample.regime
  · rw [hkey, AList.lookup_insert] at hlookup
    obtain rfl := Option.some.inj hlookup
    exact hrecord.remembered sqrt sample pnl ratio
  · rw [AList.lookup_insert_ne hkey] at hlookup
    exact hrecord.memories key memory hlookup
  · rw [hkey, AList.lookup_insert] at hlookup
    obtain rfl := Option.some.inj hlookup
    rw [List.length_append, List.length_singleton]
    exact (sampleCount_update_le _ _ _ _ _).trans (Nat.succ_le_succ (h.count_lookup _))
  · rw [AList.lookup_insert_ne hkey] at hlookup
    exact hrecord.counts key memory hlookup

end Step

theorem Holds.run {sqrt : F64 → F64} {negativeNans : List F64 → Nat} {window : UInt64}
    {observations : List Observation} {samples : List LearningSample}
    {engine after : EdgeValidationEngine} (h : Holds window samples engine)
    (hrun : observations.foldlM (·.tell sqrt negativeNans) engine = some after) :
    Holds window (samples ++ samplesOf observations) after := by
  induction observations generalizing samples engine with
  | nil =>
    obtain rfl := Option.some.inj hrun
    rwa [samplesOf, List.append_nil]
  | cons observation rest ih =>
    rw [List.foldlM_cons, Option.bind_eq_bind, Option.bind_eq_some_iff] at hrun
    obtain ⟨next, hnext, hrest⟩ := hrun
    cases observation with
    | failure reason =>
      obtain rfl := Option.some.inj hnext
      exact ih (h.observeFailure reason) hrest
    | sample sample drawdownPct =>
      obtain ⟨⟨record, next⟩, hobserve, rfl⟩ := Option.map_eq_some_iff.mp hnext
      have hnow := ih (h.observe hobserve) hrest
      rwa [List.append_assoc] at hnow

theorem holds_told {sqrt : F64 → F64} {negativeNans : List F64 → Nat} {window : UInt64}
    {observations : List Observation} {engine : EdgeValidationEngine}
    (h : told sqrt negativeNans window observations = some engine) :
    Holds window (samplesOf observations) engine := (holds_new window).run h

/-! ## A reliability that is a number -/

/-- No NaN comes of the windows: not of the errors' moments, nor of the Sharpe ratio of the
returns, nor of the mean of the alphas; and none is held as a ratio or a fill rate. -/
structure Measurable (sqrt : F64 → F64) (engine : EdgeValidationEngine) : Prop where
  errorMean : (rollingMoments sqrt engine.edgeErrors).mean ≠ nan
  errorVariance : (rollingMoments sqrt engine.edgeErrors).variance ≠ nan
  errorSkew : (rollingMoments sqrt engine.edgeErrors).skew ≠ nan
  returns : rollingSharpeLike sqrt engine.adjustedReturns ≠ nan
  alphas : mean engine.executionAlphas ≠ nan
  captures : nan ∉ engine.captureRatios
  fills : nan ∉ engine.fillRates

theorem captureRatio_finite {sample : LearningSample} (h : captureRatio sample ≠ nan) :
    (captureRatio sample).isFinite = true := by
  unfold captureRatio at h ⊢
  split_ifs with hexpected
  · rw [if_pos hexpected] at h
    refine isFinite_clamp ?_ (by decide +kernel) (by decide +kernel)
    intro hnan
    exact h (by rw [hnan, clamp_nan])
  · decide +kernel

section Held

variable {window : UInt64} {samples : List LearningSample} {engine : EdgeValidationEngine}

theorem length_window_le {A : Type} {queue : List A} {f : LearningSample → A}
    (hqueue : queue = (lastOf (capacityOf window) samples).map f) : queue.length ≤ 2 ^ 64 := by
  rw [hqueue, List.length_map]
  exact (length_lastOf_le _ _).trans (capacityOf_le window)

variable (h : Holds window samples engine) (sqrt : F64 → F64)

include h

theorem Holds.captureMean_ne_nan_iff :
    (rollingMoments sqrt engine.captureRatios).mean ≠ nan ↔ nan ∉ engine.captureRatios := by
  rw [rollingMoments_mean]
  refine ⟨fun hne hmem => hne (mean_eq_nan hmem), fun hne => mean_ne_nan (length_window_le h.ratios)
    (sum_ne_nan fun v hv => ?_)⟩
  have hv' := hv
  rw [h.ratios, List.mem_map] at hv
  obtain ⟨sample, -, rfl⟩ := hv
  exact captureRatio_finite fun hnan => hne (hnan ▸ hv')

theorem Holds.fillMean_ne_nan (hfills : nan ∉ engine.fillRates) : mean engine.fillRates ≠ nan := by
  refine mean_ne_nan (length_window_le h.fills) (ne_nan_of_le_right (nonneg_sum fun v hv => ?_))
  have hshare : Share v := by
    rw [h.fills, List.mem_map] at hv
    obtain ⟨sample, -, rfl⟩ := hv
    exact share_clamp zero_le_one
  exact hshare.nonneg fun hnan => hfills (hnan ▸ hv)

theorem Holds.competitionScore_ne_nan_iff :
    engine.competitionScore sqrt ≠ nan ↔ nan ∉ engine.fillRates := by
  refine ⟨fun hne hmem => hne (competitionScore_eq_nan sqrt _ _ _ hmem), fun hfills =>
    competitionScore_ne_nan sqrt _ (h.fillMean_ne_nan hfills) ?_ ?_⟩
  · refine mean_ne_nan (length_window_le h.slippages)
      (ne_nan_of_le_right (nonneg_sum fun v hv => ?_))
    rw [h.slippages, List.mem_map] at hv
    obtain ⟨sample, -, rfl⟩ := hv
    exact max_zero_nonneg _
  · refine mean_ne_nan (length_window_le h.flags) (ne_nan_of_le_right (nonneg_sum fun v hv => ?_))
    rw [h.flags, List.mem_map] at hv
    obtain ⟨sample, -, rfl⟩ := hv
    unfold outbidFlag
    cases sample.competitionState <;> decide +kernel

theorem Holds.reliability_ne_nan_iff :
    engine.reliability sqrt ≠ nan ↔ Measurable sqrt engine := by
  constructor
  · intro hne
    have hparts := fun hnan => hne (reliabilityScore_eq_nan hnan)
    simp only [imp_false, not_or] at hparts
    obtain ⟨hmean, hvariance, hskew, hreturns, hcapture, hcompetition⟩ := hparts
    refine ⟨hmean, hvariance, hskew, hreturns, ?_, ?_,
      (h.competitionScore_ne_nan_iff sqrt).mp hcompetition⟩
    · intro hnan
      rw [rollingMoments_mean sqrt engine.executionAlphas, hnan, signum_nan, nan_mul, nan_mul,
        add_nan] at hcapture
      exact hcapture rfl
    · refine (h.captureMean_ne_nan_iff sqrt).mp fun hnan => hcapture ?_
      rw [hnan, nan_add]
  · rintro ⟨hmean, hvariance, hskew, hreturns, halphas, hcaptures, hfills⟩
    have hterm : (F64.signum (mean engine.executionAlphas) *
        min (mean engine.executionAlphas).abs 1 * 0.15).isFinite = true :=
      (((signum_within halphas).mul (min_abs_within halphas) (by norm_num)).mul
        (within_of_unit (v := 0.15) (by decide +kernel) (by decide +kernel)) (by norm_num)).isFinite
    obtain ⟨x, hx⟩ := exists_finite hterm
    refine (reliabilityScore_within hmean hvariance hskew hreturns ?_
      ((h.competitionScore_ne_nan_iff sqrt).mpr hfills) h.failures).ne_nan
    rw [rollingMoments_mean sqrt engine.executionAlphas, hx]
    exact add_finite_ne_nan ((h.captureMean_ne_nan_iff sqrt).mpr hcaptures) x

end Held

end RealTimeTrading.Rtts.Floating.EdgeValidation
