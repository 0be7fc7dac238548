/-
RealTimeTrading.Rtts.Floating.Lockout — what a snapshot that disables
trading leads to, with the size factor over `f64`.

The decision and the order turn on the three flags of the snapshot and on
no number, so they are those of any snapshot with the same flags
(`SameFlags`). The size factor is a product, and zero unless a NaN is in it.
-/
import RealTimeTrading.Rtts.Floating.NegativeCapture
import RealTimeTrading.Rtts.Scoring.Lockout

namespace RealTimeTrading.Rtts.Floating.EdgeValidation

open Data F64

variable {sqrt : F64 → F64} {negativeNans : List F64 → Nat} {window : UInt64}
  {observations : List Observation} {engine : EdgeValidationEngine}

/-! ## The flags -/

/-- The flags that `score_frame` and `decide_order` ask. -/
structure SameFlags (record : EdgeValidationSnapshot)
    (edgeSnapshot : Rtts.EdgeValidation.EdgeValidationSnapshot) : Prop where
  edgeState : edgeSnapshot.edgeState = record.edgeState
  competitionState : edgeSnapshot.competitionState = record.competitionState
  tradingEnabled : edgeSnapshot.tradingEnabled = record.tradingEnabled

/-- A snapshot that disables trading names an edge or a market that does. -/
theorem disabled_states {ks : F64} {memory : RegimeMemory} {drawdownPct : F64}
    (h : (engine.snapshotWith sqrt ks memory drawdownPct).tradingEnabled = false) :
    engine.edgeState sqrt ks = .invalid ∨ engine.competitionState sqrt = .saturated := by
  have hflags : (decide (engine.edgeState sqrt ks ≠ .invalid) &&
      decide (engine.competitionState sqrt ≠ .saturated)) = false := h
  rwa [Bool.and_eq_false_iff, decide_eq_false_iff_not, decide_eq_false_iff_not, not_not,
    not_not] at hflags

/-! ## What follows -/

/-- Every frame is ignored, and a position is closed or left alone. -/
structure Inert (edgeSnapshot : Rtts.EdgeValidation.EdgeValidationSnapshot) : Prop where
  ignored : ∀ exp modelWeights cfg learning frame previousScore tradingDisabled now,
    (AdaptiveEngine.scoreFrame exp modelWeights cfg learning frame previousScore tradingDisabled
      edgeSnapshot now).decision = .ignore
  closes : ∀ exp modelWeights cfg learning frame previousScore tradingDisabled now orderCfg position
    lastScore, OnlyCloses orderCfg position
      (AdaptiveEngine.scoreFrame exp modelWeights cfg learning frame previousScore tradingDisabled
        edgeSnapshot now) lastScore

theorem inert_of_locked {edgeSnapshot : Rtts.EdgeValidation.EdgeValidationSnapshot}
    (hstates : edgeSnapshot.edgeState = .invalid ∨ edgeSnapshot.competitionState = .saturated)
    (hdisabled : edgeSnapshot.tradingEnabled = false) : Inert edgeSnapshot := by
  have hignored : ∀ exp modelWeights cfg learning frame previousScore tradingDisabled now,
      (AdaptiveEngine.scoreFrame exp modelWeights cfg learning frame previousScore tradingDisabled
        edgeSnapshot now).decision = .ignore :=
    fun exp modelWeights cfg learning frame previousScore _ now =>
      AdaptiveEngine.scoreFrame_locked exp modelWeights cfg learning frame previousScore now
        (Or.inr hstates)
  exact {
    ignored := hignored
    closes := fun exp modelWeights cfg learning frame previousScore tradingDisabled now orderCfg
        position lastScore =>
      decideOrder_disabled orderCfg position hdisabled
        (hignored exp modelWeights cfg learning frame previousScore tradingDisabled now) lastScore }

/-- Once the validator disables trading, whatever it was told before, every frame is
ignored and a position is closed or left alone. The size factor is zero exactly if no NaN
reaches it. -/
theorem inert_of_disabled (htold : told sqrt negativeNans window observations = some engine)
    {met : List RegimeMemory} (hmet : Lists met engine.regimeMemory) {drawdownPct : F64}
    {record : EdgeValidationSnapshot}
    (hsnapshot : engine.snapshot sqrt negativeNans met drawdownPct = some record)
    (hdisabled : record.tradingEnabled = false) :
    (record.positionSizeMultiplier = 0 ↔ Measurable sqrt engine ∧ drawdownPct ≠ nan ∧
      Recalled (EdgeValidationEngine.busiest met)) ∧
    ∀ edgeSnapshot, SameFlags record edgeSnapshot → Inert edgeSnapshot := by
  obtain ⟨ks, -, rfl⟩ := Option.map_eq_some_iff.mp hsnapshot
  have hholds := holds_told htold
  have hstates := disabled_states hdisabled
  constructor
  · rw [← hholds.reliability_ne_nan_iff sqrt]
    exact positionSizeMultiplier_eq_zero_iff hstates (hholds.busiest hmet)
  · intro edgeSnapshot hflags
    refine inert_of_locked ?_ (hflags.tradingEnabled.trans hdisabled)
    rw [hflags.edgeState, hflags.competitionState]
    exact hstates

/-- Fill rates that are low saturate the market, whatever else was seen. -/
theorem disabled_of_thinFills {ks : F64} {memory : RegimeMemory} {drawdownPct : F64}
    (hfills : mean engine.fillRates < 0.35) :
    (engine.snapshotWith sqrt ks memory drawdownPct).tradingEnabled = false := by
  have hsaturated : engine.competitionState sqrt = .saturated :=
    if_pos (Or.inr (Or.inl hfills))
  show (decide (engine.edgeState sqrt ks ≠ .invalid) &&
    decide (engine.competitionState sqrt ≠ .saturated)) = false
  rw [hsaturated, Bool.and_eq_false_iff]
  exact .inr rfl

/-- A trade of which a fifth was filled. -/
def thinFill : LearningSample := { backwardsSample with fillRatio := 0.2 }

/-- The same, of markouts whose difference is not stored. -/
def thinOverflow : LearningSample := { overflowingSample with fillRatio := 0.2 }

/-- Two of them. -/
def twice (sample : LearningSample) : List Observation := [.sample sample 0, .sample sample 0]

theorem twice_told {sample : LearningSample} (h : filterNoise sample.expectedMarkout ≠ nan)
    (sqrt : F64 → F64) (negativeNans : List F64 → Nat) :
    ∃ engine, told sqrt negativeNans 128 (twice sample) = some engine := by
  refine told_of_numbers sqrt negativeNans 128 fun held hheld => ?_
  have hsample : held ∈ [sample, sample] := hheld
  simp only [List.mem_cons, List.not_mem_nil, or_false, or_self] at hsample
  exact hsample ▸ h

/-- With `id` for the square root of `0`. -/
theorem inert_of_disabled_thinFill : ∃ engine,
    told id (fun _ => 0) 128 (twice thinFill) = some engine ∧
    ∀ met, Lists met engine.regimeMemory → ∃ record,
      engine.snapshot id (fun _ => 0) met 0 = some record ∧
      record.positionSizeMultiplier = 0 ∧
      ∀ edgeSnapshot, SameFlags record edgeSnapshot → Inert edgeSnapshot := by
  have hexpected : filterNoise thinFill.expectedMarkout ≠ nan := by decide +kernel
  obtain ⟨engine, hengine⟩ := twice_told hexpected
    id fun _ => 0
  have hholds := holds_told hengine
  refine ⟨engine, hengine, fun met hmet => ?_⟩
  obtain ⟨ks, hks⟩ := hholds.ks_eq (fun _ => 0) fun sample hsample => by
    have hmem : sample ∈ [thinFill, thinFill] := hsample
    simp only [List.mem_cons, List.not_mem_nil, or_false, or_self] at hmem
    rw [hmem]
    decide +kernel
  have hsnapshot : engine.snapshot id (fun _ => 0) met 0 =
      some (engine.snapshotWith id ks (EdgeValidationEngine.busiest met) 0) := by
    rw [EdgeValidationEngine.snapshot, hks]
    rfl
  have hdisabled := inert_of_disabled hengine hmet hsnapshot (disabled_of_thinFills (by
    rw [hholds.fills]
    decide +kernel))
  have hmeasurable : Measurable id engine := by
    refine ⟨?_, ?_, ?_, ?_, ?_, ?_, ?_⟩
    · rw [hholds.errors]
      decide +kernel
    · rw [hholds.errors]
      decide +kernel
    · rw [hholds.errors]
      decide +kernel
    · rw [hholds.returns]
      decide +kernel
    · rw [hholds.alphas]
      decide +kernel
    · rw [hholds.ratios]
      decide +kernel
    · rw [hholds.fills]
      decide +kernel
  exact ⟨_, hsnapshot, hdisabled.1.mpr ⟨hmeasurable, zero_ne_nan,
    hholds.recalled_of_few (by decide) hmet⟩, hdisabled.2⟩

/-- Two trades of finite markouts, and the size factor is not a number. -/
theorem twice_overflow (sqrt : F64 → F64) (negativeNans : List F64 → Nat) :
    ∃ engine met record, told sqrt negativeNans 128 (twice thinOverflow) = some engine ∧
      Lists met engine.regimeMemory ∧
      engine.snapshot sqrt negativeNans met 0 = some record ∧
      record.tradingEnabled = false ∧ record.positionSizeMultiplier ≠ 0 := by
  obtain ⟨engine, hengine⟩ := twice_told
    (show filterNoise thinOverflow.expectedMarkout ≠ nan by decide +kernel) sqrt negativeNans
  have hholds := holds_told hengine
  obtain ⟨ks, hks⟩ := hholds.ks_eq negativeNans fun sample hsample => by
    have hmem : sample ∈ [thinOverflow, thinOverflow] := hsample
    simp only [List.mem_cons, List.not_mem_nil, or_false, or_self] at hmem
    rw [hmem]
    decide +kernel
  have hmet : Lists (engine.regimeMemory.entries.map (·.2)) engine.regimeMemory := List.Perm.refl _
  have hdisabled : (engine.snapshotWith sqrt ks (EdgeValidationEngine.busiest
      (engine.regimeMemory.entries.map (·.2))) 0).tradingEnabled = false :=
    disabled_of_thinFills (by
      rw [hholds.fills]
      decide +kernel)
  refine ⟨engine, _, _, hengine, hmet, ?_, hdisabled, ?_⟩
  · rw [EdgeValidationEngine.snapshot, hks]
    rfl
  · intro hzero
    have hnumber := (positionSizeMultiplier_eq_zero_iff (disabled_states hdisabled)
      (hholds.busiest hmet)).mp hzero
    refine ((hholds.reliability_ne_nan_iff sqrt).mp hnumber.1).errorVariance ?_
    rw [hholds.errors, rollingMoments_variance sqrt id]
    decide +kernel

/-- With `id` for the square root of what is not a number. -/
theorem disabled_not_zero :
    ∃ engine met record, told id (fun _ => 0) 128 (twice thinOverflow) = some engine ∧
      Lists met engine.regimeMemory ∧
      engine.snapshot id (fun _ => 0) met 0 = some record ∧
      record.tradingEnabled = false ∧ record.positionSizeMultiplier ≠ 0 :=
  twice_overflow id fun _ => 0

end RealTimeTrading.Rtts.Floating.EdgeValidation
