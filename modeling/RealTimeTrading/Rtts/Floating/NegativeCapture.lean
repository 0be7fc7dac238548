/-
RealTimeTrading.Rtts.Floating.NegativeCapture — a window in which every
trade kept less than a tenth of what it was expected to earn, with the
wrong sign, halts trading; whether it also leaves nothing of the size is a
matter of numbers.

A window of at least `MIN_VALIDATION_SAMPLES` such trades is a streak of as
many, which makes the edge invalid without a look at any mean. The size
factor is then a product with a zero in it, and a NaN survives that.
-/
import RealTimeTrading.Rtts.Floating.ValidatorRuns

namespace RealTimeTrading.Rtts.Floating.EdgeValidation

open Data F64
open RealTimeTrading.Rtts.EdgeValidation (minValidationSamples pushCapped length_dropWhile_lt)

/-! ## Negative capture -/

/-- Expected to move by more than the noise, and captured with the wrong sign. -/
structure CapturedBackwards (sample : LearningSample) : Prop where
  expected : noiseFloor < sample.expectedMarkout.abs
  ratio : filterNoise sample.pnl / sample.expectedMarkout < -0.10

theorem CapturedBackwards.unfiltered {sample : LearningSample} (h : CapturedBackwards sample) :
    filterNoise sample.expectedMarkout = sample.expectedMarkout :=
  if_neg (not_le_of_lt h.expected)

theorem CapturedBackwards.captureRatio_lt {sample : LearningSample} (h : CapturedBackwards sample) :
    captureRatio sample < -0.05 := by
  have hratio := h.ratio
  rw [captureRatio, h.unfiltered, if_pos h.expected]
  unfold F64.clamp
  split_ifs with hless hmore
  · decide +kernel
  · exact absurd (F64.le_trans (F64.le_of_lt hratio) (by decide +kernel)) (not_le_of_lt hmore)
  · refine lt_of_not_le (by decide +kernel) (ne_nan_of_lt_left hratio) fun hle => ?_
    exact absurd (F64.le_trans hle (F64.le_of_lt hratio)) (by decide +kernel)

theorem CapturedBackwards.ne_nan {sample : LearningSample} (h : CapturedBackwards sample) :
    filterNoise sample.expectedMarkout ≠ nan := by
  rw [h.unfiltered]
  intro hnan
  have hexpected := h.expected
  rw [hnan, abs_nan] at hexpected
  exact absurd hexpected (by decide +kernel)

/-! ## The streak -/

/-- The streak counts the last samples that were captured with the wrong sign, up to the
six that matter. -/
def Streaks (samples : List LearningSample) (engine : EdgeValidationEngine) : Prop :=
  ∀ k ≤ samples.length,
    (∀ sample ∈ samples.drop (samples.length - k), captureRatio sample < -0.05) →
      min k 6 ≤ engine.negativeCaptureStreak

theorem Streaks.record {samples : List LearningSample} {engine : EdgeValidationEngine}
    (h : Streaks samples engine) (sample : LearningSample) :
    Streaks (samples ++ [sample]) (engine.record sample).2 := by
  intro k hk hbackwards
  cases k with
  | zero => omega
  | succ k =>
    rw [List.length_append, List.length_singleton] at hk hbackwards
    rw [show samples.length + 1 - (k + 1) = samples.length - k by omega,
      List.drop_append_of_le_length (by omega)] at hbackwards
    have hlast : captureRatio sample < -0.05 := hbackwards sample (by simp)
    have hearlier := h k (by omega) fun s hs => hbackwards s (List.mem_append_left _ hs)
    have hstreak : (engine.record sample).2.negativeCaptureStreak =
        saturatingAddUsize engine.negativeCaptureStreak 1 := if_pos hlast
    rw [hstreak]
    unfold saturatingAddUsize
    omega

theorem Streaks.observe {samples : List LearningSample} {engine after : EdgeValidationEngine}
    {sqrt : F64 → F64} {negativeNans : List F64 → Nat} {sample : LearningSample} {drawdownPct : F64}
    {record : EdgeValidationSnapshot} (h : Streaks samples engine)
    (hobserve : engine.observe sqrt negativeNans sample drawdownPct = some (record, after)) :
    Streaks (samples ++ [sample]) after := by
  obtain ⟨ks, pnl, ratio, memory, -, -, rfl⟩ := observe_eq_some hobserve
  exact h.record sample

theorem Streaks.run {sqrt : F64 → F64} {negativeNans : List F64 → Nat}
    {observations : List Observation} {samples : List LearningSample}
    {engine after : EdgeValidationEngine} (h : Streaks samples engine)
    (hrun : observations.foldlM (·.tell sqrt negativeNans) engine = some after) :
    Streaks (samples ++ samplesOf observations) after := by
  induction observations generalizing samples engine with
  | nil =>
    obtain rfl := Option.some.inj hrun
    rwa [samplesOf, List.append_nil]
  | cons observation rest ih =>
    rw [List.foldlM_cons, Option.bind_eq_bind, Option.bind_eq_some_iff] at hrun
    obtain ⟨next, hnext, hrest⟩ := hrun
    cases observation with
    | failure reason =>
      obtain rfl := Option.some.inj hnext
      have hfailed : Streaks samples (engine.observeFailure reason) := h
      exact ih hfailed hrest
    | sample sample drawdownPct =>
      obtain ⟨⟨record, next⟩, hobserve, rfl⟩ := Option.map_eq_some_iff.mp hnext
      have hnow := ih (h.observe hobserve) hrest
      rwa [List.append_assoc] at hnow

theorem streaks_new (window : UInt64) : Streaks [] (.new window) := by
  intro k hk _
  rw [List.length_nil] at hk
  omega

/-! ## A loop that ends -/

/-- The smaller of two values is one of them, unless neither is a number. -/
theorem min_reached {e r : F64} (he : e ≠ nan) : e ≤ min e r ∨ r ≤ min e r := by
  by_cases hr : r = nan
  · subst hr
    cases e <;> exact .inl (le_self he)
  · have hmin : min e r = if r < e then r else e := by
      cases e <;> cases r <;> first | exact absurd rfl ‹_› | rfl
    rw [hmin]
    split_ifs
    · exact .inr (le_self hr)
    · exact .inl (le_self he)

theorem ksLoop_ne_none {n m i j : Nat} {expected realized : List F64}
    (h : nan ∉ expected) (maxDistance : F64) :
    ksLoop n m i j expected realized maxDistance ≠ none := by
  fun_induction ksLoop n m i j expected realized maxDistance with
  | case1 i j e es r rs maxDistance value expected realized i' j' hshorter ih =>
    exact ih fun hmem => h ((List.dropWhile_sublist _).subset hmem)
  | case2 i j e es r rs maxDistance value expected realized hstuck =>
    exfalso
    refine hstuck ?_
    have hexpected : expected.length ≤ (e :: es).length := (List.dropWhile_sublist _).length_le
    have hrealized : realized.length ≤ (r :: rs).length := (List.dropWhile_sublist _).length_le
    rcases min_reached (r := r) fun he : e = nan => h (he ▸ List.mem_cons_self) with hle | hle
    · have hless : expected.length < (e :: es).length :=
        length_dropWhile_lt es (decide_eq_true hle)
      omega
    · have hless : realized.length < (r :: rs).length :=
        length_dropWhile_lt rs (decide_eq_true hle)
      omega
  | case3 => exact nofun

theorem nan_not_mem_totalSort {values : List F64} (h : nan ∉ values) (negativeNans : Nat) :
    nan ∉ totalSort negativeNans values := by
  have hnone : values.filter (fun v => decide (v = .nan)) = [] := by
    rw [List.filter_eq_nil_iff]
    intro v hv hnan
    exact h (of_decide_eq_true hnan ▸ hv)
  unfold totalSort
  dsimp only
  rw [hnone, List.take_nil, List.drop_nil, List.nil_append, List.append_nil, List.mem_mergeSort]
  exact fun hmem => h (List.mem_of_mem_filter hmem)

theorem ksStatistic_ne_none (negativeNans : List F64 → Nat) {expected : List F64}
    (h : nan ∉ expected) (realized : List F64) :
    ∃ ks, ksStatistic negativeNans expected realized = some ks := by
  rw [← Option.ne_none_iff_exists']
  unfold ksStatistic
  split_ifs
  · exact nofun
  · exact ksLoop_ne_none (nan_not_mem_totalSort h _) _

/-! ## The verdict -/

/-- No trading. -/
structure Disabled (record : EdgeValidationSnapshot) : Prop where
  edgeState : record.edgeState = .invalid
  tradingEnabled : record.tradingEnabled = false

section Verdict

variable {sqrt : F64 → F64} {window : UInt64} {samples : List LearningSample}
  {engine : EdgeValidationEngine}

theorem Holds.ks_eq (h : Holds window samples engine) (negativeNans : List F64 → Nat)
    (hnumbers : ∀ sample ∈ lastOf (capacityOf window) samples,
      filterNoise sample.expectedMarkout ≠ nan) :
    ∃ ks, engine.ks negativeNans = some ks := by
  refine ksStatistic_ne_none negativeNans (fun hmem => ?_) _
  rw [h.edges, List.mem_map] at hmem
  obtain ⟨sample, hsample, hnan⟩ := hmem
  exact hnumbers sample hsample hnan

theorem Holds.invalid (h : Holds window samples engine) (sqrt : F64 → F64)
    (hstreak : Streaks samples engine)
    (hcount : minValidationSamples ≤ (lastOf (capacityOf window) samples).length)
    (hbackwards : ∀ sample ∈ lastOf (capacityOf window) samples, CapturedBackwards sample)
    (ks : F64) : engine.edgeState sqrt ks = .invalid := by
  have hlength : (lastOf (capacityOf window) samples).length =
      samples.length - (samples.length - capacityOf window) := List.length_drop
  have hsix : 6 ≤ engine.negativeCaptureStreak := by
    have hlast := hstreak (lastOf (capacityOf window) samples).length (by omega) (by
      rw [hlength, show samples.length - (samples.length - (samples.length - capacityOf window)) =
        samples.length - capacityOf window by omega]
      exact fun sample hsample => (hbackwards sample hsample).captureRatio_lt)
    have hmany : 6 ≤ minValidationSamples := by decide
    omega
  have henough : ¬engine.realizedPnls.length < engine.minSamples := by
    rw [h.pnls, h.minSamples, List.length_map]
    omega
  rw [EdgeValidationEngine.edgeState, classifyState, if_neg henough, if_pos (.inl hsix)]

/-- An invalid edge disables trading, and leaves nothing of the size unless it is NaN. -/
theorem Holds.halts_iff (h : Holds window samples engine) {ks : F64} {memory : RegimeMemory}
    (hinvalid : engine.edgeState sqrt ks = .invalid) (hmemory : Remembered memory)
    (drawdownPct : F64) :
    Disabled (engine.snapshotWith sqrt ks memory drawdownPct) ∧
      ((engine.snapshotWith sqrt ks memory drawdownPct).positionSizeMultiplier = 0 ↔
        Measurable sqrt engine ∧ drawdownPct ≠ nan ∧ Recalled memory) := by
  refine ⟨⟨hinvalid, ?_⟩, ?_⟩
  · show (decide (engine.edgeState sqrt ks ≠ .invalid) && _) = false
    rw [hinvalid]
    rfl
  · rw [← h.reliability_ne_nan_iff sqrt]
    exact positionSizeMultiplier_eq_zero_iff (.inl hinvalid) hmemory

end Verdict

/-! ## The memory of a record -/

/-- `met` lists the values of the map, in some order. -/
def Lists (met : List RegimeMemory) (memories : HashMap String RegimeMemory) : Prop :=
  met.Perm (memories.entries.map (·.2))

/-- A choice that keeps its best or takes the next ends with one of the list. -/
theorem foldl_choice_mem {choose : Option RegimeMemory → RegimeMemory → Option RegimeMemory}
    (hchoose : ∀ best next chosen, choose best next = some chosen →
      chosen = next ∨ best = some chosen)
    (met : List RegimeMemory) (best : Option RegimeMemory) {chosen : RegimeMemory}
    (h : met.foldl choose best = some chosen) : chosen ∈ met ∨ best = some chosen := by
  induction met generalizing best with
  | nil => exact .inr h
  | cons next rest ih =>
    rcases ih (choose best next) h with hrest | hnow
    · exact .inl (List.mem_cons_of_mem _ hrest)
    · rcases hchoose best next chosen hnow with rfl | hbest
      · exact .inl List.mem_cons_self
      · exact .inr hbest

theorem busiest_mem (met : List RegimeMemory) :
    EdgeValidationEngine.busiest met = {} ∨ EdgeValidationEngine.busiest met ∈ met := by
  unfold EdgeValidationEngine.busiest
  generalize hchosen : List.foldl _ _ met = chosen
  cases chosen with
  | none => exact .inl rfl
  | some memory =>
    refine .inr ((foldl_choice_mem ?_ met none hchosen).resolve_right (by simp))
    intro best next chosen h
    cases best with
    | none => exact .inl (Option.some.inj h).symm
    | some b =>
      dsimp only at h
      split_ifs at h
      · exact .inl (Option.some.inj h).symm
      · exact .inr h

theorem Holds.busiest {window : UInt64} {samples : List LearningSample}
    {engine : EdgeValidationEngine} (h : Holds window samples engine) {met : List RegimeMemory}
    (hmet : Lists met engine.regimeMemory) : Remembered (EdgeValidationEngine.busiest met) := by
  rcases busiest_mem met with hnone | hmem
  · rw [hnone]
    exact remembered_default
  · rw [List.Perm.mem_iff hmet, List.mem_map] at hmem
    obtain ⟨⟨key, memory⟩, hentry, heq⟩ := hmem
    exact heq ▸ h.memories key memory (AList.mem_lookup_iff.mpr hentry)

/-- Before the eighth sample no memory counts. -/
theorem Holds.recalled_of_few {window : UInt64} {samples : List LearningSample}
    {engine : EdgeValidationEngine} (h : Holds window samples engine) (hfew : samples.length < 8)
    {met : List RegimeMemory} (hmet : Lists met engine.regimeMemory) :
    Recalled (EdgeValidationEngine.busiest met) := by
  intro hcount
  exfalso
  rcases busiest_mem met with hnone | hmem
  · rw [hnone] at hcount
    exact absurd hcount (by decide)
  · rw [List.Perm.mem_iff hmet, List.mem_map] at hmem
    obtain ⟨⟨key, memory⟩, hentry, heq⟩ := hmem
    have hle := h.counts key memory (AList.mem_lookup_iff.mpr hentry)
    rw [← heq] at hcount
    dsimp only at hcount
    omega

theorem executionQuality_ne_nan_iff {fillRate slippageBps competitionScore : F64}
    (hfill : F64.clamp fillRate 0 1 ≠ nan) (hcompetition : competitionScore ≠ nan) :
    executionQuality fillRate slippageBps competitionScore ≠ nan ↔ slippageBps ≠ nan := by
  constructor
  · rintro hne rfl
    refine hne ?_
    simp only [executionQuality, abs_nan, nan_div, clamp_nan, sub_nan, mul_nan, add_nan, nan_add]
  · intro hslippage
    have hweight : ∀ c : F64, 0 ≤ c → c ≤ 1 → Within 1 c := fun c => within_of_unit
    have hfilled : Within 1 (F64.clamp fillRate 0 1) := by
      refine clamp_within fun hnan => hfill ?_
      rw [hnan, clamp_nan]
    have hcost := within_one.sub (clamp_within (div_pos_ne_nan (w := 15) (abs_ne_nan hslippage)
      (by decide +kernel) (by decide +kernel))) (by norm_num)
    have hfree := within_one.sub (clamp_within hcompetition) (by norm_num)
    exact (clamp_within ((((hweight 0.50 (by decide +kernel) (by decide +kernel)).mul hfilled
      (by norm_num)).add ((hweight 0.30 (by decide +kernel) (by decide +kernel)).mul hcost
      (by norm_num)) (by norm_num)).add ((hweight 0.20 (by decide +kernel) (by decide +kernel)).mul
      hfree (by norm_num)) (by norm_num)).ne_nan).ne_nan

/-- The memory of the sample's regime, before it is updated. -/
def memoryOf (sample : LearningSample) (engine : EdgeValidationEngine) : RegimeMemory :=
  (engine.regimeMemory.lookup (regimeBucket sample.regime)).getD {}

/-- What the updated memory needs to be `Recalled`, once the windows are `Measurable`. -/
def RecalledWith (sample : LearningSample) (memory : RegimeMemory) : Prop :=
  7 ≤ memory.sampleCount → memory.reliabilityEwma ≠ nan ∧ memory.executionQualityEwma ≠ nan ∧
    sample.actualSlippageBps ≠ nan

theorem Holds.recalled_remembered_iff {sqrt : F64 → F64} {window : UInt64}
    {samples : List LearningSample} {engine : EdgeValidationEngine} {sample : LearningSample}
    (h : Holds window samples engine) (hmeasurable : Measurable sqrt (engine.record sample).2)
    (pnl ratio : F64) :
    Recalled ((engine.record sample).2.remembered sqrt sample pnl ratio) ↔
      RecalledWith sample (memoryOf sample engine) := by
  have hrecord := h.record sample
  have hfill : F64.clamp sample.fillRatio 0 1 ≠ nan := by
    intro hnan
    refine hmeasurable.fills ?_
    show nan ∈ pushCapped engine.fillRates (F64.clamp sample.fillRatio 0 1) engine.capacity
    rw [hnan]
    exact List.mem_append_right _ (List.mem_singleton_self _)
  have hreliability := (hrecord.reliability_ne_nan_iff sqrt).mpr hmeasurable
  have hcompetition := (hrecord.competitionScore_ne_nan_iff sqrt).mpr hmeasurable.fills
  rw [EdgeValidationEngine.remembered, recalled_update_iff (hrecord.remembered_lookup _)
    (share_reliability sqrt _) (share_executionQuality _ _ _),
    executionQuality_ne_nan_iff hfill hcompetition]
  refine imp_congr_right fun _ => ?_
  rw [and_assoc]
  exact and_congr_right fun _ => and_iff_right hreliability

/-- A call that returns draws the record up over the windows with the sample in them. -/
theorem observe_of_ks (sqrt : F64 → F64) {negativeNans : List F64 → Nat}
    {engine : EdgeValidationEngine} {sample : LearningSample} {ks : F64}
    (hks : (engine.record sample).2.ks negativeNans = some ks) (drawdownPct : F64) :
    ∃ after, engine.observe sqrt negativeNans sample drawdownPct =
      some ((engine.record sample).2.snapshotWith sqrt ks
        ((engine.record sample).2.remembered sqrt sample (engine.record sample).1.1
          (engine.record sample).1.2) drawdownPct, after) := by
  refine ⟨{ (engine.record sample).2 with
    regimeMemory := (engine.record sample).2.regimeMemory.insert (regimeBucket sample.regime)
      ((engine.record sample).2.remembered sqrt sample (engine.record sample).1.1
        (engine.record sample).1.2) }, ?_⟩
  show ((engine.record sample).2.ks negativeNans).map _ = _
  rw [hks]
  rfl

/-- A window of at least `MIN_VALIDATION_SAMPLES` samples, all captured backwards, halts
trading in every snapshot and in the record of the last `observe`. The size factor is zero
exactly if no NaN reaches it. -/
theorem negative_capture_halts_iff {sqrt : F64 → F64} {negativeNans : List F64 → Nat}
    {window : UInt64} {observations : List Observation} {engine : EdgeValidationEngine}
    (htold : told sqrt negativeNans window observations = some engine)
    (hcount : minValidationSamples ≤ (held window observations).length)
    (hbackwards : ∀ sample ∈ held window observations, CapturedBackwards sample) :
    (∀ met, Lists met engine.regimeMemory → ∀ drawdownPct, ∃ record,
      engine.snapshot sqrt negativeNans met drawdownPct = some record ∧ Disabled record ∧
        (record.positionSizeMultiplier = 0 ↔ Measurable sqrt engine ∧ drawdownPct ≠ nan ∧
          Recalled (EdgeValidationEngine.busiest met))) ∧
    ∀ earlier sample drawdownPct (reasons : List ExecutionFailureReason) before,
      observations = earlier ++ .sample sample drawdownPct :: reasons.map .failure →
      told sqrt negativeNans window earlier = some before →
      ∃ record after,
        before.observe sqrt negativeNans sample drawdownPct = some (record, after) ∧
        Disabled record ∧
        (record.positionSizeMultiplier = 0 ↔ Measurable sqrt (before.record sample).2 ∧
          drawdownPct ≠ nan ∧ RecalledWith sample (memoryOf sample before)) := by
  constructor
  · intro met hmet drawdownPct
    have hholds := holds_told htold
    obtain ⟨ks, hks⟩ := hholds.ks_eq negativeNans
      fun sample hsample => (hbackwards sample hsample).ne_nan
    have hinvalid := hholds.invalid sqrt ((streaks_new window).run htold) hcount
      hbackwards ks
    refine ⟨_, ?_, hholds.halts_iff hinvalid (hholds.busiest hmet) drawdownPct⟩
    rw [EdgeValidationEngine.snapshot, hks]
    rfl
  · rintro earlier sample drawdownPct reasons before rfl hbefore
    have hsamples : samplesOf (earlier ++ .sample sample drawdownPct :: reasons.map .failure) =
        samplesOf earlier ++ [sample] := by
      rw [samplesOf_append, samplesOf, samplesOf_failures]
    rw [held, hsamples] at hcount hbackwards
    have hholds := holds_told hbefore
    have hrecord := hholds.record sample
    have hstreak : Streaks (samplesOf earlier ++ [sample]) (before.record sample).2 :=
      ((streaks_new window).run hbefore).record sample
    obtain ⟨ks, hks⟩ := hrecord.ks_eq negativeNans
      fun sample hsample => (hbackwards sample hsample).ne_nan
    have hinvalid := hrecord.invalid sqrt hstreak hcount hbackwards ks
    obtain ⟨after, hobserve⟩ := observe_of_ks sqrt hks drawdownPct
    obtain ⟨hdisabled, hzero⟩ := hrecord.halts_iff hinvalid
      (hrecord.remembered sqrt sample (before.record sample).1.1 (before.record sample).1.2)
      drawdownPct
    refine ⟨_, after, hobserve, hdisabled, ?_⟩
    rw [hzero]
    exact and_congr_right fun hmeasurable => and_congr_right fun _ =>
      hholds.recalled_remembered_iff hmeasurable _ _

/-! ### Two runs -/

/-- With numbers for markouts every call returns. -/
theorem told_of_numbers (sqrt : F64 → F64) (negativeNans : List F64 → Nat) (window : UInt64)
    {observations : List Observation}
    (h : ∀ sample ∈ samplesOf observations, filterNoise sample.expectedMarkout ≠ nan) :
    ∃ engine, told sqrt negativeNans window observations = some engine := by
  induction observations using List.reverseRecOn with
  | nil => exact ⟨_, rfl⟩
  | append_singleton earlier last ih =>
    rw [samplesOf_append] at h
    obtain ⟨engine, hengine⟩ := ih fun sample hsample => h sample (List.mem_append_left _ hsample)
    rw [told_append, hengine]
    cases last with
    | failure reason => exact ⟨_, rfl⟩
    | sample sample drawdownPct =>
      have hrecord := (holds_told hengine).record sample
      obtain ⟨ks, hks⟩ := hrecord.ks_eq negativeNans
        fun held hheld => h held (List.mem_of_mem_drop hheld)
      obtain ⟨after, hobserve⟩ := observe_of_ks sqrt hks drawdownPct
      refine ⟨after, ?_⟩
      show ((engine.observe sqrt negativeNans sample drawdownPct).map (·.2)).bind some = _
      rw [hobserve]
      rfl

/-- Expected to gain two and lost one. -/
def backwardsSample : LearningSample where
  actualSlippageBps := 1
  pnl := -1
  expectedMarkout := 2
  realizedMarkout := -1
  executionAlpha := -3
  fillRatio := 1
  edgeComponent := 2
  executionLoss := 3
  feesRebatesComponent := 0
  adverseSelectionLoss := 1
  competitionState := .normal
  durationMs := 25
  regime := ⟨0, 0, 0⟩

/-- The same with numbers whose difference is not stored. -/
def overflowingSample : LearningSample :=
  { backwardsSample with pnl := -1e308, expectedMarkout := 1e308, realizedMarkout := -1e308 }

/-- As many of them as it takes. -/
def runOf (sample : LearningSample) : List Observation := List.replicate 24 (.sample sample 0)

theorem held_runOf (sample : LearningSample) : held 0 (runOf sample) = List.replicate 24 sample :=
  rfl

theorem runOf_told {sample : LearningSample} (h : CapturedBackwards sample) (sqrt : F64 → F64)
    (negativeNans : List F64 → Nat) :
    ∃ engine, told sqrt negativeNans 0 (runOf sample) = some engine := by
  refine told_of_numbers sqrt negativeNans 0 fun held hheld => ?_
  have hsample : held ∈ List.replicate 24 sample := hheld
  exact List.eq_of_mem_replicate hsample ▸ h.ne_nan

theorem backwardsSample_backwards : CapturedBackwards backwardsSample :=
  ⟨by decide +kernel, by decide +kernel⟩

theorem overflowingSample_backwards : CapturedBackwards overflowingSample :=
  ⟨by decide +kernel, by decide +kernel⟩

/-- With `id` for the square root of `0`. -/
theorem negative_capture_halts_run : ∃ engine,
    told id (fun _ => 0) 0 (runOf backwardsSample) = some engine ∧
    ∀ met, Lists met engine.regimeMemory → Recalled (EdgeValidationEngine.busiest met) →
      ∃ record, engine.snapshot id (fun _ => 0) met 0 = some record ∧ Disabled record ∧
        record.positionSizeMultiplier = 0 := by
  obtain ⟨engine, hengine⟩ := runOf_told backwardsSample_backwards id fun _ => 0
  have hheld : ∀ sample ∈ held 0 (runOf backwardsSample), CapturedBackwards sample := by
    intro sample hsample
    rw [held_runOf] at hsample
    exact List.eq_of_mem_replicate hsample ▸ backwardsSample_backwards
  have hhalts := (negative_capture_halts_iff hengine (by rw [held_runOf]; decide) hheld).1
  refine ⟨engine, hengine, fun met hmet hrecalled => ?_⟩
  obtain ⟨record, hrecord, hdisabled, hzero⟩ := hhalts met hmet 0
  have hholds := holds_told hengine
  have hmeasurable : Measurable id engine := by
    refine ⟨?_, ?_, ?_, ?_, ?_, ?_, ?_⟩
    · rw [hholds.errors]
      decide +kernel
    · rw [hholds.errors]
      decide +kernel
    · rw [hholds.errors]
      decide +kernel
    · rw [hholds.returns]
      decide +kernel
    · rw [hholds.alphas]
      decide +kernel
    · rw [hholds.ratios]
      decide +kernel
    · rw [hholds.fills]
      decide +kernel
  exact ⟨record, hrecord, hdisabled, hzero.mpr ⟨hmeasurable, zero_ne_nan, hrecalled⟩⟩

/-- The variance asks for no square root. -/
theorem rollingMoments_variance (sqrt other : F64 → F64) (values : List F64) :
    (rollingMoments sqrt values).variance = (rollingMoments other values).variance := by
  unfold rollingMoments
  split_ifs <;> rfl

/-- Finite markouts of both signs, and the size factor is not a number. -/
theorem runOf_overflowing (sqrt : F64 → F64) (negativeNans : List F64 → Nat) :
    ∃ engine, told sqrt negativeNans 0 (runOf overflowingSample) = some engine ∧
      minValidationSamples ≤ (held 0 (runOf overflowingSample)).length ∧
      (∀ sample ∈ held 0 (runOf overflowingSample), CapturedBackwards sample) ∧
      ∃ met record, Lists met engine.regimeMemory ∧
        engine.snapshot sqrt negativeNans met 0 = some record ∧
        record.positionSizeMultiplier ≠ 0 := by
  obtain ⟨engine, hengine⟩ := runOf_told overflowingSample_backwards sqrt negativeNans
  have hheld : ∀ sample ∈ held 0 (runOf overflowingSample), CapturedBackwards sample := by
    intro sample hsample
    rw [held_runOf] at hsample
    exact List.eq_of_mem_replicate hsample ▸ overflowingSample_backwards
  have hholds := holds_told hengine
  obtain ⟨ks, hks⟩ := hholds.ks_eq negativeNans fun sample hsample => (hheld sample hsample).ne_nan
  have hcount : minValidationSamples ≤ (held 0 (runOf overflowingSample)).length := by
    rw [held_runOf]
    decide
  have hinvalid := hholds.invalid sqrt ((streaks_new 0).run hengine) hcount hheld ks
  have hmet : Lists (engine.regimeMemory.entries.map (·.2)) engine.regimeMemory := List.Perm.refl _
  refine ⟨engine, hengine, hcount, hheld, _, engine.snapshotWith sqrt ks
    (EdgeValidationEngine.busiest (engine.regimeMemory.entries.map (·.2))) 0, hmet, ?_, ?_⟩
  · rw [EdgeValidationEngine.snapshot, hks]
    rfl
  · rw [ne_eq, (hholds.halts_iff hinvalid (hholds.busiest hmet) 0).2]
    rintro ⟨hmeasurable, -⟩
    refine hmeasurable.errorVariance ?_
    rw [hholds.errors, rollingMoments_variance sqrt id]
    decide +kernel
/-- With `id` for the square root of an infinity. -/
theorem overflowed_markouts_unhalted :
    ∃ engine, told id (fun _ => 0) 0 (runOf overflowingSample) = some engine ∧
      minValidationSamples ≤ (held 0 (runOf overflowingSample)).length ∧
      (∀ sample ∈ held 0 (runOf overflowingSample), CapturedBackwards sample) ∧
      ∃ met record, Lists met engine.regimeMemory ∧
        engine.snapshot id (fun _ => 0) met 0 = some record ∧
        record.positionSizeMultiplier ≠ 0 := runOf_overflowing id fun _ => 0

end RealTimeTrading.Rtts.Floating.EdgeValidation
