/-
RealTimeTrading.Rtts.Accounting.SnapshotAgreement — what `observe` returns and
what `snapshot` returns right after it.

The windows are the same, so all that is computed from them is. The regime
memory is not: `observe` has the sample's regime and `snapshot` takes the
one with the most samples, and four fields depend on it.
-/
import RealTimeTrading.Rtts.Accounting.ColdStart

namespace RealTimeTrading.Rtts.EdgeValidation

/-! ## The busiest regime -/

/-- A scan that replaces its pick by any later element with as large a key. -/
theorem foldl_pick {A : Type} (key : A → Nat) (scan : Option A → A → Option A)
    (hstart : ∀ a, scan none a = some a)
    (hscan : ∀ b a, scan (some b) a = if key b ≤ key a then some a else some b) (l : List A) :
    (l = [] ∧ l.foldl scan none = none) ∨
      ∃ best ∈ l, l.foldl scan none = some best ∧ ∀ a ∈ l, key a ≤ key best := by
  induction l using List.reverseRecOn with
  | nil => exact .inl ⟨rfl, rfl⟩
  | append_singleton l a ih =>
    right
    rw [List.foldl_append]
    rcases ih with ⟨rfl, hnone⟩ | ⟨best, hbest, hpick, hmax⟩
    · exact ⟨a, by simp, hstart a, by simp⟩
    · show ∃ b ∈ l ++ [a], scan (l.foldl scan none) a = some b ∧ _
      rw [hpick, hscan]
      by_cases hle : key best ≤ key a
      · refine ⟨a, by simp, if_pos hle, fun b hb => ?_⟩
        rcases List.mem_append.mp hb with hb | hb
        · exact (hmax b hb).trans hle
        · exact (congrArg key (List.mem_singleton.mp hb)).le
      · refine ⟨best, List.mem_append_left _ hbest, if_neg hle, fun b hb => ?_⟩
        rcases List.mem_append.mp hb with hb | hb
        · exact hmax b hb
        · rw [List.mem_singleton.mp hb]
          omega

theorem busiest_mem {met : List RegimeMemory} (h : met ≠ []) :
    EdgeValidationEngine.busiest met ∈ met ∧
      ∀ memory ∈ met, memory.sampleCount ≤ (EdgeValidationEngine.busiest met).sampleCount := by
  obtain ⟨scan, hbusiest, hstart, hscan⟩ : ∃ scan : Option RegimeMemory → RegimeMemory → _,
      EdgeValidationEngine.busiest met = (met.foldl scan none).getD {} ∧
      (∀ a, scan none a = some a) ∧
      ∀ b a, scan (some b) a = if b.sampleCount ≤ a.sampleCount then some a else some b :=
    ⟨_, rfl, fun _ => rfl, fun _ _ => rfl⟩
  rcases foldl_pick RegimeMemory.sampleCount scan hstart hscan met with
    ⟨hnil, -⟩ | ⟨best, hbest, hpick, hmax⟩
  · exact absurd hnil h
  · rw [hbusiest, hpick]
    exact ⟨hbest, hmax⟩

/-- `met` lists the values of the map, in some order. -/
def Lists (met : List RegimeMemory) (memories : HashMap String RegimeMemory) : Prop :=
  met.Perm (memories.entries.map (·.2))

theorem Lists.mem_iff {met : List RegimeMemory} {memories : HashMap String RegimeMemory}
    (h : Lists met memories) {memory : RegimeMemory} :
    memory ∈ met ↔ ∃ key, memories.lookup key = some memory := by
  rw [List.Perm.mem_iff h, List.mem_map]
  constructor
  · rintro ⟨⟨key, _⟩, hmem, rfl⟩
    exact ⟨key, AList.mem_lookup_iff.mpr hmem⟩
  · rintro ⟨key, hlookup⟩
    exact ⟨⟨key, memory⟩, AList.mem_lookup_iff.mp hlookup, rfl⟩

/-! ## The memory of the sample's regime -/

variable (sqrt : ℚ → ℚ) (engine : EdgeValidationEngine) (sample : LearningSample) (drawdownPct : ℚ)

/-- The record that `observe` returns is drawn up over the windows it leaves, from the
memory it has just updated. -/
theorem observe_eq_snapshotWith :
    ∃ own, (engine.observe sqrt sample drawdownPct).2.regimeMemory.lookup
        (regimeBucket sample.regime) = some own ∧
      (engine.observe sqrt sample drawdownPct).1 =
        (engine.observe sqrt sample drawdownPct).2.snapshotWith sqrt own drawdownPct :=
  ⟨_, AList.lookup_insert _, rfl⟩

variable {sqrt engine sample drawdownPct}

/-- Two records drawn up over the same windows differ in four fields at most. -/
theorem snapshotWith_eq (own other : RegimeMemory) :
    engine.snapshotWith sqrt other drawdownPct =
      { engine.snapshotWith sqrt own drawdownPct with
        regimeReliability := other.reliabilityEwma
        regimePnlMean := other.pnlEwma
        regimeExecutionQuality := other.executionQualityEwma
        positionSizeMultiplier :=
          positionSizeMultiplier (engine.reliability sqrt) (engine.edgeState sqrt)
            (engine.edgeRegime sqrt) (engine.competitionState sqrt) drawdownPct other } := (rfl)

theorem busiest_eq {met : List RegimeMemory} {memories : HashMap String RegimeMemory}
    (hmet : Lists met memories) {key : String} {own : RegimeMemory}
    (hown : memories.lookup key = some own)
    (hmost : ∀ other memory, other ≠ key → memories.lookup other = some memory →
      memory.sampleCount < own.sampleCount) : EdgeValidationEngine.busiest met = own := by
  have hmem : own ∈ met := hmet.mem_iff.mpr ⟨key, hown⟩
  obtain ⟨hbusiest, hmax⟩ := busiest_mem (List.ne_nil_of_mem hmem)
  obtain ⟨other, hother⟩ := hmet.mem_iff.mp hbusiest
  by_cases heq : other = key
  · rw [heq, hown] at hother
    exact (Option.some.inj hother).symm
  · have hless := hmost other _ heq hother
    have hmore := hmax own hmem
    omega

/-- After any observations, `snapshot` repeats the record `observe` has just returned
but for the fields it takes from the busiest regime, and repeats it whole if that is the
sample's. -/
theorem snapshot_after_observe {sqrt : ℚ → ℚ} {window : Nat} {observations : List Observation}
    {sample : LearningSample} {drawdownPct : ℚ} {record : EdgeValidationSnapshot}
    {after : EdgeValidationEngine}
    (hobserve : (told sqrt window observations).observe sqrt sample drawdownPct = (record, after))
    {met : List RegimeMemory} (hmet : Lists met after.regimeMemory) :
    (∃ key busiest, after.regimeMemory.lookup key = some busiest ∧
      (∀ other memory, after.regimeMemory.lookup other = some memory →
        memory.sampleCount ≤ busiest.sampleCount) ∧
      after.snapshot sqrt met drawdownPct = { record with
        regimeReliability := busiest.reliabilityEwma
        regimePnlMean := busiest.pnlEwma
        regimeExecutionQuality := busiest.executionQualityEwma
        positionSizeMultiplier := positionSizeMultiplier record.edgeReliabilityScore
          record.edgeState record.edgeRegime record.competitionState drawdownPct busiest }) ∧
    ∃ own, after.regimeMemory.lookup (regimeBucket sample.regime) = some own ∧
      ((∀ other memory, other ≠ regimeBucket sample.regime →
        after.regimeMemory.lookup other = some memory → memory.sampleCount < own.sampleCount) →
      after.snapshot sqrt met drawdownPct = record) := by
  obtain ⟨own, hown, hrecord⟩ :=
    observe_eq_snapshotWith sqrt (told sqrt window observations) sample drawdownPct
  rw [hobserve] at hown hrecord
  have hrecord : record = after.snapshotWith sqrt own drawdownPct := hrecord
  obtain ⟨hbusiest, hmax⟩ := busiest_mem (List.ne_nil_of_mem (hmet.mem_iff.mpr ⟨_, hown⟩))
  obtain ⟨key, hkey⟩ := hmet.mem_iff.mp hbusiest
  constructor
  · refine ⟨key, _, hkey, fun other memory hother => hmax memory (hmet.mem_iff.mpr ⟨other, hother⟩),
      ?_⟩
    rw [hrecord]
    exact snapshotWith_eq own _
  · refine ⟨own, hown, fun hmost => ?_⟩
    rw [hrecord, EdgeValidationEngine.snapshot, busiest_eq hmet hown hmost]

/-- A trade of a volatile market after two of a calm one. -/
def volatileSample : LearningSample := { firstSample with pnl := 1, regime := ⟨3, 0, 0⟩ }

def twoCalm : EdgeValidationEngine :=
  told id defaultWindow [.sample firstSample 0, .sample firstSample 0]

/-- `observe` speaks of the volatile market and `snapshot` of the calm one. -/
theorem snapshot_speaks_of_busiest : ¬ ∀ met,
    Lists met (twoCalm.observe id volatileSample 0).2.regimeMemory →
      (twoCalm.observe id volatileSample 0).2.snapshot id met 0 =
        (twoCalm.observe id volatileSample 0).1 := by
  intro h
  have hpnl := congrArg EdgeValidationSnapshot.regimePnlMean (h _ (List.Perm.refl _))
  exact absurd hpnl (by decide +kernel)

/-- A second trade of a calm market, after one of each. -/
def calmObserved : EdgeValidationSnapshot × EdgeValidationEngine :=
  (told id defaultWindow [.sample firstSample 0, .sample volatileSample 0]).observe id firstSample 0

/-- The calm market is met more often than the volatile one. -/
theorem snapshot_after_observe_calm :
    calmObserved.2.snapshot id (calmObserved.2.regimeMemory.entries.map (·.2)) 0 =
      calmObserved.1 := by
  obtain ⟨own, hown, hwhole⟩ := (@snapshot_after_observe id defaultWindow
    [.sample firstSample 0, .sample volatileSample 0] firstSample 0
    calmObserved.1 calmObserved.2 rfl _ (List.Perm.refl _)).2
  have hfewer : ∀ entry ∈ calmObserved.2.regimeMemory.entries,
      entry.1 ≠ regimeBucket firstSample.regime → entry.2.sampleCount <
        ((calmObserved.2.regimeMemory.lookup
          (regimeBucket firstSample.regime)).getD {}).sampleCount := by
    decide +kernel
  rw [hown] at hfewer
  refine hwhole fun other memory hother hlookup => ?_
  exact hfewer ⟨other, memory⟩ (AList.mem_lookup_iff.mp hlookup) hother

end RealTimeTrading.Rtts.EdgeValidation
