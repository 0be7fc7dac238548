/-
RealTimeTrading.ExecutionLearning.Floating.Idempotence — what generating
features a second time changes, in floating point.

A feature is either read off columns that no feature writes, or written over
the column it is read off after clipping, which a second time does nothing.
Two columns are different. The trade velocity is normalised in place, so its
second value is the score of a score. The execution delay is written without
its infinities, so a row that was never executed has no delay the second time
(`features_kept_iff`).
-/
import RealTimeTrading.ExecutionLearning.Floating.Scores

namespace RealTimeTrading.ExecutionLearning.Floating

open Data (F64 Finite64)
open Data.F64

variable {n : Nat}

/-! ## Columns after writing -/

namespace Table

theorem column_set_self (name : String) (series : Series n) (df : Table n) :
    (df.set name series).column name = some fun i => .number (series i) :=
  AList.lookup_insert df.columns

theorem column_set_of_ne {name other : String} (h : name ≠ other) (series : Series n)
    (df : Table n) : (df.set other series).column name = df.column name :=
  AList.lookup_insert_ne h

theorem column_foldl_set_of_notMem {name : String} {written : List (String × Series n)}
    (h : name ∉ written.map (·.1)) (df : Table n) :
    (written.foldl (fun out f => out.set f.1 f.2) df).column name = df.column name := by
  induction written generalizing df with
  | nil => rfl
  | cons f rest ih =>
    obtain ⟨hfirst, hrest⟩ := not_or.mp (mt List.mem_cons.mpr h)
    rw [List.foldl_cons, ih hrest, column_set_of_ne hfirst]

theorem column_foldl_set_of_mem {name : String} {series : Series n}
    {written : List (String × Series n)} (hnames : (written.map (·.1)).Nodup)
    (h : (name, series) ∈ written) (df : Table n) :
    (written.foldl (fun out f => out.set f.1 f.2) df).column name =
      some fun i => .number (series i) := by
  induction written generalizing df with
  | nil => cases h
  | cons f rest ih =>
    obtain ⟨hfirst, hrest⟩ := List.nodup_cons.mp hnames
    rw [List.foldl_cons]
    rcases List.mem_cons.mp h with rfl | hlater
    · rw [column_foldl_set_of_notMem hfirst, column_set_self]
    · exact ih hrest hlater _

end Table

open Floating.Table

variable (parse : String → F64) (exp : F64 → F64) {df : Table n}

/-- What `replace` and `fillna` leave of a series. -/
def written (series : Series n) : Series n := fun i => replaceInf (series i)

theorem safeCol_ne_nan {default : Series n} (h : ∀ i, default i ≠ nan) (df : Table n)
    (name : String) (i : Fin n) : safeCol parse df name default i ≠ nan := by
  unfold safeCol
  split
  · exact fillna_ne_nan (h i)
  · exact h i

/-- A column of numbers reads as itself where nothing is missing. -/
theorem safeCol_numbers {name : String} {series : Series n}
    (h : df.column name = some fun i => .number (series i)) (default : Series n) :
    safeCol parse df name default = fun i => fillna (series i) (default i) := by
  unfold safeCol
  rw [h]
  rfl

theorem safeCol_congr {df' : Table n} {name : String} (h : df'.column name = df.column name)
    (default : Series n) : safeCol parse df' name default = safeCol parse df name default := by
  unfold safeCol
  rw [h]

theorem replaceInf_fillna (v : F64) : replaceInf (fillna v 0) = replaceInf v := by
  by_cases hv : v = nan
  · subst hv
    exact replaceInf_of_finite isFinite_zero
  · rw [fillna_of_ne hv]

theorem column_coerce_of_numbers {name : String} {series : Series n}
    (hname : name ∈ featureColumns) (h : df.column name = some fun i => .number (series i)) :
    (coerce parse df).column name = some fun i => .number (written series i) := by
  -- once written a column stays, and each name of the list is written
  have hstays : ∀ (names : List String) (out : Table n),
      out.column name = some (fun i => .number (series i)) ∨
        out.column name = some (fun i => .number (written series i)) →
      name ∈ names ∨ out.column name = some (fun i => .number (written series i)) →
      (names.foldl (fun out name =>
        out.set name fun i => replaceInf (safeCol parse out name (const 0) i)) out).column name =
          some fun i => .number (written series i) := by
    intro names
    induction names with
    | nil =>
      intro out _ hdone
      exact hdone.resolve_left (by simp)
    | cons first rest ih =>
      intro out hout hdone
      by_cases hfirst : name = first
      · have hset : (out.set first fun i =>
            replaceInf (safeCol parse out first (const 0) i)).column name =
              some fun i => .number (written series i) := by
          subst hfirst
          rw [column_set_self]
          rcases hout with hout | hout
          · rw [safeCol_numbers parse hout]
            simp only [const, replaceInf_fillna, written]
          · rw [safeCol_numbers parse hout]
            simp only [const, replaceInf_fillna, written, replaceInf_replaceInf]
        exact ih _ (.inr hset) (.inr hset)
      · have hsame := column_set_of_ne hfirst
          (fun i => replaceInf (safeCol parse out first (const 0) i)) out
        refine ih _ (hsame ▸ hout) (hdone.imp (fun hmem => ?_) fun hwritten => hsame ▸ hwritten)
        exact (List.mem_cons.mp hmem).resolve_left hfirst
  exact hstays featureColumns df (.inl h) (.inl hname)

theorem column_coerce_of_notMem {name : String} (h : name ∉ featureColumns) (df : Table n) :
    (coerce parse df).column name = df.column name := by
  unfold coerce
  revert h
  induction featureColumns generalizing df with
  | nil => exact fun _ => rfl
  | cons first rest ih =>
    intro h
    obtain ⟨hfirst, hrest⟩ := not_or.mp (mt List.mem_cons.mpr h)
    rw [List.foldl_cons, ih _ hrest, column_set_of_ne hfirst]

theorem features_names (df : Table n) :
    (features parse exp df).map (·.1) = featureColumns := rfl

theorem featureColumns_nodup : featureColumns.Nodup := by decide

theorem column_feature (hdf : ¬ df.Empty) {name : String} {series : Series n}
    (h : (name, series) ∈ features parse exp df) :
    (generateExecutionFeatures parse exp df).column name =
      some fun i => .number (written series i) := by
  have hname : name ∈ featureColumns := by
    rw [← features_names parse exp df]
    exact List.mem_map_of_mem h
  rw [generateExecutionFeatures, if_neg hdf]
  exact column_coerce_of_numbers parse hname
    (column_foldl_set_of_mem (features_names parse exp df ▸ featureColumns_nodup) h df)

theorem column_other {name : String} (h : name ∉ featureColumns) (df : Table n) :
    (generateExecutionFeatures parse exp df).column name = df.column name := by
  unfold generateExecutionFeatures
  split_ifs
  · rfl
  · rw [column_coerce_of_notMem parse h, column_foldl_set_of_notMem h]

theorem generate_empty_iff : (generateExecutionFeatures parse exp df).Empty ↔ df.Empty := by
  by_cases hdf : df.Empty
  · rw [generateExecutionFeatures, if_pos hdf]
  · refine iff_of_false (fun hgenerated => ?_) hdf
    have hcolumn := column_feature parse exp hdf List.mem_cons_self
    rcases hgenerated with hrows | hcolumns
    · exact hdf (.inl hrows)
    · rw [column, hcolumns] at hcolumn
      cases hcolumn

/-! ## The second time -/

theorem safeCol_other {name : String} (h : name ∉ featureColumns) (df : Table n)
    (default : Series n) : safeCol parse (generateExecutionFeatures parse exp df) name default =
      safeCol parse df name default :=
  safeCol_congr parse (column_other parse exp h df) default

theorem safeCol_feature (hdf : ¬ df.Empty) {name : String} {series : Series n}
    (h : (name, series) ∈ features parse exp df) (default : Series n) :
    safeCol parse (generateExecutionFeatures parse exp df) name default = written series := by
  rw [safeCol_numbers parse (column_feature parse exp hdf h)]
  exact funext fun i => fillna_of_ne (finite_ne_nan (replaceInf_finite _)) _

theorem clipped01_other {name : String} (h : name ∉ featureColumns) (df : Table n)
    (default : Series n) : clipped01 parse (generateExecutionFeatures parse exp df) name default =
      clipped01 parse df name default := by
  unfold clipped01
  rw [safeCol_other parse exp h]

/-! ### Columns that no feature writes -/

section Others

variable (df : Table n)

theorem slippageError_again :
    slippageError parse (generateExecutionFeatures parse exp df) = slippageError parse df := by
  unfold slippageError
  simp (disch := simp [featureColumns]) only [safeCol_other]

theorem snapshotStalenessScore_again :
    snapshotStalenessScore parse exp (generateExecutionFeatures parse exp df) =
      snapshotStalenessScore parse exp df := by
  unfold snapshotStalenessScore
  simp (disch := simp [featureColumns]) only [safeCol_other]

theorem executionFragilityIndex_again :
    executionFragilityIndex parse (generateExecutionFeatures parse exp df) =
      executionFragilityIndex parse df := by
  unfold executionFragilityIndex
  simp (disch := simp [featureColumns]) only [safeCol_other, clipped01_other]

theorem inclusionDriftScore_again :
    inclusionDriftScore parse (generateExecutionFeatures parse exp df) =
      inclusionDriftScore parse df := by
  unfold inclusionDriftScore
  simp (disch := simp [featureColumns]) only [clipped01_other]

theorem regimeInstabilityScore_again :
    regimeInstabilityScore parse (generateExecutionFeatures parse exp df) =
      regimeInstabilityScore parse df := by
  unfold regimeInstabilityScore
  simp (disch := simp [featureColumns]) only [safeCol_other]

theorem adverseSelectionScore_again :
    adverseSelectionScore parse (generateExecutionFeatures parse exp df) =
      adverseSelectionScore parse df := by
  unfold adverseSelectionScore
  simp (disch := simp [featureColumns]) only [safeCol_other]

end Others

/-! ### Columns that are clipped in place -/

theorem hundredEighty_ne_nan : (180 : F64) ≠ nan := round_ne_nan _

theorem half_ne_nan : (0.5 : F64) ≠ nan := round_ne_nan _

theorem const_ne_nan {v : F64} (h : v ≠ nan) (i : Fin n) : const v i ≠ nan := h

/-- A delay is infinite or a number. -/
theorem executionDelayMs_finite_or (df : Table n) (i : Fin n) :
    (executionDelayMs parse df i).isFinite = true ∨ executionDelayMs parse df i = posInf := by
  have hread := safeCol_ne_nan parse (const_ne_nan zero_ne_nan) df "execution_delay_ms" i
  have hle := le_clipLower hread zero_ne_nan
  rw [executionDelayMs]
  generalize clipLower (safeCol parse df "execution_delay_ms" (const 0) i) 0 = delay at hle
  cases delay with
  | finite x => exact .inl rfl
  | posInf => exact .inr rfl
  | nan | negInf =>
    rw [zero_eq] at hle
    cases hle

theorem written_score (window : Nat) (series : Series n) :
    written (boundedFromZ (robustZ window series)) = boundedFromZ (robustZ window series) :=
  funext fun i => replaceInf_of_finite (score_within window series i).isFinite

section Clipped

variable (hdf : ¬ df.Empty)
include hdf

/-- A clipped column is the same when it is read and clipped again, whatever default. -/
theorem clipped01_again {name : String} {default : Series n} (hdefault : ∀ i, default i ≠ nan)
    (h : (name, clipped01 parse df name default) ∈ features parse exp df) (default' : Series n) :
    clipped01 parse (generateExecutionFeatures parse exp df) name default' =
      clipped01 parse df name default := by
  funext i
  have hread := safeCol_ne_nan parse hdefault df name i
  rw [clipped01, safeCol_feature parse exp hdf h, written, clipped01,
    replaceInf_of_finite (clip01_finite hread), clip01_clip01 hread]

theorem volatilityMicroSpike_again :
    volatilityMicroSpike parse (generateExecutionFeatures parse exp df) =
      volatilityMicroSpike parse df :=
  clipped01_again parse exp hdf (safeCol_ne_nan parse (const_ne_nan zero_ne_nan) df _)
    (by simp [features, volatilityMicroSpike]) _

theorem fillProbabilityEstimate_again :
    fillProbabilityEstimate parse (generateExecutionFeatures parse exp df) =
      fillProbabilityEstimate parse df :=
  clipped01_again parse exp hdf (safeCol_ne_nan parse (const_ne_nan half_ne_nan) df _)
    (by simp [features, fillProbabilityEstimate]) _

theorem orderbookDepthShock_again :
    orderbookDepthShock parse (generateExecutionFeatures parse exp df) =
      orderbookDepthShock parse df :=
  clipped01_again parse exp hdf (const_ne_nan zero_ne_nan)
    (by simp [features, orderbookDepthShock]) _

theorem spreadChangeRate_again :
    spreadChangeRate parse (generateExecutionFeatures parse exp df) = spreadChangeRate parse df :=
  clipped01_again parse exp hdf (const_ne_nan zero_ne_nan)
    (by simp [features, spreadChangeRate]) _

theorem mempoolPressure_again :
    mempoolPressure parse (generateExecutionFeatures parse exp df) = mempoolPressure parse df :=
  clipped01_again parse exp hdf (const_ne_nan zero_ne_nan)
    (by simp [features, mempoolPressure]) _

theorem competitionDensity_again :
    competitionDensity parse (generateExecutionFeatures parse exp df) =
      competitionDensity parse df :=
  clipped01_again parse exp hdf (const_ne_nan zero_ne_nan)
    (by simp [features, competitionDensity]) _

theorem volatilityRegimeScore_again :
    volatilityRegimeScore parse (generateExecutionFeatures parse exp df) =
      volatilityRegimeScore parse df :=
  clipped01_again parse exp hdf (const_ne_nan half_ne_nan)
    (by simp [features, volatilityRegimeScore]) _

theorem competitionDensityIndex_again :
    competitionDensityIndex parse (generateExecutionFeatures parse exp df) =
      competitionDensityIndex parse df := by
  have hpressure := mempoolPressure_again parse exp hdf
  unfold mempoolPressure at hpressure
  unfold competitionDensityIndex
  rw [hpressure]
  simp (disch := simp [featureColumns]) only [safeCol_other, clipped01_other]

theorem marketMicrostructureStress_again :
    marketMicrostructureStress parse (generateExecutionFeatures parse exp df) =
      marketMicrostructureStress parse df := by
  unfold marketMicrostructureStress
  rw [orderbookDepthShock_again parse exp hdf]
  simp (disch := simp [featureColumns]) only [clipped01_other]

omit hdf in
theorem minusOne : (-1 : F64) ≤ 0 ∧ (-1 : F64).isFinite = true := by decide +kernel

/-- The second time the imbalance is there to be read. -/
theorem orderbookImbalanceMultilevel_again :
    written (orderbookImbalanceMultilevel parse (generateExecutionFeatures parse exp df)) =
      written (orderbookImbalanceMultilevel parse df) := by
  have hmem : ("orderbook_imbalance_multilevel", orderbookImbalanceMultilevel parse df) ∈
      features parse exp df := by simp [features]
  funext i
  rw [written, orderbookImbalanceMultilevel, column_feature parse exp hdf hmem,
    Option.isSome_some, if_pos rfl, safeCol_feature parse exp hdf hmem]
  exact replaceInf_clip_again minusOne.1 zero_le_one minusOne.2 isFinite_one

/-- The delay of the second time is the first one as it was written. -/
theorem executionDelayMs_again :
    executionDelayMs parse (generateExecutionFeatures parse exp df) =
      written (executionDelayMs parse df) := by
  have hmem : ("execution_delay_ms", executionDelayMs parse df) ∈ features parse exp df := by
    simp [features]
  funext i
  rw [executionDelayMs, safeCol_feature parse exp hdf hmem]
  exact if_neg (replaceInf_clipLower_not_neg _)

theorem written_executionDelayMs_again :
    written (executionDelayMs parse (generateExecutionFeatures parse exp df)) =
      written (executionDelayMs parse df) := by
  rw [executionDelayMs_again parse exp hdf]
  exact funext fun i => replaceInf_replaceInf _

/-- The velocity's first value is the reading of the second. -/
theorem tradeVelocity_again :
    tradeVelocity parse (generateExecutionFeatures parse exp df) =
      boundedFromZ (robustZ 200 (tradeVelocity parse df)) := by
  have hmem : ("trade_velocity", tradeVelocity parse df) ∈ features parse exp df := by
    simp [features]
  rw [tradeVelocity, velocityReading, safeCol_feature parse exp hdf hmem, tradeVelocity,
    written_score]

end Clipped

/-! ### Rows that were never executed -/

section Delays

theorem clip01_nan : clip01 nan = nan := clamp_nan 0 1

theorem fillEfficiency_nan (requested filled slippageError : F64) :
    fillEfficiency requested filled nan slippageError = nan := by
  unfold fillEfficiency
  simp only [mul_nan, sub_nan, nan_mul, clip01_nan]

theorem isFinite_twenty : (20 : F64).isFinite = true := by
  rw [show (20 : F64) = finite (whole 20 (by norm_num)) from round_whole (by norm_num)]
  rfl

theorem pos_of_twenty_le {x : Finite64} (h : 20 ≤ finite x) : 0 < x.1 := by
  have htwenty : (20 : F64) = finite (whole 20 (by norm_num)) := round_whole (by norm_num)
  rw [htwenty, finite_le_finite] at h
  exact lt_of_lt_of_le (by norm_num [whole]) h

/-- A number of at least twenty is stored or infinite. -/
theorem eq_of_twenty_le {tau : F64} (h : 20 ≤ tau) :
    tau = posInf ∨ ∃ x : Finite64, tau = finite x ∧ 0 < x.1 := by
  have htwenty : (20 : F64) = finite (whole 20 (by norm_num)) := round_whole (by norm_num)
  cases tau with
  | posInf => exact .inl rfl
  | finite x => exact .inr ⟨x, rfl, pos_of_twenty_le h⟩
  | nan | negInf =>
    rw [htwenty] at h
    cases h

theorem neg_zero_div {tau : F64} (h : 20 ≤ tau) : -0 / tau = 0 := by
  have hneg : -0 = (0 : F64) := by
    rw [zero_eq, neg_finite]
    exact congrArg finite (Subtype.ext neg_zero)
  rw [hneg]
  rcases eq_of_twenty_le h with rfl | ⟨x, rfl, hpos⟩
  · exact (congrArg (· / posInf) zero_eq).trans rfl
  · exact zero_div_finite hpos.ne'

/-- Without a delay nothing is lost, and everything after an infinite one. -/
theorem penalties : (1 : F64) - 1 = 0 ∧ replaceInf (clip01 0) = 0 ∧
    replaceInf (clip01 (1 - 0)) ≠ 0 := by decide +kernel

/-- An infinite delay that has become zero gives the same two features exactly if it never counted
for the first nor left anything to count for the second. -/
theorem delay_again_iff (hzero : exp 0 = 1) (hinfinite : exp negInf = 0) (hnan : exp nan = nan)
    {delay tau : F64} (hdelay : delay.isFinite = true ∨ delay = posInf) (htau : 20 ≤ tau)
    (requested filled slippageError : F64) :
    (replaceInf (clip01 (1 - exp (-replaceInf delay / tau))) =
        replaceInf (clip01 (1 - exp (-delay / tau))) ∧
      replaceInf (fillEfficiency requested filled (1 - exp (-replaceInf delay / tau))
          slippageError) =
        replaceInf (fillEfficiency requested filled (1 - exp (-delay / tau)) slippageError)) ↔
      (delay = posInf → tau = posInf ∧
        replaceInf (fillEfficiency requested filled 0 slippageError) = 0) := by
  rcases hdelay with hfinite | rfl
  · rw [replaceInf_of_finite hfinite]
    refine iff_of_true ⟨rfl, rfl⟩ ?_
    rintro rfl
    cases hfinite
  · have hnow : replaceInf posInf = 0 := replaceInf_of_not_finite nofun
    have hmissing : replaceInf nan = 0 := replaceInf_of_not_finite nofun
    obtain ⟨hnone, hempty, hfull⟩ := penalties
    rw [hnow, neg_zero_div htau, hzero, hnone, hempty]
    rcases eq_of_twenty_le htau with rfl | ⟨x, rfl, hpos⟩
    · have hquotient : -posInf / posInf = nan := rfl
      rw [hquotient, hnan, sub_nan, clip01_nan, fillEfficiency_nan, hmissing]
      exact ⟨fun h _ => ⟨rfl, h.2⟩, fun h => ⟨rfl, (h rfl).2⟩⟩
    · have hquotient : -posInf / finite x = negInf := negInf_div hpos
      rw [hquotient, hinfinite]
      exact iff_of_false (fun h => hfull h.1.symm) fun h => by cases (h rfl).1

end Delays

/-! ## Features kept -/

/-- A second time leaves every feature column as it is. -/
def Kept (df : Table n) : Prop :=
  ∀ name ∈ featureColumns,
    (generateExecutionFeatures parse exp (generateExecutionFeatures parse exp df)).column name =
      (generateExecutionFeatures parse exp df).column name

theorem numbers_inj {series series' : Series n}
    (h : (some fun i => Cell.number (series i)) = some fun i => Cell.number (series' i)) :
    series = series' :=
  funext fun i => Cell.number.inj (congrFun (Option.some.inj h) i)

theorem kept_of_empty (hdf : df.Empty) : Kept parse exp df := by
  intro name _
  rw [generateExecutionFeatures, if_pos ((generate_empty_iff parse exp).mpr hdf)]

/-- What two columns of features have in common is what they write. -/
theorem column_feature_eq_iff (hdf : ¬df.Empty) {name : String} {first second : Series n}
    (hfirst : (name, first) ∈ features parse exp df)
    (hsecond : (name, second) ∈ features parse exp (generateExecutionFeatures parse exp df)) :
    (generateExecutionFeatures parse exp (generateExecutionFeatures parse exp df)).column name =
      (generateExecutionFeatures parse exp df).column name ↔ written second = written first := by
  rw [column_feature parse exp ((generate_empty_iff parse exp).not.mpr hdf) hsecond,
    column_feature parse exp hdf hfirst]
  exact ⟨numbers_inj, fun h => by rw [h]⟩

/-- All but three features are kept in any case. -/
theorem kept_iff_three (hdf : ¬df.Empty) :
    Kept parse exp df ↔
      written (tradeVelocity parse (generateExecutionFeatures parse exp df)) =
          written (tradeVelocity parse df) ∧
        written (latencyPenalty parse exp (generateExecutionFeatures parse exp df)) =
            written (latencyPenalty parse exp df) ∧
          written (fillEfficiencyScore parse exp (generateExecutionFeatures parse exp df)) =
            written (fillEfficiencyScore parse exp df) := by
  constructor
  · intro hkept
    have hsame : ∀ {name : String} {first second : Series n}, name ∈ featureColumns →
        (name, first) ∈ features parse exp df →
          (name, second) ∈ features parse exp (generateExecutionFeatures parse exp df) →
            written second = written first :=
      fun hname hfirst hsecond =>
        (column_feature_eq_iff parse exp hdf hfirst hsecond).mp (hkept _ hname)
    have hvelocity : "trade_velocity" ∈ featureColumns := by decide
    have hlatency : "latency_penalty" ∈ featureColumns := by decide
    have hfill : "fill_efficiency_score" ∈ featureColumns := by decide
    exact ⟨hsame hvelocity (by simp [features]) (by simp [features]),
      hsame hlatency (by simp [features]) (by simp [features]),
      hsame hfill (by simp [features]) (by simp [features])⟩
  · rintro ⟨hvelocity, hlatency, hfill⟩ name hname
    have hsame : (features parse exp (generateExecutionFeatures parse exp df)).map
        (fun f => (f.1, written f.2)) =
          (features parse exp df).map fun f => (f.1, written f.2) := by
      simp only [features, List.map_cons, List.map_nil, hvelocity, hlatency, hfill,
        slippageError_again, orderbookImbalanceMultilevel_again parse exp hdf,
        volatilityMicroSpike_again parse exp hdf, snapshotStalenessScore_again,
        fillProbabilityEstimate_again parse exp hdf, competitionDensityIndex_again parse exp hdf,
        executionFragilityIndex_again, inclusionDriftScore_again,
        marketMicrostructureStress_again parse exp hdf, regimeInstabilityScore_again,
        orderbookDepthShock_again parse exp hdf, spreadChangeRate_again parse exp hdf,
        adverseSelectionScore_again, mempoolPressure_again parse exp hdf,
        competitionDensity_again parse exp hdf, written_executionDelayMs_again parse exp hdf,
        volatilityRegimeScore_again parse exp hdf]
    rw [← features_names parse exp (generateExecutionFeatures parse exp df)] at hname
    obtain ⟨⟨_, second⟩, hsecond, rfl⟩ := List.mem_map.mp hname
    have hboth := List.mem_map_of_mem (f := fun f => (f.1, written f.2)) hsecond
    rw [hsame] at hboth
    obtain ⟨⟨other, first⟩, hfirst, heq⟩ := List.mem_map.mp hboth
    obtain ⟨rfl, hwritten⟩ := Prod.mk.injEq .. ▸ heq
    exact (column_feature_eq_iff parse exp hdf hfirst hsecond).mpr hwritten.symm

/-- A row with an infinite delay has an infinite time constant too, and fills nothing where the
delay does not count. -/
def InfiniteDelaysInert (df : Table n) : Prop :=
  ∀ i, safeCol parse df "execution_delay_ms" (const 0) i = posInf →
    safeCol parse df "latency_tau_ms" (const 180) i = posInf ∧
      replaceInf (fillEfficiency (safeCol parse df "requested_size" (const 1) i)
        (safeCol parse df "filled_size" (const 0) i) 0 (slippageError parse df i)) = 0

theorem delays_again_iff (hzero : exp 0 = 1) (hinfinite : exp negInf = 0) (hnan : exp nan = nan)
    (hdf : ¬df.Empty) :
    (written (latencyPenalty parse exp (generateExecutionFeatures parse exp df)) =
        written (latencyPenalty parse exp df) ∧
      written (fillEfficiencyScore parse exp (generateExecutionFeatures parse exp df)) =
        written (fillEfficiencyScore parse exp df)) ↔ InfiniteDelaysInert parse df := by
  rw [funext_iff, funext_iff, ← forall_and]
  refine forall_congr' fun i => ?_
  simp only [written, latencyPenalty, fillEfficiencyScore, delayPenalty,
    executionDelayMs_again parse exp hdf, slippageError_again]
  simp (disch := simp [featureColumns]) only [safeCol_other]
  have hdelay := safeCol_ne_nan parse (const_ne_nan zero_ne_nan) df "execution_delay_ms" i
  have htau := safeCol_ne_nan parse (const_ne_nan hundredEighty_ne_nan) df "latency_tau_ms" i
  rw [delay_again_iff exp hzero hinfinite hnan (executionDelayMs_finite_or parse df i)
    (le_clipLower htau (round_ne_nan _)), executionDelayMs,
    clipLower_eq_posInf_iff isFinite_zero, clipLower_eq_posInf_iff isFinite_twenty]

section Kept

variable (hzero : exp 0 = 1) (hinfinite : exp negInf = 0) (hnan : exp nan = nan)
include hzero hinfinite hnan

theorem kept_iff_settled_and_inert (hdf : ¬df.Empty) :
    Kept parse exp df ↔ Settled (velocityReading parse df) ∧ InfiniteDelaysInert parse df := by
  rw [kept_iff_three parse exp hdf, delays_again_iff parse exp hzero hinfinite hnan hdf,
    tradeVelocity_again parse exp hdf, ← score_again_iff]
  simp only [tradeVelocity, written_score]

/-- A table of so few rows depends on its infinite delays alone. -/
theorem kept_iff_inert_of_fewRows (hn : n < 39) (hdf : ¬df.Empty) :
    Kept parse exp df ↔ InfiniteDelaysInert parse df := by
  rw [kept_iff_settled_and_inert parse exp hzero hinfinite hnan hdf]
  exact and_iff_right (fewRows_settled hn _)

/-- And so does a table with the same velocity in all rows. -/
theorem kept_iff_inert_of_constant (hdf : ¬df.Empty) {v : F64}
    (hconstant : velocityReading parse df = const v) :
    Kept parse exp df ↔ InfiniteDelaysInert parse df := by
  rw [kept_iff_settled_and_inert parse exp hzero hinfinite hnan hdf, hconstant]
  exact and_iff_right (constant_settled v)

/-- Generating features twice is the same as once exactly if the table is empty or the scores of
its trade velocity are settled and its infinite delays inert. -/
theorem features_kept_iff (df : Table n) :
    Kept parse exp df ↔
      df.Empty ∨ Settled (velocityReading parse df) ∧ InfiniteDelaysInert parse df := by
  by_cases hdf : df.Empty
  · exact iff_of_true (kept_of_empty parse exp hdf) (.inl hdf)
  · rw [or_iff_right hdf]
    exact kept_iff_settled_and_inert parse exp hzero hinfinite hnan hdf

end Kept

/-- A row that was never executed, and never expected to be. -/
def unexecuted : Table 1 :=
  (Table.set "latency_tau_ms" (const posInf) ⟨∅⟩).set "execution_delay_ms" (const posInf)

theorem features_kept_iff_unexecuted :
    Kept (fun _ => nan) (fun v => if v = negInf then 0 else if v = nan then nan else 1)
      unexecuted := by
  refine (features_kept_iff _ _ (by decide +kernel) (by decide +kernel) (by decide +kernel)
    unexecuted).mpr (.inr ⟨fewRows_settled (by decide) _, fun i _ => ?_⟩)
  obtain rfl : i = 0 := Subsingleton.elim i 0
  decide +kernel

/-- A velocity that rises by one in every row. -/
def risingVelocity : Table 39 := Table.set "trade_velocity" (fun i => i.val) ⟨∅⟩

/-- Its last row is the first with a score, and that score does not rest. -/
theorem risingVelocity_not_kept : ¬ ∃ parse exp, Kept parse exp risingVelocity := by
  rintro ⟨parse, exp, hkept⟩
  have hdf : ¬ risingVelocity.Empty := by decide
  have hagain := ((kept_iff_three parse exp hdf).mp hkept).1
  rw [tradeVelocity_again parse exp hdf, tradeVelocity, written_score, written_score] at hagain
  have hreading : velocityReading parse risingVelocity = fun i => (i.val : F64) := by
    have hcolumn : risingVelocity.column "trade_velocity" =
        some fun i => .number (i.val : F64) := column_set_self _ _ _
    rw [velocityReading, safeCol_numbers parse hcolumn]
    exact funext fun i => fillna_of_ne (round_ne_nan _) _
  rw [hreading] at hagain
  exact absurd (congrFun hagain 38) (by decide +kernel)

end RealTimeTrading.ExecutionLearning.Floating
