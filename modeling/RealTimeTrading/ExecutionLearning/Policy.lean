/-
RealTimeTrading.ExecutionLearning.Policy — `policy.py`: how much risk the
learning side allows the trading side, from the scores of a table.

Translation notes. Survival probabilities that come from a model are
numbers. The text of a symbol, in capitals, is a parameter. What the policy
only passes on (the version, the training window, the model metrics) is left
out.

Some readings of a log can only make its scores worse. Where they are higher
the policy is never looser, in any of its parts (`policy_tightens`).
-/
import RealTimeTrading.ExecutionLearning.Columns
import Mathlib.Algebra.BigOperators.Group.List.Basic
import Mathlib.Algebra.Order.BigOperators.Group.List
import Mathlib.Data.List.Dedup
import Mathlib.Data.List.Forall2
import Mathlib.Tactic.Linarith
import Mathlib.Tactic.NormNum

namespace RealTimeTrading.ExecutionLearning

open Table

variable {n : Nat}

/-! ## Policies -/

inductive ExecutionMode where
  | passive
  | neutral
  | aggressive
  | defensive

structure PolicyBlockCondition where
  name : String
  condition : String

structure SymbolAdjustment where
  riskMultiplier : ℚ
  maxSizeAdjustmentFactor : ℚ
  aggressionLevel : ℚ
  preferredExecutionMode : ExecutionMode
  minSurvivalProbability : ℚ

structure ClusterPolicy where
  riskMultiplier : ℚ
  aggressionLevel : ℚ
  preferredExecutionMode : ExecutionMode

structure ExecutionPolicyUpdate where
  riskMultiplierByRegime : List (String × ℚ)
  maxSizeAdjustmentFactor : ℚ
  aggressionLevel : ℚ
  preferredExecutionMode : ExecutionMode
  blockConditions : List PolicyBlockCondition
  symbolAdjustments : List (String × SymbolAdjustment)
  clusterPolicy : List (String × ClusterPolicy)

def modeFromAggression (aggression : ℚ) : ExecutionMode :=
  if aggression ≤ 0.15 then .defensive
  else if aggression ≤ 0.40 then .passive
  else if 0.70 ≤ aggression then .aggressive
  else .neutral

def riskByRegime (riskBase : ℚ) : List (String × ℚ) :=
  [("NORMAL", riskBase),
    ("HIGH_VOLATILITY", clip (riskBase * 0.65) 0 1),
    ("NEWS_SHOCK", 0),
    ("LOW_LIQUIDITY", clip (riskBase * 0.35) 0 0.60),
    ("TREND_EXPANSION", clip (riskBase * 1.10) 0 1.20),
    ("HOSTILE_EXECUTION", 0)]

def defaultClusterPolicy (riskBase aggression : ℚ) : List (String × ClusterPolicy) :=
  [("HIGH_QUALITY_EXECUTION_REGIME", ⟨1.05, min 0.75 (aggression + 0.10), .neutral⟩),
    ("NEUTRAL_EXECUTION_REGIME", ⟨min 0.80 riskBase, min 0.50 aggression, .passive⟩),
    ("HOSTILE_EXECUTION_REGIME", ⟨0, 0, .defensive⟩)]

def blockConditions : List PolicyBlockCondition :=
  [⟨"competition_too_high", "competition_density_index >= 0.85"⟩,
    ⟨"inclusion_collapse", "inclusion_drift_score >= 0.75"⟩,
    ⟨"latency_edge_destroyed", "latency_penalty >= 0.80"⟩,
    ⟨"liquidity_collapse", "orderbook_depth_shock >= 0.80"⟩,
    ⟨"adverse_selection_dominant", "adverse_selection_probability >= 0.65"⟩,
    ⟨"negative_execution_survival", "survival_probability < min_survival_probability"⟩]

/-! ## From a table to its policy -/

/-- Zero where there is nothing, which is only asked for the survival of no rows. -/
def mean (values : List ℚ) : ℚ := values.sum / values.length

section Table

variable (parse : String → Option ℚ) (textOf : Cell → String) (df : Table n)
  (survivalProbability : Option (List ℚ)) (clusterSummary : List (String × ClusterPolicy))

def meanOver (name : String) (rows : List (Fin n)) : ℚ :=
  mean (rows.map (safeCol parse df name (const 0)))

/-- An empty table has the worst scores. -/
def average (name : String) : ℚ :=
  if df.Empty then 1 else meanOver parse df name (List.finRange n)

/-- The survival of each row, where no model gives it. -/
def estimatedSurvival : List ℚ := (List.finRange n).map fun i =>
  1 - (0.35 * safeCol parse df "competition_density_index" (const 0) i +
    0.25 * safeCol parse df "execution_fragility_index" (const 0) i +
    0.25 * safeCol parse df "market_microstructure_stress" (const 0) i +
    0.15 * safeCol parse df "latency_penalty" (const 0) i)

def survival : ℚ :=
  let given := survivalProbability.filter fun probabilities => probabilities.length = n
  clip01 (mean (given.getD (estimatedSurvival parse df)))

def riskBase : ℚ :=
  clip (0.25 + 0.75 * survival parse df survivalProbability -
    0.30 * average parse df "market_microstructure_stress" -
    0.25 * average parse df "competition_density_index" -
    0.20 * average parse df "execution_fragility_index") 0 1.15

def aggression : ℚ :=
  clip01 (0.20 + 0.75 * survival parse df survivalProbability -
    0.40 * average parse df "competition_density_index" -
    0.25 * average parse df "latency_penalty")

def symbolAdjustment (riskBase : ℚ) (subset : List (Fin n)) : SymbolAdjustment :=
  let symbolSurvival := clip01 (1 - meanOver parse df "market_microstructure_stress" subset)
  let symbolCompetition := meanOver parse df "competition_density_index" subset
  let symbolAggression := clip01 (0.25 + 0.70 * symbolSurvival - 0.35 * symbolCompetition)
  { riskMultiplier := clip (riskBase * (0.5 + 0.7 * symbolSurvival)) 0 1.2
    maxSizeAdjustmentFactor := clip01 (0.25 + 0.75 * symbolSurvival)
    aggressionLevel := symbolAggression
    preferredExecutionMode := modeFromAggression symbolAggression
    minSurvivalProbability := clip (0.55 + 0.20 * symbolCompetition) 0.55 0.80 }

/-- The symbols of the rows, each once and in order, but for the empty one. -/
def symbolsOf (column : Fin n → Cell) : List String :=
  (((List.finRange n).map fun i => textOf (column i)).dedup.insertionSort (· ≤ ·)).filter (· ≠ "")

def symbolAdjustments (riskBase : ℚ) : List (String × SymbolAdjustment) :=
  match df.column "symbol" with
  | none => []
  | some column => (symbolsOf textOf column).map fun symbol =>
    (symbol, symbolAdjustment parse df riskBase
      ((List.finRange n).filter fun i => textOf (column i) = symbol))

def policyOf : ExecutionPolicyUpdate :=
  let riskBase := riskBase parse df survivalProbability
  let aggression := aggression parse df survivalProbability
  { riskMultiplierByRegime := riskByRegime riskBase
    maxSizeAdjustmentFactor := clip01 riskBase
    aggressionLevel := aggression
    preferredExecutionMode := modeFromAggression aggression
    blockConditions := blockConditions
    symbolAdjustments := symbolAdjustments parse textOf df riskBase
    clusterPolicy :=
      if clusterSummary = [] then defaultClusterPolicy riskBase aggression else clusterSummary }

end Table

def buildPolicyUpdate (parse : String → Option ℚ) (exp : ℚ → ℚ) (textOf : Cell → String)
    (raw : Table n) (survivalProbability : Option (List ℚ))
    (clusterSummary : List (String × ClusterPolicy)) : ExecutionPolicyUpdate :=
  policyOf parse textOf (generateExecutionFeatures parse exp raw) survivalProbability clusterSummary

/-! ## Tighter policies -/

/-- How boldly orders are placed. -/
def ExecutionMode.rank : ExecutionMode → Nat
  | .defensive => 0
  | .passive => 1
  | .neutral => 2
  | .aggressive => 3

/-- The same names in the same order, with related values. -/
def Matched {A : Type} (R : A → A → Prop) : List (String × A) → List (String × A) → Prop :=
  List.Forall₂ fun x y => x.1 = y.1 ∧ R x.2 y.2

structure SymbolAdjustment.Tighter (p q : SymbolAdjustment) : Prop where
  risk : p.riskMultiplier ≤ q.riskMultiplier
  size : p.maxSizeAdjustmentFactor ≤ q.maxSizeAdjustmentFactor
  aggression : p.aggressionLevel ≤ q.aggressionLevel
  mode : p.preferredExecutionMode.rank ≤ q.preferredExecutionMode.rank
  survival : q.minSurvivalProbability ≤ p.minSurvivalProbability

structure ClusterPolicy.Tighter (p q : ClusterPolicy) : Prop where
  risk : p.riskMultiplier ≤ q.riskMultiplier
  aggression : p.aggressionLevel ≤ q.aggressionLevel
  mode : p.preferredExecutionMode.rank ≤ q.preferredExecutionMode.rank

/-- Whatever the first policy allows, the second allows too. -/
structure ExecutionPolicyUpdate.Tighter (p q : ExecutionPolicyUpdate) : Prop where
  risk : Matched (· ≤ ·) p.riskMultiplierByRegime q.riskMultiplierByRegime
  size : p.maxSizeAdjustmentFactor ≤ q.maxSizeAdjustmentFactor
  aggression : p.aggressionLevel ≤ q.aggressionLevel
  mode : p.preferredExecutionMode.rank ≤ q.preferredExecutionMode.rank
  blocks : p.blockConditions = q.blockConditions
  symbols : Matched SymbolAdjustment.Tighter p.symbolAdjustments q.symbolAdjustments
  clusters : Matched ClusterPolicy.Tighter p.clusterPolicy q.clusterPolicy

/-- The scores the policy is made from; the higher, the worse. -/
def scoreNames : List String :=
  ["market_microstructure_stress", "competition_density_index", "execution_fragility_index",
    "latency_penalty"]

/-- Row by row, the first table scores at least as badly as the second. -/
structure WorseScores (parse : String → Option ℚ) (df better : Table n) : Prop where
  empty : df.Empty ↔ better.Empty
  symbols : df.column "symbol" = better.column "symbol"
  scores : ∀ name ∈ scoreNames,
    safeCol parse better name (const 0) ≤ safeCol parse df name (const 0)

/-- The readings of a log that only make its scores worse where they are higher. -/
def harmful : List String :=
  ["spread_widening_score", "orderbook_depth_shock", "imbalance_shift_score",
    "volatility_spike_score", "mempool_pressure", "router_pool_clustering_density",
    "recent_execution_failure_rate", "outbid_rate", "recent_rejection_rate", "replace_rate",
    "partial_fill_rate", "execution_delay_ms"]

/-- The two logs differ in harmful readings only, and those are higher in the first. -/
structure Worse (parse : String → Option ℚ) (raw better : Table n) : Prop where
  empty : raw.Empty ↔ better.Empty
  same : ∀ name ∉ harmful, raw.column name = better.column name
  higher : ∀ name ∈ harmful,
    safeCol parse better name (const 0) ≤ safeCol parse raw name (const 0)

/-! ## What moves with what -/

theorem clip_mono {v w : ℚ} (h : v ≤ w) (lo hi : ℚ) : clip v lo hi ≤ clip w lo hi :=
  min_le_min_right hi (max_le_max_right lo h)

theorem clip01_mono {v w : ℚ} (h : v ≤ w) : clip01 v ≤ clip01 w := clip_mono h 0 1

theorem clip_nonneg {v hi : ℚ} (h : 0 ≤ hi) : 0 ≤ clip v 0 hi := le_min (le_max_right v 0) h

theorem mean_mono {A : Type} {l : List A} {f g : A → ℚ} (h : ∀ a ∈ l, f a ≤ g a) :
    mean (l.map f) ≤ mean (l.map g) := by
  unfold mean
  rw [List.length_map, List.length_map]
  exact div_le_div_of_nonneg_right (List.sum_le_sum h) (Nat.cast_nonneg _)

theorem rank_modeFromAggression_mono {v w : ℚ} (h : v ≤ w) :
    (modeFromAggression v).rank ≤ (modeFromAggression w).rank := by
  unfold modeFromAggression
  split_ifs <;> first | exact Nat.zero_le _ | (simp [ExecutionMode.rank]; done) | linarith

theorem Matched.refl {A : Type} {R : A → A → Prop} (h : ∀ a, R a a) (l : List (String × A)) :
    Matched R l l := List.forall₂_same.mpr fun x _ => ⟨rfl, h x.2⟩

theorem riskByRegime_mono {p q : ℚ} (h : p ≤ q) :
    Matched (· ≤ ·) (riskByRegime p) (riskByRegime q) := by
  have hscaled : ∀ {k : ℚ}, 0 ≤ k → p * k ≤ q * k := fun hk => mul_le_mul_of_nonneg_right h hk
  exact .cons ⟨rfl, h⟩ (.cons ⟨rfl, clip_mono (hscaled (by norm_num)) 0 1⟩
    (.cons ⟨rfl, le_rfl⟩ (.cons ⟨rfl, clip_mono (hscaled (by norm_num)) 0 0.60⟩
    (.cons ⟨rfl, clip_mono (hscaled (by norm_num)) 0 1.20⟩ (.cons ⟨rfl, le_rfl⟩ .nil)))))

theorem defaultClusterPolicy_mono {p q a b : ℚ} (hrisk : p ≤ q) (haggression : a ≤ b) :
    Matched ClusterPolicy.Tighter (defaultClusterPolicy p a) (defaultClusterPolicy q b) :=
  .cons ⟨rfl, le_rfl, min_le_min_left _ (add_le_add_left haggression _), le_rfl⟩
    (.cons ⟨rfl, min_le_min_left _ hrisk, min_le_min_left _ haggression, le_rfl⟩
    (.cons ⟨rfl, le_rfl, le_rfl, le_rfl⟩ .nil))

namespace WorseScores

variable {parse : String → Option ℚ} {df better : Table n}

theorem meanOver_le (h : WorseScores parse df better) (name : String) (hname : name ∈ scoreNames)
    (rows : List (Fin n)) :
    meanOver parse better name rows ≤ meanOver parse df name rows :=
  mean_mono fun i _ => h.scores name hname i

theorem average_le (h : WorseScores parse df better) (name : String) (hname : name ∈ scoreNames) :
    average parse better name ≤ average parse df name := by
  unfold average
  by_cases hempty : df.Empty
  · rw [if_pos hempty, if_pos (h.empty.mp hempty)]
  · rw [if_neg hempty, if_neg (mt h.empty.mpr hempty)]
    exact h.meanOver_le name hname _

theorem survival_le (h : WorseScores parse df better) (survivalProbability : Option (List ℚ)) :
    survival parse df survivalProbability ≤ survival parse better survivalProbability := by
  refine clip01_mono ?_
  cases survivalProbability.filter fun probabilities => probabilities.length = n with
  | some given => exact le_rfl
  | none =>
    refine mean_mono fun i _ => ?_
    have hstress := h.scores "market_microstructure_stress" (by decide) i
    have hcompetition := h.scores "competition_density_index" (by decide) i
    have hfragility := h.scores "execution_fragility_index" (by decide) i
    have hlatency := h.scores "latency_penalty" (by decide) i
    linarith

theorem riskBase_le (h : WorseScores parse df better) (survivalProbability : Option (List ℚ)) :
    riskBase parse df survivalProbability ≤ riskBase parse better survivalProbability := by
  have hsurvival := h.survival_le survivalProbability
  have hstress := h.average_le "market_microstructure_stress" (by decide)
  have hcompetition := h.average_le "competition_density_index" (by decide)
  have hfragility := h.average_le "execution_fragility_index" (by decide)
  exact clip_mono (by linarith) 0 1.15

theorem aggression_le (h : WorseScores parse df better) (survivalProbability : Option (List ℚ)) :
    aggression parse df survivalProbability ≤ aggression parse better survivalProbability := by
  have hsurvival := h.survival_le survivalProbability
  have hcompetition := h.average_le "competition_density_index" (by decide)
  have hlatency := h.average_le "latency_penalty" (by decide)
  exact clip01_mono (by linarith)

theorem symbolAdjustment_tighter (h : WorseScores parse df better) {p q : ℚ} (hp : 0 ≤ p)
    (hpq : p ≤ q) (subset : List (Fin n)) :
    (symbolAdjustment parse df p subset).Tighter (symbolAdjustment parse better q subset) := by
  have hstress := h.meanOver_le "market_microstructure_stress" (by decide) subset
  have hcompetition := h.meanOver_le "competition_density_index" (by decide) subset
  have hsurvival : clip01 (1 - meanOver parse df "market_microstructure_stress" subset) ≤
      clip01 (1 - meanOver parse better "market_microstructure_stress" subset) :=
    clip01_mono (by linarith)
  have hnonneg : 0 ≤ clip01 (1 - meanOver parse df "market_microstructure_stress" subset) :=
    clip_nonneg zero_le_one
  have haggression : (symbolAdjustment parse df p subset).aggressionLevel ≤
      (symbolAdjustment parse better q subset).aggressionLevel := clip01_mono (by linarith)
  constructor
  · exact clip_mono (mul_le_mul hpq (by linarith) (by linarith) (hp.trans hpq)) 0 1.2
  · exact clip01_mono (by linarith)
  · exact haggression
  · exact rank_modeFromAggression_mono haggression
  · exact clip_mono (by linarith) 0.55 0.80

theorem symbolAdjustments_tighter (h : WorseScores parse df better) (textOf : Cell → String)
    {p q : ℚ} (hp : 0 ≤ p) (hpq : p ≤ q) :
    Matched SymbolAdjustment.Tighter (symbolAdjustments parse textOf df p)
      (symbolAdjustments parse textOf better q) := by
  unfold symbolAdjustments
  rw [h.symbols]
  cases better.column "symbol" with
  | none => exact .nil
  | some column =>
    refine List.forall₂_map_left_iff.mpr (List.forall₂_map_right_iff.mpr ?_)
    exact List.forall₂_same.mpr fun symbol _ => ⟨rfl, h.symbolAdjustment_tighter hp hpq _⟩

end WorseScores

theorem policyOf_tighter {parse : String → Option ℚ} {df better : Table n}
    (h : WorseScores parse df better) (textOf : Cell → String)
    (survivalProbability : Option (List ℚ)) (clusterSummary : List (String × ClusterPolicy)) :
    (policyOf parse textOf df survivalProbability clusterSummary).Tighter
      (policyOf parse textOf better survivalProbability clusterSummary) := by
  have hrisk := h.riskBase_le survivalProbability
  have haggression := h.aggression_le survivalProbability
  have hnonneg : 0 ≤ riskBase parse df survivalProbability := clip_nonneg (by norm_num)
  constructor
  · exact riskByRegime_mono hrisk
  · exact clip01_mono hrisk
  · exact haggression
  · exact rank_modeFromAggression_mono haggression
  · rfl
  · exact h.symbolAdjustments_tighter textOf hnonneg hrisk
  · unfold policyOf
    dsimp only
    split
    · exact defaultClusterPolicy_mono hrisk haggression
    · exact Matched.refl (fun _ => ⟨le_rfl, le_rfl, le_rfl⟩) clusterSummary

/-! ## Worse logs -/

namespace Worse

variable {parse : String → Option ℚ} {exp : ℚ → ℚ} {raw better : Table n}

theorem clipped_le (h : Worse parse raw better) (name : String) (hname : name ∈ harmful)
    (i : Fin n) : clipped01 parse better name (const 0) i ≤ clipped01 parse raw name (const 0) i :=
  clip01_mono (h.higher name hname i)

theorem safeCol_same (h : Worse parse raw better) (name : String) (hname : name ∉ harmful)
    (default : Series n) : safeCol parse raw name default = safeCol parse better name default :=
  safeCol_congr parse (h.same name hname) default

theorem stress_le (h : Worse parse raw better) (i : Fin n) :
    marketMicrostructureStress parse better i ≤ marketMicrostructureStress parse raw i := by
  have hspread := h.clipped_le "spread_widening_score" (by decide) i
  have hdepth := h.clipped_le "orderbook_depth_shock" (by decide) i
  have himbalance := h.clipped_le "imbalance_shift_score" (by decide) i
  have hspike := h.clipped_le "volatility_spike_score" (by decide) i
  unfold marketMicrostructureStress orderbookDepthShock
  exact clip01_mono (by linarith)

theorem competition_le (h : Worse parse raw better) (i : Fin n) :
    competitionDensityIndex parse better i ≤ competitionDensityIndex parse raw i := by
  have hmempool := h.clipped_le "mempool_pressure" (by decide) i
  have hclustered := h.clipped_le "router_pool_clustering_density" (by decide) i
  have hrates := max_le_max (h.clipped_le "recent_execution_failure_rate" (by decide) i)
    (h.clipped_le "outbid_rate" (by decide) i)
  unfold competitionDensityIndex
  rw [h.safeCol_same "tx_arrival_rate" (by decide)]
  exact clip01_mono (by linarith)

theorem fragility_le (h : Worse parse raw better) (i : Fin n) :
    executionFragilityIndex parse better i ≤ executionFragilityIndex parse raw i := by
  have hreject := h.clipped_le "recent_rejection_rate" (by decide) i
  have hreplace := h.clipped_le "replace_rate" (by decide) i
  have hpartial := h.clipped_le "partial_fill_rate" (by decide) i
  unfold executionFragilityIndex
  rw [h.safeCol_same "execution_latency_jitter_ms" (by decide)]
  exact clip01_mono (by linarith)

/-- A longer delay decays further. -/
theorem latency_le (h : Worse parse raw better) (hexp : Monotone exp) (i : Fin n) :
    latencyPenalty parse exp better i ≤ latencyPenalty parse exp raw i := by
  have hdelay : executionDelayMs parse better i ≤ executionDelayMs parse raw i :=
    max_le_max_right 0 (h.higher "execution_delay_ms" (by decide) i)
  have htau : 0 ≤ max (safeCol parse better "latency_tau_ms" (const 180) i) 20 :=
    le_max_of_le_right (by norm_num)
  unfold latencyPenalty delayPenalty
  rw [h.safeCol_same "latency_tau_ms" (by decide)]
  exact clip01_mono (sub_le_sub_left
    (hexp (div_le_div_of_nonneg_right (neg_le_neg hdelay) htau)) 1)

/-- Nothing is read off an empty table. -/
theorem safeCol_empty (h : Worse parse raw better) (hraw : raw.Empty) (name : String)
    (default : Series n) : safeCol parse raw name default = safeCol parse better name default := by
  funext i
  rcases hraw with rfl | hnone
  · exact i.elim0
  rcases h.empty.mp (.inr hnone) with rfl | hnothing
  · exact i.elim0
  refine congrFun (safeCol_congr parse ?_ default) i
  rw [column, column, hnone, hnothing]

theorem scores (h : Worse parse raw better) (hexp : Monotone exp) :
    WorseScores parse (generateExecutionFeatures parse exp raw)
      (generateExecutionFeatures parse exp better) where
  empty := by rw [generate_empty_iff, generate_empty_iff, h.empty]
  symbols := by
    rw [column_other parse exp (by decide), column_other parse exp (by decide)]
    exact h.same "symbol" (by decide)
  scores := by
    by_cases hraw : raw.Empty
    · have hgenerated : generateExecutionFeatures parse exp raw = raw := if_pos hraw
      have hbetter : generateExecutionFeatures parse exp better = better :=
        if_pos (h.empty.mp hraw)
      rw [hgenerated, hbetter]
      exact fun name _ => (h.safeCol_empty hraw name (const 0)).ge
    · have hbetter : ¬better.Empty := mt h.empty.mpr hraw
      have hread : ∀ {name : String} {better' raw' : Series n},
          (name, better') ∈ features parse exp better → (name, raw') ∈ features parse exp raw →
          (∀ i, better' i ≤ raw' i) →
          safeCol parse (generateExecutionFeatures parse exp better) name (const 0) ≤
            safeCol parse (generateExecutionFeatures parse exp raw) name (const 0) := by
        intro name better' raw' hb hr hle
        rw [safeCol_feature parse exp hbetter hb, safeCol_feature parse exp hraw hr]
        exact hle
      refine List.forall_mem_cons.mpr ⟨?_, List.forall_mem_cons.mpr ⟨?_, List.forall_mem_cons.mpr
        ⟨?_, List.forall_mem_singleton.mpr ?_⟩⟩⟩
      · exact hread (by simp [features]) (by simp [features]) h.stress_le
      · exact hread (by simp [features]) (by simp [features]) h.competition_le
      · exact hread (by simp [features]) (by simp [features]) h.fragility_le
      · exact hread (by simp [features]) (by simp [features]) (h.latency_le hexp)

end Worse

/-- A log with worse readings never loosens the policy: in no regime, for no symbol and for no
cluster. -/
theorem policy_tightens (parse : String → Option ℚ) (exp : ℚ → ℚ) (hexp : Monotone exp)
    (textOf : Cell → String) (raw better : Table n) (survivalProbability : Option (List ℚ))
    (clusterSummary : List (String × ClusterPolicy)) (h : Worse parse raw better) :
    (buildPolicyUpdate parse exp textOf raw survivalProbability clusterSummary).Tighter
      (buildPolicyUpdate parse exp textOf better survivalProbability clusterSummary) := by
  unfold buildPolicyUpdate
  exact policyOf_tighter (h.scores hexp) textOf survivalProbability clusterSummary

/-- One log, without and with orders that were outbid. -/
def calmLog : Table 1 := ⟨AList.singleton "symbol" fun _ => .text "BTC"⟩

def outbidLog : Table 1 := calmLog.set "outbid_rate" (const 1)

theorem policy_tightens_outbid :
    (buildPolicyUpdate (fun _ => none) (fun x => 1 + x) (fun _ => "BTC") outbidLog none []).Tighter
      (buildPolicyUpdate (fun _ => none) (fun x => 1 + x) (fun _ => "BTC") calmLog none []) := by
  have hother : ∀ name ≠ "outbid_rate", outbidLog.column name = calmLog.column name :=
    fun name hname => column_set_of_ne hname (const 1) calmLog
  refine policy_tightens _ _ (fun x y h => add_le_add_right h 1) _ _ _ _ _
    ⟨iff_of_false (by decide) (by decide), fun name hname => hother name ?_, fun name hname => ?_⟩
  · rintro rfl
    exact hname (by decide)
  · by_cases houtbid : name = "outbid_rate"
    · subst houtbid
      have houtbid : safeCol (fun _ => none) outbidLog "outbid_rate" (const 0) = const 1 :=
        safeCol_numbers _ (column_set_self "outbid_rate" (const 1) calmLog) (const 0)
      rw [houtbid]
      exact fun _ => zero_le_one
    · exact (safeCol_congr _ (hother name houtbid) (const 0)).ge

end RealTimeTrading.ExecutionLearning
