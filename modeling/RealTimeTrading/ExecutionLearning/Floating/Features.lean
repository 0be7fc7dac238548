/-
RealTimeTrading.ExecutionLearning.Floating.Features — `features.py` in
floating point: bounded execution-quality features from structured logs.

Translation notes. A column of whole numbers is read as one of 64-bit
floating point. What `pd.to_numeric` makes of a text is a parameter, `parse`
(NaN where it makes nothing of it), and `np.exp` is another. A rolling median
takes an infinity for a missing value, as pandas does. Of the columns that
`generate_execution_features` has written it reads again only the slippage
error, as it wrote it, and in the last loop each one; so every feature is
read off the table it was given.
-/
import RealTimeTrading.Data.Binary64
import Mathlib.Data.Fintype.Basic
import Mathlib.Data.List.AList
import Mathlib.Data.List.FinRange
import Mathlib.Data.List.Sort

namespace RealTimeTrading.ExecutionLearning.Floating

open Data (F64)

/-! ## Tables -/

inductive Cell where
  | number (value : F64)
  | text (text : String)
  | missing

abbrev Series (n : Nat) : Type := Fin n → F64

/-- A data frame of `n` rows. -/
structure Table (n : Nat) where
  columns : AList fun _ : String => Fin n → Cell

variable {n : Nat}

namespace Table

/-- `df.empty`: one of the two axes has no length. -/
def Empty (df : Table n) : Prop := n = 0 ∨ df.columns = ∅

instance (df : Table n) : Decidable df.Empty :=
  decidable_of_iff (n = 0 ∨ df.columns.entries = [])
    (or_congr_right (AList.ext_iff (t := (∅ : AList fun _ : String => Fin n → Cell))).symm)

def column (name : String) (df : Table n) : Option (Fin n → Cell) := df.columns.lookup name

def set (name : String) (series : Series n) (df : Table n) : Table n :=
  ⟨df.columns.insert name fun i => .number (series i)⟩

end Table

/-! ## Arithmetic -/

def fillna (v default : F64) : F64 := if v = .nan then default else v

/-- `replace([np.inf, -np.inf], 0.0).fillna(0.0)`. -/
def replaceInf (v : F64) : F64 := fillna (if v = .posInf ∨ v = .negInf then 0 else v) 0

/-- `np.clip`, which leaves NaN as it is. -/
def clip (v lo hi : F64) : F64 := F64.clamp v lo hi

def clip01 (v : F64) : F64 := clip v 0 1

/-- `clip(lower=lo)`. -/
def clipLower (v lo : F64) : F64 := if v < lo then lo else v

/-- `np.maximum`. -/
def maximum (v w : F64) : F64 := if w = .nan then .nan else if v < w then w else v

/-- The mean of the two middle values where there is no single one. -/
def median (values : List F64) : F64 :=
  let sorted := values.insertionSort (· ≤ ·)
  let middle := sorted.length / 2
  if sorted.length % 2 = 1 then sorted.getD middle 0
  else (sorted.getD middle 0 + sorted.getD (middle - 1) 0) / 2

/-- The rows of the window that ends with this one. -/
def rows (window : Nat) (i : Fin n) : List (Fin n) :=
  (List.finRange n).filter fun j => j.val ≤ i.val ∧ i.val < j.val + window

/-- The values in the window that a rolling median is taken of. -/
def observed (window : Nat) (values : Series n) (i : Fin n) : List F64 :=
  ((rows window i).map values).filter F64.isFinite

/-- `rolling(window, min_periods=20).median()`. -/
def rollingMedian (window : Nat) (values : Series n) : Series n := fun i =>
  if 20 ≤ (observed window values i).length then median (observed window values i) else .nan

/-- Each value's distance from the rolling median at its own row. -/
def deviation (window : Nat) (values : Series n) : Series n := fun i =>
  F64.abs (values i - rollingMedian window values i)

/-- The series a score is taken of. -/
def filled (series : Series n) : Series n := fun i => fillna (series i) 0

def robustZ (window : Nat) (series : Series n) : Series n := fun i =>
  let mad := rollingMedian window (deviation window (filled series)) i
  replaceInf ((filled series i - rollingMedian window (filled series) i) / (1.4826 * mad + 1e-9))

def boundedFromZ (z : Series n) : Series n := fun i => clip01 ((z i / 3 + 1) * 0.5)

/-! ## Features -/

section Features

variable (parse : String → F64) (exp : F64 → F64) (df : Table n)

/-- `pd.to_numeric(..., errors="coerce")`. -/
def toNumeric : Cell → F64
  | .number value => value
  | .text text => parse text
  | .missing => .nan

def safeCol (name : String) (default : Series n) : Series n := fun i =>
  match df.column name with
  | some column => fillna (toNumeric parse (column i)) (default i)
  | none => default i

def const (v : F64) : Series n := fun _ => v

def clipped01 (name : String) (default : Series n) : Series n := fun i =>
  clip01 (safeCol parse df name default i)

def slippageError : Series n := fun i =>
  clip (safeCol parse df "realized_slippage_bps" (const 0) i -
    safeCol parse df "expected_slippage_bps" (const 0) i) (-100) 100

/-- `delay_ms.clip(lower=0.0)`. -/
def executionDelayMs : Series n := fun i =>
  clipLower (safeCol parse df "execution_delay_ms" (const 0) i) 0

def delayPenalty : Series n := fun i =>
  1 - exp (-executionDelayMs parse df i /
    clipLower (safeCol parse df "latency_tau_ms" (const 180) i) 20)

/-- Nothing was filled efficiently where nothing was requested. -/
def fillEfficiency (requested filled delayPenalty slippageError : F64) : F64 :=
  let rawFillEfficiency := fillna (filled / if requested = 0 then .nan else requested) 0
  let pricePenalty := clip01 (clipLower slippageError 0 / 25)
  clip01 (rawFillEfficiency * (1 - 0.5 * delayPenalty) * (1 - 0.5 * pricePenalty))

def fillEfficiencyScore : Series n := fun i =>
  fillEfficiency (safeCol parse df "requested_size" (const 1) i)
    (safeCol parse df "filled_size" (const 0) i) (delayPenalty parse exp df i)
    (slippageError parse df i)

def latencyPenalty : Series n := fun i => clip01 (delayPenalty parse exp df i)

def orderbookImbalanceMultilevel : Series n := fun i =>
  let imbalance :=
    if (df.column "orderbook_imbalance_multilevel").isSome then
      safeCol parse df "orderbook_imbalance_multilevel" (const 0) i
    else
      let bidVolume := safeCol parse df "bid_volume_total" (const 0) i
      let askVolume := safeCol parse df "ask_volume_total" (const 0) i
      let topBid := safeCol parse df "best_bid_volume" (const 0) i
      let topAsk := safeCol parse df "best_ask_volume" (const 0) i
      let depthImbalance := (bidVolume - askVolume) / (bidVolume + askVolume + 1e-9)
      let topImbalance := (topBid - topAsk) / (topBid + topAsk + 1e-9)
      0.65 * depthImbalance + 0.35 * topImbalance
  clip imbalance (-1) 1

/-- The reading that is normalised in place. -/
def velocityReading : Series n :=
  safeCol parse df "trade_velocity" (safeCol parse df "trade_frequency" (const 0))

def tradeVelocity : Series n := boundedFromZ (robustZ 200 (velocityReading parse df))

def volatilityMicroSpike : Series n :=
  clipped01 parse df "volatility_micro_spike" (safeCol parse df "volatility_spike_score" (const 0))

def snapshotStalenessScore : Series n := fun i =>
  let stalenessMs :=
    safeCol parse df "snapshot_staleness_ms" (safeCol parse df "data_latency_ms" (const 0)) i
  let staleTau := clipLower (safeCol parse df "staleness_tau_ms" (const 120) i) 10
  clip01 (1 - exp (-clipLower stalenessMs 0 / staleTau))

def fillProbabilityEstimate : Series n :=
  clipped01 parse df "fill_probability_estimate" (safeCol parse df "fill_probability" (const 0.5))

def competitionDensityIndex : Series n := fun i =>
  let burst := boundedFromZ (robustZ 200 (safeCol parse df "tx_arrival_rate" (const 0))) i
  let clustered := clipped01 parse df "router_pool_clustering_density" (const 0) i
  let failRate := clipped01 parse df "recent_execution_failure_rate" (const 0) i
  let outbidRate := clipped01 parse df "outbid_rate" (const 0) i
  clip01 (0.35 * clipped01 parse df "mempool_pressure" (const 0) i + 0.25 * burst +
    0.20 * clustered + 0.20 * maximum failRate outbidRate)

def executionFragilityIndex : Series n := fun i =>
  let rejectRate := clipped01 parse df "recent_rejection_rate" (const 0) i
  let replaceRate := clipped01 parse df "replace_rate" (const 0) i
  let partialRate := clipped01 parse df "partial_fill_rate" (const 0) i
  let latencyJitter :=
    boundedFromZ (robustZ 200 (safeCol parse df "execution_latency_jitter_ms" (const 0))) i
  clip01 (0.30 * rejectRate + 0.20 * replaceRate + 0.20 * partialRate + 0.30 * latencyJitter)

def inclusionDriftScore : Series n := fun i =>
  clip01 (clipped01 parse df "historical_inclusion_rate" (const 1) i -
    clipped01 parse df "recent_inclusion_rate" (const 1) i)

def orderbookDepthShock : Series n := clipped01 parse df "orderbook_depth_shock" (const 0)

def marketMicrostructureStress : Series n := fun i =>
  let spreadWidening := clipped01 parse df "spread_widening_score" (const 0) i
  let imbalanceShift := clipped01 parse df "imbalance_shift_score" (const 0) i
  let volSpike := clipped01 parse df "volatility_spike_score" (const 0) i
  clip01 (0.30 * spreadWidening + 0.30 * orderbookDepthShock parse df i +
    0.20 * imbalanceShift + 0.20 * volSpike)

def regimeInstabilityScore : Series n :=
  boundedFromZ (robustZ 100 (safeCol parse df "regime_transition_count" (const 0)))

def spreadChangeRate : Series n := clipped01 parse df "spread_change_rate" (const 0)

def adverseSelectionScore : Series n := fun i =>
  let adverse := -1 * (0.65 * safeCol parse df "markout_100ms" (const 0) i +
    0.35 * safeCol parse df "markout_500ms" (const 0) i)
  clip01 (clipLower adverse 0 /
    clipLower (safeCol parse df "adverse_markout_scale" (const 10) i) 1e-9)

def mempoolPressure : Series n := clipped01 parse df "mempool_pressure" (const 0)

def competitionDensity : Series n := clipped01 parse df "competition_density" (const 0)

def volatilityRegimeScore : Series n := clipped01 parse df "volatility_regime_score" (const 0.5)

/-- What `generate_execution_features` writes, under the names of `FEATURE_COLUMNS`. -/
def features : List (String × Series n) :=
  [("slippage_error", slippageError parse df),
    ("fill_efficiency_score", fillEfficiencyScore parse exp df),
    ("latency_penalty", latencyPenalty parse exp df),
    ("orderbook_imbalance_multilevel", orderbookImbalanceMultilevel parse df),
    ("trade_velocity", tradeVelocity parse df),
    ("volatility_micro_spike", volatilityMicroSpike parse df),
    ("snapshot_staleness_score", snapshotStalenessScore parse exp df),
    ("fill_probability_estimate", fillProbabilityEstimate parse df),
    ("competition_density_index", competitionDensityIndex parse df),
    ("execution_fragility_index", executionFragilityIndex parse df),
    ("inclusion_drift_score", inclusionDriftScore parse df),
    ("market_microstructure_stress", marketMicrostructureStress parse df),
    ("regime_instability_score", regimeInstabilityScore parse df),
    ("orderbook_depth_shock", orderbookDepthShock parse df),
    ("spread_change_rate", spreadChangeRate parse df),
    ("adverse_selection_score", adverseSelectionScore parse df),
    ("mempool_pressure", mempoolPressure parse df),
    ("competition_density", competitionDensity parse df),
    ("execution_delay_ms", executionDelayMs parse df),
    ("volatility_regime_score", volatilityRegimeScore parse df)]

def featureColumns : List String :=
  ["slippage_error", "fill_efficiency_score", "latency_penalty", "orderbook_imbalance_multilevel",
    "trade_velocity", "volatility_micro_spike", "snapshot_staleness_score",
    "fill_probability_estimate", "competition_density_index", "execution_fragility_index",
    "inclusion_drift_score", "market_microstructure_stress", "regime_instability_score",
    "orderbook_depth_shock", "spread_change_rate", "adverse_selection_score", "mempool_pressure",
    "competition_density", "execution_delay_ms", "volatility_regime_score"]

/-- The last loop: each feature is a column of finite numbers. -/
def coerce (df : Table n) : Table n :=
  featureColumns.foldl
    (fun out name => out.set name fun i => replaceInf (safeCol parse out name (const 0) i)) df

def generateExecutionFeatures : Table n :=
  if df.Empty then df
  else coerce parse ((features parse exp df).foldl (fun out f => out.set f.1 f.2) df)

end Features

end RealTimeTrading.ExecutionLearning.Floating
