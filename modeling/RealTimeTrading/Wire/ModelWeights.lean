/-
RealTimeTrading.Wire.ModelWeights — the file of model weights.

`export_rtts_weights.py` writes its defaults with some overrides merged
into them; `model_weights.rs` reads the file when the trading loop starts,
and refuses it if a weight is missing, no number, or negative. Numbers are
finite: what Python writes for the others is no JSON.

Every override that fits comes through, and everything else is as the
trading loop has it by default (`load_export_iff`). What one side writes of
its own weights is read back as it was (`load_encode_iff`).
-/
import RealTimeTrading.Data.Documents
import RealTimeTrading.Rtts.Scoring.EntryScoring

namespace RealTimeTrading.Wire

open Data (Document)
open Data.Document
open Rtts (ReversalClassifierWeights EntryScoringWeights)

/-! ## export_rtts_weights.py -/

def defaultReversalClassifier : Fields :=
  [("movement_drop_pct", .float 0.45), ("movement_velocity", .float 0.35),
    ("movement_volume_burst", .float 0.20), ("intent_exhaustion", .float 0.25),
    ("intent_weak_signal", .float 0.20), ("intent_absorption", .float 0.20),
    ("intent_timing", .float 0.20), ("intent_liquidity_ok", .float 0.15),
    ("trigger_observation_bonus", .float 0.15), ("continuation_directionality", .float 0.35),
    ("continuation_momentum", .float 0.25), ("continuation_imbalance", .float 0.20),
    ("continuation_aggression", .float 0.20), ("ready_bias_threshold", .float 0.55)]

def defaultEntryScoring : Fields :=
  [("reversal_probability", .float 0.40), ("intent_score", .float 0.20),
    ("trigger_edge", .float 0.15), ("reversal_edge", .float 0.10),
    ("edge_reliability", .float 0.15), ("min_enter_score", .float 0.58),
    ("min_enter_confidence", .float 0.52), ("min_wait_probability", .float 0.45)]

/-- `now` is the text of the instant. -/
def defaultRttsWeights (now : String) : Fields :=
  [("version", .int 1), ("generated_at", .str now), ("source", .str "python-export-default"),
    ("reversal_classifier", .obj defaultReversalClassifier),
    ("entry_scoring", .obj defaultEntryScoring)]

/-- What is written to the file; no overrides are an empty object. -/
def exportRttsWeights (now : String) (overrides : Fields) : Document :=
  .obj (deepMerge (defaultRttsWeights now) overrides)

/-! ## model_weights.rs -/

/-- The whole of `RuntimeModelWeights`. -/
structure ModelWeights extends Rtts.RuntimeModelWeights where
  version : Nat := 1
  generatedAt : String := "static-default"
  source : String := "rtts-default"

def classifierNames : List String :=
  ["movement_drop_pct", "movement_velocity", "movement_volume_burst", "intent_exhaustion",
    "intent_weak_signal", "intent_absorption", "intent_timing", "intent_liquidity_ok",
    "trigger_observation_bonus", "continuation_directionality", "continuation_momentum",
    "continuation_imbalance", "continuation_aggression", "ready_bias_threshold"]

def scoringNames : List String :=
  ["reversal_probability", "intent_score", "trigger_edge", "reversal_edge", "edge_reliability",
    "min_enter_score", "min_enter_confidence", "min_wait_probability"]

def decodeReversalClassifier (d : Document) : Option ReversalClassifierWeights := do
  match ← numbersOf classifierNames d with
  | [movementDropPct, movementVelocity, movementVolumeBurst, intentExhaustion, intentWeakSignal,
      intentAbsorption, intentTiming, intentLiquidityOk, triggerObservationBonus,
      continuationDirectionality, continuationMomentum, continuationImbalance,
      continuationAggression, readyBiasThreshold] =>
    some ⟨movementDropPct, movementVelocity, movementVolumeBurst, intentExhaustion,
      intentWeakSignal, intentAbsorption, intentTiming, intentLiquidityOk,
      triggerObservationBonus, continuationDirectionality, continuationMomentum,
      continuationImbalance, continuationAggression, readyBiasThreshold⟩
  | _ => none

def decodeEntryScoring (d : Document) : Option EntryScoringWeights := do
  match ← numbersOf scoringNames d with
  | [reversalProbability, intentScore, triggerEdge, reversalEdge, edgeReliability, minEnterScore,
      minEnterConfidence, minWaitProbability] =>
    some ⟨reversalProbability, intentScore, triggerEdge, reversalEdge, edgeReliability,
      minEnterScore, minEnterConfidence, minWaitProbability⟩
  | _ => none

def ModelWeights.decode (d : Document) : Option ModelWeights := do
  let fields ← members
    ["version", "generated_at", "source", "reversal_classifier", "entry_scoring"] d
  let version ← member (asNat (2 ^ 32)) fields "version"
  let generatedAt ← member asStr fields "generated_at"
  let source ← member asStr fields "source"
  let reversalClassifier ← member decodeReversalClassifier fields "reversal_classifier"
  let entryScoring ← member decodeEntryScoring fields "entry_scoring"
  return { version, generatedAt, source, reversalClassifier, entryScoring }

/-- All but the threshold, which is not looked at. -/
def checkedClassifier (c : ReversalClassifierWeights) : List ℚ :=
  [c.movementDropPct, c.movementVelocity, c.movementVolumeBurst, c.intentExhaustion,
    c.intentWeakSignal, c.intentAbsorption, c.intentTiming, c.intentLiquidityOk,
    c.triggerObservationBonus, c.continuationDirectionality, c.continuationMomentum,
    c.continuationImbalance, c.continuationAggression]

def checkedScoring (e : EntryScoringWeights) : List ℚ :=
  [e.reversalProbability, e.intentScore, e.triggerEdge, e.reversalEdge, e.edgeReliability,
    e.minEnterScore, e.minEnterConfidence, e.minWaitProbability]

def validate (weights : ModelWeights) : Except String Unit :=
  if weights.version = 0 then .error "version must be >= 1"
  else if (checkedClassifier weights.reversalClassifier).any (· < 0) then
    .error "classifier weights must be finite and non-negative"
  else if (checkedScoring weights.entryScoring).any (· < 0) then
    .error "entry scoring weights must be finite and non-negative"
  else .ok ()

def encodeReversalClassifier (c : ReversalClassifierWeights) : Document :=
  .obj [("movement_drop_pct", .float c.movementDropPct),
    ("movement_velocity", .float c.movementVelocity),
    ("movement_volume_burst", .float c.movementVolumeBurst),
    ("intent_exhaustion", .float c.intentExhaustion),
    ("intent_weak_signal", .float c.intentWeakSignal),
    ("intent_absorption", .float c.intentAbsorption), ("intent_timing", .float c.intentTiming),
    ("intent_liquidity_ok", .float c.intentLiquidityOk),
    ("trigger_observation_bonus", .float c.triggerObservationBonus),
    ("continuation_directionality", .float c.continuationDirectionality),
    ("continuation_momentum", .float c.continuationMomentum),
    ("continuation_imbalance", .float c.continuationImbalance),
    ("continuation_aggression", .float c.continuationAggression),
    ("ready_bias_threshold", .float c.readyBiasThreshold)]

def encodeEntryScoring (e : EntryScoringWeights) : Document :=
  .obj [("reversal_probability", .float e.reversalProbability),
    ("intent_score", .float e.intentScore), ("trigger_edge", .float e.triggerEdge),
    ("reversal_edge", .float e.reversalEdge), ("edge_reliability", .float e.edgeReliability),
    ("min_enter_score", .float e.minEnterScore),
    ("min_enter_confidence", .float e.minEnterConfidence),
    ("min_wait_probability", .float e.minWaitProbability)]

def encodedFields (weights : ModelWeights) : Fields :=
  [("version", .int weights.version), ("generated_at", .str weights.generatedAt),
    ("source", .str weights.source),
    ("reversal_classifier", encodeReversalClassifier weights.reversalClassifier),
    ("entry_scoring", encodeEntryScoring weights.entryScoring)]

/-- What `write_default_template` writes of the defaults. -/
def ModelWeights.encode (weights : ModelWeights) : Document := .obj (encodedFields weights)

/-- A file that cannot be read is `none`, and so is a text that is no JSON. The errors are
those of the function itself, the outermost first. -/
def loadFromPath (path : String) (file : Option (Option Document)) :
    Except (List String) ModelWeights :=
  match file with
  | none => .error ["failed to read model weights from " ++ path]
  | some text =>
    match text.bind ModelWeights.decode with
    | none => .error ["failed to parse model weights JSON " ++ path]
    | some parsed =>
      match validate parsed with
      | .error message => .error ["invalid model weights " ++ path, message]
      | .ok () => .ok parsed

/-! ## Overrides -/

/-- Each key once, at both levels. -/
structure Dict (overrides : Fields) : Prop where
  keys : (overrides.map Prod.fst).Nodup
  nested : ∀ name updates, overrides.lookup name = some (.obj updates) →
    (updates.map Prod.fst).Nodup

def patchedClassifier (updates : Fields) : ReversalClassifierWeights where
  movementDropPct := patched updates "movement_drop_pct" 0.45
  movementVelocity := patched updates "movement_velocity" 0.35
  movementVolumeBurst := patched updates "movement_volume_burst" 0.20
  intentExhaustion := patched updates "intent_exhaustion" 0.25
  intentWeakSignal := patched updates "intent_weak_signal" 0.20
  intentAbsorption := patched updates "intent_absorption" 0.20
  intentTiming := patched updates "intent_timing" 0.20
  intentLiquidityOk := patched updates "intent_liquidity_ok" 0.15
  triggerObservationBonus := patched updates "trigger_observation_bonus" 0.15
  continuationDirectionality := patched updates "continuation_directionality" 0.35
  continuationMomentum := patched updates "continuation_momentum" 0.25
  continuationImbalance := patched updates "continuation_imbalance" 0.20
  continuationAggression := patched updates "continuation_aggression" 0.20
  readyBiasThreshold := patched updates "ready_bias_threshold" 0.55

def patchedScoring (updates : Fields) : EntryScoringWeights where
  reversalProbability := patched updates "reversal_probability" 0.40
  intentScore := patched updates "intent_score" 0.20
  triggerEdge := patched updates "trigger_edge" 0.15
  reversalEdge := patched updates "reversal_edge" 0.10
  edgeReliability := patched updates "edge_reliability" 0.15
  minEnterScore := patched updates "min_enter_score" 0.58
  minEnterConfidence := patched updates "min_enter_confidence" 0.52
  minWaitProbability := patched updates "min_wait_probability" 0.45

/-- The number a default says. -/
def numberIn (defaults : Fields) (name : String) : ℚ := (member asFloat defaults name).getD 0

theorem lookup_defaultReversalClassifier : ∀ name ∈ classifierNames,
    defaultReversalClassifier.lookup name =
      some (.float (numberIn defaultReversalClassifier name)) := by
  simp only [classifierNames, List.forall_mem_cons]
  refine ⟨rfl, rfl, rfl, rfl, rfl, rfl, rfl, rfl, rfl, rfl, rfl, rfl, rfl, rfl, ?_⟩
  exact fun _ h => absurd h List.not_mem_nil

theorem lookup_defaultEntryScoring : ∀ name ∈ scoringNames,
    defaultEntryScoring.lookup name = some (.float (numberIn defaultEntryScoring name)) := by
  simp only [scoringNames, List.forall_mem_cons]
  exact ⟨rfl, rfl, rfl, rfl, rfl, rfl, rfl, rfl, fun _ h => absurd h List.not_mem_nil⟩

theorem decodeReversalClassifier_iff {value : Option Document} {c : ReversalClassifierWeights}
    (hkeys : ∀ updates, value = some (.obj updates) → (updates.map Prod.fst).Nodup) :
    decodeReversalClassifier (updatedRecord defaultReversalClassifier value) = some c ↔
      ∃ updates, updatesOf classifierNames value = some updates ∧
        Numeric classifierNames updates ∧ c = patchedClassifier updates := by
  have hnumbers := fun numbers =>
    @numbersOf_updatedRecord_iff _ _ _ _ numbers lookup_defaultReversalClassifier hkeys
  unfold decodeReversalClassifier
  rw [Option.bind_eq_bind, Option.bind_eq_some_iff]
  constructor
  · rintro ⟨numbers, hread, hmade⟩
    obtain ⟨updates, hupdates, hnumeric, rfl⟩ := (hnumbers numbers).mp hread
    exact ⟨updates, hupdates, hnumeric, (Option.some.inj hmade).symm⟩
  · rintro ⟨updates, hupdates, hnumeric, rfl⟩
    exact ⟨_, (hnumbers _).mpr ⟨updates, hupdates, hnumeric, rfl⟩, rfl⟩

theorem decodeEntryScoring_iff {value : Option Document} {e : EntryScoringWeights}
    (hkeys : ∀ updates, value = some (.obj updates) → (updates.map Prod.fst).Nodup) :
    decodeEntryScoring (updatedRecord defaultEntryScoring value) = some e ↔
      ∃ updates, updatesOf scoringNames value = some updates ∧
        Numeric scoringNames updates ∧ e = patchedScoring updates := by
  have hnumbers := fun numbers =>
    @numbersOf_updatedRecord_iff _ _ _ _ numbers lookup_defaultEntryScoring hkeys
  unfold decodeEntryScoring
  rw [Option.bind_eq_bind, Option.bind_eq_some_iff]
  constructor
  · rintro ⟨numbers, hread, hmade⟩
    obtain ⟨updates, hupdates, hnumeric, rfl⟩ := (hnumbers numbers).mp hread
    exact ⟨updates, hupdates, hnumeric, (Option.some.inj hmade).symm⟩
  · rintro ⟨updates, hupdates, hnumeric, rfl⟩
    exact ⟨_, (hnumbers _).mpr ⟨updates, hupdates, hnumeric, rfl⟩, rfl⟩

/-! ## What comes through -/

/-- What the overrides of a section say, when they are read. -/
def classifierUpdates (overrides : Fields) : Option Fields :=
  updatesOf classifierNames (overrides.lookup "reversal_classifier")

def scoringUpdates (overrides : Fields) : Option Fields :=
  updatesOf scoringNames (overrides.lookup "entry_scoring")

/-- None of these members is said to be negative. -/
def Nonnegative (names : List String) (updates : Fields) : Prop :=
  ∀ name ∈ names, ∀ q, member asFloat updates name = some q → 0 ≤ q

/-- The overrides the trading loop takes. -/
structure Fits (overrides : Fields) : Prop where
  version : ∀ value, overrides.lookup "version" = some value →
    ∃ n, asNat (2 ^ 32) value = some n ∧ n ≠ 0
  generatedAt : ∀ value, overrides.lookup "generated_at" = some value → (asStr value).isSome
  source : ∀ value, overrides.lookup "source" = some value → (asStr value).isSome
  reversalClassifier : ∃ updates, classifierUpdates overrides = some updates ∧
    Numeric classifierNames updates ∧
    Nonnegative (classifierNames.filter (· ≠ "ready_bias_threshold")) updates
  entryScoring : ∃ updates, scoringUpdates overrides = some updates ∧
    Numeric scoringNames updates ∧ Nonnegative scoringNames updates

/-- The defaults, with the overrides in their places. -/
def patchedWeights (now : String) (overrides : Fields) : ModelWeights where
  version := (member (asNat (2 ^ 32)) overrides "version").getD 1
  generatedAt := (member asStr overrides "generated_at").getD now
  source := (member asStr overrides "source").getD "python-export-default"
  reversalClassifier := patchedClassifier ((classifierUpdates overrides).getD [])
  entryScoring := patchedScoring ((scoringUpdates overrides).getD [])

/-- The overrides can be read, whatever they say. -/
structure Legible (overrides : Fields) : Prop where
  version : ∀ value, overrides.lookup "version" = some value → (asNat (2 ^ 32) value).isSome
  generatedAt : ∀ value, overrides.lookup "generated_at" = some value → (asStr value).isSome
  source : ∀ value, overrides.lookup "source" = some value → (asStr value).isSome
  reversalClassifier : ∃ updates, classifierUpdates overrides = some updates ∧
    Numeric classifierNames updates
  entryScoring : ∃ updates, scoringUpdates overrides = some updates ∧
    Numeric scoringNames updates

section Export

variable {overrides : Fields} {now : String}

/-- A section is read out of the file as its defaults, updated. -/
theorem member_section {α : Type} (read : Document → Option α) {name : String} {base : Fields}
    (hdict : Dict overrides) (hbase : (defaultRttsWeights now).lookup name = some (.obj base)) :
    member read (deepMerge (defaultRttsWeights now) overrides) name =
      read (updatedRecord base (overrides.lookup name)) := by
  rw [member, lookup_deepMerge hdict.keys, hbase]
  cases overrides.lookup name with
  | none => rfl
  | some value => rfl

theorem decode_export_iff (hdict : Dict overrides) (w : ModelWeights) :
    ModelWeights.decode (exportRttsWeights now overrides) = some w ↔
      Legible overrides ∧ w = patchedWeights now overrides := by
  have hversion : member (asNat (2 ^ 32)) (deepMerge (defaultRttsWeights now) overrides) "version" =
      (overrides.lookup "version").elim (some 1) (asNat (2 ^ 32)) :=
    member_deepMerge _ hdict.keys
      (show (defaultRttsWeights now).lookup "version" = some (.int 1) from rfl) nofun
  have hinstant : member asStr (deepMerge (defaultRttsWeights now) overrides) "generated_at" =
      (overrides.lookup "generated_at").elim (some now) asStr :=
    member_deepMerge _ hdict.keys
      (show (defaultRttsWeights now).lookup "generated_at" = some (.str now) from rfl) nofun
  have hsource : member asStr (deepMerge (defaultRttsWeights now) overrides) "source" =
      (overrides.lookup "source").elim (some "python-export-default") asStr :=
    member_deepMerge _ hdict.keys
      (show (defaultRttsWeights now).lookup "source" = some (.str "python-export-default") from rfl)
      nofun
  have hclassifier : member decodeReversalClassifier
      (deepMerge (defaultRttsWeights now) overrides) "reversal_classifier" = _ :=
    member_section _ hdict (show (defaultRttsWeights now).lookup "reversal_classifier" =
      some (.obj defaultReversalClassifier) from rfl)
  have hscoring : member decodeEntryScoring
      (deepMerge (defaultRttsWeights now) overrides) "entry_scoring" = _ :=
    member_section _ hdict (show (defaultRttsWeights now).lookup "entry_scoring" =
      some (.obj defaultEntryScoring) from rfl)
  have hmembers : ∀ names, members names (exportRttsWeights now overrides) =
      some (deepMerge (defaultRttsWeights now) overrides) := fun names => rfl
  unfold ModelWeights.decode
  rw [hmembers]
  simp only [hversion, hinstant, hsource, hclassifier, hscoring, Option.bind_eq_bind,
    Option.bind_some, Option.bind_eq_some_iff, elim_eq_some_iff,
    decodeReversalClassifier_iff (hdict.nested "reversal_classifier"),
    decodeEntryScoring_iff (hdict.nested "entry_scoring")]
  constructor
  · rintro ⟨_, ⟨hnumber, rfl⟩, _, ⟨hgenerated, rfl⟩, _, ⟨htext, rfl⟩, _, ⟨updates, hupdates,
      hnumeric, rfl⟩, _, ⟨updates', hupdates', hnumeric', rfl⟩, hmade⟩
    refine ⟨⟨hnumber, hgenerated, htext, ⟨updates, hupdates, hnumeric⟩,
      ⟨updates', hupdates', hnumeric'⟩⟩, ?_⟩
    rw [patchedWeights, classifierUpdates, scoringUpdates, hupdates, hupdates']
    exact (Option.some.inj hmade).symm
  · rintro ⟨hlegible, rfl⟩
    obtain ⟨updates, hupdates, hnumeric⟩ := hlegible.reversalClassifier
    obtain ⟨updates', hupdates', hnumeric'⟩ := hlegible.entryScoring
    refine ⟨_, ⟨hlegible.version, rfl⟩, _, ⟨hlegible.generatedAt, rfl⟩, _,
      ⟨hlegible.source, rfl⟩, _, ⟨updates, hupdates, hnumeric, rfl⟩, _,
      ⟨updates', hupdates', hnumeric', rfl⟩, ?_⟩
    rw [patchedWeights, hupdates, hupdates']
    rfl

/-- The weights that are checked are those of the names but for the threshold. -/
theorem checkedClassifier_patched (updates : Fields) :
    checkedClassifier (patchedClassifier updates) =
      (classifierNames.filter (· ≠ "ready_bias_threshold")).map fun name =>
        patched updates name (numberIn defaultReversalClassifier name) := rfl

theorem checkedScoring_patched (updates : Fields) :
    checkedScoring (patchedScoring updates) =
      scoringNames.map fun name => patched updates name (numberIn defaultEntryScoring name) := rfl

/-- No patched number is negative if none is said to be. -/
theorem any_negative_iff {names : List String} {defaults updates : Fields}
    (hdefaults : ∀ name ∈ names, 0 ≤ numberIn defaults name) :
    ((names.map fun name => patched updates name (numberIn defaults name)).any (· < 0)) = true ↔
      ¬ Nonnegative names updates := by
  have hnames : Nonnegative names updates ↔
      ∀ name ∈ names, 0 ≤ patched updates name (numberIn defaults name) :=
    forall₂_congr fun name hname => (patched_nonneg_iff (hdefaults name hname)).symm
  rw [hnames]
  simp

theorem validate_eq_ok_iff (w : ModelWeights) :
    validate w = .ok () ↔ w.version ≠ 0 ∧
      ¬ (checkedClassifier w.reversalClassifier).any (· < 0) = true ∧
      ¬ (checkedScoring w.entryScoring).any (· < 0) = true := by
  unfold validate
  constructor
  · intro h
    split_ifs at h with hversion hclassifier hscoring
    exact ⟨hversion, hclassifier, hscoring⟩
  · rintro ⟨hversion, hclassifier, hscoring⟩
    rw [if_neg hversion, if_neg hclassifier, if_neg hscoring]

theorem version_patched_iff (hlegible : Legible overrides) :
    (patchedWeights now overrides).version ≠ 0 ↔
      ∀ value, overrides.lookup "version" = some value →
        ∃ n, asNat (2 ^ 32) value = some n ∧ n ≠ 0 := by
  show (member (asNat (2 ^ 32)) overrides "version").getD 1 ≠ 0 ↔ _
  rw [member]
  cases hsaid : overrides.lookup "version" with
  | none =>
    refine iff_of_true one_ne_zero fun _ hvalue => ?_
    cases hvalue
  | some value =>
    obtain ⟨n, hn⟩ := Option.isSome_iff_exists.mp (hlegible.version value hsaid)
    rw [Option.bind_some, hn, Option.getD_some]
    constructor
    · intro hne _ hvalue
      exact Option.some.inj hvalue ▸ ⟨n, hn, hne⟩
    · intro h
      obtain ⟨m, hm, hne⟩ := h value rfl
      exact Option.some.inj (hm.symm.trans hn) ▸ hne

theorem fits_iff (hlegible : Legible overrides) :
    Fits overrides ↔ validate (patchedWeights now overrides) = .ok () := by
  obtain ⟨updates, hupdates, hnumeric⟩ := hlegible.reversalClassifier
  obtain ⟨updates', hupdates', hnumeric'⟩ := hlegible.entryScoring
  have hclassifier : (patchedWeights now overrides).reversalClassifier =
      patchedClassifier updates := by rw [patchedWeights, hupdates, Option.getD_some]
  have hscoring : (patchedWeights now overrides).entryScoring = patchedScoring updates' := by
    rw [patchedWeights, hupdates', Option.getD_some]
  rw [validate_eq_ok_iff, version_patched_iff hlegible, hclassifier, hscoring,
    checkedClassifier_patched, checkedScoring_patched, any_negative_iff (by decide +kernel),
    any_negative_iff (by decide +kernel), not_not, not_not]
  constructor
  · intro h
    obtain ⟨said, hsaid, -, hnonnegative⟩ := h.reversalClassifier
    obtain ⟨said', hsaid', -, hnonnegative'⟩ := h.entryScoring
    rw [hupdates] at hsaid
    rw [hupdates'] at hsaid'
    exact ⟨h.version, Option.some.inj hsaid ▸ hnonnegative, Option.some.inj hsaid' ▸ hnonnegative'⟩
  · rintro ⟨hversion, hnonnegative, hnonnegative'⟩
    exact ⟨hversion, hlegible.generatedAt, hlegible.source,
      ⟨updates, hupdates, hnumeric, hnonnegative⟩, ⟨updates', hupdates', hnumeric', hnonnegative'⟩⟩

theorem Fits.legible (h : Fits overrides) : Legible overrides where
  version value hvalue := by
    obtain ⟨n, hn, -⟩ := h.version value hvalue
    rw [hn]
    rfl
  generatedAt := h.generatedAt
  source := h.source
  reversalClassifier := by
    obtain ⟨updates, hupdates, hnumeric, -⟩ := h.reversalClassifier
    exact ⟨updates, hupdates, hnumeric⟩
  entryScoring := by
    obtain ⟨updates, hupdates, hnumeric, -⟩ := h.entryScoring
    exact ⟨updates, hupdates, hnumeric⟩

/-- A file is taken if it is read and its weights are valid. -/
theorem loadFromPath_eq_ok_iff (path : String) (d : Document) (w : ModelWeights) :
    loadFromPath path (some (some d)) = .ok w ↔
      ModelWeights.decode d = some w ∧ validate w = .ok () := by
  unfold loadFromPath
  dsimp only [Option.bind_some]
  cases ModelWeights.decode d with
  | none => exact iff_of_false nofun (fun h => nomatch h.1)
  | some parsed =>
    dsimp only
    constructor
    · intro h
      split at h
      · cases h
      · rename_i hvalid
        obtain rfl := Except.ok.inj h
        exact ⟨rfl, hvalid⟩
    · rintro ⟨hparsed, hvalid⟩
      obtain rfl := Option.some.inj hparsed
      rw [hvalid]

/-- The file is taken exactly if the overrides fit, and then its weights are the defaults of
the trading loop with the overrides in their places. -/
theorem load_export_iff (path now : String) (overrides : Fields) (hdict : Dict overrides)
    (w : ModelWeights) :
    loadFromPath path (some (some (exportRttsWeights now overrides))) = .ok w ↔
      Fits overrides ∧ w = patchedWeights now overrides := by
  rw [loadFromPath_eq_ok_iff, decode_export_iff hdict]
  constructor
  · rintro ⟨⟨hlegible, rfl⟩, hvalid⟩
    exact ⟨(fits_iff hlegible).mpr hvalid, rfl⟩
  · rintro ⟨hfits, rfl⟩
    exact ⟨⟨hfits.legible, rfl⟩, (fits_iff hfits.legible).mp hfits⟩

/-- The two sides have the same defaults. -/
example : (patchedWeights now []).toRuntimeModelWeights = {} := rfl

end Export

theorem decode_encode (w : ModelWeights) (hversion : w.version < 2 ^ 32) :
    ModelWeights.decode (ModelWeights.encode w) = some w := by
  have hmembers : ∀ names, members names (ModelWeights.encode w) = some (encodedFields w) :=
    fun _ => rfl
  have hnumber : member (asNat (2 ^ 32)) (encodedFields w) "version" = some w.version := by
    rw [member, show (encodedFields w).lookup "version" = some (.int w.version) from rfl,
      Option.bind_some]
    exact asNat_natCast hversion
  have hgeneratedAt : member asStr (encodedFields w) "generated_at" = some w.generatedAt := rfl
  have hsource : member asStr (encodedFields w) "source" = some w.source := rfl
  have hclassifier : member decodeReversalClassifier (encodedFields w) "reversal_classifier" =
      some w.reversalClassifier := rfl
  have hscoring : member decodeEntryScoring (encodedFields w) "entry_scoring" =
      some w.entryScoring := rfl
  unfold ModelWeights.decode
  rw [hmembers, Option.bind_eq_bind, Option.bind_some, hnumber, Option.bind_eq_bind,
    Option.bind_some, hgeneratedAt, Option.bind_eq_bind, Option.bind_some, hsource,
    Option.bind_eq_bind, Option.bind_some, hclassifier, Option.bind_eq_bind, Option.bind_some,
    hscoring, Option.bind_some]
  rfl

/-- Weights the trading loop writes are read back as they were, unless they are refused. -/
theorem load_encode_iff (path : String) (w : ModelWeights) (hversion : w.version < 2 ^ 32) :
    loadFromPath path (some (some (ModelWeights.encode w))) = .ok w ↔ validate w = .ok () := by
  rw [loadFromPath_eq_ok_iff, decode_encode w hversion]
  exact and_iff_right rfl

/-! ## Some overrides -/

/-- A section in part, a new key, and another section as an array. -/
def retrained : Fields :=
  [("source", .str "retrained"), ("notes", .obj [("by", .null)]),
    ("reversal_classifier",
      .obj [("movement_velocity", .int 1), ("ready_bias_threshold", .float (-0.5))]),
    ("entry_scoring", .arr [.float 0.4, .float 0.2, .float 0.1, .float 0.1, .float 0.2, .float 0.6,
      .float 0.5, .float 0.4])]

theorem dict_retrained : Dict retrained where
  keys := by decide
  nested := by
    intro name updates h
    obtain ⟨first, second, hsplit, -⟩ := List.lookup_eq_some_iff.mp h
    have hmem : (name, Document.obj updates) ∈ retrained := by
      rw [hsplit]
      exact List.mem_append_right _ List.mem_cons_self
    simp only [retrained, List.mem_cons, Prod.mk.injEq, reduceCtorEq, and_false, obj.injEq,
      List.not_mem_nil, or_false, false_or] at hmem
    obtain ⟨-, rfl⟩ | ⟨-, rfl⟩ := hmem
    · decide
    · decide

theorem nonnegative_of_patched {names : List String} {updates : Fields}
    (h : ∀ name ∈ names, 0 ≤ patched updates name 0) : Nonnegative names updates :=
  fun name hname => (patched_nonneg_iff le_rfl).mp (h name hname)

theorem fits_retrained : Fits retrained where
  version := nofun
  generatedAt := nofun
  source := by
    rintro _ ⟨⟩
    rfl
  reversalClassifier := by
    refine ⟨_, rfl, ?_, nonnegative_of_patched (by decide +kernel)⟩
    simp [Numeric, classifierNames, List.lookup_cons, asFloat]
  entryScoring := by
    refine ⟨_, rfl, ?_, nonnegative_of_patched (by decide +kernel)⟩
    simp [Numeric, scoringNames, List.lookup_cons, asFloat]

theorem load_export_retrained :
    loadFromPath "weights" (some (some (exportRttsWeights "now" retrained))) =
      .ok (patchedWeights "now" retrained) :=
  (load_export_iff "weights" "now" retrained dict_retrained _).mpr ⟨fits_retrained, rfl⟩

end RealTimeTrading.Wire
