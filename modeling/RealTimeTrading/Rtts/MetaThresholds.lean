/-
RealTimeTrading.Rtts.MetaThresholds — which executed intents have passed
the thresholds.

The rules of `MetaEngine.verdict` stand in three groups: those that skip
at once, two that wait (`Degraded`), and the thresholds with what follows
them. An intent that is told to wait is looked at again in the same state,
so the second look finds what the first did and lets it go unless its
adjusted value is negative (`confirm_self`). Hence one told to wait by the
middle group is executed with no threshold asked.
-/
import RealTimeTrading.Rtts.ForcedExit
import Mathlib.Data.List.Induction

namespace RealTimeTrading.Rtts.MetaEngine

/-! ## Groups of rules -/

/-- One of the two rules above the thresholds tells the intent to wait. -/
def Degraded (cfg : Config) (state : MetaState) (intent : OrderIntent) : Prop :=
  (intent.edgeState = .uncertain ∧ intent.edgeReliabilityScore < 0.55) ∨
    (intent.competitionState = .competitive ∧
      (thresholds cfg state intent).competition * 0.88 < CompetitionModel.score intent)

/-- The scores of a decision are beyond the thresholds. -/
structure Passes (thresholds : Thresholds) (decided : MetaDecision) : Prop where
  ev : thresholds.ev < decided.adjustedEv
  entryQuality : thresholds.entryQuality < decided.entryQuality
  competition : decided.competitionScore < thresholds.competition

section Rules

variable (c : Prop) [Decidable c] (reason : String) (rest : FinalDecision × String)

theorem skip_rule_execute :
    (if c then ((.skip, reason) : FinalDecision × String) else rest).1 = .execute ↔
      ¬ c ∧ rest.1 = .execute := by
  by_cases h : c <;> simp [h]

theorem wait_rule_execute :
    (if c then ((.wait, reason) : FinalDecision × String) else rest).1 = .execute ↔
      ¬ c ∧ rest.1 = .execute := by
  by_cases h : c <;> simp [h]

end Rules

variable {cfg : Config} {state : MetaState} {intent : OrderIntent}

/-- An intent that is executed at once was not degraded. -/
theorem not_degraded_of_execute (h : (verdict cfg state intent).1 = .execute) :
    ¬ Degraded cfg state intent := by
  unfold verdict at h
  simp only [skip_rule_execute, wait_rule_execute] at h
  obtain ⟨-, -, -, -, -, -, -, -, -, huncertain, hcompetitive, -⟩ := h
  exact not_or.mpr ⟨huncertain, hcompetitive⟩

/-- An intent that is not skipped was degraded or passes. -/
theorem Unskipped.degraded_or_passes (h : Unskipped cfg state intent) :
    Degraded cfg state intent ∨
      Passes (thresholds cfg state intent) (evaluate cfg state intent) := by
  rcases h.scores with huncertain | hcompetitive | ⟨hev, hquality, hcompetition⟩
  · exact Or.inl (Or.inl huncertain)
  · exact Or.inl (Or.inr hcompetitive)
  · exact Or.inr ⟨hev, hquality, hcompetition⟩

/-! ## The second look -/

theorem entryQuality_nonneg (cfg : Config) (state : MetaState) (intent : OrderIntent) :
    0 ≤ (evaluate cfg state intent).entryQuality := le_clamp zero_le_one

/-- Nothing has changed since the first look, so only the sign of the value decides. -/
theorem confirm_self (cfg : Config) (state : MetaState) (intent : OrderIntent) :
    (confirm (evaluate cfg state intent) (evaluate cfg state intent)).decision = .execute ↔
      0 ≤ (evaluate cfg state intent).adjustedEv := by
  have hquality := entryQuality_nonneg cfg state intent
  have hdecay : ((evaluate cfg state intent).adjustedEv <
        (evaluate cfg state intent).adjustedEv * 0.85 ∨
      (evaluate cfg state intent).entryQuality < (evaluate cfg state intent).entryQuality * 0.92 ∨
      (evaluate cfg state intent).competitionScore + 0.12 <
        (evaluate cfg state intent).competitionScore) ↔
      (evaluate cfg state intent).adjustedEv < 0 := by
    constructor
    · rintro (hev | hlower | hhigher)
      · linarith
      · linarith
      · linarith
    · exact fun hneg => Or.inl (by linarith)
  unfold confirm
  by_cases hneg : (evaluate cfg state intent).adjustedEv < 0
  · rw [if_pos (hdecay.mpr hneg)]
    exact iff_of_false (by simp) (not_le.mpr hneg)
  · rw [if_neg (mt hdecay.mp hneg)]
    exact iff_of_true rfl (not_lt.mp hneg)

/-- What `run` decides about an intent, after a second look if need be. -/
def decided (cfg : Config) (state : MetaState) (intent : OrderIntent) : MetaDecision :=
  if (evaluate cfg state intent).decision = .wait then
    confirm (evaluate cfg state intent) (evaluate cfg state intent)
  else evaluate cfg state intent

theorem decided_execute_iff :
    (decided cfg state intent).decision = .execute ↔
      Unskipped cfg state intent ∧
        ((evaluate cfg state intent).decision = .wait →
          0 ≤ (evaluate cfg state intent).adjustedEv) := by
  rw [← verdict_ne_skip_iff]
  have hverdict : (evaluate cfg state intent).decision = (verdict cfg state intent).1 := rfl
  unfold decided
  rw [← hverdict]
  cases hdecision : (evaluate cfg state intent).decision with
  | execute => simp [hdecision]
  | wait => simp [confirm_self]
  | skip => simp [hdecision]

/-- A second look keeps the scores. -/
theorem passes_decided_iff {thresholds : Thresholds} :
    Passes thresholds (decided cfg state intent) ↔
      Passes thresholds (evaluate cfg state intent) := by
  have hsame : (decided cfg state intent).adjustedEv = (evaluate cfg state intent).adjustedEv ∧
      (decided cfg state intent).entryQuality = (evaluate cfg state intent).entryQuality ∧
      (decided cfg state intent).competitionScore =
        (evaluate cfg state intent).competitionScore := by
    unfold decided confirm
    split_ifs <;> exact ⟨rfl, rfl, rfl⟩
  obtain ⟨hev, hquality, hcompetition⟩ := hsame
  constructor
  · rintro ⟨h₁, h₂, h₃⟩
    exact ⟨hev ▸ h₁, hquality ▸ h₂, hcompetition ▸ h₃⟩
  · rintro ⟨h₁, h₂, h₃⟩
    exact ⟨hev.symm ▸ h₁, hquality.symm ▸ h₂, hcompetition.symm ▸ h₃⟩

/-! ## Runs -/

/-- The state after a history of intents. -/
def after (cfg : Config) (history : List OrderIntent) : MetaState :=
  history.foldl (fun state intent => (handle cfg state intent).2) {}

theorem handle_forwards {out : OrderIntent} :
    (handle cfg state intent).1 = some out ↔
      (decided cfg state intent).decision = .execute ∧
        out = { intent with metaDecision := some (decided cfg state intent) } := by
  have hdecided : decided cfg state intent =
      if (evaluate cfg state intent).decision = .wait then
        confirm (evaluate cfg state intent) (evaluate cfg state intent)
      else evaluate cfg state intent := rfl
  unfold handle
  dsimp only
  rw [← hdecided]
  cases hdecision : (decided cfg state intent).decision with
  | execute => simp [eq_comm]
  | wait => simp
  | skip => simp

/-- What is passed on is marked executed, with scores beyond the thresholds. -/
def ForwardsPassing (cfg : Config) (state : MetaState) (intent : OrderIntent) : Prop :=
  ∀ out, (handle cfg state intent).1 = some out →
    ∃ decided, out.metaDecision = some decided ∧ decided.decision = .execute ∧
      Passes (thresholds cfg state intent) decided

/-- No rule skips the intent, a rule above the thresholds makes it wait, its
value is not negative, and some threshold would have stopped it. -/
structure SlipsThrough (cfg : Config) (state : MetaState) (intent : OrderIntent) : Prop where
  unskipped : Unskipped cfg state intent
  degraded : Degraded cfg state intent
  value : 0 ≤ (evResult intent).adjustedEv
  weak : ¬ ((thresholds cfg state intent).ev < (evResult intent).adjustedEv ∧
    (thresholds cfg state intent).entryQuality < EntryQuality.score intent ∧
    CompetitionModel.score intent < (thresholds cfg state intent).competition)

theorem SlipsThrough.not_passes (h : SlipsThrough cfg state intent) :
    ¬ Passes (thresholds cfg state intent) (evaluate cfg state intent) :=
  fun hpasses => h.weak ⟨hpasses.ev, hpasses.entryQuality, hpasses.competition⟩

theorem forwardsPassing_iff (cfg : Config) (state : MetaState) (intent : OrderIntent) :
    ForwardsPassing cfg state intent ↔ ¬ SlipsThrough cfg state intent := by
  constructor
  · intro hforwards hslips
    have hexecute : (decided cfg state intent).decision = .execute :=
      decided_execute_iff.mpr ⟨hslips.unskipped, fun _ => hslips.value⟩
    obtain ⟨d, hd, -, hpasses⟩ := hforwards _ (handle_forwards.mpr ⟨hexecute, rfl⟩)
    obtain rfl := Option.some.inj hd
    exact hslips.not_passes (passes_decided_iff.mp hpasses)
  · intro hslips out hout
    obtain ⟨hexecute, rfl⟩ := handle_forwards.mp hout
    obtain ⟨hunskipped, hvalue⟩ := decided_execute_iff.mp hexecute
    refine ⟨_, rfl, hexecute, passes_decided_iff.mpr ?_⟩
    rcases hunskipped.degraded_or_passes with hdegraded | hpasses
    · by_contra hweak
      have hwait : (evaluate cfg state intent).decision = .wait := by
        cases hdecision : (evaluate cfg state intent).decision with
        | execute => exact absurd hdegraded (not_degraded_of_execute hdecision)
        | wait => rfl
        | skip => exact absurd hdecision ((verdict_ne_skip_iff cfg state intent).mpr hunskipped)
      exact hslips ⟨hunskipped, hdegraded, hvalue hwait,
        fun ⟨hev, hquality, hcompetition⟩ => hweak ⟨hev, hquality, hcompetition⟩⟩
    · exact hpasses

end RealTimeTrading.Rtts.MetaEngine

namespace RealTimeTrading.Rtts.Desk

open MetaEngine

/-- A signal to enter on an edge in doubt. -/
def uncertainSignal : ScoredDecision :=
  { calmSignal with
    decision := .enterSmall
    score := 0.95
    edgeState := .uncertain
    edgeReliabilityScore := 0.5
    expectedSlippageBps := 0.5 }

/-- The entry `decide_order` answers it with. -/
def uncertainEntry : OrderIntent :=
  intent {} .buy (entrySize {} uncertainSignal) false uncertainSignal {}

end RealTimeTrading.Rtts.Desk
