/-
RealTimeTrading.Rtts.SlippageValue — what an intent is worth falls as its
expected slippage grows.

Each outcome's value falls with the slippage and the reversal's is the
least of the three. The slippage raises the reversal's probability and
lowers the two others, also where they are clamped: what the chop gives up
is never more than what the reversal takes (`add_clamp_sub_mono`).
-/
import RealTimeTrading.Data.Sums
import RealTimeTrading.Rtts.ForcedExit
import Mathlib.Tactic.Linarith
import Mathlib.Tactic.Positivity

namespace RealTimeTrading.Rtts

open Data

/-! ## Clamps -/

section Clamp

variable {lo hi : ℚ}

theorem clamp_mono (h : lo ≤ hi) {v w : ℚ} (hle : v ≤ w) : clamp v lo hi ≤ clamp w lo hi := by
  unfold clamp
  split_ifs <;> linarith [h, hle]

/-- A share that is clamped gives up no more than the other takes. -/
theorem add_clamp_sub_mono (whole : ℚ) {v w : ℚ} (hle : v ≤ w) :
    v + clamp (whole - v) lo hi ≤ w + clamp (whole - w) lo hi := by
  unfold clamp
  split_ifs <;> linarith

end Clamp

/-! ## Shares -/

instance : Fintype ScenarioType where
  elems := {.continuation, .reversal, .chop}
  complete scenario := by cases scenario <;> decide

theorem sum_scenarios (f : ScenarioType → ℚ) :
    ∑ scenario, f scenario = f .continuation + f .reversal + f .chop := by
  simp [Finset.univ, Fintype.elems, add_assoc]

namespace ScenarioSimulator

/-- Each part as a share of all three. -/
def shares (continuation reversal chop : ℚ) : ScenarioType → ℚ
  | .continuation => continuation / (continuation + reversal + chop)
  | .reversal => reversal / (continuation + reversal + chop)
  | .chop => chop / (continuation + reversal + chop)

section Shares

variable {c r r' h h' : ℚ}

theorem shares_nonneg (hc : 0 < c) (hr : 0 < r) (hh : 0 < h) (scenario : ScenarioType) :
    0 ≤ shares c r h scenario := by
  cases scenario <;> simp only [shares] <;> positivity

theorem sum_shares (hc : 0 < c) (hr : 0 < r) (hh : 0 < h) :
    ∑ scenario, shares c r h scenario = 1 := by
  have htotal : 0 < c + r + h := by positivity
  rw [sum_scenarios]
  simp only [shares]
  rw [← add_div, ← add_div, div_self htotal.ne']

/-- As the reversal's part grows, the share of each other part falls. -/
theorem shares_le (hc : 0 < c) (hr : 0 < r) (hh' : 0 < h') (hchop : h' ≤ h)
    (htotal : r + h ≤ r' + h') (scenario : ScenarioType) (hother : scenario ≠ .reversal) :
    shares c r' h' scenario ≤ shares c r h scenario := by
  have hpos : 0 < c + r + h := by linarith
  have hle : c + r + h ≤ c + r' + h' := by linarith
  cases scenario with
  | continuation => exact div_le_div_of_nonneg_left hc.le hpos hle
  | reversal => exact absurd rfl hother
  | chop => exact div_le_div₀ (hh'.le.trans hchop) hchop hpos hle

end Shares

/-! ## Parts and outcomes -/

variable (intent : OrderIntent)

def continuationPart : ℚ :=
  clamp (0.34 + intent.score * 0.38 + intent.urgency * 0.10 -
    (intent.regime.volatility * 0.08 + intent.regime.spread * 0.015 +
      contextNoise intent.context.regime + (1 - intent.context.stabilityScore) * 0.12) -
    intent.dataLatencyMs * 0.0004) 0.05 0.82

def reversalPart (slippage : ℚ) : ℚ :=
  clamp (0.18 + (1 - intent.score) * 0.28 + intent.regime.volatility * 0.06 + slippage * 0.012)
    0.05 0.75

def chopPart (slippage : ℚ) : ℚ :=
  clamp (1 - continuationPart intent - reversalPart intent slippage) 0.05 0.75

def edgeBps : ℚ := max (intent.score - 0.5) 0 * 18

def durationPenalty : ℚ := min (intent.expectedDurationMs / 1000 : ℚ) 1.5

def scaleMultiplier : ℚ := if intent.reason = .scaleIn then 1.25 else 1

/-- What each outcome is worth. -/
def pnl (slippage : ℚ) : ScenarioType → ℚ
  | .continuation =>
    notional intent * (edgeBps intent - slippage) / 10000 * scaleMultiplier intent
  | .reversal => -notional intent * max (edgeBps intent * 0.70 + slippage * 1.8 + 4) 2 / 10000
  | .chop => -notional intent * (slippage + 1 + durationPenalty intent) / 10000

def risk (slippage : ℚ) : ScenarioType → ℚ
  | .continuation => notional intent * (slippage + 1) / 10000
  | .reversal => notional intent * max (edgeBps intent * 0.70 + slippage * 1.8 + 4) 2 / 10000
  | .chop => notional intent * (slippage + 1 + durationPenalty intent) / 10000

/-- The same intent, at this slippage. -/
def withSlippage (slippage : ℚ) : OrderIntent := { intent with expectedSlippageBps := slippage }

def probability (slippage : ℚ) : ScenarioType → ℚ :=
  shares (continuationPart intent) (reversalPart intent slippage) (chopPart intent slippage)

theorem simulate_withSlippage (slippage : ℚ) :
    simulate (withSlippage intent slippage) =
      [ScenarioType.continuation, .reversal, .chop].map fun scenario =>
        { name := scenario
          probability := probability intent slippage scenario
          expectedPnl := pnl intent slippage scenario
          risk := risk intent slippage scenario } := rfl

section Parts

variable {intent : OrderIntent} {s s' : ℚ}

theorem continuationPart_pos : 0 < continuationPart intent :=
  lt_of_lt_of_le (by norm_num) (le_clamp (by norm_num))

theorem reversalPart_pos (s : ℚ) : 0 < reversalPart intent s :=
  lt_of_lt_of_le (by norm_num) (le_clamp (by norm_num))

theorem chopPart_pos (s : ℚ) : 0 < chopPart intent s :=
  lt_of_lt_of_le (by norm_num) (le_clamp (by norm_num))

theorem reversalPart_mono (intent : OrderIntent) (h : s ≤ s') :
    reversalPart intent s ≤ reversalPart intent s' :=
  clamp_mono (by norm_num) (by linarith)

theorem chopPart_antitone (h : s ≤ s') : chopPart intent s' ≤ chopPart intent s :=
  clamp_mono (by norm_num) (by linarith [reversalPart_mono intent h])

theorem reversalPart_add_chopPart_mono (h : s ≤ s') :
    reversalPart intent s + chopPart intent s ≤ reversalPart intent s' + chopPart intent s' :=
  add_clamp_sub_mono _ (reversalPart_mono intent h)

theorem probability_nonneg (s : ℚ) (scenario : ScenarioType) : 0 ≤ probability intent s scenario :=
  shares_nonneg continuationPart_pos (reversalPart_pos s) (chopPart_pos s) scenario

theorem sum_probability (s : ℚ) : ∑ scenario, probability intent s scenario = 1 :=
  sum_shares continuationPart_pos (reversalPart_pos s) (chopPart_pos s)

theorem probability_antitone (h : s ≤ s') (scenario : ScenarioType)
    (hother : scenario ≠ .reversal) :
    probability intent s' scenario ≤ probability intent s scenario :=
  shares_le continuationPart_pos (reversalPart_pos s) (chopPart_pos s') (chopPart_antitone h)
    (reversalPart_add_chopPart_mono h) scenario hother

end Parts

section Outcomes

variable {intent : OrderIntent} {s s' : ℚ}

theorem edgeBps_nonneg (intent : OrderIntent) : 0 ≤ edgeBps intent :=
  mul_nonneg (le_max_right _ _) (by norm_num)

theorem durationPenalty_le (intent : OrderIntent) : durationPenalty intent ≤ 1.5 :=
  min_le_right _ _

theorem scaleMultiplier_mem (intent : OrderIntent) :
    1 ≤ scaleMultiplier intent ∧ scaleMultiplier intent ≤ 1.25 := by
  unfold scaleMultiplier
  split_ifs <;> norm_num

/-- What the reversal costs grows with the slippage. -/
theorem reversalLoss_mono (intent : OrderIntent) (h : s ≤ s') :
    max (edgeBps intent * 0.70 + s * 1.8 + 4) 2 ≤ max (edgeBps intent * 0.70 + s' * 1.8 + 4) 2 :=
  max_le_max_right 2 (by linarith)

theorem scaled_mono (hnotional : 0 ≤ notional intent) {a b : ℚ} (h : a ≤ b) :
    notional intent * a / 10000 ≤ notional intent * b / 10000 :=
  div_le_div_of_nonneg_right (mul_le_mul_of_nonneg_left h hnotional) (by norm_num)

theorem pnl_antitone (hnotional : 0 ≤ notional intent) (h : s ≤ s') (scenario : ScenarioType) :
    pnl intent s' scenario ≤ pnl intent s scenario := by
  cases scenario with
  | continuation =>
    have hmultiplier : 0 ≤ scaleMultiplier intent :=
      zero_le_one.trans (scaleMultiplier_mem intent).1
    have hedge : edgeBps intent - s' ≤ edgeBps intent - s := sub_le_sub_left h _
    exact mul_le_mul_of_nonneg_right (scaled_mono hnotional hedge) hmultiplier
  | reversal =>
    have hloss := scaled_mono hnotional (reversalLoss_mono intent h)
    simp only [pnl]
    linarith
  | chop =>
    have hcost : s + 1 + durationPenalty intent ≤ s' + 1 + durationPenalty intent := by linarith
    have hloss := scaled_mono hnotional hcost
    simp only [pnl]
    linarith

theorem risk_mono (hnotional : 0 ≤ notional intent) (h : s ≤ s') (scenario : ScenarioType) :
    risk intent s scenario ≤ risk intent s' scenario := by
  cases scenario with
  | continuation => exact scaled_mono hnotional (by linarith)
  | reversal => exact scaled_mono hnotional (reversalLoss_mono intent h)
  | chop => exact scaled_mono hnotional (by linarith)

/-- A reversal is worth the least. -/
theorem reversal_le_pnl (hnotional : 0 ≤ notional intent) (hs : 0 ≤ s) (scenario : ScenarioType) :
    pnl intent s .reversal ≤ pnl intent s scenario := by
  have hedge := edgeBps_nonneg intent
  have hloss : edgeBps intent * 0.70 + s * 1.8 + 4 ≤ max (edgeBps intent * 0.70 + s * 1.8 + 4) 2 :=
    le_max_left _ _
  cases scenario with
  | continuation =>
    obtain ⟨hlow, hhigh⟩ := scaleMultiplier_mem intent
    -- The loss is more than the slippage times any multiplier.
    have hgain : 0 ≤ edgeBps intent * scaleMultiplier intent :=
      mul_nonneg hedge (zero_le_one.trans hlow)
    have hcost : s * scaleMultiplier intent ≤ s * 1.25 := mul_le_mul_of_nonneg_left hhigh hs
    have hworst : -max (edgeBps intent * 0.70 + s * 1.8 + 4) 2 ≤
        (edgeBps intent - s) * scaleMultiplier intent := by
      rw [sub_mul]
      linarith
    calc pnl intent s .reversal
        = notional intent * -max (edgeBps intent * 0.70 + s * 1.8 + 4) 2 / 10000 := by
          simp only [pnl]
          ring
      _ ≤ notional intent * ((edgeBps intent - s) * scaleMultiplier intent) / 10000 :=
          scaled_mono hnotional hworst
      _ = pnl intent s .continuation := by
          simp only [pnl]
          ring
  | reversal => exact le_rfl
  | chop =>
    have hduration := durationPenalty_le intent
    have hcost : s + 1 + durationPenalty intent ≤ max (edgeBps intent * 0.70 + s * 1.8 + 4) 2 := by
      linarith
    have hscaled := scaled_mono hnotional hcost
    simp only [pnl]
    linarith

end Outcomes

end ScenarioSimulator

/-! ## The value of an intent -/

namespace EvCalculator

open ScenarioSimulator

variable {intent : OrderIntent} {s s' : ℚ}

theorem ev_withSlippage (intent : OrderIntent) (s : ℚ) :
    (MetaEngine.evResult (withSlippage intent s)).ev =
      ∑ scenario, probability intent s scenario * pnl intent s scenario := by
  have hsum : (MetaEngine.evResult (withSlippage intent s)).ev =
      ((simulate (withSlippage intent s)).map fun scenario =>
        scenario.probability * scenario.expectedPnl).sum := rfl
  rw [hsum, simulate_withSlippage, sum_scenarios]
  simp [add_assoc]

/-- The worst case is a loss that falls below zero in some outcome. -/
theorem worstCaseLoss_withSlippage (intent : OrderIntent) (s : ℚ) :
    (MetaEngine.evResult (withSlippage intent s)).worstCaseLoss =
      |min (min (min 0 (pnl intent s .continuation - risk intent s .continuation))
        (pnl intent s .reversal - risk intent s .reversal))
        (pnl intent s .chop - risk intent s .chop)| := rfl

theorem ev_antitone (hs : 0 ≤ s) (h : s ≤ s') (hnotional : 0 ≤ notional intent) :
    (MetaEngine.evResult (withSlippage intent s')).ev ≤
      (MetaEngine.evResult (withSlippage intent s)).ev := by
  rw [ev_withSlippage, ev_withSlippage]
  refine sum_mul_le_of_transfer .reversal (reversal_le_pnl hnotional hs) (probability_nonneg s')
    (pnl_antitone hnotional h) ?_ (probability_antitone h)
  rw [sum_probability, sum_probability]

/-- With more slippage an intent is worth less and can lose more. -/
theorem slippage_lowers_value (intent : OrderIntent) {s s' : ℚ} (hs : 0 ≤ s) (h : s ≤ s')
    (hnotional : 0 ≤ notional intent) :
    (MetaEngine.evResult (withSlippage intent s')).adjustedEv ≤
        (MetaEngine.evResult (withSlippage intent s)).adjustedEv ∧
      (MetaEngine.evResult (withSlippage intent s)).worstCaseLoss ≤
        (MetaEngine.evResult (withSlippage intent s')).worstCaseLoss := by
  constructor
  · have hev := ev_antitone hs h hnotional
    have hcost : notional intent * s / 10000 ≤ notional intent * s' / 10000 :=
      scaled_mono hnotional h
    have hadjusted : ∀ s, (MetaEngine.evResult (withSlippage intent s)).adjustedEv =
        (MetaEngine.evResult (withSlippage intent s)).ev - notional intent * s / 10000 -
          notional intent * min ((intent.dataLatencyMs : ℚ) * 0.002) 8 / 10000 := fun _ => rfl
    rw [hadjusted, hadjusted]
    linarith
  · have hloss : ∀ scenario, pnl intent s' scenario - risk intent s' scenario ≤
        pnl intent s scenario - risk intent s scenario := fun scenario =>
      sub_le_sub (pnl_antitone hnotional h scenario) (risk_mono hnotional h scenario)
    rw [worstCaseLoss_withSlippage, worstCaseLoss_withSlippage,
      abs_of_nonpos (by simp), abs_of_nonpos (by simp)]
    exact neg_le_neg (min_le_min (min_le_min (min_le_min le_rfl (hloss _)) (hloss _)) (hloss _))

def calmEntry : OrderIntent := Rtts.intent {} .buy 1 false Desk.calmSignal {}

/-- The reversal's part grows up to its bound, and the chop's falls to the lower one. -/
theorem slippage_lowers_calmEntry :
    (MetaEngine.evResult (withSlippage calmEntry 60)).adjustedEv ≤
        (MetaEngine.evResult (withSlippage calmEntry 1)).adjustedEv ∧
      (MetaEngine.evResult (withSlippage calmEntry 1)).worstCaseLoss ≤
        (MetaEngine.evResult (withSlippage calmEntry 60)).worstCaseLoss :=
  slippage_lowers_value calmEntry (by norm_num) (by norm_num) (by decide +kernel)

end EvCalculator

end RealTimeTrading.Rtts
