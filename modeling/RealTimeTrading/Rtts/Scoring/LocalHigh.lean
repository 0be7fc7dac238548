/-
RealTimeTrading.Rtts.Scoring.LocalHigh — the local high of the trigger engine
does not decay.

`observe` takes the largest of the old high, the price and the decayed high,
and the old high is never below the decayed one, so without a reset the high
is the largest price so far (`localHigh_eq_peak`). That is what a decaying
high would be only as long as the last price is the largest.
-/
import RealTimeTrading.Rtts.Scoring.TriggerRuns

namespace RealTimeTrading.Rtts.TriggerEngine

open RealTimeTrading.Concurrency RealTimeTrading.Data

/-! ## The high without a reset -/

/-- The frame takes the branch that starts the high over. -/
def Resets (engine : TriggerEngine) (frame : MicrostructureFrame) : Prop :=
  ∃ price, usablePrice frame = some price ∧ engine.armed price = true ∧
    confirmReversal frame engine.previousSellPressure = false ∧
    ¬engine.computedDrop price < engine.dropThreshold * 0.35 ∧
    engine.resetThreshold ≤ engine.computedDrop price

variable {engine : TriggerEngine} {frame : MicrostructureFrame} {price : ℚ}

theorem localHigh_of_not_resets (hprice : usablePrice frame = some price)
    (h : ¬Resets engine frame) :
    (engine.observe frame).2.state.localHigh = engine.raisedHigh price := by
  rw [observe_usable hprice]
  show (engine.settled price _).localHigh = _
  unfold settled
  dsimp only
  split_ifs with hended hdeep
  · rfl
  · obtain ⟨harmed, hreset⟩ := hdeep
    rw [not_or, Bool.and_eq_true, not_and, Bool.not_eq_true] at hended
    exact absurd ⟨price, hprice, harmed, hended.1 harmed, hended.2, hreset⟩ h
  · rfl

/-- The decayed high never decides. -/
theorem raisedHigh_eq_max (hdecay : engine.decayHighAlpha = 0.003) (hprice : 0 < price) :
    engine.raisedHigh price = max engine.state.localHigh price := by
  unfold raisedHigh
  split_ifs with hfresh
  · exact (max_eq_right (hfresh.trans hprice.le)).symm
  · refine max_eq_left (le_max_of_le_left ?_)
    rw [hdecay]
    linarith

variable {dropThreshold resetThreshold : ℚ}

/-- The reset branch is taken at none of these frames. -/
def NeverResets (dropThreshold resetThreshold : ℚ) (frames : List MicrostructureFrame) : Prop :=
  ∀ before frame rest, frames = before ++ frame :: rest →
    ¬Resets (after dropThreshold resetThreshold before) frame

theorem neverResets_nil : NeverResets dropThreshold resetThreshold [] := by
  intro before frame rest hsplit
  simp at hsplit

theorem neverResets_concat_iff {frames : List MicrostructureFrame} :
    NeverResets dropThreshold resetThreshold (frames ++ [frame]) ↔
      NeverResets dropThreshold resetThreshold frames ∧
        ¬Resets (after dropThreshold resetThreshold frames) frame := by
  constructor
  · intro h
    exact ⟨fun before f rest hsplit =>
      h before f (rest ++ [frame]) (by rw [hsplit, List.append_assoc, List.cons_append]),
      h frames frame [] rfl⟩
  · rintro ⟨hearlier, hlast⟩ before f rest hsplit
    rcases List.eq_nil_or_concat rest with rfl | ⟨rest, last, rfl⟩
    · obtain ⟨rfl, hf⟩ := List.append_inj' hsplit rfl
      rwa [← (List.cons.inj hf).1]
    · rw [List.concat_eq_append, ← List.cons_append, ← List.append_assoc] at hsplit
      exact hearlier before f rest (List.append_inj' hsplit rfl).1

theorem localHigh_eq_peak {frames : List MicrostructureFrame} {prices : List ℚ}
    (hprices : frames.map usablePrice = prices.map some)
    (hresets : NeverResets dropThreshold resetThreshold frames) :
    (after dropThreshold resetThreshold frames).state.localHigh = peak 0 prices := by
  induction frames using List.reverseRecOn generalizing prices with
  | nil =>
    rw [List.map_nil, eq_comm, List.map_eq_nil_iff] at hprices
    subst hprices
    rfl
  | append_singleton frames frame ih =>
    rw [List.map_append, List.map_singleton] at hprices
    obtain ⟨earlier, last, rfl, hearlier, hlast⟩ := List.map_eq_append_iff.mp hprices.symm
    obtain ⟨price, rfl, hprice⟩ : ∃ price, last = [price] ∧ usablePrice frame = some price := by
      obtain ⟨price, rest, rfl, hsome, hrest⟩ := List.map_eq_cons_iff.mp hlast
      exact ⟨price, by rw [List.map_eq_nil_iff.mp hrest], hsome.symm⟩
    obtain ⟨hbefore, hlast⟩ := neverResets_concat_iff.mp hresets
    rw [after_concat, localHigh_of_not_resets hprice hlast,
      raisedHigh_eq_max (decay_after _ _ frames) (usablePrice_pos hprice),
      ih hearlier.symm hbefore, peak_concat]

/-! ## A decaying high -/

/-- `high` is the largest of the prices, each taken down by `decay_high_alpha` for every
price after it. -/
def DecayedHigh (prices : List ℚ) (high : ℚ) : Prop :=
  IsGreatest {h | ∃ i, ∃ hi : i < prices.length,
    h = prices[i] * (1 - 0.003) ^ (prices.length - 1 - i)} high

theorem decayed_le {price : ℚ} (hprice : 0 < price) (k : ℕ) :
    price * (1 - 0.003) ^ k ≤ price :=
  mul_le_of_le_one_right hprice.le (pow_le_one₀ (by norm_num) (by norm_num))

theorem decayed_lt {price : ℚ} (hprice : 0 < price) {k : ℕ} (hk : k ≠ 0) :
    price * (1 - 0.003) ^ k < price :=
  mul_lt_of_lt_one_right hprice (pow_lt_one₀ (by norm_num) (by norm_num) hk)

/-- The largest price is the decayed high exactly if it is the last one. -/
theorem decayedHigh_peak_iff {prices : List ℚ} (hne : prices ≠ []) (hpos : ∀ p ∈ prices, 0 < p) :
    DecayedHigh prices (peak 0 prices) ↔ ∀ p ∈ prices, p ≤ prices.getLast hne := by
  have hmax : ∀ p ∈ prices, p ≤ peak 0 prices := (peak_le_iff.mp le_rfl).2
  constructor
  · rintro ⟨⟨i, hi, heq⟩, -⟩
    have hi' : prices.length - 1 - i = 0 := by
      by_contra hk
      have hless := decayed_lt (hpos _ (List.getElem_mem hi)) hk
      rw [← heq] at hless
      exact absurd (hmax _ (List.getElem_mem hi)) (not_le.mpr hless)
    have hlast : peak 0 prices = prices.getLast hne := by
      rw [heq, hi', pow_zero, mul_one, List.getLast_eq_getElem]
      congr 1
      omega
    exact fun p hp => (hmax p hp).trans_eq hlast
  · intro hlargest
    have hlast : peak 0 prices = prices.getLast hne :=
      (peak_le_iff.mpr ⟨(hpos _ (List.getLast_mem hne)).le, hlargest⟩).antisymm
        (hmax _ (List.getLast_mem hne))
    refine ⟨⟨prices.length - 1, ?_, ?_⟩, ?_⟩
    · have hlength := List.length_pos_of_ne_nil hne
      omega
    · rw [hlast, Nat.sub_self, pow_zero, mul_one, List.getLast_eq_getElem]
    · rintro _ ⟨i, hi, rfl⟩
      exact (decayed_le (hpos _ (List.getElem_mem hi)) _).trans (hmax _ (List.getElem_mem hi))

/-- Over frames with these prices and no reset, the local high is the decayed one exactly
if no earlier price is above the last. -/
theorem localHigh_decays_iff {frames : List MicrostructureFrame} {prices : List ℚ}
    (hprices : frames.map usablePrice = prices.map some) (hne : prices ≠ [])
    (hresets : NeverResets dropThreshold resetThreshold frames) :
    DecayedHigh prices (after dropThreshold resetThreshold frames).state.localHigh ↔
      ∀ p ∈ prices, p ≤ prices.getLast hne := by
  have hpos : ∀ p ∈ prices, 0 < p := by
    intro p hp
    have hmem : some p ∈ frames.map usablePrice := hprices ▸ List.mem_map_of_mem hp
    obtain ⟨frame, -, hframe⟩ := List.mem_map.mp hmem
    exact usablePrice_pos hframe
  rw [localHigh_eq_peak hprices hresets]
  exact decayedHigh_peak_iff hne hpos

/-! ### Two frames -/

theorem not_resets_of_shallow (hprice : usablePrice frame = some price)
    (h : engine.computedDrop price < engine.resetThreshold) : ¬Resets engine frame := by
  rintro ⟨price', hprice', -, -, -, hdeep⟩
  rw [hprice] at hprice'
  rw [← Option.some.inj hprice'] at hdeep
  exact not_le.mpr h hdeep

theorem neverResets_pair {first second : MicrostructureFrame} {p q : ℚ}
    (hp : usablePrice first = some p) (hq : usablePrice second = some q)
    (hfirst : (after dropThreshold resetThreshold []).computedDrop p <
      (after dropThreshold resetThreshold []).resetThreshold)
    (hsecond : (after dropThreshold resetThreshold [first]).computedDrop q <
      (after dropThreshold resetThreshold [first]).resetThreshold) :
    NeverResets dropThreshold resetThreshold [first, second] :=
  neverResets_concat_iff.mpr ⟨neverResets_concat_iff.mpr
    ⟨neverResets_nil, not_resets_of_shallow hp hfirst⟩, not_resets_of_shallow hq hsecond⟩

/-- After a fall of a twentieth of a percent the high is the first price, undecayed. -/
theorem localHigh_frozen : ¬ ∀ dropThreshold resetThreshold frames prices,
    frames.map usablePrice = prices.map some → prices ≠ [] →
      NeverResets dropThreshold resetThreshold frames →
      DecayedHigh prices (after dropThreshold resetThreshold frames).state.localHigh := by
  intro h
  have hprices : [dryingFrame 2000 0, dryingFrame 1999 0].map usablePrice =
      [2000, 1999].map some := by decide +kernel
  have hresets : NeverResets 0.02 0.05 [dryingFrame 2000 0, dryingFrame 1999 0] :=
    neverResets_pair (p := 2000) (q := 1999) rfl rfl (by decide +kernel) (by decide +kernel)
  have hdecayed := h 0.02 0.05 _ _ hprices (by simp) hresets
  rw [localHigh_eq_peak hprices hresets, decayedHigh_peak_iff (by simp) (by simp)] at hdecayed
  exact absurd (hdecayed 2000 (by simp)) (by decide +kernel)

/-- After a rise it is the last one, as it should be. -/
theorem localHigh_decays_iff_rising :
    DecayedHigh [1999, 2000]
      (after 0.02 0.05 [dryingFrame 1999 0, dryingFrame 2000 0]).state.localHigh :=
  (localHigh_decays_iff (by decide +kernel) (by simp)
    (neverResets_pair (p := 1999) (q := 2000) rfl rfl (by decide +kernel)
      (by decide +kernel))).mpr (by decide +kernel)

end RealTimeTrading.Rtts.TriggerEngine
