/-
RealTimeTrading.Rtts.Accounting.CostFlow — the fees, rebates and funding
that go through the lot ledger.

A pass hands a share of the costs of its lot to the result it lists and
leaves the rest with the lot, each of the three amounts clamped at zero.
The clamp changes nothing where the amount is positive, and nothing where
the lot is closed; where a fill ends within a lot, it drops what was
negative (`clampGain`). So the costs of a run add up exactly when no fill
ends within a lot whose negative amounts do not cancel.
-/
import Mathlib.Algebra.Order.Field.Basic
import Mathlib.Data.List.Induction
import RealTimeTrading.Rtts.Accounting.LotOrder

namespace RealTimeTrading.Rtts.Accounting

open RealTimeTrading.Data

/-! ## Costs of lots, results and fills -/

/-- What a lot still carries of the costs it was opened with. -/
def carriedCosts (lot : PositionLot) : ℚ :=
  lot.remainingFeeAmount - lot.remainingRebateAmount + lot.remainingFundingAmount

def costsOf (lots : List PositionLot) : ℚ := (lots.map carriedCosts).sum

def RealizedPnLEntry.costs (entry : RealizedPnLEntry) : ℚ := entry.fees + entry.funding

def FillLedgerEntry.costs (entry : FillLedgerEntry) : ℚ :=
  entry.feeAmount - entry.rebateAmount + entry.fundingAmount

def FillLedgerEntry.unitCosts (entry : FillLedgerEntry) : ℚ :=
  perUnit entry.feeAmount entry.quantity - perUnit entry.rebateAmount entry.quantity +
    perUnit entry.fundingAmount entry.quantity

/-- What the clamps add to a lot of which everything is left. -/
def clampGain (lot : PositionLot) : ℚ :=
  max (-lot.remainingFeeAmount) 0 - max (-lot.remainingRebateAmount) 0 +
    max (-lot.remainingFundingAmount) 0

/-- The lot within which a fill of this quantity ends. -/
def splitLot : List PositionLot → ℚ → Option PositionLot
  | [], _ => none
  | lot :: rest, quantity =>
    if quantity < lot.remainingQty then if 0 < quantity then some lot else none
    else splitLot rest (quantity - lot.remainingQty)

/-- What the clamps add when a fill of this quantity goes through the lots. -/
def gainAlong : List PositionLot → ℚ → ℚ
  | [], _ => 0
  | lot :: rest, quantity =>
    if quantity < lot.remainingQty then
      if 0 < quantity then (1 - quantity / lot.remainingQty) * clampGain lot else 0
    else gainAlong rest (quantity - lot.remainingQty)

/-- The clamps add nothing exactly when nothing is dropped from the lot split. -/
theorem gainAlong_eq_zero {lots : List PositionLot} (hlots : ∀ lot ∈ lots, 0 < lot.remainingQty)
    (quantity : ℚ) :
    gainAlong lots quantity = 0 ↔ ∀ lot, splitLot lots quantity = some lot → clampGain lot = 0 := by
  induction lots generalizing quantity with
  | nil => simp [gainAlong, splitLot]
  | cons lot rest ih =>
    obtain ⟨hlot, hrest⟩ := List.forall_mem_cons.mp hlots
    unfold gainAlong splitLot
    split
    · rename_i hlt
      split
      · have hpart : 1 - quantity / lot.remainingQty ≠ 0 :=
          (sub_pos.mpr ((div_lt_one hlot).mpr hlt)).ne'
        simp [hpart]
      · simp
    · exact ih hrest _

/-! ## One pass -/

/-- The clamp keeps what is left of an amount, but for a negative one. -/
theorem max_left {x r : ℚ} (hr : r ≤ 1) :
    max (x - x * r) 0 = x - x * r + (1 - r) * max (-x) 0 := by
  have hleft : 0 ≤ 1 - r := sub_nonneg.mpr hr
  have hfactor : x - x * r = x * (1 - r) := by ring
  rw [hfactor]
  rcases le_total 0 x with hx | hx
  · rw [max_eq_left (mul_nonneg hx hleft), max_eq_right (neg_nonpos.mpr hx), mul_zero, add_zero]
  · rw [max_eq_right (mul_nonpos_of_nonpos_of_nonneg hx hleft), max_eq_left (neg_nonneg.mpr hx)]
    ring

theorem carriedCosts_closedLot (entry : FillLedgerEntry) (quantity : ℚ) {lot : PositionLot}
    (hlot : 0 < lot.remainingQty) :
    carriedCosts (closedLot lot (share entry quantity lot)) =
      carriedCosts lot - ((share entry quantity lot).entryFee -
        (share entry quantity lot).entryRebate + (share entry quantity lot).entryFunding) +
        (1 - (share entry quantity lot).matchedQty / lot.remainingQty) * clampGain lot := by
  have hratio : min quantity lot.remainingQty / lot.remainingQty ≤ 1 :=
    (div_le_one hlot).mpr (min_le_right _ _)
  simp only [carriedCosts, closedLot, share, clampGain, if_pos hlot, max_left hratio]
  ring

/-- What the matching holds: the costs of its lots, of the results listed and
of the rest of the fill. -/
def Matching.costs (entry : FillLedgerEntry) (m : Matching) : ℚ :=
  costsOf m.lots + (m.realized.map (·.costs)).sum + entry.unitCosts * m.qtyLeft

theorem costsOf_inOrder (method : LotMatchingMethod) (lots : List PositionLot) :
    costsOf (inOrder method lots) = costsOf lots := by
  cases method with
  | fifo => rfl
  | lifo => simp [inOrder, costsOf, List.sum_reverse]

/-- A result is charged with its share of the costs of the lot and of the fill. -/
theorem realizedEntry_costs (entry : FillLedgerEntry) (matchIndex : Nat) (quantity : ℚ)
    {lot : PositionLot} (hlot : 0 < lot.remainingQty) :
    (realizedEntry entry matchIndex (share entry quantity lot)).costs =
      carriedCosts lot * (min quantity lot.remainingQty / lot.remainingQty) +
        entry.unitCosts * min quantity lot.remainingQty := by
  simp only [RealizedPnLEntry.costs, realizedEntry, share, if_pos hlot, carriedCosts,
    FillLedgerEntry.unitCosts]
  ring

theorem gainAlong_zero {lots : List PositionLot} (hlots : ∀ lot ∈ lots, 0 < lot.remainingQty) :
    gainAlong lots 0 = 0 := by
  cases lots with
  | nil => rfl
  | cons lot rest =>
    unfold gainAlong
    rw [if_pos (hlots lot List.mem_cons_self), if_neg (lt_irrefl 0)]

section Loop

variable {method : LotMatchingMethod} {entry : FillLedgerEntry} {lotSize : ℚ}

theorem Matching.Whole.pos {m : Matching} (hm : m.Whole lotSize) (hsize : dust < lotSize) :
    ∀ lot ∈ m.lots, 0 < lot.remainingQty :=
  fun lot hlot => dust_pos.trans ((hm.lots lot hlot).dust_lt hsize)

/-- The loop keeps the costs, but for what the clamps add. -/
theorem matchLoop_costs (method : LotMatchingMethod) (hsize : dust < lotSize) {fuel : Nat}
    {m : Matching} (hm : m.Whole lotSize) (hside : ∀ lot ∈ m.lots, lot.side ≠ entry.side)
    (hfuel : m.lots.length < fuel) :
    (matchLoop method entry fuel m).costs entry =
      m.costs entry + gainAlong (inOrder method m.lots) m.qtyLeft := by
  induction fuel generalizing m with
  | zero => exact absurd hfuel (Nat.not_lt_zero _)
  | succ fuel ih =>
    unfold matchLoop
    cases hstep : matchStep method entry m with
    | none =>
      suffices hnone : gainAlong (inOrder method m.lots) m.qtyLeft = 0 by rw [hnone, add_zero]
      rcases matchStep_eq_none.mp hstep with hused | hsame
      · have hzero : m.qtyLeft = 0 :=
          hm.left.resolve_right fun hw => absurd hused (not_le.mpr (hw.dust_lt hsize))
        rw [hzero]
        exact gainAlong_zero fun lot hlot => hm.pos hsize lot ((mem_inOrder _).mp hlot)
      · have hempty : m.lots = [] :=
          List.eq_nil_iff_forall_not_mem.mpr fun lot hlot => hside lot hlot (hsame lot hlot)
        rw [hempty]
        cases method <;> rfl
    | some m' =>
      obtain ⟨lot, rest, hlots, hleft, -, hqty, hrealized, hlots'⟩ := matchStep_head hside hstep
      have hmem : ∀ x ∈ lot :: rest, x ∈ m.lots := fun x hx => mem_of_inOrder hlots hx
      have hlot := hm.pos hsize lot (hmem lot List.mem_cons_self)
      have hwhole' := matchStep_whole hsize hm hstep
      have hcosts : m.costs entry = carriedCosts lot + costsOf rest +
          (m.realized.map (·.costs)).sum + entry.unitCosts * m.qtyLeft := by
        rw [Matching.costs, ← costsOf_inOrder method, hlots, costsOf, List.map_cons, List.sum_cons,
          costsOf]
      have hresults : (m'.realized.map (·.costs)).sum = (m.realized.map (·.costs)).sum +
          (carriedCosts lot * (min m.qtyLeft lot.remainingQty / lot.remainingQty) +
            entry.unitCosts * min m.qtyLeft lot.remainingQty) := by
        rw [hrealized, List.map_append, List.sum_append, List.map_singleton, List.sum_singleton,
          realizedEntry_costs entry _ _ hlot]
      have hqty' : m'.qtyLeft = m.qtyLeft - min m.qtyLeft lot.remainingQty := hqty
      rw [hlots, gainAlong]
      dsimp only
      rcases le_or_gt lot.remainingQty m.qtyLeft with hle | hlt
      · -- the lot is closed with all it carries
        have hothers := inOrder_of_le hle hlots'
        have hlength : m'.lots.length < fuel := by
          have hcount : m.lots.length = rest.length + 1 := by
            rw [← length_inOrder method, hlots, List.length_cons]
          rw [← length_inOrder method, hothers]
          omega
        have hside' : ∀ x ∈ m'.lots, x.side ≠ entry.side := fun x hx => by
          rw [← mem_inOrder method, hothers] at hx
          exact hside x (hmem x (List.mem_cons_of_mem _ hx))
        rw [if_neg (not_lt.mpr hle), ih hwhole' hside' hlength, hothers, hcosts, Matching.costs,
          ← costsOf_inOrder method, hothers, hresults, hqty', min_eq_right hle, div_self hlot.ne']
        ring
      · -- the fill ends within the lot, and the clamps may change what is left
        have hzero : m'.qtyLeft = 0 := by rw [hqty', min_eq_left hlt.le, sub_self]
        obtain ⟨hloop, -⟩ := matchLoop_of_used method entry hzero fuel
        have hkept : dust < (closedLot lot (share entry m.qtyLeft lot)).remainingQty := by
          obtain ⟨hclosed, hrest, -⟩ := share_left entry hsize
            (hm.lots lot (hmem lot List.mem_cons_self))
            (hm.left.resolve_left (dust_pos.trans hleft).ne')
          refine (hrest.resolve_left ?_).dust_lt hsize
          rw [remainingQty_closedLot, min_eq_left hlt.le]
          exact (sub_pos.mpr hlt).ne'
        have hlots'' : inOrder method m'.lots =
            closedLot lot (share entry m.qtyLeft lot) :: rest := by
          rw [hlots']
          simp [hkept]
        have hmatched : (share entry m.qtyLeft lot).matchedQty = m.qtyLeft := min_eq_left hlt.le
        have hcarried := carriedCosts_closedLot entry m.qtyLeft hlot
        rw [hmatched] at hcarried
        rw [if_pos hlt, if_pos (dust_pos.trans hleft), hloop, hcosts, Matching.costs,
          ← costsOf_inOrder method, hlots'', hresults, hzero, min_eq_left hlt.le, costsOf,
          List.map_cons, List.sum_cons, hcarried, costsOf]
        simp only [share, if_pos hlot, min_eq_left hlt.le, carriedCosts]
        ring

end Loop

/-! ## The ledger -/

namespace AccountingEngine

/-- The open lot within which a fill ends, if it ends within one. -/
def splitBy (engine : AccountingEngine) (entry : FillLedgerEntry) : Option PositionLot :=
  splitLot (inOrder engine.matchingMethod
    (oppositeLots entry.side (engine.lotsOf entry.symbol))) entry.quantity

/-- The costs realized and still carried, less the totals of the account. -/
def costExcess (engine : AccountingEngine) : ℚ :=
  (engine.realizedEntries.map fun r => r.fees + r.funding).sum +
    sumEntries (fun _ => costsOf) engine.state.openPositions -
    (engine.state.feeTotal - engine.state.rebateTotal + engine.state.fundingTotal)

/-- No cost was created or lost. -/
def CostsBalance (engine : AccountingEngine) : Prop :=
  (engine.realizedEntries.map fun r => r.fees + r.funding).sum +
    sumEntries (fun _ lots => (lots.map fun lot =>
      lot.remainingFeeAmount - lot.remainingRebateAmount + lot.remainingFundingAmount).sum)
      engine.state.openPositions =
    engine.state.feeTotal - engine.state.rebateTotal + engine.state.fundingTotal

theorem costsBalance_iff (engine : AccountingEngine) :
    engine.CostsBalance ↔ engine.costExcess = 0 := sub_eq_zero.symm

section ApplyFill

variable {lotSize : ℚ} {engine : AccountingEngine} {entry : FillLedgerEntry}

theorem unitCosts_mul (hsize : dust < lotSize) (hentry : WholeLots lotSize entry.quantity) :
    entry.unitCosts * entry.quantity = entry.costs := by
  have hdust := hentry.dust_lt hsize
  have hne : entry.quantity ≠ 0 := (dust_pos.trans hdust).ne'
  simp only [FillLedgerEntry.unitCosts, perUnit, if_neg (not_le.mpr hdust),
    FillLedgerEntry.costs, add_mul, sub_mul, div_mul_cancel₀ _ hne]

/-- The lots of the symbol after the fill, and what was realized, carry the
costs of the lots before it and of the fill, but for what the clamps add. -/
theorem lotsAfter_costs (hsize : dust < lotSize) (haccounted : engine.Accounted lotSize)
    (hsided : OneSided (engine.lotsOf entry.symbol)) (hentry : WholeLots lotSize entry.quantity) :
    costsOf (engine.lotsAfter entry) + ((engine.matched entry).realized.map (·.costs)).sum =
      costsOf (engine.lotsOf entry.symbol) + entry.costs +
        gainAlong (inOrder engine.matchingMethod
          (oppositeLots entry.side (engine.lotsOf entry.symbol))) entry.quantity := by
  have hstart := start_whole hsize haccounted hentry
  have hcosts : (engine.start entry).costs entry =
      costsOf (engine.lotsOf entry.symbol) + entry.costs := by
    simp [Matching.costs, start, hentry.max_zero hsize, unitCosts_mul hsize hentry]
  have hmatched : (engine.matched entry).costs entry = (engine.start entry).costs entry +
      gainAlong (inOrder engine.matchingMethod
        (oppositeLots entry.side (engine.lotsOf entry.symbol))) entry.quantity := by
    rcases hsided.oppositeLots_cases entry.side with ⟨hsame, hnone⟩ | ⟨hopposite, hall⟩
    · rw [(matched_of_sameSide hsame).1, hnone]
      cases engine.matchingMethod <;> exact (add_zero _).symm
    · have hloop := matchLoop_costs engine.matchingMethod hsize hstart hopposite
        (Nat.lt_succ_self _)
      have hqty : (engine.start entry).qtyLeft = entry.quantity := hentry.max_zero hsize
      rw [hqty] at hloop
      rw [hall]
      exact hloop
  obtain ⟨hwhole, -, -⟩ := matched_kept hsize haccounted hentry
  have hsum := sum_lotsAfter hsize hwhole carriedCosts (by simp [carriedCosts, openedLot])
  have hopened : carriedCosts (openedLot entry (engine.matched entry).qtyLeft) =
      entry.unitCosts * (engine.matched entry).qtyLeft := by
    simp only [carriedCosts, openedLot, FillLedgerEntry.unitCosts]
    ring
  rw [hopened] at hsum
  rw [← hcosts, ← hmatched, Matching.costs]
  unfold costsOf
  linear_combination hsum

/-- A fill keeps the balance, but for what the clamps add. -/
theorem costExcess_applyFill (hsize : dust < lotSize) (haccounted : engine.Accounted lotSize)
    (hsided : OneSided (engine.lotsOf entry.symbol)) (hentry : WholeLots lotSize entry.quantity) :
    (engine.applyFill entry).2.costExcess = engine.costExcess +
      gainAlong (inOrder engine.matchingMethod
        (oppositeLots entry.side (engine.lotsOf entry.symbol))) entry.quantity := by
  have hlots := lotsAfter_costs hsize haccounted hsided hentry
  have hentries := sumEntries_applyFill engine entry (fun _ => costsOf) rfl
  have htotals : (engine.applyFill entry).2.state.feeTotal -
      (engine.applyFill entry).2.state.rebateTotal + (engine.applyFill entry).2.state.fundingTotal =
      engine.state.feeTotal + entry.feeAmount - (engine.state.rebateTotal + entry.rebateAmount) +
        (engine.state.fundingTotal + entry.fundingAmount) := rfl
  unfold costExcess
  rw [htotals]
  simp only [realizedEntries_applyFill, List.map_append, List.sum_append]
  unfold RealizedPnLEntry.costs FillLedgerEntry.costs at hlots
  linear_combination hentries + hlots

/-- A fill keeps the balance exactly when it ends within no lot whose
negative amounts do not cancel. -/
theorem gainAlong_eq_zero_iff (haccounted : engine.Accounted lotSize) (hsize : dust < lotSize) :
    gainAlong (inOrder engine.matchingMethod
        (oppositeLots entry.side (engine.lotsOf entry.symbol))) entry.quantity = 0 ↔
      ∀ lot, engine.splitBy entry = some lot →
        max (-lot.remainingFeeAmount) 0 + max (-lot.remainingFundingAmount) 0 =
          max (-lot.remainingRebateAmount) 0 := by
  have hpos : ∀ lot ∈ inOrder engine.matchingMethod
      (oppositeLots entry.side (engine.lotsOf entry.symbol)), 0 < lot.remainingQty := by
    intro lot hlot
    have hmem := (List.mem_filter.mp ((mem_inOrder _).mp hlot)).1
    exact dust_pos.trans ((haccounted.whole entry.symbol lot hmem).dust_lt hsize)
  rw [gainAlong_eq_zero hpos]
  refine forall₂_congr fun lot _ => ?_
  unfold clampGain
  constructor <;> intro h <;> linarith

end ApplyFill

/-- What the fills so far have led to, for the costs to be followed on. -/
theorem applyFills_kept (method : LotMatchingMethod) {lotSize : ℚ} (hsize : dust < lotSize)
    {fills : List FillLedgerEntry} (hfills : ∀ entry ∈ fills, WholeLots lotSize entry.quantity) :
    ((new method).applyFills fills).Accounted lotSize ∧
      ∀ symbol, OneSided (((new method).applyFills fills).lotsOf symbol) := by
  refine ⟨(applyFills_accounted hsize hfills (new_accounted lotSize method)).1, fun symbol => ?_⟩
  rw [applyFills_eq_after]
  exact after_oneSided method _ symbol

/-- No cost is created or lost after any of the fills exactly when none of
them ends within a lot whose negative fee and funding differ from its
negative rebate. -/
theorem costs_balance_iff (method : LotMatchingMethod) {lotSize : ℚ} (hsize : dust < lotSize)
    {fills : List FillLedgerEntry} (hfills : ∀ entry ∈ fills, WholeLots lotSize entry.quantity) :
    (∀ done, done <+: fills → ((new method).applyFills done).CostsBalance) ↔
      ∀ done entry, done ++ [entry] <+: fills →
        ∀ lot, ((new method).applyFills done).splitBy entry = some lot →
          max (-lot.remainingFeeAmount) 0 + max (-lot.remainingFundingAmount) 0 =
            max (-lot.remainingRebateAmount) 0 := by
  have hstep : ∀ done entry, done ++ [entry] <+: fills →
      ((new method).applyFills done).CostsBalance →
      (((new method).applyFills (done ++ [entry])).CostsBalance ↔
        ∀ lot, ((new method).applyFills done).splitBy entry = some lot →
          max (-lot.remainingFeeAmount) 0 + max (-lot.remainingFundingAmount) 0 =
            max (-lot.remainingRebateAmount) 0) := by
    intro done entry hwithin hbalance
    have hdone : ∀ x ∈ done, WholeLots lotSize x.quantity := fun x hx =>
      hfills x (hwithin.subset (List.mem_append_left _ hx))
    have hentry : WholeLots lotSize entry.quantity :=
      hfills entry (hwithin.subset (List.mem_append_right _ (List.mem_singleton_self _)))
    obtain ⟨haccounted, hsided⟩ := applyFills_kept method hsize hdone
    rw [costsBalance_iff] at hbalance ⊢
    rw [applyFills_concat, costExcess_applyFill hsize haccounted (hsided _) hentry, hbalance,
      zero_add]
    exact gainAlong_eq_zero_iff haccounted hsize
  constructor
  · intro hall done entry hwithin
    have hdone := hall done ((List.prefix_append _ _).trans hwithin)
    exact (hstep done entry hwithin hdone).mp (hall _ hwithin)
  · intro hsplit done hwithin
    induction done using List.reverseRecOn with
    | nil => rw [costsBalance_iff]; simp [costExcess, applyFills, new]
    | append_singleton done entry ih =>
      have hdone := ih ((List.prefix_append _ _).trans hwithin)
      exact (hstep done entry hwithin hdone).mpr (hsplit done entry hwithin)

theorem costs_balance_iff_partialFills :
    (∀ done, done <+: partialFills → ((new .lifo).applyFills done).CostsBalance) ↔
      ∀ done entry, done ++ [entry] <+: partialFills →
        ∀ lot, ((new .lifo).applyFills done).splitBy entry = some lot →
          max (-lot.remainingFeeAmount) 0 + max (-lot.remainingFundingAmount) 0 =
            max (-lot.remainingRebateAmount) 0 :=
  costs_balance_iff .lifo (show dust < (0.5 : ℚ) by norm_num [dust]) partialFills_wholeLots

/-- Two bought with funding received, and one of them sold. -/
def fundedFills : List FillLedgerEntry :=
  [{ orderId := "order-1", fillId := "f1", symbol := "BTCUSDT", side := .buy, price := 100,
     quantity := 2, fundingAmount := -1 },
   { orderId := "order-2", fillId := "f2", symbol := "BTCUSDT", side := .sell, price := 101,
     quantity := 1 }]

/-- Half of the funding received is on no result and on no lot. -/
theorem fundedFills_unbalanced :
    dust < 1 ∧ (∀ entry ∈ fundedFills, WholeLots 1 entry.quantity) ∧
      ¬((new .fifo).applyFills fundedFills).CostsBalance := by
  refine ⟨by norm_num [dust], ?_, ?_⟩
  · simp only [fundedFills, List.forall_mem_cons]
    exact ⟨⟨2, by norm_num⟩, ⟨1, by norm_num⟩, by simp⟩
  · unfold CostsBalance
    decide +kernel

end AccountingEngine

end RealTimeTrading.Rtts.Accounting
