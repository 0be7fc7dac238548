/-
RealTimeTrading.Rtts.Accounting.NetQuantity — the signed quantity that is
open.

A pass takes the same quantity from a lot and from a fill of the other
side, so the signed sum of both does not change, in whatever order the
lots are taken. Over whole fills the open lots of a symbol add up to its
signed fills.
-/
import Mathlib.Data.List.Induction
import RealTimeTrading.Rtts.Accounting.CashFlow

namespace RealTimeTrading.Rtts.Accounting

/-- What a lot adds to the net position. -/
def signedLot (lot : PositionLot) : ℚ := signedQuantity lot.side lot.remainingQty

def netOf (lots : List PositionLot) : ℚ := (lots.map signedLot).sum

/-- What a fill moves the net position by. -/
def FillLedgerEntry.signed (entry : FillLedgerEntry) : ℚ :=
  signedQuantity entry.side entry.quantity

/-- The signed fills of a symbol, added up. -/
def signedFills (symbol : String) (fills : List FillLedgerEntry) : ℚ :=
  ((fills.filter fun entry => decide (entry.symbol = symbol)).map (·.signed)).sum

section Loop

variable {method : LotMatchingMethod} {entry : FillLedgerEntry} {lotSize : ℚ} {m m' : Matching}

/-- A pass moves the lot and the fill by the same quantity. -/
theorem matchStep_net (hsize : dust < lotSize) (hm : m.Whole lotSize)
    (h : matchStep method entry m = some m') :
    netOf m'.lots + signedQuantity entry.side m'.qtyLeft =
      netOf m.lots + signedQuantity entry.side m.qtyLeft := by
  obtain ⟨index, lot, hleft, -, hlot, hside, rfl⟩ := matchStep_cases h
  obtain ⟨hclosed, hrest, -⟩ := share_left entry hsize (hm.lots lot (List.mem_of_getElem? hlot))
    (hm.left.resolve_left (dust_pos.trans hleft).ne')
  have hnet := sum_replaceLot signedLot hlot
    (closedLot lot (share entry m.qtyLeft lot)) fun hdust => by
      have hzero := hrest.resolve_right fun hw => absurd hdust (not_le.mpr (hw.dust_lt hsize))
      rw [signedLot, hzero, signedQuantity_zero]
  have hlotAfter : signedLot (closedLot lot (share entry m.qtyLeft lot)) = signedLot lot -
      signedQuantity lot.side (share entry m.qtyLeft lot).matchedQty := by
    rw [signedLot, hclosed]
    exact signedQuantity_sub _ _ _
  have hopposite : signedQuantity entry.side (share entry m.qtyLeft lot).matchedQty =
      -signedQuantity lot.side (share entry m.qtyLeft lot).matchedQty := by
    cases hl : lot.side <;> cases he : entry.side <;> simp_all [signedQuantity]
  unfold netOf
  rw [signedQuantity_sub, hopposite]
  linear_combination hnet + hlotAfter

theorem matchLoop_net (method : LotMatchingMethod) (entry : FillLedgerEntry)
    (hsize : dust < lotSize) (fuel : Nat) (hm : m.Whole lotSize) :
    netOf (matchLoop method entry fuel m).lots +
        signedQuantity entry.side (matchLoop method entry fuel m).qtyLeft =
      netOf m.lots + signedQuantity entry.side m.qtyLeft := by
  induction fuel generalizing m with
  | zero => rfl
  | succ fuel ih =>
    unfold matchLoop
    cases hstep : matchStep method entry m with
    | none => rfl
    | some m' => exact (ih (matchStep_whole hsize hm hstep)).trans (matchStep_net hsize hm hstep)

end Loop

namespace AccountingEngine

variable {lotSize : ℚ} {engine : AccountingEngine} {entry : FillLedgerEntry}

theorem netQuantity_eq (engine : AccountingEngine) (symbol : String) :
    (engine.positionExposure symbol).netQuantity = netOf (engine.lotsOf symbol) := by
  unfold positionExposure lotsOf
  cases engine.state.openPositions.lookup symbol with
  | none => rfl
  | some lots => rfl

/-- A fill moves the open quantity of its symbol by its own. -/
theorem lotsAfter_net (hsize : dust < lotSize) (h : engine.Accounted lotSize)
    (hentry : WholeLots lotSize entry.quantity) :
    netOf (engine.lotsAfter entry) = netOf (engine.lotsOf entry.symbol) + entry.signed := by
  obtain ⟨hwhole, -, -⟩ := matched_kept hsize h hentry
  have hloop := matchLoop_net engine.matchingMethod entry hsize
    ((engine.lotsOf entry.symbol).length + 1) (start_whole hsize h hentry)
  have hstart : netOf (engine.matched entry).lots +
      signedQuantity entry.side (engine.matched entry).qtyLeft =
      netOf (engine.lotsOf entry.symbol) + signedQuantity entry.side (max entry.quantity 0) := hloop
  rw [hentry.max_zero hsize] at hstart
  have hsum := sum_lotsAfter hsize hwhole signedLot (signedQuantity_zero entry.side)
  exact hsum.trans hstart

theorem signedFills_concat (symbol : String) (fills : List FillLedgerEntry)
    (entry : FillLedgerEntry) :
    signedFills symbol (fills ++ [entry]) =
      signedFills symbol fills + if entry.symbol = symbol then entry.signed else 0 := by
  unfold signedFills
  rw [List.filter_append, List.map_append, List.sum_append]
  by_cases h : entry.symbol = symbol <;> simp [h]

theorem signedFills_perm (symbol : String) {fills fills' : List FillLedgerEntry}
    (h : fills.Perm fills') : signedFills symbol fills = signedFills symbol fills' :=
  ((h.filter _).map _).sum_eq

/-- The net position is the signed fills, under either matching method. -/
theorem netQuantity_applyFills (method : LotMatchingMethod) (hsize : dust < lotSize)
    {fills : List FillLedgerEntry} (hfills : ∀ entry ∈ fills, WholeLots lotSize entry.quantity)
    (symbol : String) :
    (((new method).applyFills fills).positionExposure symbol).netQuantity =
      signedFills symbol fills := by
  rw [netQuantity_eq]
  induction fills using List.reverseRecOn with
  | nil => rfl
  | append_singleton fills entry ih =>
    obtain ⟨hbefore, hlast⟩ := List.forall_mem_append.mp hfills
    have haccounted := (applyFills_accounted hsize hbefore (new_accounted lotSize method)).1
    rw [applyFills_concat, lotsOf_applyFill, signedFills_concat, ← ih hbefore]
    by_cases h : symbol = entry.symbol
    · rw [if_pos h, if_pos h.symm, h]
      exact lotsAfter_net hsize haccounted (hlast entry (List.mem_singleton_self _))
    · rw [if_neg h, if_neg (Ne.symm h), add_zero]

end AccountingEngine

end RealTimeTrading.Rtts.Accounting
