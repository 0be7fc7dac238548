/-
RealTimeTrading.Rtts.Accounting.LedgerCalls — sequences of calls on the
lot ledger.

`applyFill` and `markToMarket` are the only calls that change an engine,
so the states an engine can be in are those after some list of them. A
fill is `matchLots` on the lots of its symbol, whatever else the engine
holds.
-/
import RealTimeTrading.Rtts.Accounting.CashFlow

namespace RealTimeTrading.Rtts.Accounting

/-! ## Calls -/

inductive LedgerCall where
  | applyFill (entry : FillLedgerEntry)
  | markToMarket (symbol : String) (markPrice : ℚ)

/-- The symbol a call is for. -/
def LedgerCall.symbol : LedgerCall → String
  | .applyFill entry => entry.symbol
  | .markToMarket symbol _ => symbol

namespace AccountingEngine

def call (engine : AccountingEngine) : LedgerCall → AccountingEngine
  | .applyFill entry => (engine.applyFill entry).2
  | .markToMarket symbol markPrice => (engine.markToMarket symbol markPrice).2

/-- The engine after these calls. -/
def after (engine : AccountingEngine) (calls : List LedgerCall) : AccountingEngine :=
  calls.foldl call engine

@[simp] theorem after_nil (engine : AccountingEngine) : engine.after [] = engine := rfl

@[simp] theorem after_cons (engine : AccountingEngine) (c : LedgerCall) (calls : List LedgerCall) :
    engine.after (c :: calls) = (engine.call c).after calls := rfl

@[simp] theorem after_append (engine : AccountingEngine) (calls calls' : List LedgerCall) :
    engine.after (calls ++ calls') = (engine.after calls).after calls' := by
  simp [after]

/-- What every call keeps holds after all of them. -/
theorem after_induction {P : AccountingEngine → Prop}
    (hstep : ∀ engine c, P engine → P (engine.call c)) {engine : AccountingEngine}
    (h : P engine) (calls : List LedgerCall) : P (engine.after calls) := by
  induction calls generalizing engine with
  | nil => exact h
  | cons c rest ih => exact ih (hstep engine c h)

theorem applyFills_eq_after (engine : AccountingEngine) (fills : List FillLedgerEntry) :
    engine.applyFills fills = engine.after (fills.map .applyFill) := by
  unfold applyFills after
  rw [List.foldl_map]
  rfl

end AccountingEngine

/-! ## A fill and the lots it meets -/

section Steps

variable {method : LotMatchingMethod} {entry : FillLedgerEntry} {m : Matching}

theorem oppositeLotIndex_eq_none {lots : List PositionLot} {side : Side} :
    oppositeLotIndex lots side method = none ↔ ∀ lot ∈ lots, lot.side = side := by
  cases method <;> simp [oppositeLotIndex]

/-- A pass takes from the lot the index names. -/
theorem matchStep_of_index (hleft : dust < m.qtyLeft) {index : Nat} {lot : PositionLot}
    (hindex : oppositeLotIndex m.lots entry.side method = some index)
    (hlot : m.lots[index]? = some lot) :
    matchStep method entry m = some
      { lots := replaceLot m.lots index (closedLot lot (share entry m.qtyLeft lot))
        qtyLeft := m.qtyLeft - (share entry m.qtyLeft lot).matchedQty
        realizedPnlTotal := m.realizedPnlTotal + (share entry m.qtyLeft lot).net
        realized := m.realized ++
          [realizedEntry entry m.matchIndex (share entry m.qtyLeft lot)]
        matchIndex := saturatingAddUsize m.matchIndex 1 } := by
  unfold matchStep
  rw [if_pos hleft, hindex]
  simp only [hlot]

/-- The loop ends when the fill is used up or only lots of its side are left. -/
theorem matchStep_eq_none :
    matchStep method entry m = none ↔
      m.qtyLeft ≤ dust ∨ ∀ lot ∈ m.lots, lot.side = entry.side := by
  by_cases hleft : dust < m.qtyLeft
  · cases hindex : oppositeLotIndex m.lots entry.side method with
    | none =>
      have hnone : matchStep method entry m = none := by
        unfold matchStep
        rw [if_pos hleft, hindex]
      exact iff_of_true hnone (Or.inr (oppositeLotIndex_eq_none.mp hindex))
    | some index =>
      obtain ⟨lot, hlot, hside⟩ := oppositeLotIndex_spec hindex
      rw [matchStep_of_index hleft hindex hlot]
      refine iff_of_false nofun ?_
      rintro (hle | hall)
      · exact absurd hleft (not_lt.mpr hle)
      · exact hside (hall lot (List.mem_of_getElem? hlot))
  · have hnone : matchStep method entry m = none := by
      unfold matchStep
      rw [if_neg hleft]
    exact iff_of_true hnone (Or.inl (not_lt.mp hleft))

end Steps

/-- The same matching, its total counted on from `t`. -/
def Matching.onto (t : ℚ) (m : Matching) : Matching :=
  { m with realizedPnlTotal := t + m.realizedPnlTotal }

theorem matchStep_onto (method : LotMatchingMethod) (entry : FillLedgerEntry) (t : ℚ)
    (m : Matching) :
    matchStep method entry (m.onto t) = (matchStep method entry m).map (·.onto t) := by
  cases hstep : matchStep method entry m with
  | none =>
    have hover := matchStep_eq_none.mp hstep
    have hnone : matchStep method entry (m.onto t) = none := matchStep_eq_none.mpr hover
    rw [hnone]
    rfl
  | some m' =>
    obtain ⟨index, lot, hleft, hindex, hlot, -, rfl⟩ := matchStep_cases hstep
    have hpass := matchStep_of_index (m := m.onto t) hleft hindex hlot
    rw [hpass]
    simp only [Matching.onto, Option.map_some, add_assoc]

theorem matchLoop_onto (method : LotMatchingMethod) (entry : FillLedgerEntry) (t : ℚ)
    (fuel : Nat) (m : Matching) :
    matchLoop method entry fuel (m.onto t) = (matchLoop method entry fuel m).onto t := by
  induction fuel generalizing m with
  | zero => rfl
  | succ fuel ih =>
    unfold matchLoop
    rw [matchStep_onto]
    cases matchStep method entry m with
    | none => rfl
    | some m' => exact ih m'

/-- The matching loop on these lots, the total counted from zero. -/
def matchLots (method : LotMatchingMethod) (lots : List PositionLot) (entry : FillLedgerEntry) :
    Matching :=
  matchLoop method entry (lots.length + 1)
    { lots := lots, qtyLeft := max entry.quantity 0, realizedPnlTotal := 0 }

/-- A fill meets the lots of its symbol, and nothing else of the engine. -/
theorem AccountingEngine.matched_eq (engine : AccountingEngine) (entry : FillLedgerEntry) :
    engine.matched entry =
      (matchLots engine.matchingMethod (engine.lotsOf entry.symbol) entry).onto
        engine.state.realizedPnlTotal := by
  unfold matched matchLots
  rw [← matchLoop_onto]
  simp only [Matching.onto, add_zero]

end RealTimeTrading.Rtts.Accounting
