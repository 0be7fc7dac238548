/-
RealTimeTrading.Rtts.Accounting.UnrealizedTotal — the open value the
ledger reports.

`markToMarket`, and a fill of a symbol without a mark, set
`unrealizedPnl` to the value of all marked lots. A fill of a marked symbol
sets it to the value of the lots of that symbol alone, and is right
exactly when the other marked lots are worth nothing in sum.
-/
import Mathlib.Data.List.Induction
import RealTimeTrading.Rtts.Accounting.LedgerCalls

namespace RealTimeTrading.Rtts.Accounting

open RealTimeTrading.Data

/-! ## Marks -/

def LedgerCall.markOf (symbol : String) : LedgerCall → Option ℚ
  | .applyFill _ => none
  | .markToMarket s markPrice => if s = symbol then some markPrice else none

/-- The mark last given for a symbol. -/
def latestMark (calls : List LedgerCall) (symbol : String) : Option ℚ :=
  (calls.filterMap (·.markOf symbol)).getLast?

/-- What lots are worth at a mark, and nothing without one. -/
def valueAt (mark : Option ℚ) (lots : List PositionLot) : ℚ :=
  mark.elim 0 fun markPrice => (lots.map fun lot => unrealizedForLot lot markPrice).sum

namespace AccountingEngine

/-- The value of the open lots of all symbols that have a mark. -/
def openValue (engine : AccountingEngine) (mark : String → Option ℚ) : ℚ :=
  sumEntries (fun symbol lots => valueAt (mark symbol) lots) engine.state.openPositions

/-- The same without the lots of one symbol. -/
def openValueElsewhere (engine : AccountingEngine) (mark : String → Option ℚ)
    (symbol : String) : ℚ :=
  sumEntries (fun s lots => if s = symbol then 0 else valueAt (mark s) lots)
    engine.state.openPositions

/-- What the engine reports is the value of all marked lots. -/
def ReportsTotal (engine : AccountingEngine) (mark : String → Option ℚ) : Prop :=
  engine.state.unrealizedPnl = engine.openValue mark

/-! ## The two ways the value is derived -/

theorem deriveUnrealizedTotal_eq (engine : AccountingEngine) :
    engine.deriveUnrealizedTotal =
      engine.openValue fun symbol => engine.markPrices.lookup symbol := by
  have hcomm := sumEntries_comm
    (fun (_ : String) (lots : List PositionLot) (markPrice : ℚ) =>
      (lots.map fun lot => unrealizedForLot lot markPrice).sum)
    engine.state.openPositions engine.markPrices
  unfold openValue valueAt
  rw [hcomm]
  unfold deriveUnrealizedTotal
  congr 1
  funext symbol markPrice
  unfold deriveUnrealizedWithMark lotsOf
  cases engine.state.openPositions.lookup symbol with
  | none => rfl
  | some lots => rfl

@[simp] theorem valueAt_nil (mark : Option ℚ) : valueAt mark [] = 0 := by
  cases mark <;> rfl

/-- The value of one symbol's lots, and of the others. -/
theorem openValue_split (engine : AccountingEngine) (mark : String → Option ℚ)
    (symbol : String) :
    engine.openValue mark =
      valueAt (mark symbol) (engine.lotsOf symbol) + engine.openValueElsewhere mark symbol := by
  unfold openValue
  rw [sumEntries_split symbol, elim_lotsOf (valueAt (mark symbol)) (valueAt_nil _)]
  rfl

/-- A fill changes no other symbol's lots. -/
theorem openValueElsewhere_applyFill (engine : AccountingEngine) (entry : FillLedgerEntry)
    (mark : String → Option ℚ) :
    (engine.applyFill entry).2.openValueElsewhere mark entry.symbol =
      engine.openValueElsewhere mark entry.symbol := by
  have hentries := sumEntries_applyFill engine entry
    (fun s lots => if s = entry.symbol then 0 else valueAt (mark s) lots) (if_pos rfl)
  rwa [if_pos rfl, if_pos rfl, add_zero, add_zero] at hentries

/-- What a call reports: all marked lots, but for a fill of a marked symbol. -/
theorem unrealizedPnl_applyFill (engine : AccountingEngine) (entry : FillLedgerEntry) :
    (engine.applyFill entry).2.state.unrealizedPnl =
      (engine.markPrices.lookup entry.symbol).elim (engine.applyFill entry).2.deriveUnrealizedTotal
        ((engine.applyFill entry).2.deriveUnrealizedWithMark entry.symbol) := by
  unfold applyFill applyFillInternal
  dsimp only
  cases engine.markPrices.lookup entry.symbol <;> rfl

/-- Whether the call leaves the reported value the total, in terms of what is
held before it. -/
def KeepsTotal (engine : AccountingEngine) (mark : String → Option ℚ) : LedgerCall → Prop
  | .applyFill entry =>
    (mark entry.symbol).isSome → engine.openValueElsewhere mark entry.symbol = 0
  | .markToMarket _ _ => True

theorem applyFill_reportsTotal_iff (engine : AccountingEngine) (entry : FillLedgerEntry) :
    (engine.applyFill entry).2.ReportsTotal (fun symbol => engine.markPrices.lookup symbol) ↔
      engine.KeepsTotal (fun symbol => engine.markPrices.lookup symbol) (.applyFill entry) := by
  unfold ReportsTotal KeepsTotal
  rw [unrealizedPnl_applyFill]
  cases hmark : engine.markPrices.lookup entry.symbol with
  | none =>
    rw [Option.elim_none, deriveUnrealizedTotal_eq]
    exact iff_of_true rfl fun hsome => by simp [hmark] at hsome
  | some markPrice =>
    rw [Option.elim_some, openValue_split _ _ entry.symbol, openValueElsewhere_applyFill]
    simp only [hmark, Option.isSome_some, forall_const]
    exact left_eq_add

theorem markToMarket_reportsTotal (engine : AccountingEngine) (symbol : String) (markPrice : ℚ) :
    (engine.markToMarket symbol markPrice).2.ReportsTotal fun s =>
      (engine.markToMarket symbol markPrice).2.markPrices.lookup s :=
  deriveUnrealizedTotal_eq (engine.markToMarket symbol markPrice).2

/-! ## Runs -/

theorem lookup_markPrices_after (method : LotMatchingMethod) (calls : List LedgerCall)
    (symbol : String) :
    ((new method).after calls).markPrices.lookup symbol = latestMark calls symbol := by
  induction calls using List.reverseRecOn with
  | nil => rfl
  | append_singleton calls c ih =>
    unfold latestMark at ih ⊢
    rw [after_append, after_cons, after_nil, List.filterMap_append]
    cases c with
    | applyFill entry =>
      change ((new method).after calls).markPrices.lookup symbol = _
      rw [ih]
      simp [LedgerCall.markOf]
    | markToMarket s markPrice =>
      change (((new method).after calls).markPrices.insert s markPrice).lookup symbol = _
      by_cases hs : s = symbol
      · subst hs
        rw [AList.lookup_insert]
        simp [LedgerCall.markOf]
      · rw [AList.lookup_insert_ne (Ne.symm hs), ih]
        simp [LedgerCall.markOf, hs]

theorem latestMark_eq (method : LotMatchingMethod) (calls : List LedgerCall) :
    latestMark calls = fun symbol => ((new method).after calls).markPrices.lookup symbol :=
  funext fun symbol => (lookup_markPrices_after method calls symbol).symm

/-- The value reported is the total after every call exactly when every fill
of a marked symbol meets other marked lots that are worth nothing in sum. -/
theorem unrealized_total_iff (method : LotMatchingMethod) (calls : List LedgerCall) :
    (∀ done, done <+: calls → ((new method).after done).ReportsTotal (latestMark done)) ↔
      ∀ done c, done ++ [c] <+: calls →
        ((new method).after done).KeepsTotal (latestMark done) c := by
  have hstep : ∀ done c,
      ((new method).after (done ++ [c])).ReportsTotal (latestMark (done ++ [c])) ↔
      ((new method).after done).KeepsTotal (latestMark done) c := by
    intro done c
    rw [latestMark_eq method done, latestMark_eq method (done ++ [c]), after_append, after_cons,
      after_nil]
    cases c with
    | applyFill entry => exact applyFill_reportsTotal_iff _ entry
    | markToMarket symbol markPrice =>
      exact iff_of_true (markToMarket_reportsTotal _ symbol markPrice) trivial
  constructor
  · exact fun hall done c hprefix => (hstep done c).mp (hall _ hprefix)
  · intro hkeeps done hprefix
    induction done using List.reverseRecOn with
    | nil => rfl
    | append_singleton done c _ => exact (hstep done c).mpr (hkeeps done c hprefix)

/-- A symbol bought and marked at a gain, and then a second one. -/
def twoSymbols : List LedgerCall :=
  [.applyFill { orderId := "order-1", fillId := "f1", symbol := "BTCUSDT", side := .buy,
                price := 100, quantity := 1 },
   .markToMarket "BTCUSDT" 110,
   .markToMarket "ETHUSDT" 10,
   .applyFill { orderId := "order-2", fillId := "f2", symbol := "ETHUSDT", side := .buy,
                price := 10, quantity := 1 }]

/-- The gain on the first symbol is gone from the report. -/
theorem twoSymbols_reported :
    ((new .fifo).after twoSymbols).state.unrealizedPnl = 0 ∧
      ((new .fifo).after twoSymbols).openValue (latestMark twoSymbols) = 10 := by
  constructor <;> decide +kernel

end AccountingEngine

end RealTimeTrading.Rtts.Accounting
