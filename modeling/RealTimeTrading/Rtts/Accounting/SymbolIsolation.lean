/-
RealTimeTrading.Rtts.Accounting.SymbolIsolation — what the exposure of one
symbol depends on.

`AgreeOn` compares two engines by what they hold for one symbol: its lots
and its mark. A call for the symbol keeps two engines in agreement, and a
call for another changes nothing of it, so the lots and the mark are those
of the symbol's own calls. The realized total is one number for the whole
account; it is the sum of what the symbol's calls realize and of what the
others do.
-/
import Mathlib.Data.List.Induction
import Mathlib.Tactic.Linarith
import Mathlib.Tactic.NormNum
import RealTimeTrading.Rtts.Accounting.LedgerCalls

namespace RealTimeTrading.Rtts.Accounting

/-! ## Calls for one symbol -/

/-- The calls for `symbol`, in order. -/
def callsFor (symbol : String) (calls : List LedgerCall) : List LedgerCall :=
  calls.filter fun c => decide (c.symbol = symbol)

/-- The calls for all symbols but `symbol`, in order. -/
def callsElsewhere (symbol : String) (calls : List LedgerCall) : List LedgerCall :=
  calls.filter fun c => decide (c.symbol ≠ symbol)

theorem callsFor_callsElsewhere {symbol other : String} (h : other ≠ symbol)
    (calls : List LedgerCall) :
    callsFor other (callsElsewhere symbol calls) = callsFor other calls := by
  unfold callsFor callsElsewhere
  rw [List.filter_filter]
  refine List.filter_congr fun c _ => ?_
  by_cases hc : c.symbol = other
  · simp [hc, h]
  · simp [hc]

namespace AccountingEngine

/-! ## Agreement on a symbol -/

/-- The two engines hold the same for `symbol`. -/
structure AgreeOn (symbol : String) (a b : AccountingEngine) : Prop where
  method : a.matchingMethod = b.matchingMethod
  lots : a.state.openPositions.lookup symbol = b.state.openPositions.lookup symbol
  mark : a.markPrices.lookup symbol = b.markPrices.lookup symbol

section AgreeOn

variable {symbol : String} {a b c : AccountingEngine}

theorem AgreeOn.refl (symbol : String) (a : AccountingEngine) : AgreeOn symbol a a :=
  ⟨rfl, rfl, rfl⟩

theorem AgreeOn.symm (h : AgreeOn symbol a b) : AgreeOn symbol b a :=
  ⟨h.method.symm, h.lots.symm, h.mark.symm⟩

theorem AgreeOn.trans (h : AgreeOn symbol a b) (h' : AgreeOn symbol b c) : AgreeOn symbol a c :=
  ⟨h.method.trans h'.method, h.lots.trans h'.lots, h.mark.trans h'.mark⟩

theorem AgreeOn.lotsOf (h : AgreeOn symbol a b) : a.lotsOf symbol = b.lotsOf symbol := by
  unfold AccountingEngine.lotsOf
  rw [h.lots]

/-- The lots after a fill come from those of its symbol. -/
theorem AgreeOn.lotsAfter {entry : FillLedgerEntry} (h : AgreeOn entry.symbol a b) :
    a.lotsAfter entry = b.lotsAfter entry := by
  unfold AccountingEngine.lotsAfter
  simp only [matched_eq, Matching.onto, h.method, h.lotsOf]

theorem AgreeOn.call {call : LedgerCall} (h : AgreeOn call.symbol a b) :
    AgreeOn call.symbol (a.call call) (b.call call) := by
  cases call with
  | applyFill entry =>
    have hlots : a.lotsAfter entry = b.lotsAfter entry := AgreeOn.lotsAfter h
    refine ⟨h.method, ?_, h.mark⟩
    change (a.state.openPositions.insert entry.symbol (a.lotsAfter entry)).lookup entry.symbol =
      (b.state.openPositions.insert entry.symbol (b.lotsAfter entry)).lookup entry.symbol
    rw [hlots, AList.lookup_insert, AList.lookup_insert]
  | markToMarket s markPrice =>
    refine ⟨h.method, h.lots, ?_⟩
    change (a.markPrices.insert s markPrice).lookup s = (b.markPrices.insert s markPrice).lookup s
    rw [AList.lookup_insert, AList.lookup_insert]

/-- A call for another symbol leaves what is held for this one. -/
theorem agreeOn_call_of_ne {call : LedgerCall} (h : call.symbol ≠ symbol) :
    AgreeOn symbol (a.call call) a := by
  cases call with
  | applyFill entry => exact ⟨rfl, AList.lookup_insert_ne (Ne.symm h), rfl⟩
  | markToMarket s markPrice => exact ⟨rfl, rfl, AList.lookup_insert_ne (Ne.symm h)⟩

/-- What is held for a symbol comes from its own calls. -/
theorem AgreeOn.after (h : AgreeOn symbol a b) (calls : List LedgerCall) :
    AgreeOn symbol (a.after calls) (b.after (callsFor symbol calls)) := by
  induction calls generalizing a b with
  | nil => exact h
  | cons call rest ih =>
    by_cases hcall : call.symbol = symbol
    · subst hcall
      have hfor : callsFor call.symbol (call :: rest) = call :: callsFor call.symbol rest := by
        simp [callsFor]
      rw [hfor]
      exact ih h.call
    · have hfor : callsFor symbol (call :: rest) = callsFor symbol rest := by
        simp [callsFor, hcall]
      rw [hfor]
      exact ih ((agreeOn_call_of_ne hcall).trans h)

theorem agreeOn_after (a : AccountingEngine) {calls calls' : List LedgerCall}
    (h : callsFor symbol calls = callsFor symbol calls') :
    AgreeOn symbol (a.after calls) (a.after calls') := by
  have hown := (AgreeOn.refl symbol a).after calls
  rw [h] at hown
  exact hown.trans ((AgreeOn.refl symbol a).after calls').symm

end AgreeOn

/-! ## The realized total -/

/-- What a call realizes on these lots of its symbol. -/
def realizedBy (method : LotMatchingMethod) (lots : List PositionLot) : LedgerCall → ℚ
  | .applyFill entry => (matchLots method lots entry).realizedPnlTotal
  | .markToMarket _ _ => 0

theorem realizedPnlTotal_call (engine : AccountingEngine) (c : LedgerCall) :
    (engine.call c).state.realizedPnlTotal = engine.state.realizedPnlTotal +
      realizedBy engine.matchingMethod (engine.lotsOf c.symbol) c := by
  cases c with
  | applyFill entry =>
    change (engine.matched entry).realizedPnlTotal = _
    rw [matched_eq]
    rfl
  | markToMarket symbol markPrice => exact (add_zero _).symm

theorem AgreeOn.realizedBy {a b : AccountingEngine} {c : LedgerCall} (h : AgreeOn c.symbol a b) :
    AccountingEngine.realizedBy a.matchingMethod (a.lotsOf c.symbol) c =
      AccountingEngine.realizedBy b.matchingMethod (b.lotsOf c.symbol) c := by
  rw [h.method, h.lotsOf]

/-- The total is what the symbol's calls realize alone and what the others do alone. -/
theorem realizedPnlTotal_after (method : LotMatchingMethod) (symbol : String)
    (calls : List LedgerCall) :
    ((new method).after calls).state.realizedPnlTotal =
      ((new method).after (callsFor symbol calls)).state.realizedPnlTotal +
        ((new method).after (callsElsewhere symbol calls)).state.realizedPnlTotal := by
  induction calls using List.reverseRecOn with
  | nil => simp [callsFor, callsElsewhere, new]
  | append_singleton calls c ih =>
    rw [after_append, after_cons, after_nil, realizedPnlTotal_call, ih]
    by_cases hc : c.symbol = symbol
    · have hfor : callsFor symbol (calls ++ [c]) = callsFor symbol calls ++ [c] := by
        simp [callsFor, hc]
      have helsewhere : callsElsewhere symbol (calls ++ [c]) = callsElsewhere symbol calls := by
        simp [callsElsewhere, hc]
      have hagree : AgreeOn c.symbol ((new method).after calls)
          ((new method).after (callsFor symbol calls)) := by
        rw [hc]
        exact (AgreeOn.refl symbol _).after calls
      rw [hfor, helsewhere, after_append, after_cons, after_nil, realizedPnlTotal_call,
        hagree.realizedBy]
      ring
    · have hfor : callsFor symbol (calls ++ [c]) = callsFor symbol calls := by
        simp [callsFor, hc]
      have helsewhere :
          callsElsewhere symbol (calls ++ [c]) = callsElsewhere symbol calls ++ [c] := by
        simp [callsElsewhere, hc]
      have hagree : AgreeOn c.symbol ((new method).after calls)
          ((new method).after (callsElsewhere symbol calls)) :=
        agreeOn_after _ (callsFor_callsElsewhere hc calls).symm
      rw [hfor, helsewhere, after_append, after_cons, after_nil, realizedPnlTotal_call,
        hagree.realizedBy]
      ring

/-! ## The exposure -/

/-- A symbol has no entry of lots until a fill for it is applied. -/
theorem openPositions_after_eq_none (method : LotMatchingMethod) (symbol : String)
    (calls : List LedgerCall) :
    ((new method).after calls).state.openPositions.lookup symbol = none ↔
      ∀ entry, .applyFill entry ∈ calls → entry.symbol ≠ symbol := by
  induction calls using List.reverseRecOn with
  | nil => simp [new]
  | append_singleton calls c ih =>
    rw [after_append, after_cons, after_nil]
    cases c with
    | applyFill entry =>
      change (((new method).after calls).state.openPositions.insert entry.symbol _).lookup symbol =
        none ↔ _
      by_cases hsymbol : entry.symbol = symbol
      · subst hsymbol
        rw [AList.lookup_insert]
        refine iff_of_false (Option.some_ne_none _) fun hnone => ?_
        exact hnone entry (List.mem_append_right _ (List.mem_singleton_self _)) rfl
      · rw [AList.lookup_insert_ne (Ne.symm hsymbol), ih]
        constructor
        · intro hnone x hx
          rcases List.mem_append.mp hx with hx | hx
          · exact hnone x hx
          · cases List.mem_singleton.mp hx
            exact hsymbol
        · exact fun hnone x hx => hnone x (List.mem_append_left _ hx)
    | markToMarket s markPrice =>
      refine ih.trans ⟨fun hnone x hx => ?_, fun hnone x hx => hnone x (List.mem_append_left _ hx)⟩
      rcases List.mem_append.mp hx with hx | hx
      · exact hnone x hx
      · cases List.mem_singleton.mp hx

/-- The two exposures differ in the realized result at most. -/
structure SameHolding (a b : PositionExposure) : Prop where
  netQuantity : a.netQuantity = b.netQuantity
  avgEntryPrice : a.avgEntryPrice = b.avgEntryPrice
  openLots : a.openLots = b.openLots
  unrealizedPnl : a.unrealizedPnl = b.unrealizedPnl

theorem AgreeOn.sameHolding {symbol : String} {a b : AccountingEngine} (h : AgreeOn symbol a b) :
    SameHolding (a.positionExposure symbol) (b.positionExposure symbol) := by
  unfold positionExposure
  rw [h.lots, h.mark]
  cases b.state.openPositions.lookup symbol with
  | none => exact ⟨rfl, rfl, rfl, rfl⟩
  | some lots => exact ⟨rfl, rfl, rfl, rfl⟩

theorem AgreeOn.exposure_eq_iff {symbol : String} {a b : AccountingEngine}
    (h : AgreeOn symbol a b) :
    a.positionExposure symbol = b.positionExposure symbol ↔
      a.state.openPositions.lookup symbol = none ∨
        a.state.realizedPnlTotal = b.state.realizedPnlTotal := by
  unfold positionExposure
  rw [h.lots, h.mark]
  cases b.state.openPositions.lookup symbol with
  | none => simp
  | some lots => simp

/-- A bought `BTCUSDT`. -/
def bitcoinBought : LedgerCall := .applyFill
  { orderId := "order-1", fillId := "f1", symbol := "BTCUSDT", side := .buy, price := 100,
    quantity := 1 }

/-- An `ETHUSDT` bought and sold at a gain. -/
def etherRoundTrip : List LedgerCall :=
  [.applyFill { orderId := "order-2", fillId := "f2", symbol := "ETHUSDT", side := .buy,
                price := 10, quantity := 1 },
   .applyFill { orderId := "order-3", fillId := "f3", symbol := "ETHUSDT", side := .sell,
                price := 12, quantity := 1 }]

theorem callsFor_etherRoundTrip :
    callsFor "BTCUSDT" [bitcoinBought] = callsFor "BTCUSDT" (bitcoinBought :: etherRoundTrip) := by
  simp [callsFor, bitcoinBought, etherRoundTrip, LedgerCall.symbol]

end AccountingEngine

end RealTimeTrading.Rtts.Accounting
