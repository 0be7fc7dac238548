/-
RealTimeTrading.ControlPlane.LedgerCheck — what `Reconciliation` finds.

The check compares how many order ids the ledger and the execution events
name, and then the quantities of the ids the events name. The law it
stands for looks at every id on either side. `matched_exact_iff` says for
which ledgers and events the two agree; records that come in pairs, one
ledger entry and one event for each fill, are always among them.
-/
import RealTimeTrading.ControlPlane.StoreCalls
import RealTimeTrading.Data.Tally
import Mathlib.Tactic.NormNum

namespace RealTimeTrading.ControlPlane.Store

variable (s : Store)

/-! ## Ids and quantities -/

def ledgerIDs : List OrderID := s.ledger.map (·.orderID)

def eventIDs : List OrderID := s.executions.map (·.orderID)

/-- By how much the events and the ledger differ on an order. -/
def discrepancy (x : OrderID) : ℚ :=
  |Data.totalOf (·.orderID) (·.filledQuantity) x s.executions -
    Data.totalOf (·.orderID) (·.quantity) x s.ledger|

theorem ledgerQtyByOrder_eq :
    s.ledgerQtyByOrder = Data.tally (·.orderID) (·.quantity) s.ledger := rfl

theorem exchangeFillQtyByOrder_eq :
    s.exchangeFillQtyByOrder = Data.tally (·.orderID) (·.filledQuantity) s.executions := rfl

/-! ## The check and the law -/

/-- For every order id on either side the sums differ by at most `1e-9`. -/
def LedgerAgrees : Prop := ∀ x, x ∈ s.ledgerIDs ∨ x ∈ s.eventIDs → s.discrepancy x ≤ 1e-9

/-- What the check computes: as many ids on both sides, and the ids of the
events agree. -/
theorem isMatched_iff : s.reconciliation.isMatched = true ↔
    s.ledgerIDs.toFinset.card = s.eventIDs.toFinset.card ∧
      ∀ x ∈ s.eventIDs, s.discrepancy x ≤ 1e-9 := by
  have hentries : (∀ e ∈ s.exchangeFillQtyByOrder.entries,
      ¬ 1e-9 < |e.2 - (s.ledgerQtyByOrder.lookup e.1).getD 0|) ↔
      ∀ x ∈ s.eventIDs, s.discrepancy x ≤ 1e-9 := by
    rw [exchangeFillQtyByOrder_eq]
    refine (Data.forall_mem_tally
      (P := fun x qty => ¬ 1e-9 < |qty - (s.ledgerQtyByOrder.lookup x).getD 0|) _).trans
      (forall₂_congr fun x _ => ?_)
    rw [ledgerQtyByOrder_eq, Data.lookup_tally, not_lt]
    rfl
  rw [← hentries]
  simp only [reconciliation, ledgerQtyByOrder_eq, exchangeFillQtyByOrder_eq, Bool.and_eq_true,
    decide_eq_true_eq, List.all_eq_true, Bool.not_eq_true', Data.length_tally, ledgerIDs, eventIDs]
  exact and_congr_right fun _ => forall₂_congr fun _ _ => decide_eq_false_iff_not

/-- As many ids on both sides, and each id the ledger alone names holds next to
nothing or an id of the events is off; or not as many, and some id is off. -/
def Conclusive : Prop :=
  if s.ledgerIDs.toFinset.card = s.eventIDs.toFinset.card then
    (∀ x ∈ s.ledgerIDs, x ∉ s.eventIDs → s.discrepancy x ≤ 1e-9) ∨
      ∃ x ∈ s.eventIDs, 1e-9 < s.discrepancy x
  else ∃ x, (x ∈ s.ledgerIDs ∨ x ∈ s.eventIDs) ∧ 1e-9 < s.discrepancy x

/-- The check agrees with the law on exactly these stores. -/
theorem matched_exact_iff :
    (s.reconciliation.isMatched = true ↔ s.LedgerAgrees) ↔ s.Conclusive := by
  rw [isMatched_iff]
  unfold Conclusive
  split
  · rename_i hcard
    constructor
    · intro hexact
      by_cases hoff : ∃ x ∈ s.eventIDs, 1e-9 < s.discrepancy x
      · exact Or.inr hoff
      · refine Or.inl fun x hx _ => ?_
        have hevents : ∀ x ∈ s.eventIDs, s.discrepancy x ≤ 1e-9 := fun x hx =>
          not_lt.mp fun hlt => hoff ⟨x, hx, hlt⟩
        exact hexact.mp ⟨hcard, hevents⟩ x (Or.inl hx)
    · rintro (hledger | ⟨x, hx, hoff⟩)
      · constructor
        · rintro ⟨-, hevents⟩ x hx
          by_cases hevent : x ∈ s.eventIDs
          · exact hevents x hevent
          · exact hledger x (hx.resolve_right hevent) hevent
        · exact fun hlaw => ⟨hcard, fun x hx => hlaw x (Or.inr hx)⟩
      · exact iff_of_false (fun h => absurd hoff (not_lt.mpr (h.2 x hx)))
          fun h => absurd hoff (not_lt.mpr (h x (Or.inr hx)))
  · rename_i hcard
    constructor
    · intro hexact
      by_contra hnone
      refine hcard (hexact.mpr fun x hx => ?_).1
      exact not_lt.mp fun hlt => hnone ⟨x, hx, hlt⟩
    · rintro ⟨x, hx, hoff⟩
      exact iff_of_false (fun h => hcard h.1) fun h => absurd hoff (not_lt.mpr (h x hx))

/-! ## Paired records -/

/-- A ledger entry and an event that record the same fill. -/
def Paired (fill : FillLedgerEntry) (event : ExecutionEvent) : Prop :=
  fill.orderID = event.orderID ∧ fill.quantity = event.filledQuantity

/-- Every record has its counterpart. -/
def RecordsPaired : Prop := List.Forall₂ Paired s.ledger s.executions

theorem totalOf_paired {fills : List FillLedgerEntry} {events : List ExecutionEvent}
    (h : List.Forall₂ Paired fills events) (x : OrderID) :
    Data.totalOf (·.orderID) (·.quantity) x fills =
      Data.totalOf (·.orderID) (·.filledQuantity) x events := by
  induction h with
  | nil => rfl
  | cons hpair _ ih => rw [Data.totalOf_cons, Data.totalOf_cons, ih, hpair.1, hpair.2]

theorem orderIDs_paired {fills : List FillLedgerEntry} {events : List ExecutionEvent}
    (h : List.Forall₂ Paired fills events) :
    fills.map (·.orderID) = events.map (·.orderID) := by
  induction h with
  | nil => rfl
  | cons hpair _ ih => rw [List.map_cons, List.map_cons, ih, hpair.1]

/-- Records in pairs match. -/
theorem matched_of_paired {s : Store} (h : s.RecordsPaired) :
    s.reconciliation.isMatched = true := by
  rw [isMatched_iff, ledgerIDs, eventIDs, orderIDs_paired h]
  refine ⟨rfl, fun x _ => ?_⟩
  rw [discrepancy, totalOf_paired h, sub_self, abs_zero]
  norm_num

/-! ## Ids on one side only -/

/-- One fill, entered in the ledger for order `a` and as an empty event of
order `b`. -/
def misfiled : Store :=
  StoreCall.apply (StoreCall.apply .newStore (.reserveOrder 1 { id := "a", idempotencyKey := "k" }))
    (.applyExternalFill 2 "a" ⟨"a", "f", "BTCUSDT", .buy, 100, 1, .taker, 0, "", 0, 0, 2, 0⟩
      { orderID := "b", symbol := "BTCUSDT", status := .filled })

/-- The check passes and the quantities of order `a` differ by 1. -/
theorem matched_not_exact : ¬ ∀ s : Store, s.Reached (fun _ => True) →
    (s.reconciliation.isMatched = true ↔ s.LedgerAgrees) := by
  intro hexact
  have hreached : misfiled.Reached fun _ => True := (Reached.new.call trivial).call trivial
  have hmatched : misfiled.reconciliation.isMatched = true := by decide +kernel
  have hagrees := (hexact misfiled hreached).mp hmatched "a" (Or.inl (by decide +kernel))
  exact absurd hagrees (by decide +kernel)

end RealTimeTrading.ControlPlane.Store
