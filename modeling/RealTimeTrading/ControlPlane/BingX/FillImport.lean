/-
RealTimeTrading.ControlPlane.BingX.FillImport — which reported fills
`Reconcile` imports.

The loop asks for each fill whether its order has a ledger quantity, and
the ledger it asks is the one it is filling. Seen per order id the whole
routine is a fold over the reported rows (`importQty`): the first nonzero
quantity is kept and the others are dropped.
-/
import RealTimeTrading.ControlPlane.BingX.Reconcile
import RealTimeTrading.ControlPlane.Schedule
import Mathlib.Algebra.Order.BigOperators.Group.List

namespace RealTimeTrading.ControlPlane.BingX

open RealTimeTrading.ControlPlane Store

/-! ## Sound stores -/

/-- Referential integrity, and no order is reserved under the empty key. -/
structure Sound (s : Store) : Prop where
  wellFormed : s.WellFormed
  unkeyed : s.idempotency.lookup "" = none

theorem newStore_sound : Sound newStore := ⟨newStore_wellFormed, rfl⟩

section Sound

variable {s : Store}

@[simp] theorem reserveKey_ledger (k : String) (id : OrderID) (s : Store) :
    (s.reserveKey k id).ledger = s.ledger := rfl

theorem upsertOrder_ledger (now : Time) (o : Order) (s : Store) :
    (s.upsertOrder now o).ledger = s.ledger := by
  unfold Store.upsertOrder
  dsimp only
  split <;> simp

theorem upsertOrder_idempotency (now : Time) (o : Order) (s : Store) :
    (s.upsertOrder now o).idempotency =
      if o.idempotencyKey ≠ "" then
        s.idempotency.insert o.idempotencyKey (upsertedOrder now s o).id
      else s.idempotency := by
  unfold Store.upsertOrder
  dsimp only
  split <;> simp [Store.reserveKey]

theorem Sound.upsertOrder (h : Sound s) (now : Time) (o : Order) : Sound (s.upsertOrder now o) where
  wellFormed := h.wellFormed.upsertOrder now o
  unkeyed := by
    rw [upsertOrder_idempotency]
    split
    · rename_i hkey
      rw [GoMap.lookup_insert_ite, if_neg (Ne.symm hkey)]
      exact h.unkeyed
    · exact h.unkeyed

theorem Sound.setPosition (h : Sound s) (p : Position) : Sound (s.setPosition p) :=
  ⟨h.wellFormed.setPosition p, h.unkeyed⟩

theorem Sound.setAccountState (h : Sound s) (a : AccountState) : Sound (s.setAccountState a) :=
  ⟨h.wellFormed.setAccountState a, h.unkeyed⟩

theorem Sound.appendReconciliationReport (h : Sound s) (r : ReconciliationReport) :
    Sound (s.appendReconciliationReport r) :=
  ⟨⟨h.wellFormed.stored, h.wellFormed.reserved, h.wellFormed.bound⟩, h.unkeyed⟩

theorem Sound.applyExternalFill (h : Sound s) (now : Time) (id : OrderID) (fill : FillLedgerEntry)
    (event : ExecutionEvent) : Sound (s.applyExternalFill now id fill event).2 where
  wellFormed := h.wellFormed.applyExternalFill now id fill event
  unkeyed := by
    unfold Store.applyExternalFill
    split <;> exact h.unkeyed

/-- A fill whose id resolves to a stored order reaches the ledger. -/
theorem applyExternalFill_ledger (now : Time) {id : OrderID} (fill : FillLedgerEntry)
    (event : ExecutionEvent) (hid : s.resolve id ∈ s.orders) :
    (s.applyExternalFill now id fill event).2.ledger = s.ledger ++ [fill] := by
  obtain ⟨o, ho⟩ := (GoMap.mem_iff_lookup _ _).mp hid
  simp only [Store.applyExternalFill, ho]

/-- In a well-formed store an id resolves to a stored order if it is stored
or bound. -/
theorem resolve_mem (hwf : s.WellFormed) {id : OrderID}
    (hid : id ∈ s.orders ∨ ∃ i, s.exchangeIDs.lookup id = some i) : s.resolve id ∈ s.orders := by
  unfold Store.resolve
  cases hx : s.exchangeIDs.lookup id with
  | some i => exact hwf.bound id i hx
  | none =>
    rcases hid with hid | ⟨i, hi⟩
    · exact hid
    · rw [hx] at hi; cases hi

theorem mem_upsertOrder (now : Time) (o : Order) (s : Store) :
    (upsertedOrder now s o).id ∈ (s.upsertOrder now o).orders := by
  unfold Store.upsertOrder
  dsimp only
  split <;>
    simpa [Store.reserveKey] using WellFormed.mem_putOrder (upsertedOrder now s o) s

theorem upsertOrder_exchangeIDs (now : Time) (o : Order) (s : Store) (hx : o.exchangeOrderID ≠ "") :
    (s.upsertOrder now o).exchangeIDs.lookup o.exchangeOrderID =
      some (upsertedOrder now s o).id := by
  unfold Store.upsertOrder Store.bindExchangeID
  dsimp only
  rw [if_pos hx, AList.lookup_insert]

end Sound

/-! ## One fill -/

section Fill

variable {s : Store} {now : Time} {fill : FillLedgerEntry}

theorem isMissing_iff (s : Store) (x : String) : isMissing s x ↔ qtyOf x s.ledger = 0 := by
  unfold isMissing Store.reconciliation
  rw [lookup_ledgerQtyByOrder]

theorem adopt_ledger (now : Time) (fill : FillLedgerEntry) (s : Store) :
    (adopt now fill s).2.ledger = s.ledger := by
  unfold adopt
  split
  · rfl
  · exact upsertOrder_ledger _ _ _

theorem adopt_sound (h : Sound s) (now : Time) (fill : FillLedgerEntry) :
    Sound (adopt now fill s).2 := by
  unfold adopt
  split
  · exact h
  · exact h.upsertOrder _ _

/-- The order a fill is imported for is one the store then knows. -/
theorem adopt_resolves (h : Sound s) (now : Time) (fill : FillLedgerEntry) :
    (adopt now fill s).2.resolve (adopt now fill s).1.id ∈ (adopt now fill s).2.orders := by
  refine resolve_mem (adopt_sound h now fill).wellFormed ?_
  unfold adopt
  split
  · rename_i order horder
    obtain ⟨i, -, hi⟩ := Option.bind_eq_some_iff.mp horder
    rw [h.wellFormed.stored i order hi]
    exact Or.inl ((GoMap.mem_iff_lookup _ _).mpr ⟨order, hi⟩)
  · dsimp only
    by_cases hx : fill.orderID = ""
    · -- no id to bind, but no key to be redirected by either
      have hkey : s.idempotency.lookup fill.orderID = none := by rw [hx]; exact h.unkeyed
      have hid : (upsertedOrder now s (adoptedOrder now fill)).id = (adoptedOrder now fill).id := by
        simp only [upsertedOrder, adoptedOrder, hkey]
      have hmem := mem_upsertOrder now (adoptedOrder now fill) s
      rw [hid] at hmem
      exact Or.inl hmem
    · have hid : (adoptedOrder now fill).id = fill.orderID := by
        simp only [adoptedOrder, fallbackID, ne_eq, hx, not_false_eq_true, if_true]
      rw [hid]
      exact Or.inr ⟨_, upsertOrder_exchangeIDs now (adoptedOrder now fill) s hx⟩

theorem importFill_sound {b : Boot} (h : Sound b.store) (now : Time) (fill : FillLedgerEntry) :
    Sound (importFill now fill b).store := by
  unfold importFill
  split
  · exact (adopt_sound h now fill).applyExternalFill _ _ _ _
  · exact h

/-- A missing fill is appended to the ledger and counted; another changes nothing. -/
theorem importFill_ledger {b : Boot} (h : Sound b.store) (now : Time) (fill : FillLedgerEntry) :
    (importFill now fill b).store.ledger = b.store.ledger ++
        (if qtyOf fill.orderID b.store.ledger = 0 then [fill] else []) ∧
      (importFill now fill b).report.missingFills = b.report.missingFills +
        (if qtyOf fill.orderID b.store.ledger = 0 then 1 else 0) := by
  unfold importFill
  by_cases hmiss : isMissing b.store fill.orderID
  · have hqty := (isMissing_iff _ _).mp hmiss
    rw [if_pos hmiss, if_pos hqty, if_pos hqty]
    refine ⟨?_, rfl⟩
    exact (applyExternalFill_ledger now fill _ (adopt_resolves h now fill)).trans
      (by rw [adopt_ledger])
  · have hqty : ¬ qtyOf fill.orderID b.store.ledger = 0 :=
      fun h => hmiss ((isMissing_iff _ _).mpr h)
    rw [if_neg hmiss, if_neg hqty, if_neg hqty]
    exact ⟨(List.append_nil _).symm, rfl⟩

end Fill

/-! ## The fold over the reported rows -/

def rowQty (std : Std) (row : FillRaw) : ℚ := std.parseFloat row.qty

/-- The ledger quantities per order after one more reported row. -/
def importQty (std : Std) (Q : String → ℚ) (row : FillRaw) : String → ℚ :=
  if Q row.orderID = 0 then Function.update Q row.orderID (rowQty std row) else Q

/-- The reported quantities of an order, in order. -/
def quantitiesOf (std : Std) (x : String) (rows : List FillRaw) : List ℚ :=
  (rows.filter fun row => decide (row.orderID = x)).map (rowQty std)

def firstNonzero : List ℚ → ℚ
  | [] => 0
  | q :: rest => if q = 0 then firstNonzero rest else q

theorem quantitiesOf_cons (std : Std) (x : String) (row : FillRaw) (rows : List FillRaw) :
    quantitiesOf std x (row :: rows) =
      if row.orderID = x then rowQty std row :: quantitiesOf std x rows
      else quantitiesOf std x rows := by
  unfold quantitiesOf
  by_cases h : row.orderID = x <;> simp [h]

/-- Of each order without a ledger quantity, the first nonzero one is kept. -/
theorem foldl_importQty (std : Std) (rows : List FillRaw) (Q : String → ℚ) (x : String) :
    rows.foldl (importQty std) Q x =
      if Q x = 0 then firstNonzero (quantitiesOf std x rows) else Q x := by
  induction rows generalizing Q with
  | nil =>
    simp only [List.foldl_nil, quantitiesOf, List.filter_nil, List.map_nil, firstNonzero]
    split <;> simp_all
  | cons row rest ih =>
    rw [List.foldl_cons, ih, quantitiesOf_cons]
    by_cases hrow : row.orderID = x
    · subst hrow
      rw [if_pos rfl]
      by_cases hQ : Q row.orderID = 0
      · simp [importQty, hQ, firstNonzero]
      · simp [importQty, hQ]
    · rw [if_neg hrow]
      have hsame : importQty std Q row x = Q x := by
        unfold importQty
        split
        · rw [Function.update_of_ne (Ne.symm hrow)]
        · rfl
      rw [hsame]

/-! ## What an import does to the ledger

`Imports rows b b'`: from `b`, the reported `rows` were handled and `b'`
was reached. It says all that the claims about the ledger need, and it
composes. -/

structure Imports (std : Std) (rows : List FillRaw) (b b' : Boot) : Prop where
  sound : Sound b'.store
  quantities : ∀ x, qtyOf x b'.store.ledger =
    rows.foldl (importQty std) (fun x => qtyOf x b.store.ledger) x
  counted : b.report.missingFills ≤ b'.report.missingFills
  quiet : b'.report.missingFills = b.report.missingFills ↔
    ∀ row ∈ rows, qtyOf row.orderID b.store.ledger ≠ 0
  kept : (∀ row ∈ rows, qtyOf row.orderID b.store.ledger ≠ 0) → b'.store.ledger = b.store.ledger

namespace Imports

variable {std : Std} {b b' b'' : Boot} {rows rows' : List FillRaw}

/-- A step that leaves the ledger and the count alone imports nothing. -/
theorem of_frame (hs : Sound b'.store) (hledger : b'.store.ledger = b.store.ledger)
    (hmissing : b'.report.missingFills = b.report.missingFills) : Imports std [] b b' where
  sound := hs
  quantities x := by rw [hledger]; rfl
  counted := le_of_eq hmissing.symm
  quiet := iff_of_true hmissing (by simp)
  kept _ := hledger

theorem trans (h : Imports std rows b b') (h' : Imports std rows' b' b'') :
    Imports std (rows ++ rows') b b'' where
  sound := h'.sound
  quantities x := by
    have hQ : (fun x => qtyOf x b'.store.ledger) =
        rows.foldl (importQty std) (fun x => qtyOf x b.store.ledger) := funext h.quantities
    rw [h'.quantities, hQ, List.foldl_append]
  counted := h.counted.trans h'.counted
  quiet := by
    constructor
    · intro hsame
      -- the count only grows, so neither part moved it
      have hfirst : b'.report.missingFills = b.report.missingFills :=
        le_antisymm (hsame ▸ h'.counted) h.counted
      have hrows := h.quiet.mp hfirst
      have hrows' := h'.quiet.mp (hsame.trans hfirst.symm)
      intro row hrow
      rcases List.mem_append.mp hrow with hrow | hrow
      · exact hrows row hrow
      · rw [← h.kept hrows]; exact hrows' row hrow
    · intro hall
      have hrows : ∀ row ∈ rows, qtyOf row.orderID b.store.ledger ≠ 0 :=
        fun row hrow => hall row (List.mem_append_left _ hrow)
      have hrows' : ∀ row ∈ rows', qtyOf row.orderID b'.store.ledger ≠ 0 := by
        intro row hrow
        rw [h.kept hrows]
        exact hall row (List.mem_append_right _ hrow)
      exact (h'.quiet.mpr hrows').trans (h.quiet.mpr hrows)
  kept hall := by
    have hfirst := h.kept fun row hrow => hall row (List.mem_append_left _ hrow)
    refine (h'.kept fun row hrow => ?_).trans hfirst
    rw [hfirst]
    exact hall row (List.mem_append_right _ hrow)

/-- One row. -/
theorem importFill (h : Sound b.store) (now : Time) (row : FillRaw) :
    Imports std [row] b (importFill now (mapFill std now row) b) := by
  obtain ⟨hledger, hmissing⟩ := importFill_ledger h now (mapFill std now row)
  have hid : (mapFill std now row).orderID = row.orderID := rfl
  rw [hid] at hledger hmissing
  by_cases hzero : qtyOf row.orderID b.store.ledger = 0
  · rw [if_pos hzero] at hledger hmissing
    refine ⟨importFill_sound h _ _, ?_, by omega, ?_, ?_⟩
    · intro x
      rw [hledger, qtyOf_append, List.foldl_cons, List.foldl_nil, importQty, if_pos hzero]
      by_cases hx : x = row.orderID
      · subst hx
        rw [Function.update_self, hzero]
        simp [mapFill, rowQty]
      · rw [Function.update_of_ne hx]
        simp [hid, Ne.symm hx]
    · refine iff_of_false (by omega) (fun hall => ?_)
      exact hall row (List.mem_singleton.mpr rfl) hzero
    · intro hall
      exact absurd hzero (hall row (List.mem_singleton.mpr rfl))
  · rw [if_neg hzero, List.append_nil] at hledger
    rw [if_neg hzero, Nat.add_zero] at hmissing
    refine ⟨importFill_sound h _ _, ?_, le_of_eq hmissing.symm, ?_, fun _ => hledger⟩
    · intro x
      rw [hledger, List.foldl_cons, List.foldl_nil, importQty, if_neg hzero]
    · refine iff_of_true hmissing (fun row' hrow' => ?_)
      rw [List.mem_singleton.mp hrow']
      exact hzero

/-- A whole reply. -/
theorem eachRow (clock : Nat → Time) (rows : List FillRaw) (h : Sound b.store) :
    Imports std rows b
      (eachRow clock (fun now row => BingX.importFill now (mapFill std now row)) rows b) := by
  induction rows generalizing b with
  | nil => exact of_frame h rfl rfl
  | cons row rest ih =>
    have hread : Imports std [] b { b with reads := b.reads + 1 } := of_frame h rfl rfl
    have hrow := hread.trans (importFill hread.sound (clock b.reads) row)
    exact hrow.trans (ih hrow.sound)

end Imports

/-! ## The whole routine -/

/-- The fills the replies report for `symbols`. -/
def reportedFills (std : Std) (replies : Replies) (symbols : List Symbol) : List FillRaw :=
  symbols.flatMap fun symbol => (replies.fills (std.toUpper symbol)).toOption.getD []

/-- The symbols `Reconcile` asks about. -/
def askedSymbols (std : Std) (clock : Nat → Time) (replies : Replies) (listed : List Order) :
    List Symbol :=
  activeSymbols ((replies.positions.toOption.getD []).map (mapPosition std (clock 0))) listed

section Routine

variable {std : Std} {clock : Nat → Time} {replies : Replies}

/-- Rows handled by a step that only touches positions or orders. -/
theorem eachRow_frame {A : Type} {f : Time → A → Boot → Boot}
    (hf : ∀ now row b, Sound b.store → Imports std [] b (f now row b)) (clock : Nat → Time)
    (rows : List A) {b : Boot} (h : Sound b.store) : Imports std [] b (eachRow clock f rows b) := by
  induction rows generalizing b with
  | nil => exact Imports.of_frame h rfl rfl
  | cons row rest ih =>
    have hread : Imports std [] b { b with reads := b.reads + 1 } := Imports.of_frame h rfl rfl
    have hrow := hread.trans (hf (clock b.reads) row _ hread.sound)
    exact hrow.trans (ih hrow.sound)

theorem reconcilePosition_imports (position : Position) {b : Boot} (h : Sound b.store) :
    Imports std [] b (reconcilePosition position b) := by
  refine Imports.of_frame (h.setPosition position) rfl ?_
  unfold reconcilePosition
  dsimp only
  split <;> rfl

theorem reconcileOrder_imports (now : Time) (order : Order) {b : Boot} (h : Sound b.store) :
    Imports std [] b (reconcileOrder now order b) := by
  refine Imports.of_frame (h.upsertOrder now order) (upsertOrder_ledger now order _) ?_
  unfold reconcileOrder
  dsimp only
  split <;> rfl

theorem reconcileSymbols_imports {symbols : List Symbol} {b b' : Boot} (h : Sound b.store)
    (hok : reconcileSymbols std clock replies symbols b = (b', none)) :
    Imports std (reportedFills std replies symbols) b b' := by
  induction symbols generalizing b with
  | nil =>
    cases hok
    exact Imports.of_frame h rfl rfl
  | cons symbol rest ih =>
    unfold reconcileSymbols at hok
    split at hok
    · cases hok
    · rename_i orders _
      dsimp only at hok
      split at hok
      · cases hok
      · rename_i fills hfills
        have horders : Imports std [] b _ :=
          eachRow_frame (fun now row b hb => reconcileOrder_imports now (mapOrder std now row) hb)
            clock orders h
        have hrows := horders.trans (Imports.eachRow clock fills horders.sound)
        have hreported : reportedFills std replies (symbol :: rest) =
            fills ++ reportedFills std replies rest := by
          simp [reportedFills, hfills, Except.toOption]
        rw [hreported]
        exact hrows.trans (ih hrows.sound hok)

theorem finish_imports {b : Boot} (h : Sound b.store) : Imports std [] b (finish b) := by
  refine Imports.of_frame (h.appendReconciliationReport _) rfl ?_
  unfold finish
  dsimp only
  split <;> rfl

/-- A run that returns without error, from the store it was given. -/
theorem reconcile_imports {listed : List Order} {s : Store} {out : Boot} (h : Sound s)
    (hok : reconcile std clock replies listed s = (out, none)) :
    ∃ b, b.store.ledger = s.ledger ∧ b.report.missingFills = 0 ∧
      Imports std (reportedFills std replies (askedSymbols std clock replies listed)) b out := by
  unfold reconcile at hok
  dsimp only at hok
  split at hok
  · cases hok
  · rename_i account _
    split at hok
    · cases hok
    · rename_i positions hpositions
      split at hok
      · cases hok
      · rename_i b' hsymbols
        obtain rfl : finish b' = out := congrArg Prod.fst hok
        have hpos : Imports std [] _ _ :=
          eachRow_frame (b := ⟨s.setAccountState account, ⟨true, 0, 0, 0, clock 0, []⟩, 1⟩)
            (fun _ position b hb => reconcilePosition_imports position hb) clock
            (positions.map (mapPosition std (clock 0))) (h.setAccountState account)
        have hasked : askedSymbols std clock replies listed =
            activeSymbols (positions.map (mapPosition std (clock 0))) listed := by
          simp [askedSymbols, hpositions, Except.toOption]
        have hall := hpos.trans (reconcileSymbols_imports hpos.sound hsymbols)
        have hend := hall.trans (finish_imports hall.sound)
        rw [hasked]
        refine ⟨⟨s.setAccountState account, ⟨true, 0, 0, 0, clock 0, []⟩, 1⟩, rfl, rfl, ?_⟩
        simpa only [List.nil_append, List.append_nil] using hend

end Routine

/-! ## Every fill exactly once -/

/-- The first nonzero quantity is the whole of it: those after it cancel out. -/
def SettledByOne : List ℚ → Prop
  | [] => False
  | q :: rest => if q = 0 then SettledByOne rest else rest.sum = 0

theorem settledByOne_iff (qs : List ℚ) :
    SettledByOne qs ↔ firstNonzero qs = qs.sum ∧ firstNonzero qs ≠ 0 := by
  induction qs with
  | nil => simp [SettledByOne, firstNonzero]
  | cons q rest ih =>
    by_cases hq : q = 0
    · simp only [SettledByOne, firstNonzero, hq, if_true, List.sum_cons, zero_add]
      exact ih
    · simp only [SettledByOne, firstNonzero, hq, if_false, List.sum_cons, ne_eq,
        not_false_eq_true, and_true]
      exact left_eq_add.symm

/-- Among positive quantities: there is only one. -/
theorem settledByOne_of_pos {qs : List ℚ} (hpos : ∀ q ∈ qs, 0 < q) :
    SettledByOne qs ↔ qs.length = 1 := by
  cases qs with
  | nil => simp [SettledByOne]
  | cons q rest =>
    have hrest : ∀ r ∈ rest, 0 < r := fun r hr => hpos r (List.mem_cons_of_mem _ hr)
    rw [SettledByOne, if_neg (hpos q List.mem_cons_self).ne']
    cases rest with
    | nil => simp
    | cons r rest =>
      have hsum : 0 < (r :: rest).sum := by
        rw [List.sum_cons]
        exact add_pos_of_pos_of_nonneg (hrest r List.mem_cons_self)
          (List.sum_nonneg fun t ht => (hrest t (List.mem_cons_of_mem _ ht)).le)
      exact iff_of_false hsum.ne' (by simp)

/-- The ledger holds all that was reported, and the second run found nothing
more to import. -/
def ImportedOnce (std : Std) (reported : List FillRaw) (out again : Boot) : Prop :=
  (∀ row ∈ reported, (out.store.reconciliation.ledgerQtyByOrder.lookup row.orderID).getD 0 =
      (quantitiesOf std row.orderID reported).sum) ∧
    again.store.ledger = out.store.ledger ∧ again.report.missingFills = 0

/-- Two runs that are told of the same fills import them exactly once if and
only if one fill of each order was all there was to import. -/
theorem importedOnce_iff {std : Std} {clock clock' : Nat → Time} {replies replies' : Replies}
    {listed listed' : List Order} {s : Store} {out again : Boot} (hs : Sound s)
    (hnew : ∀ row ∈ reportedFills std replies (askedSymbols std clock replies listed),
      ∀ entry ∈ s.ledger, entry.orderID ≠ row.orderID)
    (hfirst : reconcile std clock replies listed s = (out, none))
    (hagain : reconcile std clock' replies' listed' out.store = (again, none))
    (hsame : ∀ row, row ∈ reportedFills std replies' (askedSymbols std clock' replies' listed') ↔
      row ∈ reportedFills std replies (askedSymbols std clock replies listed)) :
    ImportedOnce std (reportedFills std replies (askedSymbols std clock replies listed)) out again ↔
      ∀ row ∈ reportedFills std replies (askedSymbols std clock replies listed),
        SettledByOne (quantitiesOf std row.orderID
          (reportedFills std replies (askedSymbols std clock replies listed))) := by
  obtain ⟨b, hbledger, -, hrun⟩ := reconcile_imports hs hfirst
  obtain ⟨b', hbledger', hbmissing', hrun'⟩ := reconcile_imports hrun.sound hagain
  generalize reportedFills std replies (askedSymbols std clock replies listed) = reported at *
  -- an order without entries ends with its first nonzero quantity
  have hqty : ∀ row ∈ reported, qtyOf row.orderID out.store.ledger =
      firstNonzero (quantitiesOf std row.orderID reported) := by
    intro row hrow
    have hnone : qtyOf row.orderID s.ledger = 0 := by
      refine List.sum_eq_zero fun q hq => ?_
      obtain ⟨entry, hentry, rfl⟩ := List.mem_map.mp hq
      exact if_neg (hnew row hrow entry hentry)
    rw [hrun.quantities, hbledger, foldl_importQty, if_pos hnone]
  have hsecond : again.report.missingFills = 0 ↔
      ∀ row ∈ reported, firstNonzero (quantitiesOf std row.orderID reported) ≠ 0 := by
    rw [← hbmissing', hrun'.quiet, hbledger']
    refine ⟨fun h row hrow => ?_, fun h row hrow => ?_⟩
    · rw [← hqty row hrow]
      exact h row ((hsame row).mpr hrow)
    · have hrow' := (hsame row).mp hrow
      rw [hqty row hrow']
      exact h row hrow'
  have hkept : again.report.missingFills = 0 → again.store.ledger = out.store.ledger := by
    intro hmissing
    rw [← hbledger']
    exact hrun'.kept (hrun'.quiet.mp (hmissing.trans hbmissing'.symm))
  constructor
  · rintro ⟨hall, -, hmissing⟩ row hrow
    refine (settledByOne_iff _).mpr ⟨?_, hsecond.mp hmissing row hrow⟩
    rw [← hqty row hrow, ← hall row hrow]
    exact (lookup_ledgerQtyByOrder _ _).symm
  · intro hsettled
    have hmissing := hsecond.mpr fun row hrow => ((settledByOne_iff _).mp (hsettled row hrow)).2
    refine ⟨fun row hrow => ?_, hkept hmissing, hmissing⟩
    rw [← ((settledByOne_iff _).mp (hsettled row hrow)).1, ← hqty row hrow]
    exact lookup_ledgerQtyByOrder _ _

/-! ## Two fills of one order -/

namespace BootDesk

open RealTimeTrading.ControlPlane.Desk

def position : PositionRaw := { symbol := "BTCUSDT", positionAmt := "2", avgPrice := "100" }

def fill (tradeID : String) : FillRaw :=
  { orderID := "ex-1", tradeID := tradeID, symbol := "BTCUSDT", side := "BUY", price := "100",
    qty := "1" }

/-- One long position and the fills that made it. -/
def replies (fills : List FillRaw) : Replies where
  balance := .ok { balance := "1000", availableBalance := "800", unrealizedPnL := "0" }
  accountPositions := .ok [position]
  positions := .ok [position]
  openOrders _ := .ok []
  fills _ := .ok fills

def boot (fills : List FillRaw) (s : Store) : Boot × Option String :=
  reconcile std (fun _ => clock) (replies fills) s.orderList s

def twoFills : List FillRaw := [fill "t-1", fill "t-2"]

/-- The first run and the one after it. -/
def first : Boot × Option String := boot twoFills newStore

def second : Boot × Option String := boot twoFills first.1.store

/-- The fills a run from `s` is told of. -/
def reported (s : Store) : List FillRaw :=
  reportedFills std (replies twoFills)
    (askedSymbols std (fun _ => clock) (replies twoFills) s.orderList)

theorem reported_of_asked {s : Store}
    (h : askedSymbols std (fun _ => clock) (replies twoFills) s.orderList = ["BTCUSDT"]) :
    reported s = twoFills := by
  rw [reported, h]
  rfl

theorem first_reported : reported newStore = twoFills := reported_of_asked (by decide +kernel)

theorem second_reported : reported first.1.store = twoFills :=
  reported_of_asked (by decide +kernel)

theorem first_returns : boot twoFills newStore = (first.1, none) :=
  Prod.ext rfl (by decide +kernel : first.2 = none)

theorem second_returns : boot twoFills first.1.store = (second.1, none) :=
  Prod.ext rfl (by decide +kernel : second.2 = none)

end BootDesk

section TwoFills

open BootDesk RealTimeTrading.ControlPlane.Desk

/-- Two fills of quantity 1 of order `ex-1`: the ledger ends with 1. -/
theorem second_fill_dropped :
    boot twoFills newStore = (first.1, none) ∧ boot twoFills first.1.store = (second.1, none) ∧
      reported newStore = twoFills ∧ reported first.1.store = twoFills ∧
      ¬ ImportedOnce std twoFills first.1 second.1 := by
  refine ⟨first_returns, second_returns, first_reported, second_reported, ?_⟩
  rintro ⟨hall, -, -⟩
  have hrow := hall (fill "t-1") List.mem_cons_self
  have hledger : (first.1.store.reconciliation.ledgerQtyByOrder.lookup "ex-1").getD 0 = 1 := by
    decide +kernel
  have hsum : (quantitiesOf std "ex-1" twoFills).sum = 2 := by decide +kernel
  have hid : (fill "t-1").orderID = "ex-1" := rfl
  rw [hid, hledger, hsum] at hrow
  exact absurd hrow (by decide)

theorem importedOnce_iff_twoFills :
    ImportedOnce std (reported newStore) first.1 second.1 ↔
      ∀ row ∈ reported newStore,
        SettledByOne (quantitiesOf std row.orderID (reported newStore)) := by
  refine importedOnce_iff newStore_sound ?_ first_returns second_returns ?_
  · intro row _ entry hentry
    simp [newStore] at hentry
  · intro row
    have h : reported first.1.store = reported newStore :=
      second_reported.trans first_reported.symm
    exact iff_of_eq (congrArg (row ∈ ·) h)

end TwoFills

end RealTimeTrading.ControlPlane.BingX
