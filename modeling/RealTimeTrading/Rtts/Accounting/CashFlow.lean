/-
RealTimeTrading.Rtts.Accounting.CashFlow — the cash flow of the lot ledger.

Every pass of the matching loop keeps `Matching.balance`: what the open
lots cost, plus what the rest of the fill will cost, less the gross result
realized so far. Over whole fills this becomes `Accounted`, and the
identity follows for any marks.

A lot is dropped once what is left of it is dust. `WholeLots` is why
nothing is lost by that: quantities are multiples of a lot size above the
dust, so what is dropped is zero.
-/
import RealTimeTrading.Rtts.Accounting.Ledger
import Mathlib.Tactic.LinearCombination
import Mathlib.Tactic.Ring
import Mathlib.Tactic.NormNum

namespace RealTimeTrading.Rtts.Accounting

open RealTimeTrading.Data

/-! ## Whole lots -/

/-- A positive multiple of the lot size. -/
def WholeLots (lotSize q : ℚ) : Prop := ∃ n : ℕ, 0 < n ∧ q = n * lotSize

section WholeLots

variable {lotSize q r : ℚ}

theorem dust_pos : 0 < dust := by norm_num [dust]

theorem WholeLots.dust_lt (hsize : dust < lotSize) (hq : WholeLots lotSize q) : dust < q := by
  obtain ⟨n, hn, rfl⟩ := hq
  have hone : (1 : ℚ) ≤ n := by exact_mod_cast hn
  calc dust < lotSize := hsize
    _ = 1 * lotSize := (one_mul _).symm
    _ ≤ n * lotSize := mul_le_mul_of_nonneg_right hone (dust_pos.trans hsize).le

/-- A whole quantity is what a fill asks for. -/
theorem WholeLots.max_zero (hsize : dust < lotSize) (hq : WholeLots lotSize q) : max q 0 = q :=
  max_eq_left (dust_pos.trans (hq.dust_lt hsize)).le

/-- What is left of a whole quantity when a share of it is taken. -/
theorem WholeLots.sub_min (hsize : dust < lotSize) (hq : WholeLots lotSize q)
    (hr : WholeLots lotSize r) : q - min r q = 0 ∨ WholeLots lotSize (q - min r q) := by
  obtain ⟨n, hn, rfl⟩ := hq
  obtain ⟨k, hk, rfl⟩ := hr
  have hpos : 0 ≤ lotSize := (dust_pos.trans hsize).le
  rcases Nat.lt_or_ge k n with hlt | hge
  · right
    have hle : (k : ℚ) * lotSize ≤ n * lotSize :=
      mul_le_mul_of_nonneg_right (by exact_mod_cast hlt.le) hpos
    refine ⟨n - k, by omega, ?_⟩
    rw [min_eq_left hle, Nat.cast_sub hlt.le, sub_mul]
  · left
    have hle : (n : ℚ) * lotSize ≤ k * lotSize :=
      mul_le_mul_of_nonneg_right (by exact_mod_cast hge) hpos
    rw [min_eq_right hle, sub_self]

end WholeLots

/-! ## What lots and entries are worth -/

/-- What a lot was entered for. -/
def lotCost (lot : PositionLot) : ℚ := signedQuantity lot.side lot.remainingQty * lot.entryPrice

def bookCost (lots : List PositionLot) : ℚ := (lots.map lotCost).sum

/-- A realized result before fees, rebates and funding. -/
def RealizedPnLEntry.grossPnl (entry : RealizedPnLEntry) : ℚ :=
  entry.pnl + entry.fees + entry.funding

/-- What a fill takes out of the cash: its signed quantity at its price. -/
def FillLedgerEntry.outlay (entry : FillLedgerEntry) : ℚ :=
  signedQuantity entry.side entry.quantity * entry.price

theorem realizedEntry_grossPnl (entry : FillLedgerEntry) (matchIndex : Nat) (s : Share) :
    (realizedEntry entry matchIndex s).grossPnl = s.gross := by
  unfold RealizedPnLEntry.grossPnl realizedEntry Share.net
  ring

@[simp] theorem signedQuantity_zero (side : Side) : signedQuantity side 0 = 0 := by
  cases side <;> simp [signedQuantity]

theorem signedQuantity_sub (side : Side) (q r : ℚ) :
    signedQuantity side (q - r) = signedQuantity side q - signedQuantity side r := by
  cases side with
  | buy => rfl
  | sell => unfold signedQuantity; ring

/-- Closing a quantity realizes the difference of the two prices. -/
theorem realizedGross_eq (side : Side) (entryPrice exitPrice q : ℚ) :
    realizedGross side entryPrice exitPrice q =
      signedQuantity side q * (exitPrice - entryPrice) := by
  cases side <;> simp only [realizedGross, signedQuantity] <;> ring

theorem unrealizedForLot_eq (lot : PositionLot) (markPrice : ℚ) :
    unrealizedForLot lot markPrice =
      markPrice * signedQuantity lot.side lot.remainingQty - lotCost lot := by
  unfold unrealizedForLot lotCost
  cases lot.side <;> simp only [signedQuantity] <;> ring

theorem sum_unrealizedForLot (lots : List PositionLot) (markPrice : ℚ) :
    (lots.map fun lot => unrealizedForLot lot markPrice).sum =
      markPrice * (lots.map fun lot => signedQuantity lot.side lot.remainingQty).sum -
        bookCost lots := by
  induction lots with
  | nil => simp [bookCost]
  | cons lot rest ih =>
    unfold bookCost at ih ⊢
    rw [List.map_cons, List.sum_cons, ih, unrealizedForLot_eq]
    simp only [List.map_cons, List.sum_cons]
    ring

/-! ## One pass of the loop -/

section Step

variable {method : LotMatchingMethod} {entry : FillLedgerEntry} {m m' : Matching}

/-- The lot found is there, and on the other side. -/
theorem oppositeLotIndex_spec {lots : List PositionLot} {side : Side} {index : Nat}
    (h : oppositeLotIndex lots side method = some index) :
    ∃ lot, lots[index]? = some lot ∧ lot.side ≠ side := by
  cases method with
  | fifo =>
    obtain ⟨hlt, hside, -⟩ := List.findIdx?_eq_some_iff_getElem.mp h
    exact ⟨lots[index], List.getElem?_eq_getElem hlt, by simpa using hside⟩
  | lifo =>
    obtain ⟨i, hi, rfl⟩ := Option.map_eq_some_iff.mp h
    obtain ⟨hlt, hside, -⟩ := List.findIdx?_eq_some_iff_getElem.mp hi
    rw [List.getElem_reverse] at hside
    rw [List.length_reverse] at hlt
    exact ⟨_, List.getElem?_eq_getElem (by omega), by simpa using hside⟩

/-- What one pass does, and when. -/
theorem matchStep_cases (h : matchStep method entry m = some m') :
    ∃ index lot, dust < m.qtyLeft ∧ oppositeLotIndex m.lots entry.side method = some index ∧
      m.lots[index]? = some lot ∧ lot.side ≠ entry.side ∧
      m' = { lots := replaceLot m.lots index (closedLot lot (share entry m.qtyLeft lot))
             qtyLeft := m.qtyLeft - (share entry m.qtyLeft lot).matchedQty
             realizedPnlTotal := m.realizedPnlTotal + (share entry m.qtyLeft lot).net
             realized := m.realized ++
               [realizedEntry entry m.matchIndex (share entry m.qtyLeft lot)]
             matchIndex := saturatingAddUsize m.matchIndex 1 } := by
  unfold matchStep at h
  split at h
  · rename_i hleft
    split at h
    · cases h
    · rename_i index hindex
      obtain ⟨lot, hlot, hside⟩ := oppositeLotIndex_spec hindex
      rw [hlot] at h
      exact ⟨index, lot, hleft, hindex, hlot, hside, (Option.some.inj h).symm⟩
  · cases h

/-- A lot goes out of a total with its own value and comes back with that of
what is left of it. -/
theorem sum_replaceLot (f : PositionLot → ℚ) {lots : List PositionLot} {index : Nat}
    {lot : PositionLot} (hlot : lots[index]? = some lot) (lot' : PositionLot)
    (hgone : lot'.remainingQty ≤ dust → f lot' = 0) :
    ((replaceLot lots index lot').map f).sum + f lot = (lots.map f).sum + f lot' := by
  unfold replaceLot
  split
  · rename_i hdust
    rw [hgone hdust, add_zero]
    exact sum_map_eraseIdx f lots hlot
  · exact sum_map_set f lots hlot lot'

/-- A lot goes out of the book at its cost and comes back at what is left of it. -/
theorem bookCost_replaceLot {lots : List PositionLot} {index : Nat} {lot : PositionLot}
    (hlot : lots[index]? = some lot) (lot' : PositionLot)
    (hdust : lot'.remainingQty ≤ dust → lot'.remainingQty = 0) :
    bookCost (replaceLot lots index lot') + lotCost lot = bookCost lots + lotCost lot' := by
  refine sum_replaceLot lotCost hlot lot' fun hgone => ?_
  unfold lotCost
  rw [hdust hgone]
  cases lot'.side <;> simp [signedQuantity]

/-- The lots and the rest of the fill are whole. -/
structure Matching.Whole (lotSize : ℚ) (m : Matching) : Prop where
  lots : ∀ lot ∈ m.lots, WholeLots lotSize lot.remainingQty
  left : m.qtyLeft = 0 ∨ WholeLots lotSize m.qtyLeft

/-- What the lots cost and the rest of the fill will, less what was realized. -/
def Matching.balance (entry : FillLedgerEntry) (m : Matching) : ℚ :=
  bookCost m.lots + signedQuantity entry.side m.qtyLeft * entry.price -
    (m.realized.map (·.grossPnl)).sum

/-- What was realized so far, less the results listed. -/
def Matching.unlisted (m : Matching) : ℚ := m.realizedPnlTotal - (m.realized.map (·.pnl)).sum

theorem mem_replaceLot {lots : List PositionLot} {index : Nat} {lot' x : PositionLot}
    (hx : x ∈ replaceLot lots index lot') : x ∈ lots ∨ (x = lot' ∧ dust < lot'.remainingQty) := by
  unfold replaceLot at hx
  split at hx
  · exact Or.inl (List.mem_of_mem_eraseIdx hx)
  · rename_i hdust
    rcases List.mem_or_eq_of_mem_set hx with hx | rfl
    · exact Or.inl hx
    · exact Or.inr ⟨rfl, not_le.mp hdust⟩

/-- What a pass leaves of a lot, and of the fill. -/
theorem share_left (entry : FillLedgerEntry) {lotSize qtyLeft : ℚ} {lot : PositionLot}
    (hsize : dust < lotSize) (hlot : WholeLots lotSize lot.remainingQty)
    (hleft : WholeLots lotSize qtyLeft) :
    ((closedLot lot (share entry qtyLeft lot)).remainingQty =
        lot.remainingQty - (share entry qtyLeft lot).matchedQty) ∧
      ((closedLot lot (share entry qtyLeft lot)).remainingQty = 0 ∨
        WholeLots lotSize (closedLot lot (share entry qtyLeft lot)).remainingQty) ∧
      (qtyLeft - (share entry qtyLeft lot).matchedQty = 0 ∨
        WholeLots lotSize (qtyLeft - (share entry qtyLeft lot).matchedQty)) := by
  have hnonneg : 0 ≤ lot.remainingQty - min qtyLeft lot.remainingQty :=
    sub_nonneg.mpr (min_le_right _ _)
  have hclosed : (closedLot lot (share entry qtyLeft lot)).remainingQty =
      lot.remainingQty - min qtyLeft lot.remainingQty := max_eq_left hnonneg
  refine ⟨hclosed, ?_, ?_⟩
  · rw [hclosed]
    exact hlot.sub_min hsize hleft
  · have hsub := hleft.sub_min hsize hlot
    rw [min_comm] at hsub
    exact hsub

theorem matchStep_whole {lotSize : ℚ} (hsize : dust < lotSize) (hm : m.Whole lotSize)
    (h : matchStep method entry m = some m') : m'.Whole lotSize := by
  obtain ⟨index, lot, hleft, -, hlot, -, rfl⟩ := matchStep_cases h
  have hwhole : WholeLots lotSize m.qtyLeft :=
    hm.left.resolve_left fun hzero => absurd hleft (by rw [hzero]; exact not_lt.mpr dust_pos.le)
  obtain ⟨-, hrest, hqty⟩ := share_left entry hsize
    (hm.lots lot (List.mem_of_getElem? hlot)) hwhole
  refine ⟨fun x hx => ?_, hqty⟩
  rcases mem_replaceLot hx with hx | ⟨rfl, hdust⟩
  · exact hm.lots x hx
  · exact hrest.resolve_left fun hzero =>
      absurd hdust (by rw [hzero]; exact not_lt.mpr dust_pos.le)

/-- A pass moves cost from the book to the results. -/
theorem matchStep_balance {lotSize : ℚ} (hsize : dust < lotSize) (hm : m.Whole lotSize)
    (h : matchStep method entry m = some m') :
    m'.balance entry = m.balance entry ∧ m'.unlisted = m.unlisted := by
  obtain ⟨index, lot, hleft, -, hlot, hside, rfl⟩ := matchStep_cases h
  have hwhole : WholeLots lotSize m.qtyLeft :=
    hm.left.resolve_left fun hzero => absurd hleft (by rw [hzero]; exact not_lt.mpr dust_pos.le)
  obtain ⟨hclosed, hrest, -⟩ := share_left entry hsize
    (hm.lots lot (List.mem_of_getElem? hlot)) hwhole
  have hbook := bookCost_replaceLot hlot (closedLot lot (share entry m.qtyLeft lot))
    fun hdust => hrest.resolve_right fun hw => absurd hdust (not_le.mpr (hw.dust_lt hsize))
  have hcost : lotCost (closedLot lot (share entry m.qtyLeft lot)) = lotCost lot -
      signedQuantity lot.side (share entry m.qtyLeft lot).matchedQty * lot.entryPrice := by
    unfold lotCost
    rw [hclosed]
    simp only [closedLot, signedQuantity_sub]
    ring
  have hgross : (share entry m.qtyLeft lot).gross =
      signedQuantity lot.side (share entry m.qtyLeft lot).matchedQty *
        (entry.price - lot.entryPrice) := realizedGross_eq _ _ _ _
  have hopposite : signedQuantity entry.side (share entry m.qtyLeft lot).matchedQty =
      -signedQuantity lot.side (share entry m.qtyLeft lot).matchedQty := by
    cases hl : lot.side <;> cases he : entry.side <;> simp_all [signedQuantity]
  constructor
  · unfold Matching.balance
    simp only [List.map_append, List.map_singleton, List.sum_append, List.sum_singleton,
      realizedEntry_grossPnl, signedQuantity_sub]
    rw [hopposite, hgross]
    linear_combination hbook + hcost
  · unfold Matching.unlisted
    simp only [List.map_append, List.map_singleton, List.sum_append, List.sum_singleton,
      realizedEntry]
    ring

end Step

/-! ## The loop -/

section Loop

variable {method : LotMatchingMethod} {entry : FillLedgerEntry}

theorem matchLoop_kept (method : LotMatchingMethod) (entry : FillLedgerEntry) {lotSize : ℚ}
    (hsize : dust < lotSize) (fuel : Nat) {m : Matching} (hm : m.Whole lotSize) :
    (matchLoop method entry fuel m).Whole lotSize ∧
      (matchLoop method entry fuel m).balance entry = m.balance entry ∧
      (matchLoop method entry fuel m).unlisted = m.unlisted := by
  induction fuel generalizing m with
  | zero => exact ⟨hm, rfl, rfl⟩
  | succ fuel ih =>
    unfold matchLoop
    cases hstep : matchStep method entry m with
    | none => exact ⟨hm, rfl, rfl⟩
    | some m' =>
      obtain ⟨hbalance, hunlisted⟩ := matchStep_balance hsize hm hstep
      obtain ⟨hwhole, hbalance', hunlisted'⟩ := ih (matchStep_whole hsize hm hstep)
      exact ⟨hwhole, hbalance'.trans hbalance, hunlisted'.trans hunlisted⟩

/-- A pass removes a lot or uses the fill up. -/
theorem matchStep_shrinks {m m' : Matching} (h : matchStep method entry m = some m') :
    m'.lots.length < m.lots.length ∨ m'.qtyLeft = 0 := by
  obtain ⟨index, lot, -, -, hlot, -, rfl⟩ := matchStep_cases h
  rcases le_total m.qtyLeft lot.remainingQty with hle | hle
  · right
    simp only [share, min_eq_left hle, sub_self]
  · left
    have hclosed : (closedLot lot (share entry m.qtyLeft lot)).remainingQty = 0 := by
      simp only [closedLot, share, min_eq_right hle, sub_self, max_self]
    obtain ⟨hlt, -⟩ := List.getElem?_eq_some_iff.mp hlot
    simp only [replaceLot, hclosed, if_pos dust_pos.le, List.length_eraseIdx, if_pos hlt]
    omega

/-- The fuel given is enough: the loop ends where its own condition ends it. -/
theorem matchLoop_finished {fuel : Nat} {m : Matching} (hfuel : m.lots.length < fuel) :
    matchStep method entry (matchLoop method entry fuel m) = none := by
  induction fuel generalizing m with
  | zero => omega
  | succ fuel ih =>
    unfold matchLoop
    cases hstep : matchStep method entry m with
    | none => exact hstep
    | some m' =>
      rcases matchStep_shrinks hstep with hlots | hused
      · exact ih (by omega)
      · have hend : matchStep method entry m' = none := by
          unfold matchStep
          rw [hused, if_neg (not_lt.mpr dust_pos.le)]
        have hloop : matchLoop method entry fuel m' = m' := by
          cases fuel with
          | zero => rfl
          | succ fuel => simp only [matchLoop, hend]
        simpa only [hloop] using hend

theorem AccountingEngine.matched_finished (engine : AccountingEngine) (entry : FillLedgerEntry) :
    matchStep engine.matchingMethod entry (engine.matched entry) = none :=
  matchLoop_finished (Nat.lt_succ_self _)

end Loop

/-! ## The ledger -/

namespace AccountingEngine

/-- Lots are whole, the book costs what was paid in less what was taken out,
and the total is that of the results listed. -/
structure Accounted (lotSize : ℚ) (engine : AccountingEngine) : Prop where
  whole : ∀ symbol, ∀ lot ∈ engine.lotsOf symbol, WholeLots lotSize lot.remainingQty
  flow : sumEntries (fun _ => bookCost) engine.state.openPositions =
    (engine.realizedEntries.map (·.grossPnl)).sum + (engine.ledgerEntries.map (·.outlay)).sum
  total : engine.state.realizedPnlTotal = (engine.realizedEntries.map (·.pnl)).sum

theorem new_accounted (lotSize : ℚ) (method : LotMatchingMethod) :
    (new method).Accounted lotSize where
  whole symbol lot hlot := by simp [new, lotsOf] at hlot
  flow := by simp [new]
  total := rfl

/-- Where the matching loop starts. -/
def start (engine : AccountingEngine) (entry : FillLedgerEntry) : Matching :=
  { lots := engine.lotsOf entry.symbol
    qtyLeft := max entry.quantity 0
    realizedPnlTotal := engine.state.realizedPnlTotal }

/-- The lots of the fill's symbol after the fill. -/
def lotsAfter (entry : FillLedgerEntry) (engine : AccountingEngine) : List PositionLot :=
  if dust < (engine.matched entry).qtyLeft then
    (engine.matched entry).lots ++ [openedLot entry (engine.matched entry).qtyLeft]
  else (engine.matched entry).lots

section ApplyFill

variable {lotSize : ℚ} {engine : AccountingEngine} {entry : FillLedgerEntry}

theorem start_whole (hsize : dust < lotSize) (h : engine.Accounted lotSize)
    (hentry : WholeLots lotSize entry.quantity) : (engine.start entry).Whole lotSize :=
  ⟨h.whole entry.symbol, Or.inr (by simpa only [start, hentry.max_zero hsize] using hentry)⟩

theorem matched_kept (hsize : dust < lotSize) (h : engine.Accounted lotSize)
    (hentry : WholeLots lotSize entry.quantity) :
    (engine.matched entry).Whole lotSize ∧
      (engine.matched entry).balance entry =
        bookCost (engine.lotsOf entry.symbol) + entry.outlay ∧
      (engine.matched entry).unlisted = engine.state.realizedPnlTotal := by
  obtain ⟨hwhole, hbalance, hunlisted⟩ := matchLoop_kept engine.matchingMethod entry hsize
    ((engine.lotsOf entry.symbol).length + 1) (start_whole hsize h hentry)
  refine ⟨hwhole, hbalance.trans ?_, hunlisted.trans ?_⟩
  · simp [Matching.balance, start, FillLedgerEntry.outlay, hentry.max_zero hsize]
  · simp [Matching.unlisted, start]

/-- A sum over the lots after the fill: those the loop leaves, and the lot
that what is left of the fill opens, if anything is. -/
theorem sum_lotsAfter (hsize : dust < lotSize) (hwhole : (engine.matched entry).Whole lotSize)
    (f : PositionLot → ℚ) (hnone : f (openedLot entry 0) = 0) :
    ((engine.lotsAfter entry).map f).sum = ((engine.matched entry).lots.map f).sum +
      f (openedLot entry (engine.matched entry).qtyLeft) := by
  unfold lotsAfter
  rcases hwhole.left with hzero | hleft
  · rw [hzero, if_neg (not_lt.mpr dust_pos.le), hnone, add_zero]
  · rw [if_pos (hleft.dust_lt hsize), List.map_append, List.sum_append, List.map_singleton,
      List.sum_singleton]

theorem lotsAfter_whole (hwhole : (engine.matched entry).Whole lotSize) :
    ∀ lot ∈ engine.lotsAfter entry, WholeLots lotSize lot.remainingQty := by
  intro lot hlot
  unfold lotsAfter at hlot
  split at hlot
  · rename_i hleft
    rcases List.mem_append.mp hlot with hlot | hlot
    · exact hwhole.lots lot hlot
    · rw [List.mem_singleton.mp hlot]
      exact hwhole.left.resolve_left (dust_pos.trans hleft).ne'
  · exact hwhole.lots lot hlot

/-- The lots after the fill are of the cost of the lots before it plus its
outlay, but for what was realized. -/
theorem bookCost_lotsAfter (hsize : dust < lotSize) (h : engine.Accounted lotSize)
    (hentry : WholeLots lotSize entry.quantity) :
    bookCost (engine.lotsAfter entry) = bookCost (engine.lotsOf entry.symbol) + entry.outlay +
      ((engine.matched entry).realized.map (·.grossPnl)).sum := by
  obtain ⟨hwhole, hbalance, -⟩ := matched_kept hsize h hentry
  have hsum := sum_lotsAfter hsize hwhole lotCost (by simp [lotCost, openedLot])
  have hopened : lotCost (openedLot entry (engine.matched entry).qtyLeft) =
      signedQuantity entry.side (engine.matched entry).qtyLeft * entry.price := rfl
  rw [hopened] at hsum
  unfold Matching.balance at hbalance
  unfold bookCost at hbalance ⊢
  linear_combination hsum + hbalance

@[simp] theorem openPositions_applyFill : (engine.applyFill entry).2.state.openPositions =
    engine.state.openPositions.insert entry.symbol (engine.lotsAfter entry) := rfl

@[simp] theorem realizedPnlTotal_applyFill : (engine.applyFill entry).2.state.realizedPnlTotal =
    (engine.matched entry).realizedPnlTotal := rfl

@[simp] theorem realizedEntries_applyFill : (engine.applyFill entry).2.realizedEntries =
    engine.realizedEntries ++ (engine.matched entry).realized := rfl

@[simp] theorem ledgerEntries_applyFill : (engine.applyFill entry).2.ledgerEntries =
    engine.ledgerEntries ++ [entry] := rfl

theorem lotsOf_applyFill (symbol : String) :
    (engine.applyFill entry).2.lotsOf symbol =
      if symbol = entry.symbol then engine.lotsAfter entry else engine.lotsOf symbol := by
  unfold lotsOf
  rw [openPositions_applyFill]
  by_cases h : symbol = entry.symbol
  · rw [if_pos h, h, AList.lookup_insert, Option.getD_some]
  · rw [if_neg h, AList.lookup_insert_ne h]

/-- What a symbol adds to a sum over the entries, if it has one. -/
theorem elim_lotsOf (f : List PositionLot → ℚ) (hnil : f [] = 0) (symbol : String) :
    (engine.state.openPositions.lookup symbol).elim 0 f = f (engine.lotsOf symbol) := by
  unfold lotsOf
  cases engine.state.openPositions.lookup symbol with
  | none => exact hnil.symm
  | some lots => rfl

/-- A fill changes a sum over the entries in that of its symbol. -/
theorem sumEntries_applyFill (engine : AccountingEngine) (entry : FillLedgerEntry)
    (f : String → List PositionLot → ℚ) (hnil : f entry.symbol [] = 0) :
    sumEntries f (engine.applyFill entry).2.state.openPositions +
        f entry.symbol (engine.lotsOf entry.symbol) =
      sumEntries f engine.state.openPositions + f entry.symbol (engine.lotsAfter entry) := by
  have hinsert := sumEntries_insert f engine.state.openPositions entry.symbol
    (engine.lotsAfter entry)
  rwa [elim_lotsOf (f entry.symbol) hnil] at hinsert

theorem applyFill_accounted (hsize : dust < lotSize) (h : engine.Accounted lotSize)
    (hentry : WholeLots lotSize entry.quantity) :
    (engine.applyFill entry).2.Accounted lotSize := by
  obtain ⟨hwhole, -, hunlisted⟩ := matched_kept hsize h hentry
  refine ⟨fun symbol lot hlot => ?_, ?_, ?_⟩
  · rw [lotsOf_applyFill] at hlot
    split at hlot
    · exact lotsAfter_whole hwhole lot hlot
    · exact h.whole symbol lot hlot
  · have hentries := sumEntries_applyFill engine entry (fun _ => bookCost) rfl
    have hcost := bookCost_lotsAfter hsize h hentry
    simp only [realizedEntries_applyFill, ledgerEntries_applyFill, List.map_append,
      List.sum_append, List.map_singleton, List.sum_singleton]
    linear_combination hentries + hcost + h.flow
  · unfold Matching.unlisted at hunlisted
    simp only [realizedPnlTotal_applyFill, realizedEntries_applyFill, List.map_append,
      List.sum_append]
    linear_combination hunlisted + h.total

end ApplyFill

/-- The engine after a sequence of fills. -/
def applyFills (fills : List FillLedgerEntry) (engine : AccountingEngine) : AccountingEngine :=
  fills.foldl (fun engine entry => (engine.applyFill entry).2) engine

theorem applyFills_concat (engine : AccountingEngine) (fills : List FillLedgerEntry)
    (entry : FillLedgerEntry) :
    engine.applyFills (fills ++ [entry]) = ((engine.applyFills fills).applyFill entry).2 := by
  simp [applyFills]

theorem applyFills_accounted {lotSize : ℚ} (hsize : dust < lotSize) {fills : List FillLedgerEntry}
    (hfills : ∀ entry ∈ fills, WholeLots lotSize entry.quantity) {engine : AccountingEngine}
    (h : engine.Accounted lotSize) :
    (engine.applyFills fills).Accounted lotSize ∧
      (engine.applyFills fills).ledgerEntries = engine.ledgerEntries ++ fills := by
  induction fills generalizing engine with
  | nil => exact ⟨h, (List.append_nil _).symm⟩
  | cons entry rest ih =>
    obtain ⟨hrest, hledger⟩ := ih (fun x hx => hfills x (List.mem_cons_of_mem _ hx))
      (applyFill_accounted hsize h (hfills entry List.mem_cons_self))
    refine ⟨hrest, hledger.trans ?_⟩
    rw [ledgerEntries_applyFill, List.append_assoc, List.singleton_append]

/-- The unrealized value of all open lots, the marks given per symbol. -/
def unrealizedAt (engine : AccountingEngine) (mark : String → ℚ) : ℚ :=
  sumEntries (fun symbol lots => (lots.map fun lot => unrealizedForLot lot (mark symbol)).sum)
    engine.state.openPositions

/-- The net quantities of all symbols at these marks. -/
def netValueAt (engine : AccountingEngine) (mark : String → ℚ) : ℚ :=
  (engine.state.openPositions.keys.map fun symbol =>
    mark symbol * (engine.positionExposure symbol).netQuantity).sum

theorem netValueAt_eq (engine : AccountingEngine) (mark : String → ℚ) :
    engine.netValueAt mark = sumEntries (fun symbol lots =>
      mark symbol * (lots.map fun lot => signedQuantity lot.side lot.remainingQty).sum)
      engine.state.openPositions := by
  unfold netValueAt sumEntries AList.keys List.keys
  rw [List.map_map]
  refine congrArg List.sum (List.map_congr_left fun e he => ?_)
  have hlookup : engine.state.openPositions.lookup e.1 = some e.2 := AList.mem_lookup_iff.mpr he
  simp only [Function.comp_apply, positionExposure, hlookup]

theorem unrealizedAt_eq (engine : AccountingEngine) (mark : String → ℚ) :
    engine.unrealizedAt mark = engine.netValueAt mark -
      sumEntries (fun _ => bookCost) engine.state.openPositions := by
  rw [netValueAt_eq, ← sumEntries_sub]
  unfold unrealizedAt
  simp only [sum_unrealizedForLot]

/-- Realized gross results and open value are what the net quantities are
worth less the signed outlays, and the total is the sum of the results. -/
theorem gross_cash_flow (method : LotMatchingMethod) {lotSize : ℚ} (hsize : dust < lotSize)
    {fills : List FillLedgerEntry} (hfills : ∀ entry ∈ fills, WholeLots lotSize entry.quantity)
    (mark : String → ℚ) :
    (((new method).applyFills fills).realizedEntries.map fun r => r.pnl + r.fees + r.funding).sum +
        ((new method).applyFills fills).unrealizedAt mark =
      ((new method).applyFills fills).netValueAt mark -
        (fills.map fun entry => signedQuantity entry.side entry.quantity * entry.price).sum ∧
    ((new method).applyFills fills).state.realizedPnlTotal =
      (((new method).applyFills fills).realizedEntries.map (·.pnl)).sum := by
  obtain ⟨haccounted, hledger⟩ := applyFills_accounted hsize hfills (new_accounted lotSize method)
  have hfills' : ((new method).applyFills fills).ledgerEntries = fills := hledger
  have hflow := haccounted.flow
  rw [hfills'] at hflow
  refine ⟨?_, haccounted.total⟩
  rw [unrealizedAt_eq]
  unfold RealizedPnLEntry.grossPnl FillLedgerEntry.outlay at hflow
  linear_combination -hflow

/-- Two lots bought, and one and a half of them sold. -/
def partialFills : List FillLedgerEntry :=
  [{ orderId := "order-1", fillId := "f1", symbol := "BTCUSDT", side := .buy, price := 100,
     quantity := 1, liquidityFlag := .maker, feeAmount := 0.10, rebateAmount := 0.02 },
   { orderId := "order-1", fillId := "f2", symbol := "BTCUSDT", side := .buy, price := 101,
     quantity := 1, feeAmount := 0.20 },
   { orderId := "order-1", fillId := "f3", symbol := "BTCUSDT", side := .sell, price := 103,
     quantity := 1.5, feeAmount := 0.30 }]

theorem partialFills_wholeLots : ∀ entry ∈ partialFills, WholeLots 0.5 entry.quantity := by
  simp only [partialFills, List.forall_mem_cons]
  exact ⟨⟨2, by norm_num⟩, ⟨2, by norm_num⟩, ⟨3, by norm_num⟩, by simp⟩

example : ((new .fifo).applyFills partialFills).state.realizedPnlTotal = 3.52 := by decide +kernel

theorem gross_cash_flow_partialFills :
    (((new .fifo).applyFills partialFills).realizedEntries.map
        fun r => r.pnl + r.fees + r.funding).sum +
        ((new .fifo).applyFills partialFills).unrealizedAt (fun _ => 103) =
      ((new .fifo).applyFills partialFills).netValueAt (fun _ => 103) -
        (partialFills.map fun entry => signedQuantity entry.side entry.quantity * entry.price).sum ∧
    ((new .fifo).applyFills partialFills).state.realizedPnlTotal =
      (((new .fifo).applyFills partialFills).realizedEntries.map (·.pnl)).sum :=
  gross_cash_flow .fifo (by norm_num [dust]) partialFills_wholeLots _

end AccountingEngine

end RealTimeTrading.Rtts.Accounting
