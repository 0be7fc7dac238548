/-
RealTimeTrading.Rtts.Accounting.LotOrder — in which order a fill takes the
open lots.

The open lots of a symbol are all of one side (`OneSided`), so a fill of
the other side meets nothing but lots it may take: from the front under
`fifo`, from the back under `lifo`. `inOrder` is the book as the method
goes through it, and the loop is then the same for both: it closes lot
after lot from the head, and stops within the last.
-/
import Mathlib.Algebra.Order.BigOperators.Group.List
import Mathlib.Tactic.Linarith
import RealTimeTrading.Rtts.Accounting.LedgerCalls

namespace RealTimeTrading.Rtts.Accounting

/-! ## Passes -/

/-- One pass of the loop: the lot it finds, and what it takes of it. -/
structure Pass where
  lot : PositionLot
  share : Share

/-- What a pass leaves of its lot. -/
def Pass.rest (p : Pass) : PositionLot := closedLot p.lot p.share

/-- The pass that comes next, if there is one. -/
def nextPass (method : LotMatchingMethod) (entry : FillLedgerEntry) (m : Matching) :
    Option Pass :=
  if dust < m.qtyLeft then
    (oppositeLotIndex m.lots entry.side method).bind fun index =>
      m.lots[index]?.map fun lot => ⟨lot, share entry m.qtyLeft lot⟩
  else none

/-- The passes of the loop, in the order they are made. -/
def passes (method : LotMatchingMethod) (entry : FillLedgerEntry) : Nat → Matching → List Pass
  | 0, _ => []
  | fuel + 1, m =>
    match matchStep method entry m with
    | none => []
    | some m' => (nextPass method entry m).toList ++ passes method entry fuel m'

/-- The quantity the passes match. -/
def matchedTotal (taken : List Pass) : ℚ := (taken.map (·.share.matchedQty)).sum

def openQty (lots : List PositionLot) : ℚ := (lots.map (·.remainingQty)).sum

/-- What stays of the last lot taken, if that is more than dust. -/
def remainder (taken : List Pass) : List PositionLot :=
  (taken.getLast?.map (·.rest)).toList.filter fun lot => decide (dust < lot.remainingQty)

/-- The lots of the other side. -/
def oppositeLots (side : Side) (lots : List PositionLot) : List PositionLot :=
  lots.filter fun lot => decide (lot.side ≠ side)

/-- One side for all lots, and more than dust left of each. -/
structure OneSided (lots : List PositionLot) : Prop where
  side : ∀ a ∈ lots, ∀ b ∈ lots, a.side = b.side
  left : ∀ lot ∈ lots, dust < lot.remainingQty

/-- The lots as the method goes through them. -/
def inOrder (method : LotMatchingMethod) (lots : List PositionLot) : List PositionLot :=
  match method with
  | .fifo => lots
  | .lifo => lots.reverse

/-! ## One pass -/

section Steps

variable {method : LotMatchingMethod} {entry : FillLedgerEntry} {m : Matching}

@[simp] theorem mem_inOrder (method : LotMatchingMethod) {lots : List PositionLot}
    {lot : PositionLot} : lot ∈ inOrder method lots ↔ lot ∈ lots := by
  cases method <;> simp [inOrder]

@[simp] theorem length_inOrder (method : LotMatchingMethod) (lots : List PositionLot) :
    (inOrder method lots).length = lots.length := by
  cases method <;> simp [inOrder]

theorem mem_of_inOrder {lots ordered : List PositionLot} (h : inOrder method lots = ordered)
    {lot : PositionLot} (hlot : lot ∈ ordered) : lot ∈ lots := by
  rwa [← h, mem_inOrder] at hlot

/-- Where the lot at the head of the order is, and what replacing it does. -/
theorem oppositeLotIndex_inOrder {lots rest : List PositionLot} {lot : PositionLot} {side : Side}
    (hlots : inOrder method lots = lot :: rest) (hside : lot.side ≠ side) :
    ∃ index, oppositeLotIndex lots side method = some index ∧ lots[index]? = some lot ∧
      ∀ lot', inOrder method (replaceLot lots index lot') =
        [lot'].filter (fun x => decide (dust < x.remainingQty)) ++ rest := by
  cases method with
  | fifo =>
    have hcons : lots = lot :: rest := hlots
    subst hcons
    refine ⟨0, ?_, rfl, fun lot' => ?_⟩
    · simp [oppositeLotIndex, List.findIdx?_cons, hside]
    · unfold replaceLot inOrder
      by_cases hdust : lot'.remainingQty ≤ dust
      · simp [hdust, not_lt.mpr hdust]
      · simp [hdust, not_le.mp hdust]
  | lifo =>
    have hsnoc : lots = rest.reverse ++ [lot] := by
      rw [← List.reverse_cons, ← hlots]
      simp [inOrder]
    subst hsnoc
    refine ⟨rest.length, ?_, ?_, fun lot' => ?_⟩
    · simp [oppositeLotIndex, List.findIdx?_cons, hside]
    · simp
    · unfold replaceLot inOrder
      by_cases hdust : lot'.remainingQty ≤ dust
      · simp [hdust, not_lt.mpr hdust, List.eraseIdx_append]
      · simp [hdust, not_le.mp hdust]

theorem nextPass_of_index (hleft : dust < m.qtyLeft) {index : Nat} {lot : PositionLot}
    (hindex : oppositeLotIndex m.lots entry.side method = some index)
    (hlot : m.lots[index]? = some lot) :
    nextPass method entry m = some ⟨lot, share entry m.qtyLeft lot⟩ := by
  unfold nextPass
  rw [if_pos hleft, hindex, Option.bind_some, hlot, Option.map_some]

/-- A pass takes the lot at the head of the order. -/
theorem matchStep_head {m' : Matching} (hside : ∀ lot ∈ m.lots, lot.side ≠ entry.side)
    (h : matchStep method entry m = some m') :
    ∃ lot rest, inOrder method m.lots = lot :: rest ∧ dust < m.qtyLeft ∧
      nextPass method entry m = some ⟨lot, share entry m.qtyLeft lot⟩ ∧
      m'.qtyLeft = m.qtyLeft - (share entry m.qtyLeft lot).matchedQty ∧
      m'.realized = m.realized ++
        [realizedEntry entry m.matchIndex (share entry m.qtyLeft lot)] ∧
      inOrder method m'.lots =
        [closedLot lot (share entry m.qtyLeft lot)].filter
          (fun x => decide (dust < x.remainingQty)) ++ rest := by
  obtain ⟨index, lot, hleft, hindex, hlot, -, rfl⟩ := matchStep_cases h
  cases hlots : inOrder method m.lots with
  | nil =>
    have hmem : lot ∈ inOrder method m.lots := (mem_inOrder _).mpr (List.mem_of_getElem? hlot)
    rw [hlots] at hmem
    exact absurd hmem List.not_mem_nil
  | cons head rest =>
    have hhead : head ∈ m.lots := mem_of_inOrder hlots List.mem_cons_self
    obtain ⟨index', hindex', hlot', hreplace⟩ := oppositeLotIndex_inOrder hlots (hside head hhead)
    obtain rfl : index = index' := Option.some.inj (hindex.symm.trans hindex')
    obtain rfl : lot = head := Option.some.inj (hlot.symm.trans hlot')
    exact ⟨lot, rest, rfl, hleft, nextPass_of_index hleft hindex hlot, rfl, rfl, hreplace _⟩

theorem remainingQty_closedLot (lot : PositionLot) (quantity : ℚ) :
    (closedLot lot (share entry quantity lot)).remainingQty =
      lot.remainingQty - min quantity lot.remainingQty :=
  max_eq_left (sub_nonneg.mpr (min_le_right _ _))

/-- Where the fill asks for a whole lot, the pass leaves the others. -/
theorem inOrder_of_le {m' : Matching} {lot : PositionLot} {rest : List PositionLot}
    (hle : lot.remainingQty ≤ m.qtyLeft)
    (h : inOrder method m'.lots =
      [closedLot lot (share entry m.qtyLeft lot)].filter
        (fun x => decide (dust < x.remainingQty)) ++ rest) :
    inOrder method m'.lots = rest := by
  have hclosed : (closedLot lot (share entry m.qtyLeft lot)).remainingQty ≤ dust := by
    rw [remainingQty_closedLot, min_eq_right hle, sub_self]
    exact dust_pos.le
  rw [h]
  simp [not_lt.mpr hclosed]

/-- With the fill used up, the loop is over. -/
theorem matchLoop_of_used (method : LotMatchingMethod) (entry : FillLedgerEntry) {m' : Matching}
    (h : m'.qtyLeft = 0) (fuel : Nat) :
    matchLoop method entry fuel m' = m' ∧ passes method entry fuel m' = [] := by
  have hend : matchStep method entry m' = none :=
    matchStep_eq_none.mpr (Or.inl (h.trans_le dust_pos.le))
  cases fuel with
  | zero => exact ⟨rfl, rfl⟩
  | succ fuel => simp only [matchLoop, passes, hend, and_self]

/-- A step is a pass, and lists what the pass realizes. -/
theorem nextPass_of_matchStep {m' : Matching} (h : matchStep method entry m = some m') :
    ∃ p, nextPass method entry m = some p ∧ p.lot.side ≠ entry.side ∧
      m'.realized = m.realized ++ [realizedEntry entry m.matchIndex p.share] := by
  obtain ⟨index, lot, hleft, hindex, hlot, hside, rfl⟩ := matchStep_cases h
  exact ⟨_, nextPass_of_index hleft hindex hlot, hside, rfl⟩

end Steps

/-! ## The loop -/

/-- How lots all of the other side, the first to be taken first, become
`lots'`, and a rest `q` of the fill becomes `q'`. -/
structure Consumed (lots lots' : List PositionLot) (q q' : ℚ) (taken : List Pass) : Prop where
  order : ∃ untouched, lots = taken.map (·.lot) ++ untouched ∧
    lots' = remainder taken ++ untouched
  full : ∀ p ∈ taken.dropLast, p.share.matchedQty = p.lot.remainingQty
  within : ∀ p ∈ taken, 0 < p.share.matchedQty ∧ p.share.matchedQty ≤ p.lot.remainingQty
  used : q = matchedTotal taken + q'
  left : 0 ≤ q'
  exhausted : q' ≠ 0 → ∀ p ∈ taken, p.share.matchedQty = p.lot.remainingQty

theorem remainder_cons {p : Pass} (h : p.rest.remainingQty ≤ dust) (taken : List Pass) :
    remainder (p :: taken) = remainder taken := by
  cases taken with
  | nil => simp [remainder, h]
  | cons p' rest => simp [remainder, List.getLast?_cons_cons]

@[simp] theorem remainder_reverse (taken : List Pass) :
    (remainder taken).reverse = remainder taken := by
  unfold remainder
  cases taken.getLast? with
  | none => rfl
  | some p =>
    rw [Option.map_some, Option.toList_some, ← List.filter_reverse, List.reverse_singleton]

theorem Consumed.none (lots : List PositionLot) {q : ℚ} (hq : 0 ≤ q) :
    Consumed lots lots q q [] where
  order := ⟨lots, rfl, rfl⟩
  full := by simp
  within := by simp
  used := by simp [matchedTotal]
  left := hq
  exhausted := by simp

/-- A lot closed before the others are gone through. -/
theorem Consumed.cons {rest lots' : List PositionLot} {q q' : ℚ} {p : Pass} {taken : List Pass}
    (hpos : 0 < p.share.matchedQty) (hfull : p.share.matchedQty = p.lot.remainingQty)
    (hrest : p.rest.remainingQty ≤ dust) (h : Consumed rest lots' q q' taken) :
    Consumed (p.lot :: rest) lots' (q + p.share.matchedQty) q' (p :: taken) where
  order := by
    obtain ⟨untouched, hlots, hlots'⟩ := h.order
    refine ⟨untouched, ?_, ?_⟩
    · rw [hlots, List.map_cons, List.cons_append]
    · rw [hlots', remainder_cons hrest]
  full x hx := by
    cases taken with
    | nil => simp at hx
    | cons p' taken =>
      rw [List.dropLast_cons_cons] at hx
      rcases List.mem_cons.mp hx with rfl | hx
      · exact hfull
      · exact h.full x hx
  within := List.forall_mem_cons.mpr ⟨⟨hpos, hfull.le⟩, h.within⟩
  used := by
    rw [h.used]
    simp only [matchedTotal, List.map_cons, List.sum_cons]
    ring
  left := h.left
  exhausted hleft := List.forall_mem_cons.mpr ⟨hfull, h.exhausted hleft⟩

/-- The fill used up within a lot. -/
theorem Consumed.last (rest : List PositionLot) {p : Pass} (hpos : 0 < p.share.matchedQty)
    (hle : p.share.matchedQty ≤ p.lot.remainingQty) :
    Consumed (p.lot :: rest)
      ([p.rest].filter (fun x => decide (dust < x.remainingQty)) ++ rest)
      p.share.matchedQty 0 [p] where
  order := ⟨rest, rfl, rfl⟩
  full := by simp
  within := by simpa using ⟨hpos, hle⟩
  used := by simp [matchedTotal]
  left := le_rfl
  exhausted h := absurd rfl h

theorem matchLoop_consumed (method : LotMatchingMethod) (entry : FillLedgerEntry) (fuel : Nat)
    {m : Matching} (hqty : 0 ≤ m.qtyLeft) (hside : ∀ lot ∈ m.lots, lot.side ≠ entry.side)
    (hdust : ∀ lot ∈ m.lots, dust < lot.remainingQty) :
    Consumed (inOrder method m.lots) (inOrder method (matchLoop method entry fuel m).lots)
      m.qtyLeft (matchLoop method entry fuel m).qtyLeft (passes method entry fuel m) := by
  induction fuel generalizing m with
  | zero => exact .none _ hqty
  | succ fuel ih =>
    unfold matchLoop passes
    cases hstep : matchStep method entry m with
    | none => exact .none _ hqty
    | some m' =>
      obtain ⟨lot, rest, hlots, hleft, hpass, hused, -, hlots'⟩ := matchStep_head hside hstep
      have hmem : ∀ x ∈ lot :: rest, x ∈ m.lots := fun x hx => mem_of_inOrder hlots hx
      have hlotPos : 0 < lot.remainingQty :=
        dust_pos.trans (hdust lot (hmem lot List.mem_cons_self))
      dsimp only
      rw [hpass, Option.toList_some, List.singleton_append, hlots]
      rcases le_or_gt lot.remainingQty m.qtyLeft with hle | hlt
      · -- the lot is closed, and the loop goes on with the others
        have hmatched : (share entry m.qtyLeft lot).matchedQty = lot.remainingQty :=
          min_eq_right hle
        have hrest : (closedLot lot (share entry m.qtyLeft lot)).remainingQty ≤ dust := by
          rw [remainingQty_closedLot, min_eq_right hle, sub_self]
          exact dust_pos.le
        have hothers := inOrder_of_le hle hlots'
        have hmem' : ∀ x ∈ m'.lots, x ∈ m.lots := fun x hx => by
          rw [← mem_inOrder method, hothers] at hx
          exact hmem x (List.mem_cons_of_mem _ hx)
        have hqty' : m.qtyLeft = m'.qtyLeft + (share entry m.qtyLeft lot).matchedQty := by
          rw [hused]
          ring
        have hgo := ih (by rw [hused, hmatched]; exact sub_nonneg.mpr hle)
          (fun x hx => hside x (hmem' x hx)) (fun x hx => hdust x (hmem' x hx))
        rw [hothers] at hgo
        have hcons := Consumed.cons (p := ⟨lot, share entry m.qtyLeft lot⟩)
          (hlotPos.trans_eq hmatched.symm) hmatched hrest hgo
        rwa [← hqty'] at hcons
      · -- the fill ends within the lot
        have hmatched : (share entry m.qtyLeft lot).matchedQty = m.qtyLeft := min_eq_left hlt.le
        have hzero : m'.qtyLeft = 0 := by rw [hused, hmatched, sub_self]
        obtain ⟨hloop, hpasses⟩ := matchLoop_of_used method entry hzero fuel
        have hlast := Consumed.last rest (p := ⟨lot, share entry m.qtyLeft lot⟩)
          ((dust_pos.trans hleft).trans_eq hmatched.symm) (hmatched.trans_le hlt.le)
        rw [hloop, hpasses, hzero, hlots']
        simp only [hmatched] at hlast
        exact hlast

section Passes

variable {method : LotMatchingMethod} {entry : FillLedgerEntry}

theorem passes_side (fuel : Nat) (m : Matching) :
    ∀ p ∈ passes method entry fuel m, p.lot.side ≠ entry.side := by
  induction fuel generalizing m with
  | zero => exact fun p hp => absurd hp List.not_mem_nil
  | succ fuel ih =>
    unfold passes
    cases hstep : matchStep method entry m with
    | none => exact fun p hp => absurd hp List.not_mem_nil
    | some m' =>
      obtain ⟨p, hpass, hside, -⟩ := nextPass_of_matchStep hstep
      dsimp only
      rw [hpass, Option.toList_some, List.singleton_append]
      exact List.forall_mem_cons.mpr ⟨hside, ih m'⟩

/-- The loop lists what its passes realize. -/
theorem matchLoop_realized (fuel : Nat) (m : Matching) :
    (matchLoop method entry fuel m).realized.map (·.pnl) =
      m.realized.map (·.pnl) ++ (passes method entry fuel m).map (·.share.net) := by
  induction fuel generalizing m with
  | zero => exact (List.append_nil _).symm
  | succ fuel ih =>
    unfold matchLoop passes
    cases hstep : matchStep method entry m with
    | none => exact (List.append_nil _).symm
    | some m' =>
      obtain ⟨p, hpass, -, hrealized⟩ := nextPass_of_matchStep hstep
      dsimp only
      rw [ih, hpass, hrealized]
      simp [realizedEntry]

/-- As many passes as the loop makes are all it needs. -/
theorem matchLoop_of_passes {fuel n : Nat} {m : Matching}
    (hend : matchStep method entry (matchLoop method entry fuel m) = none)
    (hn : (passes method entry fuel m).length ≤ n) :
    matchLoop method entry n m = matchLoop method entry fuel m := by
  induction fuel generalizing m n with
  | zero =>
    cases n with
    | zero => rfl
    | succ n =>
      have hnone : matchStep method entry m = none := hend
      simp only [matchLoop, hnone]
  | succ fuel ih =>
    unfold passes at hn
    unfold matchLoop at hend
    cases hstep : matchStep method entry m with
    | none =>
      cases n with
      | zero => simp only [matchLoop, hstep]
      | succ n => simp only [matchLoop, hstep]
    | some m' =>
      obtain ⟨p, hpass, -⟩ := nextPass_of_matchStep hstep
      simp only [hstep] at hend hn
      rw [hpass, Option.toList_some, List.singleton_append, List.length_cons] at hn
      obtain ⟨n, rfl⟩ := Nat.exists_eq_succ_of_ne_zero (Nat.ne_zero_of_lt hn)
      simp only [matchLoop, hstep]
      exact ih hend (Nat.le_of_succ_le_succ hn)

end Passes

section Consumed

variable {lots lots' : List PositionLot} {q q' : ℚ} {taken : List Pass}

theorem mem_remainder {lot : PositionLot} (h : lot ∈ remainder taken) :
    dust < lot.remainingQty ∧ ∃ p ∈ taken, lot = p.rest := by
  obtain ⟨hmem, hdust⟩ := List.mem_filter.mp h
  obtain ⟨p, hp, hlot⟩ := Option.map_eq_some_iff.mp (Option.mem_toList.mp hmem)
  exact ⟨of_decide_eq_true hdust, p, List.mem_of_getLast? hp, hlot.symm⟩

/-- A lot that is left was there before, with its side. -/
theorem Consumed.mem (h : Consumed lots lots' q q' taken) {lot : PositionLot}
    (hlot : lot ∈ lots') :
    (dust < lot.remainingQty ∨ lot ∈ lots) ∧ ∃ lot₀ ∈ lots, lot.side = lot₀.side := by
  obtain ⟨untouched, hlots, hlots'⟩ := h.order
  rw [hlots'] at hlot
  rcases List.mem_append.mp hlot with hlot | hlot
  · obtain ⟨hdust, p, hp, rfl⟩ := mem_remainder hlot
    refine ⟨Or.inl hdust, p.lot, ?_, rfl⟩
    rw [hlots]
    exact List.mem_append_left _ (List.mem_map_of_mem hp)
  · have hmem : lot ∈ lots := by
      rw [hlots]
      exact List.mem_append_right _ hlot
    exact ⟨Or.inr hmem, lot, hmem, rfl⟩

theorem openQty_append (a b : List PositionLot) : openQty (a ++ b) = openQty a + openQty b := by
  simp [openQty]

theorem openQty_nonneg (h : ∀ lot ∈ lots, dust < lot.remainingQty) : 0 ≤ openQty lots :=
  List.sum_nonneg fun x hx => by
    obtain ⟨lot, hlot, rfl⟩ := List.mem_map.mp hx
    exact (dust_pos.trans (h lot hlot)).le

/-- No pass takes more than its lot holds. -/
theorem matchedTotal_le (h : ∀ p ∈ taken, p.share.matchedQty ≤ p.lot.remainingQty) :
    matchedTotal taken ≤ openQty (taken.map (·.lot)) := by
  unfold matchedTotal openQty
  rw [List.map_map]
  exact List.sum_le_sum h

theorem matchedTotal_eq (h : ∀ p ∈ taken, p.share.matchedQty = p.lot.remainingQty) :
    matchedTotal taken = openQty (taken.map (·.lot)) := by
  unfold matchedTotal openQty
  rw [List.map_map]
  exact congrArg List.sum (List.map_congr_left h)

/-- The quantity matched is what the fill asks for or what the lots hold,
once the loop has nothing more to do. -/
theorem Consumed.matched (h : Consumed lots lots' q q' taken)
    (hdust : ∀ lot ∈ lots, dust < lot.remainingQty) (hend : q' ≤ dust ∨ lots' = []) :
    |matchedTotal taken - min q (openQty lots)| ≤ dust * lots.length := by
  obtain ⟨untouched, hlots, hlots'⟩ := h.order
  have hopen : openQty lots = openQty (taken.map (·.lot)) + openQty untouched := by
    rw [hlots, openQty_append]
  have huntouched : 0 ≤ openQty untouched := openQty_nonneg fun lot hlot => hdust lot (by
    rw [hlots]
    exact List.mem_append_right _ hlot)
  have hle : matchedTotal taken ≤ openQty lots := by
    linarith [matchedTotal_le fun p hp => (h.within p hp).2]
  have hmin : matchedTotal taken ≤ min q (openQty lots) :=
    le_min (by linarith [h.used, h.left]) hle
  rw [abs_sub_comm, abs_of_nonneg (sub_nonneg.mpr hmin)]
  rcases eq_or_ne lots [] with hnil | hne
  · have hzero : openQty lots = 0 := by rw [hnil]; rfl
    have htaken : taken = [] := by
      rw [hnil] at hlots
      exact List.map_eq_nil_iff.mp (List.append_eq_nil_iff.mp hlots.symm).1
    rw [hzero, htaken, hnil]
    simp [matchedTotal]
  · have hone : dust ≤ dust * lots.length :=
      le_mul_of_one_le_right dust_pos.le (by exact_mod_cast List.length_pos_iff.mpr hne)
    refine le_trans ?_ hone
    rcases le_or_gt q' dust with hused | hmore
    · calc min q (openQty lots) - matchedTotal taken ≤ q - matchedTotal taken :=
            sub_le_sub_right (min_le_left _ _) _
        _ = q' := by rw [h.used]; ring
        _ ≤ dust := hused
    · have hempty := hend.resolve_left (not_le.mpr hmore)
      rw [hempty] at hlots'
      obtain ⟨-, rfl⟩ := List.append_eq_nil_iff.mp hlots'.symm
      have hall := matchedTotal_eq (h.exhausted (dust_pos.trans hmore).ne')
      calc min q (openQty lots) - matchedTotal taken ≤ openQty lots - matchedTotal taken :=
            sub_le_sub_right (min_le_right _ _) _
        _ = 0 := by rw [hopen, hall, add_sub_cancel_left]; rfl
        _ ≤ dust := dust_pos.le

end Consumed

/-! ## A fill -/

theorem OneSided.sides {lots : List PositionLot} (h : OneSided lots) (side : Side) :
    (∀ lot ∈ lots, lot.side = side) ∨ ∀ lot ∈ lots, lot.side ≠ side := by
  cases lots with
  | nil => exact Or.inl (by simp)
  | cons a rest =>
    by_cases ha : a.side = side
    · exact Or.inl fun lot hlot => (h.side lot hlot a List.mem_cons_self).trans ha
    · exact Or.inr fun lot hlot heq =>
        ha ((h.side a List.mem_cons_self lot hlot).trans heq)

/-- The lots a fill may take are all, or none. -/
theorem OneSided.oppositeLots_cases {lots : List PositionLot} (h : OneSided lots) (side : Side) :
    ((∀ lot ∈ lots, lot.side = side) ∧ oppositeLots side lots = []) ∨
      (∀ lot ∈ lots, lot.side ≠ side) ∧ oppositeLots side lots = lots := by
  refine (h.sides side).imp (fun hsame => ⟨hsame, ?_⟩) fun hopposite => ⟨hopposite, ?_⟩
  · exact List.filter_eq_nil_iff.mpr fun lot hlot => by simp [hsame lot hlot]
  · exact List.filter_eq_self.mpr fun lot hlot => by simpa using hopposite lot hlot

namespace AccountingEngine

/-- The passes a fill makes through the lots of its symbol. -/
def taken (engine : AccountingEngine) (entry : FillLedgerEntry) : List Pass :=
  passes engine.matchingMethod entry ((engine.lotsOf entry.symbol).length + 1) (engine.start entry)

/-- The lot a fill opens with what its passes leave of it. -/
def opened (engine : AccountingEngine) (entry : FillLedgerEntry) : List PositionLot :=
  let left := max entry.quantity 0 - matchedTotal (engine.taken entry)
  if dust < left then [openedLot entry left] else []

section Fill

variable {engine : AccountingEngine} {entry : FillLedgerEntry}

/-- A fill that adds to the lots of its symbol matches nothing. -/
theorem matched_of_sameSide (hsame : ∀ lot ∈ engine.lotsOf entry.symbol, lot.side = entry.side) :
    engine.matched entry = engine.start entry ∧ engine.taken entry = [] := by
  have hend : matchStep engine.matchingMethod entry (engine.start entry) = none :=
    matchStep_eq_none.mpr (Or.inr hsame)
  constructor
  · change matchLoop _ _ _ (engine.start entry) = _
    simp only [matchLoop, hend]
  · simp only [taken, passes, hend]

theorem matched_consumed (h : OneSided (engine.lotsOf entry.symbol)) :
    Consumed (inOrder engine.matchingMethod (engine.lotsOf entry.symbol))
      (inOrder engine.matchingMethod (engine.matched entry).lots)
      (max entry.quantity 0) (engine.matched entry).qtyLeft (engine.taken entry) := by
  rcases h.sides entry.side with hsame | hopposite
  · obtain ⟨hmatched, htaken⟩ := matched_of_sameSide hsame
    rw [hmatched, htaken]
    exact .none _ (le_max_right _ _)
  · exact matchLoop_consumed (m := engine.start entry) _ _ _ (le_max_right _ _) hopposite h.left

/-- Once the loop ends with more than dust of the fill, no opposite lot is left. -/
theorem side_of_left (hleft : dust < (engine.matched entry).qtyLeft) :
    ∀ lot ∈ (engine.matched entry).lots, lot.side = entry.side :=
  (matchStep_eq_none.mp (engine.matched_finished entry)).resolve_left (not_le.mpr hleft)

theorem mem_lotsAfter {lot : PositionLot} (hlot : lot ∈ engine.lotsAfter entry) :
    lot ∈ (engine.matched entry).lots ∨ (dust < (engine.matched entry).qtyLeft ∧
      lot = openedLot entry (engine.matched entry).qtyLeft) := by
  unfold lotsAfter at hlot
  split at hlot
  · rename_i hleft
    rcases List.mem_append.mp hlot with hlot | hlot
    · exact Or.inl hlot
    · exact Or.inr ⟨hleft, List.mem_singleton.mp hlot⟩
  · exact Or.inl hlot

theorem lotsAfter_oneSided (h : OneSided (engine.lotsOf entry.symbol)) :
    OneSided (engine.lotsAfter entry) := by
  have hkept : ∀ lot ∈ (engine.matched entry).lots, dust < lot.remainingQty ∧
      ∃ lot₀ ∈ engine.lotsOf entry.symbol, lot.side = lot₀.side := by
    intro lot hlot
    obtain ⟨hdust, lot₀, hlot₀, hside⟩ := (matched_consumed h).mem ((mem_inOrder _).mpr hlot)
    exact ⟨hdust.elim id fun hmem => h.left lot ((mem_inOrder _).mp hmem), lot₀,
      (mem_inOrder _).mp hlot₀, hside⟩
  constructor
  · intro a ha b hb
    rcases mem_lotsAfter ha with ha | ⟨hleft, rfl⟩ <;>
      rcases mem_lotsAfter hb with hb | ⟨hleft', rfl⟩
    · obtain ⟨-, a₀, ha₀, hsideA⟩ := hkept a ha
      obtain ⟨-, b₀, hb₀, hsideB⟩ := hkept b hb
      rw [hsideA, hsideB]
      exact h.side a₀ ha₀ b₀ hb₀
    · exact side_of_left hleft' a ha
    · exact (side_of_left hleft b hb).symm
    · rfl
  · intro lot hlot
    rcases mem_lotsAfter hlot with hlot | ⟨hleft, rfl⟩
    · exact (hkept lot hlot).1
    · exact hleft

theorem call_oneSided (c : LedgerCall) (h : ∀ symbol, OneSided (engine.lotsOf symbol)) :
    ∀ symbol, OneSided ((engine.call c).lotsOf symbol) := by
  intro symbol
  cases c with
  | applyFill entry =>
    change OneSided ((engine.applyFill entry).2.lotsOf symbol)
    rw [lotsOf_applyFill]
    split
    · exact lotsAfter_oneSided (h entry.symbol)
    · exact h symbol
  | markToMarket s markPrice => exact h symbol

theorem new_oneSided (method : LotMatchingMethod) (symbol : String) :
    OneSided ((new method).lotsOf symbol) := by
  constructor <;> simp [new, lotsOf]

/-- How a fill goes through the open lots of its symbol. -/
structure TakenInOrder (engine : AccountingEngine) (entry : FillLedgerEntry) : Prop where
  recorded : (engine.applyFill entry).2.realizedEntries.map (·.pnl) =
    engine.realizedEntries.map (·.pnl) ++ (engine.taken entry).map (·.share.net)
  opposite : ∀ p ∈ engine.taken entry, p.lot.side ≠ entry.side
  fifo : engine.matchingMethod = .fifo → ∃ untouched,
    engine.lotsOf entry.symbol = (engine.taken entry).map (·.lot) ++ untouched ∧
      (engine.applyFill entry).2.lotsOf entry.symbol =
        remainder (engine.taken entry) ++ untouched ++ engine.opened entry
  lifo : engine.matchingMethod = .lifo → ∃ untouched,
    engine.lotsOf entry.symbol = untouched ++ ((engine.taken entry).map (·.lot)).reverse ∧
      (engine.applyFill entry).2.lotsOf entry.symbol =
        untouched ++ remainder (engine.taken entry) ++ engine.opened entry
  full : ∀ p ∈ (engine.taken entry).dropLast, p.share.matchedQty = p.lot.remainingQty
  within : ∀ p ∈ engine.taken entry,
    0 < p.share.matchedQty ∧ p.share.matchedQty ≤ p.lot.remainingQty
  matched : |matchedTotal (engine.taken entry) -
      min (max entry.quantity 0) (openQty (oppositeLots entry.side (engine.lotsOf entry.symbol)))| ≤
    dust * (oppositeLots entry.side (engine.lotsOf entry.symbol)).length
  /-- No more passes than opposite lots, then the test that ends the loop. -/
  bounded : (engine.taken entry).length ≤
    (oppositeLots entry.side (engine.lotsOf entry.symbol)).length
  ended : matchStep engine.matchingMethod entry (matchLoop engine.matchingMethod entry
      (oppositeLots entry.side (engine.lotsOf entry.symbol)).length (engine.start entry)) = none ∧
    matchLoop engine.matchingMethod entry
      (oppositeLots entry.side (engine.lotsOf entry.symbol)).length (engine.start entry) =
      engine.matched entry

theorem openQty_inOrder (method : LotMatchingMethod) (lots : List PositionLot) :
    openQty (inOrder method lots) = openQty lots := by
  cases method with
  | fifo => rfl
  | lifo => simp [inOrder, openQty, List.sum_reverse]

theorem taken_length_le (h : OneSided (engine.lotsOf entry.symbol)) :
    (engine.taken entry).length ≤
      (oppositeLots entry.side (engine.lotsOf entry.symbol)).length := by
  rcases h.oppositeLots_cases entry.side with ⟨hsame, -⟩ | ⟨-, hall⟩
  · rw [(matched_of_sameSide hsame).2]
    exact Nat.zero_le _
  · obtain ⟨untouched, hlots, -⟩ := (matched_consumed h).order
    have hlength := congrArg List.length hlots
    rw [length_inOrder, List.length_append, List.length_map] at hlength
    rw [hall, hlength]
    exact Nat.le_add_right _ _

theorem taken_matched (h : OneSided (engine.lotsOf entry.symbol)) :
    |matchedTotal (engine.taken entry) - min (max entry.quantity 0)
        (openQty (oppositeLots entry.side (engine.lotsOf entry.symbol)))| ≤
      dust * (oppositeLots entry.side (engine.lotsOf entry.symbol)).length := by
  rcases h.oppositeLots_cases entry.side with ⟨hsame, hnone⟩ | ⟨hopposite, hall⟩
  · rw [hnone, (matched_of_sameSide hsame).2]
    simp [matchedTotal, openQty]
  · rw [hall]
    have hconsumed := matched_consumed h
    have hend : (engine.matched entry).qtyLeft ≤ dust ∨
        inOrder engine.matchingMethod (engine.matched entry).lots = [] := by
      refine (matchStep_eq_none.mp (engine.matched_finished entry)).imp id fun hsame => ?_
      refine List.eq_nil_iff_forall_not_mem.mpr fun lot hlot => ?_
      obtain ⟨-, lot₀, hlot₀, hside⟩ := hconsumed.mem hlot
      exact hopposite lot₀ ((mem_inOrder _).mp hlot₀)
        (hside.symm.trans (hsame lot ((mem_inOrder _).mp hlot)))
    have hmatched := hconsumed.matched (fun lot hlot => h.left lot ((mem_inOrder _).mp hlot)) hend
    rwa [openQty_inOrder, length_inOrder] at hmatched

theorem lotsAfter_eq (h : OneSided (engine.lotsOf entry.symbol)) :
    engine.lotsAfter entry = (engine.matched entry).lots ++ engine.opened entry := by
  have hleft : (engine.matched entry).qtyLeft =
      max entry.quantity 0 - matchedTotal (engine.taken entry) := by
    rw [(matched_consumed h).used, add_sub_cancel_left]
  unfold lotsAfter opened
  rw [hleft]
  dsimp only
  split
  · rfl
  · exact (List.append_nil _).symm

theorem takenInOrder (h : OneSided (engine.lotsOf entry.symbol)) : TakenInOrder engine entry where
  recorded := by
    rw [realizedEntries_applyFill, List.map_append]
    exact congrArg _ (matchLoop_realized _ (engine.start entry))
  opposite := passes_side _ _
  fifo hmethod := by
    obtain ⟨untouched, hlots, hlots'⟩ := (matched_consumed h).order
    rw [hmethod] at hlots hlots'
    refine ⟨untouched, hlots, ?_⟩
    rw [lotsOf_applyFill, if_pos rfl, lotsAfter_eq h]
    exact congrArg (· ++ engine.opened entry) hlots'
  lifo hmethod := by
    obtain ⟨untouched, hlots, hlots'⟩ := (matched_consumed h).order
    rw [hmethod] at hlots hlots'
    refine ⟨untouched.reverse, ?_, ?_⟩
    · have hreverse := congrArg List.reverse hlots
      simpa [inOrder] using hreverse
    · rw [lotsOf_applyFill, if_pos rfl, lotsAfter_eq h]
      refine congrArg (· ++ engine.opened entry) ?_
      have hreverse := congrArg List.reverse hlots'
      simpa only [inOrder, List.reverse_reverse, List.reverse_append, remainder_reverse]
        using hreverse
  full := (matched_consumed h).full
  within := (matched_consumed h).within
  matched := taken_matched h
  bounded := taken_length_le h
  ended := by
    have hloop : matchLoop engine.matchingMethod entry
        (oppositeLots entry.side (engine.lotsOf entry.symbol)).length (engine.start entry) =
        engine.matched entry :=
      matchLoop_of_passes (engine.matched_finished entry) (taken_length_le h)
    rw [hloop]
    exact ⟨engine.matched_finished entry, rfl⟩

end Fill

theorem after_oneSided (method : LotMatchingMethod) (calls : List LedgerCall) (symbol : String) :
    OneSided (((new method).after calls).lotsOf symbol) :=
  after_induction (P := fun engine => ∀ symbol, OneSided (engine.lotsOf symbol))
    (fun _ c h => call_oneSided c h) (new_oneSided method) calls symbol

/-- After any calls the open lots of a symbol are of one side, and the next
fill goes through them in the order of the method. -/
theorem lots_one_sided_in_order (method : LotMatchingMethod) (calls : List LedgerCall) :
    (∀ symbol, OneSided (((new method).after calls).lotsOf symbol)) ∧
      ∀ entry, TakenInOrder ((new method).after calls) entry :=
  ⟨after_oneSided method calls,
    fun entry => takenInOrder (after_oneSided method calls entry.symbol)⟩

/-- A fill of a negative quantity. -/
def negativeFill : FillLedgerEntry :=
  { orderId := "order-1", fillId := "f1", symbol := "BTCUSDT", side := .buy, price := 100,
    quantity := -1 }

/-- The loop counts a negative quantity as zero, so what it matches is not
the smaller of that quantity and the opposite lots. -/
theorem negativeFill_matched :
    ¬|matchedTotal ((new .fifo).taken negativeFill) - min negativeFill.quantity
        (openQty (oppositeLots negativeFill.side ((new .fifo).lotsOf negativeFill.symbol)))| ≤
      dust * (oppositeLots negativeFill.side ((new .fifo).lotsOf negativeFill.symbol)).length := by
  decide +kernel

end AccountingEngine

end RealTimeTrading.Rtts.Accounting
