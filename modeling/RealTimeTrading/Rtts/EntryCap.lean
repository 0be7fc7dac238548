/-
RealTimeTrading.Rtts.EntryCap — `max_entries`, with orders in flight.

`can_scale` compares the cap with the lots of the position, as the ledger
has them when the signal is taken. Entries that were sent and are not yet
filled are in no lot, so a signal taken before their fills finds the room
they will need. `Roomy` is what the steps of a run have to meet for the
cap to hold, and `Capped` the invariant: lots and entries in flight of a
side, together, are within it.
-/
import RealTimeTrading.Rtts.Accounting.LotOrder
import RealTimeTrading.Rtts.Accounting.NetQuantity
import RealTimeTrading.Rtts.ForcedExit
import RealTimeTrading.Rtts.PositionLoop

namespace RealTimeTrading.Rtts

open Accounting

/-! ## Lots of a side -/

namespace Accounting

def countSide (side : Side) (lots : List PositionLot) : Nat :=
  lots.countP fun lot => decide (lot.side = side)

/-- More than dust of a fill is left once the lots of the other side are closed. -/
def Opens (side : Side) (quantity : ℚ) (lots : List PositionLot) : Prop :=
  dust < max quantity 0 - openQty (oppositeLots side lots)

instance (side : Side) (quantity : ℚ) (lots : List PositionLot) :
    Decidable (Opens side quantity lots) := by unfold Opens; infer_instance

section Lots

variable {lots : List PositionLot} {side : Side}

theorem countSide_of_same (h : ∀ lot ∈ lots, lot.side = side) : countSide side lots = lots.length :=
  List.countP_eq_length.mpr fun lot hlot => decide_eq_true (h lot hlot)

theorem countSide_of_other (h : ∀ lot ∈ lots, lot.side ≠ side) : countSide side lots = 0 :=
  List.countP_eq_zero.mpr fun lot hlot => by simpa using h lot hlot

theorem countSide_le (side : Side) (lots : List PositionLot) : countSide side lots ≤ lots.length :=
  List.countP_le_length

/-- There are two sides. -/
theorem eq_of_ne_of_ne {a b c : Side} (ha : a ≠ c) (hb : b ≠ c) : a = b := by
  cases a <;> cases b <;> cases c <;> simp_all

theorem length_remainder_le (taken : List Pass) : (remainder taken).length ≤ taken.length := by
  cases taken with
  | nil => exact le_rfl
  | cons p rest =>
    refine (List.length_filter_le _ _).trans ?_
    cases (p :: rest).getLast? <;> simp

theorem Consumed.length_le {lots' : List PositionLot} {q q' : ℚ} {taken : List Pass}
    (h : Consumed lots lots' q q' taken) : lots'.length ≤ lots.length := by
  obtain ⟨untouched, hlots, hlots'⟩ := h.order
  rw [hlots, hlots', List.length_append, List.length_append, List.length_map]
  exact Nat.add_le_add_right (length_remainder_le taken) _

end Lots

namespace AccountingEngine

variable {engine : AccountingEngine} {entry : FillLedgerEntry}

/-- Against lots of the other side, a fill of which something is left closes them all. -/
theorem matched_nil (h : OneSided (engine.lotsOf entry.symbol))
    (hopposite : ∀ lot ∈ engine.lotsOf entry.symbol, lot.side ≠ entry.side)
    (hleft : dust < (engine.matched entry).qtyLeft) : (engine.matched entry).lots = [] := by
  refine List.eq_nil_iff_forall_not_mem.mpr fun lot hlot => ?_
  obtain ⟨-, lot₀, hlot₀, hside⟩ := (matched_consumed h).mem ((mem_inOrder _).mpr hlot)
  exact hopposite lot₀ ((mem_inOrder _).mp hlot₀) (hside.symm.trans (side_of_left hleft lot hlot))

/-- When the loop ends with more than dust of the fill. -/
theorem qtyLeft_iff (h : OneSided (engine.lotsOf entry.symbol)) :
    dust < (engine.matched entry).qtyLeft ↔
      Opens entry.side entry.quantity (engine.lotsOf entry.symbol) := by
  unfold Opens
  rcases h.oppositeLots_cases entry.side with ⟨hsame, hnone⟩ | ⟨hopposite, hall⟩
  · have hzero : openQty ([] : List PositionLot) = 0 := rfl
    rw [(matched_of_sameSide hsame).1, hnone, hzero, sub_zero]
    rfl
  · have hconsumed := matched_consumed h
    obtain ⟨untouched, hlots, hlots'⟩ := hconsumed.order
    have hopen : openQty (engine.lotsOf entry.symbol) =
        openQty ((engine.taken entry).map (·.lot)) + openQty untouched := by
      rw [← openQty_inOrder engine.matchingMethod, hlots, openQty_append]
    have hused := hconsumed.used
    rw [hall]
    constructor
    · intro hleft
      have hnil : untouched = [] := by
        rw [matched_nil h hopposite hleft] at hlots'
        cases hmethod : engine.matchingMethod <;> simp_all [inOrder]
      have htotal := matchedTotal_eq (hconsumed.exhausted (dust_pos.trans hleft).ne')
      have hnone : openQty untouched = 0 := by rw [hnil]; rfl
      linarith
    · intro hmore
      have hle := matchedTotal_le fun p hp => (hconsumed.within p hp).2
      have hnonneg : 0 ≤ openQty untouched := openQty_nonneg fun lot hlot =>
        h.left lot (mem_of_inOrder hlots (List.mem_append_right _ hlot))
      linarith

/-- Of its own side a fill leaves the lots as they are, and may add one. -/
theorem countSide_own (h : OneSided (engine.lotsOf entry.symbol)) :
    countSide entry.side (engine.lotsAfter entry) =
      countSide entry.side (engine.lotsOf entry.symbol) +
        if Opens entry.side entry.quantity (engine.lotsOf entry.symbol) then 1 else 0 := by
  have hopened (quantity : ℚ) : countSide entry.side [openedLot entry quantity] = 1 := by
    simp [countSide, openedLot]
  have hkept : countSide entry.side (engine.matched entry).lots =
      countSide entry.side (engine.lotsOf entry.symbol) := by
    rcases h.sides entry.side with hsame | hopposite
    · rw [(matched_of_sameSide hsame).1]
      rfl
    · rw [countSide_of_other hopposite]
      refine countSide_of_other fun lot hlot => ?_
      obtain ⟨-, lot₀, hlot₀, heq⟩ := (matched_consumed h).mem ((mem_inOrder _).mpr hlot)
      rw [heq]
      exact hopposite lot₀ ((mem_inOrder _).mp hlot₀)
  unfold lotsAfter
  simp only [← qtyLeft_iff h]
  by_cases hleft : dust < (engine.matched entry).qtyLeft
  · have happend := hopened (engine.matched entry).qtyLeft
    unfold countSide at happend hkept ⊢
    rw [if_pos hleft, if_pos hleft, List.countP_append, happend, hkept]
  · rw [if_neg hleft, if_neg hleft, hkept, add_zero]

/-- Of the other side it adds none. -/
theorem countSide_other (h : OneSided (engine.lotsOf entry.symbol)) {side : Side}
    (hside : side ≠ entry.side) :
    countSide side (engine.lotsAfter entry) ≤ countSide side (engine.lotsOf entry.symbol) := by
  rcases h.sides entry.side with hsame | hopposite
  · refine (countSide_of_other fun lot hlot => ?_).trans_le (Nat.zero_le _)
    have hlotSide : lot.side = entry.side := by
      rcases mem_lotsAfter hlot with hlot | ⟨-, rfl⟩
      · rw [(matched_of_sameSide hsame).1] at hlot
        exact hsame lot hlot
      · rfl
    rw [hlotSide]
    exact hside.symm
  · have hlength : (engine.matched entry).lots.length ≤ (engine.lotsOf entry.symbol).length := by
      simpa using (matched_consumed h).length_le
    rw [countSide_of_same fun lot hlot => eq_of_ne_of_ne (hopposite lot hlot) hside]
    refine le_trans ?_ hlength
    unfold lotsAfter
    split
    · have hnone (quantity : ℚ) : countSide side [openedLot entry quantity] = 0 :=
        countSide_of_other fun lot hlot => by
          rw [List.mem_singleton.mp hlot]
          exact hside.symm
      have happend := hnone (engine.matched entry).qtyLeft
      unfold countSide at happend ⊢
      rw [List.countP_append, happend, add_zero]
      exact List.countP_le_length
    · exact countSide_le _ _

end AccountingEngine

end Accounting

/-! ## The position a signal meets -/

section Snapshot

variable {engine : AccountingEngine} {symbol : String} {held : Position}

theorem netOf_of_side {lots : List PositionLot} {side : Side} (h : ∀ lot ∈ lots, lot.side = side) :
    netOf lots = signedQuantity side (openQty lots) := by
  induction lots with
  | nil => simp [netOf, openQty]
  | cons lot rest ih =>
    obtain ⟨hlot, hrest⟩ := List.forall_mem_cons.mp h
    have hnet : netOf (lot :: rest) = signedQuantity lot.side lot.remainingQty + netOf rest := rfl
    have hopen : openQty (lot :: rest) = lot.remainingQty + openQty rest := rfl
    rw [hnet, hopen, ih hrest, hlot]
    cases side with
    | buy => rfl
    | sell => exact (neg_add _ _).symm

theorem dust_lt_openQty {lots : List PositionLot} (h : OneSided lots) (hne : lots ≠ []) :
    dust < openQty lots := by
  cases lots with
  | nil => exact absurd rfl hne
  | cons lot rest =>
    have hlot := h.left lot List.mem_cons_self
    have hrest := openQty_nonneg fun x hx => h.left x (List.mem_cons_of_mem lot hx)
    have hopen : openQty (lot :: rest) = lot.remainingQty + openQty rest := rfl
    linarith

/-- Without lots, the position is flat. -/
theorem sync_of_nil (h : engine.lotsOf symbol = []) :
    syncPositionFromAccounting engine symbol held = {} := by
  have hnet : (engine.positionExposure symbol).netQuantity = 0 := by
    rw [AccountingEngine.netQuantity_eq, h]
    rfl
  unfold syncPositionFromAccounting
  dsimp only
  rw [hnet, abs_zero]
  exact if_pos epsilon_pos.le

/-- With lots of a side, the position is open, on that side, with an entry for each. -/
theorem sync_of_side {side : Side} (h : OneSided (engine.lotsOf symbol))
    (hne : engine.lotsOf symbol ≠ []) (hside : ∀ lot ∈ engine.lotsOf symbol, lot.side = side) :
    (syncPositionFromAccounting engine symbol held).isOpen ∧
      (syncPositionFromAccounting engine symbol held).side = some side ∧
      (syncPositionFromAccounting engine symbol held).entries =
        (engine.lotsOf symbol).length := by
  have hqty := dust_lt_openQty h hne
  have hpos : 0 < openQty (engine.lotsOf symbol) := dust_pos.trans hqty
  have hepsilon : epsilon < openQty (engine.lotsOf symbol) :=
    lt_trans (by norm_num [epsilon, dust]) hqty
  have hnet : (engine.positionExposure symbol).netQuantity =
      signedQuantity side (openQty (engine.lotsOf symbol)) := by
    rw [AccountingEngine.netQuantity_eq, netOf_of_side hside]
  have habs : |signedQuantity side (openQty (engine.lotsOf symbol))| =
      openQty (engine.lotsOf symbol) := by
    cases side with
    | buy => exact abs_of_pos hpos
    | sell => exact (abs_neg _).trans (abs_of_pos hpos)
  have hlots : (engine.positionExposure symbol).openLots = (engine.lotsOf symbol).length := by
    unfold AccountingEngine.positionExposure AccountingEngine.lotsOf
    cases engine.state.openPositions.lookup symbol <;> rfl
  unfold syncPositionFromAccounting
  dsimp only
  rw [hnet, habs, if_neg (not_le.mpr hepsilon)]
  refine ⟨hepsilon.trans_eq habs.symm, ?_, hlots⟩
  unfold Position.side
  cases side with
  | buy => exact if_pos hpos
  | sell =>
    have hneg : -openQty (engine.lotsOf symbol) < 0 := neg_neg_of_pos hpos
    exact (if_neg (not_lt.mpr hneg.le)).trans (if_pos hneg)

end Snapshot

/-- What lets a signal enter, and for which side. -/
theorem decideOrder_entry {cfg : Config} {position : Position} {signal : ScoredDecision}
    {lastScore : ℚ} {order : OrderIntent}
    (h : decideOrder cfg position signal lastScore = some order)
    (hentry : order.request.reduceOnly = false) :
    ¬ position.isOpen ∨ canScale position signal lastScore order.request.side cfg.maxEntries := by
  cases decideOrder_decided h with
  | exit hopen hside hsize => cases hentry
  | entry hflat hallowed => exact .inl hflat
  | scale hcan => exact .inr hcan

/-! ## Runs with orders in flight -/

/-- The loop, and the entries it sent that are not filled yet. -/
structure InFlight where
  loop : PositionLoop := {}
  entries : List OrderIntent := []

/-- A signal, the fill of the `i`-th entry in flight, or another fill: of
an order that reduces, or of another symbol. -/
inductive FlightStep where
  | signal (signal : ScoredDecision)
  | entryFill (i : Nat) (fill : FillEvent)
  | otherFill (fill : FillEvent)

def FlightStep.input : FlightStep → PositionInput
  | .signal d => .signal d
  | .entryFill _ f => .fill f
  | .otherFill f => .fill f

/-- The position the loop decides on, once the signal's price is the mark. -/
def PositionLoop.seen (cfg : Config) (signal : ScoredDecision) (s : PositionLoop) : Position :=
  syncPositionFromAccounting (s.accounting.markToMarket cfg.symbol signal.market.price).2
    cfg.symbol s.position

namespace InFlight

variable {cfg : Config} {s : InFlight}

def lots (cfg : Config) (s : InFlight) : List PositionLot := s.loop.accounting.lotsOf cfg.symbol

/-- The entries in flight of a side that will open a lot. -/
def awaited (side : Side) (s : InFlight) : Nat :=
  s.entries.countP fun order => decide (order.request.side = side ∧ dust < order.request.size)

/-- What a step leaves in flight: no longer the entry it fills. -/
def remaining (s : InFlight) : FlightStep → List OrderIntent
  | .signal _ => s.entries
  | .entryFill i _ => s.entries.eraseIdx i
  | .otherFill _ => s.entries

def next (cfg : Config) (s : InFlight) (a : FlightStep) : InFlight :=
  { loop := (PositionLoop.step cfg s.loop a.input).2
    entries := s.remaining a ++
      (PositionLoop.step cfg s.loop a.input).1.filter fun order => !order.request.reduceOnly }

/-- The fill of an entry is of its symbol, side and size. -/
def Possible (s : InFlight) : FlightStep → Prop
  | .entryFill i fill => ∃ order, s.entries[i]? = some order ∧
      fill.symbol = order.request.symbol ∧ fill.side = order.request.side ∧
      fill.filledSize = order.request.size
  | _ => True

/-- There is room for one more lot of the side, those awaited included. -/
def Room (cfg : Config) (s : InFlight) (side : Side) : Prop :=
  countSide side (s.lots cfg) + s.awaited side < cfg.maxEntries

/-- An entry is sent with none of its side in flight or with room for one
more; a fill of another order opens a lot only where there is room. -/
def Roomy (cfg : Config) (s : InFlight) : FlightStep → Prop
  | .signal d => ∀ order,
      decideOrder cfg (s.loop.seen cfg d) d s.loop.lastScore = some order →
      order.request.reduceOnly = false → dust < order.request.size →
      s.awaited order.request.side = 0 ∨ s.Room cfg order.request.side
  | .entryFill _ _ => True
  | .otherFill fill => fill.symbol = cfg.symbol → Opens fill.side fill.filledSize (s.lots cfg) →
      s.Room cfg fill.side

/-- The states the steps lead to, each step possible and of this kind. -/
inductive Flown (cfg : Config) (ok : InFlight → FlightStep → Prop) : InFlight → Prop where
  | start : Flown cfg ok {}
  | step {s : InFlight} (h : Flown cfg ok s) (a : FlightStep) (possible : s.Possible a)
      (meets : ok s a) : Flown cfg ok (s.next cfg a)

/-- Lots and entries in flight of a side are within the cap. -/
structure Capped (cfg : Config) (s : InFlight) : Prop where
  symbol : ∀ order ∈ s.entries, order.request.symbol = cfg.symbol
  oneSided : OneSided (s.lots cfg)
  within : ∀ side, countSide side (s.lots cfg) + s.awaited side ≤ cfg.maxEntries

/-! ### One step -/

theorem lots_signal (d : ScoredDecision) : (s.next cfg (.signal d)).lots cfg = s.lots cfg := rfl

theorem entries_fill {a : FlightStep} {fill : FillEvent} (h : a.input = .fill fill) :
    (s.next cfg a).entries = s.remaining a := by
  unfold next
  rw [h]
  exact List.append_nil _

theorem lots_fill {a : FlightStep} {fill : FillEvent} (h : a.input = .fill fill) :
    (s.next cfg a).lots cfg = if cfg.symbol = fill.symbol then
      s.loop.accounting.lotsAfter fill.ledgerEntry else s.lots cfg := by
  unfold next lots
  rw [h]
  exact AccountingEngine.lotsOf_applyFill cfg.symbol

theorem oneSided_fill {a : FlightStep} {fill : FillEvent} (h : a.input = .fill fill)
    (hs : OneSided (s.lots cfg)) : OneSided ((s.next cfg a).lots cfg) := by
  rw [lots_fill h]
  split
  · rename_i hsymbol
    refine AccountingEngine.lotsAfter_oneSided ?_
    have hentry : fill.ledgerEntry.symbol = cfg.symbol := hsymbol.symm
    rw [hentry]
    exact hs
  · exact hs

theorem countSide_opens {a : FlightStep} {fill : FillEvent} (h : a.input = .fill fill)
    (hs : OneSided (s.lots cfg)) (hsymbol : fill.symbol = cfg.symbol) :
    countSide fill.side ((s.next cfg a).lots cfg) = countSide fill.side (s.lots cfg) +
      if Opens fill.side fill.filledSize (s.lots cfg) then 1 else 0 := by
  have hlots : s.loop.accounting.lotsOf fill.ledgerEntry.symbol = s.lots cfg :=
    congrArg s.loop.accounting.lotsOf hsymbol
  have hown := AccountingEngine.countSide_own (by rw [hlots]; exact hs)
  rw [hlots] at hown
  rw [lots_fill h, if_pos hsymbol.symm]
  exact hown

/-- A fill of the symbol opens one lot at most, of its side. -/
theorem countSide_fill {a : FlightStep} {fill : FillEvent} (h : a.input = .fill fill)
    (hs : OneSided (s.lots cfg)) (side : Side) :
    countSide side ((s.next cfg a).lots cfg) ≤ countSide side (s.lots cfg) +
      if fill.symbol = cfg.symbol ∧ side = fill.side ∧
        Opens fill.side fill.filledSize (s.lots cfg) then 1 else 0 := by
  by_cases hsymbol : cfg.symbol = fill.symbol
  · by_cases hside : side = fill.side
    · subst hside
      have hopens := countSide_opens h hs hsymbol.symm
      simp only [hopens, hsymbol, true_and, le_refl]
    · rw [lots_fill h, if_pos hsymbol]
      refine le_trans ?_ (Nat.le_add_right _ _)
      have hlots : s.loop.accounting.lotsOf fill.ledgerEntry.symbol = s.lots cfg :=
        congrArg s.loop.accounting.lotsOf hsymbol.symm
      rw [← hlots]
      exact AccountingEngine.countSide_other (by rw [hlots]; exact hs) hside
  · rw [lots_fill h, if_neg hsymbol]
    exact Nat.le_add_right _ _

theorem awaited_eraseIdx {s' : InFlight} {i : Nat} {order : OrderIntent}
    (h : s.entries[i]? = some order) (h' : s'.entries = s.entries.eraseIdx i) (side : Side) :
    s'.awaited side +
        (if order.request.side = side ∧ dust < order.request.size then 1 else 0) =
      s.awaited side := by
  obtain ⟨hlt, rfl⟩ := List.getElem?_eq_some_iff.mp h
  have hperm := (List.getElem_cons_eraseIdx_perm hlt).countP_eq fun order =>
    decide (order.request.side = side ∧ dust < order.request.size)
  unfold awaited
  rw [h', ← hperm, List.countP_cons]
  simp only [decide_eq_true_eq]

/-- What a signal decides is decided on the lots it finds: an entry needs
all of them to be of its side, and less than the cap of them. -/
theorem room_of_decided (hs : OneSided (s.lots cfg)) (hcap : 1 ≤ cfg.maxEntries)
    {d : ScoredDecision} {order : OrderIntent}
    (h : decideOrder cfg (s.loop.seen cfg d) d s.loop.lastScore = some order)
    (hentry : order.request.reduceOnly = false) :
    (∀ lot ∈ s.lots cfg, lot.side = order.request.side) ∧
      countSide order.request.side (s.lots cfg) < cfg.maxEntries := by
  have hone : OneSided ((s.loop.accounting.markToMarket cfg.symbol d.market.price).2.lotsOf
      cfg.symbol) := hs
  cases hlots : s.lots cfg with
  | nil => exact ⟨fun lot hlot => absurd hlot List.not_mem_nil, hcap⟩
  | cons head rest =>
    have hhead : head ∈ s.lots cfg := by rw [hlots]; exact List.mem_cons_self
    have hside : ∀ lot ∈ s.lots cfg, lot.side = head.side := fun lot hlot =>
      hs.side lot hlot head hhead
    obtain ⟨hopen, hseen, hentries⟩ := sync_of_side hone
      (List.ne_nil_of_mem hhead) hside
    rcases decideOrder_entry h hentry with hflat | hcan
    · exact absurd hopen hflat
    · obtain ⟨-, hdesired, hless, -⟩ := hcan
      have heq : head.side = order.request.side := Option.some.inj (hseen.symm.trans hdesired)
      have hlength : (s.lots cfg).length < cfg.maxEntries := hentries.symm.trans_lt hless
      rw [← hlots]
      exact ⟨fun lot hlot => (hside lot hlot).trans heq, (countSide_le _ _).trans_lt hlength⟩

/-- A signal that enters puts its order in flight. -/
theorem entries_of_entry {d : ScoredDecision} {order : OrderIntent}
    (h : decideOrder cfg (s.loop.seen cfg d) d s.loop.lastScore = some order)
    (hentry : order.request.reduceOnly = false) :
    (s.next cfg (.signal d)).entries = s.entries ++ [order] := by
  have hsent : (PositionLoop.step cfg s.loop (.signal d)).1 = [order] :=
    congrArg Option.toList h
  unfold next FlightStep.input remaining
  rw [hsent, List.filter_cons_of_pos (by simp [hentry]), List.filter_nil]

/-- Any other signal puts none. -/
theorem entries_of_no_entry {d : ScoredDecision}
    (h : ∀ order, decideOrder cfg (s.loop.seen cfg d) d s.loop.lastScore = some order →
      order.request.reduceOnly = true) :
    (s.next cfg (.signal d)).entries = s.entries := by
  have hsent : (PositionLoop.step cfg s.loop (.signal d)).1.filter
      (fun order => !order.request.reduceOnly) = [] := by
    refine List.filter_eq_nil_iff.mpr fun order horder => ?_
    rw [h order (Option.mem_toList.mp horder)]
    exact Bool.false_ne_true
  unfold next FlightStep.input remaining
  rw [hsent, List.append_nil]

theorem symbol_of_decided {d : ScoredDecision} {position : Position} {lastScore : ℚ}
    {order : OrderIntent} (h : decideOrder cfg position d lastScore = some order) :
    order.request.symbol = cfg.symbol := by
  obtain ⟨_, _, _, rfl⟩ := decideOrder_eq_some h
  rfl

theorem awaited_congr {s' : InFlight} (h : s'.entries = s.entries) (side : Side) :
    s'.awaited side = s.awaited side := by
  unfold awaited
  rw [h]

theorem awaited_concat {s' : InFlight} {order : OrderIntent}
    (h : s'.entries = s.entries ++ [order]) (side : Side) :
    s'.awaited side = s.awaited side +
      if order.request.side = side ∧ dust < order.request.size then 1 else 0 := by
  unfold awaited
  rw [h, List.countP_append, List.countP_singleton]
  simp only [decide_eq_true_eq]

theorem symbol_concat {entries : List OrderIntent} {order : OrderIntent}
    (h : ∀ x ∈ entries, x.request.symbol = cfg.symbol)
    (horder : order.request.symbol = cfg.symbol) :
    ∀ x ∈ entries ++ [order], x.request.symbol = cfg.symbol :=
  List.forall_mem_append.mpr ⟨h, List.forall_mem_singleton.mpr horder⟩

theorem signal_capped (hcap : 1 ≤ cfg.maxEntries) (h : Capped cfg s) {d : ScoredDecision}
    (hok : Roomy cfg s (.signal d)) : Capped cfg (s.next cfg (.signal d)) := by
  by_cases hentry : ∃ order, decideOrder cfg (s.loop.seen cfg d) d s.loop.lastScore = some order ∧
      order.request.reduceOnly = false
  · obtain ⟨order, hdecided, hentry⟩ := hentry
    have hentries := entries_of_entry hdecided hentry
    refine ⟨?_, h.oneSided, fun side => ?_⟩
    · rw [hentries]
      exact symbol_concat h.symbol (symbol_of_decided hdecided)
    · rw [awaited_concat hentries, lots_signal]
      by_cases hopens : order.request.side = side ∧ dust < order.request.size
      · obtain ⟨rfl, hsize⟩ := hopens
        have hdesired := (room_of_decided h.oneSided hcap hdecided hentry).2
        rw [if_pos ⟨rfl, hsize⟩]
        rcases hok order hdecided hentry hsize with hnone | hroom
        · omega
        · unfold Room at hroom
          omega
      · rw [if_neg hopens]
        exact h.within side
  · have hentries : (s.next cfg (.signal d)).entries = s.entries :=
      entries_of_no_entry fun order hdecided => by
        cases hreduce : order.request.reduceOnly with
        | true => rfl
        | false => exact absurd ⟨order, hdecided, hreduce⟩ hentry
    refine ⟨hentries ▸ h.symbol, h.oneSided, fun side => ?_⟩
    rw [awaited_congr hentries]
    exact h.within side

/-- A fill opens no lot unless it is of more than dust. -/
theorem dust_lt_of_opens (hs : OneSided (s.lots cfg)) {side : Side} {quantity : ℚ}
    (h : Opens side quantity (s.lots cfg)) : dust < quantity := by
  have hopposite : 0 ≤ openQty (oppositeLots side (s.lots cfg)) :=
    openQty_nonneg fun lot hlot => hs.left lot (List.mem_of_mem_filter hlot)
  unfold Opens at h
  have hmax : dust < max quantity 0 := by linarith
  exact (lt_max_iff.mp hmax).resolve_right (not_lt.mpr dust_pos.le)

theorem entryFill_capped (h : Capped cfg s) {i : Nat} {fill : FillEvent}
    (hpossible : s.Possible (.entryFill i fill)) : Capped cfg (s.next cfg (.entryFill i fill)) := by
  obtain ⟨order, horder, -, hside, hsize⟩ := hpossible
  have hentries : (s.next cfg (.entryFill i fill)).entries = s.entries.eraseIdx i :=
    entries_fill rfl
  refine ⟨fun x hx => ?_, oneSided_fill rfl h.oneSided, fun side => ?_⟩
  · rw [hentries] at hx
    exact h.symbol x (List.mem_of_mem_eraseIdx hx)
  · -- the lot it may open is the one that was awaited
    have hcount := countSide_fill (a := .entryFill i fill) rfl h.oneSided side
    have hawaited := awaited_eraseIdx horder hentries side
    have hopens : (if fill.symbol = cfg.symbol ∧ side = fill.side ∧
        Opens fill.side fill.filledSize (s.lots cfg) then 1 else 0) ≤
        if order.request.side = side ∧ dust < order.request.size then 1 else 0 := by
      split
      · rename_i hyes
        obtain ⟨-, hfill, hopen⟩ := hyes
        have hdust := dust_lt_of_opens h.oneSided hopen
        rw [if_pos ⟨hside.symm.trans hfill.symm, hsize ▸ hdust⟩]
      · exact Nat.zero_le _
    have hwithin := h.within side
    omega

theorem otherFill_capped (h : Capped cfg s) {fill : FillEvent}
    (hok : Roomy cfg s (.otherFill fill)) : Capped cfg (s.next cfg (.otherFill fill)) := by
  have hentries : (s.next cfg (.otherFill fill)).entries = s.entries := entries_fill rfl
  refine ⟨hentries ▸ h.symbol, oneSided_fill rfl h.oneSided, fun side => ?_⟩
  have hcount := countSide_fill (a := .otherFill fill) rfl h.oneSided side
  have hwithin := h.within side
  rw [awaited_congr hentries]
  split at hcount
  · rename_i hopens
    obtain ⟨hsymbol, rfl, hopen⟩ := hopens
    have hroom := hok hsymbol hopen
    unfold Room at hroom
    omega
  · omega

theorem step_capped (hcap : 1 ≤ cfg.maxEntries) (h : Capped cfg s) {a : FlightStep}
    (hpossible : s.Possible a) (hok : Roomy cfg s a) : Capped cfg (s.next cfg a) := by
  cases a with
  | signal d => exact signal_capped hcap h hok
  | entryFill i fill => exact entryFill_capped h hpossible
  | otherFill fill => exact otherFill_capped h hok

theorem start_capped (cfg : Config) : Capped cfg {} where
  symbol _ horder := absurd horder List.not_mem_nil
  oneSided := AccountingEngine.new_oneSided .fifo cfg.symbol
  within _ := Nat.zero_le _

/-! ### Runs -/

/-- Entries filled one after the other, with no other input in between. -/
inductive Filled (cfg : Config) : InFlight → InFlight → Prop where
  | done (s : InFlight) : Filled cfg s s
  | fill {s s' : InFlight} (i : Nat) (fill : FillEvent) (possible : s.Possible (.entryFill i fill))
      (rest : Filled cfg (s.next cfg (.entryFill i fill)) s') : Filled cfg s s'

theorem Filled.capped {s' : InFlight} (h : Filled cfg s s') (hs : Capped cfg s) :
    Capped cfg s' := by
  induction h with
  | done => exact hs
  | fill i fill possible rest ih => exact ih (entryFill_capped hs possible)

/-- A fill that answers an entry. -/
def answer (order : OrderIntent) : FillEvent :=
  { orderId := "", fillId := "", symbol := order.request.symbol, side := order.request.side
    price := order.lastPrice, filledSize := order.request.size, liquidityFlag := .taker, fee := 0
    feeAsset := "USDT", rebateAmount := 0, fundingAmount := 0, timestamp := 0
    truth := { lastFillTimestamp := 0 } }

theorem exists_awaited {side : Side} (h : s.awaited side ≠ 0) :
    ∃ (i : Nat) (order : OrderIntent), s.entries[i]? = some order ∧ order.request.side = side ∧
      dust < order.request.size := by
  obtain ⟨order, hmem, hawaited⟩ := List.countP_pos_iff.mp (Nat.pos_of_ne_zero h)
  obtain ⟨i, hi⟩ := List.mem_iff_getElem?.mp hmem
  exact ⟨i, order, hi, of_decide_eq_true hawaited⟩

theorem sides_of_countSide (hs : OneSided (s.lots cfg)) {side : Side}
    (h : 0 < countSide side (s.lots cfg)) : ∀ lot ∈ s.lots cfg, lot.side = side := by
  rcases hs.sides side with hsame | hother
  · exact hsame
  · rw [countSide_of_other hother] at h
    exact absurd h (lt_irrefl 0)

/-- Lots of one side and entries awaited on it past the cap: filling the
entries opens too many lots. -/
theorem exceeds_of_overfull {side : Side} (hsymbol : ∀ order ∈ s.entries,
      order.request.symbol = cfg.symbol) (hs : OneSided (s.lots cfg))
    (hside : ∀ lot ∈ s.lots cfg, lot.side = side)
    (hover : cfg.maxEntries < countSide side (s.lots cfg) + s.awaited side) :
    ∃ s', Filled cfg s s' ∧ cfg.maxEntries < (s'.lots cfg).length := by
  induction hn : s.awaited side generalizing s with
  | zero =>
    refine ⟨s, .done s, ?_⟩
    rw [← countSide_of_same hside]
    omega
  | succ n ih =>
    have hsome : s.awaited side ≠ 0 := by omega
    obtain ⟨i, order, horder, rfl, hsize⟩ := exists_awaited hsome
    have hmem : order ∈ s.entries := List.mem_of_getElem? horder
    have hpossible : s.Possible (.entryFill i (answer order)) := ⟨order, horder, rfl, rfl, rfl⟩
    have hopens : Opens order.request.side order.request.size (s.lots cfg) := by
      have hnone : oppositeLots order.request.side (s.lots cfg) = [] :=
        List.filter_eq_nil_iff.mpr fun lot hlot => by simp [hside lot hlot]
      have hzero : openQty ([] : List PositionLot) = 0 := rfl
      unfold Opens
      rw [hnone, hzero, sub_zero]
      exact lt_max_of_lt_left hsize
    have hcount := countSide_opens (a := .entryFill i (answer order)) rfl hs
      (hsymbol order hmem)
    have hcount' : countSide order.request.side
        ((s.next cfg (.entryFill i (answer order))).lots cfg) =
        countSide order.request.side (s.lots cfg) + 1 := hcount.trans (by
          rw [if_pos (show Opens (answer order).side (answer order).filledSize (s.lots cfg) from
            hopens)]
          rfl)
    have hentries : (s.next cfg (.entryFill i (answer order))).entries = s.entries.eraseIdx i :=
      entries_fill rfl
    have hone := oneSided_fill (a := .entryFill i (answer order)) rfl hs
    have hawaited := awaited_eraseIdx horder hentries order.request.side
    rw [if_pos ⟨rfl, hsize⟩] at hawaited
    obtain ⟨s', hfilled, hexceeds⟩ := ih
      (fun x hx => hsymbol x (List.mem_of_mem_eraseIdx (hentries ▸ hx))) hone
      (sides_of_countSide hone (by omega)) (by omega) (by omega)
    exact ⟨s', .fill i (answer order) hpossible hfilled, hexceeds⟩

theorem Capped.length_le (h : Capped cfg s) : (s.lots cfg).length ≤ cfg.maxEntries := by
  cases hlots : s.lots cfg with
  | nil => exact Nat.zero_le _
  | cons head rest =>
    have hhead : head ∈ s.lots cfg := by rw [hlots]; exact List.mem_cons_self
    have hcount := countSide_of_same fun lot hlot => h.oneSided.side lot hlot head hhead
    rw [← hlots, ← hcount]
    exact (Nat.le_add_right _ _).trans (h.within head.side)

theorem Flown.capped (hcap : 1 ≤ cfg.maxEntries) (h : Flown cfg (Roomy cfg) s) : Capped cfg s := by
  induction h with
  | start => exact start_capped cfg
  | step _ a possible meets ih => exact step_capped hcap ih possible meets

/-- In a run whose entries find room, those in flight counted, the cap
holds throughout. -/
theorem lots_within_cap (hcap : 1 ≤ cfg.maxEntries) (h : Flown cfg (Roomy cfg) s) :
    (s.lots cfg).length ≤ cfg.maxEntries :=
  (h.capped hcap).length_le

/-- A step finds room if and only if the cap holds after it however the
entries in flight are then filled. -/
theorem roomy_iff (hcap : 1 ≤ cfg.maxEntries) (h : Capped cfg s) {a : FlightStep}
    (hpossible : s.Possible a) :
    Roomy cfg s a ↔
      ∀ s', Filled cfg (s.next cfg a) s' → (s'.lots cfg).length ≤ cfg.maxEntries := by
  refine ⟨fun hok s' hfilled => (hfilled.capped (step_capped hcap h hpossible hok)).length_le,
    fun hall => ?_⟩
  by_contra hno
  suffices hexceeds : ∃ s', Filled cfg (s.next cfg a) s' ∧
      cfg.maxEntries < (s'.lots cfg).length by
    obtain ⟨s', hfilled, hlt⟩ := hexceeds
    exact absurd (hall s' hfilled) (not_le.mpr hlt)
  cases a with
  | entryFill i fill => exact absurd trivial hno
  | otherFill fill =>
    simp only [Roomy, Room, not_forall, not_lt] at hno
    obtain ⟨hsymbol, hopens, hfull⟩ := hno
    have hcount := countSide_opens (a := .otherFill fill) rfl h.oneSided hsymbol
    have hone := oneSided_fill (a := .otherFill fill) rfl h.oneSided
    have hentries : (s.next cfg (.otherFill fill)).entries = s.entries := entries_fill rfl
    have hawaited := awaited_congr hentries fill.side
    rw [if_pos hopens] at hcount
    have hpos : 0 < countSide fill.side ((s.next cfg (.otherFill fill)).lots cfg) := by omega
    exact exceeds_of_overfull (hentries ▸ h.symbol) hone (sides_of_countSide hone hpos) (by omega)
  | signal d =>
    simp only [Roomy, Room, not_forall, not_or, not_lt] at hno
    obtain ⟨order, hdecided, hentry, hsize, -, hfull⟩ := hno
    have hsides := (room_of_decided h.oneSided hcap hdecided hentry).1
    have hentries := entries_of_entry hdecided hentry
    have hawaited := awaited_concat hentries order.request.side
    rw [if_pos ⟨rfl, hsize⟩] at hawaited
    refine exceeds_of_overfull ?_ h.oneSided hsides ?_
    · rw [hentries]
      exact symbol_concat h.symbol (symbol_of_decided hdecided)
    · rw [hawaited, lots_signal]
      omega

end InFlight

namespace Desk

open InFlight

/-- One lot at most. -/
def oneEntry : Config := { maxEntries := 1 }

def entrySignal : ScoredDecision := { calmSignal with decision := .enterSmall }

/-- The entry a calm signal calls for. -/
def entryOrder : OrderIntent :=
  intent oneEntry .buy (entrySize oneEntry entrySignal) false entrySignal {}

theorem entryOrder_decided (lastScore : ℚ) :
    decideOrder oneEntry {} entrySignal lastScore = some entryOrder := by
  unfold decideOrder
  rw [if_neg (by decide +kernel), if_neg (by decide)]
  exact if_pos (by decide +kernel)

/-- As long as nothing is filled, the signal calls for the entry again. -/
theorem entries_signal {s : InFlight} (h : s.lots oneEntry = []) :
    (s.next oneEntry (.signal entrySignal)).entries = s.entries ++ [entryOrder] := by
  refine entries_of_entry ?_ rfl
  have hflat : s.loop.seen oneEntry entrySignal = {} := sync_of_nil h
  rw [hflat]
  exact entryOrder_decided _

def signalled : InFlight := InFlight.next oneEntry {} (.signal entrySignal)

def filled : InFlight := signalled.next oneEntry (.entryFill 0 (answer entryOrder))

theorem entries_signalled : signalled.entries = [entryOrder] := entries_signal rfl

theorem filled_flown : Flown oneEntry (Roomy oneEntry) filled := by
  refine .step (.step .start (.signal entrySignal) trivial fun order _ _ _ => .inl rfl)
    (.entryFill 0 (answer entryOrder)) ⟨entryOrder, ?_, rfl, rfl, rfl⟩ trivial
  exact congrArg (·[0]?) entries_signalled

theorem lots_within_cap_filled : (filled.lots oneEntry).length ≤ 1 :=
  lots_within_cap (by decide) filled_flown

/-- The second signal is taken while the entry of the first is in flight. -/
def twice : InFlight := signalled.next oneEntry (.signal entrySignal)

theorem entries_twice : twice.entries = [entryOrder, entryOrder] := by
  have hentries : twice.entries = signalled.entries ++ [entryOrder] := entries_signal rfl
  rw [hentries, entries_signalled]
  rfl

def halfFilled : InFlight := twice.next oneEntry (.entryFill 0 (answer entryOrder))

theorem entries_halfFilled : halfFilled.entries = [entryOrder] := by
  have hentries : halfFilled.entries = twice.entries.eraseIdx 0 := entries_fill rfl
  rw [hentries, entries_twice]
  rfl

def twiceFilled : InFlight := halfFilled.next oneEntry (.entryFill 0 (answer entryOrder))

theorem twiceFilled_flown : Flown oneEntry (fun _ _ => True) twiceFilled := by
  have hsent : Flown oneEntry (fun _ _ => True) twice :=
    .step (.step .start (.signal entrySignal) trivial trivial) (.signal entrySignal) trivial trivial
  have hhalf : Flown oneEntry (fun _ _ => True) halfFilled :=
    .step hsent (.entryFill 0 (answer entryOrder))
      ⟨entryOrder, congrArg (·[0]?) entries_twice, rfl, rfl, rfl⟩ trivial
  exact .step hhalf (.entryFill 0 (answer entryOrder))
    ⟨entryOrder, congrArg (·[0]?) entries_halfFilled, rfl, rfl, rfl⟩ trivial

/-- Both enter, and with both filled there are two lots. -/
theorem cap_exceeded : ¬ ∀ cfg : Config, 1 ≤ cfg.maxEntries →
    ∀ s, Flown cfg (fun _ _ => True) s → s.entries = [] →
      (s.lots cfg).length ≤ cfg.maxEntries := by
  intro h
  have hall : twiceFilled.entries = [] := by
    have hentries : twiceFilled.entries = halfFilled.entries.eraseIdx 0 := entries_fill rfl
    rw [hentries, entries_halfFilled]
    rfl
  have hlots : (twiceFilled.lots oneEntry).length = 2 := by decide +kernel
  have hle := h oneEntry (by decide) twiceFilled twiceFilled_flown hall
  rw [hlots] at hle
  exact absurd hle (by decide)

end Desk

end RealTimeTrading.Rtts
