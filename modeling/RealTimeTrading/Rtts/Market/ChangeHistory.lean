/-
RealTimeTrading.Rtts.Market.ChangeHistory — trimming the changes of the
book takes nothing from its readings.

Beside the book runs one that keeps every change. The changes of the book
are what is left of those above a cutoff (`Shadows`), 750 ms before the
last delta at the latest. No reading of a later update looks that far back,
so both books report the same states (`trimming_harmless`).
-/
import RealTimeTrading.Concurrency.Emitting
import RealTimeTrading.Data.Windows
import RealTimeTrading.Rtts.ExecutionController
import RealTimeTrading.Rtts.Market.OrderBook

namespace RealTimeTrading.Rtts.OrderBook

open Concurrency Data

/-! ## The book that keeps every change -/

def applyDeltaUntrimmed (delta : BookDelta) (book : OrderBook) : BookState × OrderBook :=
  let book := delta.bids.foldl (applyLevel delta.timestamp .buy) book
  let book := delta.asks.foldl (applyLevel delta.timestamp .sell) book
  let state := book.computeState delta.timestamp
  (state, { book with lastState := state })

def updateUntrimmed (book : OrderBook) : MarketUpdate → BookState × OrderBook
  | .bookDelta delta => book.applyDeltaUntrimmed delta
  | .trade trade => book.observeTrade trade

def step (book : OrderBook) (u : MarketUpdate) : List BookState × OrderBook :=
  ([(book.update u).1], (book.update u).2)

def stepUntrimmed (book : OrderBook) (u : MarketUpdate) : List BookState × OrderBook :=
  ([(book.updateUntrimmed u).1], (book.updateUntrimmed u).2)

/-- The states returned by these calls on a new book. -/
def returned (updates : List MarketUpdate) : List BookState := (emit step {} updates).1

def returnedUntrimmed (updates : List MarketUpdate) : List BookState :=
  (emit stepUntrimmed {} updates).1

/-! ## Readings -/

/-- The books differ in changes before the cutoff at most, which the first one has dropped. -/
def Shadows (cutoff : Nat) (book full : OrderBook) : Prop :=
  ∃ kept, book = { full with changes := kept } ∧
    LeftOf BookChange.timestamp cutoff kept full.changes

def recentAdd (now : Nat) (change : BookChange) : Bool :=
  decide (now - 650 ≤ change.timestamp ∧ change.oldQty * 2 < change.newQty)

def takesOut (add remove : BookChange) : Bool :=
  decide (add.timestamp < remove.timestamp ∧ remove.timestamp - add.timestamp < 450 ∧
    remove.side = add.side ∧ remove.priceTick = add.priceTick ∧
    remove.newQty < add.newQty * 0.25)

def recentPull (now : Nat) (change : BookChange) : Bool :=
  decide (now - 350 ≤ change.timestamp ∧ change.newQty * 2.5 < change.oldQty)

theorem spoofingScore_eq (book : OrderBook) (now : Nat) :
    book.spoofingScore now =
      let adds := book.changes.filter (recentAdd now)
      let rapidAddRemove := adds.filter fun add => book.changes.any (takesOut add)
      if 0 < adds.length then (rapidAddRemove.length : ℚ) / adds.length else 0 := rfl

theorem liquidityPull_eq (book : OrderBook) (now : Nat) :
    book.liquidityPull now =
      clamp (((book.changes.filter (recentPull now)).map
        fun change => change.oldQty - change.newQty).sum /
          max (book.lastState.bidVolume + book.lastState.askVolume) 1) 0 1 := rfl

section Readings

variable {cutoff now : Nat} {book full : OrderBook}

/-- Adds are looked for in the last 650 ms, and what takes one out comes after it. -/
theorem Shadows.spoofingScore (h : Shadows cutoff book full) (hcutoff : cutoff ≤ now - 650) :
    book.spoofingScore now = full.spoofingScore now := by
  obtain ⟨kept, rfl, hleft⟩ := h
  have hrecent : ∀ change, recentAdd now change = true → cutoff ≤ change.timestamp :=
    fun change hchange => hcutoff.trans (of_decide_eq_true hchange).1
  have htakesOut : ∀ add ∈ full.changes.filter (recentAdd now),
      kept.any (takesOut add) = full.changes.any (takesOut add) := by
    intro add hadd
    have hadd := hrecent add (List.mem_filter.mp hadd).2
    exact hleft.any_eq fun remove hremove => hadd.trans (of_decide_eq_true hremove).1.le
  rw [spoofingScore_eq, spoofingScore_eq]
  dsimp only
  rw [hleft.filter_eq hrecent, List.filter_congr htakesOut]

theorem Shadows.liquidityPull (h : Shadows cutoff book full) (hcutoff : cutoff ≤ now - 350) :
    book.liquidityPull now = full.liquidityPull now := by
  obtain ⟨kept, rfl, hleft⟩ := h
  have hrecent : ∀ change, recentPull now change = true → cutoff ≤ change.timestamp :=
    fun change hchange => hcutoff.trans (of_decide_eq_true hchange).1
  rw [liquidityPull_eq, liquidityPull_eq]
  dsimp only
  rw [hleft.filter_eq hrecent]

/-- Each reading looks back less than the changes are kept for. -/
theorem Shadows.computeState (h : Shadows cutoff book full) (hcutoff : cutoff ≤ now - 750) :
    book.computeState now = full.computeState now := by
  have hspoofing := h.spoofingScore (hcutoff.trans (Nat.sub_le_sub_left (by decide) now))
  have hpull := h.liquidityPull (hcutoff.trans (Nat.sub_le_sub_left (by decide) now))
  obtain ⟨kept, rfl, -⟩ := h
  unfold OrderBook.computeState
  rw [hspoofing, hpull]
  rfl

end Readings

/-! ## Updates -/

section Updates

variable {cutoff : Nat} {book full : OrderBook}

theorem Shadows.applyLevel (h : Shadows cutoff book full) (timestamp : Nat) (side : Side)
    (level : BookLevel) :
    Shadows cutoff (applyLevel timestamp side book level)
      (applyLevel timestamp side full level) := by
  obtain ⟨kept, rfl, hleft⟩ := h
  cases side with
  | buy => exact ⟨_, rfl, hleft.append _⟩
  | sell => exact ⟨_, rfl, hleft.append _⟩

theorem Shadows.applyLevels (h : Shadows cutoff book full) (timestamp : Nat) (side : Side)
    (levels : List BookLevel) :
    Shadows cutoff (levels.foldl (OrderBook.applyLevel timestamp side) book)
      (levels.foldl (OrderBook.applyLevel timestamp side) full) :=
  List.foldl_rel h fun level _ _ _ h => h.applyLevel timestamp side level

theorem Shadows.trimChanges (h : Shadows cutoff book full) {now windowMs : Nat}
    (hcutoff : cutoff ≤ now - windowMs) :
    Shadows (now - windowMs) (book.trimChanges now windowMs) full := by
  obtain ⟨kept, rfl, hleft⟩ := h
  exact ⟨_, rfl, hleft.dropWhile hcutoff⟩

theorem Shadows.applyDelta (h : Shadows cutoff book full) {delta : BookDelta}
    (hcutoff : cutoff ≤ delta.timestamp - 750) :
    (book.applyDelta delta).1 = (full.applyDeltaUntrimmed delta).1 ∧
      Shadows (delta.timestamp - 750) (book.applyDelta delta).2
        (full.applyDeltaUntrimmed delta).2 := by
  have hlevels :=
    (h.applyLevels delta.timestamp .buy delta.bids).applyLevels delta.timestamp .sell delta.asks
  have htrimmed := hlevels.trimChanges hcutoff
  have hstate := htrimmed.computeState le_rfl
  unfold OrderBook.applyDelta applyDeltaUntrimmed
  dsimp only
  rw [hstate]
  obtain ⟨kept, hsame, hleft⟩ := htrimmed
  rw [hsame]
  exact ⟨rfl, kept, rfl, hleft⟩

theorem Shadows.observeTrade (h : Shadows cutoff book full) {trade : TradeEvent}
    (hcutoff : cutoff ≤ trade.timestamp - 750) :
    (book.observeTrade trade).1 = (full.observeTrade trade).1 ∧
      Shadows cutoff (book.observeTrade trade).2 (full.observeTrade trade).2 := by
  obtain ⟨kept, rfl, hleft⟩ := h
  have hshadows : Shadows cutoff
      { full with changes := kept, lastTradePrice := trade.price, lastTradeVolume := trade.volume }
      { full with lastTradePrice := trade.price, lastTradeVolume := trade.volume } :=
    ⟨kept, rfl, hleft⟩
  have hstate := hshadows.computeState hcutoff
  unfold OrderBook.observeTrade
  dsimp only
  rw [hstate]
  exact ⟨rfl, kept, rfl, hleft⟩

/-- One call: the same state, and books that differ before the same or a later cutoff. -/
theorem Shadows.update (h : Shadows cutoff book full) {u : MarketUpdate}
    (hcutoff : cutoff ≤ marketTimestamp u - 750) :
    (book.update u).1 = (full.updateUntrimmed u).1 ∧
      ∃ later ≤ marketTimestamp u - 750,
        Shadows later (book.update u).2 (full.updateUntrimmed u).2 := by
  cases u with
  | bookDelta delta =>
    obtain ⟨hstate, hbooks⟩ := h.applyDelta hcutoff
    exact ⟨hstate, delta.timestamp - 750, le_rfl, hbooks⟩
  | trade trade =>
    obtain ⟨hstate, hbooks⟩ := h.observeTrade hcutoff
    exact ⟨hstate, cutoff, hcutoff, hbooks⟩

end Updates

/-! ## Runs -/

theorem Shadows.run {cutoff : Nat} {book full : OrderBook} (h : Shadows cutoff book full)
    {updates : List MarketUpdate} (hcutoff : ∀ u ∈ updates, cutoff ≤ marketTimestamp u - 750)
    (hsorted : updates.Pairwise fun u u' => marketTimestamp u ≤ marketTimestamp u') :
    (emit step book updates).1 = (emit stepUntrimmed full updates).1 := by
  induction updates generalizing cutoff book full with
  | nil => rfl
  | cons u rest ih =>
    obtain ⟨hfirst, hrest⟩ := List.pairwise_cons.mp hsorted
    obtain ⟨hstate, later, hlater, hbooks⟩ := h.update (hcutoff u List.mem_cons_self)
    have hruns := ih hbooks
      (fun u' hu' => hlater.trans (Nat.sub_le_sub_right (hfirst u' hu') 750)) hrest
    show (book.update u).1 :: _ = (full.updateUntrimmed u).1 :: _
    rw [hstate]
    exact congrArg _ hruns

/-- With updates in the order of their times, every state returned is the one computed on a
change list from which nothing was ever removed. -/
theorem trimming_harmless {updates : List MarketUpdate}
    (h : updates.Pairwise fun u u' => marketTimestamp u ≤ marketTimestamp u') :
    returned updates = returnedUntrimmed updates := by
  have hnew : Shadows 0 {} {} := ⟨[], rfl, .refl 0 []⟩
  exact hnew.run (fun _ _ => Nat.zero_le _) h

/-- A bid that comes and goes, and a delta when both changes have been dropped. -/
def spoofedBid : List MarketUpdate :=
  [.bookDelta { timestamp := 0, bids := [⟨100, 1⟩], asks := [] },
    .bookDelta { timestamp := 400, bids := [⟨100, 0⟩], asks := [] },
    .trade { timestamp := 600, price := 100, volume := 1, side := .buy },
    .bookDelta { timestamp := 2000, bids := [], asks := [⟨101, 1⟩] }]

theorem trimming_harmless_spoofedBid : returned spoofedBid = returnedUntrimmed spoofedBid :=
  trimming_harmless (by decide +kernel)

end RealTimeTrading.Rtts.OrderBook
