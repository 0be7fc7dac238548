/-
RealTimeTrading.Rtts.Market.BookCrossing — when the book is crossed.

A level leaves a side only when it is listed again with a quantity of
nothing, so a side is every tick ever listed on it and not emptied since
(`lists_after`). The reported bid is below the reported ask as long as all
the bids listed so far stay below all the asks (`uncrossed_iff`); a feed
that lists what is there, and never what is gone, keeps them all
(`uncrossed_iff_prices`).
-/
import Mathlib.Data.List.Flatten
import RealTimeTrading.Concurrency.Registers
import RealTimeTrading.Data.Ends
import RealTimeTrading.Rtts.Market.OrderBook

namespace RealTimeTrading.Rtts

open Concurrency Data

/-! ## What updates list -/

def MarketUpdate.bids : MarketUpdate → List BookLevel
  | .bookDelta delta => delta.bids
  | .trade _ => []

def MarketUpdate.asks : MarketUpdate → List BookLevel
  | .bookDelta delta => delta.asks
  | .trade _ => []

/-- Every bid the updates list, in the order they list them. -/
def listedBids (updates : List MarketUpdate) : List BookLevel := updates.flatMap (·.bids)

def listedAsks (updates : List MarketUpdate) : List BookLevel := updates.flatMap (·.asks)

theorem listedBids_concat (updates : List MarketUpdate) (u : MarketUpdate) :
    listedBids (updates ++ [u]) = listedBids updates ++ u.bids := by
  rw [listedBids, List.flatMap_append, List.flatMap_singleton]
  rfl

theorem listedAsks_concat (updates : List MarketUpdate) (u : MarketUpdate) :
    listedAsks (updates ++ [u]) = listedAsks updates ++ u.asks := by
  rw [listedAsks, List.flatMap_append, List.flatMap_singleton]
  rfl

/-- One complete view of a market that is not crossed. -/
structure BookDelta.Sent (delta : BookDelta) : Prop where
  below : ∀ bid ∈ delta.bids, ∀ ask ∈ delta.asks, bid.price < ask.price
  positive : ∀ level ∈ delta.bids ++ delta.asks, 0 < level.quantity
  onTick : ∀ level ∈ delta.bids ++ delta.asks, ∃ n : ℤ, level.price = n * 0.01

namespace OrderBook

/-! ## Standing ticks -/

/-- The quantity a level lists at this tick. -/
def quantityAt (tick : ℤ) (level : BookLevel) : Option ℚ :=
  if toTick level.price = tick then some level.quantity else none

/-- The ticks whose last listing has a quantity. -/
def Standing (levels : List BookLevel) : Set ℤ :=
  {tick | ∃ quantity, latest (quantityAt tick) levels = some quantity ∧ epsilon < quantity}

/-- What a side shows: its standing ticks, or zero when there are none. -/
def Shown (levels : List BookLevel) : Set ℤ := orDefault 0 (Standing levels)

/-- Each shown bid is below each shown ask. -/
def Apart (bids asks : List BookLevel) : Prop := ∀ bid ∈ Shown bids, ∀ ask ∈ Shown asks, bid < ask

theorem notMem_standing_nil (tick : ℤ) : tick ∉ Standing [] := by
  rintro ⟨quantity, hquantity, -⟩
  cases hquantity

theorem mem_standing_concat (levels : List BookLevel) (level : BookLevel) (tick : ℤ) :
    tick ∈ Standing (levels ++ [level]) ↔
      if toTick level.price = tick then epsilon < level.quantity else tick ∈ Standing levels := by
  show (∃ quantity, latest _ _ = some quantity ∧ _) ↔ _
  rw [latest_append, latest_singleton, quantityAt]
  split_ifs with htick
  · simp
  · rfl

theorem listed_of_standing {levels : List BookLevel} {tick : ℤ} (h : tick ∈ Standing levels) :
    ∃ level ∈ levels, toTick level.price = tick := by
  obtain ⟨quantity, hquantity, -⟩ := h
  obtain ⟨level, hlevel, hat⟩ := mem_of_latest hquantity
  refine ⟨level, hlevel, ?_⟩
  by_contra htick
  rw [quantityAt, if_neg htick] at hat
  cases hat

/-- Where every listing has a quantity, listed once is standing for good. -/
theorem mem_standing_iff {levels : List BookLevel} {tick : ℤ}
    (hreal : ∀ level ∈ levels, epsilon < level.quantity) :
    tick ∈ Standing levels ↔ ∃ level ∈ levels, toTick level.price = tick := by
  constructor
  · exact listed_of_standing
  · induction levels using List.reverseRecOn with
    | nil =>
      rintro ⟨level, hlevel, -⟩
      cases hlevel
    | append_singleton levels last ih =>
      rintro ⟨level, hlevel, htick⟩
      rw [mem_standing_concat]
      split_ifs with hlast
      · exact hreal last (List.mem_append_right _ (List.mem_singleton_self last))
      · refine ih (fun l hl => hreal l (List.mem_append_left _ hl)) ⟨level, ?_, htick⟩
        rcases List.mem_append.mp hlevel with hbefore | hnow
        · exact hbefore
        · rw [List.mem_singleton.mp hnow] at htick
          exact absurd htick hlast

/-! ## The sides of the book -/

theorem mem_setLevel (levels : Levels) (tick : ℤ) (quantity : ℚ) (k : ℤ) :
    k ∈ setLevel levels tick quantity ↔ if tick = k then epsilon < quantity else k ∈ levels := by
  unfold setLevel
  split_ifs with hnothing htick htick
  · rw [Std.TreeMap.mem_erase]
    exact iff_of_false (fun h => h.1 (Std.compare_eq_iff_eq.mpr htick)) (not_lt.mpr hnothing)
  · rw [Std.TreeMap.mem_erase]
    exact and_iff_right fun h => htick (Std.compare_eq_iff_eq.mp h)
  · rw [Std.TreeMap.mem_insert]
    exact iff_of_true (Or.inl (Std.compare_eq_iff_eq.mpr htick)) (not_le.mp hnothing)
  · rw [Std.TreeMap.mem_insert]
    exact or_iff_right fun h => htick (Std.compare_eq_iff_eq.mp h)

/-- The book holds what stands of these levels. -/
structure Lists (bids asks : List BookLevel) (book : OrderBook) : Prop where
  bids : ∀ tick, tick ∈ book.bids ↔ tick ∈ Standing bids
  asks : ∀ tick, tick ∈ book.asks ↔ tick ∈ Standing asks

/-- What one step keeps of the elements read, the fold keeps of all of them. -/
theorem foldl_tracks {A S : Type} {R : List A → S → Prop} {step : S → A → S}
    (hstep : ∀ l s a, R l s → R (l ++ [a]) (step s a)) {l : List A} {s : S} (h : R l s)
    (rest : List A) : R (l ++ rest) (rest.foldl step s) := by
  induction rest generalizing l s with
  | nil =>
    rw [List.append_nil]
    exact h
  | cons a rest ih =>
    rw [List.append_cons]
    exact ih (hstep l s a h)

section Lists

variable {bids asks : List BookLevel} {book : OrderBook}

theorem lists_new : Lists [] [] {} where
  bids tick := iff_of_false Std.TreeMap.not_mem_emptyc (notMem_standing_nil tick)
  asks tick := iff_of_false Std.TreeMap.not_mem_emptyc (notMem_standing_nil tick)

theorem Lists.bid (h : Lists bids asks book) (timestamp : Nat) (level : BookLevel) :
    Lists (bids ++ [level]) asks (applyLevel timestamp .buy book level) where
  bids tick := by
    show tick ∈ setLevel book.bids _ _ ↔ _
    rw [mem_setLevel, mem_standing_concat, h.bids]
  asks := h.asks

theorem Lists.ask (h : Lists bids asks book) (timestamp : Nat) (level : BookLevel) :
    Lists bids (asks ++ [level]) (applyLevel timestamp .sell book level) where
  bids := h.bids
  asks tick := by
    show tick ∈ setLevel book.asks _ _ ↔ _
    rw [mem_setLevel, mem_standing_concat, h.asks]

theorem Lists.bidAll (h : Lists bids asks book) (timestamp : Nat) (levels : List BookLevel) :
    Lists (bids ++ levels) asks (levels.foldl (applyLevel timestamp .buy) book) :=
  foldl_tracks (R := fun bids book => Lists bids asks book)
    (fun _ _ level h => h.bid timestamp level) h levels

theorem Lists.askAll (h : Lists bids asks book) (timestamp : Nat) (levels : List BookLevel) :
    Lists bids (asks ++ levels) (levels.foldl (applyLevel timestamp .sell) book) :=
  foldl_tracks (R := fun asks book => Lists bids asks book)
    (fun _ _ level h => h.ask timestamp level) h levels

/-- A delta is applied bids first; a trade leaves both sides as they are. -/
theorem Lists.update (h : Lists bids asks book) (u : MarketUpdate) :
    Lists (bids ++ u.bids) (asks ++ u.asks) (book.update u).2 := by
  cases u with
  | bookDelta delta =>
    have hboth := (h.bidAll delta.timestamp delta.bids).askAll delta.timestamp delta.asks
    exact ⟨hboth.bids, hboth.asks⟩
  | trade trade =>
    show Lists (bids ++ []) (asks ++ []) _
    rw [List.append_nil, List.append_nil]
    exact ⟨h.bids, h.asks⟩

end Lists

/-! ## Runs -/

/-- The book after these updates. -/
def after (updates : List MarketUpdate) : OrderBook :=
  updates.foldl (fun book u => (book.update u).2) {}

theorem after_concat (updates : List MarketUpdate) (u : MarketUpdate) :
    after (updates ++ [u]) = ((after updates).update u).2 := List.foldl_concat _ _ _ _

theorem lists_after (updates : List MarketUpdate) :
    Lists (listedBids updates) (listedAsks updates) (after updates) := by
  have hstep : ∀ seen book u, Lists (listedBids seen) (listedAsks seen) book →
      Lists (listedBids (seen ++ [u])) (listedAsks (seen ++ [u])) (book.update u).2 := by
    intro seen book u h
    rw [listedBids_concat, listedAsks_concat]
    exact h.update u
  exact foldl_tracks (R := fun seen book => Lists (listedBids seen) (listedAsks seen) book)
    (l := []) hstep lists_new updates

/-! ## Crossing -/

/-- The reported bid is below the reported ask. -/
def Uncrossed (state : BookState) : Prop := state.bestBid < state.bestAsk

instance (state : BookState) : Decidable (Uncrossed state) :=
  inferInstanceAs (Decidable (state.bestBid < state.bestAsk))

theorem fromTick_lt_iff {a b : ℤ} : fromTick a < fromTick b ↔ a < b := by
  unfold fromTick
  rw [div_lt_div_iff_of_pos_right (by decide +kernel : 0 < priceScale)]
  exact Int.cast_lt

theorem Lists.apart_iff {bids asks : List BookLevel} {book : OrderBook}
    (h : Lists bids asks book) : book.bestBidTick < book.bestAskTick ↔ Apart bids asks := by
  have hbids : {tick | tick ∈ book.bids} = Standing bids := Set.ext h.bids
  have hasks : {tick | tick ∈ book.asks} = Standing asks := Set.ext h.asks
  have hbid := isGreatest_lastKey book.bids 0
  have hask := isLeast_firstKey book.asks 0
  rw [hbids] at hbid
  rw [hasks] at hask
  exact lt_iff_forall_lt hbid hask

/-- The report is read off the sides that the delta leaves. -/
theorem uncrossed_applyDelta_iff (updates : List MarketUpdate) (delta : BookDelta) :
    Uncrossed ((after updates).applyDelta delta).1 ↔
      Apart (listedBids (updates ++ [MarketUpdate.bookDelta delta]))
        (listedAsks (updates ++ [MarketUpdate.bookDelta delta])) := by
  have hlists := lists_after (updates ++ [MarketUpdate.bookDelta delta])
  rw [after_concat] at hlists
  rw [← hlists.apart_iff]
  exact fromTick_lt_iff

/-- With any trades between the deltas, the reports are uncrossed exactly as long as the
bids listed so far stay below the asks. -/
theorem uncrossed_iff (updates : List MarketUpdate) :
    (∀ before delta, before ++ [MarketUpdate.bookDelta delta] <+: updates →
        Uncrossed ((after before).applyDelta delta).1) ↔
      ∀ before delta, before ++ [MarketUpdate.bookDelta delta] <+: updates →
        Apart (listedBids (before ++ [MarketUpdate.bookDelta delta]))
          (listedAsks (before ++ [MarketUpdate.bookDelta delta])) :=
  forall_congr' fun before => forall_congr' fun delta =>
    forall_congr' fun _ => uncrossed_applyDelta_iff before delta

/-- One level on each side, at these ticks. -/
def viewAt (timestamp : Nat) (bid ask : ℤ) : BookDelta :=
  { timestamp := timestamp
    bids := [{ price := bid * 0.01, quantity := 1 }]
    asks := [{ price := ask * 0.01, quantity := 1 }] }

theorem viewAt_sent (timestamp : Nat) {bid ask : ℤ} (h : bid < ask) :
    (viewAt timestamp bid ask).Sent where
  below b hb a ha := by
    rw [List.mem_singleton.mp hb, List.mem_singleton.mp ha]
    have hprice : (bid : ℚ) < ask := Int.cast_lt.mpr h
    exact mul_lt_mul_of_pos_right hprice (by decide +kernel)
  positive := by
    simp [viewAt]
  onTick := by
    simp [viewAt]

/-- The market falls by forty ticks; the second report still has the bid of the first,
above its own ask. -/
theorem uncrossed_falling : ¬ ∀ deltas : List BookDelta, (∀ delta ∈ deltas, delta.Sent) →
    ∀ before delta, before ++ [delta] <+: deltas →
      Uncrossed ((after (before.map .bookDelta)).applyDelta delta).1 := by
  intro h
  have hsent : ∀ delta ∈ [viewAt 1 9999 10000, viewAt 101 9950 9960], delta.Sent := by
    intro delta hdelta
    simp only [List.mem_cons, List.not_mem_nil, or_false] at hdelta
    rcases hdelta with rfl | rfl
    · exact viewAt_sent 1 (by decide)
    · exact viewAt_sent 101 (by decide)
  have hreport := h _ hsent [viewAt 1 9999 10000] (viewAt 101 9950 9960) (List.prefix_refl _)
  exact absurd hreport (by decide +kernel)

/-! ## A feed that lists only what is there -/

/-- Every listing has a quantity. -/
structure Stocked (updates : List MarketUpdate) : Prop where
  bids : ∀ bid ∈ listedBids updates, epsilon < bid.quantity
  asks : ∀ ask ∈ listedAsks updates, epsilon < ask.quantity

theorem shown_eq {levels : List BookLevel} (hsome : levels ≠ [])
    (hreal : ∀ level ∈ levels, epsilon < level.quantity) :
    Shown levels = {tick | ∃ level ∈ levels, toTick level.price = tick} := by
  have hstanding : Standing levels = {tick | ∃ level ∈ levels, toTick level.price = tick} :=
    Set.ext fun tick => mem_standing_iff hreal
  obtain ⟨level, hlevel⟩ := List.exists_mem_of_ne_nil levels hsome
  rw [Shown, hstanding]
  exact orDefault_of_nonempty ⟨_, level, hlevel, rfl⟩

section Prices

variable {updates : List MarketUpdate} {delta : BookDelta}

/-- Then no bid that was ever listed may reach an ask that was ever listed. -/
theorem uncrossed_iff_prices (hbids : delta.bids ≠ []) (hasks : delta.asks ≠ [])
    (hreal : Stocked (updates ++ [MarketUpdate.bookDelta delta])) :
    Uncrossed ((after updates).applyDelta delta).1 ↔
      ∀ bid ∈ listedBids (updates ++ [MarketUpdate.bookDelta delta]),
        ∀ ask ∈ listedAsks (updates ++ [MarketUpdate.bookDelta delta]),
          toTick bid.price < toTick ask.price := by
  have hbidsSome : listedBids (updates ++ [MarketUpdate.bookDelta delta]) ≠ [] := by
    rw [listedBids_concat]
    exact List.append_ne_nil_of_right_ne_nil _ hbids
  have hasksSome : listedAsks (updates ++ [MarketUpdate.bookDelta delta]) ≠ [] := by
    rw [listedAsks_concat]
    exact List.append_ne_nil_of_right_ne_nil _ hasks
  rw [uncrossed_applyDelta_iff, Apart, shown_eq hbidsSome hreal.bids, shown_eq hasksSome hreal.asks]
  constructor
  · intro h bid hbid ask hask
    exact h _ ⟨bid, hbid, rfl⟩ _ ⟨ask, hask, rfl⟩
  · rintro h _ ⟨bid, hbid, rfl⟩ _ ⟨ask, hask, rfl⟩
    exact h bid hbid ask hask

end Prices

end OrderBook

end RealTimeTrading.Rtts
