/-
RealTimeTrading.Rtts.Market.TickDepth — how much of what a delta lists a
fresh book keeps.

A price is rounded to a tick, a hundredth, and a level takes the place of
the one that is at its tick; what is left is added up from the touch on. So a
side keeps its volume exactly if neither the levels replaced nor the order
matter to the sum, and its touch exactly if that price is on a tick
(`depth_kept_iff`). Where no sum is rounded, the first means that no two
levels of a side have one tick (`fitsTicks_iff_of_exact`); a market whose
prices are all on ticks then loses nothing (`fitsTicks_of_onTick`).

Here prices and quantities are those of `f64`, and each operation on them is
rounded as `f64` rounds it, which moves some halves to the other tick.
-/
import Mathlib.Data.Set.Finite.Lemmas
import RealTimeTrading.Data.Binary64
import RealTimeTrading.Data.Buckets
import RealTimeTrading.Rtts.Market.BookCrossing

namespace RealTimeTrading.Rtts.OrderBook

open Data

/-! ## Ticks of `f64` -/

/-- `to_tick`, with the product rounded. -/
def toTick64 (price : ℚ) : ℤ := asI64 (roundAway (binary64 (price * priceScale)))

/-- `from_tick`, with the tick and the quotient rounded. -/
def fromTick64 (tick : ℤ) : ℚ := binary64 (binary64 tick / priceScale)

/-- What `apply_level` makes of its side. -/
def applyLevel64 (levels : Levels) (level : BookLevel) : Levels :=
  setLevel levels (toTick64 level.price) level.quantity

/-- The sides `apply_delta` leaves. -/
def applyDelta64 (book : OrderBook) (delta : BookDelta) : OrderBook :=
  { book with
    bids := delta.bids.foldl applyLevel64 book.bids
    asks := delta.asks.foldl applyLevel64 book.asks }

/-- Of the state reported, its depth. -/
structure Depth where
  bidVolume : F64
  askVolume : F64
  bestBid : ℚ
  bestAsk : ℚ

/-- `compute_state`, as far as the depth goes. -/
def computeDepth64 (book : OrderBook) : Depth where
  bidVolume := F64.sum (book.topBids.map fun level => F64.round level.2)
  askVolume := F64.sum (book.topAsks.map fun level => F64.round level.2)
  bestBid := fromTick64 book.bestBidTick
  bestAsk := fromTick64 book.bestAskTick

/-- The depth a fresh book reports after this delta. -/
def freshDepth (delta : BookDelta) : Depth := computeDepth64 (applyDelta64 {} delta)

/-! ## What a delta lists -/

/-- A finite number of `f64`. -/
def Stored (q : ℚ) : Prop := binary64 q = q ∧ |q| < 2 ^ 1024

instance (q : ℚ) : Decidable (Stored q) := inferInstanceAs (Decidable (_ ∧ _))

/-- One side of a delta: no more levels than are read, at different prices, each with a
quantity. -/
structure Readable (levels : List BookLevel) : Prop where
  few : levels.length ≤ maxLevels
  stored : ∀ level ∈ levels, Stored level.price ∧ Stored level.quantity
  distinct : (levels.map (·.price)).Nodup
  positive : ∀ level ∈ levels, 0 < level.price
  stocked : ∀ level ∈ levels, epsilon < level.quantity

instance (levels : List BookLevel) : Decidable (Readable levels) :=
  decidable_of_iff (levels.length ≤ maxLevels ∧
    (∀ level ∈ levels, Stored level.price ∧ Stored level.quantity) ∧
    (levels.map (·.price)).Nodup ∧ (∀ level ∈ levels, 0 < level.price) ∧
    ∀ level ∈ levels, epsilon < level.quantity)
    ⟨fun ⟨few, stored, distinct, positive, stocked⟩ =>
        ⟨few, stored, distinct, positive, stocked⟩,
      fun h => ⟨h.few, h.stored, h.distinct, h.positive, h.stocked⟩⟩

def prices (levels : List BookLevel) : Set ℚ := {price | ∃ level ∈ levels, level.price = price}

def ticks (levels : List BookLevel) : List ℤ := levels.map fun level => toTick64 level.price

/-- The quantities, added up in the order listed. -/
def quantity (levels : List BookLevel) : F64 :=
  F64.sum (levels.map fun level => F64.round level.quantity)

/-- The report has all the quantity listed, and the best prices listed. -/
structure KeepsDepth (delta : BookDelta) (depth : Depth) : Prop where
  bidVolume : depth.bidVolume = quantity delta.bids
  askVolume : depth.askVolume = quantity delta.asks
  bestBid : delta.bids ≠ [] → IsGreatest (prices delta.bids) depth.bestBid
  bestAsk : delta.asks ≠ [] → IsLeast (prices delta.asks) depth.bestAsk

/-- A price that its tick gives back. -/
def OnTick (price : ℚ) : Prop := fromTick64 (toTick64 price) = price

/-- The levels whose tick no later one has. -/
def standing (levels : List BookLevel) : List BookLevel :=
  lasts (fun level => toTick64 level.price) levels

def highestFirst (levels : List BookLevel) : List BookLevel :=
  levels.insertionSort fun level other => other.price ≤ level.price

def lowestFirst (levels : List BookLevel) : List BookLevel :=
  levels.insertionSort fun level other => level.price ≤ other.price

/-- The best prices are on a tick. -/
structure TouchOnTick (delta : BookDelta) : Prop where
  highestBid : ∀ price, IsGreatest (prices delta.bids) price → OnTick price
  lowestAsk : ∀ price, IsLeast (prices delta.asks) price → OnTick price

/-- The sums are the same without the levels that a later one of their tick replaces, added from
the touch on; and the touch is on a tick. -/
structure FitsTicks (delta : BookDelta) : Prop where
  bids : quantity (highestFirst (standing delta.bids)) = quantity delta.bids
  asks : quantity (lowestFirst (standing delta.asks)) = quantity delta.asks
  touch : TouchOnTick delta

/-- No sum of some of the quantities is rounded. -/
def AddsExactly (levels : List BookLevel) : Prop :=
  ∀ part : List ℚ, part.Subperm (levels.map (·.quantity)) → Stored part.sum

/-! ## Rounding -/

theorem roundAway_le {v w : ℚ} (h : v ≤ w) : roundAway v ≤ roundAway w := by
  unfold roundAway
  split_ifs with hv hw hw
  · exact Int.floor_le_floor (by linarith)
  · exact absurd (hv.trans h) hw
  · have hfrom : 0 ≤ ⌊-v + 1 / 2⌋ := Int.floor_nonneg.mpr (by linarith)
    have hto : 0 ≤ ⌊w + 1 / 2⌋ := Int.floor_nonneg.mpr (by linarith)
    omega
  · exact neg_le_neg (Int.floor_le_floor (by linarith))

/-- Of two prices the higher one has no lower tick. -/
theorem toTick64_le {v w : ℚ} (h : v ≤ w) : toTick64 v ≤ toTick64 w := by
  have hproduct := mul_le_mul_of_nonneg_right h (by decide +kernel : 0 ≤ priceScale)
  have hround := roundAway_le (binary64_mono hproduct)
  exact max_le_max le_rfl (min_le_min hround le_rfl)

/-- Where all prices are on ticks, no two share one. -/
theorem Readable.nodup_ticks {levels : List BookLevel} (h : Readable levels)
    (hon : ∀ level ∈ levels, OnTick level.price) : (ticks levels).Nodup := by
  have hprices : (levels.map (·.price)) = (ticks levels).map fromTick64 := by
    unfold ticks
    rw [List.map_map]
    exact List.map_congr_left fun level hlevel => (hon level hlevel).symm
  have hdistinct := h.distinct
  rw [hprices] at hdistinct
  exact hdistinct.of_map

/-! ## A fresh book -/

/-- A side after these levels, the last one at each tick. -/
def side (levels : List BookLevel) : Levels :=
  filled (fun level => toTick64 level.price) BookLevel.quantity levels

section Side

variable {levels : List BookLevel}

theorem foldl_applyLevel64 (hstocked : ∀ level ∈ levels, epsilon < level.quantity) :
    levels.foldl applyLevel64 ∅ = side levels := by
  refine List.foldl_ext _ _ _ fun m level hlevel => ?_
  unfold applyLevel64 setLevel
  rw [if_neg (not_le.mpr (hstocked level hlevel))]

theorem length_side_le (h : Readable levels) : (side levels).toList.length ≤ maxLevels :=
  (length_filled_le _ _ levels).trans h.few

section Arranged

theorem perm_highestFirst (levels : List BookLevel) : (highestFirst levels).Perm levels :=
  List.perm_insertionSort _ _

theorem perm_lowestFirst (levels : List BookLevel) : (lowestFirst levels).Perm levels :=
  List.perm_insertionSort _ _

theorem highestFirst_pairwise (levels : List BookLevel) :
    (highestFirst levels).Pairwise fun level other => other.price ≤ level.price := by
  have : Std.Total fun level other : BookLevel => other.price ≤ level.price :=
    ⟨fun level other => le_total other.price level.price⟩
  have : IsTrans BookLevel fun level other => other.price ≤ level.price :=
    ⟨fun _ _ _ h h' => h'.trans h⟩
  exact List.pairwise_insertionSort _ _

theorem lowestFirst_pairwise (levels : List BookLevel) :
    (lowestFirst levels).Pairwise fun level other => level.price ≤ other.price := by
  have : Std.Total fun level other : BookLevel => level.price ≤ other.price :=
    ⟨fun level other => le_total level.price other.price⟩
  have : IsTrans BookLevel fun level other => level.price ≤ other.price :=
    ⟨fun _ _ _ h h' => h.trans h'⟩
  exact List.pairwise_insertionSort _ _

/-- The ticks are read up from the lowest price. -/
theorem toList_side_asks (levels : List BookLevel) :
    (side levels).toList =
      (lowestFirst (standing levels)).map fun level => (toTick64 level.price, level.quantity) := by
  have hticks : (lowestFirst (standing levels)).Pairwise fun level other =>
      toTick64 level.price ≤ toTick64 other.price :=
    (lowestFirst_pairwise (standing levels)).imp fun {level other} h =>
      toTick64_le h
  exact toList_filled_eq (fun level : BookLevel => toTick64 level.price) BookLevel.quantity
    (perm_lowestFirst (standing levels)) hticks

theorem toList_side_bids (levels : List BookLevel) :
    (side levels).toList.reverse =
      (highestFirst (standing levels)).map fun level => (toTick64 level.price, level.quantity) := by
  have hticks : (highestFirst (standing levels)).Pairwise fun level other =>
      toTick64 other.price ≤ toTick64 level.price :=
    (highestFirst_pairwise (standing levels)).imp fun {level other} h =>
      toTick64_le h
  have hlist := toList_filled_eq (fun level : BookLevel => toTick64 level.price) BookLevel.quantity
    ((List.reverse_perm _).trans (perm_highestFirst (standing levels)))
    (List.pairwise_reverse.mpr hticks)
  rw [side, hlist, List.map_reverse, List.reverse_reverse]

end Arranged

theorem keys_side : {tick | tick ∈ side levels} = toTick64 '' prices levels := by
  ext tick
  show tick ∈ side levels ↔ _
  rw [side, mem_filled]
  constructor
  · rintro ⟨level, hlevel, rfl⟩
    exact ⟨level.price, ⟨level, hlevel, rfl⟩, rfl⟩
  · rintro ⟨-, ⟨level, hlevel, rfl⟩, rfl⟩
    exact ⟨level, hlevel, rfl⟩

end Side

section Readings

variable {levels : List BookLevel} {book : OrderBook}

theorem bidVolume_eq (h : Readable levels) (hbids : book.bids = side levels) :
    F64.sum (book.topBids.map fun level => F64.round level.2) =
      quantity (highestFirst (standing levels)) := by
  have hlength := length_side_le h
  rw [topBids, hbids, List.take_of_length_le (by rwa [List.length_reverse]), toList_side_bids,
    List.map_map]
  rfl

theorem askVolume_eq (h : Readable levels) (hasks : book.asks = side levels) :
    F64.sum (book.topAsks.map fun level => F64.round level.2) =
      quantity (lowestFirst (standing levels)) := by
  rw [topAsks, hasks, List.take_of_length_le (length_side_le h), toList_side_asks, List.map_map]
  rfl

/-- The highest tick is that of the highest price. -/
theorem bestBidTick_eq {price : ℚ} (h : IsGreatest (prices levels) price)
    (hbids : book.bids = side levels) : book.bestBidTick = toTick64 price := by
  have htick : Monotone toTick64 := fun _ _ => toTick64_le
  have hticks := htick.map_isGreatest h
  have hbest := isGreatest_lastKey book.bids 0
  rw [hbids, keys_side, orDefault_of_nonempty hticks.nonempty] at hbest
  rw [bestBidTick, hbids]
  exact hbest.unique hticks

theorem bestAskTick_eq {price : ℚ} (h : IsLeast (prices levels) price)
    (hasks : book.asks = side levels) : book.bestAskTick = toTick64 price := by
  have htick : Monotone toTick64 := fun _ _ => toTick64_le
  have hticks := htick.map_isLeast h
  have hbest := isLeast_firstKey book.asks 0
  rw [hasks, keys_side, orDefault_of_nonempty hticks.nonempty] at hbest
  rw [bestAskTick, hasks]
  exact hbest.unique hticks

theorem finite_prices (levels : List BookLevel) : (prices levels).Finite := by
  refine (levels.map (·.price)).finite_toSet.subset ?_
  rintro - ⟨level, hlevel, rfl⟩
  exact List.mem_map_of_mem hlevel

theorem nonempty_prices (h : levels ≠ []) : (prices levels).Nonempty := by
  obtain ⟨level, hlevel⟩ := List.exists_mem_of_ne_nil levels h
  exact ⟨level.price, level, hlevel, rfl⟩

theorem ne_nil_of_mem_prices {price : ℚ} (h : price ∈ prices levels) : levels ≠ [] := by
  obtain ⟨level, hlevel, -⟩ := h
  exact List.ne_nil_of_mem hlevel

theorem highest_kept_iff (hbids : book.bids = side levels) :
    (levels ≠ [] → IsGreatest (prices levels) (fromTick64 book.bestBidTick)) ↔
      ∀ price, IsGreatest (prices levels) price → OnTick price := by
  constructor
  · intro hbest price hprice
    have hkept := hbest (ne_nil_of_mem_prices hprice.1)
    rw [bestBidTick_eq hprice hbids] at hkept
    exact hkept.unique hprice
  · intro hon hsome
    obtain ⟨price, hmem, hle⟩ := Set.exists_max_image _ id (finite_prices _) (nonempty_prices hsome)
    have hprice : IsGreatest (prices levels) price := ⟨hmem, hle⟩
    rw [bestBidTick_eq hprice hbids, hon price hprice]
    exact hprice

theorem lowest_kept_iff (hasks : book.asks = side levels) :
    (levels ≠ [] → IsLeast (prices levels) (fromTick64 book.bestAskTick)) ↔
      ∀ price, IsLeast (prices levels) price → OnTick price := by
  constructor
  · intro hbest price hprice
    have hkept := hbest (ne_nil_of_mem_prices hprice.1)
    rw [bestAskTick_eq hprice hasks] at hkept
    exact hkept.unique hprice
  · intro hon hsome
    obtain ⟨price, hmem, hle⟩ := Set.exists_min_image _ id (finite_prices _) (nonempty_prices hsome)
    have hprice : IsLeast (prices levels) price := ⟨hmem, hle⟩
    rw [bestAskTick_eq hprice hasks, hon price hprice]
    exact hprice

end Readings

/-! ## Nothing lost -/

section Depth

variable {delta : BookDelta}

/-- The depth listed is kept exactly if it fits the ticks. -/
theorem depth_kept_iff (hbids : Readable delta.bids) (hasks : Readable delta.asks) :
    KeepsDepth delta (freshDepth delta) ↔ FitsTicks delta := by
  have hbidSide : (applyDelta64 {} delta).bids = side delta.bids := foldl_applyLevel64 hbids.stocked
  have haskSide : (applyDelta64 {} delta).asks = side delta.asks := foldl_applyLevel64 hasks.stocked
  have hbidVolume : (freshDepth delta).bidVolume = quantity (highestFirst (standing delta.bids)) :=
    bidVolume_eq hbids hbidSide
  have haskVolume : (freshDepth delta).askVolume = quantity (lowestFirst (standing delta.asks)) :=
    askVolume_eq hasks haskSide
  have hhighest := highest_kept_iff hbidSide
  have hlowest := lowest_kept_iff haskSide
  constructor
  · rintro ⟨hbid, hask, hbestBid, hbestAsk⟩
    exact ⟨hbidVolume.symm.trans hbid, haskVolume.symm.trans hask,
      hhighest.mp hbestBid, hlowest.mp hbestAsk⟩
  · rintro ⟨hbid, hask, hhigh, hlow⟩
    exact ⟨hbidVolume.trans hbid, haskVolume.trans hask, hhighest.mpr hhigh, hlowest.mpr hlow⟩

end Depth

/-! ## Sums that are not rounded -/

section Exact

variable {levels : List BookLevel}

theorem round_inj {q r : ℚ} (hq : Stored q) (hr : Stored r) : F64.round q = F64.round r ↔ q = r := by
  refine ⟨fun h => ?_, fun h => by rw [h]⟩
  have hround : F64.finite ⟨q, hq⟩ = F64.finite ⟨r, hr⟩ :=
    (F64.round_stored ⟨q, hq⟩).symm.trans (h.trans (F64.round_stored ⟨r, hr⟩))
  exact congrArg Subtype.val (F64.finite.inj hround)

theorem AddsExactly.quantity_eq (h : AddsExactly levels) {part : List BookLevel}
    (hpart : (part.map (·.quantity)).Subperm (levels.map (·.quantity))) :
    quantity part = F64.round (part.map (·.quantity)).sum := by
  have hsum : F64.sum ((part.map (·.quantity)).map F64.round) =
      F64.round (part.map (·.quantity)).sum := by
    refine F64.sum_map_round (fun q hq => ?_) fun first hfirst => ?_
    · have hsingle : Stored [q].sum := h [q] ((List.singleton_subperm_iff.mpr hq).trans hpart)
      rw [List.sum_singleton] at hsingle
      exact ⟨⟨q, hsingle⟩, rfl⟩
    · exact ⟨⟨first.sum, h first (hfirst.sublist.subperm.trans hpart)⟩, rfl⟩
  rwa [List.map_map] at hsum

/-- Of exact sums the quantity is kept exactly if each level has a tick of its own. -/
theorem quantity_kept_iff (h : Readable levels) (hexact : AddsExactly levels)
    {arranged : List BookLevel} (hperm : arranged.Perm (standing levels)) :
    quantity arranged = quantity levels ↔ (ticks levels).Nodup := by
  have hpart : (arranged.map (·.quantity)).Subperm (levels.map (·.quantity)) :=
    (hperm.map _).subperm.trans ((lasts_sublist _ levels).map _).subperm
  have hpositive : ∀ level ∈ levels, 0 < level.quantity := fun level hlevel =>
    lt_trans (by decide +kernel) (h.stocked level hlevel)
  rw [hexact.quantity_eq hpart, hexact.quantity_eq (List.Subperm.refl _),
    round_inj (hexact _ hpart) (hexact _ (List.Subperm.refl _)), (hperm.map _).sum_eq]
  exact sum_lasts_eq_iff hpositive

variable {delta : BookDelta}

/-- Where no sum is rounded, a delta fits exactly if no two levels of a side share a tick and its
touch is on one. -/
theorem fitsTicks_iff_of_exact (hbids : Readable delta.bids) (hasks : Readable delta.asks)
    (hexactBids : AddsExactly delta.bids) (hexactAsks : AddsExactly delta.asks) :
    FitsTicks delta ↔
      (ticks delta.bids).Nodup ∧ (ticks delta.asks).Nodup ∧ TouchOnTick delta := by
  rw [← quantity_kept_iff hbids hexactBids (perm_highestFirst _),
    ← quantity_kept_iff hasks hexactAsks (perm_lowestFirst _)]
  exact ⟨fun h => ⟨h.bids, h.asks, h.touch⟩, fun h => ⟨h.1, h.2.1, h.2.2⟩⟩

/-- A market on the ticks fits them. -/
theorem fitsTicks_of_onTick (hbids : Readable delta.bids) (hasks : Readable delta.asks)
    (hexactBids : AddsExactly delta.bids) (hexactAsks : AddsExactly delta.asks)
    (hon : ∀ level ∈ delta.bids ++ delta.asks, OnTick level.price) : FitsTicks delta := by
  refine (fitsTicks_iff_of_exact hbids hasks hexactBids hexactAsks).mpr ⟨?_, ?_, ?_, ?_⟩
  · exact hbids.nodup_ticks fun level hlevel => hon level (List.mem_append_left _ hlevel)
  · exact hasks.nodup_ticks fun level hlevel => hon level (List.mem_append_right _ hlevel)
  · rintro - ⟨⟨level, hlevel, rfl⟩, -⟩
    exact hon level (List.mem_append_left _ hlevel)
  · rintro - ⟨⟨level, hlevel, rfl⟩, -⟩
    exact hon level (List.mem_append_right _ hlevel)

/-- Whole quantities are added exactly up to `2 ^ 53`. -/
theorem addsExactly_of_whole (hwhole : ∀ level ∈ levels, ∃ n : ℕ, level.quantity = n)
    (hfew : (levels.map (·.quantity)).sum ≤ 2 ^ 53) : AddsExactly levels := by
  intro part hpart
  obtain ⟨kept, hkept, hsublist⟩ := hpart
  obtain ⟨others, hperm⟩ := hsublist.exists_perm_append
  have hnatural : ∀ l : List ℚ, l.Subperm (levels.map (·.quantity)) → ∃ n : ℕ, l.sum = n := by
    intro l hl
    induction l with
    | nil => exact ⟨0, by simp⟩
    | cons q rest ih =>
      obtain ⟨level, hlevel, rfl⟩ := List.mem_map.mp (hl.subset List.mem_cons_self)
      obtain ⟨n, hn⟩ := hwhole level hlevel
      obtain ⟨m, hm⟩ := ih ((List.sublist_cons_self _ rest).subperm.trans hl)
      exact ⟨n + m, by rw [List.sum_cons, hn, hm, Nat.cast_add]⟩
  obtain ⟨n, hn⟩ := hnatural part ⟨kept, hkept, hsublist⟩
  obtain ⟨m, hm⟩ := hnatural others
    ((List.sublist_append_right kept others).subperm.trans hperm.symm.subperm)
  rw [hperm.sum_eq, List.sum_append, hkept.sum_eq, hn, hm] at hfew
  have hle : (n : ℚ) ≤ 2 ^ 53 := (le_add_of_nonneg_right (Nat.cast_nonneg m)).trans hfew
  have hle' : n ≤ 2 ^ 53 := by exact_mod_cast hle
  refine ⟨by rw [hn, binary64_natCast hle'], ?_⟩
  rw [hn, abs_of_nonneg (Nat.cast_nonneg n)]
  exact hle.trans_lt (pow_lt_pow_right₀ one_lt_two (by norm_num))

end Exact

/-- A level at the price of `f64` nearest to this one. -/
def levelAt (price quantity : ℚ) : BookLevel := { price := binary64 price, quantity := quantity }

/-- Two bids of a market in thousandths, and an ask. -/
def thousandths : BookDelta where
  timestamp := 1
  bids := [levelAt 5.121 10, levelAt 5.124 20]
  asks := [levelAt 5.128 10]

/-- The second bid takes the place of the first. -/
theorem thousandths_lost :
    Readable thousandths.bids ∧ Readable thousandths.asks ∧
      ¬KeepsDepth thousandths (freshDepth thousandths) := by
  refine ⟨by decide +kernel, by decide +kernel, fun hkept => ?_⟩
  exact absurd hkept.bidVolume (by decide +kernel)

-- 1.005 and 1.115 are stored below the half, but the product of the second is rounded to it
example : toTick64 (binary64 1.005) = 100 ∧ toTick64 (binary64 1.115) = 112 ∧
    toTick (binary64 1.115) = 111 := by
  decide +kernel

/-- Two bids of a market in hundredths, and an ask. -/
def hundredths : BookDelta where
  timestamp := 1
  bids := [levelAt 512.1 10, levelAt 512.4 20]
  asks := [levelAt 512.85 10]

theorem hundredths_kept : KeepsDepth hundredths (freshDepth hundredths) := by
  have hbids : Readable hundredths.bids := by decide +kernel
  have hasks : Readable hundredths.asks := by decide +kernel
  have hexactBids : AddsExactly hundredths.bids := addsExactly_of_whole
    (List.forall_mem_cons.mpr ⟨⟨10, rfl⟩, List.forall_mem_singleton.mpr ⟨20, rfl⟩⟩)
    (by norm_num [hundredths, levelAt])
  have hexactAsks : AddsExactly hundredths.asks :=
    addsExactly_of_whole (List.forall_mem_singleton.mpr ⟨10, rfl⟩)
      (by norm_num [hundredths, levelAt])
  refine (depth_kept_iff hbids hasks).mpr
    (fitsTicks_of_onTick hbids hasks hexactBids hexactAsks ?_)
  unfold OnTick
  decide +kernel

end RealTimeTrading.Rtts.OrderBook
