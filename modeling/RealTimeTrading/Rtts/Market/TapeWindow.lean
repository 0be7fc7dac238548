/-
RealTimeTrading.Rtts.Market.TapeWindow — which trades the volumes of a frame
are taken over.

The tape holds the trades of the window that ends with the last trade
(`Tracks`), and a book delta repeats what was computed then. So the volumes
are those of the window that ends with the update, unless trades have left
it since the last one: the frames slide exactly if what has left it adds up
to nothing (`tape_slides_iff`).
-/
import RealTimeTrading.Data.Sums
import RealTimeTrading.Data.Windows
import RealTimeTrading.Rtts.ExecutionController
import RealTimeTrading.Rtts.Market.Microstructure

namespace RealTimeTrading.Rtts

open Concurrency Data

def MarketUpdate.trade? : MarketUpdate → Option TradeEvent
  | .trade t => some t
  | .bookDelta _ => none

theorem MarketUpdate.trade?_eq_some {u : MarketUpdate} {t : TradeEvent} (h : u.trade? = some t) :
    u = .trade t := by
  cases u with
  | trade t' => exact congrArg _ (Option.some.inj h)
  | bookDelta delta => cases h

def TapeState.volume (state : TapeState) : Side → ℚ
  | .buy => state.buyVolume
  | .sell => state.sellVolume

namespace Microstructure

/-- The trades among the updates, in the order they are processed. -/
def tradesOf (received : List Received) : List TradeEvent :=
  received.filterMap fun r => r.update.trade?

/-- The updates come in the order of their times. -/
def InOrder (received : List Received) : Prop :=
  received.Pairwise fun r r' => marketTimestamp r.update ≤ marketTimestamp r'.update

/-- The volume of one side in the `windowMs` up to `now`. -/
def windowVolume (windowMs : Nat) (side : Side) (now : Nat) (trades : List TradeEvent) : ℚ :=
  Tape.volumeOf side (trades.filter fun trade =>
    now - windowMs ≤ trade.timestamp ∧ trade.timestamp ≤ now)

/-- Each frame carries the volumes of the window that ends with its update. -/
def Slides (sqrt : ℚ → ℚ) (windowMs maxDataAgeMs : Nat) (received : List Received) : Prop :=
  ∀ n r frame, received[n]? = some r → (run sqrt windowMs maxDataAgeMs received)[n]? = some frame →
    ∀ side, frame.tape.volume side =
      windowVolume windowMs side (marketTimestamp r.update) (tradesOf (received.take (n + 1)))

/-- What was in the window of the last trade and is before that of `now` adds up to
nothing on each side. -/
def NothingLeft (windowMs : Nat) (trades : List TradeEvent) (now : Nat) : Prop :=
  ∀ last ∈ trades.getLast?, ∀ side, Tape.volumeOf side (trades.filter fun trade =>
    last.timestamp - windowMs ≤ trade.timestamp ∧ trade.timestamp < now - windowMs) = 0

theorem tradesOf_append (first second : List Received) :
    tradesOf (first ++ second) = tradesOf first ++ tradesOf second := List.filterMap_append

theorem timestamp_of_mem_tradesOf {received : List Received} {t : TradeEvent}
    (h : t ∈ tradesOf received) : ∃ r ∈ received, marketTimestamp r.update = t.timestamp := by
  obtain ⟨r, hr, ht⟩ := List.mem_filterMap.mp h
  refine ⟨r, hr, ?_⟩
  rw [MarketUpdate.trade?_eq_some ht]
  rfl

theorem InOrder.trades {received : List Received} (h : InOrder received) :
    (tradesOf received).Pairwise fun t t' => t.timestamp ≤ t'.timestamp := by
  refine List.Pairwise.filterMap _ (fun r r' hle t ht t' ht' => ?_) h
  rw [MarketUpdate.trade?_eq_some ht, MarketUpdate.trade?_eq_some ht'] at hle
  exact hle

/-! ## The tape -/

/-- The trades of the window that ends with the last one. -/
def lastWindow (windowMs : Nat) (trades : List TradeEvent) : List TradeEvent :=
  match trades.getLast? with
  | some last => trades.filter fun trade => last.timestamp - windowMs ≤ trade.timestamp
  | none => []

/-- The tape after these trades. -/
structure Tracks (windowMs : Nat) (trades : List TradeEvent) (tape : Tape) : Prop where
  window : tape.windowMs = windowMs
  trades : tape.trades = lastWindow windowMs trades
  state : tape.lastState = Tape.compute tape.trades

theorem tracks_new (windowMs : Nat) : Tracks windowMs [] (Tape.new windowMs) := ⟨rfl, rfl, rfl⟩

theorem lastWindow_concat (windowMs : Nat) (trades : List TradeEvent) (trade : TradeEvent) :
    lastWindow windowMs (trades ++ [trade]) =
      (trades.filter fun t => trade.timestamp - windowMs ≤ t.timestamp) ++ [trade] := by
  unfold lastWindow
  rw [List.getLast?_concat]
  simp

/-- A trade drops what its own window no longer reaches. -/
theorem Tracks.observe {windowMs : Nat} {trades : List TradeEvent} {tape : Tape}
    (h : Tracks windowMs trades tape) (trade : TradeEvent)
    (hsorted : (trades ++ [trade]).Pairwise fun t t' => t.timestamp ≤ t'.timestamp) :
    Tracks windowMs (trades ++ [trade]) (tape.observe trade).2 := by
  obtain ⟨hbefore, -, hlatest⟩ := List.pairwise_append.mp hsorted
  refine ⟨h.window, ?_, rfl⟩
  show (tape.trades.dropWhile _) ++ [trade] = _
  rw [h.window, h.trades, lastWindow_concat]
  congr 1
  unfold lastWindow
  cases hlast : trades.getLast? with
  | none =>
    rw [List.getLast?_eq_none_iff.mp hlast]
    rfl
  | some last =>
    have hle := hlatest last (List.mem_of_getLast? hlast) trade (List.mem_singleton_self trade)
    exact dropWhile_lt_trim TradeEvent.timestamp hbefore (Nat.sub_le_sub_right hle windowMs)

/-- The volumes computed are those of the trades held. -/
theorem volume_compute (side : Side) (trades : List TradeEvent) :
    (Tape.compute trades).volume side = Tape.volumeOf side trades := by
  cases trades with
  | nil => cases side <;> rfl
  | cons first rest =>
    unfold Tape.compute
    rw [List.head?_cons, List.getLast?_cons]
    cases side <;> rfl

/-! ## One update -/

section Update

variable {windowMs : Nat} {trades : List TradeEvent} {now : Nat}

/-- The last window, when none of its trades is later than `now`. -/
theorem windowVolume_of_le (hnow : ∀ t ∈ trades, t.timestamp ≤ now) (side : Side) :
    windowVolume windowMs side now trades =
      Tape.volumeOf side (trades.filter fun t => now - windowMs ≤ t.timestamp) := by
  unfold windowVolume
  congr 1
  exact List.filter_congr fun t ht => by simp [hnow t ht]

/-- What the tape counts and the window of `now` does not. -/
theorem volumeOf_lastWindow {last : TradeEvent} (hlast : trades.getLast? = some last)
    (hnow : ∀ t ∈ trades, t.timestamp ≤ now) (side : Side) :
    Tape.volumeOf side (lastWindow windowMs trades) =
      Tape.volumeOf side (trades.filter fun t =>
        last.timestamp - windowMs ≤ t.timestamp ∧ t.timestamp < now - windowMs) +
      windowVolume windowMs side now trades := by
  have hle : last.timestamp - windowMs ≤ now - windowMs :=
    Nat.sub_le_sub_right (hnow last (List.mem_of_getLast? hlast)) windowMs
  rw [windowVolume_of_le hnow, lastWindow, hlast]
  unfold Tape.volumeOf
  rw [sum_map_filter_split TradeEvent.volume fun t => decide (t.timestamp < now - windowMs)]
  simp only [List.filter_filter]
  congr 3
  · exact List.filter_congr fun t _ => by grind
  · exact List.filter_congr fun t _ => by grind

theorem slides_delta_iff (hnow : ∀ t ∈ trades, t.timestamp ≤ now) :
    (∀ side, Tape.volumeOf side (lastWindow windowMs trades) =
      windowVolume windowMs side now trades) ↔ NothingLeft windowMs trades now := by
  unfold NothingLeft
  cases hlast : trades.getLast? with
  | none =>
    rw [List.getLast?_eq_none_iff.mp hlast]
    simp [lastWindow, windowVolume]
  | some last =>
    simp only [volumeOf_lastWindow hlast hnow, add_eq_right, Option.mem_some_iff,
      forall_eq']

theorem slides_trade {t : TradeEvent} (hnow : ∀ t' ∈ trades, t'.timestamp ≤ t.timestamp)
    (side : Side) :
    Tape.volumeOf side (lastWindow windowMs (trades ++ [t])) =
      windowVolume windowMs side t.timestamp (trades ++ [t]) := by
  have hall : ∀ t' ∈ trades ++ [t], t'.timestamp ≤ t.timestamp := by
    intro t' ht'
    rcases List.mem_append.mp ht' with hbefore | hlast
    · exact hnow t' hbefore
    · rw [List.mem_singleton.mp hlast]
  rw [windowVolume_of_le hall, lastWindow, List.getLast?_concat]

end Update

/-! ## Runs -/

section Runs

variable (sqrt : ℚ → ℚ) (windowMs maxDataAgeMs : Nat)

/-- The stage after these updates. -/
def after (received : List Received) : Stage :=
  (emit (step sqrt maxDataAgeMs) { tape := Tape.new windowMs } received).2

theorem after_concat (received : List Received) (r : Received) :
    after sqrt windowMs maxDataAgeMs (received ++ [r]) =
      (process sqrt maxDataAgeMs r (after sqrt windowMs maxDataAgeMs received)).2 := by
  rw [after, emit_append]
  rfl

theorem getElem?_run (received : List Received) (n : Nat) :
    (run sqrt windowMs maxDataAgeMs received)[n]? = received[n]?.map fun r =>
      (process sqrt maxDataAgeMs r (after sqrt windowMs maxDataAgeMs (received.take n))).1 := by
  have hone : ∀ stage r,
      (step sqrt maxDataAgeMs stage r).1 = [(process sqrt maxDataAgeMs r stage).1] :=
    fun _ _ => rfl
  exact getElem?_emit_one hone _ received n

theorem tracks_after {received : List Received} (h : InOrder received) :
    Tracks windowMs (tradesOf received) (after sqrt windowMs maxDataAgeMs received).tape := by
  induction received using List.reverseRecOn with
  | nil => exact tracks_new windowMs
  | append_singleton received r ih =>
    have hbefore := ih (List.pairwise_append.mp h).1
    have hsorted := h.trades
    rw [tradesOf_append] at hsorted ⊢
    rw [after_concat]
    obtain ⟨update, now⟩ := r
    cases update with
    | bookDelta delta =>
      rw [show tradesOf [⟨.bookDelta delta, now⟩] = [] from rfl, List.append_nil]
      exact hbefore
    | trade t => exact hbefore.observe t hsorted

/-- One frame slides unless it is a delta's and something has left the window. -/
theorem frame_slides_iff {received : List Received} {r : Received} (h : InOrder (received ++ [r])) :
    (∀ side,
      (process sqrt maxDataAgeMs r (after sqrt windowMs maxDataAgeMs received)).1.tape.volume side =
        windowVolume windowMs side (marketTimestamp r.update) (tradesOf (received ++ [r]))) ↔
      ∀ delta, r.update = .bookDelta delta →
        NothingLeft windowMs (tradesOf received) delta.timestamp := by
  obtain ⟨hbefore, -, hlatest⟩ := List.pairwise_append.mp h
  have htracks := tracks_after sqrt windowMs maxDataAgeMs hbefore
  have hnow : ∀ t ∈ tradesOf received, t.timestamp ≤ marketTimestamp r.update := by
    intro t ht
    obtain ⟨earlier, hearlier, htime⟩ := timestamp_of_mem_tradesOf ht
    rw [← htime]
    exact hlatest earlier hearlier r (List.mem_singleton_self r)
  obtain ⟨update, now⟩ := r
  rw [tradesOf_append]
  cases update with
  | bookDelta delta =>
    have hvolume : ∀ side, (after sqrt windowMs maxDataAgeMs received).tape.lastState.volume side =
        Tape.volumeOf side (lastWindow windowMs (tradesOf received)) := by
      intro side
      rw [htracks.state, volume_compute, htracks.trades]
    show (∀ side, (after sqrt windowMs maxDataAgeMs received).tape.lastState.volume side =
      windowVolume windowMs side delta.timestamp (tradesOf received ++ [])) ↔ _
    simp only [hvolume, List.append_nil, MarketUpdate.bookDelta.injEq, forall_eq']
    exact slides_delta_iff hnow
  | trade t =>
    have hsorted := h.trades
    rw [tradesOf_append] at hsorted
    have hafter := htracks.observe t hsorted
    refine iff_of_true (fun side => ?_) fun delta hdelta => by cases hdelta
    show (Tape.observe t _).2.lastState.volume side = _
    rw [hafter.state, volume_compute, hafter.trades]
    exact slides_trade hnow side

/-- The frames slide exactly if at every book delta the trades that have left the window since
the last trade add up to nothing. -/
theorem tape_slides_iff {received : List Received} (h : InOrder received) :
    Slides sqrt windowMs maxDataAgeMs received ↔
      ∀ n delta now, received[n]? = some ⟨.bookDelta delta, now⟩ →
        NothingLeft windowMs (tradesOf (received.take n)) delta.timestamp := by
  have hframe : ∀ n r, received[n]? = some r →
      ((∀ side, (process sqrt maxDataAgeMs r
          (after sqrt windowMs maxDataAgeMs (received.take n))).1.tape.volume side =
        windowVolume windowMs side (marketTimestamp r.update) (tradesOf (received.take (n + 1)))) ↔
      ∀ delta, r.update = .bookDelta delta →
        NothingLeft windowMs (tradesOf (received.take n)) delta.timestamp) := by
    intro n r hr
    have htake : received.take (n + 1) = received.take n ++ [r] := by
      rw [List.take_add_one, hr, Option.toList_some]
    rw [htake]
    refine frame_slides_iff sqrt windowMs maxDataAgeMs ?_
    rw [← htake]
    exact h.sublist (List.take_sublist _ _)
  unfold Slides
  constructor
  · intro hslides n delta now hn
    refine (hframe n _ hn).mp (fun side => hslides n _ _ hn ?_ side) delta rfl
    rw [getElem?_run, hn, Option.map_some]
  · intro hleft n r frame hr hrun
    rw [getElem?_run, hr, Option.map_some] at hrun
    rw [← Option.some.inj hrun]
    refine (hframe n r hr).mpr fun delta hdelta => hleft n delta r.now ?_
    rw [hr, ← hdelta]

end Runs

/-- One trade, and a book delta when it is out of the window. -/
def expiredTrade : List Received :=
  [⟨.trade { timestamp := 0, price := 100, volume := 1, side := .buy }, 0⟩,
    ⟨.bookDelta { timestamp := 1000, bids := [], asks := [] }, 1000⟩]

/-- It is still counted. -/
theorem tape_keeps_expired :
    InOrder expiredTrade ∧ ∀ sqrt, ¬ Slides sqrt 500 250 expiredTrade := by
  refine ⟨by unfold InOrder; decide +kernel, fun sqrt hslides => ?_⟩
  have horder : InOrder (expiredTrade.take 1 ++
      [⟨.bookDelta { timestamp := 1000, bids := [], asks := [] }, 1000⟩]) := by
    unfold InOrder
    decide +kernel
  have hframe := frame_slides_iff sqrt 500 250 horder
  have hleft := hframe.mp (hslides 1 _ _ rfl (getElem?_run sqrt 500 250 expiredTrade 1)) _ rfl
  exact absurd (hleft _ rfl .buy) (by decide +kernel)

/-- A longer window holds it. -/
theorem tape_slides_expiredTrade : Slides decimalRoot 1500 250 expiredTrade := by
  refine (tape_slides_iff decimalRoot 1500 250 (by unfold InOrder; decide +kernel)).mpr ?_
  intro n delta now hn last hlast side
  match n, hn with
  | 1, hn =>
    cases hn
    cases hlast
    cases side <;> decide +kernel

end Microstructure

end RealTimeTrading.Rtts
