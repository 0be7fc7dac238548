/-
RealTimeTrading.Rtts.TopOfBook — the touch a controller does not remember.

`on_market_update` sets the touch on the queue state and then replaces
all of that state by the engine's, whose touch nothing ever sets. So it
stays at zero through any calls (`touch_after`), and what is priced by it
is priced by the order's own price alone: an exit of a bought position
goes out one tick above that price, and one of a sold position at zero or
below.
-/
import Mathlib.Tactic.Linarith
import Mathlib.Tactic.NormNum
import RealTimeTrading.Concurrency.Registers
import RealTimeTrading.Rtts.ControllerCalls
import RealTimeTrading.Rtts.ControllerTheorems

namespace RealTimeTrading.Rtts

open Concurrency

structure Touch where
  bestBid : ℚ := 0
  bestAsk : ℚ := 0
  lastReferencePrice : ℚ := 0
  deriving DecidableEq

def QueueState.touch (q : QueueState) : Touch :=
  { bestBid := q.bestBid
    bestAsk := q.bestAsk
    lastReferencePrice := q.lastReferencePrice }

/-- The touch of a book that has both sides, seen from one of them. -/
def BookDelta.touch (side : Side) (book : BookDelta) : Option Touch :=
  book.bids.head?.bind fun bestBid => book.asks.head?.map fun bestAsk =>
    { bestBid := bestBid.price
      bestAsk := bestAsk.price
      lastReferencePrice := match side with
        | .buy => bestBid.price
        | .sell => bestAsk.price }

/-- The touch a call shows the controller. -/
def ControllerCall.touch (side : Side) : ControllerCall → Option Touch
  | .market (.bookDelta book) => book.touch side
  | _ => none

/-- The touch of the last book with both sides. -/
def lastTouch (side : Side) (calls : List ControllerCall) : Option Touch :=
  latest (ControllerCall.touch side) calls

namespace ExecutionController

/-! ## Nothing sets the touch -/

/-- Controller and engine have a touch of zeros. -/
structure Untouched (c : ExecutionController) : Prop where
  state : c.queueState.touch = {}
  engine : c.queueEngine.state.touch = {}

section Untouched

variable {c : ExecutionController}

theorem untouched_new (intent : OrderIntent) (cfg : Config) : Untouched (new intent cfg) :=
  ⟨rfl, rfl⟩

theorem Untouched.market (h : c.Untouched) (update : MarketUpdate) :
    (c.onMarketUpdate update).Untouched :=
  onMarketUpdate_keeps h (fun _ => ⟨h.engine, h.engine⟩) (fun _ _ _ => ⟨h.engine, h.engine⟩) update

theorem Untouched.event (h : c.Untouched) (event : ExecutionControllerEvent) :
    (c.onExecutionEvent event).Untouched := by
  unfold onExecutionEvent
  dsimp only
  split <;> exact ⟨h.state, h.engine⟩

theorem Untouched.action (h : c.Untouched) (action : ExecutionAction) (nowTs : Nat) :
    (c.applyAction action nowTs).Untouched := by
  cases action <;> exact ⟨h.state, h.engine⟩

theorem Untouched.perform (h : c.Untouched) (call : ControllerCall) :
    (c.perform call).2.Untouched :=
  perform_keeps h h.market h.event h.action call

theorem untouched_after (intent : OrderIntent) (cfg : Config) (calls : List ControllerCall) :
    ((new intent cfg).after calls).Untouched :=
  emit_invariant (fun _ call hs => hs.perform call) (untouched_new intent cfg) calls

end Untouched

/-- Over any calls the controller remembers the touch of the last book with both
sides exactly if there was no such book, or its prices were zero. -/
theorem touch_remembered_iff (cfg : Config) (intent : OrderIntent) (calls : List ControllerCall) :
    (∀ touch, lastTouch intent.request.side calls = some touch →
        ((new intent cfg).after calls).queueState.touch = touch) ↔
      lastTouch intent.request.side calls = none ∨
        lastTouch intent.request.side calls = some {} := by
  rw [(untouched_after intent cfg calls).state]
  cases lastTouch intent.request.side calls with
  | none => exact iff_of_true (fun touch h => by cases h) (.inl rfl)
  | some touch =>
    constructor
    · intro h
      rw [h touch rfl]
      exact .inr rfl
    · rintro (hnone | hzero) touch' htouch
      · cases hnone
      · exact Option.some.inj (hzero.symm.trans htouch)

/-! ## Exit prices -/

section Tick

variable (reference : ℚ)

theorem derivedTick_zero_nonneg : 0 ≤ derivedTick 0 0 reference :=
  le_min (le_max_of_le_right (by norm_num)) (mul_nonneg (abs_nonneg _) (by norm_num))

theorem derivedTick_zero_le : derivedTick 0 0 reference ≤ |reference| * 0.00025 :=
  min_le_right _ _

variable {reference}

/-- A tick is small: it does not bring a price across zero. -/
theorem add_tick_pos_iff : 0 < reference + derivedTick 0 0 reference ↔ 0 < reference := by
  have hnonneg := derivedTick_zero_nonneg reference
  have hsmall := derivedTick_zero_le reference
  constructor
  · intro h
    by_contra hreference
    rw [abs_of_nonpos (not_lt.mp hreference)] at hsmall
    linarith [not_lt.mp hreference]
  · intro h
    linarith

end Tick

/-- An order on this side at this price would be filled at the touch. -/
def Marketable (side : Side) (price : Option ℚ) (touch : Touch) : Prop :=
  ∃ p, price = some p ∧ 0 < p ∧
    match side with
    | .buy => touch.bestAsk ≤ p
    | .sell => p ≤ touch.bestBid

/-- Only the price of the order is left to price an exit by. -/
def restingPrice (c : ExecutionController) : ℚ := c.currentPrice.getD 0

section CrossPrice

variable {c : ExecutionController} (h : c.Untouched)

include h

theorem Untouched.zeros : c.queueState.bestBid = 0 ∧ c.queueState.bestAsk = 0 ∧
    c.queueState.lastReferencePrice = 0 :=
  ⟨congrArg Touch.bestBid h.state, congrArg Touch.bestAsk h.state,
    congrArg Touch.lastReferencePrice h.state⟩

theorem Untouched.crossPrice_buy (hside : c.side = .buy) :
    c.crossPrice = some (max 0 (c.restingPrice + derivedTick 0 0 c.restingPrice)) := by
  obtain ⟨hbid, hask, hlast⟩ := h.zeros
  unfold crossPrice reference
  rw [hbid, hask, hlast, hside]
  rfl

theorem Untouched.crossPrice_sell (hside : c.side = .sell) :
    c.crossPrice = some (min 0 (c.restingPrice - derivedTick 0 0 c.restingPrice)) := by
  obtain ⟨hbid, hask, hlast⟩ := h.zeros
  unfold crossPrice reference
  rw [hbid, hask, hlast, hside]
  rfl

/-- The exit of a bought position is marketable exactly when the bid has risen a
tick above the price of the order; that of a sold one never is. -/
theorem Untouched.crossPrice_marketable_iff (touch : Touch) :
    Marketable c.side.opposite c.crossPrice touch ↔
      c.side = .buy ∧ 0 < c.restingPrice ∧
        c.restingPrice + derivedTick 0 0 c.restingPrice ≤ touch.bestBid := by
  unfold Marketable
  cases hside : c.side with
  | buy =>
    rw [h.crossPrice_buy hside]
    constructor
    · rintro ⟨p, hp, hpos, hbid⟩
      obtain rfl := Option.some.inj hp
      have hpriced := (lt_max_iff.mp hpos).resolve_left (lt_irrefl 0)
      exact ⟨rfl, add_tick_pos_iff.mp hpriced, (le_max_right _ _).trans hbid⟩
    · rintro ⟨-, hpos, hbid⟩
      have hpriced := add_tick_pos_iff.mpr hpos
      exact ⟨_, rfl, lt_max_of_lt_right hpriced, max_le (hpriced.le.trans hbid) hbid⟩
  | sell =>
    rw [h.crossPrice_sell hside]
    refine iff_of_false ?_ (fun h => by cases h.1)
    rintro ⟨p, hp, hpos, -⟩
    obtain rfl := Option.some.inj hp
    exact absurd hpos (not_lt.mpr (min_le_left _ _))

end CrossPrice

/-- Whenever a controller that has seen a book with both sides exits, the exit is
marketable at the touch of the last such book exactly if it sells, and the bid is
at least a tick above the price of the order. -/
theorem exit_marketable_iff (cfg : Config) (intent : OrderIntent) (calls : List ControllerCall)
    {nowTs : Nat} {price : Option ℚ}
    (hexit : ((new intent cfg).after calls).evaluateAction nowTs = .exitPosition price) :
    ∀ touch ∈ lastTouch intent.request.side calls,
      (Marketable intent.request.side.opposite price touch ↔
        intent.request.side = .buy ∧ 0 < ((new intent cfg).after calls).restingPrice ∧
          ((new intent cfg).after calls).restingPrice +
              derivedTick 0 0 ((new intent cfg).after calls).restingPrice ≤ touch.bestBid) := by
  intro touch _
  have hside : ((new intent cfg).after calls).side = intent.request.side :=
    congrArg Terms.side ((new intent cfg).terms_after calls)
  rw [(evaluateAction_exit hexit).2, ← hside]
  exact (untouched_after intent cfg calls).crossPrice_marketable_iff touch

end ExecutionController

namespace Desk

open ExecutionController

/-- A book around the calm order. -/
def oneBook : List ControllerCall := [.market (touch 99.99 100 1010)]

/-- Its touch is not remembered. -/
theorem touch_forgotten : ¬ ∀ touch, lastTouch .buy oneBook = some touch →
    ((new calmIntent {}).after oneBook).queueState.touch = touch := by
  intro h
  exact absurd (h { bestBid := 99.99, bestAsk := 100, lastReferencePrice := 99.99 } rfl)
    (by decide +kernel)

/-- After a partial fill the edge runs out. -/
def filledAtTouch : List ControllerCall := oneBook ++ [.execution (fillReport "ex-1" 0.4 1040)]

theorem filledAtTouch_exits :
    ((new calmIntent {}).after filledAtTouch).evaluateAction 1400 =
      .exitPosition (some 100.01) := by
  decide +kernel

/-- The exit would sell above the ask. -/
theorem exit_above_ask : ¬ ∀ price,
    ((new calmIntent {}).after filledAtTouch).evaluateAction 1400 = .exitPosition price →
      ∀ touch ∈ lastTouch .buy filledAtTouch, Marketable .sell price touch := by
  intro h
  obtain ⟨p, hp, -, hbid⟩ := h _ filledAtTouch_exits
    { bestBid := 99.99, bestAsk := 100, lastReferencePrice := 99.99 } rfl
  obtain rfl := Option.some.inj hp
  exact absurd hbid (by decide +kernel)

/-- The same exit, seen through the general theorem. -/
theorem exit_marketable_iff_calm :
    Marketable .sell (some 100.01)
        { bestBid := 99.99, bestAsk := 100, lastReferencePrice := 99.99 } ↔
      Side.buy = .buy ∧ 0 < ((new calmIntent {}).after filledAtTouch).restingPrice ∧
        ((new calmIntent {}).after filledAtTouch).restingPrice +
            derivedTick 0 0 ((new calmIntent {}).after filledAtTouch).restingPrice ≤ 99.99 :=
  exit_marketable_iff {} calmIntent filledAtTouch filledAtTouch_exits _ rfl

end Desk

end RealTimeTrading.Rtts
