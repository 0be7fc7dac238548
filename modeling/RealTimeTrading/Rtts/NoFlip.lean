/-
RealTimeTrading.Rtts.NoFlip — no decision turns a position round.

The orders of `decide_order` are exits of no more than the position,
entries on a flat one, and additions on its own side (`Decided`). So a
long position, with the order filled, is never short, nor a short one
long. Of the amounts only the base order and the size multiplier have to
be non-negative: a price is bounded from below where it divides.
-/
import RealTimeTrading.Rtts.PositionLoop
import RealTimeTrading.Rtts.ForcedExit

namespace RealTimeTrading.Rtts

open Accounting Concurrency

/-! ## Sizes -/

section Sizes

variable {cfg : Config} {position : Position} {signal : ScoredDecision}

theorem quoteToBase_nonneg {quoteSize : ℚ} (h : 0 ≤ quoteSize) (price : ℚ) :
    0 ≤ quoteToBase quoteSize price :=
  div_nonneg h (epsilon_pos.le.trans (le_max_right _ _))

/-- A reduction is of some of the position, and of no more than it. -/
theorem reduceSize_bounds (cfg : Config) (signal : ScoredDecision) (hopen : position.isOpen) :
    0 < reduceSize cfg position signal ∧ reduceSize cfg position signal ≤ |position.size| := by
  have hpos : 0 < |position.size| := epsilon_pos.trans hopen
  unfold reduceSize
  split
  · exact ⟨hpos, le_rfl⟩
  · have hhalf : |position.size| * 0.50 ≤ |position.size| := by linarith
    exact ⟨lt_max_of_lt_left (by linarith), max_le hhalf (min_le_left _ _)⟩

theorem scaleSize_nonneg (hbase : 0 ≤ cfg.baseOrderUsd)
    (hmultiplier : 0 ≤ signal.dynamicSizeMultiplier) (hconfidence : 0 ≤ signal.confidence) :
    0 ≤ scaleSize cfg position signal := by
  have hboost : (0 : ℚ) ≤ if signal.context.regime = .trendExpansion then 0.35 else 0 := by
    split <;> norm_num
  have hentries : (0 : ℚ) ≤ position.entries := Nat.cast_nonneg _
  unfold scaleSize
  exact quoteToBase_nonneg (mul_nonneg (mul_nonneg hbase (by linarith)) hmultiplier) _

end Sizes

/-! ## Positions and orders -/

theorem Position.side_eq_buy {position : Position} (h : position.side = some .buy) :
    0 < position.size := by
  by_contra hlong
  unfold Position.side at h
  rw [if_neg hlong] at h
  split at h <;> cases h

theorem Position.side_eq_sell {position : Position} (h : position.side = some .sell) :
    position.size < 0 := by
  by_contra hshort
  unfold Position.side at h
  rw [if_neg hshort] at h
  split at h <;> cases h

/-- The size of the position once the order is filled. -/
def sizeFilled (position : Position) (order : OrderIntent) : ℚ :=
  position.size + signedQuantity order.request.side order.request.size

/-- The order reduces the position, or adds to it, and does not turn it round. -/
structure Respects (position : Position) (order : OrderIntent) : Prop where
  reduces : order.request.reduceOnly = true → position.isOpen ∧
    ∃ side, position.side = some side ∧ order.request.side = side.opposite ∧
      0 < order.request.size ∧ order.request.size ≤ |position.size|
  adds : order.request.reduceOnly = false →
    ¬ position.isOpen ∨ position.side = some order.request.side
  long : position.isOpen → 0 < position.size → 0 ≤ sizeFilled position order
  short : position.isOpen → position.size < 0 → sizeFilled position order ≤ 0

section Orders

variable {position : Position} {order : OrderIntent}

/-- An exit of no more than the position. -/
theorem respects_of_reduces {side : Side} (hopen : position.isOpen)
    (hside : position.side = some side) (hreduce : order.request.reduceOnly = true)
    (hopposite : order.request.side = side.opposite) (hpos : 0 < order.request.size)
    (hle : order.request.size ≤ |position.size|) : Respects position order where
  reduces _ := ⟨hopen, side, hside, hopposite, hpos, hle⟩
  adds hadd := by
    rw [hreduce] at hadd
    cases hadd
  long _ hlong := by
    cases side with
    | buy =>
      have hsell : sizeFilled position order = position.size + -order.request.size := by
        unfold sizeFilled
        rw [hopposite]
        rfl
      rw [abs_of_pos hlong] at hle
      linarith
    | sell => exact absurd (Position.side_eq_sell hside) hlong.not_gt
  short _ hshort := by
    cases side with
    | buy => exact absurd (Position.side_eq_buy hside) hshort.not_gt
    | sell =>
      have hbuy : sizeFilled position order = position.size + order.request.size := by
        unfold sizeFilled
        rw [hopposite]
        rfl
      rw [abs_of_neg hshort] at hle
      linarith

/-- An order on the side of the position. -/
theorem respects_of_adds (hside : position.side = some order.request.side)
    (hreduce : order.request.reduceOnly = false) (hnonneg : 0 ≤ order.request.size) :
    Respects position order where
  reduces h := by
    rw [hreduce] at h
    cases h
  adds _ := .inr hside
  long _ hlong := by
    unfold sizeFilled
    cases hbuys : order.request.side with
    | buy => exact add_nonneg hlong.le hnonneg
    | sell =>
      rw [hbuys] at hside
      exact absurd (Position.side_eq_sell hside) hlong.not_gt
  short _ hshort := by
    unfold sizeFilled
    cases hbuys : order.request.side with
    | buy =>
      rw [hbuys] at hside
      exact absurd (Position.side_eq_buy hside) hshort.not_gt
    | sell => exact add_nonpos hshort.le (neg_nonpos.mpr hnonneg)

/-- Any order, where there is no position. -/
theorem respects_of_flat (hflat : ¬ position.isOpen) (hreduce : order.request.reduceOnly = false) :
    Respects position order where
  reduces h := by
    rw [hreduce] at h
    cases h
  adds _ := .inl hflat
  long hopen := absurd hopen hflat
  short hopen := absurd hopen hflat

end Orders

/-! ## Decisions -/

section Decisions

variable {cfg : Config} {position : Position} {signal : ScoredDecision} {lastScore : ℚ}
  {order : OrderIntent}

theorem Decided.respects (hbase : 0 ≤ cfg.baseOrderUsd)
    (hmultiplier : 0 ≤ signal.dynamicSizeMultiplier)
    (h : Decided cfg position signal lastScore order) : Respects position order := by
  cases h with
  | exit hopen hside hsize =>
    have hpos : 0 < |position.size| := epsilon_pos.trans hopen
    rcases hsize with rfl | rfl
    · exact respects_of_reduces hopen hside rfl rfl hpos le_rfl
    · obtain ⟨hreduce, hle⟩ := reduceSize_bounds cfg signal hopen
      exact respects_of_reduces hopen hside rfl rfl hreduce hle
  | entry hflat hallowed => exact respects_of_flat hflat rfl
  | scale hcan =>
    obtain ⟨-, hside, -, -, hconfidence, -⟩ := hcan
    have hnonneg : 0 ≤ signal.confidence := le_trans (by norm_num) hconfidence.le
    exact respects_of_adds hside rfl (scaleSize_nonneg hbase hmultiplier hnonneg)

end Decisions

namespace Desk

end Desk

end RealTimeTrading.Rtts
