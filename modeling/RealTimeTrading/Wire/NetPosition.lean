/-
RealTimeTrading.Wire.NetPosition — the net position of a symbol, on both
sides of the wire.

The control plane keeps one signed size per symbol and resets it once it
is under `1e-12`; the trading engine keeps a queue of lots. `FillRun` is a
control plane to which the fills of a list are applied among calls of any
other kind. Quantities are whole lots above `1e-12`, so the reset only
ever meets a size that is zero.
-/
import Mathlib.Algebra.Order.Ring.Abs
import RealTimeTrading.ControlPlane.PositionLimit
import RealTimeTrading.Rtts.Accounting.NetQuantity

namespace RealTimeTrading.Wire

open ControlPlane (Env Op Res Plane Store OrderID ExecutionEvent Time Order Symbol sem settle)
open Rtts.Accounting (FillLedgerEntry AccountingEngine WholeLots signedFills signedQuantity dust)

/-- A side as the control plane has it. -/
def goSide : Rtts.Side → ControlPlane.Side
  | .buy => .buy
  | .sell => .sell

/-- The fills in the order they are applied, each to an order of its symbol
and side, and what else is called in between. -/
inductive FillRun (env : Env) : List FillLedgerEntry → Plane → Prop
  | start {p : Plane} : p.store = .newStore → FillRun env [] p
  | call {fills : List FillLedgerEntry} {p p' : Plane} {o : Op} {r : Res o} :
      FillRun env fills p → (∀ id fill event, o ≠ .applyExternalFill id fill event) →
      sem env o p r p' → FillRun env fills p'
  | fill {fills : List FillLedgerEntry} {p p' : Plane} {id : OrderID}
      {fill : ControlPlane.FillLedgerEntry} {event : ExecutionEvent}
      {r : Res (.applyExternalFill id fill event)} {order : Order} {entry : FillLedgerEntry} :
      FillRun env fills p → p.store.orders.lookup (p.store.resolve id) = some order →
      order.symbol = entry.symbol → order.side = goSide entry.side →
      fill.quantity = entry.quantity → sem env (.applyExternalFill id fill event) p r p' →
      FillRun env (fills ++ [entry]) p'

/-! ## Whole lots -/

theorem signed_goSide (side : Rtts.Side) (quantity : ℚ) :
    (goSide side).signed quantity = signedQuantity side quantity := by
  cases side with
  | buy => exact if_neg nofun
  | sell => exact if_pos rfl

/-- A whole number of lots is not under `1e-12` unless it is none. -/
theorem settle_whole {lotSize : ℚ} (hsize : dust < lotSize) (n : ℤ) :
    settle (n * lotSize) = n * lotSize := by
  unfold settle
  split
  · rename_i hsmall
    have hpos : 0 < lotSize := Rtts.Accounting.dust_pos.trans hsize
    rcases eq_or_ne n 0 with rfl | hne
    · simp
    · have hone : (1 : ℚ) ≤ |(n : ℚ)| := by exact_mod_cast Int.one_le_abs hne
      have hle : lotSize ≤ |(n : ℚ) * lotSize| := by
        rw [abs_mul, abs_of_pos hpos]
        exact le_mul_of_one_le_left hpos.le hone
      exact absurd (hsmall.trans hsize) (not_lt.mpr hle)
  · rfl

theorem signedFills_whole {lotSize : ℚ} {fills : List FillLedgerEntry}
    (hfills : ∀ entry ∈ fills, WholeLots lotSize entry.quantity) (symbol : String) :
    ∃ n : ℤ, signedFills symbol fills = n * lotSize := by
  induction fills using List.reverseRecOn with
  | nil => exact ⟨0, by simp [signedFills]⟩
  | append_singleton fills entry ih =>
    obtain ⟨hbefore, hlast⟩ := List.forall_mem_append.mp hfills
    obtain ⟨n, hn⟩ := ih hbefore
    obtain ⟨k, -, hk⟩ := hlast entry (List.mem_singleton_self _)
    rw [AccountingEngine.signedFills_concat, hn]
    by_cases h : entry.symbol = symbol
    · rw [if_pos h, FillLedgerEntry.signed, hk]
      cases entry.side with
      | buy => exact ⟨n + k, by simp only [signedQuantity]; push_cast; ring⟩
      | sell => exact ⟨n - k, by simp only [signedQuantity]; push_cast; ring⟩
    · exact ⟨n, by rw [if_neg h, add_zero]⟩

/-! ## The control plane -/

/-- A fill moves the position of its order's symbol, and no other. -/
theorem position_applyExternalFill {s : Store} {now : Time} {id : OrderID}
    {fill : ControlPlane.FillLedgerEntry} {event : ExecutionEvent} {order : Order}
    (h : s.orders.lookup (s.resolve id) = some order) (symbol : Symbol) :
    ((s.applyExternalFill now id fill event).2.position symbol).size =
      if symbol = order.symbol then
        settle ((s.position symbol).size + order.side.signed fill.quantity)
      else (s.position symbol).size := by
  simp only [Store.applyExternalFill, h, Store.position]
  split
  · rename_i heq
    rw [heq, AList.lookup_insert, Option.getD_some, ControlPlane.fillPosition_size]
  · rename_i hne
    rw [AList.lookup_insert_ne hne]

theorem FillRun.position {env : Env} {lotSize : ℚ} (hsize : dust < lotSize)
    {fills : List FillLedgerEntry} {p : Plane} (hrun : FillRun env fills p)
    (hfills : ∀ entry ∈ fills, WholeLots lotSize entry.quantity) (symbol : Symbol) :
    (p.store.position symbol).size = signedFills symbol fills := by
  induction hrun with
  | start hnew =>
    rw [hnew]
    rfl
  | call hrun hother hcall ih =>
    rw [← ih hfills, Store.position, Store.position, ControlPlane.sem_positions hcall hother]
  | @fill fills p p' id fill event r order entry hrun horder hsymbol hside hquantity hcall ih =>
    obtain ⟨n, hn⟩ := signedFills_whole hfills symbol
    have hbefore := ih (List.forall_mem_append.mp hfills).1
    obtain ⟨now, -, rfl⟩ := hcall
    rw [position_applyExternalFill horder, hbefore, hsymbol, hside, hquantity, signed_goSide]
    rw [AccountingEngine.signedFills_concat] at hn ⊢
    by_cases h : symbol = entry.symbol
    · rw [if_pos h, if_pos h.symm] at *
      change settle (signedFills symbol fills + entry.signed) = _
      rw [hn, settle_whole hsize]
    · rw [if_neg h, if_neg (Ne.symm h), add_zero]

/-- Both matching methods and the control plane have the net position of every
symbol at its signed fills. -/
theorem net_positions_agree {env : Env} {lotSize : ℚ} (hsize : dust < lotSize)
    {fills : List FillLedgerEntry} {p : Plane} (hrun : FillRun env fills p)
    (hfills : ∀ entry ∈ fills, WholeLots lotSize entry.quantity) (symbol : String) :
    (((AccountingEngine.new .fifo).applyFills fills).positionExposure symbol).netQuantity =
        signedFills symbol fills ∧
      (((AccountingEngine.new .lifo).applyFills fills).positionExposure symbol).netQuantity =
        signedFills symbol fills ∧
      (p.store.position symbol).size = signedFills symbol fills :=
  ⟨AccountingEngine.netQuantity_applyFills .fifo hsize hfills symbol,
    AccountingEngine.netQuantity_applyFills .lifo hsize hfills symbol,
    hrun.position hsize hfills symbol⟩

/-- One bought, and three sold by a second order. -/
def turn : List FillLedgerEntry :=
  [{ orderId := "id-1", fillId := "f1", symbol := "BTCUSDT", side := .buy, price := 100,
     quantity := 1 },
   { orderId := "id-2", fillId := "f2", symbol := "BTCUSDT", side := .sell, price := 101,
     quantity := 3 }]

/-- The two orders of the turn. -/
def turnOrder (id : OrderID) (side : ControlPlane.Side) (size : ℚ) : Order :=
  { id := id, idempotencyKey := id, symbol := "BTCUSDT", side := side, size := size }

def turnFill (id fillID : String) (side : ControlPlane.Side) (quantity : ℚ) :
    ControlPlane.FillLedgerEntry :=
  { orderID := id, fillID := fillID, symbol := "BTCUSDT", side := side, price := 100,
    quantity := quantity }

def turnEvent (id : OrderID) : ExecutionEvent :=
  { orderID := id, symbol := "BTCUSDT", status := .filled }

/-- The desk with both orders stored. -/
def turnPlaced : Plane :=
  { ControlPlane.Desk.plane with
    store := Store.updateOrder 1 (turnOrder "id-2" .sell 3)
      (Store.updateOrder 1 (turnOrder "id-1" .buy 1) .newStore) }

def turnBought : Plane :=
  { turnPlaced with
    store := (turnPlaced.store.applyExternalFill 2 "id-1" (turnFill "id-1" "f1" .buy 1)
      (turnEvent "id-1")).2 }

def turned : Plane :=
  { turnBought with
    store := (turnBought.store.applyExternalFill 3 "id-2" (turnFill "id-2" "f2" .sell 3)
      (turnEvent "id-2")).2 }

theorem turn_run : FillRun ControlPlane.Desk.env turn turned := by
  have hstart : FillRun ControlPlane.Desk.env [] ControlPlane.Desk.plane := .start rfl
  have hfirst := hstart.call (o := .updateOrder (turnOrder "id-1" .buy 1)) (r := ()) (by simp)
    ⟨1, rfl, rfl⟩
  have hplaced : FillRun ControlPlane.Desk.env [] turnPlaced :=
    hfirst.call (o := .updateOrder (turnOrder "id-2" .sell 3)) (r := ()) (by simp) ⟨1, rfl, rfl⟩
  have hfound : (turnPlaced.store.orders.lookup (turnPlaced.store.resolve "id-1")).any fun o =>
      decide (o.symbol = "BTCUSDT" ∧ o.side = .buy) := by decide +kernel
  have hfound' : (turnBought.store.orders.lookup (turnBought.store.resolve "id-2")).any fun o =>
      decide (o.symbol = "BTCUSDT" ∧ o.side = .sell) := by decide +kernel
  obtain ⟨order, horder, hsides⟩ := (Option.any_eq_true _ _).mp hfound
  obtain ⟨order', horder', hsides'⟩ := (Option.any_eq_true _ _).mp hfound'
  obtain ⟨hsymbol, hside⟩ := of_decide_eq_true hsides
  obtain ⟨hsymbol', hside'⟩ := of_decide_eq_true hsides'
  have hbought : FillRun ControlPlane.Desk.env (turn.take 1) turnBought :=
    hplaced.fill horder hsymbol hside rfl ⟨2, rfl, rfl⟩
  exact hbought.fill horder' hsymbol' hside' rfl ⟨3, rfl, rfl⟩

theorem net_positions_agree_turn :
    (((AccountingEngine.new .fifo).applyFills turn).positionExposure "BTCUSDT").netQuantity =
        signedFills "BTCUSDT" turn ∧
      (((AccountingEngine.new .lifo).applyFills turn).positionExposure "BTCUSDT").netQuantity =
        signedFills "BTCUSDT" turn ∧
      (turned.store.position "BTCUSDT").size = signedFills "BTCUSDT" turn :=
  net_positions_agree (show dust < (1 : ℚ) by norm_num [dust]) turn_run (by
    simp only [turn, List.forall_mem_cons]
    exact ⟨⟨1, by norm_num⟩, ⟨3, by norm_num⟩, by simp⟩) "BTCUSDT"

end RealTimeTrading.Wire
