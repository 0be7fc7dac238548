/-
RealTimeTrading.ControlPlane.FillCalls — what a sequence of
`ApplyExternalFill` calls makes of an order and of a position.

On the order the running averages come out as the sums over all the fills
(`filled_order`). On the position the average price follows the average
cost except at a fill that crosses zero: the code keeps the old average
there (`average_cost_iff`).
-/
import RealTimeTrading.ControlPlane.StoreTheorems
import RealTimeTrading.Data.Sums
import Mathlib.Data.List.Induction
import Mathlib.Tactic.Linarith

namespace RealTimeTrading.ControlPlane

/-! ## Positions -/

/-- A position of less than `1e-12` counts as closed. -/
def settle (size : ℚ) : ℚ := if |size| < 1e-12 then 0 else size

/-- A quantity as it moves the position. -/
def Side.signed (side : Side) (quantity : ℚ) : ℚ := if side = .sell then -quantity else quantity

theorem fillPosition_size (now : Time) (symbol : Symbol) (side : Side) (fill : FillLedgerEntry)
    (pos : Position) : (Store.fillPosition now symbol side fill pos).size =
      settle (pos.size + side.signed fill.quantity) := by
  unfold Store.fillPosition settle Side.signed
  generalize (if side = .sell then -fill.quantity else fill.quantity) = signed
  dsimp only
  split
  · rfl
  · split <;> rfl

theorem abs_settle_le (size : ℚ) : |settle size| ≤ |size| := by
  unfold settle
  split
  · rw [abs_zero]
    exact abs_nonneg size
  · exact le_rfl

theorem Side.abs_signed (side : Side) (quantity : ℚ) : |side.signed quantity| = |quantity| := by
  unfold Side.signed
  split
  · exact abs_neg quantity
  · rfl

/-! ## Calls -/

/-- A call of `ApplyExternalFill`, with its reading of the clock. -/
structure FillCall where
  now : Time
  orderID : OrderID
  fill : FillLedgerEntry
  event : ExecutionEvent

namespace FillCall

def apply (s : Store) (c : FillCall) : Store :=
  (s.applyExternalFill c.now c.orderID c.fill c.event).2

/-- The order the call applies to. -/
def order (s : Store) (c : FillCall) : Option Order := s.orders.lookup (s.resolve c.orderID)

end FillCall

def applyFills (calls : List FillCall) (s : Store) : Store := calls.foldl FillCall.apply s

@[simp] theorem applyFills_nil (s : Store) : applyFills [] s = s := rfl

@[simp] theorem applyFills_concat (calls : List FillCall) (c : FillCall) (s : Store) :
    applyFills (calls ++ [c]) s = c.apply (applyFills calls s) := by
  simp [applyFills]

/-! ## One call -/

section Call

variable {s : Store} {c : FillCall} {o : Order}

theorem FillCall.apply_exchangeIDs (s : Store) (c : FillCall) :
    (c.apply s).exchangeIDs = s.exchangeIDs := by
  unfold FillCall.apply Store.applyExternalFill
  split <;> rfl

theorem FillCall.apply_orders (h : c.order s = some o) :
    (c.apply s).orders = s.orders.insert o.id (Store.fillOrder c.now c.fill c.event o) := by
  unfold FillCall.order at h
  simp only [FillCall.apply, Store.applyExternalFill, h]
  rfl

theorem FillCall.apply_position (h : c.order s = some o) :
    (c.apply s).position o.symbol =
      Store.fillPosition c.now o.symbol o.side c.fill (s.position o.symbol) := by
  unfold FillCall.order at h
  simp only [FillCall.apply, Store.applyExternalFill, h, Store.position, AList.lookup_insert,
    Option.getD_some]

theorem applyFills_resolve (calls : List FillCall) (s : Store) (id : OrderID) :
    (applyFills calls s).resolve id = s.resolve id := by
  induction calls using List.reverseRecOn with
  | nil => rfl
  | append_singleton calls c ih =>
    rw [applyFills_concat, Store.resolve, FillCall.apply_exchangeIDs]
    exact ih

end Call

/-! ## The order -/

namespace FillCall

def quantity (c : FillCall) : ℚ := c.fill.quantity

def price (c : FillCall) : ℚ := c.fill.price

end FillCall

/-- The quantity of these fills. -/
def totalQuantity (calls : List FillCall) : ℚ := (calls.map FillCall.quantity).sum

/-- What they were worth. -/
def totalNotional (calls : List FillCall) : ℚ := (calls.map fun c => c.quantity * c.price).sum

/-- The first event time that is set. -/
def firstSet (calls : List FillCall) : Time :=
  ((calls.map (·.fill.eventTime)).find? (fun t => !t.isZero)).getD 0

/-- The order after fills of an order that had none. -/
structure FilledWith (order : Order) (calls : List FillCall) (o : Order) : Prop where
  id : o.id = order.id
  size : o.size = order.size
  filled : o.filled = totalQuantity calls
  notional : o.weightedAvgFillPrice * o.filled = totalNotional calls
  first : o.firstFillAt = firstSet calls
  last : ∀ c, calls.getLast? = some c → o.lastFillAt = c.fill.eventTime ∧
    o.partialFillRatio = o.filled / max o.size 1e-12 ∧
    o.status = if o.size ≤ o.filled then .filled else .partially

section Order

variable {order o : Order} {calls : List FillCall} {c : FillCall}

theorem totalQuantity_concat (calls : List FillCall) (c : FillCall) :
    totalQuantity (calls ++ [c]) = totalQuantity calls + c.quantity := by
  simp [totalQuantity]

theorem totalNotional_concat (calls : List FillCall) (c : FillCall) :
    totalNotional (calls ++ [c]) = totalNotional calls + c.quantity * c.price := by
  simp [totalNotional]

theorem totalQuantity_nonneg (hpos : ∀ c ∈ calls, 0 < c.quantity) : 0 ≤ totalQuantity calls :=
  List.sum_nonneg (List.forall_mem_map.mpr fun c hc => (hpos c hc).le)

theorem firstSet_concat (calls : List FillCall) (c : FillCall) :
    firstSet (calls ++ [c]) =
      if (firstSet calls).isZero then c.fill.eventTime else firstSet calls := by
  unfold firstSet
  rw [List.map_append, List.find?_append]
  cases hfind : (calls.map (·.fill.eventTime)).find? (fun t => !t.isZero) with
  | none =>
    by_cases hzero : c.fill.eventTime = 0 <;> simp [Time.isZero, hzero]
  | some t =>
    have hset := List.find?_some hfind
    simp only [Bool.not_eq_true', Time.isZero, decide_eq_false_iff_not] at hset
    simp [Time.isZero, hset]

/-- No fill yet. -/
theorem FilledWith.unfilled (hunfilled : order.filled = 0) (hunset : order.firstFillAt = 0) :
    FilledWith order [] order := by
  refine ⟨rfl, rfl, hunfilled, ?_, hunset, fun c hc => by cases hc⟩
  rw [hunfilled, mul_zero]
  rfl

/-- One more fill. -/
theorem FilledWith.fill (h : FilledWith order calls o) (hpos : 0 < c.quantity)
    (hfilled : 0 ≤ totalQuantity calls) :
    FilledWith order (calls ++ [c]) (Store.fillOrder c.now c.fill c.event o) where
  id := h.id
  size := h.size
  filled := by
    rw [totalQuantity_concat, ← h.filled]
    rfl
  notional := by
    have hafter : 0 < o.filled + c.quantity := by
      rw [h.filled]
      exact add_pos_of_nonneg_of_pos hfilled hpos
    have havg : (Store.fillOrder c.now c.fill c.event o).weightedAvgFillPrice =
        (o.weightedAvgFillPrice * o.filled + c.price * c.quantity) / (o.filled + c.quantity) :=
      if_pos hafter
    rw [totalNotional_concat, ← h.notional, havg, mul_comm c.quantity]
    exact div_mul_cancel₀ _ hafter.ne'
  first := by
    have hquantity : decide (0 < c.fill.quantity) = true := decide_eq_true hpos
    rw [firstSet_concat, ← h.first]
    simp only [Store.fillOrder, hquantity, Bool.and_true]
  last c' hc' := by
    rw [List.getLast?_concat] at hc'
    obtain rfl := Option.some.inj hc'
    exact ⟨if_pos hpos, rfl, rfl⟩

/-- The fills of one order, whatever id it was named by. -/
theorem filledWith_applyFills {s : Store} (hstored : s.orders.lookup order.id = some order)
    (hunfilled : order.filled = 0) (hunset : order.firstFillAt = 0)
    (hcalls : ∀ c ∈ calls, s.resolve c.orderID = order.id) (hpos : ∀ c ∈ calls, 0 < c.quantity) :
    ∃ o, (applyFills calls s).orders.lookup order.id = some o ∧ FilledWith order calls o := by
  induction calls using List.reverseRecOn with
  | nil => exact ⟨order, hstored, .unfilled hunfilled hunset⟩
  | append_singleton calls c ih =>
    have hbefore : ∀ c ∈ calls, 0 < c.quantity := fun c hc =>
      hpos c (List.mem_append_left _ hc)
    obtain ⟨o, ho, hfilled⟩ := ih (fun c hc => hcalls c (List.mem_append_left _ hc)) hbefore
    have hlast : c ∈ calls ++ [c] := List.mem_append_right _ (List.mem_singleton_self c)
    have horder : c.order (applyFills calls s) = some o := by
      rw [FillCall.order, applyFills_resolve, hcalls c hlast, ho]
    refine ⟨_, ?_, hfilled.fill (hpos c hlast) (totalQuantity_nonneg hbefore)⟩
    rw [applyFills_concat, FillCall.apply_orders horder, hfilled.id]
    exact AList.lookup_insert _

/-- The order after at least one fill: the sums, the average between the
extreme prices, the times and the status. -/
theorem filled_order {s : Store} (hstored : s.orders.lookup order.id = some order)
    (hsize : 0 < order.size) (hunfilled : order.filled = 0) (hunset : order.firstFillAt = 0)
    (hcalls : ∀ c ∈ calls, s.resolve c.orderID = order.id) (hne : calls ≠ [])
    (hpos : ∀ c ∈ calls, 0 < c.quantity ∧ 0 < c.price) :
    ∃ o, (applyFills calls s).orders.lookup order.id = some o ∧
      o.filled = totalQuantity calls ∧
      o.weightedAvgFillPrice = totalNotional calls / totalQuantity calls ∧
      (∃ c ∈ calls, c.price ≤ o.weightedAvgFillPrice) ∧
      (∃ c ∈ calls, o.weightedAvgFillPrice ≤ c.price) ∧
      (1e-12 ≤ order.size → o.partialFillRatio * order.size = o.filled) ∧
      o.firstFillAt = firstSet calls ∧
      o.lastFillAt = (calls.getLast hne).fill.eventTime ∧
      o.status = if order.size ≤ totalQuantity calls then .filled else .partially := by
  have hquantity : ∀ c ∈ calls, 0 < c.quantity := fun c hc => (hpos c hc).1
  obtain ⟨o, ho, h⟩ := filledWith_applyFills hstored hunfilled hunset hcalls hquantity
  obtain ⟨hlast, hratio, hstatus⟩ := h.last _ (List.getLast?_eq_some_getLast hne)
  have htotal : 0 < totalQuantity calls :=
    List.sum_pos _ (List.forall_mem_map.mpr hquantity) (by simpa using hne)
  have havg : o.weightedAvgFillPrice = totalNotional calls / totalQuantity calls := by
    rw [eq_div_iff htotal.ne', ← h.notional, h.filled]
  refine ⟨o, ho, h.filled, havg, ?_, ?_, ?_, h.first, hlast, ?_⟩
  · rw [havg]
    exact Data.exists_le_weightedMean hne hquantity
  · rw [havg]
    exact Data.exists_weightedMean_le hne hquantity
  · intro hmin
    rw [hratio, h.size, max_eq_left hmin]
    exact div_mul_cancel₀ _ hsize.ne'
  · rw [hstatus, h.size, h.filled]

end Order

/-- Fills of order `a` at these event times, of 1 at 100 each. -/
def fillsAt (times : List Time) : List FillCall :=
  times.map fun t => ⟨t, "a", ⟨"a", "f", "BTCUSDT", .buy, 100, 1, .taker, 0, "", 0, 0, t, 0⟩,
    { orderID := "a", symbol := "BTCUSDT", status := .filled }⟩

def twoUnits : Order :=
  { id := "a", idempotencyKey := "k", symbol := "BTCUSDT", side := .buy, size := 2 }

/-- The order of two units, after two fills of one. -/
theorem filled_order_twice : ∃ o,
    (applyFills (fillsAt [3, 5]) (Store.newStore.putOrder twoUnits)).orders.lookup "a" = some o ∧
      o.filled = totalQuantity (fillsAt [3, 5]) ∧
      o.weightedAvgFillPrice = totalNotional (fillsAt [3, 5]) / totalQuantity (fillsAt [3, 5]) ∧
      (∃ c ∈ fillsAt [3, 5], c.price ≤ o.weightedAvgFillPrice) ∧
      (∃ c ∈ fillsAt [3, 5], o.weightedAvgFillPrice ≤ c.price) ∧
      ((1e-12 : ℚ) ≤ 2 → o.partialFillRatio * 2 = o.filled) ∧
      o.firstFillAt = firstSet (fillsAt [3, 5]) ∧ o.lastFillAt = 5 ∧
      o.status = if (2 : ℚ) ≤ totalQuantity (fillsAt [3, 5]) then .filled else .partially :=
  filled_order (show _ = some twoUnits by decide +kernel) (by decide +kernel) rfl rfl
    (by decide +kernel) (by decide) (by decide +kernel)

/-- A first fill at Go's zero time is passed over: the second one counts as the first. -/
theorem firstFillAt_skips_zero : ¬ ∀ (s : Store) (order o : Order) (calls : List FillCall)
    (hne : calls ≠ []), s.orders.lookup order.id = some order → 0 < order.size →
    order.filled = 0 → order.firstFillAt = 0 →
    (∀ c ∈ calls, s.resolve c.orderID = order.id) →
    (∀ c ∈ calls, 0 < c.quantity ∧ 0 < c.price) →
    (applyFills calls s).orders.lookup order.id = some o →
    o.firstFillAt = (calls.head hne).fill.eventTime := by
  intro h
  have hfive : ((applyFills (fillsAt [0, 5]) (Store.newStore.putOrder twoUnits)).orders.lookup
      "a").map (·.firstFillAt) = some 5 := by decide +kernel
  obtain ⟨o, ho, hfirst⟩ := Option.map_eq_some_iff.mp hfive
  have hzero := h _ twoUnits o (fillsAt [0, 5]) (by decide) (by decide +kernel) (by decide +kernel)
    rfl rfl (by decide +kernel) (by decide +kernel) ho
  rw [hfirst] at hzero
  exact absurd hzero (by decide +kernel)

/-! ## The position -/

namespace FillCall

/-- The quantity as it moves the position. -/
def signed (s : Store) (c : FillCall) : ℚ := ((c.order s).getD default).side.signed c.quantity

/-- The position in `symbol` and the call's fill lie on either side of zero. -/
def Crosses (symbol : Symbol) (s : Store) (c : FillCall) : Prop :=
  (s.position symbol).size * ((s.position symbol).size + c.signed s) < 0

end FillCall

/-- Average cost: adding takes the weighted mean, closing resets, reducing
leaves the average, and what is left beyond zero was bought at the price of
the fill. -/
def averageCost (pos : Position) (signed price : ℚ) : ℚ :=
  if pos.size = 0 ∨ sign pos.size = sign signed then
    (pos.avgPrice * |pos.size| + price * |signed|) / |pos.size + signed|
  else if pos.size + signed = 0 then 0
  else if 0 < pos.size * (pos.size + signed) then pos.avgPrice
  else price

/-- The call moves the average price in `symbol` by average cost. -/
def FillCall.FollowsCost (symbol : Symbol) (s : Store) (c : FillCall) : Prop :=
  ((c.apply s).position symbol).avgPrice =
    averageCost (s.position symbol) (c.signed s) c.price

section Position

theorem mul_nonneg_of_sign_eq {x y : ℚ} (h : sign x = sign y) : 0 ≤ x * y := by
  unfold sign at h
  rcases lt_trichotomy x 0 with hx | rfl | hx
  · have hy : y < 0 := by
      by_contra hy
      rw [if_pos hx, if_neg hy] at h
      split at h <;> norm_num at h
    exact (mul_pos_of_neg_of_neg hx hy).le
  · rw [zero_mul]
  · have hy : 0 < y := by
      by_contra hy
      rw [if_neg hx.asymm, if_pos hx, if_neg hy] at h
      split at h <;> norm_num at h
    exact (mul_pos hx hy).le

/-- One fill follows average cost exactly if it does not cross zero at another
price than the average. -/
theorem fillPosition_followsCost_iff (now : Time) (symbol : Symbol) (side : Side)
    {fill : FillLedgerEntry} {pos : Position} (hpos : 0 < fill.quantity)
    (hclear : |pos.size + side.signed fill.quantity| < 1e-12 →
      pos.size + side.signed fill.quantity = 0) :
    (Store.fillPosition now symbol side fill pos).avgPrice =
        averageCost pos (side.signed fill.quantity) fill.price ↔
      (pos.size * (pos.size + side.signed fill.quantity) < 0 → fill.price = pos.avgPrice) := by
  have habs : |side.signed fill.quantity| = fill.quantity := by
    rw [Side.abs_signed, abs_of_pos hpos]
  have hne : side.signed fill.quantity ≠ 0 := fun h => by
    rw [h, abs_zero] at habs
    exact hpos.ne habs
  have hsigned : (if side = .sell then -fill.quantity else fill.quantity) =
      side.signed fill.quantity := rfl
  unfold Store.fillPosition averageCost
  dsimp only
  rw [hsigned, habs]
  generalize side.signed fill.quantity = signed at *
  by_cases hclosed : |pos.size + signed| < 1e-12
  · have hzero := hclear hclosed
    rw [if_pos hclosed, hzero, mul_zero, abs_zero, div_zero]
    simp
  · rw [if_neg hclosed]
    by_cases hadds : pos.size = 0 ∨ sign pos.size = sign signed
    · have hsame : ¬ pos.size * (pos.size + signed) < 0 := by
        rw [not_lt, mul_add]
        rcases hadds with hflat | hsign
        · simp [hflat]
        · exact add_nonneg (mul_self_nonneg _) (mul_nonneg_of_sign_eq hsign)
      rw [if_pos hadds, if_pos hadds]
      exact iff_of_true rfl fun hcrosses => absurd hcrosses hsame
    · have hopen : pos.size + signed ≠ 0 := by
        rintro hzero
        rw [hzero, abs_zero] at hclosed
        norm_num at hclosed
      have hproduct : pos.size * (pos.size + signed) ≠ 0 :=
        mul_ne_zero (fun hflat => hadds (Or.inl hflat)) hopen
      rw [if_neg hadds, if_neg hadds, if_neg hopen]
      split
      · rename_i hreduces
        exact iff_of_true rfl fun hcrosses => absurd hcrosses hreduces.asymm
      · rename_i hkeeps
        have hcrosses := lt_of_le_of_ne (not_lt.mp hkeeps) hproduct
        exact ⟨fun heq _ => heq.symm, fun heq => (heq hcrosses).symm⟩

/-- The running positions of the calls: each applies to an order on the symbol,
with a positive quantity and price, and does not leave the position strictly
between zero and `1e-12`. -/
structure FillsOf (symbol : Symbol) (calls : List FillCall) (s : Store) : Prop where
  order : ∀ pre c post, calls = pre ++ c :: post →
    ∃ o, c.order (applyFills pre s) = some o ∧ o.symbol = symbol
  quantity : ∀ c ∈ calls, 0 < c.quantity
  price : ∀ c ∈ calls, 0 < c.price
  clear : ∀ pre c post, calls = pre ++ c :: post →
    ¬ (0 < |((applyFills pre s).position symbol).size + c.signed (applyFills pre s)| ∧
      |((applyFills pre s).position symbol).size + c.signed (applyFills pre s)| < 1e-12)

/-- Over a sequence of fills on one symbol the average price follows average
cost exactly if every fill that crosses zero has the price of the average it
finds. -/
theorem average_cost_iff {symbol : Symbol} {calls : List FillCall} {s : Store}
    (h : FillsOf symbol calls s) :
    (∀ pre c post, calls = pre ++ c :: post → c.FollowsCost symbol (applyFills pre s)) ↔
      ∀ pre c post, calls = pre ++ c :: post → c.Crosses symbol (applyFills pre s) →
        c.price = ((applyFills pre s).position symbol).avgPrice := by
  have hstep : ∀ pre c post, calls = pre ++ c :: post →
      (c.FollowsCost symbol (applyFills pre s) ↔ (c.Crosses symbol (applyFills pre s) →
        c.price = ((applyFills pre s).position symbol).avgPrice)) := by
    intro pre c post hcalls
    obtain ⟨o, ho, rfl⟩ := h.order pre c post hcalls
    have hclear := h.clear pre c post hcalls
    have hquantity : 0 < c.quantity := h.quantity c (by rw [hcalls]; simp)
    have hsigned : c.signed (applyFills pre s) = o.side.signed c.fill.quantity := by
      rw [FillCall.signed, ho]
      rfl
    rw [hsigned] at hclear
    rw [FillCall.FollowsCost, FillCall.Crosses, FillCall.apply_position ho, hsigned]
    refine fillPosition_followsCost_iff _ _ _ hquantity fun hsmall => ?_
    by_contra hne
    exact hclear ⟨abs_pos.mpr hne, hsmall⟩
  exact ⟨fun hcost pre c post hcalls => (hstep pre c post hcalls).mp (hcost pre c post hcalls),
    fun hprice pre c post hcalls => (hstep pre c post hcalls).mpr (hprice pre c post hcalls)⟩

end Position

/-! ## A fill through zero -/

def soldTwo : Order :=
  { id := "b", idempotencyKey := "l", symbol := "BTCUSDT", side := .sell, size := 2 }

/-- An order to buy two units and one to sell two. -/
def twoSided : Store := (Store.newStore.putOrder twoUnits).putOrder soldTwo

/-- One unit is bought at 100, then two are sold at 90. -/
def throughZero : List FillCall :=
  [⟨1, "a", ⟨"a", "f", "BTCUSDT", .buy, 100, 1, .taker, 0, "", 0, 0, 1, 0⟩,
      { orderID := "a", symbol := "BTCUSDT", status := .partially }⟩,
    ⟨2, "b", ⟨"b", "g", "BTCUSDT", .sell, 90, 2, .taker, 0, "", 0, 0, 2, 0⟩,
      { orderID := "b", symbol := "BTCUSDT", status := .filled }⟩]

/-- The two places of a list of two. -/
theorem eq_append_of_pair {A : Type} {a b c : A} {pre post : List A}
    (h : [a, b] = pre ++ c :: post) : (pre = [] ∧ c = a) ∨ (pre = [a] ∧ c = b) := by
  rcases pre with - | ⟨x, - | ⟨y, pre⟩⟩
  · exact Or.inl ⟨rfl, (List.cons.inj h).1.symm⟩
  · obtain ⟨rfl, hrest⟩ := List.cons.inj h
    exact Or.inr ⟨rfl, (List.cons.inj hrest).1.symm⟩
  · simp at h

theorem throughZero_fillsOf : FillsOf "BTCUSDT" throughZero twoSided where
  order pre c post h := by
    rcases eq_append_of_pair h with ⟨rfl, rfl⟩ | ⟨rfl, rfl⟩
    · exact ⟨twoUnits, by decide +kernel, rfl⟩
    · exact ⟨soldTwo, by decide +kernel, rfl⟩
  quantity := by decide +kernel
  price := by decide +kernel
  clear pre c post h := by
    rcases eq_append_of_pair h with ⟨rfl, rfl⟩ | ⟨rfl, rfl⟩
    · decide +kernel
    · decide +kernel

/-- The unit left short was sold at 90 and is carried at 100. -/
theorem crossing_keeps_average : ¬ ∀ (symbol : Symbol) (calls : List FillCall) (s : Store),
    FillsOf symbol calls s →
    ∀ pre c post, calls = pre ++ c :: post → c.FollowsCost symbol (applyFills pre s) := by
  intro h
  have hsold := h "BTCUSDT" throughZero twoSided throughZero_fillsOf [throughZero[0]] throughZero[1]
    [] rfl
  exact absurd hsold (by unfold FillCall.FollowsCost; decide +kernel)

theorem average_cost_iff_throughZero :
    (∀ pre c post, throughZero = pre ++ c :: post →
        c.FollowsCost "BTCUSDT" (applyFills pre twoSided)) ↔
      ∀ pre c post, throughZero = pre ++ c :: post →
        c.Crosses "BTCUSDT" (applyFills pre twoSided) →
        c.price = ((applyFills pre twoSided).position "BTCUSDT").avgPrice :=
  average_cost_iff throughZero_fillsOf

end RealTimeTrading.ControlPlane
