/-
RealTimeTrading.ControlPlane.BingX.Convergence — when boot reconciliation
ends with the store the exchange reported.

Positions and open orders are snapshots: they are written as reported. An
imported fill is a change: it moves the position of its order's symbol and
adds to the order's `Filled`. The imports come after the snapshots, so the
store ends as reported exactly when they cancel out.
-/
import RealTimeTrading.ControlPlane.BingX.BootSteps
import Mathlib.Data.List.Induction
import Mathlib.Tactic.NormNum

namespace RealTimeTrading.ControlPlane.BingX

open RealTimeTrading.ControlPlane Store

/-! ## Imports -/

/-- The id a fill is applied to. -/
def landing (now : Time) (fill : FillLedgerEntry) (s : Store) : OrderID :=
  (adopt now fill s).2.resolve (adopt now fill s).1.id

def landedOrder (now : Time) (fill : FillLedgerEntry) (s : Store) : Order :=
  ((adopt now fill s).2.orders.lookup (landing now fill s)).getD default

/-- A fill on its way to an order. -/
structure Import where
  now : Time
  order : Order
  fill : FillLedgerEntry

def Import.move (position : Position) (i : Import) : Position :=
  fillPosition i.now i.order.symbol i.order.side i.fill position

/-- What a step imports at the store it finds. -/
def importOf (s : Store) : BootStep → Option Import
  | .fill now f => if isMissing s f.orderID then some ⟨now, landedOrder now f s, f⟩ else none
  | _ => none

/-- The imports on orders of `symbol`. -/
def importsOn (symbol : Symbol) : List BootStep → Store → List Import
  | [], _ => []
  | step :: rest, s =>
    ((importOf s step).filter fun i => decide (i.order.symbol = symbol)).toList ++
      importsOn symbol rest (step.apply s)

/-! ## Positions -/

section Positions

variable {s : Store}

theorem BootStep.apply_sound (h : Sound s) (step : BootStep) : Sound (step.apply s) := by
  cases step with
  | position p => exact h.setPosition p
  | order now o => exact h.upsertOrder now o
  | fill now f =>
    show Sound (if isMissing s f.orderID then importInto now f s else s)
    split
    · exact (adopt_sound h now f).applyExternalFill _ _ _ _
    · exact h

theorem runSteps_sound (h : Sound s) (steps : List BootStep) : Sound (runSteps steps s) := by
  induction steps generalizing s with
  | nil => exact h
  | cons step rest ih => exact ih (step.apply_sound h)

theorem upsertOrder_positions (now : Time) (o : Order) (s : Store) :
    (s.upsertOrder now o).positions = s.positions := by
  unfold Store.upsertOrder
  dsimp only
  split <;> simp [Store.reserveKey]

theorem adopt_positions (now : Time) (fill : FillLedgerEntry) (s : Store) :
    (adopt now fill s).2.positions = s.positions := by
  unfold adopt
  split
  · rfl
  · exact upsertOrder_positions _ _ _

theorem adopt_lookup_landing (h : Sound s) (now : Time) (fill : FillLedgerEntry) :
    (adopt now fill s).2.orders.lookup (landing now fill s) = some (landedOrder now fill s) := by
  obtain ⟨o, ho⟩ := (GoMap.mem_iff_lookup _ _).mp (adopt_resolves h now fill)
  unfold landedOrder landing
  rw [ho]
  rfl

/-- An import moves the position of its order's symbol and no other. -/
theorem importInto_position (h : Sound s) (now : Time) (fill : FillLedgerEntry) (symbol : Symbol) :
    (importInto now fill s).position symbol =
      if (landedOrder now fill s).symbol = symbol then
        Import.move (s.position symbol) ⟨now, landedOrder now fill s, fill⟩
      else s.position symbol := by
  have hlanded := adopt_lookup_landing h now fill
  unfold landing at hlanded
  simp only [importInto, applyExternalFill, hlanded, Store.position, adopt_positions]
  rw [GoMap.lookup_insert_ite]
  by_cases hsymbol : (landedOrder now fill s).symbol = symbol
  · rw [if_pos hsymbol, if_pos hsymbol.symm, hsymbol]
    simp only [Import.move, hsymbol, Option.getD_some]
  · rw [if_neg hsymbol, if_neg (Ne.symm hsymbol)]

/-- A step that takes over an order or a fill. -/
def BootStep.isRow : BootStep → Prop
  | .position _ => False
  | _ => True

theorem BootStep.apply_position (h : Sound s) {step : BootStep} (hrow : step.isRow)
    (symbol : Symbol) :
    (step.apply s).position symbol =
      ((importOf s step).filter fun i => decide (i.order.symbol = symbol)).toList.foldl Import.move
        (s.position symbol) := by
  cases step with
  | position p => exact hrow.elim
  | order now o =>
    simp only [BootStep.apply, Store.position, upsertOrder_positions]
    rfl
  | fill now f =>
    simp only [BootStep.apply, importOf]
    by_cases hmiss : isMissing s f.orderID
    · rw [if_pos hmiss, if_pos hmiss, importInto_position h]
      by_cases hsymbol : (landedOrder now f s).symbol = symbol <;> simp [Option.filter, hsymbol]
    · rw [if_neg hmiss, if_neg hmiss]
      rfl

theorem runSteps_position (h : Sound s) {steps : List BootStep} (hrows : ∀ step ∈ steps, step.isRow)
    (symbol : Symbol) :
    (runSteps steps s).position symbol =
      (importsOn symbol steps s).foldl Import.move (s.position symbol) := by
  induction steps generalizing s with
  | nil => rfl
  | cons step rest ih =>
    rw [runSteps_cons, ih (step.apply_sound h) fun t ht => hrows t (List.mem_cons_of_mem _ ht),
      step.apply_position h (hrows step List.mem_cons_self), importsOn, List.foldl_append]

theorem setPosition_position (p : Position) (s : Store) (symbol : Symbol) :
    (s.setPosition p).position symbol = if symbol = p.symbol then p else s.position symbol := by
  unfold Store.setPosition Store.position
  rw [GoMap.lookup_insert_ite]
  split <;> rfl

/-- After the snapshots a reported position is stored as it is. -/
theorem runSteps_positions {positions : List Position}
    (hdistinct : (positions.map (·.symbol)).Nodup) {p : Position} (hp : p ∈ positions) (s : Store) :
    (runSteps (positions.map .position) s).position p.symbol = p := by
  -- the last one first: it is the one no later snapshot replaces
  induction positions using List.reverseRecOn generalizing p with
  | nil => simp at hp
  | append_singleton rest q ih =>
    rw [List.map_append, List.map_singleton, runSteps_append, runSteps_cons, runSteps_nil,
      BootStep.apply, setPosition_position]
    rw [List.map_append, List.map_singleton, List.nodup_append] at hdistinct
    rcases List.mem_append.mp hp with hp | hp
    · have hne : p.symbol ≠ q.symbol :=
        hdistinct.2.2 _ (List.mem_map_of_mem hp) _ (List.mem_singleton.mpr rfl)
      rw [if_neg hne]
      exact ih hdistinct.1 hp
    · rw [List.mem_singleton.mp hp, if_pos rfl]

end Positions

/-! ## Filled quantities -/

def filledOf (id : OrderID) (s : Store) : ℚ := ((s.orders.lookup id).map (·.filled)).getD 0

/-- A fill of an order the store does not know is applied to an order made
up for it, which may be written over the one with this id. -/
def adoptsOver (id : OrderID) (now : Time) (fill : FillLedgerEntry) (s : Store) : Prop :=
  s.orderByExchangeID fill.orderID = none ∧ (upsertedOrder now s (adoptedOrder now fill)).id = id

instance (id : OrderID) (now : Time) (fill : FillLedgerEntry) (s : Store) :
    Decidable (adoptsOver id now fill s) := by
  unfold adoptsOver; infer_instance

/-- The `Filled` of the order with this id after a step, from `filled` before it. -/
def filledAfter (id : OrderID) (s : Store) (filled : ℚ) : BootStep → ℚ
  | .position _ => filled
  | .order now o => if (upsertedOrder now s o).id = id then o.filled else filled
  | .fill now f =>
    if isMissing s f.orderID then
      (if adoptsOver id now f s then 0 else filled) +
        (if landing now f s = id then f.quantity else 0)
    else filled

def filledThrough (id : OrderID) : List BootStep → Store → ℚ → ℚ
  | [], _, filled => filled
  | step :: rest, s, filled =>
    filledThrough id rest (step.apply s) (filledAfter id s filled step)

section Filled

variable {s : Store}

theorem upsertOrder_orders (now : Time) (o : Order) (s : Store) (id : OrderID) :
    (s.upsertOrder now o).orders.lookup id =
      if id = (upsertedOrder now s o).id then some (upsertedOrder now s o)
      else s.orders.lookup id := by
  rw [← lookup_putOrder]
  unfold Store.upsertOrder
  dsimp only
  split <;> simp [Store.reserveKey]

theorem filledOf_upsertOrder (now : Time) (o : Order) (s : Store) (id : OrderID) :
    filledOf id (s.upsertOrder now o) =
      if (upsertedOrder now s o).id = id then o.filled else filledOf id s := by
  unfold filledOf
  rw [upsertOrder_orders]
  by_cases h : (upsertedOrder now s o).id = id
  · rw [if_pos h, if_pos h.symm]
    rfl
  · rw [if_neg h, if_neg (Ne.symm h)]

theorem filledOf_adopt (now : Time) (fill : FillLedgerEntry) (s : Store) (id : OrderID) :
    filledOf id (adopt now fill s).2 =
      if adoptsOver id now fill s then 0 else filledOf id s := by
  cases ho : s.orderByExchangeID fill.orderID with
  | some o =>
    have hnot : ¬ adoptsOver id now fill s := fun h => by cases ho.symm.trans h.1
    rw [if_neg hnot]
    simp only [adopt, ho]
  | none =>
    have hover : adoptsOver id now fill s ↔
        (upsertedOrder now s (adoptedOrder now fill)).id = id := by
      simp only [adoptsOver, ho, true_and]
    have hstore : (adopt now fill s).2 = s.upsertOrder now (adoptedOrder now fill) := by
      simp only [adopt, ho]
    rw [hstore, filledOf_upsertOrder]
    simp only [hover]
    rfl

theorem filledOf_importInto (h : Sound s) (now : Time) (fill : FillLedgerEntry) (id : OrderID) :
    filledOf id (importInto now fill s) =
      filledOf id (adopt now fill s).2 + if landing now fill s = id then fill.quantity else 0 := by
  have hlanded := adopt_lookup_landing h now fill
  have hid : (landedOrder now fill s).id = landing now fill s :=
    (adopt_sound h now fill).wellFormed.stored _ _ hlanded
  have hlookup : (importInto now fill s).orders.lookup id =
      if id = landing now fill s then
        some (fillOrder now fill (reconciledEvent fill) (landedOrder now fill s))
      else (adopt now fill s).2.orders.lookup id := by
    rw [← hid]
    unfold landing at hlanded
    simp only [importInto, applyExternalFill, hlanded]
    exact lookup_putOrder _ _ _
  unfold filledOf
  rw [hlookup]
  by_cases hland : landing now fill s = id
  · rw [if_pos hland.symm, if_pos hland, ← hland, hlanded]
    rfl
  · rw [if_neg (Ne.symm hland), if_neg hland, add_zero]

theorem BootStep.apply_filledOf (h : Sound s) (id : OrderID) (step : BootStep) :
    filledOf id (step.apply s) = filledAfter id s (filledOf id s) step := by
  cases step with
  | position p => rfl
  | order now o => exact filledOf_upsertOrder now o s id
  | fill now f =>
    simp only [BootStep.apply, filledAfter]
    by_cases hmiss : isMissing s f.orderID
    · rw [if_pos hmiss, if_pos hmiss, filledOf_importInto h, filledOf_adopt]
    · rw [if_neg hmiss, if_neg hmiss]

theorem runSteps_filledOf (h : Sound s) (id : OrderID) (steps : List BootStep) :
    filledOf id (runSteps steps s) = filledThrough id steps s (filledOf id s) := by
  induction steps generalizing s with
  | nil => rfl
  | cons step rest ih =>
    rw [runSteps_cons, ih (step.apply_sound h), step.apply_filledOf h, filledThrough]

end Filled

/-! ## Where an open order is stored -/

/-- The stored order of a reported one: by its key, or by its id if the
exchange reports none. -/
def storedOrder (s : Store) (o : Order) : Option Order :=
  if o.idempotencyKey ≠ "" then s.orderByIdempotency o.idempotencyKey else s.order o.id

section Stored

variable {s : Store}

/-- The order with this id is there and, if it came with a key, under that key. -/
structure StoredUnder (key : String) (id : OrderID) (s : Store) : Prop where
  mem : id ∈ s.orders
  keyed : key ≠ "" → s.idempotency.lookup key = some id ∧ id ≠ ""

theorem StoredUnder.upsertOrder {key : String} {id : OrderID} (h : StoredUnder key id s)
    (now : Time) (o : Order) : StoredUnder key id (s.upsertOrder now o) where
  mem := by
    obtain ⟨stored, hstored⟩ := (GoMap.mem_iff_lookup _ _).mp h.mem
    rw [GoMap.mem_iff_lookup, upsertOrder_orders, hstored]
    split <;> exact ⟨_, rfl⟩
  keyed hkey := by
    obtain ⟨hlookup, hid⟩ := h.keyed hkey
    refine ⟨?_, hid⟩
    rw [upsertOrder_idempotency]
    split
    · rw [GoMap.lookup_insert_ite]
      by_cases hsame : key = o.idempotencyKey
      · -- the same key again: the order keeps the id the key has
        subst hsame
        simp only [upsertedOrder, hlookup, ne_eq, hid, not_false_eq_true, if_true]
      · rw [if_neg hsame]
        exact hlookup
    · exact hlookup

theorem StoredUnder.step {key : String} {id : OrderID} (hs : Sound s) (h : StoredUnder key id s)
    (step : BootStep) : StoredUnder key id (step.apply s) := by
  cases step with
  | position p => exact ⟨h.mem, h.keyed⟩
  | order now o => exact h.upsertOrder now o
  | fill now f =>
    simp only [BootStep.apply]
    by_cases hmiss : isMissing s f.orderID
    · rw [if_pos hmiss]
      have hadopt : StoredUnder key id (adopt now f s).2 := by
        unfold adopt
        split
        · exact h
        · exact h.upsertOrder _ _
      have hlanded := adopt_lookup_landing hs now f
      unfold landing at hlanded
      simp only [importInto, applyExternalFill, hlanded]
      exact ⟨(AList.mem_insert _).mpr (Or.inr hadopt.mem), hadopt.keyed⟩
    · rw [if_neg hmiss]
      exact h

theorem StoredUnder.runSteps {key : String} {id : OrderID} (hs : Sound s)
    (h : StoredUnder key id s) (steps : List BootStep) :
    StoredUnder key id (runSteps steps s) := by
  induction steps generalizing s with
  | nil => exact h
  | cons step rest ih => exact ih (step.apply_sound hs) (h.step hs step)

/-- An upserted order is stored; a key leads to it if the order is named
after its key, as `mapOrder` names it. -/
theorem storedUnder_upsertOrder (now : Time) {o : Order}
    (hnamed : o.idempotencyKey ≠ "" → o.id = o.idempotencyKey) (s : Store) :
    StoredUnder o.idempotencyKey (upsertedOrder now s o).id (s.upsertOrder now o) where
  mem := mem_upsertOrder now o s
  keyed hkey := by
    rw [upsertOrder_idempotency, if_pos hkey, AList.lookup_insert]
    refine ⟨rfl, ?_⟩
    unfold upsertedOrder
    dsimp only
    split
    · split
      · assumption
      · rw [hnamed hkey]; exact hkey
    · rw [hnamed hkey]; exact hkey

theorem StoredUnder.storedOrder_eq {o : Order} {id : OrderID}
    (h : StoredUnder o.idempotencyKey id s) (hid : o.idempotencyKey = "" → id = o.id) :
    storedOrder s o = s.orders.lookup id := by
  unfold storedOrder
  split
  · rename_i hkey
    unfold orderByIdempotency
    rw [(h.keyed hkey).1, Option.bind_some]
  · rename_i hkey
    rw [hid (not_not.mp hkey)]
    rfl

end Stored

/-! ## What the imports depend on

Which fills are imported, and onto which orders, is read from the orders,
the two index maps and the ledger. -/

structure SameBooks (s t : Store) : Prop where
  orders : s.orders = t.orders
  idempotency : s.idempotency = t.idempotency
  exchangeIDs : s.exchangeIDs = t.exchangeIDs
  ledger : s.ledger = t.ledger

namespace SameBooks

variable {s t : Store}

theorem upsertedOrder_eq (h : SameBooks s t) (now : Time) (o : Order) :
    upsertedOrder now s o = upsertedOrder now t o := by
  unfold upsertedOrder
  rw [h.idempotency]

theorem upsertOrder (h : SameBooks s t) (now : Time) (o : Order) :
    SameBooks (s.upsertOrder now o) (t.upsertOrder now o) := by
  unfold Store.upsertOrder Store.bindExchangeID Store.reserveKey Store.putOrder
  rw [h.upsertedOrder_eq now o]
  dsimp only
  by_cases hkey : o.idempotencyKey = "" <;> by_cases hx : o.exchangeOrderID = "" <;>
    simp only [hkey, hx, ne_eq, not_true_eq_false, not_false_eq_true, if_true, if_false] <;>
    exact ⟨by rw [h.orders], by rw [h.idempotency], by rw [h.exchangeIDs], h.ledger⟩

theorem adopt (h : SameBooks s t) (now : Time) (fill : FillLedgerEntry) :
    (adopt now fill s).1 = (adopt now fill t).1 ∧
      SameBooks (adopt now fill s).2 (adopt now fill t).2 := by
  have hfound : s.orderByExchangeID fill.orderID = t.orderByExchangeID fill.orderID := by
    unfold orderByExchangeID
    rw [h.exchangeIDs, h.orders]
  unfold BingX.adopt
  rw [hfound]
  split
  · exact ⟨rfl, h⟩
  · exact ⟨rfl, h.upsertOrder _ _⟩

theorem isMissing_iff (h : SameBooks s t) (x : String) : isMissing s x ↔ isMissing t x := by
  rw [BingX.isMissing_iff, BingX.isMissing_iff, h.ledger]

theorem landing_eq (h : SameBooks s t) (now : Time) (fill : FillLedgerEntry) :
    landing now fill s = landing now fill t := by
  obtain ⟨hid, hbooks⟩ := h.adopt now fill
  unfold landing resolve
  rw [hid, hbooks.exchangeIDs]

theorem landedOrder_eq (h : SameBooks s t) (now : Time) (fill : FillLedgerEntry) :
    landedOrder now fill s = landedOrder now fill t := by
  unfold landedOrder
  rw [h.landing_eq, (h.adopt now fill).2.orders]

theorem importInto (h : SameBooks s t) (now : Time) (fill : FillLedgerEntry) :
    SameBooks (importInto now fill s) (importInto now fill t) := by
  obtain ⟨hid, hbooks⟩ := h.adopt now fill
  unfold BingX.importInto applyExternalFill resolve
  rw [hid, hbooks.exchangeIDs, hbooks.orders]
  split
  · exact hbooks
  · unfold putOrder
    exact ⟨by rw [hbooks.orders], hbooks.idempotency, hbooks.exchangeIDs, by rw [hbooks.ledger]⟩

theorem step (h : SameBooks s t) (step : BootStep) : SameBooks (step.apply s) (step.apply t) := by
  cases step with
  | position p => exact ⟨h.orders, h.idempotency, h.exchangeIDs, h.ledger⟩
  | order now o => exact h.upsertOrder now o
  | fill now f =>
    simp only [BootStep.apply, h.isMissing_iff]
    split
    · exact h.importInto now f
    · exact h

theorem runSteps (h : SameBooks s t) (steps : List BootStep) :
    SameBooks (runSteps steps s) (runSteps steps t) := by
  induction steps generalizing s t with
  | nil => exact h
  | cons step rest ih => exact ih (h.step step)

theorem importsOn_eq (h : SameBooks s t) (symbol : Symbol) (steps : List BootStep) :
    importsOn symbol steps s = importsOn symbol steps t := by
  induction steps generalizing s t with
  | nil => rfl
  | cons step rest ih =>
    have himport : importOf s step = importOf t step := by
      cases step with
      | fill now f => simp only [importOf, h.isMissing_iff, h.landedOrder_eq]
      | _ => rfl
    rw [importsOn, importsOn, himport, ih (h.step step)]

theorem filledThrough_eq (h : SameBooks s t) (id : OrderID) (steps : List BootStep) (filled : ℚ) :
    filledThrough id steps s filled = filledThrough id steps t filled := by
  induction steps generalizing s t filled with
  | nil => rfl
  | cons step rest ih =>
    have hafter : filledAfter id s filled step = filledAfter id t filled step := by
      cases step with
      | position p => rfl
      | order now o => simp only [filledAfter, h.upsertedOrder_eq]
      | fill now f =>
        have hover : adoptsOver id now f s ↔ adoptsOver id now f t := by
          unfold adoptsOver orderByExchangeID
          rw [h.exchangeIDs, h.orders, h.upsertedOrder_eq]
        simp only [filledAfter, h.isMissing_iff, h.landing_eq, hover]
    rw [filledThrough, filledThrough, hafter, ih (h.step step)]

/-- Snapshots of positions leave the books alone. -/
theorem positions (positions : List Position) (s : Store) :
    SameBooks s (BingX.runSteps (positions.map .position) s) := by
  induction positions generalizing s with
  | nil => exact ⟨rfl, rfl, rfl, rfl⟩
  | cons p rest ih =>
    have hrest := ih (s.setPosition p)
    exact ⟨hrest.orders, hrest.idempotency, hrest.exchangeIDs, hrest.ledger⟩

end SameBooks

/-! ## Convergence -/

/-- The store is as reported: size and average price of every position, and
the executed quantity of every open order. -/
def Agrees (positions : List Position) (rows : List BootStep) (s : Store) : Prop :=
  (∀ p ∈ positions, (s.position p.symbol).size = p.size ∧
    (s.position p.symbol).avgPrice = p.avgPrice) ∧
  ∀ now o, .order now o ∈ rows → ∃ stored, storedOrder s o = some stored ∧ stored.filled = o.filled

/-- The imports on the symbol lead back to the position they start from. -/
def PositionKept (rows : List BootStep) (s : Store) (p : Position) : Prop :=
  ((importsOn p.symbol rows s).foldl Import.move p).size = p.size ∧
    ((importsOn p.symbol rows s).foldl Import.move p).avgPrice = p.avgPrice

/-- What is imported onto the order after its row adds up to nothing. -/
def FilledKept (s : Store) (now : Time) (o : Order) (after : List BootStep) : Prop :=
  filledThrough (upsertedOrder now s o).id after (s.upsertOrder now o) o.filled = o.filled

/-- The imports of a run from `s` cancel out on all that is reported. -/
def ImportsCancel (positions : List Position) (rows : List BootStep) (s : Store) : Prop :=
  (∀ p ∈ positions, PositionKept rows s p) ∧
  ∀ before now o after, rows = before ++ .order now o :: after →
    FilledKept (runSteps before s) now o after

section Convergence

variable {std : Std} {clock : Nat → Time} {replies : Replies}

theorem symbolSteps_isRow (symbols : List Symbol) (n : Nat) :
    ∀ step ∈ symbolSteps std clock replies symbols n, step.isRow := by
  induction symbols generalizing n with
  | nil => simp [symbolSteps]
  | cons symbol rest ih =>
    intro step hstep
    simp only [symbolSteps, List.mem_append, List.mem_map] at hstep
    obtain (⟨row, -, rfl⟩ | ⟨row, -, rfl⟩) | hstep := hstep
    · exact trivial
    · exact trivial
    · exact ih _ step hstep

/-- An open order with a key is named after it. -/
theorem symbolSteps_named (symbols : List Symbol) (n : Nat) {now : Time} {o : Order}
    (ho : .order now o ∈ symbolSteps std clock replies symbols n) :
    o.idempotencyKey ≠ "" → o.id = o.idempotencyKey := by
  induction symbols generalizing n with
  | nil => simp [symbolSteps] at ho
  | cons symbol rest ih =>
    simp only [symbolSteps, List.mem_append, List.mem_map] at ho
    obtain (⟨row, -, hrow⟩ | ⟨row, -, hrow⟩) | ho := ho
    · cases hrow
      intro hkey
      exact if_pos hkey
    · cases hrow
    · exact ih _ ho

/-- The stored order of a row, at the end of a run that goes on with `after`. -/
theorem storedOrder_after {s : Store} (hs : Sound s) {now : Time} {o : Order}
    (hnamed : o.idempotencyKey ≠ "" → o.id = o.idempotencyKey) (after : List BootStep) :
    (∃ stored, storedOrder (runSteps after (s.upsertOrder now o)) o = some stored ∧
        stored.filled = o.filled) ↔ FilledKept s now o after := by
  have hupsert := hs.upsertOrder now o
  have hunder := (storedUnder_upsertOrder now hnamed s).runSteps hupsert after
  have hid : o.idempotencyKey = "" → (upsertedOrder now s o).id = o.id := by
    intro hkey
    have hlookup : s.idempotency.lookup o.idempotencyKey = none := by rw [hkey]; exact hs.unkeyed
    simp only [upsertedOrder, hlookup]
  obtain ⟨stored, hstored⟩ := (GoMap.mem_iff_lookup _ _).mp hunder.mem
  have hfilled : stored.filled =
      filledThrough (upsertedOrder now s o).id after (s.upsertOrder now o) o.filled := by
    have hrun := runSteps_filledOf hupsert (upsertedOrder now s o).id after
    rw [filledOf_upsertOrder, if_pos rfl, filledOf, hstored] at hrun
    exact hrun
  rw [hunder.storedOrder_eq hid, hstored, FilledKept, ← hfilled]
  constructor
  · rintro ⟨stored', hsame, hfilled'⟩
    rw [Option.some.inj hsame]
    exact hfilled'
  · intro hfilled'
    exact ⟨stored, rfl, hfilled'⟩

theorem ImportsCancel.congr {positions : List Position} {rows : List BootStep} {s t : Store}
    (h : SameBooks s t) : ImportsCancel positions rows s ↔ ImportsCancel positions rows t := by
  unfold ImportsCancel PositionKept FilledKept
  refine and_congr ?_ ?_
  · simp only [h.importsOn_eq]
  · refine forall_congr' fun before => forall_congr' fun now => forall_congr' fun o =>
      forall_congr' fun after => forall_congr' fun _ => ?_
    have hbefore := h.runSteps before
    rw [hbefore.upsertedOrder_eq, (hbefore.upsertOrder now o).filledThrough_eq]

/-- The snapshots first, then rows that name their orders as `mapOrder` does. -/
theorem runSteps_agrees_iff {positions : List Position} {rows : List BootStep} {s : Store}
    (hs : Sound s) (hdistinct : (positions.map (·.symbol)).Nodup)
    (hrows : ∀ step ∈ rows, step.isRow)
    (hnamed : ∀ now o, .order now o ∈ rows → o.idempotencyKey ≠ "" → o.id = o.idempotencyKey) :
    Agrees positions rows (runSteps rows (runSteps (positions.map .position) s)) ↔
      ImportsCancel positions rows s := by
  have hsnapshot := runSteps_sound hs (positions.map .position)
  rw [ImportsCancel.congr (SameBooks.positions positions s)]
  refine and_congr ?_ ?_
  · refine forall_congr' fun p => forall_congr' fun hp => ?_
    rw [runSteps_position hsnapshot hrows, runSteps_positions hdistinct hp]
    exact Iff.rfl
  · constructor
    · rintro h before now o after rfl
      have ho : BootStep.order now o ∈ before ++ .order now o :: after := by simp
      have hstored := h now o ho
      rw [runSteps_append] at hstored
      exact (storedOrder_after (runSteps_sound hsnapshot before) (hnamed now o ho) after).mp hstored
    · intro h now o ho
      obtain ⟨before, after, rfl⟩ := List.append_of_mem ho
      rw [runSteps_append]
      exact (storedOrder_after (runSteps_sound hsnapshot before) (hnamed now o ho) after).mpr
        (h before now o after rfl)

/-- After a run that returns without error the store is as reported if and
only if the imports cancel out. -/
theorem agrees_iff_importsCancel {listed : List Order} {s : Store} {out : Boot} (hs : Sound s)
    (hdistinct : ((reportedPositions std clock replies).map (·.symbol)).Nodup)
    (hok : reconcile std clock replies listed s = (out, none)) :
    Agrees (reportedPositions std clock replies) (rowSteps std clock replies listed) out.store ↔
      ImportsCancel (reportedPositions std clock replies) (rowSteps std clock replies listed)
        s := by
  obtain ⟨account, report, hout⟩ := reconcile_store hok
  have haccount : SameBooks (s.setAccountState account) s := ⟨rfl, rfl, rfl, rfl⟩
  rw [hout, ← ImportsCancel.congr haccount]
  exact runSteps_agrees_iff (hs.setAccountState account) hdistinct
    (symbolSteps_isRow _ _) fun now o ho => symbolSteps_named _ _ ho

end Convergence

/-! ## A reported position with its own fill -/

namespace BootDesk

open RealTimeTrading.ControlPlane.Desk

def longOne : PositionRaw := { position with positionAmt := "1" }

/-- A long position of 1, and the fill of quantity 1 that made it. -/
def oneFill : Replies :=
  { replies [fill "fill-1"] with
    accountPositions := .ok [longOne]
    positions := .ok [longOne]
    openOrders := fun _ => .ok
      [{ orderID := "ex-1"
         clientOrderID := "cid-1"
         status := "NEW"
         symbol := "BTCUSDT"
         side := "BUY"
         price := "100"
         origQty := "1" }] }

/-- The store holds another position than the exchange. -/
def drifted : Store := newStore.setPosition { symbol := "BTCUSDT", size := 2, avgPrice := 95 }

theorem drifted_sound : Sound drifted := newStore_sound.setPosition _

def reconciled : Boot × Option String := reconcile std (fun _ => clock) oneFill [] drifted

theorem reconciled_returns :
    reconcile std (fun _ => clock) oneFill [] drifted = (reconciled.1, none) :=
  Prod.ext rfl (by decide +kernel : reconciled.2 = none)

theorem oneFill_distinct :
    ((reportedPositions std (fun _ => clock) oneFill).map (·.symbol)).Nodup := by decide +kernel

end BootDesk

section OneFill

open BootDesk RealTimeTrading.ControlPlane.Desk

/-- The fill is replayed on top of the reported position, which ends at 2. -/
theorem replayed_fill_diverges :
    reconcile std (fun _ => clock) oneFill [] drifted = (reconciled.1, none) ∧
      (reconciled.1.store.position "BTCUSDT").size = 2 ∧
      ¬ Agrees (reportedPositions std (fun _ => clock) oneFill)
        (rowSteps std (fun _ => clock) oneFill []) reconciled.1.store := by
  have hsize : (reconciled.1.store.position "BTCUSDT").size = 2 := by decide +kernel
  refine ⟨reconciled_returns, hsize, ?_⟩
  rintro ⟨hpositions, -⟩
  have hp := (hpositions (mapPosition std clock longOne) List.mem_cons_self).1
  have hsymbol : (mapPosition std clock longOne).symbol = "BTCUSDT" := by decide +kernel
  have hreported : (mapPosition std clock longOne).size = 1 := by decide +kernel
  rw [hsymbol, hreported, hsize] at hp
  exact absurd hp (by decide)

theorem agrees_iff_importsCancel_oneFill :
    Agrees (reportedPositions std (fun _ => clock) oneFill)
        (rowSteps std (fun _ => clock) oneFill []) reconciled.1.store ↔
      ImportsCancel (reportedPositions std (fun _ => clock) oneFill)
        (rowSteps std (fun _ => clock) oneFill []) drifted :=
  agrees_iff_importsCancel drifted_sound oneFill_distinct reconciled_returns

end OneFill

end RealTimeTrading.ControlPlane.BingX
