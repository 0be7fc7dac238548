/-
RealTimeTrading.Rtts.PipelineFills — how fills come to the ledger.

A fill is offered to the position by `try_send` alone, so some may be lost,
and none comes twice or out of order. Marks never change what a ledger makes
of its fills (`books_applyFill`), so whatever else the position hears, its
books are those of the plain FIFO ledger on the fills it has taken, and it
decides every order on the quantity they leave open. At rest, and with room
for every fill, the pipeline and the control plane have the same position.
-/
import RealTimeTrading.Rtts.PipelineColdStart
import RealTimeTrading.Rtts.PipelineMarket
import RealTimeTrading.Wire.NetPosition

namespace RealTimeTrading.Rtts

open Concurrency
open Accounting (AccountingEngine FillLedgerEntry WholeLots signedFills dust)

/-! ## Books -/

namespace Accounting.AccountingEngine

/-- The ledger without its marks. -/
def books (engine : AccountingEngine) : AccountingEngine :=
  { engine with
    state := { engine.state with unrealizedPnl := 0 }
    markPrices := ∅ }

theorem books_markToMarket (engine : AccountingEngine) (symbol : String) (markPrice : ℚ) :
    (engine.markToMarket symbol markPrice).2.books = engine.books := rfl

theorem books_applyFill (engine : AccountingEngine) (entry : FillLedgerEntry) :
    (engine.applyFill entry).2.books = (engine.books.applyFill entry).2.books := rfl

theorem netQuantity_books (engine : AccountingEngine) (symbol : String) :
    (engine.books.positionExposure symbol).netQuantity =
      (engine.positionExposure symbol).netQuantity := by
  rw [netQuantity_eq, netQuantity_eq]
  rfl

end Accounting.AccountingEngine

/-! ## The position -/

def PositionInput.fill? : PositionInput → Option FillEvent
  | .fill filled => some filled
  | .signal _ => none

/-- The fills among the inputs. -/
def fillsOf (inputs : List PositionInput) : List FillEvent := inputs.filterMap (·.fill?)

/-- The ledger these fills alone lead to. -/
def ledgerOf (fills : List FillEvent) : AccountingEngine :=
  (AccountingEngine.new .fifo).applyFills (fills.map (·.ledgerEntry))

/-- The size the position has after these fills. -/
def openSize (symbol : String) (fills : List FillEvent) : ℚ :=
  let net := ((ledgerOf fills).positionExposure symbol).netQuantity
  if |net| ≤ epsilon then 0 else net

theorem ledgerOf_concat (fills : List FillEvent) (fill : FillEvent) :
    ledgerOf (fills ++ [fill]) = ((ledgerOf fills).applyFill fill.ledgerEntry).2 := by
  unfold ledgerOf
  rw [List.map_append, List.map_singleton, AccountingEngine.applyFills_concat]

namespace PositionLoop

/-- The loop after these inputs. -/
def after (cfg : Config) (inputs : List PositionInput) : PositionLoop :=
  (emit (step cfg) {} inputs).2

theorem after_concat (cfg : Config) (inputs : List PositionInput) (input : PositionInput) :
    after cfg (inputs ++ [input]) = (step cfg (after cfg inputs) input).2 := by
  unfold after
  rw [emit_append, emit_cons, emit_nil]

/-- Among signals and fills, the ledger books the fills. -/
theorem books_after (cfg : Config) (inputs : List PositionInput) :
    (after cfg inputs).accounting.books = (ledgerOf (fillsOf inputs)).books := by
  induction inputs using List.reverseRecOn with
  | nil => rfl
  | append_singleton inputs input ih =>
    have hfills : fillsOf (inputs ++ [input]) = fillsOf inputs ++ input.fill?.toList :=
      filterMap_concat _ inputs input
    rw [after_concat, hfills]
    cases input with
    | fill fill =>
      have hbooked : (step cfg (after cfg inputs) (.fill fill)).2.accounting.books =
          ((after cfg inputs).accounting.books.applyFill fill.ledgerEntry).2.books := rfl
      rw [hbooked, ih, PositionInput.fill?, Option.toList_some, ledgerOf_concat]
      exact (AccountingEngine.books_applyFill _ _).symm
    | signal signal =>
      rw [PositionInput.fill?, Option.toList_none, List.append_nil]
      exact ih

theorem size_sync (accounting : AccountingEngine) (symbol : String) (position : Position) :
    (syncPositionFromAccounting accounting symbol position).size =
      if |(accounting.positionExposure symbol).netQuantity| ≤ epsilon then 0
      else (accounting.positionExposure symbol).netQuantity := by
  unfold syncPositionFromAccounting
  dsimp only
  split
  · rfl
  · rfl

/-- What a signal makes of a position of the size that the fills before it have left open. -/
structure DecidedOn (cfg : Config) (before : List PositionInput) (signal : ScoredDecision)
    (order : OrderIntent) : Prop where
  size : order.positionBefore.size = openSize cfg.symbol (fillsOf before)
  decided : ∃ lastScore, decideOrder cfg order.positionBefore signal lastScore = some order

/-- An order is decided when a signal comes, on what the fills that came before it have left
open. -/
theorem decidedOn_of_mem {cfg : Config} {inputs : List PositionInput} {order : OrderIntent}
    (h : order ∈ (emit (step cfg) {} inputs).1) :
    ∃ before signal rest, inputs = before ++ .signal signal :: rest ∧
      DecidedOn cfg before signal order := by
  obtain ⟨before, input, rest, rfl, horder⟩ := mem_emit_iff.mp h
  cases input with
  | fill fill => cases horder
  | signal signal =>
    have hdecided := Option.mem_toList.mp horder
    obtain ⟨side, size, reduceOnly, rfl⟩ := decideOrder_eq_some hdecided
    refine ⟨before, signal, rest, rfl, ?_, _, hdecided⟩
    refine (size_sync ((after cfg before).accounting.markToMarket cfg.symbol
      signal.market.price).2 cfg.symbol (after cfg before).position).trans ?_
    rw [← AccountingEngine.netQuantity_books, AccountingEngine.books_markToMarket, books_after,
      AccountingEngine.netQuantity_books]
    rfl

end PositionLoop

/-! ## The pipeline -/

namespace Pipeline

open Concurrency.Network (Quiet)

/-- The fill an update reports, as the position is told of it. -/
def fillOf (payload : Wire.ControlPlaneExecutionUpdate) : Option FillEvent :=
  (Wire.handleUpdate payload).2.map (·.forPosition)

/-- The fills the control plane has reported. -/
def reported (trace : Trace) : List FillEvent :=
  (entered Chan.executionFeed trace).filterMap fillOf

variable {setup : Setup} {trace : Trace} {x : Moment Task Chan Msg State}

theorem emitted_fill (setup : Setup) (trace : Trace) :
    (network setup).emitted .external .fill trace =
      (taken Chan.executionFeed trace).filterMap fillOf := by
  rw [Network.taken_eq (network setup), List.filterMap_filterMap,
    List.filterMap_eq_flatMap_toList, ← List.map_id (Network.emitted _ _ _ _)]
  refine Network.emitted_map (fun s r => ?_) trace
  obtain ⟨env, c, m⟩ := r
  cases c with
  | executionFeed =>
    have hsent : (react setup .external s (env, ⟨.executionFeed, m⟩)).1 =
        (⟨.controllerExec, (Wire.handleUpdate m).1⟩ ::
          (Wire.handleUpdate m).2.toList.flatMap fillSends).flatMap fun m => [m] := rfl
    show List.map id ((react setup .external s (env, ⟨.executionFeed, m⟩)).1.filterMap _) =
      (fillOf m).toList
    rw [hsent, fillOf]
    cases (Wire.handleUpdate m).2 <;> rfl
  | _ => rfl

/-- What the position has heard. -/
def heardBy (setup : Setup) (trace : Trace) : List PositionInput :=
  ((network setup).received .position trace).filterMap positionInput

theorem fillsOf_heardBy (setup : Setup) (trace : Trace) :
    fillsOf (heardBy setup trace) = taken .fill trace := by
  rw [Network.taken_eq (network setup), fillsOf, heardBy, List.filterMap_filterMap]
  refine congrArg (List.filterMap · _) (funext fun r => ?_)
  obtain ⟨env, c, m⟩ := r
  cases c <;> rfl

theorem state_position (h : (network setup).Run trace x) :
    x.state .position = PositionLoop.after setup.cfg.toConfig (heardBy setup trace) := by
  rw [h.accounts.state]
  show (emit (listen positionInput (PositionLoop.step setup.cfg.toConfig) (sendOn .intent)) _ _).2 =
    _
  rw [emit_listen]
  rfl

theorem emitted_intent (setup : Setup) (trace : Trace) :
    (network setup).emitted .position .intent trace =
      (emit (PositionLoop.step setup.cfg.toConfig) {} (heardBy setup trace)).1 := by
  show (emit (listen positionInput (PositionLoop.step setup.cfg.toConfig)
    (sendOn .intent)) _ _).1.filterMap (on .intent) = _
  rw [emit_listen, filterMap_sendOn]
  rfl

/-- The position takes fills that were reported, in order. -/
theorem taken_fill_sublist (h : (network setup).Run trace x) :
    (taken Chan.fill trace).Sublist (reported trace) := by
  have hsome := h.taken_sublist (c := .fill) rfl
  rw [emitted_fill] at hsome
  have hheard : taken Chan.executionFeed trace <+: entered Chan.executionFeed trace := by
    rw [h.accounts.queued]
    exact List.prefix_append _ _
  exact hsome.trans (hheard.filterMap _).sublist

theorem books_position (h : (network setup).Run trace x) :
    (x.state .position).accounting.books = (ledgerOf (taken .fill trace)).books := by
  rw [state_position h, PositionLoop.books_after, fillsOf_heardBy]

/-- The net position is that of the fills taken. -/
theorem netQuantity_position (h : (network setup).Run trace x) {lotSize : ℚ}
    (hsize : dust < lotSize)
    (hwhole : ∀ fill ∈ taken Chan.fill trace, WholeLots lotSize fill.filledSize)
    (symbol : String) :
    ((x.state .position).accounting.positionExposure symbol).netQuantity =
      signedFills symbol ((taken Chan.fill trace).map (·.ledgerEntry)) := by
  have hentries : ∀ entry ∈ (taken Chan.fill trace).map (·.ledgerEntry),
      WholeLots lotSize entry.quantity := by
    intro entry hentry
    obtain ⟨fill, hfill, rfl⟩ := List.mem_map.mp hentry
    exact hwhole fill hfill
  rw [← AccountingEngine.netQuantity_books, books_position h, AccountingEngine.netQuantity_books]
  exact AccountingEngine.netQuantity_applyFills .fifo hsize hentries symbol

/-- What becomes of the fills in a run. -/
structure Booked (setup : Setup) (trace : Trace) (x : Moment Task Chan Msg State) : Prop where
  ordered : (taken Chan.fill trace).Sublist (reported trace)
  books : (x.state .position).accounting.books = (ledgerOf (taken .fill trace)).books
  heard : fillsOf (heardBy setup trace) = taken Chan.fill trace
  decided : ∀ order ∈ entered Chan.intent trace, ∃ before signal rest,
    heardBy setup trace = before ++ .signal signal :: rest ∧
      PositionLoop.DecidedOn setup.cfg.toConfig before signal order

/-- In every run the position books fills the control plane has reported, in order and none
twice, and decides each order at a signal, on what the fills it has heard of by then leave
open. -/
theorem booked (setup : Setup) (trace : Trace) (x : Moment Task Chan Msg State)
    (h : (network setup).Run trace x) : Booked setup trace x where
  ordered := taken_fill_sublist h
  books := books_position h
  heard := fillsOf_heardBy setup trace
  decided order horder := by
    have hsent := h.accounts.waited .intent .position rfl rfl
    have hemitted : order ∈ (network setup).emitted .position .intent trace :=
      hsent ▸ List.mem_append_left _ horder
    rw [emitted_intent] at hemitted
    exact PositionLoop.decidedOn_of_mem hemitted

/-- At rest, with no fill refused, the position has booked all that was reported. -/
theorem taken_fill_of_quiet (h : (network setup).Run trace x) (hquiet : Quiet x)
    (hkept : ∀ fill, .drop Chan.fill fill ∉ trace) : taken Chan.fill trace = reported trace := by
  have hfeed := h.accounts.queued Chan.executionFeed
  rw [hquiet.queue, List.append_nil] at hfeed
  rw [h.taken_of_kept hquiet (c := .fill) rfl hkept, emitted_fill, reported, hfeed]

/-- At rest, if no fill was refused for want of room, the pipeline has the same position in
every symbol as the control plane that applied these fills. -/
theorem positions_agree (setup : Setup) (trace : Trace) (x : Moment Task Chan Msg State)
    (h : (network setup).Run trace x) (hquiet : Quiet x)
    (hkept : ∀ fill, .drop Chan.fill fill ∉ trace) {env : ControlPlane.Env}
    {plane : ControlPlane.Plane} {lotSize : ℚ} (hsize : dust < lotSize)
    (hwhole : ∀ fill ∈ reported trace, WholeLots lotSize fill.filledSize)
    (happlied : Wire.FillRun env ((reported trace).map (·.ledgerEntry)) plane)
    (symbol : String) :
    ((x.state .position).accounting.positionExposure symbol).netQuantity =
      (plane.store.position symbol).size := by
  have hentries : ∀ entry ∈ (reported trace).map (·.ledgerEntry),
      WholeLots lotSize entry.quantity := by
    intro entry hentry
    obtain ⟨fill, hfill, rfl⟩ := List.mem_map.mp hentry
    exact hwhole fill hfill
  have htaken := taken_fill_of_quiet h hquiet hkept
  rw [netQuantity_position h hsize (htaken ▸ hwhole), htaken]
  exact (happlied.position hsize hentries symbol).symm

/-! ## One fill -/

def filledEntry : Wire.ControlPlaneLedgerEntry where
  orderId := "ord-1"
  fillId := "f1"
  price := 100
  quantity := 1
  liquidityFlag := "TAKER"
  feeAmount := 0
  feeAsset := "USDT"
  rebateAmount := 0
  fundingAmount := 0
  eventTimeUnixMs := 12

def filledEvent : Wire.ControlPlaneExecutionEvent where
  slippageReal := 0
  partialFillRatio := 1
  competitionFlag := none
  latencyBreakdown := ⟨0, 0, 0, 0, 0⟩

/-- The accepted order, filled. -/
def filled : Wire.ControlPlaneExecutionUpdate :=
  { accepted with ledger := some filledEntry, execution := some filledEvent }

def filledFill : Wire.FillEvent := Wire.fillView filled filledEntry filledEvent

/-- The controllers, the truth and the position hear of it. -/
def filledTrace : Trace :=
  [.arrive .executionFeed filled, .receive .executionFeed filled default,
    .enqueue .controllerExec (Wire.controllerView filled),
    .enqueue .truthFill (truthFill filledFill), .enqueue .fill filledFill.forPosition,
    .receive .controllerExec (Wire.controllerView filled) default,
    .receive .truthFill (truthFill filledFill) default,
    .receive .fill filledFill.forPosition default]

theorem run_filled : ∃ x, (network shipped).Run filledTrace x ∧ Quiet x := by
  refine ⟨_, ((((((((Network.Run.init.step (.arrive _ rfl)).step (.receive default rfl rfl)).step
    (.enqueue (t := .external) rfl (by decide))).step
    (.enqueue (t := .external) rfl (by decide))).step
    (.enqueue (t := .external) rfl (by decide))).step (.receive default rfl rfl)).step
    (.receive default rfl rfl)).step (.receive default rfl rfl)), ?_⟩
  constructor
  · intro t
    cases t <;> rfl
  · intro c
    cases c <;> rfl

/-- After the fill a quote comes through to its decision. -/
theorem run_served : ∃ more x, (network shipped).Run (filledTrace ++ shown ++ more) x ∧
    taken Chan.decision (filledTrace ++ shown ++ more) ≠ [] := by
  have hfilled := ((((((((Network.Run.init (N := network shipped)).step
    (.arrive (c := .executionFeed) filled rfl)).step
    (.receive (c := .executionFeed) (m := filled) default rfl rfl)).step
    (.enqueue (t := .external) (c := .controllerExec) (m := Wire.controllerView filled) rfl
      (by decide))).step
    (.enqueue (t := .external) (c := .truthFill) (m := truthFill filledFill) rfl
      (by decide))).step
    (.enqueue (t := .external) (c := .fill) (m := filledFill.forPosition) rfl (by decide))).step
    (.receive (c := .controllerExec) (m := Wire.controllerView filled) default rfl rfl)).step
    (.receive (c := .truthFill) (m := truthFill filledFill) default rfl rfl)).step
    (.receive (c := .fill) (m := filledFill.forPosition) default rfl rfl)
  have hfanout := (((hfilled.step
    (.arrive (c := .feed) (quote 10 100 101) rfl)).step
    (.receive (c := .feed) (m := quote 10 100 101) default rfl rfl)).step
    (.enqueue (t := .ingestion) (c := .update) (m := quotedUpdate) rfl (by decide))).step
    (.receive (c := .update) (m := quotedUpdate) default rfl rfl)
  have hframed := (((hfanout.step
    (.enqueue (t := .fanout) (c := .microUpdate) (m := quotedUpdate) rfl (by decide))).step
    (.enqueue (t := .fanout) (c := .truthMarket) (m := quotedUpdate) rfl (by decide))).step
    (.enqueue (t := .fanout) (c := .controllerMarket) (m := quotedUpdate) rfl (by decide))).step
    (.receive (c := .microUpdate) (m := quotedUpdate) default rfl rfl)
  obtain ⟨more, x, hrun, -, hquiet⟩ :=
    hframed.drains (leadsDown shipped) (by decide) (descends shipped)
  exact ⟨more, x, hrun, decided_of_framed hrun hquiet (List.cons_ne_nil _ _)⟩

theorem booked_filled : ∃ x, Booked shipped filledTrace x := by
  obtain ⟨x, hrun, -⟩ := run_filled
  exact ⟨x, booked shipped filledTrace x hrun⟩

/-- The control plane with the order stored, and then filled. -/
def placed : ControlPlane.Plane :=
  { ControlPlane.Desk.plane with
    store := .updateOrder 1 (Wire.turnOrder "ord-1" .buy 1) .newStore }

def settled : ControlPlane.Plane :=
  { placed with
    store := (placed.store.applyExternalFill 2 "ord-1" (Wire.turnFill "ord-1" "f1" .buy 1)
      (Wire.turnEvent "ord-1")).2 }

theorem applied_settled :
    Wire.FillRun ControlPlane.Desk.env ((reported filledTrace).map (·.ledgerEntry)) settled := by
  have hstart : Wire.FillRun ControlPlane.Desk.env [] ControlPlane.Desk.plane := .start rfl
  have hplaced : Wire.FillRun ControlPlane.Desk.env [] placed :=
    hstart.call (o := .updateOrder (Wire.turnOrder "ord-1" .buy 1)) (r := ()) (by simp)
      ⟨1, rfl, rfl⟩
  have hfound : (placed.store.orders.lookup (placed.store.resolve "ord-1")).any fun o =>
      decide (o.symbol = "BTCUSDT" ∧ o.side = .buy) := by decide +kernel
  obtain ⟨order, horder, hsides⟩ := (Option.any_eq_true _ _).mp hfound
  obtain ⟨hsymbol, hside⟩ := of_decide_eq_true hsides
  have happlied : Wire.FillRun ControlPlane.Desk.env
      ([] ++ [filledFill.forPosition.ledgerEntry]) settled :=
    hplaced.fill horder hsymbol hside rfl ⟨2, rfl, rfl⟩
  exact happlied

theorem positions_agree_filled : ∃ x : Moment Task Chan Msg State,
    ((x.state .position).accounting.positionExposure "BTCUSDT").netQuantity =
      (settled.store.position "BTCUSDT").size := by
  obtain ⟨x, hrun, hquiet⟩ := run_filled
  refine ⟨x, positions_agree shipped filledTrace x hrun hquiet (fun fill => ?_)
    (show dust < (1 : ℚ) by norm_num [dust]) (fun fill hfill => ?_) applied_settled "BTCUSDT"⟩
  · simp [filledTrace]
  · obtain rfl : fill = filledFill.forPosition := List.mem_singleton.mp hfill
    exact ⟨1, by norm_num, show (1 : ℚ) = (1 : ℕ) * 1 by norm_num⟩

end Pipeline

end RealTimeTrading.Rtts
