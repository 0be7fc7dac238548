/-
RealTimeTrading.Wire.FillViews — the two views of a fill: `handle_update`
of `execution_external.rs`.

From one update it makes an event for the controllers and a fill event for
the position. What remains of the order is its size less all that was
filled in the first, and its size less this fill in the second; that the
order is complete is its status in the first, and the ratio of the
execution event in the second. `Meets` is when the two say the same.
-/
import RealTimeTrading.ControlPlane.PositionLimit
import RealTimeTrading.ControlPlane.Reported
import RealTimeTrading.Rtts.Accounting.Latency
import RealTimeTrading.Rtts.PositionLoop
import RealTimeTrading.Wire.ExecutionJson

namespace RealTimeTrading.Wire

open RealTimeTrading.Data
open ControlPlane (ExecutionUpdate FillLedgerEntry ExecutionEvent Env Plane PlaneEntry PlaneConfig
  PlaneRun Store executionUpdate)
open Rtts (ExecutionControllerEvent CompetitionFlag ExecutionMode MarketRegime)

/-! ## Fill events -/

structure ExecutionTruth where
  requestTimestamp : Nat
  sendTimestamp : Nat
  ackTimestamp : Nat
  exchangeAcceptTimestamp : Nat
  firstFillTimestamp : Nat
  lastFillTimestamp : Nat
  partialFillRatio : ℚ
  cancelReason : Option String
  rejectReason : Option String
  spreadAtExecution : ℚ
  queueDelayUs : Nat
  simulated : Bool

/-- All of a `FillEvent` that `handle_update` does not leave at its default. -/
structure FillEvent where
  orderId : String
  fillId : String
  symbol : String
  side : Rtts.Side
  size : ℚ
  price : ℚ
  requestedPrice : ℚ
  filledSize : ℚ
  remainingSize : ℚ
  liquidityFlag : Rtts.Accounting.LiquidityFlag
  fee : ℚ
  feeAsset : String
  rebateAmount : ℚ
  fundingAmount : ℚ
  timestamp : Nat
  latencyUs : Nat
  latencyBreakdown : Rtts.Accounting.LatencyBreakdown
  expectedMarkout : ℚ
  expectedSlippageBps : ℚ
  actualSlippageBps : ℚ
  competitionFlag : CompetitionFlag
  executionMode : ExecutionMode
  regime : MarketRegime
  complete : Bool
  truth : ExecutionTruth

/-- What the position loop reads of it. -/
def FillEvent.forPosition (fill : FillEvent) : Rtts.FillEvent :=
  { orderId := fill.orderId
    fillId := fill.fillId
    symbol := fill.symbol
    side := fill.side
    price := fill.price
    filledSize := fill.filledSize
    liquidityFlag := fill.liquidityFlag
    fee := fill.fee
    feeAsset := fill.feeAsset
    rebateAmount := fill.rebateAmount
    fundingAmount := fill.fundingAmount
    timestamp := fill.timestamp
    truth := { lastFillTimestamp := fill.truth.lastFillTimestamp } }

/-! ## handle_update -/

def parseSide : String → Rtts.Side
  | "SELL" => .sell
  | _ => .buy

def parseLiquidityFlag : String → Rtts.Accounting.LiquidityFlag
  | "MAKER" => .maker
  | _ => .taker

def inferExecutionMode (price : Option ℚ) : ExecutionMode :=
  if price.isSome then .passive else .aggressive

def controllerView (payload : ControlPlaneExecutionUpdate) : ExecutionControllerEvent :=
  { orderId := payload.order.id.getD ""
    idempotencyKey := payload.order.idempotencyKey
    symbol := payload.order.symbol
    status := parseOrderStatus (payload.order.status.getD "NEW")
    filledQtyDelta := (payload.ledger.map (·.quantity)).getD 0
    cumulativeFilledQty := payload.order.filled.getD 0
    remainingQty := max (payload.order.size - payload.order.filled.getD 0) 0
    partialFillRatio := (payload.execution.map (·.partialFillRatio)).getD
      (payload.order.filled.getD 0 / max payload.order.size 1e-9)
    slippageBps := (payload.execution.map (·.slippageReal)).getD 0
    competitionFlag := parseCompetitionFlag (payload.execution.bind (·.competitionFlag))
    latencyUs := (payload.execution.map (·.latencyBreakdown.fullFillLatency / 1000)).getD 0
    eventTs := nonNegativeMs (max payload.lastFillTimestampMs payload.ackTimestampMs) }

def fillView (payload : ControlPlaneExecutionUpdate) (ledger : ControlPlaneLedgerEntry)
    (execution : ControlPlaneExecutionEvent) : FillEvent :=
  { orderId := ledger.orderId
    fillId := ledger.fillId
    symbol := payload.order.symbol
    side := parseSide payload.order.side
    size := payload.order.size
    price := ledger.price
    requestedPrice := payload.order.price.getD ledger.price
    filledSize := ledger.quantity
    remainingSize := max (payload.order.size - ledger.quantity) 0
    liquidityFlag := parseLiquidityFlag ledger.liquidityFlag
    fee := ledger.feeAmount
    feeAsset := ledger.feeAsset
    rebateAmount := ledger.rebateAmount
    fundingAmount := ledger.fundingAmount
    timestamp := nonNegativeMs ledger.eventTimeUnixMs
    latencyUs := execution.latencyBreakdown.fullFillLatency / 1000
    latencyBreakdown :=
      { decisionLatencyUs := execution.latencyBreakdown.decisionLatency / 1000
        sendLatencyUs := execution.latencyBreakdown.sendLatency / 1000
        ackLatencyUs := execution.latencyBreakdown.ackLatency / 1000
        firstFillLatencyUs := execution.latencyBreakdown.firstFillLatency / 1000
        fullFillLatencyUs := execution.latencyBreakdown.fullFillLatency / 1000 }
    expectedMarkout := payload.expectedRealizedMarkout.getD 0
    expectedSlippageBps := 0
    actualSlippageBps := execution.slippageReal
    competitionFlag := parseCompetitionFlag execution.competitionFlag
    executionMode := inferExecutionMode payload.order.price
    regime :=
      { volatility := payload.regimeVolatility.getD 0
        spread := payload.regimeSpread.getD 0
        trendStrength := payload.regimeTrendStrength.getD 0 }
    complete := decide (0.999 ≤ execution.partialFillRatio)
    truth :=
      { requestTimestamp := nonNegativeMs payload.requestTimestampMs
        sendTimestamp := nonNegativeMs payload.sendTimestampMs
        ackTimestamp := nonNegativeMs payload.ackTimestampMs
        exchangeAcceptTimestamp := nonNegativeMs payload.ackTimestampMs
        firstFillTimestamp := nonNegativeMs payload.firstFillTimestampMs
        lastFillTimestamp := nonNegativeMs payload.lastFillTimestampMs
        partialFillRatio := execution.partialFillRatio
        cancelReason := none
        rejectReason := none
        spreadAtExecution := 0
        queueDelayUs := execution.latencyBreakdown.firstFillLatency / 1000
        simulated := false } }

/-- What is sent to the controllers, and to the position if there is a fill. -/
def handleUpdate (payload : ControlPlaneExecutionUpdate) :
    ExecutionControllerEvent × Option FillEvent :=
  (controllerView payload,
    match payload.ledger, payload.execution with
    | some ledger, some execution => some (fillView payload ledger execution)
    | _, _ => none)

/-- What comes of an update the control plane emits. -/
def handled (update : ExecutionUpdate) : Option (ExecutionControllerEvent × Option FillEvent) :=
  (decodeUpdate (encodeUpdate update)).map handleUpdate

/-! ## One fill -/

/-- A fill event is built, with what remains as the controllers have it, and
complete exactly when the order is filled. -/
def ViewsAgree (update : ExecutionUpdate) : Prop :=
  ∃ event fill, handled update = some (event, some fill) ∧
    fill.remainingSize = event.remainingQty ∧
    (fill.complete = true ↔ update.order.status = .filled)

/-- The update is read; the fill is the first of its order, or covers the
order alone; and the ratio it comes with is that of a filled order exactly
when the order is then filled. -/
structure Meets (order : ControlPlane.Order) (ledger : FillLedgerEntry)
    (execution : ExecutionEvent) : Prop where
  readable : LatencyBreakdown.readable execution.latencyBreakdown = true
  remaining : order.filled = 0 ∨
    (order.size ≤ ledger.quantity ∧ order.size ≤ order.filled + ledger.quantity)
  complete : 0.999 ≤ execution.partialFillRatio ↔ order.size ≤ order.filled + ledger.quantity

theorem remaining_eq_iff (size filled quantity : ℚ) :
    max (size - quantity) 0 = max (size - (filled + quantity)) 0 ↔
      filled = 0 ∨ (size ≤ quantity ∧ size ≤ filled + quantity) := by
  constructor
  · intro h
    rcases le_or_gt size quantity with hle | hlt
    · rw [max_eq_right (sub_nonpos.mpr hle)] at h
      exact .inr ⟨hle, sub_nonpos.mp (max_eq_right_iff.mp h.symm)⟩
    · rw [max_eq_left (sub_pos.mpr hlt).le] at h
      have hpos : 0 < max (size - (filled + quantity)) 0 := h ▸ sub_pos.mpr hlt
      rw [max_eq_left ((lt_max_iff.mp hpos).resolve_right (lt_irrefl 0)).le] at h
      exact .inl (by linarith)
  · rintro (rfl | ⟨hle, hle'⟩)
    · rw [zero_add]
    · rw [max_eq_right (sub_nonpos.mpr hle), max_eq_right (sub_nonpos.mpr hle')]

theorem viewsAgree_iff {update : ExecutionUpdate} {ledger : FillLedgerEntry}
    {execution : ExecutionEvent} (hledger : update.ledger = some ledger)
    (hexecution : update.execution = some execution) :
    ViewsAgree update ↔ LatencyBreakdown.readable execution.latencyBreakdown = true ∧
      max (update.order.size - ledger.quantity) 0 =
        max (update.order.size - update.order.filled) 0 ∧
      (0.999 ≤ execution.partialFillRatio ↔ update.order.status = .filled) := by
  have hread : Readable update ↔
      LatencyBreakdown.readable execution.latencyBreakdown = true := by
    simp [Readable, hexecution]
  unfold ViewsAgree handled
  rw [decodeUpdate_encodeUpdate]
  by_cases h : Readable update
  · have hhandled : handleUpdate (receivedUpdate update) =
        (controllerView (receivedUpdate update), some (fillView (receivedUpdate update)
          (receivedLedgerEntry ledger) (receivedEvent execution))) := by
      simp only [handleUpdate, receivedUpdate, hledger, hexecution, Option.map_some]
    rw [if_pos h, Option.map_some, hhandled]
    constructor
    · rintro ⟨event, fill, hsome, hremaining, hcomplete⟩
      obtain ⟨rfl, hfill⟩ := Prod.mk.inj (Option.some.inj hsome)
      obtain rfl := Option.some.inj hfill
      exact ⟨hread.mp h, hremaining, decide_eq_true_iff.symm.trans hcomplete⟩
    · rintro ⟨-, hremaining, hcomplete⟩
      exact ⟨_, _, rfl, hremaining, decide_eq_true_iff.trans hcomplete⟩
  · rw [if_neg h]
    refine iff_of_false ?_ fun hagree => h (hread.mpr hagree.1)
    rintro ⟨event, fill, hsome, -⟩
    cases hsome

/-- The update on a fill: the views agree exactly if the fill meets the order. -/
theorem viewsAgree_fill {update : ExecutionUpdate} {ledger : FillLedgerEntry}
    {execution : ExecutionEvent} {order : ControlPlane.Order} {now : ControlPlane.Time}
    (hledger : update.ledger = some ledger) (hexecution : update.execution = some execution)
    (horder : update.order = Store.fillOrder now ledger execution order) :
    ViewsAgree update ↔ Meets order ledger execution := by
  have hstatus : (Store.fillOrder now ledger execution order).status = .filled ↔
      order.size ≤ order.filled + ledger.quantity := by
    unfold Store.fillOrder
    dsimp only
    split
    · simp [*]
    · simp [*]
  have hremaining := remaining_eq_iff order.size order.filled ledger.quantity
  rw [viewsAgree_iff hledger hexecution, horder, hstatus]
  constructor
  · rintro ⟨hread, hsame, hcomplete⟩
    exact ⟨hread, hremaining.mp hsame, hcomplete⟩
  · rintro ⟨hread, hfirst, hcomplete⟩
    exact ⟨hread, hremaining.mpr hfirst, hcomplete⟩

/-! ## Runs -/

section Run

variable {env : Env} {p₀ : Plane} {tr : List PlaneEntry} {c : PlaneConfig}

/-- The update is emitted in this trace. -/
def Announced (tr : List PlaneEntry) (update : ExecutionUpdate) : Prop :=
  ∃ e ∈ tr, e.event.1 = .emit (.executionUpdate update)

/-- An update on an applied fill has the order as the fill left it. -/
theorem on_fillOrder (hrun : PlaneRun env p₀ tr c) {e : PlaneEntry} (he : e ∈ tr)
    {update : ExecutionUpdate} {id : ControlPlane.OrderID} {ledger : FillLedgerEntry}
    {execution : ExecutionEvent} (h : update.On e id ledger execution) :
    ∃ now order, e.pre.store.orders.lookup (e.pre.store.resolve id) = some order ∧
      update.order = Store.fillOrder now ledger execution order := by
  have hsem := ControlPlane.run_sem hrun he
  obtain ⟨position, hevent⟩ := h.event
  rw [hevent] at hsem
  rcases ControlPlane.sem_applyExternalFill hsem with
    ⟨hrefused, -⟩ | ⟨-, now, order, ho, hfilled, -⟩
  · exact absurd rfl hrefused
  · exact ⟨now, order, ho, hfilled⟩

/-- In every run, the views of all fills that are announced agree exactly if
each of these fills met the order it was applied to. -/
theorem fills_agree_iff (hrun : PlaneRun env p₀ tr c) :
    (∀ update, Announced tr update → ¬ update.Bare → ViewsAgree update) ↔
      ∀ e ∈ tr, ∀ update id ledger execution order, update.On e id ledger execution →
        Announced tr update →
        e.pre.store.orders.lookup (e.pre.store.resolve id) = some order →
        Meets order ledger execution := by
  constructor
  · intro hagree e he update id ledger execution order hon hannounced horder
    obtain ⟨hledger, hexecution⟩ := hon.records
    have hfill : ¬ update.Bare := fun hbare => by
      rw [hbare.1] at hledger
      cases hledger
    obtain ⟨now, order', horder', hfilled⟩ := on_fillOrder hrun he hon
    obtain rfl := Option.some.inj (horder.symm.trans horder')
    exact (viewsAgree_fill hledger hexecution hfilled).mp (hagree update hannounced hfill)
  · intro hmeets update hannounced hfill
    obtain ⟨e', he', hemit⟩ := hannounced
    obtain ⟨pre, post, hsplit⟩ := List.append_of_mem he'
    obtain ⟨e, he, id, ledger, execution, hon⟩ :=
      (ControlPlane.run_reported hrun hsplit hemit).resolve_left hfill
    have hmem : e ∈ tr := by
      rw [hsplit]
      exact List.mem_append_left _ he
    obtain ⟨hledger, hexecution⟩ := hon.records
    obtain ⟨now, order, horder, hfilled⟩ := on_fillOrder hrun hmem hon
    exact (viewsAgree_fill hledger hexecution hfilled).mpr
      (hmeets e hmem update id ledger execution order hon ⟨e', he', hemit⟩ horder)

end Run

/-! ## Two halves -/

namespace Desk

open ControlPlane (Op Res PaperExchange.exchange playout)
open ControlPlane.Desk (expCubic paperWorld plane request)
open RealTimeTrading.Concurrency (Event)

/-- The update that the event emits. -/
def announcedBy : Event Op Res → Option ExecutionUpdate
  | ⟨.emit (.executionUpdate update), _⟩ => some update
  | _ => none

theorem announcedBy_eq {event : Event Op Res} {update : ExecutionUpdate}
    (h : announcedBy event = some update) : event.1 = .emit (.executionUpdate update) := by
  unfold announcedBy at h
  split at h
  · cases h
    rfl
  · cases h

/-- What a playout against the paper exchange announces, a run announces. -/
theorem paper_announces {req : ControlPlane.ExecutionRequest} {check : ExecutionUpdate → Bool}
    (h : (playout expCubic (paperWorld "id-1") (ControlPlane.submit false req) plane).any
      (fun x => x.1.any fun event => (announcedBy event).any check) = true) :
    ∃ tr p' result, PlaneRun ⟨expCubic, PaperExchange.exchange⟩ plane tr
        ⟨p', [⟨.submit req, .ret result⟩]⟩ ∧
      ∃ update, Announced tr update ∧ check update = true := by
  obtain ⟨⟨log, result, p'⟩, hplay, hany⟩ := (Option.any_eq_true _ _).mp h
  obtain ⟨event, hevent, hannounced⟩ := List.any_eq_true.mp hany
  obtain ⟨update, hupdate, hcheck⟩ := (Option.any_eq_true _ _).mp hannounced
  obtain ⟨tr, hrun, rfl⟩ := ControlPlane.Desk.paper_run hplay
  obtain ⟨e, he, rfl⟩ := List.mem_map.mp hevent
  exact ⟨tr, p', result, hrun, update, ⟨e, he, announcedBy_eq hupdate⟩, hcheck⟩

/-- A fill that leaves less of the order than of its size. -/
def remainsLess (update : ExecutionUpdate) : Bool :=
  update.execution.isSome && update.ledger.any fun ledger =>
    decide (max (update.order.size - update.order.filled) 0 <
      max (update.order.size - ledger.quantity) 0)

/-- The second half of a priced paper order is announced. -/
theorem second_half : ∃ tr p' result, PlaneRun ⟨expCubic, PaperExchange.exchange⟩ plane tr
      ⟨p', [⟨.submit request, .ret result⟩]⟩ ∧
    ∃ update, Announced tr update ∧ remainsLess update = true :=
  paper_announces (by decide +kernel)

theorem remainsLess_disagrees {update : ExecutionUpdate} (h : remainsLess update = true) :
    ¬ update.Bare ∧ ¬ ViewsAgree update := by
  rw [remainsLess, Bool.and_eq_true] at h
  obtain ⟨execution, hexecution⟩ := Option.isSome_iff_exists.mp h.1
  obtain ⟨ledger, hledger, hless⟩ := (Option.any_eq_true _ _).mp h.2
  refine ⟨fun hbare => ?_, fun hagree => ?_⟩
  · rw [hbare.1] at hledger
    cases hledger
  · obtain ⟨-, hsame, -⟩ := (viewsAgree_iff hledger hexecution).mp hagree
    exact absurd hsame (of_decide_eq_true hless).ne'

/-- The position is told of half the order still to come, the controllers of none. -/
theorem fill_views_differ : ¬ ∀ tr c,
    PlaneRun ⟨expCubic, PaperExchange.exchange⟩ plane tr c →
    ∀ update, Announced tr update → ¬ update.Bare → ViewsAgree update := by
  intro h
  obtain ⟨tr, p', result, hrun, update, hannounced, hless⟩ := second_half
  obtain ⟨hfill, hdiffer⟩ := remainsLess_disagrees hless
  exact hdiffer (h tr _ hrun update hannounced hfill)

/-- The same order, seen through the general theorem. -/
theorem fills_agree_iff_halves : ∃ tr c,
    PlaneRun ⟨expCubic, PaperExchange.exchange⟩ plane tr c ∧
    (∃ update, Announced tr update ∧ ¬ update.Bare) ∧
    ((∀ update, Announced tr update → ¬ update.Bare → ViewsAgree update) ↔
      ∀ e ∈ tr, ∀ update id ledger execution order, update.On e id ledger execution →
        Announced tr update →
        e.pre.store.orders.lookup (e.pre.store.resolve id) = some order →
        Meets order ledger execution) := by
  obtain ⟨tr, p', result, hrun, update, hannounced, hless⟩ := second_half
  exact ⟨tr, _, hrun, ⟨update, hannounced, (remainsLess_disagrees hless).1⟩, fills_agree_iff hrun⟩

end Desk

end RealTimeTrading.Wire
