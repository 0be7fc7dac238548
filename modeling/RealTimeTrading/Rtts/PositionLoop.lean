/-
RealTimeTrading.Rtts.PositionLoop — the loop of `position::run`, from
signals and fills to order intents.

The two receivers are one list of inputs, in the order the loop takes
them. An intent always reaches the order channel: where the channel is
full the loop waits for room.
-/
import RealTimeTrading.Concurrency.Emitting
import RealTimeTrading.Rtts.Position

namespace RealTimeTrading.Rtts

open Accounting Concurrency

/-- The part of `ExecutionTruth` the ledger reads. -/
structure ExecutionTruth where
  lastFillTimestamp : Nat

structure FillEvent where
  orderId : String
  fillId : String
  symbol : String
  side : Side
  price : ℚ
  filledSize : ℚ
  liquidityFlag : LiquidityFlag
  fee : ℚ
  feeAsset : String
  rebateAmount : ℚ
  fundingAmount : ℚ
  timestamp : Nat
  truth : ExecutionTruth

/-- `FillLedgerEntry::from`. -/
def FillEvent.ledgerEntry (fill : FillEvent) : FillLedgerEntry :=
  { orderId := fill.orderId
    fillId := fill.fillId
    symbol := fill.symbol
    side := fill.side
    price := fill.price
    quantity := fill.filledSize
    liquidityFlag := fill.liquidityFlag
    feeAmount := fill.fee
    feeAsset := fill.feeAsset
    rebateAmount := fill.rebateAmount
    fundingAmount := fill.fundingAmount
    eventTime := max fill.truth.lastFillTimestamp fill.timestamp }

/-- What the loop receives. -/
inductive PositionInput where
  | fill (fill : FillEvent)
  | signal (signal : ScoredDecision)

structure PositionLoop where
  accounting : AccountingEngine := .new .fifo
  position : Position := {}
  lastScore : ℚ := 0
  lastPrice : ℚ := 0

namespace PositionLoop

def onFill (fill : FillEvent) (s : PositionLoop) : PositionLoop :=
  let accounting := (s.accounting.applyFill fill.ledgerEntry).2
  let markPrice := max s.lastPrice fill.price
  let accounting := (accounting.markToMarket fill.symbol markPrice).2
  { s with
    accounting := accounting
    position := syncPositionFromAccounting accounting fill.symbol s.position }

def onSignal (cfg : Config) (signal : ScoredDecision) (s : PositionLoop) :
    Option OrderIntent × PositionLoop :=
  let accounting := (s.accounting.markToMarket cfg.symbol signal.market.price).2
  let position := syncPositionFromAccounting accounting cfg.symbol s.position
  (decideOrder cfg position signal s.lastScore,
    { accounting := accounting
      position := position
      lastScore := signal.score
      lastPrice := signal.market.price })

def step (cfg : Config) (s : PositionLoop) : PositionInput → List OrderIntent × PositionLoop
  | .fill f => ([], onFill f s)
  | .signal d => ((onSignal cfg d s).1.toList, (onSignal cfg d s).2)

/-- The intents sent for these inputs, in order. -/
def run (cfg : Config) (inputs : List PositionInput) : List OrderIntent :=
  (emit (step cfg) {} inputs).1

end PositionLoop

/-! ## What an intent carries -/

/-- What an order is decided as, and when. -/
inductive Decided (cfg : Config) (position : Position) (signal : ScoredDecision) (lastScore : ℚ) :
    OrderIntent → Prop
  | exit {side : Side} {size : ℚ} (hopen : position.isOpen) (hside : position.side = some side)
      (hsize : size = |position.size| ∨ size = reduceSize cfg position signal) :
      Decided cfg position signal lastScore (intent cfg side.opposite size true signal position)
  | entry {side : Side} (hflat : ¬ position.isOpen) (hallowed : allowMicroEntry signal) :
      Decided cfg position signal lastScore
        (intent cfg side (entrySize cfg signal) false signal position)
  | scale {side : Side} (hcan : canScale position signal lastScore side cfg.maxEntries) :
      Decided cfg position signal lastScore
        (intent cfg side (scaleSize cfg position signal) false signal position)

section Decided

variable {cfg : Config} {position : Position} {signal : ScoredDecision} {order : OrderIntent}
  {lastScore : ℚ}

theorem decided_of_exitIntent {size : ℚ}
    (h : exitIntent cfg size signal position = some order) (hopen : position.isOpen)
    (hsize : size = |position.size| ∨ size = reduceSize cfg position signal) :
    Decided cfg position signal lastScore order := by
  obtain ⟨side, hside, rfl⟩ := Option.map_eq_some_iff.mp h
  exact .exit hopen hside hsize

theorem decided_of_decideOrderOn {side : Side}
    (h : decideOrderOn cfg position signal lastScore side = some order) :
    Decided cfg position signal lastScore order := by
  have hscale : (if canScale position signal lastScore side cfg.maxEntries then
      some (intent cfg side (scaleSize cfg position signal) false signal position) else none) =
      some order → Decided cfg position signal lastScore order := by
    intro hsome
    split at hsome
    · rename_i hcan
      obtain rfl := Option.some.inj hsome
      exact .scale hcan
    · cases hsome
  unfold decideOrderOn at h
  dsimp only at h
  cases hdecision : signal.decision with
  | enterSmall =>
    rw [hdecision] at h
    dsimp only at h
    split at h
    · rename_i henter
      obtain rfl := Option.some.inj h
      exact .entry henter.1 henter.2
    · exact hscale h
  | scaleIn =>
    rw [hdecision] at h
    exact hscale h
  | exit =>
    rw [hdecision] at h
    dsimp only at h
    split at h
    · rename_i hopen
      exact decided_of_exitIntent h hopen (.inl rfl)
    · cases h
  | ignore =>
    rw [hdecision] at h
    cases h

/-- The return paths of `decide_order`. -/
theorem decideOrder_decided (h : decideOrder cfg position signal lastScore = some order) :
    Decided cfg position signal lastScore order := by
  unfold decideOrder at h
  split at h
  · rename_i hforced
    exact decided_of_exitIntent h hforced.1 (.inl rfl)
  · split at h
    · rename_i hexit
      exact decided_of_exitIntent h hexit.2 (.inr rfl)
    · split at h
      · exact decided_of_decideOrderOn h
      · exact decided_of_decideOrderOn h
      · cases h

/-- The order is an `intent` for some side and size. -/
def IsIntent (cfg : Config) (position : Position) (signal : ScoredDecision) (order : OrderIntent) :
    Prop :=
  ∃ side size reduceOnly, order = intent cfg side size reduceOnly signal position

theorem decideOrder_eq_some (h : decideOrder cfg position signal lastScore = some order) :
    IsIntent cfg position signal order := by
  cases decideOrder_decided h with
  | exit hopen hside hsize => exact ⟨_, _, _, rfl⟩
  | entry hflat hallowed => exact ⟨_, _, _, rfl⟩
  | scale hcan => exact ⟨_, _, _, rfl⟩

end Decided

/-- An intent is for the symbol of the configuration. -/
theorem PositionLoop.symbol_of_mem_run {cfg : Config} {inputs : List PositionInput}
    {order : OrderIntent} (h : order ∈ PositionLoop.run cfg inputs) :
    order.request.symbol = cfg.symbol := by
  obtain ⟨before, input, after, -, horder⟩ := mem_emit_iff.mp h
  cases input with
  | fill f => cases horder
  | signal d =>
    obtain ⟨side, size, reduceOnly, rfl⟩ := decideOrder_eq_some (Option.mem_toList.mp horder)
    rfl

end RealTimeTrading.Rtts
