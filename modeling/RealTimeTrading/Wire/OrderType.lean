/-
RealTimeTrading.Wire.OrderType — the type of an order, from the trading
loop to the exchange.

The type is not sent: the request carries a price or none, and the client
of the exchange calls an order with a price a limit order. Every intent
carries a price, and `prepare_execution` leaves it on the orders it makes
market orders, so these arrive as limit orders (`sentType_iff`).
-/
import RealTimeTrading.ControlPlane.BingX.Client
import RealTimeTrading.Rtts.PositionLoop
import RealTimeTrading.Wire.DecisionGate

namespace RealTimeTrading.Wire

open Rtts ControlPlane

/-! ## The client of the exchange -/

/-- The type parameter `PlaceOrder` sends for an order. -/
def sentType (std : BingX.Std) (order : Order) : Option String :=
  (BingX.placeOrderParams std (BingX.sendOrderRequest order)).lookup "type"

theorem placeOrderParams_type (std : BingX.Std) (req : ControlPlane.ExecutionRequest) :
    (BingX.placeOrderParams std req).lookup "type" = some (BingX.orderType req) := by
  have hother : ∀ (m : GoMap String String) (k v : String), "type" ≠ k →
      (m.insert k v).lookup "type" = m.lookup "type" := fun m k v hk => AList.lookup_insert_ne hk
  have hbase : ∀ m : GoMap String String,
      (((m.insert "type" (BingX.orderType req)).insert "quantity" (std.trimFloat req.size)).insert
        "clientOrderId" req.idempotencyKey).lookup "type" = some (BingX.orderType req) := by
    intro m
    rw [hother _ _ _ (by decide), hother _ _ _ (by decide), AList.lookup_insert]
  have hpriced : ∀ m : GoMap String String, m.lookup "type" = some (BingX.orderType req) →
      (if req.reduceOnly then m.insert "reduceOnly" "true" else m).lookup "type" =
        some (BingX.orderType req) := by
    intro m hm
    split
    · rw [hother _ _ _ (by decide), hm]
    · exact hm
  unfold BingX.placeOrderParams
  dsimp only
  refine hpriced _ ?_
  split
  · rw [hother _ _ _ (by decide), hother _ _ _ (by decide), hbase]
  · exact hbase _

/-- An order goes out as a market order if it has no price. -/
theorem sentType_market_iff (std : BingX.Std) (order : Order) :
    sentType std order = some "MARKET" ↔ order.price = none := by
  rw [sentType, placeOrderParams_type]
  unfold BingX.orderType BingX.sendOrderRequest
  cases order.price with
  | none => simp
  | some price => simp

/-! ## Preparing the order -/

/-- How likely `prepare_execution` takes the intent to fill. -/
def fillClass (profile : SymbolProfile) (order : OrderIntent) : FillProbabilityClass :=
  FillProbabilityModel.classify order (QueuePositionEngine.estimate order profile)

/-- The order may rest in the book: nothing calls for a defensive or an
aggressive execution. -/
structure Rests (profile : SymbolProfile) (order : OrderIntent) : Prop where
  opening : order.request.reduceOnly = false
  regime : order.context.regime ≠ .newsShock
  flow : order.flow.signal ≠ .reversalRisk
  timing : order.timing.signal ≠ .missed
  urgency : order.urgency ≤ 0.70
  duration : 160 ≤ order.expectedDurationMs
  queue : ¬ (fillClass profile order = .lowFill ∧ order.flow.signal = .strongContinuation)

theorem choose_passive_iff (order : OrderIntent) (fill : FillProbabilityClass) :
    ExecutionModeSwitch.choose order fill = .passive ↔
      ¬ (order.request.reduceOnly = true ∨ order.context.regime = .newsShock ∨
          order.flow.signal = .reversalRisk ∨ order.timing.signal = .missed) ∧
        ¬ (0.70 < order.urgency ∨ order.expectedDurationMs < 160 ∨
          (fill = .lowFill ∧ order.flow.signal = .strongContinuation)) := by
  unfold ExecutionModeSwitch.choose
  split
  · rename_i hdefensive
    exact iff_of_false (by simp) fun h => h.1 hdefensive
  · rename_i hcalm
    split
    · rename_i hurgent
      exact iff_of_false (by simp) fun h => h.2 hurgent
    · rename_i hpatient
      exact iff_of_true rfl ⟨hcalm, hpatient⟩

theorem rests_iff (profile : SymbolProfile) (order : OrderIntent) :
    Rests profile order ↔
      ExecutionModeSwitch.choose order (fillClass profile order) = .passive := by
  rw [choose_passive_iff]
  simp only [not_or, Bool.not_eq_true, not_lt]
  constructor
  · intro h
    exact ⟨⟨h.opening, h.regime, h.flow, h.timing⟩, h.urgency, h.duration, h.queue⟩
  · rintro ⟨⟨hopening, hregime, hflow, htiming⟩, hurgency, hduration, hqueue⟩
    exact ⟨hopening, hregime, hflow, htiming, hurgency, hduration, hqueue⟩

/-- The prepared order is a market order unless it is to rest. -/
theorem prepareExecution_orderType (profile : SymbolProfile) (order : OrderIntent) :
    (prepareExecution profile order).request.orderType = .market ↔ ¬ Rests profile order := by
  rw [rests_iff]
  unfold prepareExecution fillClass
  dsimp only
  generalize ExecutionModeSwitch.choose order _ = mode
  cases mode <;> simp

/-- Preparing an order does not take its price away. -/
theorem prepareExecution_price (profile : SymbolProfile) {order : OrderIntent}
    (h : order.request.price.isSome = true) :
    (prepareExecution profile order).request.price.isSome = true := by
  unfold prepareExecution
  dsimp only
  generalize ExecutionModeSwitch.choose order _ = mode
  cases mode with
  | passive => rfl
  | aggressive => exact h
  | defensive => exact h

/-! ## From the intent to the exchange -/

/-- A submission that is posted carries the prepared order. -/
theorem posted_price {cfg : Config} {now now' : Nat} {order : OrderIntent} {key : String}
    {profile profile' : SymbolProfile} {request : ControlPlaneExecutionRequest}
    (h : handleInstruction cfg now now' (.submit order key) profile =
      (some (.request request), profile')) :
    request.price = (prepareExecution profile' order).request.price := by
  simp only [handleInstruction] at h
  split at h
  · cases h
  · split at h
    · cases h
    · split at h
      · cases h
      · cases h
        rfl

/-- For every intent of the loop that is submitted: the order is sent with the
type that was chosen for it exactly if it is one to rest in the book. -/
theorem sentType_iff {cfg runCfg : Config} {position : Rtts.Position} {signal : ScoredDecision}
    {intended : OrderIntent} (hintent : IsIntent cfg position signal intended)
    {metaDecision : Option MetaDecision} {profile profile' : SymbolProfile} {key : String}
    {now now' : Nat} {request : ControlPlaneExecutionRequest}
    (hpost : handleInstruction runCfg now now'
      (.submit { intended with metaDecision := metaDecision } key) profile =
        (some (.request request), profile'))
    {order : Order} (hprice : order.price = (decode request).price) (std : BingX.Std) :
    (sentType std order = some "MARKET" ↔
        (prepareExecution profile'
          { intended with metaDecision := metaDecision }).request.orderType = .market) ↔
      Rests profile' { intended with metaDecision := metaDecision } := by
  obtain ⟨side, size, reduceOnly, rfl⟩ := hintent
  have hpriced := prepareExecution_price profile'
    (show ({ intent cfg side size reduceOnly signal position with
      metaDecision := metaDecision } : OrderIntent).request.price.isSome = true from rfl)
  rw [← posted_price hpost] at hpriced
  have hlimit : ¬ sentType std order = some "MARKET" := by
    rw [sentType_market_iff, hprice]
    intro hnone
    rw [show request.price = none from hnone] at hpriced
    cases hpriced
  rw [prepareExecution_orderType, iff_false_left hlimit, not_not]

/-! ## A market order sent as a limit order -/

namespace Hurried

/-- An entry that has to be done within 100 ms. -/
def order : OrderIntent := intent {} .buy 1 false Rtts.Desk.calmSignal {}

def profile : SymbolProfile := { symbol := "BTCUSDT" }

def posted : Option Post × SymbolProfile :=
  handleInstruction {} 1060 1061 (.submit order "cid-1") profile

/-- The request it is posted as. -/
def request : ControlPlaneExecutionRequest :=
  submitRequest (prepareExecution posted.2 order) "cid-1"
    (expectedRealMarkoutAfterCost .initial order) 1060

theorem handled : handleInstruction {} 1060 1061
    (.submit { order with metaDecision := none } "cid-1") profile =
      (some (.request request), posted.2) :=
  Prod.ext (by decide +kernel : posted.1 = some (.request request)) rfl

/-- The order the gateway makes of it, as it reaches the exchange client. -/
def sent : Order := requestOrder "id-1" 0 0 (decode request)

/-- The order was prepared as a market order and goes out as a limit order. -/
theorem market_sent_as_limit : ¬ ∀ (cfg runCfg : Config) (position : Rtts.Position)
    (signal : ScoredDecision) (intended : OrderIntent) (metaDecision : Option MetaDecision)
    (profile profile' : SymbolProfile) (key : String) (now now' : Nat)
    (request : ControlPlaneExecutionRequest) (order : Order) (std : BingX.Std),
    IsIntent cfg position signal intended →
    handleInstruction runCfg now now'
      (.submit { intended with metaDecision := metaDecision } key) profile =
        (some (.request request), profile') →
    order.price = (decode request).price →
    (sentType std order = some "MARKET" ↔
      (prepareExecution profile'
        { intended with metaDecision := metaDecision }).request.orderType = .market) := by
  intro hall
  have hagree := hall {} {} {} Rtts.Desk.calmSignal order none profile posted.2 "cid-1" 1060 1061
    request sent ControlPlane.Desk.std ⟨.buy, 1, false, rfl⟩ handled rfl
  have hmarket := hagree.mpr (by decide +kernel)
  rw [sentType_market_iff] at hmarket
  exact absurd hmarket (by decide +kernel)

theorem sentType_iff_hurried :
    (sentType ControlPlane.Desk.std sent = some "MARKET" ↔
        (prepareExecution posted.2 { order with metaDecision := none }).request.orderType =
          .market) ↔
      Rests posted.2 { order with metaDecision := none } :=
  sentType_iff ⟨.buy, 1, false, rfl⟩ handled rfl ControlPlane.Desk.std

end Hurried

end RealTimeTrading.Wire
