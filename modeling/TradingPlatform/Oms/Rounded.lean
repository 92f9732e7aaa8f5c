import TradingPlatform.Oms.Orders
import TradingPlatform.Library.Summation

/-!
# `Oms.Rounded` — the system with its rounding

`Oms.Position` and `Oms.Orders` add and multiply exactly, which is enough for accounts and for the life of an order.
What is compared with a limit is compared after rounding, so here every sum, product and quotient of the source is
rounded where the source rounds it. How is a parameter: `binary64.round` is what the code does, and without rounding
it is the system of the other modules (`step_id`).

Rounding is to the nearest number with 53 digits, without a greatest exponent.
-/

namespace TradingPlatform
namespace Oms

open Market Machine Rounding

/-- The order in which the map visits the positions. -/
structure Iteration where
  visit : List ((String × Exchange) × Position) → List ((String × Exchange) × Position)
  perm  : ∀ positions, (visit positions).Perm positions

/-- What a position counts in the exposure. -/
def Position.exposure (round : ℚ → ℚ) (pos : Position) : ℚ := round (|pos.quantity| * pos.avgEntryPrice)

namespace Rounded

variable (round : ℚ → ℚ) (iteration : Iteration)

/-! ## A fill -/

def newQuantity (pos : Position) (side : Side) (quantity : ℚ) : ℚ := round (pos.quantity + Side.signed quantity side)

/-- The profit of a position that is closed or reversed. -/
def closingPnl (pos : Position) (side : Side) (quantity price : ℚ) : Option ℚ :=
  let oldQuantity := pos.quantity
  let newQuantity := newQuantity round pos side quantity
  if oldQuantity ≠ 0 ∧ signum oldQuantity ≠ signum newQuantity then
    let closedQuantity := if signum newQuantity ≠ signum oldQuantity then |oldQuantity| else quantity
    some (round (round (closedQuantity * round (price - pos.avgEntryPrice)) * signum oldQuantity))
  else none

/-- Quantity and entry price after a fill. -/
def moved (pos : Position) (side : Side) (quantity price : ℚ) : Position :=
  let oldQuantity := pos.quantity
  let newQuantity := newQuantity round pos side quantity
  if newQuantity ≠ 0 then
    if signum oldQuantity = signum newQuantity then
      -- Adding to position
      let totalCost := round (round (pos.avgEntryPrice * |oldQuantity|) + round (price * quantity))
      { pos with quantity := newQuantity, avgEntryPrice := round (totalCost / |newQuantity|) }
    else { pos with quantity := newQuantity, avgEntryPrice := price }
  else { pos with quantity := 0, avgEntryPrice := 0 }

/-- The position after a fill. -/
def filled (pos : Position) (side : Side) (quantity price : ℚ) (timestamp : Int) : Position :=
  { moved round pos side quantity price with
    realizedPnl := (closingPnl round pos side quantity price).elim pos.realizedPnl fun pnl =>
      round (pos.realizedPnl + pnl)
    lastUpdate  := timestamp }

def updatePerformanceMetrics (metrics : PerformanceMetrics) (pnl : ℚ) : PerformanceMetrics :=
  let totalTrades := metrics.totalTrades + 1
  let totalPnl := round (metrics.totalPnl + pnl)
  let winningTrades := if 0 < pnl then metrics.winningTrades + 1 else metrics.winningTrades
  let losingTrades := if pnl < 0 then metrics.losingTrades + 1 else metrics.losingTrades
  { metrics with
    totalTrades, totalPnl, winningTrades, losingTrades
    winRate     := round (round winningTrades / round totalTrades)
    avgWin      := if 0 < winningTrades then round (max totalPnl 0 / round winningTrades) else metrics.avgWin
    avgLoss     := if 0 < losingTrades then round (min totalPnl 0 / round losingTrades) else metrics.avgLoss
    maxDrawdown := if totalPnl < metrics.maxDrawdown then totalPnl else metrics.maxDrawdown }

def updatePosition (oms : OrderManagementSystem) (symbol : String) (exchange : Exchange) (side : Side)
    (quantity price : ℚ) (timestamp : Int) : OrderManagementSystem :=
  let pos := oms.position symbol exchange timestamp
  let positions := Assoc.put (symbol, exchange) (filled round pos side quantity price timestamp) oms.positions
  match closingPnl round pos side quantity price with
  | some pnl =>
    { oms with
      positions
      dailyPnl    := round (oms.dailyPnl + pnl)
      performance := updatePerformanceMetrics round oms.performance pnl }
  | none     => { oms with positions }

/-! ## Calls -/

/-- Total exposure across all positions. -/
def calculateTotalExposure (oms : OrderManagementSystem) : ℚ :=
  accumulate round 0 ((iteration.visit oms.positions).map fun entry => entry.2.exposure round)

/-- The position size limit, for the position an order would leave if it were filled now. -/
def sizeExceeded (oms : OrderManagementSystem) (symbol : String) (exchange : Exchange) (side : Side)
    (quantity : ℚ) : Bool :=
  match oms.getPosition symbol exchange with
  | some pos =>
    let newQuantity := match side with
      | .buy  => round (pos.quantity + quantity)
      | .sell => round (pos.quantity - quantity)
    decide (oms.maxPositionSize < |newQuantity|)
  | none => decide (oms.maxPositionSize < quantity)

def checkRiskLimits (oms : OrderManagementSystem) (symbol : String) (exchange : Exchange) (side : Side)
    (quantity : ℚ) : Except String Unit :=
  if oms.dailyPnl < -oms.maxDailyLoss then .error "Daily loss limit exceeded"
  else if sizeExceeded round oms symbol exchange side quantity then .error "Position size limit exceeded"
  else if oms.maxTotalExposure < calculateTotalExposure round iteration oms then
    .error "Total exposure limit exceeded"
  else .ok ()

def submitOrder (oms : OrderManagementSystem) (symbol : String) (exchange : Exchange) (side : Side)
    (orderType : OrderType) (quantity : ℚ) (price : Option ℚ) (timestamp : Int) :
    Except String (UInt64 × OrderManagementSystem) :=
  match checkRiskLimits round iteration oms symbol exchange side quantity with
  | .error message => .error message
  | .ok () =>
    let orderId := oms.orderIdCounter
    let order : Order :=
      { id := orderId, timestamp, symbol, exchange, side, orderType, quantity, price, timeInForce := .ioc,
        status := .new }
    .ok (orderId, { oms with orders := Assoc.put orderId order oms.orders, orderIdCounter := orderId + 1 })

def updateOrderStatus (oms : OrderManagementSystem) (orderId : UInt64) (newStatus : OrderStatus)
    (timestamp : Int) : Except String OrderManagementSystem :=
  match oms.getOrder orderId with
  | none       => .error "Order not found"
  | some order =>
    let stored := { oms with orders := Assoc.put orderId { order with status := newStatus } oms.orders }
    match newStatus with
    | .filled filledQuantity avgPrice =>
      .ok (updatePosition round stored order.symbol order.exchange order.side filledQuantity avgPrice timestamp)
    | _ => .ok stored

/-- A call that is refused changes nothing. -/
def step (oms : OrderManagementSystem) : Call → OrderManagementSystem × List Applied
  | .submit symbol exchange side orderType quantity price timestamp =>
    match submitOrder round iteration oms symbol exchange side orderType quantity price timestamp with
    | .ok (_, next) => (next, [])
    | .error _      => (oms, [])
  | .update orderId status timestamp =>
    match updateOrderStatus round oms orderId status timestamp with
    | .ok next => (next, (oms.getOrder orderId).elim [] fun order => order.applied orderId status)
    | .error _ => (oms, [])
  | .cancel orderId =>
    match oms.cancelOrder orderId with
    | .ok next => (next, [])
    | .error _ => (oms, [])

/-! ## What a fill changes -/

section Fill

variable {round : ℚ → ℚ}

theorem filled_quantity (pos : Position) (side : Side) (quantity price : ℚ) (timestamp : Int) :
    (filled round pos side quantity price timestamp).quantity = newQuantity round pos side quantity := by
  show (moved round pos side quantity price).quantity = _
  unfold moved
  dsimp only
  by_cases hzero : newQuantity round pos side quantity = 0
  · rw [if_neg (not_not.mpr hzero), hzero]
  · rw [if_pos hzero]
    split <;> rfl

variable (oms : OrderManagementSystem) (symbol : String) (exchange : Exchange) (side : Side) (quantity price : ℚ)
  (timestamp : Int)

theorem positions_updatePosition :
    (updatePosition round oms symbol exchange side quantity price timestamp).positions =
      Assoc.put (symbol, exchange)
        (filled round (oms.position symbol exchange timestamp) side quantity price timestamp) oms.positions := by
  unfold updatePosition
  dsimp only
  split <;> rfl

theorem orders_updatePosition :
    (updatePosition round oms symbol exchange side quantity price timestamp).orders = oms.orders := by
  unfold updatePosition
  dsimp only
  split <;> rfl

theorem limits_updatePosition :
    (updatePosition round oms symbol exchange side quantity price timestamp).maxPositionSize = oms.maxPositionSize ∧
      (updatePosition round oms symbol exchange side quantity price timestamp).maxTotalExposure =
        oms.maxTotalExposure := by
  unfold updatePosition
  dsimp only
  split <;> exact ⟨rfl, rfl⟩

theorem held_updatePosition_self :
    (updatePosition round oms symbol exchange side quantity price timestamp).held symbol exchange =
      round (oms.held symbol exchange + Side.signed quantity side) := by
  have hquantity := @filled_quantity round (oms.position symbol exchange timestamp) side quantity price timestamp
  unfold newQuantity at hquantity
  rw [held_eq oms symbol exchange timestamp, ← hquantity]
  unfold OrderManagementSystem.held OrderManagementSystem.getPosition
  rw [positions_updatePosition, Assoc.lookup_put_self]
  rfl

theorem getPosition_updatePosition_of_ne {symbol' : String} {exchange' : Exchange}
    (h : ¬ (symbol = symbol' ∧ exchange = exchange')) :
    (updatePosition round oms symbol exchange side quantity price timestamp).getPosition symbol' exchange' =
      oms.getPosition symbol' exchange' := by
  have hne : (symbol', exchange') ≠ (symbol, exchange) := by
    intro heq
    cases heq
    exact h ⟨rfl, rfl⟩
  unfold OrderManagementSystem.getPosition
  rw [positions_updatePosition, Assoc.lookup_put_ne hne]

end Fill

/-- **A submission** that is accepted is stored under the id of the counter. -/
theorem submitOrder_ok {round : ℚ → ℚ} {iteration : Iteration} {oms next : OrderManagementSystem} {symbol : String}
    {exchange : Exchange} {side : Side} {orderType : OrderType} {quantity : ℚ} {price : Option ℚ} {timestamp : Int}
    {orderId : UInt64}
    (h : submitOrder round iteration oms symbol exchange side orderType quantity price timestamp =
      .ok (orderId, next)) :
    checkRiskLimits round iteration oms symbol exchange side quantity = .ok () ∧
      next = { oms with
        orders         := Assoc.put orderId
          { id := orderId, timestamp, symbol, exchange, side, orderType, quantity, price, timeInForce := .ioc,
            status := .new } oms.orders
        orderIdCounter := orderId + 1 } := by
  unfold submitOrder at h
  cases hcheck : checkRiskLimits round iteration oms symbol exchange side quantity with
  | error message =>
      rw [hcheck] at h
      cases h
  | ok _ =>
      rw [hcheck] at h
      cases h
      exact ⟨rfl, rfl⟩

/-! ## Without rounding -/

section Exact

theorem filled_id (pos : Position) (side : Side) (quantity price : ℚ) (timestamp : Int) :
    filled id pos side quantity price timestamp = pos.filled side quantity price timestamp := by
  have hpnl : (closingPnl id pos side quantity price).elim pos.realizedPnl (fun pnl => pos.realizedPnl + pnl) =
      pos.realizedPnl + (pos.closingPnl side quantity price).getD 0 := by
    show (pos.closingPnl side quantity price).elim _ _ = _
    cases pos.closingPnl side quantity price with
    | none => exact (add_zero _).symm
    | some pnl => rfl
  unfold filled Position.filled
  rw [← hpnl]
  rfl

theorem updatePosition_id (oms : OrderManagementSystem) (symbol : String) (exchange : Exchange) (side : Side)
    (quantity price : ℚ) (timestamp : Int) :
    updatePosition id oms symbol exchange side quantity price timestamp =
      oms.updatePosition symbol exchange side quantity price timestamp := by
  unfold updatePosition OrderManagementSystem.updatePosition
  dsimp only
  rw [filled_id]
  rfl

theorem calculateTotalExposure_id (oms : OrderManagementSystem) :
    calculateTotalExposure id iteration oms = oms.calculateTotalExposure := by
  unfold calculateTotalExposure OrderManagementSystem.calculateTotalExposure
  rw [accumulate_id, zero_add]
  exact ((iteration.perm oms.positions).map _).sum_eq

/-- **Without rounding** it is the exact system. -/
theorem step_id (oms : OrderManagementSystem) (call : Call) : step id iteration oms call = Oms.step oms call := by
  cases call with
  | submit symbol exchange side orderType quantity price timestamp =>
      have hcheck : checkRiskLimits id iteration oms symbol exchange side quantity =
          oms.checkRiskLimits symbol exchange side quantity := by
        unfold checkRiskLimits OrderManagementSystem.checkRiskLimits
        rw [calculateTotalExposure_id]
        rfl
      unfold step Oms.step submitOrder OrderManagementSystem.submitOrder
      dsimp only
      generalize checkRiskLimits id iteration oms symbol exchange side quantity = check at hcheck ⊢
      subst hcheck
      rfl
  | update orderId status timestamp =>
      have hupdate : updateOrderStatus id oms orderId status timestamp =
          oms.updateOrderStatus orderId status timestamp := by
        unfold updateOrderStatus OrderManagementSystem.updateOrderStatus
        cases oms.getOrder orderId with
        | none => rfl
        | some order =>
            cases status with
            | filled filledQuantity avgPrice => exact congrArg Except.ok (updatePosition_id ..)
            | _ => rfl
      unfold step Oms.step
      dsimp only
      generalize updateOrderStatus id oms orderId status timestamp = result at hupdate ⊢
      subst hupdate
      rfl
  | cancel orderId => rfl

end Exact

end Rounded
end Oms
end TradingPlatform
