import TradingPlatform.Oms.Position

/-!
# `Oms.Orders` — the life of an order

An order is submitted when it passes the risk checks, its status is what the last report says, and every report that
it is filled moves the position. `cancel_order` looks at the status an order has; `update_order_status` does not, so
that a report can reach an order that is settled, and a fill reported twice counts twice (`oneWay_of_unsettled`).

The positions move by what is applied on behalf of the orders and by nothing else (`held_run`).
-/

namespace TradingPlatform
namespace Oms

open Market Machine

/-! ## Calls -/

namespace OrderManagementSystem

def getOrder (oms : OrderManagementSystem) (orderId : UInt64) : Option Order := oms.orders.lookup orderId

/-- Total exposure across all positions. -/
def calculateTotalExposure (oms : OrderManagementSystem) : ℚ :=
  (oms.positions.map fun entry => |entry.2.quantity| * entry.2.avgEntryPrice).sum

/-- The position size limit, for the position an order would leave if it were filled now. -/
def sizeExceeded (oms : OrderManagementSystem) (symbol : String) (exchange : Exchange) (side : Side)
    (quantity : ℚ) : Bool :=
  match oms.getPosition symbol exchange with
  | some pos =>
    let newQuantity := match side with
      | .buy  => pos.quantity + quantity
      | .sell => pos.quantity - quantity
    decide (oms.maxPositionSize < |newQuantity|)
  | none => decide (oms.maxPositionSize < quantity)

def checkRiskLimits (oms : OrderManagementSystem) (symbol : String) (exchange : Exchange) (side : Side)
    (quantity : ℚ) : Except String Unit :=
  if oms.dailyPnl < -oms.maxDailyLoss then .error "Daily loss limit exceeded"
  else if oms.sizeExceeded symbol exchange side quantity then .error "Position size limit exceeded"
  else if oms.maxTotalExposure < oms.calculateTotalExposure then .error "Total exposure limit exceeded"
  else .ok ()

def submitOrder (oms : OrderManagementSystem) (symbol : String) (exchange : Exchange) (side : Side)
    (orderType : OrderType) (quantity : ℚ) (price : Option ℚ) (timestamp : Int) :
    Except String (UInt64 × OrderManagementSystem) :=
  match oms.checkRiskLimits symbol exchange side quantity with
  | .error message => .error message
  | .ok () =>
    let orderId := oms.orderIdCounter
    let order : Order :=
      { id := orderId, timestamp, symbol, exchange, side, orderType, quantity, price, timeInForce := .ioc,
        status := .new }
    .ok (orderId, { oms with orders := Assoc.put orderId order oms.orders, orderIdCounter := orderId + 1 })

def updateOrderStatus (oms : OrderManagementSystem) (orderId : UInt64) (newStatus : OrderStatus)
    (timestamp : Int) : Except String OrderManagementSystem :=
  match oms.getOrder orderId with
  | none       => .error "Order not found"
  | some order =>
    let stored := { oms with orders := Assoc.put orderId { order with status := newStatus } oms.orders }
    match newStatus with
    | .filled filledQuantity avgPrice =>
      .ok (stored.updatePosition order.symbol order.exchange order.side filledQuantity avgPrice timestamp)
    | _ => .ok stored

def cancelOrder (oms : OrderManagementSystem) (orderId : UInt64) : Except String OrderManagementSystem :=
  match oms.getOrder orderId with
  | none       => .error "Order not found"
  | some order =>
    match order.status with
    | .new | .pending =>
      .ok { oms with orders := Assoc.put orderId { order with status := .cancelled } oms.orders }
    | _ => .error "Cannot cancel order in current state"

end OrderManagementSystem

inductive Call where
  | submit (symbol : String) (exchange : Exchange) (side : Side) (orderType : OrderType) (quantity : ℚ)
      (price : Option ℚ) (timestamp : Int)
  | update (orderId : UInt64) (status : OrderStatus) (timestamp : Int)
  | cancel (orderId : UInt64)
deriving DecidableEq

/-- What is applied to a position on behalf of an order. -/
structure Applied where
  orderId  : UInt64
  symbol   : String
  exchange : Exchange
  side     : Side
  quantity : ℚ
deriving DecidableEq

def Order.applied (order : Order) (orderId : UInt64) : OrderStatus → List Applied
  | .filled filledQuantity _ => [⟨orderId, order.symbol, order.exchange, order.side, filledQuantity⟩]
  | _                        => []

/-- A call that is refused changes nothing. -/
def step (oms : OrderManagementSystem) : Call → OrderManagementSystem × List Applied
  | .submit symbol exchange side orderType quantity price timestamp =>
    match oms.submitOrder symbol exchange side orderType quantity price timestamp with
    | .ok (_, next) => (next, [])
    | .error _      => (oms, [])
  | .update orderId status timestamp =>
    match oms.updateOrderStatus orderId status timestamp with
    | .ok next => (next, (oms.getOrder orderId).elim [] fun order => order.applied orderId status)
    | .error _ => (oms, [])
  | .cancel orderId =>
    match oms.cancelOrder orderId with
    | .ok next => (next, [])
    | .error _ => (oms, [])

/-! ## One way -/

def OrderStatus.terminal : OrderStatus → Bool
  | .filled _ _ | .cancelled | .rejected _      => true
  | .new | .pending | .partiallyFilled _ => false

/-- The quantity a status reports. -/
def OrderStatus.reported : OrderStatus → Option ℚ
  | .filled filledQuantity _ | .partiallyFilled filledQuantity => some filledQuantity
  | _                                                          => none

/-- The quantity a status applies to the position. -/
def OrderStatus.applied : OrderStatus → ℚ
  | .filled filledQuantity _ => filledQuantity
  | _                        => 0

/-- The quantity applied on behalf of an order. -/
def total (orderId : UInt64) (applied : List Applied) : ℚ :=
  ((applied.filter (·.orderId = orderId)).map Applied.quantity).sum

/-- At every point of the run a settled order keeps its status from there on, and no more than its quantity has been
    applied on behalf of an order. -/
structure OneWay (oms : OrderManagementSystem) (calls : List Call) : Prop where
  settled : ∀ done later, done ++ later <+: calls → ∀ orderId order,
    (run step oms done).1.getOrder orderId = some order → order.status.terminal = true →
      ∃ order', (run step oms (done ++ later)).1.getOrder orderId = some order' ∧ order'.status = order.status
  once    : ∀ done, done <+: calls → ∀ orderId order, (run step oms done).1.getOrder orderId = some order →
    total orderId (run step oms done).2 ≤ order.quantity

/-- A report is of at most the quantity of the order. -/
def WithinQuantity (oms : OrderManagementSystem) : Call → Prop
  | .update orderId status _ =>
    ∀ order ∈ oms.getOrder orderId, ∀ quantity ∈ status.reported, quantity ≤ order.quantity
  | _ => True

/-- A report for a settled order says what is known and applies nothing, and a submission has a quantity that is not
    negative and an id that is not in use. -/
def Unsettled (oms : OrderManagementSystem) : Call → Prop
  | .submit _ _ _ _ quantity _ _ => 0 ≤ quantity ∧ oms.getOrder oms.orderIdCounter = none
  | .update orderId status _     =>
    ∀ order ∈ oms.getOrder orderId, order.status.terminal = true → status = order.status ∧ status.applied ≤ 0
  | .cancel _ => True

/-! ## What a call does to one order -/

namespace OrderManagementSystem

theorem orders_updatePosition (oms : OrderManagementSystem) (symbol : String) (exchange : Exchange) (side : Side)
    (quantity price : ℚ) (timestamp : Int) :
    (oms.updatePosition symbol exchange side quantity price timestamp).orders = oms.orders := by
  unfold updatePosition
  dsimp only
  split <;> rfl

/-- A status that is stored is found, and no other order is touched. -/
theorem getOrder_of_put {oms oms' : OrderManagementSystem} {id : UInt64} {order : Order}
    (h : oms'.orders = Assoc.put id order oms.orders) (orderId : UInt64) :
    oms'.getOrder orderId = if orderId = id then some order else oms.getOrder orderId := by
  unfold getOrder
  rw [h]
  by_cases hid : orderId = id
  · rw [if_pos hid, hid, Assoc.lookup_put_self]
  · rw [if_neg hid, Assoc.lookup_put_ne hid]

/-- **Reports** are stored whatever status the order has, and a fill moves the position. -/
theorem updateOrderStatus_of_some {oms : OrderManagementSystem} {id : UInt64} {order : Order}
    (h : oms.getOrder id = some order) (status : OrderStatus) (timestamp : Int) :
    ∃ next, oms.updateOrderStatus id status timestamp = .ok next ∧
      next.orders = Assoc.put id { order with status } oms.orders ∧
      ((∃ filledQuantity avgPrice, status = .filled filledQuantity avgPrice ∧
          next = { oms with orders := Assoc.put id { order with status } oms.orders }.updatePosition order.symbol
            order.exchange order.side filledQuantity avgPrice timestamp) ∨
        order.applied id status = [] ∧ next.positions = oms.positions) := by
  unfold updateOrderStatus
  rw [h]
  dsimp only
  cases status with
  | filled filledQuantity avgPrice => exact ⟨_, rfl, orders_updatePosition .., .inl ⟨_, _, rfl, rfl⟩⟩
  | _ => exact ⟨_, rfl, rfl, .inr ⟨rfl, rfl⟩⟩

theorem updateOrderStatus_of_none {oms : OrderManagementSystem} {id : UInt64} (h : oms.getOrder id = none)
    (status : OrderStatus) (timestamp : Int) :
    oms.updateOrderStatus id status timestamp = .error "Order not found" := by
  unfold updateOrderStatus
  rw [h]

/-- **A cancel** is accepted for an order that is not settled. -/
theorem cancelOrder_ok {oms next : OrderManagementSystem} {id : UInt64} (h : oms.cancelOrder id = .ok next) :
    ∃ order, oms.getOrder id = some order ∧ order.status.terminal = false ∧
      next = { oms with orders := Assoc.put id { order with status := .cancelled } oms.orders } := by
  unfold cancelOrder at h
  cases hget : oms.getOrder id with
  | none =>
      rw [hget] at h
      cases h
  | some order =>
      rw [hget] at h
      dsimp only at h
      refine ⟨order, rfl, ?_⟩
      cases hstatus : order.status <;> rw [hstatus] at h <;> cases h
      · exact ⟨rfl, rfl⟩
      · exact ⟨rfl, rfl⟩

/-- **A submission** that is accepted is stored under the id of the counter. -/
theorem submitOrder_ok {oms next : OrderManagementSystem} {symbol : String} {exchange : Exchange} {side : Side}
    {orderType : OrderType} {quantity : ℚ} {price : Option ℚ} {timestamp : Int} {orderId : UInt64}
    (h : oms.submitOrder symbol exchange side orderType quantity price timestamp = .ok (orderId, next)) :
    oms.checkRiskLimits symbol exchange side quantity = .ok () ∧ orderId = oms.orderIdCounter ∧
      next = { oms with
        orders         := Assoc.put orderId
          { id := orderId, timestamp, symbol, exchange, side, orderType, quantity, price, timeInForce := .ioc,
            status := .new } oms.orders
        orderIdCounter := orderId + 1 } := by
  unfold submitOrder at h
  cases hcheck : oms.checkRiskLimits symbol exchange side quantity with
  | error message =>
      rw [hcheck] at h
      cases h
  | ok _ =>
      rw [hcheck] at h
      cases h
      exact ⟨rfl, rfl, rfl⟩

end OrderManagementSystem

open OrderManagementSystem

theorem total_nil (orderId : UInt64) : total orderId [] = 0 := by
  simp [total]

theorem total_append (orderId : UInt64) (before after : List Applied) :
    total orderId (before ++ after) = total orderId before + total orderId after := by
  unfold total
  rw [List.filter_append, List.map_append, List.sum_append]

theorem total_applied (order : Order) (id orderId : UInt64) (status : OrderStatus) :
    total orderId (order.applied id status) = if orderId = id then status.applied else 0 := by
  cases status with
  | filled filledQuantity avgPrice =>
      by_cases hid : orderId = id
      · rw [if_pos hid, hid]
        simp [total, Order.applied, OrderStatus.applied]
      · rw [if_neg hid]
        simp [total, Order.applied, Ne.symm hid]
  | _ => exact (ite_self 0).symm

/-- **One call** leaves an order alone, or submits it, or stores a reported status, or cancels it. -/
theorem step_order (oms : OrderManagementSystem) (call : Call) (orderId : UInt64) :
    ((step oms call).1.getOrder orderId = oms.getOrder orderId ∧ total orderId (step oms call).2 = 0) ∨
    (∃ symbol exchange side orderType quantity price timestamp order,
      call = .submit symbol exchange side orderType quantity price timestamp ∧ orderId = oms.orderIdCounter ∧
      (step oms call).1.getOrder orderId = some order ∧ order.quantity = quantity ∧ order.status = .new ∧
      total orderId (step oms call).2 = 0) ∨
    (∃ order status timestamp, call = .update orderId status timestamp ∧ oms.getOrder orderId = some order ∧
      (step oms call).1.getOrder orderId = some { order with status } ∧
      total orderId (step oms call).2 = status.applied) ∨
    ∃ order, call = .cancel orderId ∧ oms.getOrder orderId = some order ∧ order.status.terminal = false ∧
      (step oms call).1.getOrder orderId = some { order with status := .cancelled } ∧
      total orderId (step oms call).2 = 0 := by
  cases call with
  | submit symbol exchange side orderType quantity price timestamp =>
      unfold step
      dsimp only
      cases hsubmit : oms.submitOrder symbol exchange side orderType quantity price timestamp with
      | error message => exact .inl ⟨rfl, rfl⟩
      | ok result =>
          obtain ⟨id, next⟩ := result
          obtain ⟨-, hid, rfl⟩ := submitOrder_ok hsubmit
          dsimp only
          rw [getOrder_of_put rfl]
          by_cases horder : orderId = id
          · rw [if_pos horder]
            exact .inr (.inl ⟨_, _, _, _, _, _, _, _, rfl, horder.trans hid, rfl, rfl, rfl, rfl⟩)
          · rw [if_neg horder]
            exact .inl ⟨rfl, rfl⟩
  | update id status timestamp =>
      unfold step
      dsimp only
      cases hget : oms.getOrder id with
      | none =>
          rw [updateOrderStatus_of_none hget]
          exact .inl ⟨rfl, rfl⟩
      | some order =>
          obtain ⟨next, hok, horders, -⟩ := updateOrderStatus_of_some hget status timestamp
          rw [hok, Option.elim_some, getOrder_of_put horders, total_applied]
          by_cases horder : orderId = id
          · subst horder
            rw [if_pos rfl, if_pos rfl]
            exact .inr (.inr (.inl ⟨order, status, timestamp, rfl, hget, rfl, rfl⟩))
          · rw [if_neg horder, if_neg horder]
            exact .inl ⟨rfl, rfl⟩
  | cancel id =>
      unfold step
      dsimp only
      cases hcancel : oms.cancelOrder id with
      | error message => exact .inl ⟨rfl, rfl⟩
      | ok next =>
          obtain ⟨order, hget, hopen, rfl⟩ := cancelOrder_ok hcancel
          dsimp only
          rw [getOrder_of_put rfl]
          by_cases horder : orderId = id
          · subst horder
            rw [if_pos rfl]
            exact .inr (.inr (.inr ⟨order, rfl, hget, hopen, rfl, rfl⟩))
          · rw [if_neg horder]
            exact .inl ⟨rfl, rfl⟩

/-! ## What moves the positions -/

/-- The quantity of the position, if there is one. -/
def OrderManagementSystem.held (oms : OrderManagementSystem) (symbol : String) (exchange : Exchange) : ℚ :=
  ((oms.getPosition symbol exchange).map Position.quantity).getD 0

/-- What is applied to one position. -/
def movedBy (symbol : String) (exchange : Exchange) (applied : List Applied) : ℚ :=
  ((applied.filter fun entry => entry.symbol = symbol ∧ entry.exchange = exchange).map fun entry =>
    Side.signed entry.quantity entry.side).sum

theorem held_eq (oms : OrderManagementSystem) (symbol : String) (exchange : Exchange) (timestamp : Int) :
    oms.held symbol exchange = (oms.position symbol exchange timestamp).quantity := by
  unfold held position
  cases oms.getPosition symbol exchange <;> rfl

theorem getPosition_updatePosition_of_ne (oms : OrderManagementSystem) {symbol symbol' : String}
    {exchange exchange' : Exchange} (h : ¬ (symbol = symbol' ∧ exchange = exchange')) (side : Side)
    (quantity price : ℚ) (timestamp : Int) :
    (oms.updatePosition symbol exchange side quantity price timestamp).getPosition symbol' exchange' =
      oms.getPosition symbol' exchange' := by
  have hne : (symbol', exchange') ≠ (symbol, exchange) := by
    intro heq
    cases heq
    exact h ⟨rfl, rfl⟩
  unfold getPosition
  rw [positions_updatePosition, Assoc.lookup_put_ne hne]

theorem held_updatePosition (oms : OrderManagementSystem) (symbol symbol' : String) (exchange exchange' : Exchange)
    (side : Side) (quantity price : ℚ) (timestamp : Int) :
    (oms.updatePosition symbol exchange side quantity price timestamp).held symbol' exchange' =
      oms.held symbol' exchange' +
        if symbol = symbol' ∧ exchange = exchange' then Side.signed quantity side else 0 := by
  by_cases hkey : symbol = symbol' ∧ exchange = exchange'
  · obtain ⟨rfl, rfl⟩ := hkey
    have hquantity := @filled_quantity (oms.position symbol exchange timestamp) side quantity price timestamp
    rw [if_pos ⟨rfl, rfl⟩, held_eq oms symbol exchange timestamp, ← hquantity]
    unfold held getPosition
    rw [positions_updatePosition, Assoc.lookup_put_self]
    rfl
  · rw [if_neg hkey, add_zero]
    unfold held
    rw [getPosition_updatePosition_of_ne oms hkey]

theorem movedBy_filled (symbol : String) (exchange : Exchange) (order : Order) (orderId : UInt64)
    (filledQuantity avgPrice : ℚ) :
    movedBy symbol exchange (order.applied orderId (.filled filledQuantity avgPrice)) =
      if order.symbol = symbol ∧ order.exchange = exchange then Side.signed filledQuantity order.side else 0 := by
  by_cases hkey : order.symbol = symbol ∧ order.exchange = exchange
  · rw [if_pos hkey]
    simp [movedBy, Order.applied, hkey]
  · rw [if_neg hkey]
    simp [movedBy, Order.applied, hkey]

/-- **One call** moves the positions by what it applies. -/
theorem held_step (oms : OrderManagementSystem) (call : Call) (symbol : String) (exchange : Exchange) :
    (step oms call).1.held symbol exchange =
      oms.held symbol exchange + movedBy symbol exchange (step oms call).2 := by
  have hnone : movedBy symbol exchange [] = 0 := rfl
  cases call with
  | submit symbol' exchange' side orderType quantity price timestamp =>
      unfold step
      dsimp only
      cases hsubmit : oms.submitOrder symbol' exchange' side orderType quantity price timestamp with
      | error message => exact (add_zero _).symm
      | ok result =>
          obtain ⟨-, -, hnext⟩ := submitOrder_ok hsubmit
          dsimp only
          rw [hnext, hnone, add_zero]
          rfl
  | update orderId status timestamp =>
      unfold step
      dsimp only
      cases hget : oms.getOrder orderId with
      | none =>
          rw [updateOrderStatus_of_none hget]
          exact (add_zero _).symm
      | some order =>
          obtain ⟨next, hok, -, ⟨filledQuantity, avgPrice, rfl, rfl⟩ | ⟨happlied, hpositions⟩⟩ :=
            updateOrderStatus_of_some hget status timestamp
          · rw [hok, Option.elim_some]
            dsimp only
            rw [held_updatePosition, movedBy_filled]
            rfl
          · rw [hok, Option.elim_some, happlied, hnone, add_zero]
            unfold held getPosition
            rw [hpositions]
  | cancel orderId =>
      unfold step
      dsimp only
      cases hcancel : oms.cancelOrder orderId with
      | error message => exact (add_zero _).symm
      | ok next =>
          obtain ⟨order, -, -, hnext⟩ := cancelOrder_ok hcancel
          dsimp only
          rw [hnext, hnone, add_zero]
          rfl

theorem movedBy_append (symbol : String) (exchange : Exchange) (before after : List Applied) :
    movedBy symbol exchange (before ++ after) = movedBy symbol exchange before + movedBy symbol exchange after := by
  unfold movedBy
  rw [List.filter_append, List.map_append, List.sum_append]

/-- **The positions** move by what is applied on behalf of the orders. -/
theorem held_run (oms : OrderManagementSystem) (calls : List Call) (symbol : String) (exchange : Exchange) :
    (run step oms calls).1.held symbol exchange =
      oms.held symbol exchange + movedBy symbol exchange (run step oms calls).2 := by
  induction calls generalizing oms with
  | nil => exact (add_zero _).symm
  | cons call calls ih => rw [run_cons, movedBy_append, ← add_assoc, ← held_step, ← ih]

/-! ## What every run keeps -/

variable {oms : OrderManagementSystem} {call : Call} {calls : List Call}

/-- **A settled order** keeps its status. -/
theorem settled_step {orderId : UInt64} {order : Order} (hget : oms.getOrder orderId = some order)
    (hterminal : order.status.terminal = true) (hguard : Unsettled oms call) :
    ∃ order', (step oms call).1.getOrder orderId = some order' ∧ order'.status = order.status := by
  rcases step_order oms call orderId with ⟨hsame, -⟩ |
    ⟨symbol, exchange, side, orderType, quantity, price, timestamp, -, rfl, hid, -⟩ |
    ⟨order', status, timestamp, rfl, -, hnext, -⟩ | ⟨order', -, hget', hopen, -⟩
  · exact ⟨order, hsame.trans hget, rfl⟩
  · -- the id of a submission is not in use
    have hunused := hguard.2
    rw [← hid, hget] at hunused
    cases hunused
  · exact ⟨_, hnext, (hguard order hget hterminal).1⟩
  · rw [hget] at hget'
    rw [Option.some.inj hget', hopen] at hterminal
    cases hterminal

theorem settled_run {orderId : UInt64} {order : Order} (hget : oms.getOrder orderId = some order)
    (hterminal : order.status.terminal = true) (hguard : Guarded step Unsettled oms calls) :
    ∃ order', (run step oms calls).1.getOrder orderId = some order' ∧ order'.status = order.status := by
  have hstep : ∀ s i, (∃ current, s.getOrder orderId = some current ∧ current.status = order.status) →
      Unsettled s i → ∃ next, (step s i).1.getOrder orderId = some next ∧ next.status = order.status := by
    rintro s i ⟨current, hcurrent, hstatus⟩ hg
    obtain ⟨next, hnext, hkept⟩ := settled_step hcurrent (hstatus ▸ hterminal) hg
    exact ⟨next, hnext, hkept.trans hstatus⟩
  exact Guarded.invariant hstep hguard ⟨order, hget, rfl⟩

/-- Nothing was applied on behalf of an order that is not settled, and no more than its quantity otherwise. -/
structure Order.Accounts (order : Order) (applied : ℚ) : Prop where
  unsettled : order.status.terminal = false → applied = 0
  nonneg    : 0 ≤ order.quantity
  within    : applied ≤ order.quantity

structure Accounted (oms : OrderManagementSystem) (applied : List Applied) : Prop where
  unknown : ∀ orderId, oms.getOrder orderId = none → total orderId applied = 0
  known   : ∀ orderId order, oms.getOrder orderId = some order → order.Accounts (total orderId applied)

/-- A status applies what it reports, or nothing. -/
theorem applied_le {status : OrderStatus} {quantity : ℚ} (hq : 0 ≤ quantity)
    (h : ∀ reported ∈ status.reported, reported ≤ quantity) : status.applied ≤ quantity := by
  cases status with
  | filled filledQuantity avgPrice => exact h filledQuantity rfl
  | _ => exact hq

theorem applied_of_unsettled {status : OrderStatus} (h : status.terminal = false) : status.applied = 0 := by
  cases status with
  | filled filledQuantity avgPrice => cases h
  | _ => rfl

/-- **A report** is applied to an order that was not settled, or applies nothing. -/
theorem Order.Accounts.report {order : Order} {applied : ℚ} (h : order.Accounts applied) {status : OrderStatus}
    (hwithin : ∀ reported ∈ status.reported, reported ≤ order.quantity)
    (hguard : order.status.terminal = true → status = order.status ∧ status.applied ≤ 0) :
    ({ order with status } : Order).Accounts (applied + status.applied) := by
  cases hterminal : order.status.terminal with
  | true =>
      obtain ⟨hstatus, hnone⟩ := hguard hterminal
      refine ⟨fun hopen => ?_, h.nonneg, (add_le_of_nonpos_right hnone).trans h.within⟩
      rw [show ({ order with status } : Order).status = order.status from hstatus, hterminal] at hopen
      cases hopen
  | false =>
      rw [h.unsettled hterminal, zero_add]
      exact ⟨applied_of_unsettled, h.nonneg, applied_le h.nonneg hwithin⟩

/-- **One call** keeps the orders accounted for. -/
theorem Accounted.step {applied : List Applied} (h : Accounted oms applied) (hwithin : WithinQuantity oms call)
    (hguard : Unsettled oms call) : Accounted (step oms call).1 (applied ++ (step oms call).2) := by
  have horder : ∀ orderId,
      ((Oms.step oms call).1.getOrder orderId = none → total orderId (applied ++ (Oms.step oms call).2) = 0) ∧
      ∀ order, (Oms.step oms call).1.getOrder orderId = some order →
        order.Accounts (total orderId (applied ++ (Oms.step oms call).2)) := by
    intro orderId
    rw [total_append]
    rcases step_order oms call orderId with ⟨hsame, hnone⟩ |
      ⟨symbol, exchange, side, orderType, quantity, price, timestamp, order, rfl, hid, hnew, hquantity, hstatus, hnone⟩ |
      ⟨order, status, timestamp, rfl, hget, hnext, happlied⟩ | ⟨order, -, hget, hopen, hnext, hnone⟩
    · rw [hsame, hnone, add_zero]
      exact ⟨h.unknown orderId, h.known orderId⟩
    · obtain ⟨hnonneg, hunused⟩ := hguard
      rw [hnew, hnone, add_zero, h.unknown orderId (hid ▸ hunused)]
      refine ⟨nofun, fun order' heq => ?_⟩
      rw [← Option.some.inj heq]
      exact ⟨fun _ => rfl, hquantity ▸ hnonneg, hquantity ▸ hnonneg⟩
    · rw [hnext, happlied]
      refine ⟨nofun, fun order' heq => ?_⟩
      rw [← Option.some.inj heq]
      exact (h.known orderId order hget).report (hwithin order hget) (hguard order hget)
    · have haccounts := h.known orderId order hget
      rw [hnext, hnone, add_zero, haccounts.unsettled hopen]
      refine ⟨nofun, fun order' heq => ?_⟩
      rw [← Option.some.inj heq]
      exact ⟨fun _ => rfl, haccounts.nonneg, haccounts.nonneg⟩
  exact ⟨fun orderId => (horder orderId).1, fun orderId => (horder orderId).2⟩

theorem Accounted.new (maxPositionSize maxDailyLoss maxTotalExposure : ℚ) :
    Accounted (.new maxPositionSize maxDailyLoss maxTotalExposure) [] := by
  have hempty : ∀ orderId, (OrderManagementSystem.new maxPositionSize maxDailyLoss maxTotalExposure).getOrder orderId =
      none := fun _ => rfl
  refine ⟨fun orderId _ => total_nil orderId, fun orderId order hget => ?_⟩
  rw [hempty] at hget
  cases hget

/-- **The life of an order is one-way and its fills count once** in every run in which no report of news reaches a
    settled order. -/
theorem oneWay_of_unsettled (maxPositionSize maxDailyLoss maxTotalExposure : ℚ) (calls : List Call)
    (hwithin : Guarded step WithinQuantity (.new maxPositionSize maxDailyLoss maxTotalExposure) calls)
    (hguard : Guarded step Unsettled (.new maxPositionSize maxDailyLoss maxTotalExposure) calls) :
    OneWay (.new maxPositionSize maxDailyLoss maxTotalExposure) calls := by
  constructor
  · rintro done later ⟨rest, rfl⟩ orderId order hget hterminal
    rw [run_append_state]
    exact settled_run hget hterminal (guarded_append.mp (guarded_append.mp hguard).1).2
  · rintro done ⟨rest, rfl⟩ orderId order hget
    have hboth := (guarded_append.mp hwithin).1.and (guarded_append.mp hguard).1
    have haccounted := hboth.trace_invariant (fun s out i hs hg => Accounted.step hs hg.1 hg.2)
      (Accounted.new maxPositionSize maxDailyLoss maxTotalExposure)
    exact (haccounted.known orderId order hget).within

/-! ## A fill reported twice -/

instance (oms : OrderManagementSystem) (call : Call) : Decidable (WithinQuantity oms call) :=
  match call with
  | .submit .. => isTrue trivial
  | .update orderId status _ => inferInstanceAs
      (Decidable (∀ order ∈ oms.getOrder orderId, ∀ quantity ∈ status.reported, quantity ≤ order.quantity))
  | .cancel _ => isTrue trivial

instance (oms : OrderManagementSystem) (call : Call) : Decidable (Unsettled oms call) :=
  match call with
  | .submit _ _ _ _ quantity _ _ => inferInstanceAs
      (Decidable (0 ≤ quantity ∧ oms.getOrder oms.orderIdCounter = none))
  | .update orderId status _ => inferInstanceAs (Decidable (∀ order ∈ oms.getOrder orderId,
      order.status.terminal = true → status = order.status ∧ status.applied ≤ 0))
  | .cancel _ => isTrue trivial

/-- Filled in parts, then cancelled too late; the second order is cancelled and confirmed. -/
def partlyFilled : List Call :=
  [.submit "BTCUSDT" .binance .buy .limit 10 (some 100) 1, .update 1 .pending 2, .update 1 (.partiallyFilled 4) 3,
    .update 1 (.filled 10 100) 4, .cancel 1, .submit "BTCUSDT" .binance .sell .limit 5 (some 110) 5, .cancel 2,
    .update 2 .cancelled 6]

theorem oneWay_partlyFilled :
    Guarded step WithinQuantity (.new 100 1000 100000) partlyFilled ∧
      Guarded step Unsettled (.new 100 1000 100000) partlyFilled ∧ OneWay (.new 100 1000 100000) partlyFilled :=
  have hwithin : Guarded step WithinQuantity (.new 100 1000 100000) partlyFilled := by decide +kernel
  have hguard : Guarded step Unsettled (.new 100 1000 100000) partlyFilled := by decide +kernel
  ⟨hwithin, hguard, oneWay_of_unsettled 100 1000 100000 partlyFilled hwithin hguard⟩

/-- The same report arrives again. -/
def filledTwice : List Call :=
  [.submit "BTCUSDT" .binance .buy .limit 10 (some 100) 1, .update 1 (.filled 10 100) 2, .update 1 (.filled 10 100) 3]

theorem filledTwice_not_oneWay :
    Guarded step WithinQuantity (.new 100 1000 100000) filledTwice ∧ ¬ OneWay (.new 100 1000 100000) filledTwice := by
  refine ⟨by decide +kernel, fun h => ?_⟩
  have hstored : (run step (.new 100 1000 100000) filledTwice).1.getOrder 1 = some
      { id := 1, timestamp := 1, symbol := "BTCUSDT", exchange := .binance, side := .buy, orderType := .limit,
        quantity := 10, price := some 100, timeInForce := .ioc, status := .filled 10 100 } := by decide +kernel
  have htotal := h.once filledTwice List.prefix_rfl 1 _ hstored
  revert htotal
  decide +kernel

end Oms
end TradingPlatform
