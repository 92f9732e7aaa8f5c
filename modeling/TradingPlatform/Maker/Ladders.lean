import TradingPlatform.Maker.Orders

/-!
# `Maker.Ladders` — the orders the market maker builds and places

Balanced and skewed ladders share the order of a level; they differ in how many levels either side has. How many
there are at most is computed from the margin before a price is rounded or a quantity enlarged.
-/

namespace TradingPlatform
namespace Maker

open Rust Json

/-! ## What the status checker answers -/

structure Balance where
  asset  : String
  amount : F64

structure Position where
  symbol           : String
  amount           : F64
  entryPrice       : F64
  unrealizedProfit : F64
  side             : String

/-- The results of its queries. -/
structure OrderStatusChecker where
  accountBalance  : Except Error (List Balance)
  leverageBracket : Except Error (List Value)
  positions       : Except Error (List Position)

/-- For futures the margin is in USDT. -/
def availableMargin (balances : List Balance) : F64 :=
  ((balances.find? fun b => b.asset = "USDT").map Balance.amount).getD 0

/-- The leverage of the first bracket of the symbol's entry, 1 without it. -/
def leverageOf (symbol : String) (data : List Value) : F64 :=
  match data.find? fun item => (item.index "symbol").asStr? = some symbol with
  | none      => 1
  | some item =>
    match (item.index "brackets").asArray? with
    | some (first :: _) => ((first.index "initialLeverage").asF64?.map F64.finite).getD 1
    | _                 => 1

/-- 80% of the available margin is used. -/
def maxOrders (availableMargin leverage price size : F64) : Nat :=
  let orderValue := price * size
  let marginPerOrder := orderValue / leverage
  let safeMargin := availableMargin * .finite (4 / 5)
  (safeMargin / marginPerOrder).asUsize

def OrderStatusChecker.calculateMaxOrders (checker : OrderStatusChecker) (symbol : String) (price size : F64) :
    Except Error Nat :=
  checker.accountBalance.bind fun balances =>
    checker.leverageBracket.bind fun data =>
      .ok (maxOrders (availableMargin balances) (leverageOf symbol data) price size)

/-! ## Building orders -/

structure MarketMaker where
  symbol    : String
  orderSize : F64
  spread    : F64
  tickSize  : F64

/-- Minimum order value in USDT. -/
def minNotional : F64 := 100

/-- The price `i` spreads away from the middle. -/
def awayFrom (mid spread : F64) (side : OrderSide) (i : Nat) : F64 :=
  match side with
  | .buy  => mid - .finite i * spread
  | .sell => mid + .finite i * spread

namespace MarketMaker

variable (maker : MarketMaker)

def toTick (price : F64) : F64 := (price / maker.tickSize).round * maker.tickSize

/-- Large enough for the minimum notional, rounded up to three decimals. -/
def ladderQuantity (price : F64) : F64 :=
  let minQuantity := minNotional / price
  let quantity := maker.orderSize.max minQuantity
  (quantity * 1000).ceil / 1000

/-- The order of a level of a balanced or skewed ladder. -/
def ladderOrder (mid : F64) (side : OrderSide) (i : Nat) : OrderRequest :=
  let price := maker.toTick (awayFrom mid maker.spread side i)
  limitOrder maker.symbol side (maker.ladderQuantity price) price

/-- The orders of the levels `1` to `levels`. -/
def ladderSide (mid : F64) (side : OrderSide) (levels : Nat) : List OrderRequest :=
  (List.range levels).map fun i => maker.ladderOrder mid side (i + 1)

def ladder (mid : F64) (bidLevels askLevels : Nat) : List OrderRequest :=
  maker.ladderSide (maker.toTick mid) .buy bidLevels ++ maker.ladderSide (maker.toTick mid) .sell askLevels

/-- Each level is two orders. -/
def actualLevels (levels maxOrders : Nat) : Nat := Nat.min levels (maxOrders / 2)

def balancedOrders (mid : F64) (levels maxOrders : Nat) : List OrderRequest :=
  let actual := actualLevels levels maxOrders
  maker.ladder mid actual actual

/-- The position of the symbol, between -1 and 1. -/
def skewOf (positions : List Position) : F64 :=
  match positions.find? fun position => position.symbol = maker.symbol with
  | none          => 0
  | some position =>
    let maxPosition := F64.finite (1 / 10)
    let skew := if position.side = "LONG" then position.amount / maxPosition
      else position.amount.neg / maxPosition
    (skew.max (.finite (-1))).min 1

def skewFactor (skew : F64) : F64 := (1 - skew.abs) * .finite (1 / 2) + .finite (1 / 2)

/-- The levels of a side that is reduced. -/
def reducedLevels (skew : F64) (actual : Nat) : Nat := (F64.finite actual * skewFactor skew).round.asUsize

def skewedOrders (positions : List Position) (mid : F64) (levels maxOrders : Nat) : List OrderRequest :=
  let skew := maker.skewOf positions
  let actual := actualLevels levels maxOrders
  let bidLevels := if 0 < skew then reducedLevels skew actual else actual
  let askLevels := if skew < 0 then reducedLevels skew actual else actual
  maker.ladder mid bidLevels askLevels

/-- Cut off after the decimals of the scale. -/
def roundWithPrecision (value scale : F64) : F64 := (value * scale).trunc / scale

/-- The order of a level in `place_multiple_orders`; one below the minimum notional is skipped. -/
def multipleOrder (mid : F64) (side : OrderSide) (i : Nat) : Option OrderRequest :=
  let price := roundWithPrecision (awayFrom mid maker.spread side i) 10
  let minQuantity := (minNotional / price).ceil
  let rawQuantity := maker.orderSize.max minQuantity
  let quantity := roundWithPrecision rawQuantity 1000
  let notional := quantity * price
  if notional < minNotional then none
  else some (limitOrder maker.symbol side quantity price)

def multipleOrders (mid : F64) (levels : Nat) : List OrderRequest :=
  let mid := roundWithPrecision mid 10
  ((List.range levels).filterMap fun i => maker.multipleOrder mid .buy (i + 1)) ++
    (List.range levels).filterMap fun i => maker.multipleOrder mid .sell (i + 1)

/-- The bid and the ask of `place_orders`. -/
def pairOrders (symbol : String) (mid : F64) : OrderRequest × OrderRequest :=
  let rawBidPrice := mid - maker.spread / 2
  let rawAskPrice := mid + maker.spread / 2
  let bidPrice := (rawBidPrice / maker.tickSize).floor * maker.tickSize
  let askPrice := (rawAskPrice / maker.tickSize).ceil * maker.tickSize
  let bidPrice := (bidPrice * 10).round / 10
  let askPrice := (askPrice * 10).round / 10
  let minQuantity := (minNotional / bidPrice).max (minNotional / askPrice)
  let quantity := maker.orderSize.max minQuantity
  let quantity := (quantity * 1000).ceil / 1000
  (limitOrder symbol .buy quantity bidPrice, limitOrder symbol .sell quantity askPrice)

end MarketMaker

/-! ## Placing orders -/

section

variable (client : BinanceOrderClient)

/-- A response is tracked with the request of its position. -/
def trackAt (orders : List OrderRequest) (m : OrderManager) (entry : OrderResponse × Nat) : OrderManager :=
  match orders[entry.2]? with
  | some request => m.trackOrder "binance" request entry.1
  | none         => m

def trackResponses (m : OrderManager) (orders : List OrderRequest) (responses : List OrderResponse) : OrderManager :=
  responses.zipIdx.foldl (trackAt orders) m

/-- Send the orders and track them. -/
def Session.placeAll (s : Session) (orders : List OrderRequest) : Session × Except Error Unit :=
  match s.sendMultipleOrders client orders with
  | (s', .error e)      => (s', .error e)
  | (s', .ok responses) => ({ s' with manager := trackResponses s'.manager orders responses }, .ok ())

variable (maker : MarketMaker) (checker : OrderStatusChecker)

def Session.placeMultipleOrders (s : Session) (mid : F64) (levels : Nat) : Session × Except Error Unit :=
  let orders := maker.multipleOrders mid levels
  if orders.isEmpty then
    (s, .error (.invalidInput
      "No valid orders could be created - check price/quantity precision and minimum notional"))
  else s.placeAll client orders

def Session.placeBalancedOrders (s : Session) (mid : F64) (levels : Nat) : Session × Except Error Unit :=
  match checker.calculateMaxOrders maker.symbol mid maker.orderSize with
  | .error e      => (s, .error e)
  | .ok maxOrders => s.placeAll client (maker.balancedOrders mid levels maxOrders)

def Session.placeSkewedOrders (s : Session) (mid : F64) (levels : Nat) : Session × Except Error Unit :=
  match checker.positions with
  | .error e      => (s, .error e)
  | .ok positions =>
    match checker.calculateMaxOrders maker.symbol mid maker.orderSize with
    | .error e      => (s, .error e)
    | .ok maxOrders => s.placeAll client (maker.skewedOrders positions mid levels maxOrders)

/-- Send one order and track it. -/
def Session.placeOne (s : Session) (order : OrderRequest) : Session × Except Error Unit :=
  match s.sendOrder client order with
  | (s', .error e)     => (s', .error e)
  | (s', .ok response) => ({ s' with manager := s'.manager.trackOrder "binance" order response }, .ok ())

/-- The ask is not sent when the bid fails. -/
def Session.placeOrders (s : Session) (symbol : String) (mid : F64) : Session × Except Error Unit :=
  let (bid, ask) := maker.pairOrders symbol mid
  match s.placeOne client bid with
  | (s', .error e) => (s', .error e)
  | (s', .ok _)    => s'.placeOne client ask

end

end Maker
end TradingPlatform
