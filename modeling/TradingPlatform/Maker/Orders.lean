import TradingPlatform.Rust.Ieee
import TradingPlatform.Json.Value

/-!
# `Maker.Orders` — orders, the client that sends them and the manager that tracks them

The exchange is what it answers: to the `n`-th order sent to it, a JSON value or nothing. The session keeps, beside
the manager, the orders that `send_order` reported as accepted; no function of the program reads that list.
-/

namespace TradingPlatform
namespace Maker

open Rust Json

inductive OrderSide where
  | buy
  | sell
deriving DecidableEq

inductive OrderType where
  | market
  | limit
deriving DecidableEq

structure OrderRequest where
  symbol      : String
  side        : OrderSide
  orderType   : OrderType
  quantity    : F64
  price       : Option F64
  timeinforce : String
deriving DecidableEq

structure OrderResponse where
  orderId        : String
  status         : String
  price          : Option F64
  filledQuantity : Option F64
deriving DecidableEq

/-- Every request of the market maker is good till cancelled. -/
def limitOrder (symbol : String) (side : OrderSide) (quantity price : F64) : OrderRequest where
  symbol      := symbol
  side        := side
  orderType   := .limit
  quantity    := quantity
  price       := some price
  timeinforce := "GTC"

def marketOrder (symbol : String) (side : OrderSide) (quantity : F64) : OrderRequest where
  symbol      := symbol
  side        := side
  orderType   := .market
  quantity    := quantity
  price       := none
  timeinforce := "GTC"

/-- Errors; those whose text is made of values keep the values. -/
inductive Error where
  | http
  | invalidInput (message : String)
  | invalidResponse (response : Value)
  | orderNotFound (orderId : String)
  | ordersFailed (failed total : Nat) (first : Error)

/-! ## The manager -/

structure TrackedOrder where
  orderId         : String
  exchangeId      : String
  symbol          : String
  originalRequest : OrderRequest
  latestResponse  : OrderResponse
deriving DecidableEq

/-- The entry `track_order` adds. -/
def trackedOrder (exchangeId : String) (request : OrderRequest) (response : OrderResponse) : TrackedOrder where
  orderId         := response.orderId
  exchangeId      := exchangeId
  symbol          := request.symbol
  originalRequest := request
  latestResponse  := response

structure OrderManager where
  orders : List TrackedOrder

namespace OrderManager

def new : OrderManager := ⟨[]⟩

def trackOrder (m : OrderManager) (exchangeId : String) (request : OrderRequest) (response : OrderResponse) :
    OrderManager :=
  ⟨m.orders ++ [trackedOrder exchangeId request response]⟩

/-- The first entry with this id gets the new response. -/
def updateFirst (orderId : String) (response : OrderResponse) : List TrackedOrder → Option (List TrackedOrder)
  | []              => none
  | order :: orders =>
    if order.orderId = orderId then some ({ order with latestResponse := response } :: orders)
    else (updateFirst orderId response orders).map (order :: ·)

def updateOrder (m : OrderManager) (orderId : String) (response : OrderResponse) : Except Error OrderManager :=
  match updateFirst orderId response m.orders with
  | some orders => .ok ⟨orders⟩
  | none        => .error (.orderNotFound orderId)

def getOrderDetails (m : OrderManager) (orderId : String) : Option TrackedOrder :=
  m.orders.find? fun order => order.orderId = orderId

/-- What is found can be updated. -/
theorem updateOrder_ok {m : OrderManager} {orderId : String} (h : (m.getOrderDetails orderId).isSome)
    (response : OrderResponse) : ∃ m', m.updateOrder orderId response = .ok m' := by
  have hfirst : ∀ orders : List TrackedOrder, (orders.find? fun order => order.orderId = orderId).isSome →
      ∃ updated, updateFirst orderId response orders = some updated := by
    intro orders
    induction orders with
    | nil => intro h; cases h
    | cons order orders ih =>
        intro h
        unfold updateFirst
        by_cases hid : order.orderId = orderId
        · exact ⟨_, if_pos hid⟩
        · rw [List.find?_cons_of_neg (by simpa using hid)] at h
          obtain ⟨updated, hupdated⟩ := ih h
          rw [if_neg hid, hupdated]
          exact ⟨_, rfl⟩
  obtain ⟨updated, hupdated⟩ := hfirst m.orders h
  unfold updateOrder
  rw [hupdated]
  exact ⟨_, rfl⟩

end OrderManager

/-! ## The client -/

/-- The exchange's answer to a request: a JSON value, or nothing that could be read. -/
abbrev Answer := Option Value

/-- A client: how a JSON value is written as text, and the answers to the orders it sends. -/
structure BinanceOrderClient where
  toText : Value → String
  answer : Nat → OrderRequest → Answer

/-- A number in a field of text. -/
def readF64 (v : Option Value) : Option F64 := ((v.bind Value.asStr?).bind parseF64).map .finite

/-- The answer to the `n`-th order; it is accepted when the answer has an id and a status. -/
def BinanceOrderClient.sendOrder (client : BinanceOrderClient) (n : Nat) (order : OrderRequest) :
    Except Error OrderResponse :=
  if order.orderType = .limit ∧ order.price = none then .error (.invalidInput "Limit orders require a price")
  else
    match client.answer n order with
    | none          => .error .http
    | some response =>
      match response.get? "orderId", response.get? "status" with
      | some orderId, some status => .ok {
          orderId        := client.toText orderId
          status         := client.toText status
          price          := readF64 (response.get? "price")
          filledQuantity := none }
      | _, _ => .error (.invalidResponse response)

/-- What the program and the exchange share: the number of orders sent, the accepted ones and the manager. -/
structure Session where
  sent     : Nat
  accepted : List (OrderRequest × OrderResponse)
  manager  : OrderManager

def Session.new : Session := ⟨0, [], .new⟩

section

variable (client : BinanceOrderClient)

def Session.sendOrder (s : Session) (order : OrderRequest) : Session × Except Error OrderResponse :=
  match client.sendOrder s.sent order with
  | .ok response =>
    ({ s with sent := s.sent + 1, accepted := s.accepted ++ [(order, response)] }, .ok response)
  | .error e     => ({ s with sent := s.sent + 1 }, .error e)

/-- All are sent, whatever the answers; the results stand in the order of the requests. -/
def Session.sendEach : Session → List OrderRequest → Session × List (Except Error OrderResponse)
  | s, []              => (s, [])
  | s, order :: orders =>
    (((s.sendOrder client order).1.sendEach orders).1,
      (s.sendOrder client order).2 :: ((s.sendOrder client order).1.sendEach orders).2)

/-- The two lists that results are put into. -/
def splitResults : List (Except Error OrderResponse) → List OrderResponse × List Error
  | []                      => ([], [])
  | .ok response :: results => (response :: (splitResults results).1, (splitResults results).2)
  | .error e :: results     => ((splitResults results).1, e :: (splitResults results).2)

/-- One error makes an error of all. -/
def Session.sendMultipleOrders (s : Session) (orders : List OrderRequest) :
    Session × Except Error (List OrderResponse) :=
  let (s', results) := s.sendEach client orders
  let (responses, errors) := splitResults results
  match errors with
  | e :: _ => (s', .error (.ordersFailed errors.length (errors.length + responses.length) e))
  | []     => (s', .ok responses)

end

end Maker
end TradingPlatform
