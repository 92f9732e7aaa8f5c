import TradingPlatform.Library.Machine
import TradingPlatform.Market.OrderBook
import TradingPlatform.Rust.Binary64
import TradingPlatform.Rust.Search

/-!
# `Engine.Matching` — the matching engine: L2 updates in, order events out

`MatchingEngine` keeps one book per symbol and a counter for order ids. A level of an update is looked up by
the tolerance test; a level that is found is removed or changed in place, a new one is inserted where a binary
search says. Each change emits one event, with a fresh id. Prices and quantities are `f64`s; the one thing computed of
them that leaves the engine is the difference of two quantities, which is rounded.

## Contents
- **Order events.** What is emitted, and the ids.
- **The engine.** `processLevel`, `processSideUpdates`, `processL2Update`, as the source has them.

What a run keeps is in `Engine.Book`.
-/

namespace TradingPlatform
namespace Engine

open Market Rust Ladder

/-! ## Order events -/

inductive OrderEvent where
  | add (orderId : Nat) (side : Side) (price quantity : ℚ) (timestamp : Int)
  | modify (orderId : Nat) (newQuantity : ℚ) (timestamp : Int)
  | cancel (orderId : Nat) (timestamp : Int)
  | execute (orderId : Nat) (executedQuantity : ℚ) (timestamp : Int)
deriving DecidableEq, Repr

def OrderEvent.orderId : OrderEvent → Nat
  | .add orderId _ _ _ _   => orderId
  | .modify orderId _ _    => orderId
  | .cancel orderId _      => orderId
  | .execute orderId _ _   => orderId

/-- The counter after the increment, which is also the id given out (`u64` in the source). -/
def getNextOrderId (orderIdCounter : Nat) : Nat := orderIdCounter + 1

def generateAddEvent (orderIdCounter : Nat) (side : Side) (price quantity : ℚ) (timestamp : Int) : OrderEvent :=
  .add (getNextOrderId orderIdCounter) side price quantity timestamp

def generateCancelEvent (orderIdCounter : Nat) (_side : Side) (_price _quantity : ℚ) (timestamp : Int) : OrderEvent :=
  .cancel (getNextOrderId orderIdCounter) timestamp

/-- A reduction is taken to be an execution. -/
def generateReduceEvent (orderIdCounter : Nat) (_side : Side) (_price quantity : ℚ) (timestamp : Int) : OrderEvent :=
  .execute (getNextOrderId orderIdCounter) quantity timestamp

/-! ## The engine -/

/-- What `process_side_updates` works on: the levels of the side and the engine's counter. -/
structure SideState where
  orderIdCounter : Nat
  levels         : List PriceLevel

/-- `current_levels[idx].quantity = quantity` -/
def setQuantity (levels : List PriceLevel) (idx : Nat) (quantity : ℚ) : List PriceLevel :=
  levels.modify idx fun l => { l with quantity }

/-- The comparison of the binary search, turned round for bids. -/
def insertCmp : Side → ℚ → PriceLevel → Ordering
  | .buy, price, l  => compare price l.price
  | .sell, price, l => compare l.price price

/-- One round of the loop over the levels of an update. -/
def processLevel (side : Side) (timestamp : Int) (s : SideState) (updateLevel : PriceLevel) :
    SideState × List OrderEvent :=
  match s.levels.findIdx? (fun l => |l.price - updateLevel.price| < epsilon) with
  | some idx =>
      let currentQty := ((s.levels[idx]?).map PriceLevel.quantity).getD 0
      let newQty := updateLevel.quantity
      if newQty = 0 then
        ({ orderIdCounter := getNextOrderId s.orderIdCounter, levels := s.levels.eraseIdx idx },
          [generateCancelEvent s.orderIdCounter side updateLevel.price currentQty timestamp])
      else if newQty > currentQty then
        ({ orderIdCounter := getNextOrderId s.orderIdCounter, levels := setQuantity s.levels idx newQty },
          [generateAddEvent s.orderIdCounter side updateLevel.price (binary64.round (newQty - currentQty)) timestamp])
      else if newQty < currentQty then
        ({ orderIdCounter := getNextOrderId s.orderIdCounter, levels := setQuantity s.levels idx newQty },
          [generateReduceEvent s.orderIdCounter side updateLevel.price (binary64.round (currentQty - newQty)) timestamp])
      else (s, [])
  | none =>
      if updateLevel.quantity > 0 then
        let insertPos := unwrapOrErr (binarySearchBy (insertCmp side updateLevel.price) s.levels)
        ({ orderIdCounter := getNextOrderId s.orderIdCounter, levels := s.levels.insertIdx insertPos updateLevel },
          [generateAddEvent s.orderIdCounter side updateLevel.price updateLevel.quantity timestamp])
      else (s, [])

def processSideUpdates (side : Side) (timestamp : Int) (s : SideState) (updateLevels : List PriceLevel) :
    SideState × List OrderEvent :=
  Machine.run (processLevel side timestamp) s updateLevels

/-- One round of the loops of `generate_clear_events`. -/
def clearLevel (side : Side) (timestamp : Int) (orderIdCounter : Nat) (level : PriceLevel) : Nat × List OrderEvent :=
  if level.quantity > 0 then
    (getNextOrderId orderIdCounter,
      [generateCancelEvent orderIdCounter side level.price level.quantity timestamp])
  else (orderIdCounter, [])

def generateClearEvents (orderIdCounter : Nat) (book : OrderBook) (timestamp : Int) : Nat × List OrderEvent :=
  let bids := Machine.run (clearLevel .buy timestamp) orderIdCounter book.bids
  let asks := Machine.run (clearLevel .sell timestamp) bids.1 book.asks
  (asks.1, bids.2 ++ asks.2)

structure MatchingEngine where
  orderBooks     : String → Option OrderBook
  orderIdCounter : Nat

namespace MatchingEngine

def new : MatchingEngine := { orderBooks := fun _ => none, orderIdCounter := 0 }

def getOrderBook (e : MatchingEngine) (symbol : String) : Option OrderBook := e.orderBooks symbol

/-- The entry of the symbol, created if there is none. -/
def bookOf (e : MatchingEngine) (symbol : String) (exchange : Exchange) : OrderBook :=
  (e.orderBooks symbol).getD (OrderBook.new symbol exchange)

/-- The counter, the book and the events after a snapshot has cleared the book. -/
def clearOnSnapshot (e : MatchingEngine) (update : OrderBookUpdate) : Nat × OrderBook × List OrderEvent :=
  let book := e.bookOf update.symbol update.exchange
  if update.isSnapshot then
    let cleared := generateClearEvents e.orderIdCounter book update.timestamp
    (cleared.1, { book with bids := [], asks := [] }, cleared.2)
  else (e.orderIdCounter, book, [])

/-- "Process bid updates" -/
def processBids (e : MatchingEngine) (update : OrderBookUpdate) : SideState × List OrderEvent :=
  let (orderIdCounter, book, _) := e.clearOnSnapshot update
  processSideUpdates .buy update.timestamp { orderIdCounter, levels := book.bids } update.bids

/-- "Process ask updates" -/
def processAsks (e : MatchingEngine) (update : OrderBookUpdate) : SideState × List OrderEvent :=
  let (_, book, _) := e.clearOnSnapshot update
  processSideUpdates .sell update.timestamp
    { orderIdCounter := (e.processBids update).1.orderIdCounter, levels := book.asks } update.asks

/-- Process an L2 update and generate the L3 events. The result is `Ok` on every input without NaN. -/
def processL2Update (e : MatchingEngine) (update : OrderBookUpdate) : MatchingEngine × List OrderEvent :=
  let (_, book, events) := e.clearOnSnapshot update
  let bids := e.processBids update
  let asks := e.processAsks update
  let book := { book with bids := bids.1.levels, asks := asks.1.levels, timestamp := update.timestamp }
  ({ orderBooks := Function.update e.orderBooks update.symbol (some book),
     orderIdCounter := asks.1.orderIdCounter },
    events ++ bids.2 ++ asks.2)

/-- The levels the engine reports for a side of a symbol. -/
def levels (e : MatchingEngine) (side : Side) (symbol : String) : List PriceLevel :=
  ((e.getOrderBook symbol).map (·.side side)).getD []

end MatchingEngine

end Engine
end TradingPlatform
