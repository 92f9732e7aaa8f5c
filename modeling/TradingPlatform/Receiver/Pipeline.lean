import TradingPlatform.Receiver.Packet
import TradingPlatform.Hft.Processor
import TradingPlatform.Library.Machine

/-!
# `Receiver.Pipeline` — from packets to the local books

Three parties: the packet handler, which puts the two sides of a book together and sends the whole; the order
book task, which registers the symbol, converts the update and pushes it into a ring; and the book thread,
which works the rings off. They run interleaved, in any order.

A send waits while the channel is full, so nothing is lost there and the channel is a plain queue. The feature
pipeline, to which the task hands every update afterwards, does not touch the local books and is left out.
-/

namespace TradingPlatform
namespace Receiver

open Market Rust Hft

/-! ## The packet handler -/

/-- The stream a packet came in on. -/
inductive DataType where
  | trade
  | orderBook
deriving DecidableEq

structure PartialOrderBook where
  bids : Option (List PriceLevel)
  asks : Option (List PriceLevel)

/-- Aggregates orderbook packets (bids/asks come separately). -/
structure OrderBookAggregator where
  partialBooks : Exchange × String → Option PartialOrderBook

namespace OrderBookAggregator

def new : OrderBookAggregator := ⟨fun _ => none⟩

def entry (agg : OrderBookAggregator) (key : Exchange × String) : PartialOrderBook :=
  (agg.partialBooks key).getD ⟨none, none⟩

/-- A later packet of the same side replaces the earlier one. -/
def addBids (agg : OrderBookAggregator) (key : Exchange × String) (bids : List PriceLevel) :
    OrderBookAggregator :=
  ⟨Function.update agg.partialBooks key (some { agg.entry key with bids := some bids })⟩

def addAsks (agg : OrderBookAggregator) (key : Exchange × String) (asks : List PriceLevel) :
    OrderBookAggregator :=
  ⟨Function.update agg.partialBooks key (some { agg.entry key with asks := some asks })⟩

/-- Both sides, if both are there; the entry is removed with them. -/
def takeComplete (agg : OrderBookAggregator) (key : Exchange × String) :
    OrderBookAggregator × Option (List PriceLevel × List PriceLevel) :=
  match agg.partialBooks key with
  | some ⟨some bids, some asks⟩ => (⟨Function.update agg.partialBooks key none⟩, some (bids, asks))
  | _                           => (agg, none)

end OrderBookAggregator

/-- What the handler sends. -/
inductive Sent where
  | trade (trade : Trade)
  | orderbook (update : OrderBookUpdate)

/-- The timestamp of the exchange, from nanoseconds to microseconds. -/
def microseconds (header : PacketHeader) : Int := header.exchangeTimestamp / 1000

def readTrade (data : List UInt8) (exchangeName : String) : Option Trade :=
  (parseTradePacket data (parsePacketHeader data)).map fun item => {
    exchange  := parseExchange exchangeName
    symbol    := parseString (parsePacketHeader data).symbol
    timestamp := microseconds (parsePacketHeader data)
    price     := unscale item.price
    quantity  := unscale item.quantity
    side      := if item.side = (1 : UInt8) then .buy else .sell
    tradeId   := toString item.tradeId }

/-- An order book packet at the aggregator. The update of a completed book is always a snapshot numbered 0. -/
def aggregate (agg : OrderBookAggregator) (data : List UInt8) (exchangeName : String) :
    OrderBookAggregator × Option OrderBookUpdate :=
  let header := parsePacketHeader data
  let exchange := parseExchange exchangeName
  let symbol := parseString header.symbol
  match parseOrderbookLevels data header with
  | none        => (agg, none)
  | some levels =>
    let added := if header.isBid then agg.addBids (exchange, symbol) levels
      else agg.addAsks (exchange, symbol) levels
    if header.isLast then
      let (agg', complete) := added.takeComplete (exchange, symbol)
      (agg', complete.map fun (bids, asks) => {
        exchange, symbol, bids, asks
        timestamp     := microseconds header
        isSnapshot    := true
        updateId      := 0
        firstUpdateId := 0
        prevUpdateId  := none })
    else (added, none)

/-- The packet handler. -/
def handlePacket (agg : OrderBookAggregator) (data : List UInt8) (exchangeName : String) (dataType : DataType) :
    OrderBookAggregator × List Sent :=
  if data.length < headerSize then (agg, [])
  else
    match dataType with
    | .trade     => (agg, ((readTrade data exchangeName).map .trade).toList)
    | .orderBook =>
      ((aggregate agg data exchangeName).1, ((aggregate agg data exchangeName).2.map .orderbook).toList)

/-! ## The order book task -/

/-- The state all parties share. `taskAlive` is false once the task has panicked. -/
structure Pipeline where
  aggregator       : OrderBookAggregator
  channel          : List OrderBookUpdate
  symbolRegistered : String → Bool
  taskAlive        : Bool
  processor        : HFTOrderBookProcessor
  batch            : List (Option FastUpdate)

def Pipeline.new : Pipeline where
  aggregator       := .new
  channel          := []
  symbolRegistered := fun _ => false
  taskAlive        := true
  processor        := .new
  batch            := List.replicate batchSize none

/-- A panic ends the task and drops its end of the channel. -/
def Pipeline.kill (r : Pipeline) (p : HFTOrderBookProcessor) : Pipeline :=
  { r with processor := p, taskAlive := false, channel := [] }

/-- Convert the update and push it into the ring of its exchange. -/
def Pipeline.pushUpdate (r : Pipeline) (update : OrderBookUpdate) : Pipeline :=
  match r.processor.convertUpdate update with
  | .ok (some fast) => { r with processor := r.processor.push update.exchange fast }
  | .ok none        => r
  | .error _        => r.kill r.processor

/-- One round of the task, on the update it has received. -/
def Pipeline.takeUpdate (r : Pipeline) (update : OrderBookUpdate) : Pipeline :=
  if r.symbolRegistered update.symbol then r.pushUpdate update
  else
    match r.processor.registerSymbol update.symbol (HFTOrderBookProcessor.tickSizeFor update.symbol) with
    | (p, .error _) => r.kill p
    | (p, .ok _)    =>
      { r with processor := p, symbolRegistered := Function.update r.symbolRegistered update.symbol true
        : Pipeline }.pushUpdate update

/-- The task, when it is its turn. -/
def Pipeline.runTask (r : Pipeline) : Pipeline :=
  match r.channel with
  | []                => r
  | update :: waiting => { r with channel := waiting : Pipeline }.takeUpdate update

/-! ## Runs -/

/-- What can happen next. -/
inductive Action where
  | packet (data : List UInt8) (exchangeName : String) (dataType : DataType)
  | task
  | processRing (ring : RingId)

/-- Sends to a dead task fail. -/
def Pipeline.send (r : Pipeline) (sent : List Sent) : Pipeline :=
  if r.taskAlive then
    { r with channel := r.channel ++ sent.filterMap fun
        | .trade _          => none
        | .orderbook update => some update }
  else r

def pipelineStep (r : Pipeline) : Action → Pipeline × List Sent
  | .packet data exchangeName dataType =>
    ({ r with aggregator := (handlePacket r.aggregator data exchangeName dataType).1 : Pipeline }.send
        (handlePacket r.aggregator data exchangeName dataType).2,
      (handlePacket r.aggregator data exchangeName dataType).2)
  | .task => (r.runTask, [])
  | .processRing ring =>
    ({ r with processor := (r.processor.processRingBatched ring r.batch).1
              batch     := (r.processor.processRingBatched ring r.batch).2.1 }, [])

end Receiver
end TradingPlatform
