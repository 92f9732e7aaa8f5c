import TradingPlatform.Receiver.Packet
import TradingPlatform.Rust.Utf8

/-!
# `Sender.Packet` — what the feeder writes into a datagram

The packed structs are converted to network order in place and then copied out of memory byte by byte; the
machine is little-endian. Arithmetic wraps, as in an optimised build. What panics is `none`: a timestamp that
does not fit nanoseconds, or a precision so large that the power of ten it is divided by wraps to zero.
-/

namespace TradingPlatform

open Market Rust

/-! ## The header -/

namespace Receiver.PacketHeader

def new : PacketHeader where
  protocolVersion   := 1
  exchangeTimestamp := 0
  localTimestamp    := 0
  flagsAndCount     := 0
  symbol            := List.replicate 20 0
  exchange          := List.replicate 20 0

/-- Bits 6 to 4. -/
def packetType (header : PacketHeader) : UInt8 := (header.flagsAndCount &&& 0x70) >>> 4

/-- The counterpart of `isLast`, `packetType`, `isBid` and `itemCount`; each value is cut to its bits. -/
def setFlagsAndCount (header : PacketHeader) (isLast : Bool) (packetType : UInt8) (isBid : Bool) (count : UInt8) :
    PacketHeader :=
  { header with
    flagsAndCount := (if isLast then (0x80 : UInt8) else 0) ||| ((packetType &&& 0x07) <<< 4)
      ||| (if isBid then (0x08 : UInt8) else 0) ||| (count &&& 0x07) }

/-- The sender's own reading of a name in a header: the text up to the first NUL. -/
def parseName (bytes : List UInt8) : String := fromUtf8Lossy (bytes.takeWhile (· ≠ 0))

/-- At most 19 bytes of the name, then zeros up to 20. -/
def nameField (name : String) : List UInt8 :=
  let len := min (utf8Bytes name).length 19
  (utf8Bytes name).take len ++ List.replicate (20 - len) 0

def setSymbol (header : PacketHeader) (symbol : String) : PacketHeader :=
  { header with symbol := nameField symbol }

def setExchange (header : PacketHeader) (exchange : String) : PacketHeader :=
  { header with exchange := nameField exchange }

def toNetworkOrder (header : PacketHeader) : PacketHeader :=
  { header with exchangeTimestamp := u64ToBe header.exchangeTimestamp
                localTimestamp    := u64ToBe header.localTimestamp }

/-- The packed struct in memory. -/
def memory (header : PacketHeader) : List UInt8 :=
  [header.protocolVersion] ++ toLe 8 header.exchangeTimestamp ++ toLe 8 header.localTimestamp
    ++ [header.flagsAndCount] ++ header.symbol ++ header.exchange

end Receiver.PacketHeader

namespace Sender

open Receiver

/-! ## Scaling -/

/-- An `i64` computed without overflow checks. -/
def wrapI64 (n : Int) : Int := u64AsI64 (i64AsU64 n)

/-- From `precision` decimals to the 8 of the wire. -/
def rescale (n : Int) (precision : Nat) : Option Int :=
  if precision = 8 then some n
  else if precision < 8 then some (wrapI64 (n * wrapI64 (10 ^ (8 - precision))))
  else
    let divisor := wrapI64 (10 ^ (precision - 8))
    if divisor = 0 then none else some (wrapI64 (n.tdiv divisor))

inductive TimestampUnit where
  | milliseconds
  | microseconds
  | nanoseconds
  | seconds
deriving DecidableEq

namespace TimestampUnit

def nanosecondsPer : TimestampUnit → Nat
  | .seconds      => 1000000000
  | .milliseconds => 1000000
  | .microseconds => 1000
  | .nanoseconds  => 1

/-- A timestamp that overflows stops the process: its unit is configured wrong. -/
def toNanoseconds (timestampUnit : TimestampUnit) (timestamp : Nat) : Option Nat :=
  if timestamp * timestampUnit.nanosecondsPer < 2 ^ 64 then some (timestamp * timestampUnit.nanosecondsPer)
  else none

end TimestampUnit

/-! ## Items -/

/-- `x.to_be()` of an `i64`. -/
def i64ToBe (n : Int) : Int := u64AsI64 (u64ToBe (i64AsU64 n))

structure OrderBookItem where
  price    : Int
  quantity : Int
deriving DecidableEq

namespace OrderBookItem

def newFromScaled (price quantity : Int) (pricePrecision qtyPrecision : Nat) : Option OrderBookItem := do
  let price ← rescale price pricePrecision
  let quantity ← rescale quantity qtyPrecision
  return { price, quantity }

def toNetworkOrder (item : OrderBookItem) : OrderBookItem :=
  { price := i64ToBe item.price, quantity := i64ToBe item.quantity }

def memory (item : OrderBookItem) : List UInt8 := toLe 8 (i64AsU64 item.price) ++ toLe 8 (i64AsU64 item.quantity)

end OrderBookItem
end Sender

namespace Receiver.TradeItem

open Sender

def newFromScaled (tradeId : Nat) (price quantity : Int) (pricePrecision qtyPrecision : Nat) (isBuy : Bool) :
    Option TradeItem := do
  let price ← rescale price pricePrecision
  let quantity ← rescale quantity qtyPrecision
  return { tradeId, price, quantity, side := if isBuy then 1 else 0 }

def toNetworkOrder (item : TradeItem) : TradeItem :=
  { item with tradeId := u64ToBe item.tradeId, price := i64ToBe item.price, quantity := i64ToBe item.quantity }

/-- The seven reserved bytes are zero. -/
def memory (item : TradeItem) : List UInt8 :=
  toLe 8 item.tradeId ++ toLe 8 (i64AsU64 item.price) ++ toLe 8 (i64AsU64 item.quantity) ++ [item.side]
    ++ List.replicate 7 0

end Receiver.TradeItem

namespace Sender

open Receiver

/-! ## Packets -/

/-- Prices and quantities are integers scaled by the precisions. -/
structure OrderBookData where
  exchange          : String
  symbol            : String
  assetType         : String
  bids              : List (Int × Int)
  asks              : List (Int × Int)
  pricePrecision    : Nat
  quantityPrecision : Nat
  timestamp         : Nat
  timestampUnit     : TimestampUnit
deriving DecidableEq

structure TradeData where
  exchange          : String
  symbol            : String
  assetType         : String
  price             : Int
  quantity          : Int
  pricePrecision    : Nat
  quantityPrecision : Nat
  timestamp         : Nat
  timestampUnit     : TimestampUnit
deriving DecidableEq

def OrderBookData.levels (orderbook : OrderBookData) (isBid : Bool) : List (Int × Int) :=
  if isBid then orderbook.bids else orderbook.asks

/-- The items of one side, of its first seven levels. -/
def OrderBookData.items (orderbook : OrderBookData) (isBid : Bool) : Option (List OrderBookItem) :=
  ((orderbook.levels isBid).take 7).mapM fun (price, quantity) =>
    OrderBookItem.newFromScaled price quantity orderbook.pricePrecision orderbook.quantityPrecision

structure BinaryUdpPacket where
  header  : PacketHeader
  payload : List UInt8
deriving DecidableEq

namespace BinaryUdpPacket

/-- `now` is the clock, in nanoseconds. The side is told from the sign of the quantity. -/
def fromTrade (trade : TradeData) (now : Nat) : Option BinaryUdpPacket := do
  let exchangeTimestamp ← trade.timestampUnit.toNanoseconds trade.timestamp
  let item ← TradeItem.newFromScaled 0 trade.price trade.quantity trade.pricePrecision trade.quantityPrecision
    (decide (0 < trade.quantity))
  return {
    header  := ({ PacketHeader.new with exchangeTimestamp, localTimestamp := now % 2 ^ 64 }.setSymbol
      trade.symbol).setExchange trade.exchange |>.setFlagsAndCount true 1 false 1
    payload := item.toNetworkOrder.memory }

/-- One side of a book; the packet is always marked as the last. -/
def fromOrderbook (orderbook : OrderBookData) (isBid : Bool) (now : Nat) : Option BinaryUdpPacket := do
  let exchangeTimestamp ← orderbook.timestampUnit.toNanoseconds orderbook.timestamp
  let count := UInt8.ofNat (min (orderbook.levels isBid).length 7)
  let items ← orderbook.items isBid
  return {
    header  := ({ PacketHeader.new with exchangeTimestamp, localTimestamp := now % 2 ^ 64 }.setSymbol
      orderbook.symbol).setExchange orderbook.exchange |>.setFlagsAndCount true 2 isBid count
    payload := items.flatMap fun item => item.toNetworkOrder.memory }

def toBytes (packet : BinaryUdpPacket) : List UInt8 := packet.header.toNetworkOrder.memory ++ packet.payload

end BinaryUdpPacket
end Sender
end TradingPlatform
