import TradingPlatform.Rust.Utf8
import TradingPlatform.Market.Types
import Mathlib.Data.List.Flatten

/-!
# `Udp.Codec` — the binary packets of the UDP protocol

A packed little-endian header of 24 bytes, the symbol, then an order book. Prices and quantities are written as
the eight bytes of an `f64`; they stand here as these 64 bits, so nothing depends on arithmetic.
-/

namespace TradingPlatform
namespace Udp

open Market Rust

def magicNumber : UInt32 := 0x48465450

/-- Both numbers by their bits. -/
structure PriceLevel where
  price    : UInt64
  quantity : UInt64
deriving DecidableEq

structure OrderBookUpdate where
  exchange      : Exchange
  symbol        : String
  timestamp     : Int64
  bids          : List PriceLevel
  asks          : List PriceLevel
  isSnapshot    : Bool
  updateId      : UInt64
  firstUpdateId : UInt64
  prevUpdateId  : Option UInt64
deriving DecidableEq

/-- `exchange as u8` -/
def exchangeId : Exchange → UInt8
  | .binance        => 0
  | .binanceFutures => 1
  | .bybit          => 2
  | .bybitLinear    => 3
  | .upbit          => 4
  | .coinbase       => 5
  | .okx            => 6
  | .deribit        => 7
  | .bithumb        => 8
  | .lsExchange     => 9

structure BinaryPacketHeader where
  magic       : UInt32
  sequence    : UInt64
  timestamp   : Int64
  exchangeId  : UInt8
  messageType : UInt8
  symbolLen   : UInt16
deriving DecidableEq

/-- The packed struct in memory. -/
def BinaryPacketHeader.memory (header : BinaryPacketHeader) : List UInt8 :=
  toLe 4 header.magic.toNat ++ (toLe 8 header.sequence.toNat ++ (toLe 8 header.timestamp.toUInt64.toNat ++
    ([header.exchangeId] ++ ([header.messageType] ++ toLe 2 header.symbolLen.toNat))))

namespace BinaryCodec

def levelBytes (level : PriceLevel) : List UInt8 := toLe 8 level.price.toNat ++ toLe 8 level.quantity.toNat

/-- The count, cut to 16 bits, and every level. -/
def levelsBytes (levels : List PriceLevel) : List UInt8 :=
  toLe 2 (UInt16.ofNat levels.length).toNat ++ levels.flatMap levelBytes

def headerOf (orderbook : OrderBookUpdate) (sequence : UInt64) : BinaryPacketHeader where
  magic       := magicNumber
  sequence    := sequence
  timestamp   := orderbook.timestamp
  exchangeId  := exchangeId orderbook.exchange
  messageType := 0
  symbolLen   := UInt16.ofNat (utf8Bytes orderbook.symbol).length

/-- What follows the header. -/
def payload (orderbook : OrderBookUpdate) : List UInt8 :=
  utf8Bytes orderbook.symbol ++ ([if orderbook.isSnapshot then 1 else 0] ++
    (levelsBytes orderbook.bids ++ levelsBytes orderbook.asks))

def encodeOrderbook (orderbook : OrderBookUpdate) (sequence : UInt64) : List UInt8 :=
  (headerOf orderbook sequence).memory ++ payload orderbook

end BinaryCodec
end Udp
end TradingPlatform
