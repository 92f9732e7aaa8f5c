import TradingPlatform.Rust.Bytes
import TradingPlatform.Rust.Float
import TradingPlatform.Rust.Text
import TradingPlatform.Market.Types

/-!
# `Receiver.Packet` — what the receiver reads from a datagram

A packet is a header of 58 bytes and up to seven items: order book items of 16 bytes or one trade of 32. The
layout is packed and big-endian; the header is read whatever follows it, the items only if all of them are
there.
-/

namespace TradingPlatform
namespace Receiver

open Market Rust

def headerSize : Nat := 58

structure PacketHeader where
  protocolVersion   : UInt8
  exchangeTimestamp : Nat
  localTimestamp    : Nat
  flagsAndCount     : UInt8
  symbol            : List UInt8
  exchange          : List UInt8
deriving DecidableEq

namespace PacketHeader

/-- Bit 7. -/
def isLast (header : PacketHeader) : Bool := header.flagsAndCount &&& 0x80 ≠ 0

/-- Bit 3. -/
def isBid (header : PacketHeader) : Bool := header.flagsAndCount &&& 0x08 ≠ 0

/-- Bits 2 to 0. -/
def itemCount (header : PacketHeader) : Nat := (header.flagsAndCount &&& 0x07).toNat

end PacketHeader

/-- The bytes of a packed field. -/
def field (data : List UInt8) (offset size : Nat) : List UInt8 := (data.drop offset).take size

/-- Read from a buffer of at least `headerSize` bytes. -/
def parsePacketHeader (data : List UInt8) : PacketHeader where
  protocolVersion   := data.getD 0 0
  exchangeTimestamp := ofBe (field data 1 8)
  localTimestamp    := ofBe (field data 9 8)
  flagsAndCount     := data.getD 17 0
  symbol            := field data 18 20
  exchange          := field data 38 20

/-- The text up to the first NUL. -/
def parseString (bytes : List UInt8) : String := fromUtf8Lossy (bytes.takeWhile (· ≠ 0))

/-- An unknown exchange counts as Binance. The name is put in lower case as ASCII. -/
def parseExchange (name : String) : Exchange :=
  match toLowercase name with
  | "binance"  => .binance
  | "bybit"    => .bybit
  | "okx"      => .okx
  | "deribit"  => .deribit
  | "upbit"    => .upbit
  | "coinbase" => .coinbase
  | "bithumb"  => .bithumb
  | _          => .binance

/-- A number of the wire, scaled by `10^8`. -/
def unscale (n : Int) : ℚ := n / 10 ^ 8

structure TradeItem where
  tradeId  : Nat
  price    : Int
  quantity : Int
  side     : UInt8
deriving DecidableEq

/-- Parse trade packet payload: the one item is read, however many the header announces. -/
def parseTradePacket (data : List UInt8) (header : PacketHeader) : Option TradeItem :=
  if header.itemCount = 0 ∨ data.length < headerSize + 32 then none
  else some {
    tradeId  := ofBe (field data headerSize 8)
    price    := u64AsI64 (ofBe (field data (headerSize + 8) 8))
    quantity := u64AsI64 (ofBe (field data (headerSize + 16) 8))
    side     := data.getD (headerSize + 24) 0 }

/-- The order book item at an offset. -/
def readItem (data : List UInt8) (offset : Nat) : PriceLevel where
  price    := unscale (u64AsI64 (ofBe (field data offset 8)))
  quantity := unscale (u64AsI64 (ofBe (field data (offset + 8) 8)))

/-- Parse orderbook packet payload. The length check leaves no item past the end. -/
def parseOrderbookLevels (data : List UInt8) (header : PacketHeader) : Option (List PriceLevel) :=
  if header.itemCount = 0 ∨ data.length < headerSize + header.itemCount * 16 then none
  else some ((List.range header.itemCount).map fun i => readItem data (headerSize + i * 16))

/-- A packet that parses has a level for each item of its header, at least one. -/
theorem parseOrderbookLevels_some {data : List UInt8} {header : PacketHeader} {levels : List PriceLevel}
    (h : parseOrderbookLevels data header = some levels) : levels.length = header.itemCount ∧ levels ≠ [] := by
  unfold parseOrderbookLevels at h
  split at h
  · cases h
  next hno =>
    obtain rfl := Option.some.inj h
    have hlen : ((List.range header.itemCount).map fun i => readItem data (headerSize + i * 16)).length
        = header.itemCount := by
      rw [List.length_map, List.length_range]
    refine ⟨hlen, fun hnil => ?_⟩
    rw [hnil] at hlen
    exact hno (Or.inl hlen.symm)

end Receiver
end TradingPlatform
