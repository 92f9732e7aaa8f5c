import TradingPlatform.Udp.Codec
import TradingPlatform.Library.Wire
import TradingPlatform.Library.Machine

/-!
# `Udp.Receiver` — the receiver of the binary packets

`processPacket` reads a packet from front to back. A read past its end panics, and so does the sum of the sequence
check if it overflows; a panic ends the task of its socket.
-/

namespace TradingPlatform
namespace Udp

open Market Rust Wire

structure Trade where
  exchange  : Exchange
  symbol    : String
  timestamp : Int64
  price     : UInt64
  quantity  : UInt64
  side      : Side
  tradeId   : String
deriving DecidableEq

/-- What is sent, and on which channel. -/
inductive Message where
  | orderbook (update : OrderBookUpdate)
  | trade (trade : Trade)
deriving DecidableEq

inductive Failure where
  /-- `anyhow!(message)` -/
  | error (message : String)
  /-- The error of `std::str::from_utf8`. -/
  | utf8
  | panicked
deriving DecidableEq

namespace UdpReceiver

abbrev Read (α : Type) := Reader UInt8 Failure α

/-! ## Numbers and texts -/

/-- `data[offset..offset + n]` -/
def readBytes (n : Nat) : Read (List UInt8) := take .panicked n

def readU8 : Read UInt8 := (fun bytes => UInt8.ofNat (ofLe bytes)) <$> readBytes 1

def readU16 : Read UInt16 := (fun bytes => UInt16.ofNat (ofLe bytes)) <$> readBytes 2

def readU32 : Read UInt32 := (fun bytes => UInt32.ofNat (ofLe bytes)) <$> readBytes 4

def readU64 : Read UInt64 := (fun bytes => UInt64.ofNat (ofLe bytes)) <$> readBytes 8

def readText (n : Nat) : Read String := do
  let bytes ← readBytes n
  match fromUtf8 bytes with
  | some text => return text
  | none      => throw .utf8

/-! ## Packets -/

structure UdpPacketHeader where
  magic       : UInt32
  sequence    : UInt64
  timestamp   : Int64
  exchangeId  : UInt8
  messageType : UInt8
  symbolLen   : UInt16
deriving DecidableEq

def headerSize : Nat := 24

/-- The packed struct, field by field. -/
def readHeader : Read UdpPacketHeader := do
  let magic ← readU32
  let sequence ← readU64
  let timestamp ← readU64
  let exchangeId ← readU8
  let messageType ← readU8
  let symbolLen ← readU16
  return { magic, sequence, timestamp := timestamp.toInt64, exchangeId, messageType, symbolLen }

def readLevel : Read PriceLevel := do
  let price ← readU64
  let quantity ← readU64
  return { price, quantity }

/-- A count and its levels. -/
def readLevels : Read (List PriceLevel) := do
  let count ← readU16
  many readLevel count.toNat

/-- The update ids are left to the feeder. -/
def parseOrderbook (exchange : Exchange) (symbol : String) (timestamp : Int64) : Read OrderBookUpdate := do
  let flag ← readU8
  let bids ← readLevels
  let asks ← readLevels
  return {
    exchange, symbol, timestamp, bids, asks
    isSnapshot    := flag != 0
    updateId      := 0
    firstUpdateId := 0
    prevUpdateId  := none }

def parseTrade (exchange : Exchange) (symbol : String) (timestamp : Int64) : Read Trade := do
  let price ← readU64
  let quantity ← readU64
  let side ← readU8
  let idLen ← readU8
  let tradeId ← readText idLen.toNat
  return { exchange, symbol, timestamp, price, quantity, side := if side = 0 then .buy else .sell, tradeId }

/-- The symbol, then the message of the header's type. -/
def readMessage (exchange : Exchange) (header : UdpPacketHeader) : Read Message := do
  let symbol ← readText header.symbolLen.toNat
  if header.messageType = 0 then
    .orderbook <$> parseOrderbook exchange symbol header.timestamp
  else if header.messageType = 1 then
    .trade <$> parseTrade exchange symbol header.timestamp
  else throw (.error "Unknown message type")

/-- The new `last_sequence`, and the message to send with the bytes that were not read. The sequence number is
    kept even if the rest of the packet fails. -/
def processPacket (data : List UInt8) (exchange : Exchange) (lastSequence : UInt64) :
    UInt64 × Except Failure (Message × List UInt8) :=
  if data.length < headerSize then (lastSequence, .error (.error "Packet too small"))
  else
    match readHeader data with
    | .error failure        => (lastSequence, .error failure)
    | .ok (header, payload) =>
      if header.magic ≠ magicNumber then (lastSequence, .error (.error "Invalid magic number"))
      -- the check computes the successor of the last number
      else if 0 < header.sequence ∧ lastSequence.toNat + 1 = 2 ^ 64 then (lastSequence, .error .panicked)
      else (header.sequence, readMessage exchange header payload)

/-! ## What an encoder wrote -/

theorem readBytes_reads {bytes : List UInt8} {n : Nat} (h : bytes.length = n) : Reads (readBytes n) bytes bytes :=
  reads_take h

theorem readU8_reads (b : UInt8) : Reads readU8 [b] b := by
  have hread := (readBytes_reads (List.length_singleton (a := b))).map fun bytes => UInt8.ofNat (ofLe bytes)
  have hvalue : ofLe [b] = b.toNat := by
    show 256 * 0 + b.toNat = b.toNat
    omega
  rw [hvalue, UInt8.ofNat_toNat] at hread
  exact hread

theorem readU16_reads (x : UInt16) : Reads readU16 (toLe 2 x.toNat) x := by
  have hread := (readBytes_reads (length_toLe 2 x.toNat)).map fun bytes => UInt16.ofNat (ofLe bytes)
  rw [ofLe_toLe x.toNat_lt, UInt16.ofNat_toNat] at hread
  exact hread

theorem readU32_reads (x : UInt32) : Reads readU32 (toLe 4 x.toNat) x := by
  have hread := (readBytes_reads (length_toLe 4 x.toNat)).map fun bytes => UInt32.ofNat (ofLe bytes)
  rw [ofLe_toLe x.toNat_lt, UInt32.ofNat_toNat] at hread
  exact hread

theorem readU64_reads (x : UInt64) : Reads readU64 (toLe 8 x.toNat) x := by
  have hread := (readBytes_reads (length_toLe 8 x.toNat)).map fun bytes => UInt64.ofNat (ofLe bytes)
  rw [ofLe_toLe x.toNat_lt, UInt64.ofNat_toNat] at hread
  exact hread

theorem readText_reads (text : String) : Reads (readText (utf8Bytes text).length) (utf8Bytes text) text := by
  intro rest
  show (readBytes _ _).bind _ = _
  rw [readBytes_reads rfl]
  show (match fromUtf8 (utf8Bytes text) with | some text => _ | none => _ : Read String) rest = _
  rw [fromUtf8_utf8Bytes]
  rfl

/-- The encoder's header as the receiver declares it. -/
def headerOf (header : BinaryPacketHeader) : UdpPacketHeader where
  magic       := header.magic
  sequence    := header.sequence
  timestamp   := header.timestamp
  exchangeId  := header.exchangeId
  messageType := header.messageType
  symbolLen   := header.symbolLen

/-- **The header** the receiver reads is the one the encoder wrote. -/
theorem readHeader_reads (header : BinaryPacketHeader) : Reads readHeader header.memory (headerOf header) := by
  refine (readU32_reads header.magic).bind ?_
  refine (readU64_reads header.sequence).bind ?_
  refine (readU64_reads header.timestamp.toUInt64).bind ?_
  refine (readU8_reads header.exchangeId).bind ?_
  refine (readU8_reads header.messageType).bind ?_
  exact (readU16_reads header.symbolLen).bind_pure _

theorem length_memory (header : BinaryPacketHeader) : header.memory.length = headerSize := by
  unfold BinaryPacketHeader.memory
  simp only [List.length_append, length_toLe, List.length_singleton]
  rfl

theorem readLevel_reads (level : PriceLevel) : Reads readLevel (BinaryCodec.levelBytes level) level :=
  (readU64_reads level.price).bind ((readU64_reads level.quantity).bind_pure _)

/-- A count of 16 bits is the count of the levels. -/
theorem readLevels_reads {levels : List PriceLevel} (h : levels.length ≤ 65535) :
    Reads readLevels (BinaryCodec.levelsBytes levels) levels := by
  have hcount : (UInt16.ofNat levels.length).toNat = levels.length := UInt16.toNat_ofNat_of_lt' (Nat.lt_succ_of_le h)
  refine (readU16_reads (UInt16.ofNat levels.length)).bind ?_
  rw [hcount]
  exact Reads.many readLevel_reads levels

/-- What the wire carries of an update: the exchange is the socket's, the ids are not sent. -/
def received (exchange : Exchange) (orderbook : OrderBookUpdate) : OrderBookUpdate :=
  { orderbook with exchange, updateId := 0, firstUpdateId := 0, prevUpdateId := none }

theorem parseOrderbook_reads (exchange : Exchange) {orderbook : OrderBookUpdate}
    (hbids : orderbook.bids.length ≤ 65535) (hasks : orderbook.asks.length ≤ 65535) :
    Reads (parseOrderbook exchange orderbook.symbol orderbook.timestamp)
      ([if orderbook.isSnapshot then 1 else 0] ++
        (BinaryCodec.levelsBytes orderbook.bids ++ BinaryCodec.levelsBytes orderbook.asks))
      (received exchange orderbook) := by
  have hflag : ((if orderbook.isSnapshot then 1 else 0 : UInt8) != 0) = orderbook.isSnapshot := by
    cases orderbook.isSnapshot <;> rfl
  have heq : received exchange orderbook =
      { exchange
        symbol        := orderbook.symbol
        timestamp     := orderbook.timestamp
        bids          := orderbook.bids
        asks          := orderbook.asks
        isSnapshot    := (if orderbook.isSnapshot then 1 else 0 : UInt8) != 0
        updateId      := 0
        firstUpdateId := 0
        prevUpdateId  := none } := by
    unfold received
    rw [hflag]
  rw [heq]
  refine (readU8_reads (if orderbook.isSnapshot then 1 else 0)).bind ?_
  refine (readLevels_reads hbids).bind ?_
  exact (readLevels_reads hasks).bind_pure _

/-- Symbol and levels have counts of 16 bits. -/
structure Encodable (orderbook : OrderBookUpdate) : Prop where
  symbol : (utf8Bytes orderbook.symbol).length ≤ 65535
  bids   : orderbook.bids.length ≤ 65535
  asks   : orderbook.asks.length ≤ 65535

instance (orderbook : OrderBookUpdate) : Decidable (Encodable orderbook) :=
  decidable_of_iff ((utf8Bytes orderbook.symbol).length ≤ 65535 ∧ orderbook.bids.length ≤ 65535 ∧
      orderbook.asks.length ≤ 65535) ⟨fun ⟨h₁, h₂, h₃⟩ => ⟨h₁, h₂, h₃⟩, fun ⟨h₁, h₂, h₃⟩ => ⟨h₁, h₂, h₃⟩⟩

/-- The message of an order book packet, read to the last byte. -/
theorem readMessage_reads (exchange : Exchange) {orderbook : OrderBookUpdate} (h : Encodable orderbook)
    (sequence : UInt64) :
    Reads (readMessage exchange (headerOf (BinaryCodec.headerOf orderbook sequence))) (BinaryCodec.payload orderbook)
      (.orderbook (received exchange orderbook)) := by
  have hlen : (UInt16.ofNat (utf8Bytes orderbook.symbol).length).toNat = (utf8Bytes orderbook.symbol).length :=
    UInt16.toNat_ofNat_of_lt' (Nat.lt_succ_of_le h.symbol)
  unfold readMessage headerOf BinaryCodec.headerOf
  dsimp only
  rw [hlen]
  refine (readText_reads orderbook.symbol).bind ?_
  rw [if_pos rfl]
  exact (parseOrderbook_reads exchange h.bids h.asks).map Message.orderbook

/-- A packet with a good header is read on after it. -/
theorem processPacket_header {header : BinaryPacketHeader} (hmagic : header.magic = magicNumber)
    (payload : List UInt8) (exchange : Exchange) {lastSequence : UInt64} (hlast : lastSequence.toNat < 2 ^ 64 - 1) :
    processPacket (header.memory ++ payload) exchange lastSequence =
      (header.sequence, readMessage exchange (headerOf header) payload) := by
  have hsize : ¬ (header.memory ++ payload).length < headerSize := by
    rw [List.length_append, length_memory]
    omega
  have hmagic' : ¬ (headerOf header).magic ≠ magicNumber := not_not.mpr hmagic
  unfold processPacket
  rw [if_neg hsize, readHeader_reads]
  dsimp only
  rw [if_neg hmagic', if_neg (by omega)]
  rfl

/-- **The codec round trip.** An encoded update is read to its last byte and sent on, with its sequence number as
    the new `last_sequence`. -/
theorem processPacket_encodeOrderbook (orderbook : OrderBookUpdate) (sequence lastSequence : UInt64)
    (exchange : Exchange) (h : Encodable orderbook) (hlast : lastSequence.toNat < 2 ^ 64 - 1) :
    processPacket (BinaryCodec.encodeOrderbook orderbook sequence) exchange lastSequence =
      (sequence, .ok (.orderbook (received exchange orderbook), [])) := by
  have hmagic : (BinaryCodec.headerOf orderbook sequence).magic = magicNumber := rfl
  have hread := readMessage_reads exchange h sequence []
  rw [List.append_nil] at hread
  rw [BinaryCodec.encodeOrderbook, processPacket_header hmagic _ _ hlast, hread]
  rfl

/-- One level on a side, and the largest sequence numbers. -/
def sampleUpdate : OrderBookUpdate :=
  { exchange := .okx, symbol := "BTC-USDT", timestamp := 1700000000000000, isSnapshot := true
    bids := [⟨0x40E5F90000000000, 0x3FF8000000000000⟩], asks := [⟨0x40E5F92000000000, 0x3FE0000000000000⟩]
    updateId := 7, firstUpdateId := 6, prevUpdateId := some 5 }

theorem processPacket_encodeOrderbook_sampleUpdate :
    processPacket (BinaryCodec.encodeOrderbook sampleUpdate 0xFFFFFFFFFFFFFFFF) .okx 0xFFFFFFFFFFFFFFFE =
      (0xFFFFFFFFFFFFFFFF, .ok (.orderbook (received .okx sampleUpdate), [])) :=
  processPacket_encodeOrderbook sampleUpdate 0xFFFFFFFFFFFFFFFF 0xFFFFFFFFFFFFFFFE .okx (by decide +kernel)
    (by decide +kernel)

end UdpReceiver
end Udp
end TradingPlatform
