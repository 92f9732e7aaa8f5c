import TradingPlatform.Crypto.Coinbase
import TradingPlatform.Crypto.Timestamps
import TradingPlatform.Feed.Binance

/-!
# `Crypto.Trades` — the trades of Binance and Coinbase, and the time on the wire

The handlers bring the time of a trade to milliseconds, whatever the configured unit. The encoder multiplies by the
unit. An `l2_data` event has its time nowhere but in its updates, which are not asked for it. So the wire has the
time of the exchange only for trades, and only when the unit is milliseconds (`eventTime_on_wire_iff`).
-/

namespace TradingPlatform
namespace Crypto

open Json Rust Sender Receiver

/-! ## The timestamp filter -/

/-- Jan 2001 in milliseconds -/
def minValidTimestamp : Nat := 1000000000000

/-- May 2033 in milliseconds -/
def maxValidTimestamp : Nat := 2000000000000

/-- `value.to_string().len()` -/
def digitCount (value : Nat) : Nat := (Nat.toDigits 10 value).length

/-- In the valid range and less than two years from now. -/
def isRecent (nowMs millis : Nat) : Bool :=
  let diffFromNow := if millis > nowMs then millis - nowMs else nowMs - millis
  let oneYearMs := 365 * 24 * 60 * 60 * 1000
  minValidTimestamp ≤ millis && millis ≤ maxValidTimestamp && diffFromNow < oneYearMs * 2

/-- Check if a value is likely a timestamp vs sequence number. -/
def isValidTimestamp (nowMs value : Nat) : Bool :=
  match digitCount value with
  | 10 => isRecent nowMs (value * 1000)
  | 13 => isRecent nowMs value
  | 16 => minValidTimestamp ≤ value / 1000 && value / 1000 ≤ maxValidTimestamp
  | _  => false

/-- Process a value that might be timestamp or sequence number: whether it is one, and what it is in milliseconds. -/
def processTimestampField (nowMs value : Nat) : Bool × Nat :=
  if isValidTimestamp nowMs value then
    (true,
      match digitCount value with
      | 10 => value * 1000
      | 13 => value
      | 16 => value / 1000
      | 19 => value / 1000000
      | _  => value)
  else (false, value)

/-! ## The trades -/

/-- The clock is read by the filter and again where there is no timestamp, both in milliseconds. -/
structure Clocks where
  filterMs : Nat
  nowMs    : Nat

namespace Binance

/-- A scaled number, 0 if it is missing. -/
def readNumber (data : Value) (key : String) (precision : Nat) : Int :=
  ((data.index key).asStr?.map fun s => parseToScaledOrDefault s precision).getD 0

/-- `T`, or the clock where it is no timestamp. -/
def readTradeTime (clocks : Clocks) (data : Value) : Nat :=
  match (data.index "T").asI64? with
  | none   => clocks.nowMs
  | some t =>
    if 0 < t then
      let (isValid, normalized) := processTimestampField clocks.filterMs t.toNat
      if isValid then normalized else clocks.nowMs
    else clocks.nowMs

/-- The trade arm of `process_binance_message`. A message without a symbol is skipped, and so is one whose symbol is
    not mapped. -/
def tradeOf (context : Context) (assetType : String) (clocks : Clocks) (data : Value) : Option TradeData := do
  let originalSymbol := ((data.get? "s").bind Value.asStr?).getD ""
  if originalSymbol = "" then none
  else
    let commonSymbol ← context.symbolMapper.map "Binance" originalSymbol
    let pricePrecision := context.feedConfig.getPricePrecision commonSymbol
    let quantityPrecision := context.feedConfig.getQuantityPrecision commonSymbol
    return {
      exchange          := "Binance"
      symbol            := commonSymbol
      assetType         := assetType
      price             := readNumber data "p" pricePrecision
      quantity          := readNumber data "q" quantityPrecision
      pricePrecision    := pricePrecision
      quantityPrecision := quantityPrecision
      timestamp         := readTradeTime clocks data
      timestampUnit     := context.feedConfig.timestampUnit }

end Binance

namespace Coinbase

/-- A scaled number, 0 if it is missing. -/
def readNumber (tradeData : Value) (key : String) (precision : Nat) : Int :=
  (((tradeData.get? key).bind Value.asStr?).map fun s => parseToScaledOrDefault s precision).getD 0

/-- An entry of the `trades` of an event on the `market_trades` channel; a time before 1970 reads as 0. -/
def readTrade (parseTime : String → Option Int) (context : Context) (assetType : String) (tradeData : Value) :
    TradeData :=
  let commonSymbol := context.commonSymbol "Coinbase" (((tradeData.get? "product_id").bind Value.asStr?).getD "")
  let pricePrecision := context.feedConfig.getPricePrecision commonSymbol
  let qtyPrecision := context.feedConfig.getQuantityPrecision commonSymbol
  { exchange          := "Coinbase"
    symbol            := commonSymbol
    assetType         := assetType
    price             := readNumber tradeData "price" pricePrecision
    quantity          := readNumber tradeData "size" qtyPrecision
    pricePrecision    := pricePrecision
    quantityPrecision := qtyPrecision
    timestamp         := ((((tradeData.get? "time").bind Value.asStr?).bind parseTime).map Int.toNat).getD 0
    timestampUnit     := context.feedConfig.timestampUnit }

end Coinbase

namespace Trades

open Timestamps

/-! ## The time on the wire -/

/-- What carries a time of the exchange: a message of Binance and the synchronisers it finds, an entry of a Coinbase
    `market_trades` message, an event of an `l2_data` message and the builder it goes to. -/
inductive Message where
  | binanceTrade (text : Value) (syncs : Feed.Synchronizers) (assetType : String)
  | coinbaseTrade (tradeData : Value) (assetType : String)
  | l2Event (event : Value) (builder : OrderBookBuilder)

section
variable (parseTime : String → Option Int) (context : Context) (clocks : Clocks)

/-- The data made of what the websocket handler of Binance hands on. -/
def tradeOfDelivery : Feed.Delivery → Option TradeData
  | .trade data assetType => Binance.tradeOf context assetType clocks data
  | .orderbook ..         => none

/-- The data made of a message. -/
def Message.items : Message → List Item
  | .binanceTrade text syncs assetType =>
    ((Feed.processBinanceMessage syncs (some text) assetType).2.filterMap
      (tradeOfDelivery context clocks)).map Item.trade
  | .coinbaseTrade tradeData assetType => [.trade (Coinbase.readTrade parseTime context assetType tradeData)]
  | .l2Event event builder             =>
    match Coinbase.readEvent context event with
    | none             => []
    | some (_, update) => (CoinbaseOrderBookBuilder.processUpdate builder update).2.map Item.orderbook

/-- The message happened at `millis`, as it says itself. -/
def Message.HappenedAt (millis : Int) : Message → Prop
  | .binanceTrade text _ _     => ∃ t n : Nat, ((Feed.actualData text).index "T").asI64? = some (t : Int) ∧ 0 < t ∧
    processTimestampField clocks.filterMs t = (true, n) ∧ millis = n
  | .coinbaseTrade tradeData _ => ((tradeData.get? "time").bind Value.asStr?).bind parseTime = some millis
  | .l2Event event _           => ∀ update ∈ ((event.get? "updates").bind Value.asArray?).getD [],
    ((update.get? "event_time").bind Value.asStr?).bind parseTime = some millis

end

def Message.isTrade : Message → Bool
  | .l2Event .. => false
  | _           => true

/-- The packet is encoded from the data. -/
def IsPacketOf (packet : BinaryUdpPacket) : Item → Prop
  | .orderbook orderbook => ∃ isBid now, BinaryUdpPacket.fromOrderbook orderbook isBid now = some packet
  | .trade trade         => ∃ now, BinaryUdpPacket.fromTrade trade now = some packet

theorem nanoseconds_of_some {timestampUnit : TimestampUnit} {timestamp nanos : Nat}
    (h : timestampUnit.toNanoseconds timestamp = some nanos) : nanos = timestamp * timestampUnit.nanosecondsPer := by
  unfold TimestampUnit.toNanoseconds at h
  split at h
  · exact (Option.some.inj h).symm
  · cases h

/-- The wire has the timestamp times the unit. -/
theorem exchangeTimestamp_of_stamped {packet : BinaryUdpPacket} {item : Item} (h : IsPacketOf packet item)
    {timestamp : Nat} {timestampUnit : TimestampUnit} (hstamped : item.Stamped timestamp timestampUnit) :
    (parsePacketHeader packet.toBytes).exchangeTimestamp = timestamp * timestampUnit.nanosecondsPer := by
  cases item with
  | orderbook orderbook =>
      obtain ⟨isBid, now, hpacket⟩ := h
      obtain ⟨rfl, rfl⟩ := hstamped
      exact nanoseconds_of_some (readsSide_fromOrderbook hpacket).2.exchangeTimestamp
  | trade trade =>
      obtain ⟨now, hpacket⟩ := h
      obtain ⟨rfl, rfl⟩ := hstamped
      obtain ⟨-, item, -, hreads⟩ := readsTrade_fromTrade hpacket
      exact nanoseconds_of_some hreads.exchangeTimestamp

variable {parseTime : String → Option Int} {context : Context} {clocks : Clocks} {millis : Int} {item : Item}

/-- A time the filter accepts is the timestamp. -/
theorem readTradeTime_eq {data : Value} {t n : Nat} (ht : (data.index "T").asI64? = some (t : Int)) (hpos : 0 < t)
    (hvalid : processTimestampField clocks.filterMs t = (true, n)) : Binance.readTradeTime clocks data = n := by
  unfold Binance.readTradeTime
  rw [ht]
  dsimp only
  rw [if_pos (Int.natCast_pos.mpr hpos), Int.toNat_natCast, hvalid]
  rfl

/-- A trade is handed on as it is, past the synchronisers. -/
theorem processBinanceMessage_trade (syncs : Feed.Synchronizers) {text : Value} (assetType : String)
    (hconfirmation : Feed.isConfirmation text = false) (htype : Feed.streamType? text = some .trade) :
    Feed.processBinanceMessage syncs (some text) assetType = (syncs, [.trade (Feed.actualData text) assetType]) := by
  unfold Feed.processBinanceMessage
  dsimp only
  rw [hconfirmation, htype]
  rfl

/-- The one thing handed on that a trade is made of is the message itself. -/
theorem tradeOf_of_delivered {syncs : Feed.Synchronizers} {text : Value} {assetType : String} {trade : TradeData}
    (h : trade ∈ (Feed.processBinanceMessage syncs (some text) assetType).2.filterMap
      (tradeOfDelivery context clocks)) :
    Binance.tradeOf context assetType clocks (Feed.actualData text) = some trade := by
  obtain ⟨delivery, hdelivery, htrade⟩ := List.mem_filterMap.mp h
  cases delivery with
  | orderbook data symbol assetType => cases htrade
  | trade data assetType' =>
      suffices hsame : data = Feed.actualData text ∧ assetType' = assetType by
        obtain ⟨rfl, rfl⟩ := hsame
        exact htrade
      unfold Feed.processBinanceMessage at hdelivery
      dsimp only at hdelivery
      split at hdelivery
      · cases hdelivery
      · split at hdelivery
        · cases hdelivery
        · cases List.mem_singleton.mp hdelivery
          exact ⟨rfl, rfl⟩
        · split at hdelivery
          · cases hdelivery
          · split at hdelivery
            · cases hdelivery
            · obtain ⟨_, _, hd⟩ := List.mem_map.mp hdelivery
              cases hd

theorem timestamp_tradeOf {assetType : String} {data : Value} {trade : TradeData}
    (h : Binance.tradeOf context assetType clocks data = some trade) :
    trade.timestamp = Binance.readTradeTime clocks data ∧ trade.timestampUnit = context.feedConfig.timestampUnit := by
  unfold Binance.tradeOf at h
  dsimp only at h
  split at h
  · cases h
  · obtain ⟨commonSymbol, -, htrade⟩ := Option.bind_eq_some_iff.mp h
    obtain rfl := Option.some.inj htrade
    exact ⟨rfl, rfl⟩

/-- What is made of a trade is stamped with its time, if that is not before 1970, and the configured unit. -/
theorem stamped_of_isTrade {message : Message} (htrade : message.isTrade = true)
    (h : message.HappenedAt parseTime clocks millis) (hitem : item ∈ message.items parseTime context clocks) :
    item.Stamped millis.toNat context.feedConfig.timestampUnit := by
  cases message with
  | binanceTrade text syncs assetType =>
      obtain ⟨t, n, ht, hpos, hvalid, rfl⟩ := h
      obtain ⟨trade, hdelivered, rfl⟩ := List.mem_map.mp hitem
      obtain ⟨htimestamp, hunit⟩ := timestamp_tradeOf (tradeOf_of_delivered hdelivered)
      refine ⟨?_, hunit⟩
      rw [htimestamp, readTradeTime_eq ht hpos hvalid, Int.toNat_natCast]
  | coinbaseTrade tradeData assetType =>
      rw [List.mem_singleton.mp hitem]
      refine ⟨?_, rfl⟩
      show ((((tradeData.get? "time").bind Value.asStr?).bind parseTime).map Int.toNat).getD 0 = _
      rw [show ((tradeData.get? "time").bind Value.asStr?).bind parseTime = some millis from h]
      rfl
  | l2Event event builder => cases htrade

/-- What is published for an event is stamped with 0. -/
theorem stamped_l2Event {event : Value} {builder : OrderBookBuilder}
    (hitem : item ∈ (Message.l2Event event builder).items parseTime context clocks) :
    ∃ timestampUnit, item.Stamped 0 timestampUnit := by
  have hzero : ∀ {symbol : String} {update : CoinbaseOrderBookUpdate},
      Coinbase.readEvent context event = some (symbol, update) → update.timestamp = 0 := by
    intro symbol update hread
    unfold Coinbase.readEvent at hread
    dsimp only at hread
    split at hread
    · cases hread
      rfl
    · cases hread
  unfold Message.items at hitem
  dsimp only at hitem
  split at hitem
  · cases hitem
  · rename_i symbol update hread
    obtain ⟨orderbook, hbook, rfl⟩ := List.mem_map.mp hitem
    unfold CoinbaseOrderBookBuilder.processUpdate OrderBookBuilder.process at hbook
    refine ⟨orderbook.timestampUnit, ?_, rfl⟩
    rw [← hzero hread]
    split at hbook
    · rw [List.mem_singleton.mp hbook]
      rfl
    · split at hbook
      · split at hbook
        · rw [List.mem_singleton.mp hbook]
          rfl
        · cases hbook
      · cases hbook

theorem nanosecondsPer_eq_iff (timestampUnit : TimestampUnit) :
    timestampUnit.nanosecondsPer = 1000000 ↔ timestampUnit = .milliseconds := by
  cases timestampUnit <;> decide

/-- **The wire has the time of the exchange** for trades under the unit milliseconds, and for the instant 0. -/
theorem eventTime_on_wire_iff {message : Message} (h : message.HappenedAt parseTime clocks millis)
    (hitem : item ∈ message.items parseTime context clocks) {packet : BinaryUdpPacket}
    (hpacket : IsPacketOf packet item) :
    ((parsePacketHeader packet.toBytes).exchangeTimestamp : Int) = millis * 10 ^ 6 ↔
      (millis = 0 ∨ 0 < millis ∧ message.isTrade = true ∧ context.feedConfig.timestampUnit = .milliseconds) := by
  cases htrade : message.isTrade with
  | true =>
      rw [exchangeTimestamp_of_stamped hpacket (stamped_of_isTrade htrade h hitem), ← nanosecondsPer_eq_iff,
        and_iff_right rfl]
      rcases Int.lt_trichotomy millis 0 with hneg | rfl | hpos
      · -- before 1970 the wire has 0
        rw [Int.toNat_of_nonpos (Int.le_of_lt hneg), Nat.zero_mul]
        omega
      · exact iff_of_true (by norm_num) (Or.inl rfl)
      · obtain ⟨n, rfl⟩ := Int.eq_ofNat_of_zero_le (Int.le_of_lt hpos)
        rw [Int.toNat_natCast]
        push_cast
        rw [mul_right_inj' (Int.ne_of_gt hpos)]
        omega
  | false =>
      cases message with
      | l2Event event builder =>
          obtain ⟨timestampUnit, hstamped⟩ := stamped_l2Event hitem
          rw [exchangeTimestamp_of_stamped hpacket hstamped, Nat.zero_mul]
          have hno : ¬ (0 < millis ∧ false = true ∧ context.feedConfig.timestampUnit = .milliseconds) :=
            fun hyes => Bool.false_ne_true hyes.2.1
          rw [or_iff_left hno]
          omega
      | binanceTrade => cases htrade
      | coinbaseTrade => cases htrade

/-- A trade of a quarter of a bitcoin, in which the buyer was the maker. -/
def quarterBitcoin : Value :=
  .object [("stream", .string "btcusdt@trade"), ("data", .object [("e", .string "trade"), ("s", .string "BTCUSDT"),
    ("p", .string "65000.5"), ("q", .string "0.25"), ("T", .ofNat 1700000000123), ("m", .bool true)])]

def quarterBitcoinTrade : TradeData where
  exchange          := "Binance"
  symbol            := "BTC-USDT"
  assetType         := "spot"
  price             := 6500050000000
  quantity          := 25000000
  pricePrecision    := 8
  quantityPrecision := 8
  timestamp         := 1700000000123
  timestampUnit     := .milliseconds

theorem eventTime_on_wire_iff_quarterBitcoin :
    ∃ packet, BinaryUdpPacket.fromTrade quarterBitcoinTrade 1700000000200000000 = some packet ∧
      (((parsePacketHeader packet.toBytes).exchangeTimestamp : Int) = 1700000000123 * 10 ^ 6 ↔
        ((1700000000123 : Int) = 0 ∨ 0 < (1700000000123 : Int) ∧
          (Message.binanceTrade quarterBitcoin (fun _ => none) "spot").isTrade = true ∧
          millisContext.feedConfig.timestampUnit = .milliseconds)) := by
  obtain ⟨packet, hpacket⟩ := Option.isSome_iff_exists.mp
    (show (BinaryUdpPacket.fromTrade quarterBitcoinTrade 1700000000200000000).isSome by decide +kernel)
  have htrade : Binance.tradeOf millisContext "spot" ⟨1700000000200, 1700000000200⟩ (Feed.actualData quarterBitcoin) =
      some quarterBitcoinTrade := by decide +kernel
  refine ⟨packet, hpacket, @eventTime_on_wire_iff (fun _ => none) millisContext ⟨1700000000200, 1700000000200⟩ _
    (.trade quarterBitcoinTrade) (.binanceTrade quarterBitcoin (fun _ => none) "spot") ?_ ?_ packet ⟨_, hpacket⟩⟩
  · exact ⟨1700000000123, 1700000000123, by decide +kernel, by decide, by decide +kernel, rfl⟩
  · unfold Message.items
    dsimp only
    rw [processBinanceMessage_trade _ _ (by decide +kernel) (by decide +kernel)]
    exact List.mem_map.mpr ⟨quarterBitcoinTrade, List.mem_filterMap.mpr ⟨_, List.mem_singleton.mpr rfl, htrade⟩, rfl⟩

/-- A snapshot of one bid, with the time it was entered. -/
def oneBidEvent : Value :=
  .object [("type", .string "snapshot"), ("product_id", .string "BTC-USD"),
    ("updates", .array [.object [("side", .string "bid"), ("event_time", .string "2023-11-14T22:13:20.123Z"),
      ("price_level", .string "65000.5"), ("new_quantity", .string "0.25")]])]

def oneBidBook : OrderBookData where
  exchange          := "Coinbase"
  symbol            := "BTC-USD"
  assetType         := "spot"
  bids              := [(6500050000000, 25000000)]
  asks              := []
  pricePrecision    := 8
  quantityPrecision := 8
  timestamp         := 0
  timestampUnit     := .milliseconds

theorem not_eventTime_on_wire : ¬ ∀ (parseTime : String → Option Int) (context : Context) (clocks : Clocks)
    (millis : Int) (message : Message) (item : Item) (packet : BinaryUdpPacket),
    0 ≤ millis → millis * 10 ^ 6 < 2 ^ 64 → message.HappenedAt parseTime clocks millis →
      item ∈ message.items parseTime context clocks → IsPacketOf packet item →
      ((parsePacketHeader packet.toBytes).exchangeTimestamp : Int) = millis * 10 ^ 6 := by
  intro h
  let parseTime : String → Option Int := fun s => if s = "2023-11-14T22:13:20.123Z" then some 1700000000123 else none
  obtain ⟨packet, hpacket⟩ := Option.isSome_iff_exists.mp
    (show (BinaryUdpPacket.fromOrderbook oneBidBook true 0).isSome by decide +kernel)
  have hwire := h parseTime millisContext ⟨0, 0⟩ 1700000000123
    (.l2Event oneBidEvent (.new "Coinbase" "BTC-USD" "spot")) (.orderbook oneBidBook) packet
    (by decide) (by decide) (fun update hupdate => ?_) ?_ ⟨true, 0, hpacket⟩
  · rw [@exchangeTimestamp_of_stamped packet (.orderbook oneBidBook) ⟨true, 0, hpacket⟩ 0 .milliseconds
      ⟨rfl, rfl⟩] at hwire
    revert hwire
    decide
  · rw [List.mem_singleton.mp hupdate]
    rfl
  · exact List.mem_singleton.mpr rfl

end Trades
end Crypto
end TradingPlatform
