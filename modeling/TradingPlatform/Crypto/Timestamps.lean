import TradingPlatform.Crypto.Deribit
import TradingPlatform.Sender.Panics

/-!
# `Crypto.Timestamps` — messages that stop the feed

The book handler of Binance, the trade handler of OKX and the builder of Deribit pass the timestamp of a message on
as it is. Where it does not fit nanoseconds the encoder panics, in either build profile. What else of a message may
panic are its numbers: a text that cannot be cut where its decimals end, a power of ten out of range, and a number
that is not to be rescaled. Nothing besides does (`message_safe_iff`).

`none` is a panic.
-/

namespace TradingPlatform
namespace Crypto

open Json Rust Sender
open Parse (Harmless)

/-! ## Reading the messages -/

namespace Binance

/-- `[price, quantity]`, both strings; anything else is skipped. The price is parsed before the quantity is looked
    at. -/
def readLevel (profile : Profile) (pricePrecision qtyPrecision : Nat) (level : Value) : Option (Option (Int × Int)) :=
  match (level.getIdx? 0).bind Value.asStr? with
  | none           => some none
  | some priceText => do
    let price ← Parse.parseToScaledOrDefault profile priceText pricePrecision
    match (level.getIdx? 1).bind Value.asStr? with
    | none         => return none
    | some qtyText =>
      let qty ← Parse.parseToScaledOrDefault profile qtyText qtyPrecision
      return some (price, qty)

def readLevels (profile : Profile) (pricePrecision qtyPrecision : Nat) (levels : List Value) :
    Option (List (Int × Int)) :=
  (levels.mapM (readLevel profile pricePrecision qtyPrecision)).map List.reduceOption

/-- "b" for full depth, "bids" for partial depth. -/
def bidsOf (data : Value) : Option (List Value) := ((data.get? "b").or (data.get? "bids")).bind Value.asArray?

def asksOf (data : Value) : Option (List Value) := ((data.get? "a").or (data.get? "asks")).bind Value.asArray?

/-- Event time, or the clock. -/
def readTimestamp (nowMillis : Nat) (data : Value) : Nat :=
  (((data.get? "E").bind Value.asI64?).map Int.toNat).getD nowMillis

/-- The book of `process_binance_orderbook_data`. A symbol that is not mapped is skipped, and so is a message without
    bids. -/
def orderbookOf (profile : Profile) (context : Context) (assetType originalSymbol : String) (nowMillis : Nat)
    (data : Value) : Option (Option OrderBookData) :=
  match context.symbolMapper.map "Binance" originalSymbol, bidsOf data with
  | some commonSymbol, some bids => do
    let pricePrecision := context.feedConfig.getPricePrecision commonSymbol
    let qtyPrecision := context.feedConfig.getQuantityPrecision commonSymbol
    let bids ← readLevels profile pricePrecision qtyPrecision bids
    let asks ← readLevels profile pricePrecision qtyPrecision ((asksOf data).getD [])
    return some {
      exchange          := "Binance"
      symbol            := commonSymbol
      assetType         := assetType
      bids              := bids
      asks              := asks
      pricePrecision    := pricePrecision
      quantityPrecision := qtyPrecision
      timestamp         := readTimestamp nowMillis data
      timestampUnit     := context.feedConfig.timestampUnit }
  | _, _ => some none

end Binance

namespace Okx

/-- `ts`, or the clock. -/
def readTimestamp (nowMillis : Nat) (tradeData : Value) : Nat :=
  ((((tradeData.get? "ts").bind Value.asStr?).bind fun s => parseI64 s.toList).map Int.toNat).getD nowMillis

/-- A scaled number, 0 if it is missing. -/
def readField (profile : Profile) (tradeData : Value) (key : String) (precision : Nat) : Option Int :=
  match (tradeData.get? key).bind Value.asStr? with
  | none   => some 0
  | some s => Parse.parseToScaledOrDefault profile s precision

def makeTrade (profile : Profile) (context : Context) (assetType commonSymbol : String) (nowMillis : Nat)
    (tradeData : Value) : Option TradeData := do
  let pricePrecision := context.feedConfig.getPricePrecision commonSymbol
  let qtyPrecision := context.feedConfig.getQuantityPrecision commonSymbol
  let price ← readField profile tradeData "px" pricePrecision
  let quantity ← readField profile tradeData "sz" qtyPrecision
  return {
    exchange          := "OKX"
    symbol            := commonSymbol
    assetType         := assetType
    price             := price
    quantity          := quantity
    pricePrecision    := pricePrecision
    quantityPrecision := qtyPrecision
    timestamp         := readTimestamp nowMillis tradeData
    timestampUnit     := context.feedConfig.timestampUnit }

end Okx

namespace Timestamps

/-! ## What is encoded -/

/-- A message, with what its handler or builder has besides. -/
inductive Message where
  | binanceOrderbook (assetType originalSymbol : String) (data : Value)
  | okxTrade (assetType commonSymbol : String) (tradeData : Value)
  | deribitOrderbook (builder : OrderBookBuilder) (commonSymbol : String) (data : Value)

inductive Item where
  | orderbook (orderbook : OrderBookData)
  | trade (trade : TradeData)

/-- The data made of a message. -/
def Message.items (profile : Profile) (context : Context) (nowMillis : Nat) : Message → Option (List Item)
  | .binanceOrderbook assetType originalSymbol data =>
    (Binance.orderbookOf profile context assetType originalSymbol nowMillis data).map fun orderbook =>
      (orderbook.map Item.orderbook).toList
  | .okxTrade assetType commonSymbol tradeData =>
    (Okx.makeTrade profile context assetType commonSymbol nowMillis tradeData).map fun trade => [.trade trade]
  | .deribitOrderbook builder commonSymbol data =>
    some ((DeribitOrderBookBuilder.processUpdate builder (Deribit.updateOf context commonSymbol data)).2.map
      Item.orderbook)

/-- Every packet of it is encoded; `clock` is the time in nanoseconds. -/
def Item.Encoded (profile : Profile) (clock : Nat) : Item → Prop
  | .orderbook book => ∀ isBid, (Profiles.BinaryUdpPacket.fromOrderbook profile book isBid clock).isSome
  | .trade data     => (Profiles.BinaryUdpPacket.fromTrade profile data clock).isSome

/-- Nothing panics: the data is made, and it is encoded. -/
def Message.Safe (profile : Profile) (context : Context) (nowMillis clock : Nat) (message : Message) : Prop :=
  ∃ items, message.items profile context nowMillis = some items ∧ ∀ item ∈ items, item.Encoded profile clock

/-! ## What it takes -/

/-- The timestamp of the message, as its parser reads it. -/
def Message.timestamp (nowMillis : Nat) : Message → Nat
  | .binanceOrderbook _ _ data => Binance.readTimestamp nowMillis data
  | .okxTrade _ _ tradeData    => Okx.readTimestamp nowMillis tradeData
  | .deribitOrderbook _ _ data => (((data.get? "timestamp").bind Value.asI64?).getD 0).toNat

/-- The configured unit; a book of Deribit keeps the one it was started with. -/
def Message.timestampUnit (context : Context) : Message → TimestampUnit
  | .deribitOrderbook builder _ _ => (builder.orderbook.map OrderBookData.timestampUnit).getD
      context.feedConfig.timestampUnit
  | _                             => context.feedConfig.timestampUnit

/-- The texts of a level. -/
def LevelHarmless (profile : Profile) (pricePrecision qtyPrecision : Nat) (level : Value) : Prop :=
  ∀ priceText, (level.getIdx? 0).bind Value.asStr? = some priceText → Harmless profile priceText pricePrecision ∧
    ∀ qtyText, (level.getIdx? 1).bind Value.asStr? = some qtyText → Harmless profile qtyText qtyPrecision

def FieldHarmless (profile : Profile) (tradeData : Value) (key : String) (precision : Nat) : Prop :=
  ∀ s, (tradeData.get? key).bind Value.asStr? = some s → Harmless profile s precision

/-- No text of the message panics in the parser. The numbers of Deribit are no texts. -/
def Message.TextsHarmless (profile : Profile) (context : Context) : Message → Prop
  | .binanceOrderbook _ originalSymbol data =>
    ∀ commonSymbol, context.symbolMapper.map "Binance" originalSymbol = some commonSymbol →
      ∀ bids, Binance.bidsOf data = some bids → ∀ level ∈ bids ++ (Binance.asksOf data).getD [],
        LevelHarmless profile (context.feedConfig.getPricePrecision commonSymbol)
          (context.feedConfig.getQuantityPrecision commonSymbol) level
  | .okxTrade _ commonSymbol tradeData =>
    FieldHarmless profile tradeData "px" (context.feedConfig.getPricePrecision commonSymbol) ∧
      FieldHarmless profile tradeData "sz" (context.feedConfig.getQuantityPrecision commonSymbol)
  | .deribitOrderbook .. => True

/-- The numbers are rescaled: those of a trade, and those of the first seven levels of each side of a book. -/
def Item.Rescales (profile : Profile) : Item → Prop
  | .orderbook book => ∀ isBid, ∀ level ∈ (book.levels isBid).take 7,
      Profiles.Rescalable profile level.1 book.pricePrecision ∧
        Profiles.Rescalable profile level.2 book.quantityPrecision
  | .trade data     => Profiles.Rescalable profile data.price data.pricePrecision ∧
      Profiles.Rescalable profile data.quantity data.quantityPrecision

/-- It has this timestamp and unit. -/
def Item.Stamped (timestamp : Nat) (timestampUnit : TimestampUnit) : Item → Prop
  | .orderbook book => book.timestamp = timestamp ∧ book.timestampUnit = timestampUnit
  | .trade data     => data.timestamp = timestamp ∧ data.timestampUnit = timestampUnit

/-! ## Making the data -/

variable {profile : Profile} {context : Context}

theorem readLevel_isSome_iff (pricePrecision qtyPrecision : Nat) (level : Value) :
    (Binance.readLevel profile pricePrecision qtyPrecision level).isSome ↔
      LevelHarmless profile pricePrecision qtyPrecision level := by
  unfold Binance.readLevel LevelHarmless
  cases (level.getIdx? 0).bind Value.asStr? with
  | none => exact iff_of_true rfl nofun
  | some priceText =>
      simp only [Option.some.injEq, forall_eq', ← Parse.parseToScaledOrDefault_isSome_iff]
      cases Parse.parseToScaledOrDefault profile priceText pricePrecision with
      | none => exact iff_of_false nofun fun h => nomatch h.1
      | some price =>
          simp only [Option.bind_eq_bind, Option.bind_some, Option.isSome_some, true_and]
          cases (level.getIdx? 1).bind Value.asStr? with
          | none => exact iff_of_true rfl nofun
          | some qtyText =>
              simp only [Option.some.injEq, forall_eq']
              cases Parse.parseToScaledOrDefault profile qtyText qtyPrecision with
              | none => exact iff_of_false nofun nofun
              | some qty => exact iff_of_true rfl rfl

theorem readLevels_isSome_iff (pricePrecision qtyPrecision : Nat) (levels : List Value) :
    (Binance.readLevels profile pricePrecision qtyPrecision levels).isSome ↔
      ∀ level ∈ levels, LevelHarmless profile pricePrecision qtyPrecision level := by
  unfold Binance.readLevels
  rw [Option.isSome_map, mapM_isSome_iff]
  exact forall₂_congr fun level _ => readLevel_isSome_iff pricePrecision qtyPrecision level

theorem readField_isSome_iff (tradeData : Value) (key : String) (precision : Nat) :
    (Okx.readField profile tradeData key precision).isSome ↔ FieldHarmless profile tradeData key precision := by
  unfold Okx.readField FieldHarmless
  cases (tradeData.get? key).bind Value.asStr? with
  | none => exact iff_of_true rfl nofun
  | some s =>
      simp only [Option.some.injEq, forall_eq']
      exact Parse.parseToScaledOrDefault_isSome_iff profile s precision

/-- **The data is made** when no text panics. -/
theorem items_isSome_iff (nowMillis : Nat) (message : Message) :
    (message.items profile context nowMillis).isSome ↔ message.TextsHarmless profile context := by
  cases message with
  | binanceOrderbook assetType originalSymbol data =>
      show (Option.map _ (Binance.orderbookOf ..)).isSome ↔ ∀ commonSymbol, _ → ∀ bids, _ → _
      rw [Option.isSome_map]
      unfold Binance.orderbookOf
      cases context.symbolMapper.map "Binance" originalSymbol with
      | none => exact iff_of_true rfl nofun
      | some commonSymbol =>
          cases Binance.bidsOf data with
          | none => exact iff_of_true rfl nofun
          | some bids =>
              simp only [Option.some.injEq, forall_eq', List.forall_mem_append, ← readLevels_isSome_iff]
              cases Binance.readLevels profile _ _ bids with
              | none => exact iff_of_false nofun fun h => nomatch h.1
              | some read =>
                  cases Binance.readLevels profile _ _ ((Binance.asksOf data).getD []) with
                  | none => exact iff_of_false nofun fun h => nomatch h.2
                  | some asks => exact iff_of_true rfl ⟨rfl, rfl⟩
  | okxTrade assetType commonSymbol tradeData =>
      show (Option.map _ (Okx.makeTrade ..)).isSome ↔ _ ∧ _
      rw [Option.isSome_map, ← readField_isSome_iff, ← readField_isSome_iff]
      unfold Okx.makeTrade
      dsimp only
      cases Okx.readField profile tradeData "px" _ with
      | none => exact iff_of_false nofun fun h => nomatch h.1
      | some price =>
          cases Okx.readField profile tradeData "sz" _ with
          | none => exact iff_of_false nofun fun h => nomatch h.2
          | some quantity => exact iff_of_true rfl ⟨rfl, rfl⟩
  | deribitOrderbook builder commonSymbol data => exact iff_of_true rfl trivial

theorem stamped_of_mem {nowMillis : Nat} {message : Message} {items : List Item}
    (h : message.items profile context nowMillis = some items) {item : Item} (hitem : item ∈ items) :
    item.Stamped (message.timestamp nowMillis) (message.timestampUnit context) := by
  cases message with
  | binanceOrderbook assetType originalSymbol data =>
      obtain ⟨made, hmade, rfl⟩ := Option.map_eq_some_iff.mp h
      obtain ⟨orderbook, rfl, rfl⟩ := Option.map_eq_some_iff.mp (Option.mem_toList.mp hitem)
      unfold Binance.orderbookOf at hmade
      split at hmade
      · obtain ⟨bids, -, hmade⟩ := Option.bind_eq_some_iff.mp hmade
        obtain ⟨asks, -, hmade⟩ := Option.bind_eq_some_iff.mp hmade
        rw [← Option.some.inj (Option.some.inj hmade)]
        exact ⟨rfl, rfl⟩
      · cases hmade
  | okxTrade assetType commonSymbol tradeData =>
      obtain ⟨trade, hmade, rfl⟩ := Option.map_eq_some_iff.mp h
      obtain ⟨price, -, hmade⟩ := Option.bind_eq_some_iff.mp hmade
      obtain ⟨quantity, -, hmade⟩ := Option.bind_eq_some_iff.mp hmade
      rw [List.mem_singleton.mp hitem, ← Option.some.inj hmade]
      exact ⟨rfl, rfl⟩
  | deribitOrderbook builder commonSymbol data =>
      rw [← Option.some.inj h] at hitem
      obtain ⟨orderbook, hbook, rfl⟩ := List.mem_map.mp hitem
      rw [List.mem_singleton.mp hbook]
      obtain ⟨exchange, symbol, assetType, stored⟩ := builder
      cases stored with
      | none => exact ⟨rfl, rfl⟩
      | some book => exact ⟨rfl, rfl⟩

/-! ## When nothing panics -/

theorem encoded_iff (item : Item) (clock : Nat) {timestamp : Nat} {timestampUnit : TimestampUnit}
    (h : item.Stamped timestamp timestampUnit) :
    item.Encoded profile clock ↔ timestamp * timestampUnit.nanosecondsPer < 2 ^ 64 ∧ item.Rescales profile := by
  cases item with
  | orderbook orderbook =>
      obtain ⟨rfl, rfl⟩ := h
      have hsides : (Item.orderbook orderbook).Encoded profile clock ↔ ∀ isBid,
          orderbook.timestamp * orderbook.timestampUnit.nanosecondsPer < 2 ^ 64 ∧ _ :=
        forall_congr' fun isBid => Profiles.fromOrderbook_isSome_iff profile orderbook isBid clock
      rw [hsides, forall_and, forall_const]
      rfl
  | trade trade =>
      obtain ⟨rfl, rfl⟩ := h
      exact Profiles.fromTrade_isSome_iff profile trade clock

/-- **A message stops the feed** exactly when one of its texts does, or when data is made of it and its timestamp does
    not fit nanoseconds or a number cannot be rescaled. -/
theorem message_safe_iff (profile : Profile) (context : Context) (nowMillis clock : Nat) (message : Message) :
    message.Safe profile context nowMillis clock ↔
      message.TextsHarmless profile context ∧ ∀ items, message.items profile context nowMillis = some items →
        ∀ item ∈ items, message.timestamp nowMillis * (message.timestampUnit context).nanosecondsPer < 2 ^ 64 ∧
          item.Rescales profile := by
  rw [← items_isSome_iff nowMillis message, Message.Safe]
  cases hitems : message.items profile context nowMillis with
  | none => exact iff_of_false (fun ⟨_, h, _⟩ => nomatch h) fun h => nomatch h.1
  | some items =>
      simp only [Option.some.injEq, exists_eq_left', forall_eq', Option.isSome_some, true_and]
      exact forall₂_congr fun item hitem => encoded_iff item clock (stamped_of_mem hitems hitem)

/-- Prices and quantities with 8 decimals, timestamps in milliseconds. -/
def millisContext : Context where
  symbolMapper := ⟨[("Binance", [("BTCUSDT", "BTC-USDT")])]⟩
  feedConfig   := { pricePrecision := 8, quantityPrecision := 8, symbolPrecision := [], timestampUnit := .milliseconds }

/-- A book message whose event time is the largest `i64`. -/
def farFuture : Value :=
  .object [("E", .ofNat 9223372036854775807), ("b", .array [.array [.string "65000.5", .string "0.25"]]),
    ("a", .array [])]

def farFutureBook : OrderBookData where
  exchange          := "Binance"
  symbol            := "BTC-USDT"
  assetType         := "spot"
  bids              := [(6500050000000, 25000000)]
  asks              := []
  pricePrecision    := 8
  quantityPrecision := 8
  timestamp         := 9223372036854775807
  timestampUnit     := .milliseconds

/-- In neither profile. -/
theorem farFuture_panics : ¬ ∃ profile,
    (Message.binanceOrderbook "spot" "BTCUSDT" farFuture).Safe profile millisContext 1700000000000 0 := by
  rintro ⟨profile, h⟩
  have hbook : Binance.orderbookOf profile millisContext "spot" "BTCUSDT" 1700000000000 farFuture =
      some (some farFutureBook) := by
    cases profile <;> decide +kernel
  have hitems : (Message.binanceOrderbook "spot" "BTCUSDT" farFuture).items profile millisContext 1700000000000 =
      some [.orderbook farFutureBook] := by
    show Option.map _ (Binance.orderbookOf ..) = _
    rw [hbook]
    rfl
  obtain ⟨items, hmade, hencoded⟩ := h
  obtain rfl := Option.some.inj (hitems.symm.trans hmade)
  have htimestamp := ((Profiles.fromOrderbook_isSome_iff profile farFutureBook true 0).mp
    (hencoded _ (List.mem_singleton.mpr rfl) true)).1
  exact absurd htimestamp (by decide)

/-- A price with a letter where its decimals end stops the feed, whatever the time. -/
example : ∀ profile, ¬ Harmless profile "1.0000000é" 8 := by
  intro profile
  rw [← Parse.parseToScaled_isSome_iff]
  cases profile <;> decide +kernel

end Timestamps
end Crypto
end TradingPlatform
