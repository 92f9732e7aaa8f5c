import TradingPlatform.Crypto.Timestamps

/-!
# `Crypto.Readers` — OKX, Upbit and Bithumb: handlers without builders

The handlers of these three make trades and whole books of a message by themselves, one item for each entry of it,
and the task that reads the socket stores and sends them. Here they are as the release build runs them: arithmetic
wraps, and what panics while an item is made is the cutting of decimals inside a character. Numbers that come as JSON
numbers are scaled in floating point.
-/

namespace TradingPlatform
namespace Crypto

open Json Rust Sender Timestamps

/-- A timestamp before the epoch is 0. -/
def asTimestamp (t : Int) : Nat := t.toNat

/-! ## The handlers

What a message holds is made one item after the other. An item is `none` if making it panics; `nowMillis` is the clock
when that entry of the message is read. -/

namespace Okx

/-- `[price, quantity, ..]`, both strings; anything else is skipped. -/
def readLevel (pricePrecision qtyPrecision : Nat) (level : Value) : Option (Option (Int × Int)) :=
  match level.asArray? with
  | some (price :: qty :: _) =>
      match price.asStr?, qty.asStr? with
      | some priceStr, some qtyStr => do
          let price ← Parse.parseToScaledOrDefault .release priceStr pricePrecision
          let qty ← Parse.parseToScaledOrDefault .release qtyStr qtyPrecision
          return some (price, qty)
      | _, _ => some none
  | _ => some none

def readSide (bookData : Value) (side : String) (pricePrecision qtyPrecision : Nat) : Option (List (Int × Int)) :=
  ((((bookData.get? side).bind Value.asArray?).getD []).mapM (readLevel pricePrecision qtyPrecision)).map
    List.reduceOption

def makeOrderbook (context : Context) (assetType commonSymbol : String) (nowMillis : Nat) (bookData : Value) :
    Option OrderBookData := do
  let pricePrecision := context.feedConfig.getPricePrecision commonSymbol
  let qtyPrecision := context.feedConfig.getQuantityPrecision commonSymbol
  let bids ← readSide bookData "bids" pricePrecision qtyPrecision
  let asks ← readSide bookData "asks" pricePrecision qtyPrecision
  return {
    exchange          := "OKX"
    symbol            := commonSymbol
    assetType         := assetType
    bids              := bids
    asks              := asks
    pricePrecision    := pricePrecision
    quantityPrecision := qtyPrecision
    timestamp         := readTimestamp nowMillis bookData
    timestampUnit     := context.feedConfig.timestampUnit }

/-- Market data of a channel of one instrument. Of the book channels only "books5" is supported. -/
def processChannel (context : Context) (assetType commonSymbol channel : String) (nowMillis : Nat → Nat)
    (data : Value) : List (Option Item) :=
  let entries := (data.asArray?).getD []
  if channel = "trades" then
    entries.mapIdx fun i tradeData =>
      (makeTrade .release context assetType commonSymbol (nowMillis i) tradeData).map .trade
  else if channel = "books5" then
    entries.mapIdx fun i bookData =>
      (makeOrderbook context assetType commonSymbol (nowMillis i) bookData).map .orderbook
  else []

/-- Responses have an "event"; market data has "arg" and "data". -/
def processMessage (context : Context) (assetType : String) (nowMillis : Nat → Nat) (value : Value) :
    List (Option Item) :=
  if ((value.get? "event").bind Value.asStr?).isSome then []
  else
    match value.get? "arg", value.get? "data" with
    | some arg, some data =>
      match (arg.get? "channel").bind Value.asStr? with
      | none => []
      | some channel =>
          let instId := ((arg.get? "instId").bind Value.asStr?).getD ""
          if instId = "" then []
          else processChannel context assetType (context.commonSymbol "OKX" instId) channel nowMillis data
    | _, _ => []

end Okx

namespace Upbit

/-- A number that is missing is 0. -/
def readNumber (value : Value) (key : String) (precision : Nat) : Int :=
  (((value.index key).asF64?).map fun v => scaleF64 v precision).getD 0

/-- One side of a unit. -/
def readUnit (price size : String) (pricePrecision qtyPrecision : Nat) (unit : Value) : Option (Int × Int) := do
  let price ← (unit.index price).asF64?
  let size ← (unit.index size).asF64?
  return (scaleF64 price pricePrecision, scaleF64 size qtyPrecision)

/-- A trade without a timestamp is at 0. -/
def makeTrade (context : Context) (assetType commonSymbol : String) (value : Value) : TradeData :=
  let pricePrecision := context.feedConfig.getPricePrecision commonSymbol
  let qtyPrecision := context.feedConfig.getQuantityPrecision commonSymbol
  { exchange          := "Upbit"
    symbol            := commonSymbol
    assetType         := assetType
    price             := readNumber value "trade_price" pricePrecision
    quantity          := readNumber value "trade_volume" qtyPrecision
    pricePrecision    := pricePrecision
    quantityPrecision := qtyPrecision
    timestamp         := asTimestamp (((value.index "trade_timestamp").asI64?).getD 0)
    timestampUnit     := context.feedConfig.timestampUnit }

/-- A book without a timestamp is of now. -/
def makeOrderbook (context : Context) (assetType commonSymbol : String) (nowMillis : Nat) (value : Value)
    (units : List Value) : OrderBookData :=
  let pricePrecision := context.feedConfig.getPricePrecision commonSymbol
  let qtyPrecision := context.feedConfig.getQuantityPrecision commonSymbol
  { exchange          := "Upbit"
    symbol            := commonSymbol
    assetType         := assetType
    bids              := units.filterMap (readUnit "bid_price" "bid_size" pricePrecision qtyPrecision)
    asks              := units.filterMap (readUnit "ask_price" "ask_size" pricePrecision qtyPrecision)
    pricePrecision    := pricePrecision
    quantityPrecision := qtyPrecision
    timestamp         := (((value.get? "timestamp").bind Value.asI64?).map asTimestamp).getD nowMillis
    timestampUnit     := context.feedConfig.timestampUnit }

/-- A symbol that is not mapped is skipped. -/
def processMessage (context : Context) (assetType : String) (nowMillis : Nat → Nat) (value : Value) :
    List (Option Item) :=
  let messageType := ((value.get? "type").bind Value.asStr?).getD ""
  let originalSymbol := ((value.get? "code").bind Value.asStr?).getD ""
  if originalSymbol = "" then []
  else
    match context.symbolMapper.map "Upbit" originalSymbol with
    | none              => []
    | some commonSymbol =>
      if messageType = "trade" then [some (.trade (makeTrade context assetType commonSymbol value))]
      else if messageType = "orderbook" then
        match (value.get? "orderbook_units").bind Value.asArray? with
        | none       => []
        | some units => [some (.orderbook (makeOrderbook context assetType commonSymbol (nowMillis 0) value units))]
      else []

end Upbit

namespace Bithumb

/-- The first of the fields that is there. -/
def firstOf (value : Value) (keys : List String) : Option Value := keys.findSome? value.get?

/-- One side of a unit. -/
def readUnit (price size : String) (pricePrecision qtyPrecision : Nat) (unit : Value) : Option (Int × Int) := do
  let price ← (unit.get? price).bind Value.asF64?
  let size ← (unit.get? size).bind Value.asF64?
  return (scaleF64 price pricePrecision, scaleF64 size qtyPrecision)

/-- A trade without a price is at 0, one without a quantity is of 1. -/
def makeTrade (context : Context) (assetType commonSymbol : String) (nowMillis : Nat) (value : Value) : TradeData :=
  let pricePrecision := context.feedConfig.getPricePrecision commonSymbol
  let qtyPrecision := context.feedConfig.getQuantityPrecision commonSymbol
  { exchange          := "Bithumb"
    symbol            := commonSymbol
    assetType         := assetType
    price             := (((firstOf value ["trade_price", "tp"]).bind Value.asF64?).map fun v =>
      scaleF64 v pricePrecision).getD 0
    quantity          := (((firstOf value ["trade_volume", "tv"]).bind Value.asF64?).map fun v =>
      scaleF64 v qtyPrecision).getD (scale qtyPrecision)
    pricePrecision    := pricePrecision
    quantityPrecision := qtyPrecision
    timestamp         := (((firstOf value ["trade_timestamp", "ttms", "timestamp"]).bind Value.asI64?).map
      asTimestamp).getD nowMillis
    timestampUnit     := context.feedConfig.timestampUnit }

/-- A book has the first 20 units. -/
def makeOrderbook (context : Context) (assetType commonSymbol : String) (nowMillis : Nat) (value : Value)
    (units : List Value) : OrderBookData :=
  let pricePrecision := context.feedConfig.getPricePrecision commonSymbol
  let qtyPrecision := context.feedConfig.getQuantityPrecision commonSymbol
  { exchange          := "Bithumb"
    symbol            := commonSymbol
    assetType         := assetType
    bids              := (units.take 20).filterMap (readUnit "bid_price" "bid_size" pricePrecision qtyPrecision)
    asks              := (units.take 20).filterMap (readUnit "ask_price" "ask_size" pricePrecision qtyPrecision)
    pricePrecision    := pricePrecision
    quantityPrecision := qtyPrecision
    timestamp         := (((value.get? "timestamp").bind Value.asI64?).map asTimestamp).getD nowMillis
    timestampUnit     := context.feedConfig.timestampUnit }

/-- Status messages and responses are logged. A symbol that is not mapped is skipped. -/
def processMessage (context : Context) (assetType : String) (nowMillis : Nat → Nat) (value : Value) :
    List (Option Item) :=
  if ((value.get? "status").bind Value.asStr?).isSome then []
  else if ((value.get? "resmsg").bind Value.asStr?).isSome then []
  else
    let msgType := ((value.get? "type").bind Value.asStr?).getD ""
    if msgType = "trade" then
      let originalSymbol := ((firstOf value ["code", "cd"]).bind Value.asStr?).getD ""
      match context.symbolMapper.map "Bithumb" originalSymbol with
      | none              => []
      | some commonSymbol => [some (.trade (makeTrade context assetType commonSymbol (nowMillis 0) value))]
    else if msgType = "orderbook" then
      let originalSymbol := ((value.get? "code").bind Value.asStr?).getD ""
      match context.symbolMapper.map "Bithumb" originalSymbol with
      | none              => []
      | some commonSymbol =>
        match (value.get? "orderbook_units").bind Value.asArray? with
        | none       => []
        | some units => [some (.orderbook (makeOrderbook context assetType commonSymbol (nowMillis 0) value units))]
    else []

end Bithumb

end Crypto
end TradingPlatform
