import TradingPlatform.Feed.BinanceSnapshot
import TradingPlatform.Rust.Text
import Mathlib.Logic.Function.Basic

/-!
# `Feed.Binance` — the websocket handler

`process_binance_message` classifies a parsed message, finds the synchroniser of its symbol and, for a depth
message, either buffers it and tries to synchronise or validates it against the last id. What it hands on is
a list of `Delivery`s; the synchronisers live in a map keyed by the symbol.

`handleDepth` is the part of the handler that works on one synchroniser, `initialize_orderbook_synchronizers`
builds the map from the configuration.
-/

namespace TradingPlatform
namespace Feed

open Json Rust

/-! ## Subscriptions -/

/-- The part of the configuration the handler reads. -/
structure ExchangeConfig where
  assetType      : List String
  spotSymbols    : List String
  futuresSymbols : List String
  orderDepth     : Nat

namespace ExchangeConfig

def symbols (config : ExchangeConfig) (assetType : String) : List String :=
  if assetType = "spot" then config.spotSymbols else config.futuresSymbols

/-- The order-book stream `connect_websocket` asks for. Symbols are taken to be ASCII, here and when they are put in
    upper case again. -/
def orderbookStream (config : ExchangeConfig) (assetType code : String) : String :=
  let updateSpeed := if assetType = "futures" then "0ms" else "100ms"
  if config.orderDepth > 0 then
    let depthLevel := if config.orderDepth ≤ 5 then 5 else if config.orderDepth ≤ 10 then 10 else 20
    toLowercase code ++ "@depth" ++ (toString depthLevel ++ "@" ++ updateSpeed)
  else
    toLowercase code ++ "@depth" ++ ("20@" ++ updateSpeed)

/-- All `(symbol, asset_type)` pairs, asset type by asset type. -/
def allSymbols (config : ExchangeConfig) : List (String × String) :=
  config.assetType.flatMap fun assetType => (config.symbols assetType).map fun symbol => (symbol, assetType)

end ExchangeConfig

/-- The synchronisers by symbol. -/
abbrev Synchronizers := String → Option BinanceOrderbookSynchronizer

/-- The entry of one `(symbol, asset_type)` pair: it replaces whatever the symbol had before. `fetched` is what
    its fetch task stored, `none` where the fetch failed. -/
def addSynchronizer (fetched : String → String → Option BinanceSnapshot) (syncs : Synchronizers)
    (entry : String × String) : Synchronizers :=
  Function.update syncs entry.1
    (some { BinanceOrderbookSynchronizer.new entry.1 entry.2 with snapshot := fetched entry.1 entry.2 })

def initializeOrderbookSynchronizers (config : ExchangeConfig)
    (fetched : String → String → Option BinanceSnapshot) : Synchronizers :=
  config.allSymbols.foldl (addSynchronizer fetched) fun _ => none

/-! ## Reading a message -/

inductive StreamType where
  | trade
  | orderbook
deriving DecidableEq

/-- A subscription confirmation carries no market data. -/
def isConfirmation (value : Value) : Bool := (value.get? "result").isSome && (value.get? "id").isSome

def streamName (value : Value) : String := ((value.get? "stream").bind Value.asStr?).getD ""

/-- Combined streams wrap the message: `stream` names the stream, `data` holds the message. -/
def actualData (value : Value) : Value :=
  if (value.get? "stream").isSome && (value.get? "data").isSome then value.index "data" else value

/-- The stream name decides; without a telling one the fields of the message do. -/
def streamType? (value : Value) : Option StreamType :=
  let data := actualData value
  if contains (streamName value) "@trade" then some .trade
  else if contains (streamName value) "@depth" then some .orderbook
  else if (data.get? "e").bind Value.asStr? = some "trade" then some .trade
  else if ((data.get? "b").isSome && (data.get? "a").isSome) ||
      ((data.get? "bids").isSome && (data.get? "asks").isSome) then some .orderbook
  else none

def originalSymbol (value : Value) : String :=
  if streamName value ≠ "" then toUppercase (splitFirst '@' (streamName value))
  else (((actualData value).get? "s").bind Value.asStr?).getD ""

/-- The sequence fields: `u` defaults to 0, `U` to `u`, `pu` may be absent. -/
def depthEvent (data : Value) : BufferedDepthEvent :=
  let finalUpdateId := ((data.get? "u").bind Value.asU64?).getD 0
  { firstUpdateId := ((data.get? "U").bind Value.asU64?).getD finalUpdateId
    finalUpdateId := finalUpdateId
    prevUpdateId  := (data.get? "pu").bind Value.asU64?
    data          := data }

/-! ## The handler -/

/-- A depth message at the synchroniser of its symbol; the second component is what is processed further. -/
def handleDepth (s : BinanceOrderbookSynchronizer) (data : Value) :
    BinanceOrderbookSynchronizer × List Value :=
  let event := depthEvent data
  if s.needsSync then
    match (s.bufferEvent event).synchronize with
    | (s', .ok validatedEvents) => (s', validatedEvents)
    | (s', .error _)            => (s', [])
  else
    match s.validateEvent event with
    | (s', true)  => (s', [data])
    -- a gap: the event is buffered and the next one will try to synchronise
    | (s', false) => (s'.bufferEvent event, [])

/-- A message handed on: a trade to the trade arm, a depth message to `process_binance_orderbook_data`. -/
inductive Delivery where
  | trade (data : Value) (assetType : String)
  | orderbook (data : Value) (originalSymbol assetType : String)

/-- `process_binance_message`. The text arrives parsed, `none` when it is not JSON. -/
def processBinanceMessage (syncs : Synchronizers) (text : Option Value) (assetType : String) :
    Synchronizers × List Delivery :=
  match text with
  | none       => (syncs, [])
  | some value =>
    if isConfirmation value then (syncs, [])
    else
      match streamType? value with
      | none            => (syncs, [])
      -- trades go past the synchronisers
      | some .trade     => (syncs, [.trade (actualData value) assetType])
      | some .orderbook =>
        if originalSymbol value = "" then (syncs, [])
        else
          -- by symbol alone: `asset_type` only labels what is handed on
          match syncs (originalSymbol value) with
          | none   => (syncs, [])
          | some s =>
            (Function.update syncs (originalSymbol value) (some (handleDepth s (actualData value)).1),
              (handleDepth s (actualData value)).2.map
                fun data => .orderbook data (originalSymbol value) assetType)

end Feed
end TradingPlatform
