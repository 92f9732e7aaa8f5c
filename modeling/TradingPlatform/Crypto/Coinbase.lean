import TradingPlatform.Crypto.Bybit

/-!
# `Crypto.Coinbase` — the order-book messages of the Coinbase feed

`process_coinbase_message` reads two formats. A message with a channel is one of the Advanced Trade API: on
`l2_data` it carries events, and each event makes an update of its own. A message without is one of the older API
and makes at most one. Only the older updates have a time, which a third-party parser reads: `parseTime` stands for
it and answers in milliseconds.
-/

namespace TradingPlatform
namespace Crypto

open Json Rust Sender Manager

namespace Coinbase

/-! ## The handler -/

/-- Levels as they come, bids and asks mixed: side, price, quantity. -/
abbrev SidedLevel := String × Int × Int

/-- The levels whose side is `wanted`. -/
def onSide (wanted : String → Bool) (levels : List SidedLevel) : List (Int × Int) :=
  (levels.filter fun level => wanted level.1).map Prod.snd

def updateOf (context : Context) (commonSymbol messageType : String) (bids asks : List (Int × Int))
    (timestamp : Nat) : CoinbaseOrderBookUpdate where
  messageType       := messageType
  bids              := bids
  asks              := asks
  timestamp         := timestamp
  pricePrecision    := context.feedConfig.getPricePrecision commonSymbol
  quantityPrecision := context.feedConfig.getQuantityPrecision commonSymbol
  timestampUnit     := context.feedConfig.timestampUnit

/-- An entry of the `updates` of an event; what is missing reads as `""` or `"0"`. -/
def readUpdate (pricePrecision qtyPrecision : Nat) (update : Value) : SidedLevel :=
  (((update.get? "side").bind Value.asStr?).getD "",
    parseToScaledOrDefault (((update.get? "price_level").bind Value.asStr?).getD "0") pricePrecision,
    parseToScaledOrDefault (((update.get? "new_quantity").bind Value.asStr?).getD "0") qtyPrecision)

/-- An event of the `l2_data` channel. A snapshot and an update differ in nothing but the type; other types make no
    update. Neither has a time. -/
def readEvent (context : Context) (event : Value) : Option (String × CoinbaseOrderBookUpdate) :=
  let msgType := ((event.get? "type").bind Value.asStr?).getD ""
  let commonSymbol := context.commonSymbol "Coinbase" (((event.get? "product_id").bind Value.asStr?).getD "")
  let pricePrecision := context.feedConfig.getPricePrecision commonSymbol
  let qtyPrecision := context.feedConfig.getQuantityPrecision commonSymbol
  let levels := (((event.get? "updates").bind Value.asArray?).getD []).map (readUpdate pricePrecision qtyPrecision)
  if msgType = "snapshot" ∨ msgType = "update" then
    some (commonSymbol, updateOf context commonSymbol msgType (onSide (· = "bid") levels) (onSide (· = "ask") levels) 0)
  else none

/-- `[side, price, quantity]`; arrays of another length are skipped, and a number that is no string reads as 0. -/
def readChange (pricePrecision qtyPrecision : Nat) (change : Value) : Option SidedLevel :=
  match change.asArray? with
  | some [side, price, quantity] =>
    some (side.asStr?.getD "", (price.asStr?.map fun s => parseToScaledOrDefault s pricePrecision).getD 0,
      (quantity.asStr?.map fun s => parseToScaledOrDefault s qtyPrecision).getD 0)
  | _ => none

/-- A `snapshot` of the older API; its levels are pairs of strings, as in a message of Bybit. -/
def readSnapshot (context : Context) (value : Value) : String × CoinbaseOrderBookUpdate :=
  let commonSymbol := context.commonSymbol "Coinbase" (((value.get? "product_id").bind Value.asStr?).getD "")
  let levels := Bybit.readLevels (context.feedConfig.getPricePrecision commonSymbol)
    (context.feedConfig.getQuantityPrecision commonSymbol)
  (commonSymbol, updateOf context commonSymbol "snapshot" (levels (value.get? "bids")) (levels (value.get? "asks")) 0)

/-- An `l2update` of the older API; what is not a buy is an ask. -/
def readL2Update (parseTime : String → Option Int) (context : Context) (value : Value) :
    String × CoinbaseOrderBookUpdate :=
  let commonSymbol := context.commonSymbol "Coinbase" (((value.get? "product_id").bind Value.asStr?).getD "")
  let timestamp := (((value.get? "time").bind Value.asStr?).bind parseTime).getD 0 |>.toNat
  let pricePrecision := context.feedConfig.getPricePrecision commonSymbol
  let qtyPrecision := context.feedConfig.getQuantityPrecision commonSymbol
  let levels := (((value.get? "changes").bind Value.asArray?).getD []).filterMap
    (readChange pricePrecision qtyPrecision)
  (commonSymbol,
    updateOf context commonSymbol "update" (onSide (· = "buy") levels) (onSide (· ≠ "buy") levels) timestamp)

/-- The updates a message makes, each with the symbol whose channel it goes to. Trades, tickers and errors make
    none. -/
def processCoinbaseMessage (parseTime : String → Option Int) (context : Context) (value : Value) :
    List (String × CoinbaseOrderBookUpdate) :=
  let channel := (value.get? "channel").bind Value.asStr?
  let msgType := (value.get? "type").bind Value.asStr?
  if channel = some "market_trades" then []
  else if channel = some "l2_data" then
    (((value.get? "events").bind Value.asArray?).getD []).filterMap (readEvent context)
  else if msgType = some "snapshot" then [readSnapshot context value]
  else if msgType = some "l2update" then [readL2Update parseTime context value]
  else []

/-! ## Messages of the `l2_data` channel -/

inductive L2Type where
  | snapshot
  | update
deriving DecidableEq

def L2Type.name : L2Type → String
  | snapshot => "snapshot"
  | update   => "update"

/-- An event about one product; its updates are a side, a price and the new quantity there. -/
structure L2Event where
  kind      : L2Type
  productId : String
  updates   : List (Bool × Numeral × Numeral)

namespace L2Event

/-- The names the handler knows the sides by. -/
def sideName (isBid : Bool) : String := if isBid then "bid" else "ask"

def updateJson (update : Bool × Numeral × Numeral) : Value :=
  .object [("side", .string (sideName update.1)), ("price_level", .string update.2.1.text),
    ("new_quantity", .string update.2.2.text)]

def json (e : L2Event) : Value :=
  .object [("type", .string e.kind.name), ("product_id", .string e.productId),
    ("updates", .array (e.updates.map updateJson))]

variable (context : Context)

def common (e : L2Event) : String := context.commonSymbol "Coinbase" e.productId

/-- The levels of a side, in units of the symbol's precisions. -/
def units (e : L2Event) (isBid : Bool) : List (Int × Int) :=
  (e.updates.filter fun update => update.1 = isBid).map fun update =>
    (Crypto.units (context.feedConfig.getPricePrecision (e.common context)) update.2.1,
      Crypto.units (context.feedConfig.getQuantityPrecision (e.common context)) update.2.2)

/-- The numbers are in range of what they are stored in. -/
structure Valid (e : L2Event) : Prop where
  pricePrecision    : context.feedConfig.getPricePrecision (e.common context) ≤ 18
  quantityPrecision : context.feedConfig.getQuantityPrecision (e.common context) ≤ 18
  updates           : ∀ update ∈ e.updates,
    InRange update.2.1 (context.feedConfig.getPricePrecision (e.common context)) ∧
      InRange update.2.2 (context.feedConfig.getQuantityPrecision (e.common context))

/-- The update the handler makes of an event. -/
def update (e : L2Event) : CoinbaseOrderBookUpdate :=
  updateOf context (e.common context) e.kind.name (e.units context true) (e.units context false) 0

end L2Event

/-- A message with its events. -/
def l2Json (events : List L2Event) : Value :=
  .object [("channel", .string "l2_data"), ("events", .array (events.map L2Event.json))]

variable {context : Context} {e : L2Event}

/-- An update goes to its side and to no other. -/
theorem onSide_readUpdate (h : e.Valid context) (isBid : Bool) :
    onSide (· = L2Event.sideName isBid) ((e.updates.map L2Event.updateJson).map
        (readUpdate (context.feedConfig.getPricePrecision (e.common context))
          (context.feedConfig.getQuantityPrecision (e.common context)))) = e.units context isBid := by
  have hupdates := h.updates
  have hside : ∀ b, decide (L2Event.sideName b = L2Event.sideName isBid) = decide (b = isBid) := by
    intro b
    cases b <;> cases isBid <;> decide
  rw [onSide, L2Event.units, List.map_map]
  generalize e.updates = updates at hupdates
  induction updates with
  | nil => rfl
  | cons update updates ih =>
      obtain ⟨hprice, hquantity⟩ := hupdates update List.mem_cons_self
      have hread : (readUpdate (context.feedConfig.getPricePrecision (e.common context))
          (context.feedConfig.getQuantityPrecision (e.common context)) ∘ L2Event.updateJson) update =
          (L2Event.sideName update.1, Crypto.units (context.feedConfig.getPricePrecision (e.common context)) update.2.1,
            Crypto.units (context.feedConfig.getQuantityPrecision (e.common context)) update.2.2) := by
        rw [← hprice.parseToScaledOrDefault h.pricePrecision, ← hquantity.parseToScaledOrDefault h.quantityPrecision]
        rfl
      have hrest := ih fun u hu => hupdates u (List.mem_cons_of_mem _ hu)
      rw [List.map_cons, hread, List.filter_cons, List.filter_cons]
      dsimp only
      rw [hside]
      split
      · rw [List.map_cons, List.map_cons, hrest]
      · exact hrest

theorem readEvent_json (h : e.Valid context) :
    readEvent context e.json = some (e.common context, e.update context) := by
  have htype : ((e.json.get? "type").bind Value.asStr?).getD "" = e.kind.name := rfl
  have hsymbol : context.commonSymbol "Coinbase" (((e.json.get? "product_id").bind Value.asStr?).getD "") =
      e.common context := rfl
  have hupdates : ((e.json.get? "updates").bind Value.asArray?).getD [] = e.updates.map L2Event.updateJson := rfl
  have hkind : e.kind.name = "snapshot" ∨ e.kind.name = "update" := by
    cases e.kind
    · exact Or.inl rfl
    · exact Or.inr rfl
  have hbids := onSide_readUpdate h true
  have hasks := onSide_readUpdate h false
  rw [readEvent, htype, hsymbol, hupdates, if_pos hkind, L2Event.update, ← hbids, ← hasks]
  rfl

/-- **The handler reads the message**, one update for each event. -/
theorem processCoinbaseMessage_json {events : List L2Event} (h : ∀ e ∈ events, e.Valid context)
    (parseTime : String → Option Int) :
    processCoinbaseMessage parseTime context (l2Json events) =
      events.map fun e => (e.common context, e.update context) := by
  have hevents : processCoinbaseMessage parseTime context (l2Json events) =
      (events.map L2Event.json).filterMap (readEvent context) := rfl
  rw [hevents, List.filterMap_map, ← List.filterMap_eq_map]
  refine List.filterMap_congr fun e he => ?_
  exact readEvent_json (h e he)

end Coinbase
end Crypto
end TradingPlatform
