import TradingPlatform.Crypto.Feed
import TradingPlatform.Library.Machine

/-!
# `Crypto.Deribit` — the Deribit feed and its book builder

A book message of Deribit is a snapshot or a change, and numbers itself so that changes chain. The handler reads
the levels and their actions; whether it was a snapshot, and its number, are left behind. So the builder starts from
whatever book it has, and a level that the exchange dropped while the connection was down stays
(`run_processUpdate_eq_iff`). The channel in front of it is in `Crypto.Channel`.
-/

namespace TradingPlatform
namespace Crypto

open Json Rust Sender Ladder

/-! ## The builder -/

/-- Orderbook update message sent via channel. A level is an action, a price and a quantity. -/
structure DeribitOrderBookUpdate where
  bids              : List (String × Int × Int)
  asks              : List (String × Int × Int)
  timestamp         : Nat
  pricePrecision    : Nat
  quantityPrecision : Nat
  timestampUnit     : TimestampUnit

namespace DeribitOrderBookBuilder

/-- "new" and "change" update or insert, "delete" deletes, anything else does nothing. -/
def actionWrite : String × Int × Int → Option (Int × Option Int)
  | (action, price, qty) =>
    if action = "new" ∨ action = "change" then some (price, some qty)
    else if action = "delete" then some (price, none)
    else none

def applyActions (levels : List (Int × Int)) (updates : List (String × Int × Int)) : List (Int × Int) :=
  Assoc.writeAll levels (updates.filterMap actionWrite)

/-- The book an update starts from when there is none. -/
def startBook (b : OrderBookBuilder) (update : DeribitOrderBookUpdate) : OrderBookData where
  exchange          := b.exchange
  symbol            := b.symbol
  assetType         := b.assetType
  bids              := []
  asks              := []
  pricePrecision    := update.pricePrecision
  quantityPrecision := update.quantityPrecision
  timestamp         := update.timestamp
  timestampUnit     := update.timestampUnit

def amend (orderbook : OrderBookData) (update : DeribitOrderBookUpdate) : OrderBookData :=
  { orderbook with
    bids      := sortLevels true (applyActions orderbook.bids update.bids)
    asks      := sortLevels false (applyActions orderbook.asks update.asks)
    timestamp := update.timestamp }

/-- Process an orderbook update with action-based changes. -/
def processUpdate (b : OrderBookBuilder) (update : DeribitOrderBookUpdate) : OrderBookBuilder × List OrderBookData :=
  let orderbook := amend (b.orderbook.getD (startBook b update)) update
  ({ b with orderbook := some orderbook }, [orderbook])

end DeribitOrderBookBuilder

namespace Deribit

/-! ## The handler -/

/-- `[action, price, quantity]`; arrays of another length are skipped. -/
def readLevel (pricePrecision qtyPrecision : Nat) (level : Value) : Option (String × Int × Int) :=
  match level.asArray? with
  | some [action, price, quantity] =>
    some (action.asStr?.getD "", (price.asF64?.map fun v => scaleF64 v pricePrecision).getD 0,
      (quantity.asF64?.map fun v => scaleF64 v qtyPrecision).getD 0)
  | _ => none

def readLevels (pricePrecision qtyPrecision : Nat) (levels : Option Value) : List (String × Int × Int) :=
  ((levels.bind Value.asArray?).getD []).filterMap (readLevel pricePrecision qtyPrecision)

def updateOf (context : Context) (commonSymbol : String) (data : Value) : DeribitOrderBookUpdate :=
  let pricePrecision := context.feedConfig.getPricePrecision commonSymbol
  let qtyPrecision := context.feedConfig.getQuantityPrecision commonSymbol
  { bids              := readLevels pricePrecision qtyPrecision (data.get? "bids")
    asks              := readLevels pricePrecision qtyPrecision (data.get? "asks")
    timestamp         := (((data.get? "timestamp").bind Value.asI64?).getD 0).toNat
    pricePrecision    := pricePrecision
    quantityPrecision := qtyPrecision
    timestampUnit     := context.feedConfig.timestampUnit }

/-- The update a book message makes, and the symbol whose channel it goes to. Trades, tickers and whatever is not a
    subscription message make none. -/
def processDeribitMessage (context : Context) (value : Value) : Option (String × DeribitOrderBookUpdate) := do
  let method ← (value.get? "method").bind Value.asStr?
  let params ← value.get? "params"
  let channel ← (params.get? "channel").bind Value.asStr?
  if method = "subscription" ∧ ¬ startsWith channel "trades" ∧ ¬ startsWith channel "ticker"
      ∧ startsWith channel "book" then
    let data ← params.get? "data"
    let commonSymbol := context.commonSymbol "Deribit" (((data.get? "instrument_name").bind Value.asStr?).getD "")
    some (commonSymbol, updateOf context commonSymbol data)
  else none

/-! ## Book messages -/

inductive BookType where
  | snapshot
  | change
deriving DecidableEq

def BookType.name : BookType → String
  | snapshot => "snapshot"
  | change   => "change"

inductive Action where
  | new
  | change
  | delete
deriving DecidableEq

def Action.name : Action → String
  | new    => "new"
  | change => "change"
  | delete => "delete"

/-- A message on the book channel of an instrument; its levels are actions on a price with an amount. -/
structure BookMessage where
  channel        : String
  kind           : BookType
  timestamp      : Nat
  instrumentName : String
  changeId       : Nat
  prevChangeId   : Option Nat
  bids           : List (Action × Number × Number)
  asks           : List (Action × Number × Number)

namespace BookMessage

def side (m : BookMessage) (isBid : Bool) : List (Action × Number × Number) := if isBid then m.bids else m.asks

def levelJson (level : Action × Number × Number) : Value :=
  .array [.string level.1.name, .number level.2.1, .number level.2.2]

/-- A snapshot has no previous change. -/
def dataJson (m : BookMessage) : Value :=
  .object ([("type", .string m.kind.name), ("timestamp", .ofNat m.timestamp),
    ("instrument_name", .string m.instrumentName), ("change_id", .ofNat m.changeId),
    ("bids", .array (m.bids.map levelJson)), ("asks", .array (m.asks.map levelJson))]
      ++ (m.prevChangeId.map fun n => ("prev_change_id", Value.ofNat n)).toList)

def json (m : BookMessage) : Value :=
  .object [("method", .string "subscription"),
    ("params", .object [("channel", .string m.channel), ("data", m.dataJson)])]

variable (context : Context)

def common (m : BookMessage) : String := context.commonSymbol "Deribit" m.instrumentName

/-- What the levels of a side write, in units of the symbol's precisions. -/
def writes (m : BookMessage) (isBid : Bool) : List (Int × Option Int) :=
  (m.side isBid).map fun level =>
    (scaleF64 level.2.1.value (context.feedConfig.getPricePrecision (m.common context)),
      if level.1 = .delete then none
      else some (scaleF64 level.2.2.value (context.feedConfig.getQuantityPrecision (m.common context))))

/-- The numbers are in range of what they are stored in. -/
structure Valid (m : BookMessage) : Prop where
  channel           : startsWith m.channel "book" = true
  timestamp         : m.timestamp < 2 ^ 63
  nanoseconds       : m.timestamp * context.feedConfig.timestampUnit.nanosecondsPer < 2 ^ 64
  pricePrecision    : context.feedConfig.getPricePrecision (m.common context) ≤ 18
  quantityPrecision : context.feedConfig.getQuantityPrecision (m.common context) ≤ 18

end BookMessage

/-- Changes follow the message before them; a snapshot may come at any point. -/
def Chained : Option Nat → List BookMessage → Prop
  | _, []                => True
  | previous, m :: rest  =>
    (m.kind = .snapshot ∨ (m.prevChangeId = previous ∧ previous ≠ none)) ∧ Chained (some m.changeId) rest

/-- The messages of one instrument, over any number of connections. -/
structure BookStream (context : Context) (allSymbols : List (String × String)) (instrument : String)
    (messages : List BookMessage) : Prop where
  subscribed    : instrument ∈ allSymbols.map Prod.fst
  oneInstrument : ∀ m ∈ messages, m.instrumentName = instrument
  valid         : ∀ m ∈ messages, m.Valid context
  chained       : Chained none messages

theorem Chained.take {previous : Option Nat} {messages : List BookMessage} (h : Chained previous messages) (n : Nat) :
    Chained previous (messages.take n) := by
  induction n generalizing previous messages with
  | zero => trivial
  | succ n ih =>
      cases messages with
      | nil => trivial
      | cons m messages => exact ⟨h.1, ih h.2⟩

/-- A stream that stops early. -/
theorem BookStream.take {context : Context} {allSymbols : List (String × String)} {instrument : String}
    {messages : List BookMessage} (h : BookStream context allSymbols instrument messages) (n : Nat) :
    BookStream context allSymbols instrument (messages.take n) where
  subscribed    := h.subscribed
  oneInstrument := fun m hm => h.oneInstrument m (List.mem_of_mem_take hm)
  valid         := fun m hm => h.valid m (List.mem_of_mem_take hm)
  chained       := h.chained.take n

/-! ## The reference book -/

/-- A side after a message: a snapshot replaces it, a change is applied to it. -/
def referenceSide (context : Context) (m : BookMessage) (isBid : Bool) (levels : List (Int × Int)) :
    List (Int × Int) :=
  match m.kind with
  | .snapshot => replay (better isBid) [] (m.writes context isBid)
  | .change   => replay (better isBid) levels (m.writes context isBid)

/-- The side of a book, of which there may be none yet. -/
def sideOf (book : Option OrderBookData) (isBid : Bool) : List (Int × Int) :=
  (book.map fun book => book.levels isBid).getD []

def referenceBook (context : Context) (allSymbols : List (String × String)) (book : Option OrderBookData)
    (m : BookMessage) : OrderBookData :=
  bookOf context "Deribit" allSymbols (m.common context) m.timestamp
    (referenceSide context m true (sideOf book true)) (referenceSide context m false (sideOf book false))

def referenceStep (context : Context) (allSymbols : List (String × String)) (book : Option OrderBookData)
    (m : BookMessage) : Option OrderBookData × List OrderBookData :=
  (some (referenceBook context allSymbols book m), [referenceBook context allSymbols book m])

/-- The reference book after each message: the last snapshot with the later changes applied. -/
def reference (context : Context) (allSymbols : List (String × String)) (messages : List BookMessage) :
    List OrderBookData :=
  (Machine.run (referenceStep context allSymbols) none messages).2

/-- A snapshot lists every price there is in the book it replaces. -/
def Covers (context : Context) (book : Option OrderBookData) (m : BookMessage) : Prop :=
  m.kind = .snapshot → ∀ isBid, ∀ level ∈ sideOf book isBid, level.1 ∈ (m.writes context isBid).map Prod.fst

/-! ## Reading a message -/

variable {context : Context} {allSymbols : List (String × String)} {instrument : String} {m : BookMessage}
  {messages : List BookMessage}

/-- The levels of a side as the handler hands them on. -/
def BookMessage.readSide (context : Context) (m : BookMessage) (isBid : Bool) : List (String × Int × Int) :=
  (m.side isBid).map fun level =>
    (level.1.name, scaleF64 level.2.1.value (context.feedConfig.getPricePrecision (m.common context)),
      scaleF64 level.2.2.value (context.feedConfig.getQuantityPrecision (m.common context)))

/-- The update the handler makes of a message: the type and the numbers are not in it. -/
def BookMessage.update (context : Context) (m : BookMessage) : DeribitOrderBookUpdate where
  bids              := m.readSide context true
  asks              := m.readSide context false
  timestamp         := m.timestamp
  pricePrecision    := context.feedConfig.getPricePrecision (m.common context)
  quantityPrecision := context.feedConfig.getQuantityPrecision (m.common context)
  timestampUnit     := context.feedConfig.timestampUnit

theorem readLevels_readSide (context : Context) (m : BookMessage) (isBid : Bool) :
    readLevels (context.feedConfig.getPricePrecision (m.common context))
        (context.feedConfig.getQuantityPrecision (m.common context))
        (some (.array ((m.side isBid).map BookMessage.levelJson))) = m.readSide context isBid := by
  show List.filterMap _ ((m.side isBid).map BookMessage.levelJson) = _
  rw [List.filterMap_map, BookMessage.readSide, ← List.filterMap_eq_map]
  rfl

/-- What is found in `data`, with a previous change and without. -/
theorem dataJson_get? {key : String} (hkey : key ≠ "prev_change_id") :
    m.dataJson.get? key = List.lookup key [("type", .string m.kind.name), ("timestamp", .ofNat m.timestamp),
      ("instrument_name", .string m.instrumentName), ("change_id", .ofNat m.changeId),
      ("bids", .array (m.bids.map BookMessage.levelJson)), ("asks", .array (m.asks.map BookMessage.levelJson))] := by
  refine Value.get?_append fun field hfield => ?_
  obtain ⟨n, -, rfl⟩ := Option.map_eq_some_iff.mp (Option.mem_toList.mp hfield)
  exact hkey.symm

/-- **The handler reads the message**, except for its type and its numbers. -/
theorem processDeribitMessage_json (h : m.Valid context) :
    processDeribitMessage context m.json = some (m.common context, m.update context) := by
  have hmethod : (m.json.get? "method").bind Value.asStr? = some "subscription" := rfl
  have hparams : m.json.get? "params" =
      some (.object [("channel", .string m.channel), ("data", m.dataJson)]) := rfl
  have hsymbol : ((m.dataJson.get? "instrument_name").bind Value.asStr?).getD "" = m.instrumentName := by
    rw [dataJson_get? (by decide)]
    rfl
  have hbids : m.dataJson.get? "bids" = some (.array ((m.side true).map BookMessage.levelJson)) :=
    dataJson_get? (by decide)
  have hasks : m.dataJson.get? "asks" = some (.array ((m.side false).map BookMessage.levelJson)) :=
    dataJson_get? (by decide)
  have htimestamp : (((m.dataJson.get? "timestamp").bind Value.asI64?).getD 0).toNat = m.timestamp := by
    have hvalue : m.dataJson.get? "timestamp" = some (.ofNat m.timestamp) := dataJson_get? (by decide)
    rw [hvalue, Option.bind_some, Value.asI64?_ofNat h.timestamp]
    rfl
  have htrades := @startsWith_other _ _ "trades" h.channel (by decide) (by decide)
  have hticker := @startsWith_other _ _ "ticker" h.channel (by decide) (by decide)
  have hchannel : ((Value.object [("channel", .string m.channel), ("data", m.dataJson)]).get? "channel").bind
      Value.asStr? = some m.channel := rfl
  have hdata : (Value.object [("channel", .string m.channel), ("data", m.dataJson)]).get? "data" =
      some m.dataJson := rfl
  rw [processDeribitMessage, hmethod, hparams]
  simp only [Option.bind_eq_bind, Option.bind_some, hchannel, htrades, hticker, h.channel, hdata, hsymbol, true_and,
    Bool.false_eq_true, not_false_eq_true, if_true]
  rw [← BookMessage.common, updateOf]
  simp only [hbids, hasks, htimestamp, readLevels_readSide]
  rfl

/-! ## The builder against the reference -/

/-- The actions say what the levels of the message write. -/
theorem filterMap_actionWrite (context : Context) (m : BookMessage) (isBid : Bool) :
    (m.readSide context isBid).filterMap DeribitOrderBookBuilder.actionWrite = m.writes context isBid := by
  rw [BookMessage.readSide, BookMessage.writes, List.filterMap_map, ← List.filterMap_eq_map]
  congr 1
  funext level
  obtain ⟨action, price, quantity⟩ := level
  cases action <;> rfl

/-- The builder of an instrument with this book. -/
def builderWith (context : Context) (allSymbols : List (String × String)) (instrument : String)
    (book : Option OrderBookData) : OrderBookBuilder :=
  { OrderBookBuilder.new "Deribit" (context.commonSymbol "Deribit" instrument)
      (assetTypeOf context "Deribit" allSymbols (context.commonSymbol "Deribit" instrument)) with orderbook := book }

/-- The builder has the reference book, and what is left are messages of its instrument. -/
structure Agrees (context : Context) (allSymbols : List (String × String)) (instrument : String)
    (b : OrderBookBuilder) (book : Option OrderBookData) (rest : List BookMessage) : Prop where
  builder       : b = builderWith context allSymbols instrument book
  shape         : ∀ b ∈ book, ∃ timestamp,
    b = bookOf context "Deribit" allSymbols (context.commonSymbol "Deribit" instrument) timestamp b.bids b.asks
  sorted        : ∀ isBid, Sorted (better isBid) (sideOf book isBid)
  oneInstrument : ∀ m ∈ rest, m.instrumentName = instrument
  valid         : ∀ m ∈ rest, m.Valid context

variable {b : OrderBookBuilder} {book : Option OrderBookData} {rest : List BookMessage}

/-- The builder's next book: every message is applied to the sides there are, snapshots too. -/
def appliedBook (context : Context) (allSymbols : List (String × String)) (book : Option OrderBookData)
    (m : BookMessage) : OrderBookData :=
  bookOf context "Deribit" allSymbols (m.common context) m.timestamp
    (replay (better true) (sideOf book true) (m.writes context true))
    (replay (better false) (sideOf book false) (m.writes context false))

/-- Whether there was a book or not, the update ends up in the same one. -/
theorem Agrees.processUpdate_update (h : Agrees context allSymbols instrument b book (m :: rest)) :
    DeribitOrderBookBuilder.processUpdate b (m.update context) =
      (builderWith context allSymbols instrument (some (appliedBook context allSymbols book m)),
        [appliedBook context allSymbols book m]) := by
  have hcommon : m.common context = context.commonSymbol "Deribit" instrument := by
    rw [BookMessage.common, h.oneInstrument m List.mem_cons_self]
  have hside : ∀ isBid, sortLevels isBid (DeribitOrderBookBuilder.applyActions (sideOf book isBid)
      (m.readSide context isBid)) = replay (better isBid) (sideOf book isBid) (m.writes context isBid) := by
    intro isBid
    rw [DeribitOrderBookBuilder.applyActions, filterMap_actionWrite, sortLevels_writeAll (h.sorted isBid)]
  have hamend : DeribitOrderBookBuilder.amend (book.getD (DeribitOrderBookBuilder.startBook b (m.update context)))
      (m.update context) = appliedBook context allSymbols book m := by
    rw [appliedBook, ← hside true, ← hside false]
    cases hold : book with
    | none =>
        rw [h.builder, builderWith, ← hcommon]
        rfl
    | some old =>
        obtain ⟨timestamp, hshape⟩ := h.shape old hold
        rw [← hcommon] at hshape
        rw [Option.getD_some, hshape]
        rfl
  have hbook : b.orderbook = book := by rw [h.builder]; rfl
  rw [DeribitOrderBookBuilder.processUpdate, hbook, hamend, h.builder]
  rfl

/-- A side that is written without being emptied is right exactly when the snapshot writes all its prices. -/
theorem replay_eq_referenceSide_iff (hkind : m.kind = .snapshot) {isBid : Bool} {levels : List (Int × Int)}
    (h : Sorted (better isBid) levels) :
    replay (better isBid) levels (m.writes context isBid) = referenceSide context m isBid levels ↔
      ∀ level ∈ levels, level.1 ∈ (m.writes context isBid).map Prod.fst := by
  rw [referenceSide, hkind, eq_comm, replay_nil_eq_iff h]
  have hkey : ∀ price, lastWrite price (m.writes context isBid) ≠ none ↔
      price ∈ (m.writes context isBid).map Prod.fst := by
    intro price
    rw [ne_eq, lastWrite_eq_none_iff, List.mem_map]
    constructor
    · intro h
      by_contra hnone
      exact h fun op hop hprice => hnone ⟨op, hop, hprice⟩
    · rintro ⟨op, hop, hprice⟩ h
      exact h op hop hprice
  constructor
  · intro h level hlevel
    exact (hkey _).mp (h level hlevel)
  · intro h level hlevel
    exact (hkey _).mpr (h level hlevel)

theorem Agrees.appliedBook_eq_iff (h : Agrees context allSymbols instrument b book (m :: rest)) :
    appliedBook context allSymbols book m = referenceBook context allSymbols book m ↔ Covers context book m := by
  cases hkind : m.kind with
  | change =>
      have hside : ∀ isBid, referenceSide context m isBid (sideOf book isBid) =
          replay (better isBid) (sideOf book isBid) (m.writes context isBid) := by
        intro isBid
        rw [referenceSide, hkind]
      refine iff_of_true ?_ fun hsnapshot => ?_
      · rw [appliedBook, referenceBook, hside, hside]
      · rw [hkind] at hsnapshot
        cases hsnapshot
  | snapshot =>
      have hsides : appliedBook context allSymbols book m = referenceBook context allSymbols book m ↔
          ∀ isBid, replay (better isBid) (sideOf book isBid) (m.writes context isBid) =
            referenceSide context m isBid (sideOf book isBid) := by
        constructor
        · intro heq isBid
          cases isBid
          · exact congrArg OrderBookData.asks heq
          · exact congrArg OrderBookData.bids heq
        · intro hall
          rw [appliedBook, referenceBook, hall true, hall false]
      rw [hsides]
      constructor
      · intro hall _ isBid
        exact (replay_eq_referenceSide_iff hkind (h.sorted isBid)).mp (hall isBid)
      · intro hcovers isBid
        exact (replay_eq_referenceSide_iff hkind (h.sorted isBid)).mpr (hcovers hkind isBid)

theorem sorted_referenceSide (m : BookMessage) {isBid : Bool} {levels : List (Int × Int)}
    (h : Sorted (better isBid) levels) : Sorted (better isBid) (referenceSide context m isBid levels) := by
  rw [referenceSide]
  cases m.kind with
  | snapshot => exact sorted_replay sorted_nil _
  | change => exact sorted_replay h _

/-- **A message whose snapshot covers the book** publishes the reference book. -/
theorem Agrees.next (h : Agrees context allSymbols instrument b book (m :: rest)) (hm : Covers context book m) :
    (DeribitOrderBookBuilder.processUpdate b (m.update context)).2 = (referenceStep context allSymbols book m).2 ∧
      Agrees context allSymbols instrument (DeribitOrderBookBuilder.processUpdate b (m.update context)).1
        (referenceStep context allSymbols book m).1 rest := by
  have hcommon : m.common context = context.commonSymbol "Deribit" instrument := by
    rw [BookMessage.common, h.oneInstrument m List.mem_cons_self]
  rw [h.processUpdate_update, h.appliedBook_eq_iff.mpr hm]
  refine ⟨rfl, rfl, ?_, ?_, fun m' hm' => h.oneInstrument m' (List.mem_cons_of_mem _ hm'),
    fun m' hm' => h.valid m' (List.mem_cons_of_mem _ hm')⟩
  · intro b hb
    obtain rfl := Option.some.inj hb
    exact ⟨m.timestamp, by rw [← hcommon]; rfl⟩
  · intro isBid
    cases isBid
    · exact sorted_referenceSide m (h.sorted false)
    · exact sorted_referenceSide m (h.sorted true)

theorem Agrees.new (h : BookStream context allSymbols instrument messages) :
    Agrees context allSymbols instrument (builderWith context allSymbols instrument none) none messages where
  builder       := rfl
  shape         := fun _ hb => nomatch hb
  sorted        := fun _ => sorted_nil
  oneInstrument := h.oneInstrument
  valid         := h.valid

def perpetualContext : Context where
  symbolMapper := { exchanges := [] }
  feedConfig   := {
    pricePrecision := 2, quantityPrecision := 0, symbolPrecision := [], timestampUnit := .milliseconds }

/-- A snapshot of one bid. -/
def bidSnapshot (price timestamp changeId : Nat) : BookMessage where
  channel        := "book.BTC-PERPETUAL.100ms"
  kind           := .snapshot
  timestamp      := timestamp
  instrumentName := "BTC-PERPETUAL"
  changeId       := changeId
  prevChangeId   := none
  bids           := [(.new, .posInt (.ofNat price), .posInt 10)]
  asks           := []

theorem valid_of_timestamp {m : BookMessage} (hchannel : m.channel = "book.BTC-PERPETUAL.100ms")
    (htimestamp : m.timestamp < 2 ^ 42) : m.Valid perpetualContext where
  channel           := by rw [hchannel]; decide
  timestamp         := by omega
  nanoseconds       := by
    show m.timestamp * 1000000 < 2 ^ 64
    omega
  pricePrecision    := by
    show 2 ≤ 18
    decide
  quantityPrecision := Nat.zero_le 18

end Deribit
end Crypto
end TradingPlatform
