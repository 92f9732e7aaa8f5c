import TradingPlatform.Crypto.Readers
import TradingPlatform.Library.FailStop
import TradingPlatform.Logger.Truncation
import TradingPlatform.Sender.Multicast
import Mathlib.Data.List.DropRight

/-!
# `Crypto.Published` — what the reader tasks of OKX, Upbit and Bithumb publish

A reader task handles the texts of one socket in order. An item of a text is stored in memory first and then sent. A
panic ends the task, with the item it is at already stored; nobody reads the socket after that. What panics is the
making of an item, the making of a packet, and with debug messages on the cutting of a text for the log, all as in the
release build.

So every run publishes the items of its texts in order, up to the first that panics (`published_until_panic`), and a
receiver that gets all datagrams passes on the trades among them (`trades_received`).
-/

namespace TradingPlatform
namespace Crypto

open Json Rust Sender Timestamps Machine Receiver Market

/-! ## The store in memory -/

/-- `core::types::CircularBuffer` -/
structure CircularBuffer (α : Type) where
  buffer   : List α
  capacity : Nat

namespace CircularBuffer

variable {α : Type}

def new (capacity : Nat) : CircularBuffer α := { buffer := [], capacity }

/-- Remove the oldest item if there is no room. -/
def push (b : CircularBuffer α) (item : α) : CircularBuffer α :=
  { b with buffer := (if b.buffer.length ≥ b.capacity then b.buffer.tail else b.buffer) ++ [item] }

/-- It holds the most recent of these items. -/
structure Recent (b : CircularBuffer α) (capacity : Nat) (items : List α) : Prop where
  bound : b.capacity = capacity
  held  : b.buffer = items.rtake capacity

theorem recent_new (capacity : Nat) : Recent (new capacity : CircularBuffer α) capacity [] := ⟨rfl, by simp [new]⟩

theorem Recent.push {b : CircularBuffer α} {capacity : Nat} {items : List α} (h : b.Recent capacity items)
    (hpos : 0 < capacity) (item : α) : (b.push item).Recent capacity (items ++ [item]) := by
  obtain ⟨capacity, rfl⟩ : ∃ n, capacity = n + 1 := ⟨capacity - 1, by omega⟩
  refine ⟨h.bound, ?_⟩
  show (if b.buffer.length ≥ b.capacity then b.buffer.tail else b.buffer) ++ [item] = _
  rw [List.rtake_concat_succ, h.bound, h.held]
  congr 1
  unfold List.rtake
  rw [List.length_drop]
  split
  next hfull =>
    rw [List.tail_drop]
    congr 1
    omega
  next hroom =>
    congr 1
    omega

end CircularBuffer

def maxTrades : Nat := 10000
def maxOrderbooks : Nat := 5000

inductive Venue where
  | okx
  | upbit
  | bithumb
deriving DecidableEq

/-- What the handlers store items in. Bithumb keeps the latest book of a symbol instead of all recent ones. -/
structure Stored where
  trades     : CircularBuffer TradeData
  orderbooks : CircularBuffer OrderBookData
  latest     : String → Option OrderBookData

def Stored.new : Stored where
  trades     := .new maxTrades
  orderbooks := .new maxOrderbooks
  latest     := fun _ => none

def Stored.store (venue : Venue) (s : Stored) : Item → Stored
  | .trade trade         => { s with trades := s.trades.push trade }
  | .orderbook orderbook =>
    if venue = .bithumb then { s with latest := Function.update s.latest orderbook.symbol (some orderbook) }
    else { s with orderbooks := s.orderbooks.push orderbook }

/-! ## Sending -/

/-- `send_orderbook_data` on these sides: what it sends, and whether it panics. -/
def sendSides (orderbook : OrderBookData) (clock : Bool → Nat) : List Bool → List Datagram × Bool
  | []           => ([], false)
  | side :: rest =>
    if orderbook.levels side = [] then sendSides orderbook clock rest
    else
      match BinaryUdpPacket.fromOrderbook orderbook side (clock side) with
      | none        => ([], true)
      | some packet =>
        match sendPacket packet with
        | none   => ([], false)
        | some d => (d :: (sendSides orderbook clock rest).1, (sendSides orderbook clock rest).2)

/-- An item is sent; the clock of a trade is that of a bid. -/
def sendItem (clock : Bool → Nat) : Item → List Datagram × Bool
  | .orderbook orderbook => sendSides orderbook clock [true, false]
  | .trade trade         =>
    match BinaryUdpPacket.fromTrade trade (clock true) with
    | none        => ([], true)
    | some packet => ((sendPacket packet).toList, false)

/-! ## The task -/

structure Reader where
  venue     : Venue
  context   : Context
  assetType : String
  /-- the parser of the library, with the text of its error -/
  fromStr   : String → Except String Value
  /-- debug messages are written -/
  debug     : Bool

/-- A text that comes in, with the clocks that are read while it is handled: the one for missing timestamps, and those
    of the packets, for each of its items. -/
structure Received where
  text      : String
  nowMillis : Nat → Nat
  nowNanos  : Nat → Bool → Nat

/-- Writing a long text of OKX to the log cuts it after 200 bytes. -/
def Reader.logPanics (r : Reader) (text : String) : Bool :=
  r.venue = .okx ∧ r.debug ∧ ¬ "pong".toList <:+: text.toList ∧ ¬ "heartbeat".toList <:+: text.toList ∧
    200 < byteLen text.toList ∧ (sliceTo text.toList 200).isNone

/-- Safely format JSON parsing errors for logging. -/
def safeJsonParseErrorLog (error rawText : String) : Option (List Char) := do
  let safeError ← Logger.truncateForLog error.toList 100
  let safeJson ← Logger.truncateForLog rawText.toList 200
  return "JSON parse error: ".toList ++ safeError ++ ". Raw text: ".toList ++ safeJson

/-- No items come of a text that is no JSON. OKX and Upbit write it to the log, cut, as a debug message. -/
def Reader.refused (r : Reader) (error text : String) : List (Option Item) :=
  if r.debug ∧ (safeJsonParseErrorLog error text).isNone then [none] else []

def Reader.processMessage (r : Reader) (nowMillis : Nat → Nat) (text : String) : List (Option Item) :=
  match r.venue with
  | .okx =>
    if text = "pong" then []
    else
      match r.fromStr text with
      | .error error => r.refused error text
      | .ok value    => Okx.processMessage r.context r.assetType nowMillis value
  | .upbit =>
    match r.fromStr text with
    | .error error => r.refused error text
    | .ok value    => Upbit.processMessage r.context r.assetType nowMillis value
  | .bithumb =>
    match r.fromStr text with
    | .error _  => []
    | .ok value => Bithumb.processMessage r.context r.assetType nowMillis value

/-- An item on its way, with the clocks of its packets; `none` is a panic before there is one. -/
abbrev Piece := Option Item × (Bool → Nat)

def Reader.pieces (r : Reader) (received : Received) : List Piece :=
  (if r.logPanics received.text then [(none, received.nowNanos 0)] else []) ++
    (r.processMessage received.nowMillis received.text).mapIdx fun i item => (item, received.nowNanos i)

/-- The task does not survive it. -/
def Piece.fatal : Piece → Bool
  | (none, _)          => true
  | (some item, clock) => (sendItem clock item).2

/-- Stored, then sent. -/
def publish (venue : Venue) (s : Stored) : Piece → Stored × List Datagram
  | (none, _)          => (s, [])
  | (some item, clock) => (s.store venue item, (sendItem clock item).1)

/-- One text. -/
def Reader.step (r : Reader) (s : Stored × Bool) (received : Received) : (Stored × Bool) × List Datagram :=
  run (failStop (publish r.venue) Piece.fatal) s (r.pieces received)

/-! ## What is sent -/

/-- The item is encoded: its timestamp fits nanoseconds, and there are divisors for the numbers in it. -/
def Fits : Item → Prop
  | .trade trade         => trade.Encodes
  | .orderbook orderbook => Sendable orderbook

instance : (item : Item) → Decidable (Fits item)
  | .trade trade         => inferInstanceAs (Decidable trade.Encodes)
  | .orderbook orderbook => inferInstanceAs (Decidable (Sendable orderbook))

/-- What an item becomes that is encoded. -/
def datagrams (clock : Bool → Nat) : Item → List Datagram
  | .trade trade         => ((BinaryUdpPacket.fromTrade trade (clock true)).bind sendPacket).toList
  | .orderbook orderbook => sendOrderbookData orderbook clock

theorem sendItem_trade_of_fits {trade : TradeData} (h : trade.Encodes) (clock : Bool → Nat) :
    sendItem clock (.trade trade) = (datagrams clock (.trade trade), false) := by
  obtain ⟨packet, hpacket⟩ := Option.isSome_iff_exists.mp ((fromTrade_isSome_iff trade (clock true)).mpr h)
  simp only [sendItem, datagrams, hpacket, Option.bind_some]

theorem sendItem_trade_of_not_fits {trade : TradeData} (h : ¬ trade.Encodes) (clock : Bool → Nat) :
    sendItem clock (.trade trade) = ([], true) := by
  have hnone : BinaryUdpPacket.fromTrade trade (clock true) = none :=
    Option.not_isSome_iff_eq_none.mp (mt (fromTrade_isSome_iff trade (clock true)).mp h)
  simp only [sendItem, hnone]

/-- Whether a side with levels is encoded does not depend on the side. -/
theorem encodes_iff {orderbook : OrderBookData} {side : Bool} (h : orderbook.levels side ≠ []) :
    orderbook.Encodes side ↔ orderbook.timestamp * orderbook.timestampUnit.nanosecondsPer < 2 ^ 64 ∧
      Rescalable orderbook.pricePrecision ∧ Rescalable orderbook.quantityPrecision :=
  ⟨fun he => ⟨he.timestamp, he.levels h⟩, fun he => ⟨he.1, fun _ => he.2⟩⟩

theorem sendable_iff (orderbook : OrderBookData) :
    Sendable orderbook ↔ ∀ side, orderbook.levels side ≠ [] → orderbook.Encodes side :=
  forall₂_congr fun side _ => fromOrderbook_isSome_iff orderbook side 0

theorem sendItem_orderbook_of_fits {orderbook : OrderBookData} (h : Sendable orderbook) (clock : Bool → Nat) :
    sendItem clock (.orderbook orderbook) = (datagrams clock (.orderbook orderbook), false) := by
  have hside : ∀ side rest, sendSides orderbook clock rest = ((sendSides orderbook clock rest).1, false) →
      sendSides orderbook clock (side :: rest) =
        ((sendSide orderbook side (clock side)).elim [] fun ds => ds ++ (sendSides orderbook clock rest).1, false) := by
    intro side rest hrest
    rw [sendSides, sendSide]
    by_cases hlevels : orderbook.levels side = []
    · rw [if_pos hlevels, if_pos hlevels]
      exact hrest
    · obtain ⟨packet, hpacket⟩ := Option.isSome_iff_exists.mp
        ((fromOrderbook_isSome_iff orderbook side (clock side)).mpr ((sendable_iff orderbook).mp h side hlevels))
      rw [if_neg hlevels, if_neg hlevels, hpacket]
      dsimp only [Option.bind_some]
      cases sendPacket packet with
      | none => rfl
      | some d => exact congrArg (Prod.mk _) (congrArg Prod.snd hrest)
  have hasks := hside false [] rfl
  have hasksNone : (sendSides orderbook clock [false]).2 = false := by rw [hasks]
  have hbids := hside true [false] (Prod.ext rfl hasksNone)
  show sendSides orderbook clock [true, false] = (sendOrderbookData orderbook clock, false)
  rw [hbids, hasks]
  unfold sendOrderbookData
  cases sendSide orderbook true (clock true) with
  | none => rfl
  | some bids =>
      cases sendSide orderbook false (clock false) with
      | none => rfl
      | some asks => simp [sendSides]

theorem sendItem_orderbook_of_not_fits {orderbook : OrderBookData} (h : ¬ Sendable orderbook) (clock : Bool → Nat) :
    sendItem clock (.orderbook orderbook) = ([], true) := by
  obtain ⟨side, hside⟩ := not_forall.mp (mt (sendable_iff orderbook).mpr h)
  obtain ⟨hlevels, hencodes⟩ := Classical.not_imp.mp hside
  rw [encodes_iff hlevels] at hencodes
  -- the first side with levels panics
  have hfirst : ∀ side rest, orderbook.levels side ≠ [] → sendSides orderbook clock (side :: rest) = ([], true) := by
    intro side rest hne
    have hnone : BinaryUdpPacket.fromOrderbook orderbook side (clock side) = none :=
      Option.not_isSome_iff_eq_none.mp fun hsome =>
        hencodes ((encodes_iff hne).mp ((fromOrderbook_isSome_iff orderbook side (clock side)).mp hsome))
    unfold sendSides
    rw [if_neg hne, hnone]
  show sendSides orderbook clock [true, false] = _
  by_cases hbids : orderbook.levels true = []
  · have hside : side = false := by
      cases side with
      | true => exact absurd hbids hlevels
      | false => rfl
    unfold sendSides
    rw [if_pos hbids]
    exact hfirst false [] (hside ▸ hlevels)
  · exact hfirst true [false] hbids

/-- **An item is sent whole, or it panics before anything of it is sent.** -/
theorem sendItem_eq (clock : Bool → Nat) (item : Item) :
    sendItem clock item = if Fits item then (datagrams clock item, false) else ([], true) := by
  cases item with
  | trade trade =>
      by_cases h : trade.Encodes
      · rw [if_pos (show Fits (.trade trade) from h)]
        exact sendItem_trade_of_fits h clock
      · rw [if_neg (show ¬ Fits (.trade trade) from h)]
        exact sendItem_trade_of_not_fits h clock
  | orderbook orderbook =>
      by_cases h : Sendable orderbook
      · rw [if_pos (show Fits (.orderbook orderbook) from h)]
        exact sendItem_orderbook_of_fits h clock
      · rw [if_neg (show ¬ Fits (.orderbook orderbook) from h)]
        exact sendItem_orderbook_of_not_fits h clock

/-! ## Runs -/

/-- The datagrams of a piece that is sent. -/
def Piece.datagrams : Piece → List Datagram
  | (none, _)          => []
  | (some item, clock) => Crypto.datagrams clock item

theorem fatal_eq_false_iff (piece : Piece) : Piece.fatal piece = false ↔ ∃ item, piece.1 = some item ∧ Fits item := by
  obtain ⟨_ | item, clock⟩ := piece
  · exact iff_of_false nofun fun ⟨_, h, _⟩ => nomatch h
  · show (sendItem clock item).2 = false ↔ _
    rw [sendItem_eq]
    by_cases h : Fits item
    · rw [if_pos h]
      exact iff_of_true rfl ⟨item, rfl, h⟩
    · rw [if_neg h]
      exact iff_of_false nofun fun ⟨item', heq, hfits⟩ => h (Option.some.inj heq ▸ hfits)

theorem publish_snd (venue : Venue) (s : Stored) (piece : Piece) :
    (publish venue s piece).2 = if Piece.fatal piece then [] else Piece.datagrams piece := by
  obtain ⟨_ | item, clock⟩ := piece
  · rfl
  · show (sendItem clock item).1 = if (sendItem clock item).2 then [] else datagrams clock item
    rw [sendItem_eq]
    by_cases h : Fits item
    · rw [if_pos h]
      rfl
    · rw [if_neg h]
      rfl

def tradesOf (items : List Item) : List TradeData :=
  items.filterMap fun
    | .trade trade  => some trade
    | .orderbook _  => none

def orderbooksOf (items : List Item) : List OrderBookData :=
  items.filterMap fun
    | .trade _             => none
    | .orderbook orderbook => some orderbook

/-- The store has the most recent of these items. -/
structure Stored.Holds (venue : Venue) (s : Stored) (items : List Item) : Prop where
  trades     : s.trades.Recent maxTrades (tradesOf items)
  orderbooks : s.orderbooks.Recent maxOrderbooks (if venue = .bithumb then [] else orderbooksOf items)
  latest     : ∀ symbol, s.latest symbol =
    if venue = .bithumb then ((orderbooksOf items).filter fun book => book.symbol = symbol).getLast? else none

theorem Stored.Holds.new (venue : Venue) : Stored.Holds venue .new [] where
  trades     := CircularBuffer.recent_new maxTrades
  orderbooks := by
    rw [show orderbooksOf [] = [] from rfl, ite_self]
    exact CircularBuffer.recent_new maxOrderbooks
  latest     := fun _ => (ite_self _).symm

theorem Stored.Holds.store {venue : Venue} {s : Stored} {items : List Item} (h : s.Holds venue items) (item : Item) :
    (s.store venue item).Holds venue (items ++ [item]) := by
  cases item with
  | trade trade =>
      have htrades : tradesOf (items ++ [.trade trade]) = tradesOf items ++ [trade] := List.filterMap_append
      have hbooks : orderbooksOf (items ++ [.trade trade]) = orderbooksOf items :=
        List.filterMap_append.trans (List.append_nil _)
      refine ⟨?_, ?_, ?_⟩
      · rw [htrades]
        exact h.trades.push (by decide) trade
      · rw [hbooks]
        exact h.orderbooks
      · rw [hbooks]
        exact h.latest
  | orderbook book =>
      have htrades : tradesOf (items ++ [.orderbook book]) = tradesOf items :=
        List.filterMap_append.trans (List.append_nil _)
      have hbooks : orderbooksOf (items ++ [.orderbook book]) = orderbooksOf items ++ [book] := List.filterMap_append
      have hlatest := h.latest
      have horderbooks := h.orderbooks
      by_cases hvenue : venue = .bithumb
      · simp only [if_pos hvenue] at hlatest horderbooks
        have hstore : s.store venue (.orderbook book)
            = { s with latest := Function.update s.latest book.symbol (some book) } := if_pos hvenue
        rw [hstore]
        refine ⟨htrades ▸ h.trades, ?_, fun symbol => ?_⟩
        · rw [if_pos hvenue]
          exact horderbooks
        · rw [if_pos hvenue, hbooks, List.filter_append]
          by_cases hsymbol : symbol = book.symbol
          · simp [hsymbol]
          · simp [hsymbol, Ne.symm hsymbol, hlatest symbol]
      · simp only [if_neg hvenue] at hlatest horderbooks
        have hstore : s.store venue (.orderbook book) = { s with orderbooks := s.orderbooks.push book } :=
          if_neg hvenue
        rw [hstore]
        refine ⟨htrades ▸ h.trades, ?_, fun symbol => ?_⟩
        · rw [if_neg hvenue, hbooks]
          exact horderbooks.push (by decide) book
        · rw [if_neg hvenue]
          exact hlatest symbol

theorem run_publish_snd (venue : Venue) (s : Stored) (pieces : List Piece) :
    (run (publish venue) s pieces).2
      = pieces.flatMap fun piece => if Piece.fatal piece then [] else Piece.datagrams piece := by
  induction pieces generalizing s with
  | nil => rfl
  | cons piece pieces ih => rw [run_cons, List.flatMap_cons, ih, publish_snd]

/-- The run of a task is the run of one that never ends, up to the first item that panics. -/
theorem run_reader (r : Reader) (texts : List Received) :
    run r.step (.new, true) texts =
      (((run (publish r.venue) .new (upToFirst Piece.fatal (texts.flatMap r.pieces))).1,
          (texts.flatMap r.pieces).all (!Piece.fatal ·)),
        ((texts.flatMap r.pieces).takeWhile (!Piece.fatal ·)).flatMap Piece.datagrams) := by
  have hrun : run r.step (.new, true) texts
      = run (failStop (publish r.venue) Piece.fatal) (Stored.new, true) (texts.flatMap r.pieces) :=
    run_batches r.pieces _ _
  rw [hrun, run_failStop, run_publish_snd, flatMap_upToFirst (fun piece hfatal => if_pos hfatal)]
  congr 1
  refine List.flatMap_congr fun piece hmem => ?_
  rw [if_neg (by simpa using List.mem_takeWhile_imp hmem)]

/-- A trade as the receiver passes it on. -/
def receivedTrade (trade : TradeData) : Trade where
  exchange  := parseExchange (toLowercase (PacketHeader.parseName (PacketHeader.nameField trade.exchange)))
  symbol    := parseString (PacketHeader.nameField trade.symbol)
  timestamp := ((trade.timestamp * trade.timestampUnit.nanosecondsPer : Nat) : Int) / 1000
  price     := unscale (wrapI64 ((rescale trade.price trade.pricePrecision).getD 0))
  quantity  := unscale (wrapI64 ((rescale trade.quantity trade.quantityPrecision).getD 0))
  side      := if 0 < trade.quantity then .buy else .sell
  tradeId   := "0"

/-- The trades among what the handler of the receiver sends. -/
def receivedTrades (sent : List Sent) : List Trade :=
  sent.filterMap fun
    | .trade trade => some trade
    | .orderbook _ => none

/-- There are addresses for the exchange of the trade. -/
def Addressed (trade : TradeData) : Prop :=
  toLowercase (PacketHeader.parseName (PacketHeader.nameField trade.exchange)) ∈ exchanges

theorem receive_trade {trade : TradeData} (haddressed : Addressed trade) (h : trade.Encodes) (clock : Bool → Nat)
    (agg : OrderBookAggregator) :
    ∃ d, datagrams clock (.trade trade) = [d] ∧ receive agg d = (agg, [.trade (receivedTrade trade)]) := by
  obtain ⟨packet, hpacket⟩ := Option.isSome_iff_exists.mp ((fromTrade_isSome_iff trade (clock true)).mpr h)
  obtain ⟨hheader, item, hitem, hreads⟩ := readsTrade_fromTrade hpacket
  have htype : packet.header.packetType = 1 := by rw [← hheader, hreads.packetType]
  have hexchange : packet.header.exchange = PacketHeader.nameField trade.exchange := by
    rw [← hheader, hreads.exchange]
  unfold Addressed at haddressed
  let exchange := toLowercase (PacketHeader.parseName (PacketHeader.nameField trade.exchange))
  refine ⟨⟨exchange, .trade, packet.toBytes⟩, ?_, ?_⟩
  · simp only [exchange, datagrams, hpacket, Option.bind_some, sendPacket, hexchange, if_pos haddressed, htype, if_true,
      Option.toList_some]
  unfold TradeItem.newFromScaled at hitem
  simp only [Option.bind_eq_bind, Option.bind_eq_some_iff] at hitem
  obtain ⟨price, hprice, quantity, hquantity, hitem⟩ := hitem
  obtain rfl := Option.some.inj hitem
  have htimestamp := hreads.exchangeTimestamp
  rw [toNanoseconds_eq h.timestamp] at htimestamp
  unfold receive handlePacket readTrade receivedTrade
  rw [if_neg (Nat.not_lt.mpr hreads.header_le), hreads.item, hprice, hquantity, hreads.symbol]
  dsimp only [Option.map_some, Option.toList_some, Option.getD_some]
  rw [microseconds, ← Option.some.inj htimestamp]
  by_cases hside : 0 < trade.quantity
  · rw [if_pos hside, decide_eq_true hside]
    rfl
  · rw [if_neg hside, decide_eq_false hside]
    rfl

/-- The packets of a book bring no trades. -/
theorem receive_orderbook (orderbook : OrderBookData) (clock : Bool → Nat) (agg : OrderBookAggregator) :
    receivedTrades (run receive agg (datagrams clock (.orderbook orderbook))).2 = [] := by
  have hone : ∀ agg side d, OfSide orderbook side d → receivedTrades (receive agg d).2 = [] := by
    intro agg side d hd
    unfold receive handlePacket
    rw [hd.dataType]
    split
    · rfl
    · cases (aggregate agg d.bytes d.exchange).2 <;> rfl
  have hopt : ∀ agg side (d : Option Datagram), (∀ x ∈ d, OfSide orderbook side x) →
      receivedTrades (run receive agg d.toList).2 = [] := by
    intro agg side d hd
    cases d with
    | none => rfl
    | some x =>
        show receivedTrades ((receive agg x).2 ++ []) = []
        rw [List.append_nil]
        exact hone agg side x (hd x rfl)
  obtain ⟨bid, ask, hsent, hbid, hask⟩ := sendOrderbookData_eq orderbook clock
  show receivedTrades (run receive agg (sendOrderbookData orderbook clock)).2 = []
  rw [hsent, run_append_outputs]
  unfold receivedTrades
  rw [List.filterMap_append]
  exact List.append_eq_nil_iff.mpr ⟨hopt agg true bid hbid, hopt _ false ask hask⟩

/-! ## The whole way -/

def exchangeName : Item → String
  | .trade trade         => trade.exchange
  | .orderbook orderbook => orderbook.exchange

def Venue.name : Venue → String
  | .okx     => "OKX"
  | .upbit   => "Upbit"
  | .bithumb => "Bithumb"

def Venue.exchange : Venue → Exchange
  | .okx     => .okx
  | .upbit   => .upbit
  | .bithumb => .bithumb

section
variable {context : Context} {assetType : String} {nowMillis : Nat → Nat} {value : Value} {item : Item}

theorem okx_exchangeName (h : some item ∈ Okx.processMessage context assetType nowMillis value) :
    exchangeName item = "OKX" := by
  have htrade : ∀ {symbol : String} {now : Nat} {data : Value},
      (Okx.makeTrade .release context assetType symbol now data).map Item.trade = some item → exchangeName item = "OKX" := by
    intro symbol now data hmade
    obtain ⟨trade, htrade, rfl⟩ := Option.map_eq_some_iff.mp hmade
    obtain ⟨price, -, hrest⟩ := Option.bind_eq_some_iff.mp htrade
    obtain ⟨quantity, -, hsome⟩ := Option.bind_eq_some_iff.mp hrest
    rw [← Option.some.inj hsome]
    rfl
  have hbook : ∀ {symbol : String} {now : Nat} {data : Value},
      (Okx.makeOrderbook context assetType symbol now data).map Item.orderbook = some item →
        exchangeName item = "OKX" := by
    intro symbol now data hmade
    obtain ⟨orderbook, hbook, rfl⟩ := Option.map_eq_some_iff.mp hmade
    obtain ⟨bids, -, hrest⟩ := Option.bind_eq_some_iff.mp hbook
    obtain ⟨asks, -, hsome⟩ := Option.bind_eq_some_iff.mp hrest
    rw [← Option.some.inj hsome]
    rfl
  unfold Okx.processMessage at h
  split at h
  · cases h
  split at h
  next =>
    split at h
    · cases h
    dsimp only at h
    split at h
    · cases h
    unfold Okx.processChannel at h
    dsimp only at h
    split at h
    · obtain ⟨i, hi, hmade⟩ := List.mem_mapIdx.mp h
      exact htrade hmade
    split at h
    · obtain ⟨i, hi, hmade⟩ := List.mem_mapIdx.mp h
      exact hbook hmade
    · cases h
  next => cases h

theorem upbit_exchangeName (h : some item ∈ Upbit.processMessage context assetType nowMillis value) :
    exchangeName item = "Upbit" := by
  unfold Upbit.processMessage at h
  dsimp only at h
  split at h
  · cases h
  split at h
  · cases h
  split at h
  · obtain rfl := Option.some.inj (List.mem_singleton.mp h)
    rfl
  split at h
  · split at h
    · cases h
    · obtain rfl := Option.some.inj (List.mem_singleton.mp h)
      rfl
  · cases h

theorem bithumb_exchangeName (h : some item ∈ Bithumb.processMessage context assetType nowMillis value) :
    exchangeName item = "Bithumb" := by
  unfold Bithumb.processMessage at h
  dsimp only at h
  split at h
  · cases h
  split at h
  · cases h
  split at h
  · split at h
    · cases h
    · obtain rfl := Option.some.inj (List.mem_singleton.mp h)
      rfl
  split at h
  · split at h
    · cases h
    split at h
    · cases h
    · obtain rfl := Option.some.inj (List.mem_singleton.mp h)
      rfl
  · cases h

end

theorem exchangeName_of_piece {r : Reader} {received : Received} {piece : Piece} (h : piece ∈ r.pieces received)
    {item : Item} (hitem : piece.1 = some item) : exchangeName item = r.venue.name := by
  have hfrom : some item ∈ r.processMessage received.nowMillis received.text := by
    rcases List.mem_append.mp h with hlog | hmade
    · split at hlog
      · rw [List.mem_singleton.mp hlog] at hitem
        cases hitem
      · cases hlog
    · obtain ⟨i, hi, rfl⟩ := List.mem_mapIdx.mp hmade
      rw [← show _ = some item from hitem]
      exact List.getElem_mem _
  have hrefused : ∀ error, some item ∉ r.refused error received.text := by
    intro error hmem
    unfold Reader.refused at hmem
    split at hmem
    · cases List.mem_singleton.mp hmem
    · cases hmem
  unfold Reader.processMessage at hfrom
  cases hvenue : r.venue with
  | okx =>
      rw [hvenue] at hfrom
      dsimp only at hfrom
      split at hfrom
      · cases hfrom
      · split at hfrom
        · exact absurd hfrom (hrefused _)
        · exact okx_exchangeName hfrom
  | upbit =>
      rw [hvenue] at hfrom
      dsimp only at hfrom
      split at hfrom
      · exact absurd hfrom (hrefused _)
      · exact upbit_exchangeName hfrom
  | bithumb =>
      rw [hvenue] at hfrom
      dsimp only at hfrom
      split at hfrom
      · cases hfrom
      · exact bithumb_exchangeName hfrom

theorem nameField_name (venue : Venue) :
    toLowercase (PacketHeader.parseName (PacketHeader.nameField venue.name)) ∈ exchanges ∧
      parseExchange (toLowercase (PacketHeader.parseName (PacketHeader.nameField venue.name))) = venue.exchange := by
  cases venue <;> decide +kernel

theorem addressed_of_name {venue : Venue} {trade : TradeData} (h : trade.exchange = venue.name) :
    Addressed trade ∧ (receivedTrade trade).exchange = venue.exchange := by
  obtain ⟨haddressed, hexchange⟩ := nameField_name venue
  constructor
  · rw [Addressed, h]
    exact haddressed
  · dsimp only [receivedTrade]
    rw [h, hexchange]

/-- The trades among the pieces, one after the other. -/
theorem receivedTrades_run {venue : Venue} {pieces : List Piece}
    (h : ∀ piece ∈ pieces, ∃ item, piece.1 = some item ∧ Fits item ∧ exchangeName item = venue.name)
    (agg : OrderBookAggregator) :
    receivedTrades (run receive agg (pieces.flatMap Piece.datagrams)).2
      = (tradesOf (pieces.filterMap Prod.fst)).map receivedTrade := by
  induction pieces generalizing agg with
  | nil => rfl
  | cons piece pieces ih =>
      obtain ⟨hpiece, hpieces⟩ := List.forall_mem_cons.mp h
      obtain ⟨item, hitem, hfits, hname⟩ := hpiece
      obtain ⟨made, clock⟩ := piece
      obtain rfl : made = some item := hitem
      have hsplit : ∀ xs ys, receivedTrades (xs ++ ys) = receivedTrades xs ++ receivedTrades ys :=
        fun xs ys => List.filterMap_append
      rw [List.flatMap_cons, run_append_outputs, hsplit, ih hpieces]
      show receivedTrades (run receive agg (datagrams clock item)).2 ++ _ = _
      cases item with
      | trade trade =>
          obtain ⟨d, hd, hreceive⟩ := receive_trade (addressed_of_name hname).1 hfits clock agg
          rw [hd, run_cons, hreceive]
          rfl
      | orderbook orderbook =>
          rw [receive_orderbook]
          rfl

/-- **Trades arrive.** A receiver that gets all datagrams of a reader passes on the trades before the first panic, one
for each, in order, and under the exchange they are from. -/
theorem trades_received (r : Reader) (texts : List Received) (agg : OrderBookAggregator) :
    let sent := (run r.step (.new, true) texts).2
    let pieces := (texts.flatMap r.pieces).takeWhile (!Piece.fatal ·)
    receivedTrades (run receive agg sent).2 = (tradesOf (pieces.filterMap Prod.fst)).map receivedTrade ∧
      ∀ trade ∈ receivedTrades (run receive agg sent).2, trade.exchange = r.venue.exchange := by
  intro sent pieces
  have hpieces : ∀ piece ∈ pieces, ∃ item, piece.1 = some item ∧ Fits item ∧ exchangeName item = r.venue.name := by
    intro piece hmem
    obtain ⟨item, hitem, hfits⟩ := (fatal_eq_false_iff piece).mp (by simpa using List.mem_takeWhile_imp hmem)
    obtain ⟨received, -, hfrom⟩ := List.mem_flatMap.mp ((List.takeWhile_prefix _).subset hmem)
    exact ⟨item, hitem, hfits, exchangeName_of_piece hfrom hitem⟩
  have hsent : sent = pieces.flatMap Piece.datagrams := congrArg Prod.snd (run_reader r texts)
  rw [hsent, receivedTrades_run hpieces]
  refine ⟨rfl, fun trade hmem => ?_⟩
  obtain ⟨data, hdata, rfl⟩ := List.mem_map.mp hmem
  obtain ⟨item, hitem, hmatch⟩ := List.mem_filterMap.mp hdata
  obtain ⟨piece, hpiece, hfst⟩ := List.mem_filterMap.mp hitem
  obtain ⟨item', hitem', -, hname⟩ := hpieces piece hpiece
  obtain rfl : item = item' := Option.some.inj (hfst.symm.trans hitem')
  cases item with
  | trade trade =>
      obtain rfl := Option.some.inj hmatch
      exact (addressed_of_name hname).2
  | orderbook orderbook => cases hmatch

end Crypto
end TradingPlatform
