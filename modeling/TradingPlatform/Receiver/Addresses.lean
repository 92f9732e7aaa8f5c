import TradingPlatform.Sender.Multicast

/-!
# `Receiver.Addresses` — which receivers hear a datagram

Every exchange has a multicast group of its own, but the ports are counted from the same two bases, and a receiver is
bound to its port on all addresses. A socket so bound hears every group that some socket of the host has joined.
So the first port of either kind is heard by the receivers of all seven exchanges, and each of them labels what it
hears with its own (`attributed_once_iff`).
-/

namespace TradingPlatform
namespace Receiver

open Market Rust Sender

namespace Addresses

/-! ## Addresses -/

structure ExchangeConfig where
  id   : Nat
  name : String
deriving DecidableEq

/-- Sender and receiver have the same table. -/
def exchangeConfigs : List ExchangeConfig :=
  [⟨1, "binance"⟩, ⟨2, "bybit"⟩, ⟨3, "okx"⟩, ⟨4, "deribit"⟩, ⟨5, "upbit"⟩, ⟨6, "coinbase"⟩, ⟨7, "bithumb"⟩]

/-- Binance gets 4, others get 1. -/
def ExchangeConfig.portCount (config : ExchangeConfig) : Nat := if config.id = 1 then 4 else 1

def basePort : DataType → Nat
  | .trade     => 9000
  | .orderBook => 9100

/-- A multicast group and a port. -/
structure Address where
  group : Nat × Nat × Nat × Nat
  port  : Nat
deriving DecidableEq

def addressOf (config : ExchangeConfig) (dataType : DataType) (portOffset : Nat) : Address :=
  ⟨(239, 10, config.id, 1), basePort dataType + portOffset⟩

/-! ## The sender -/

/-- Address pool for one exchange + data type. -/
structure AddressPool where
  sockets : List Address

def AddressPool.new (config : ExchangeConfig) (dataType : DataType) : AddressPool :=
  ⟨(List.range config.portCount).map (addressOf config dataType)⟩

/-- `hash` is what the default hasher makes of a symbol. -/
def AddressPool.selectSocket (hash : String → Nat) (pool : AddressPool) (symbol : String) : Nat :=
  if pool.sockets.length = 1 then 0 else hash symbol % pool.sockets.length

def AddressPool.send (hash : String → Nat) (pool : AddressPool) (symbol : String) : Option Address :=
  pool.sockets[pool.selectSocket hash symbol]?

/-- Where a packet is sent, as what kind of data; an exchange without a pool is an error. -/
def sendTo (hash : String → Nat) (packet : BinaryUdpPacket) : Option (Address × Datagram) := do
  let datagram ← sendPacket packet
  let config ← exchangeConfigs.find? fun config => config.name = datagram.exchange
  let address ← (AddressPool.new config datagram.dataType).send hash (PacketHeader.parseName packet.header.symbol)
  return (address, datagram)

/-! ## The receivers -/

structure ReceiverSocket where
  exchange   : ExchangeConfig
  dataType   : DataType
  portOffset : Nat
deriving DecidableEq

/-- The group it joins, and the port it is bound to on all addresses. -/
def ReceiverSocket.address (r : ReceiverSocket) : Address := addressOf r.exchange r.dataType r.portOffset

/-- The sockets `MultiPortUdpReceiver` starts. -/
def receivers : List ReceiverSocket :=
  exchangeConfigs.flatMap fun config =>
    (List.range config.portCount).map (ReceiverSocket.mk config .trade) ++
      (List.range config.portCount).map (ReceiverSocket.mk config .orderBook)

/-- The network: a group that some socket has joined is heard on the port by all sockets bound to it. -/
def heardBy (address : Address) : List ReceiverSocket :=
  if receivers.any fun r => r.address.group = address.group then
    receivers.filter fun r => r.address.port = address.port
  else []

/-- On the first port every exchange has a receiver. -/
theorem heardBy_first : ∀ config ∈ exchangeConfigs, ∀ dataType,
    heardBy (addressOf config dataType 0) = exchangeConfigs.map fun other => ⟨other, dataType, 0⟩ := by
  intro config hconfig dataType
  revert config
  cases dataType <;> decide

/-- The others are Binance's alone. -/
theorem heardBy_other : ∀ portOffset < 4, portOffset ≠ 0 → ∀ dataType,
    heardBy (addressOf ⟨1, "binance"⟩ dataType portOffset) = [⟨⟨1, "binance"⟩, dataType, portOffset⟩] := by
  intro portOffset hlt hne dataType
  revert portOffset
  cases dataType <;> decide

/-! ## The handler -/

/-- What a packet parses to. -/
inductive Item where
  | trade (t : Market.Trade)
  | levels (exchange : Exchange) (symbol : String) (levels : List PriceLevel)

def Item.exchange : Item → Exchange
  | .trade t             => t.exchange
  | .levels exchange _ _ => exchange

/-- The parsing in the packet handler; the exchange is the one of the receiver. -/
def parseItem (data : List UInt8) (exchangeName : String) (dataType : DataType) : Option Item :=
  if data.length < headerSize then none
  else
    match dataType with
    | .trade     => (readTrade data exchangeName).map .trade
    | .orderBook => (parseOrderbookLevels data (parsePacketHeader data)).map
      (.levels (parseExchange exchangeName) (parseString (parsePacketHeader data).symbol))

/-- What the handler does with an item: a trade is sent, levels go to the entry of their exchange and symbol. -/
def absorb (agg : OrderBookAggregator) (header : PacketHeader) : Item → OrderBookAggregator × List Sent
  | .trade t                       => (agg, [.trade t])
  | .levels exchange symbol levels =>
    let key := (exchange, symbol)
    let added := if header.isBid then agg.addBids key levels else agg.addAsks key levels
    if header.isLast then
      ((added.takeComplete key).1,
        ((added.takeComplete key).2.map fun (bids, asks) => Sent.orderbook {
          exchange, symbol, bids, asks
          timestamp     := microseconds header
          isSnapshot    := true
          updateId      := 0
          firstUpdateId := 0
          prevUpdateId  := none }).toList)
    else (added, [])

/-- **The handler is its parsing** and what it does with the item. -/
theorem handlePacket_eq (agg : OrderBookAggregator) (data : List UInt8) (exchangeName : String)
    (dataType : DataType) :
    handlePacket agg data exchangeName dataType =
      match parseItem data exchangeName dataType with
      | none      => (agg, [])
      | some item => absorb agg (parsePacketHeader data) item := by
  unfold handlePacket parseItem
  by_cases hshort : data.length < headerSize
  · rw [if_pos hshort, if_pos hshort]
  · rw [if_neg hshort, if_neg hshort]
    cases dataType with
    | trade =>
        cases hread : readTrade data exchangeName with
        | none => rfl
        | some trade => rfl
    | orderBook =>
        unfold aggregate
        dsimp only
        cases hlevels : parseOrderbookLevels data (parsePacketHeader data) with
        | none => rfl
        | some levels =>
            dsimp only [Option.map_some, absorb]
            by_cases hlast : (parsePacketHeader data).isLast = true
            · simp only [if_pos hlast, Option.map_map]
              rfl
            · simp only [if_neg hlast]
              rfl

/-! ## Packets and their arrivals -/

/-- A packet of a trade, or of a side that has levels. -/
inductive Made (packet : BinaryUdpPacket) : DataType → Prop where
  | trade {trade : TradeData} {now : Nat} (h : BinaryUdpPacket.fromTrade trade now = some packet) :
      Made packet .trade
  | orderBook {orderbook : OrderBookData} {side : Bool} {now : Nat}
      (h : BinaryUdpPacket.fromOrderbook orderbook side now = some packet) (hne : orderbook.levels side ≠ []) :
      Made packet .orderBook

/-- The exchange its header names, and the symbol. -/
def exchangeOf (packet : BinaryUdpPacket) : String := PacketHeader.parseName packet.header.exchange
def symbolOf (packet : BinaryUdpPacket) : String := PacketHeader.parseName packet.header.symbol

/-- A packet as it reaches a receiver: the receiver, the number of the packet and its bytes. -/
structure Arrival where
  receiver : ReceiverSocket
  number   : Nat
  data     : List UInt8

/-- The arrivals of a packet. -/
def arrivalsOf (hash : String → Nat) (number : Nat) (packet : BinaryUdpPacket) : List Arrival :=
  match sendTo hash packet with
  | none                     => []
  | some (address, datagram) => (heardBy address).map fun r => ⟨r, number, datagram.bytes⟩

/-- The arrivals of packets sent one after the other, numbered from `number` on. -/
def arrivals (hash : String → Nat) : Nat → List BinaryUdpPacket → List Arrival
  | _, []                => []
  | number, packet :: packets => arrivalsOf hash number packet ++ arrivals hash (number + 1) packets

/-- The items parsed of a packet, in the order its arrivals are handled in. -/
def produced (order : List Arrival) (number : Nat) : List Item :=
  (order.filter fun a => a.number = number).filterMap fun a =>
    parseItem a.data a.receiver.exchange.name a.receiver.dataType

/-- Every packet makes one item, of the exchange it names. -/
def AttributedOnce (packets : List BinaryUdpPacket) (order : List Arrival) : Prop :=
  ∀ number packet, packets[number]? = some packet →
    ∃ item, produced order number = [item] ∧ item.exchange = parseExchange (exchangeOf packet)

/-- The packet goes to one of Binance's own ports. -/
def OwnPort (hash : String → Nat) (packet : BinaryUdpPacket) : Prop :=
  toLowercase (exchangeOf packet) = "binance" ∧ hash (symbolOf packet) % 4 ≠ 0

/-! ## Arrivals of one packet -/

theorem filter_arrivalsOf (hash : String → Nat) (number other : Nat) (packet : BinaryUdpPacket) :
    (arrivalsOf hash number packet).filter (fun a => a.number = other) =
      if number = other then arrivalsOf hash number packet else [] := by
  have hnumber : ∀ a ∈ arrivalsOf hash number packet, a.number = number := by
    intro a ha
    unfold arrivalsOf at ha
    split at ha
    · cases ha
    · obtain ⟨r, -, rfl⟩ := List.mem_map.mp ha
      rfl
  by_cases hother : number = other
  · rw [if_pos hother]
    refine List.filter_eq_self.mpr fun a ha => ?_
    simp [hnumber a ha, hother]
  · rw [if_neg hother]
    refine List.filter_eq_nil_iff.mpr fun a ha => ?_
    simp [hnumber a ha, hother]

/-- Before its turn a number has not arrived. -/
theorem filter_arrivals_early (hash : String → Nat) {packets : List BinaryUdpPacket} {start number : Nat}
    (h : number < start) : (arrivals hash start packets).filter (fun a => a.number = number) = [] := by
  induction packets generalizing start with
  | nil => rfl
  | cons packet packets ih =>
      rw [arrivals, List.filter_append, filter_arrivalsOf, if_neg (Nat.ne_of_gt h), List.nil_append]
      exact ih (Nat.lt_succ_of_lt h)

/-- The arrivals of one packet among all. -/
theorem filter_arrivals (hash : String → Nat) {packets : List BinaryUdpPacket} (start : Nat) {number : Nat}
    {packet : BinaryUdpPacket} (h : packets[number]? = some packet) :
    (arrivals hash start packets).filter (fun a => a.number = start + number) =
      arrivalsOf hash (start + number) packet := by
  induction packets generalizing start number with
  | nil => cases h
  | cons first packets ih =>
      rw [arrivals, List.filter_append, filter_arrivalsOf]
      cases number with
      | zero =>
          obtain rfl : first = packet := Option.some.inj h
          rw [Nat.add_zero, if_pos rfl, filter_arrivals_early hash (Nat.lt_succ_self start), List.append_nil]
      | succ number =>
          have hshift : start + (number + 1) = start + 1 + number := by omega
          rw [if_neg (by omega), List.nil_append, hshift]
          exact ih (start + 1) h

/-- The port a packet for this exchange and symbol goes to, counted from the base. -/
def portOf (hash : String → Nat) (config : ExchangeConfig) (symbol : String) : Nat :=
  if config.id = 1 then hash symbol % 4 else 0

theorem send_new (hash : String → Nat) (config : ExchangeConfig) (dataType : DataType) (symbol : String) :
    (AddressPool.new config dataType).send hash symbol =
      some (addressOf config dataType (portOf hash config symbol)) := by
  have hlen : (AddressPool.new config dataType).sockets.length = config.portCount := by
    simp [AddressPool.new]
  unfold AddressPool.send AddressPool.selectSocket
  rw [hlen]
  unfold AddressPool.new ExchangeConfig.portCount portOf
  by_cases hid : config.id = 1
  · simp [hid, Nat.mod_lt]
  · simp [hid]

theorem find_config : ∀ exchange ∈ exchanges, ∃ config ∈ exchangeConfigs, config.name = exchange ∧
    exchangeConfigs.find? (fun config => config.name = exchange) = some config := by
  decide

theorem sendPacket_of_made {packet : BinaryUdpPacket} {dataType : DataType} (h : Made packet dataType)
    (hknown : toLowercase (exchangeOf packet) ∈ exchanges) :
    sendPacket packet = some ⟨toLowercase (exchangeOf packet), dataType, packet.toBytes⟩ := by
  unfold exchangeOf at hknown
  unfold sendPacket exchangeOf
  dsimp only
  rw [if_pos hknown]
  cases h with
  | trade h =>
      obtain ⟨hheader, item, -, hreads⟩ := readsTrade_fromTrade h
      rw [if_pos (by rw [← hheader, hreads.packetType])]
  | orderBook h hne =>
      obtain ⟨hheader, hreads⟩ := readsSide_fromOrderbook h
      have htype : packet.header.packetType = 2 := by rw [← hheader, hreads.packetType]
      rw [if_neg (by rw [htype]; decide), if_pos htype]

/-- **A packet goes to its exchange's group**, and there to the port of its symbol. -/
theorem sendTo_of_made (hash : String → Nat) {packet : BinaryUdpPacket} {dataType : DataType}
    (h : Made packet dataType) (hknown : toLowercase (exchangeOf packet) ∈ exchanges) :
    ∃ config ∈ exchangeConfigs, config.name = toLowercase (exchangeOf packet) ∧
      sendTo hash packet = some (addressOf config dataType (portOf hash config (symbolOf packet)),
        ⟨config.name, dataType, packet.toBytes⟩) := by
  obtain ⟨config, hconfig, hname, hfind⟩ := find_config _ hknown
  refine ⟨config, hconfig, hname, ?_⟩
  unfold sendTo symbolOf
  rw [sendPacket_of_made h hknown, hname]
  simp only [Option.bind_eq_bind, Option.bind_some, hfind, send_new]
  rfl

/-! ## What the receivers make of it -/

/-- Every receiver of the right kind that hears a packet parses it, and labels it with its own exchange. -/
theorem parseItem_of_made {packet : BinaryUdpPacket} {dataType : DataType} (h : Made packet dataType)
    (exchangeName : String) :
    ∃ item, parseItem packet.toBytes exchangeName dataType = some item ∧
      item.exchange = parseExchange exchangeName := by
  unfold parseItem
  cases h with
  | trade h =>
      obtain ⟨-, item, -, hreads⟩ := readsTrade_fromTrade h
      rw [if_neg (Nat.not_lt.mpr hreads.header_le)]
      simp only [readTrade, hreads.item, Option.map_some]
      exact ⟨_, rfl, rfl⟩
  | orderBook h hne =>
      obtain ⟨-, hreads⟩ := readsSide_fromOrderbook h
      rw [if_neg (Nat.not_lt.mpr hreads.header_le)]
      simp only [hreads.levels hne, Option.map_some]
      exact ⟨_, rfl, rfl⟩

theorem parseExchange_lower {name : String} {config : ExchangeConfig} (hconfig : config ∈ exchangeConfigs)
    (h : config.name = toLowercase name) : parseExchange name = parseExchange config.name := by
  have hlower : ∀ config ∈ exchangeConfigs, toLowercase config.name = config.name := by decide
  unfold parseExchange
  rw [hlower config hconfig, h]

/-- The items made of the arrivals of a packet. -/
def itemsOf (hash : String → Nat) (number : Nat) (packet : BinaryUdpPacket) : List Item :=
  (arrivalsOf hash number packet).filterMap fun a => parseItem a.data a.receiver.exchange.name a.receiver.dataType

theorem itemsOf_eq {hash : String → Nat} {packet : BinaryUdpPacket} {address : Address} {datagram : Datagram}
    (h : sendTo hash packet = some (address, datagram)) (number : Nat) :
    itemsOf hash number packet =
      (heardBy address).filterMap fun r => parseItem datagram.bytes r.exchange.name r.dataType := by
  unfold itemsOf arrivalsOf
  rw [h]
  exact List.filterMap_map

/-- The first port: as many items as there are exchanges. -/
theorem length_itemsOf_first {packet : BinaryUdpPacket} {dataType : DataType} (h : Made packet dataType)
    {config : ExchangeConfig} (hconfig : config ∈ exchangeConfigs) :
    ((heardBy (addressOf config dataType 0)).filterMap fun r =>
      parseItem packet.toBytes r.exchange.name r.dataType).length = 7 := by
  have hheard := heardBy_first config hconfig dataType
  have hparsed : ∀ r ∈ heardBy (addressOf config dataType 0),
      (parseItem packet.toBytes r.exchange.name r.dataType).isSome := by
    intro r hr
    rw [hheard] at hr
    obtain ⟨other, -, rfl⟩ := List.mem_map.mp hr
    obtain ⟨item, hitem, -⟩ := parseItem_of_made h other.name
    rw [hitem]
    rfl
  rw [List.filterMap_length_eq_length.mpr hparsed, hheard]
  rfl

/-- **One packet** makes one item of its exchange exactly on the ports that only Binance has. -/
theorem itemsOf_iff (hash : String → Nat) (number : Nat) {packet : BinaryUdpPacket} {dataType : DataType}
    (h : Made packet dataType) (hknown : toLowercase (exchangeOf packet) ∈ exchanges) :
    (∃ item, itemsOf hash number packet = [item] ∧ item.exchange = parseExchange (exchangeOf packet)) ↔
      OwnPort hash packet := by
  have hbinance : ∀ config ∈ exchangeConfigs, config.id = 1 ↔ config.name = "binance" := by decide
  obtain ⟨config, hconfig, hname, hsend⟩ := sendTo_of_made hash h hknown
  have hown : OwnPort hash packet ↔ portOf hash config (symbolOf packet) ≠ 0 := by
    unfold OwnPort portOf
    rw [← hname, ← hbinance config hconfig]
    by_cases hid : config.id = 1
    · rw [if_pos hid, and_iff_right hid]
    · rw [if_neg hid]
      exact ⟨fun h' => absurd h'.1 hid, fun h' => absurd rfl h'⟩
  rw [itemsOf_eq hsend, hown]
  constructor
  -- on the first port there are seven items
  · rintro ⟨item, hitems, -⟩ hport
    have hlength := length_itemsOf_first h hconfig
    rw [← hport, hitems] at hlength
    cases hlength
  · intro hport
    have hid : config.id = 1 := by
      by_contra hid
      exact hport (if_neg hid)
    obtain rfl : config = ⟨1, "binance"⟩ := by
      cases config
      exact congrArg₂ ExchangeConfig.mk hid ((hbinance _ hconfig).mp hid)
    have hlt : portOf hash ⟨1, "binance"⟩ (symbolOf packet) < 4 := Nat.mod_lt _ (by decide)
    obtain ⟨item, hitem, hexchange⟩ := parseItem_of_made h "binance"
    refine ⟨item, ?_, ?_⟩
    · rw [heardBy_other _ hlt hport]
      simp [hitem]
    · rw [hexchange, parseExchange_lower hconfig hname]

/-! ## Any number of packets -/

/-- **Every packet makes one item, of its own exchange**, exactly when all of them go to Binance's own ports. In what
    order the receivers take the arrivals does not matter. -/
theorem attributed_once_iff (hash : String → Nat) {packets : List BinaryUdpPacket}
    (hmade : ∀ packet ∈ packets, (∃ dataType, Made packet dataType) ∧ toLowercase (exchangeOf packet) ∈ exchanges)
    {order : List Arrival} (horder : order.Perm (arrivals hash 0 packets)) :
    AttributedOnce packets order ↔ ∀ packet ∈ packets, OwnPort hash packet := by
  have hproduced : ∀ number packet, packets[number]? = some packet →
      (produced order number).Perm (itemsOf hash number packet) := by
    intro number packet hpacket
    have hfilter := (horder.filter fun a => a.number = number)
    have hown := filter_arrivals hash 0 hpacket
    rw [Nat.zero_add] at hown
    rw [hown] at hfilter
    exact hfilter.filterMap _
  have hpacket : ∀ number packet, packets[number]? = some packet →
      ((∃ item, produced order number = [item] ∧ item.exchange = parseExchange (exchangeOf packet)) ↔
        OwnPort hash packet) := by
    intro number packet hpacket
    obtain ⟨⟨dataType, hm⟩, hknown⟩ := hmade packet (List.mem_of_getElem? hpacket)
    rw [← itemsOf_iff hash number hm hknown]
    have hperm := hproduced number packet hpacket
    constructor
    · rintro ⟨item, hitem, hexchange⟩
      rw [hitem] at hperm
      exact ⟨item, hperm.symm.eq_singleton, hexchange⟩
    · rintro ⟨item, hitem, hexchange⟩
      rw [hitem] at hperm
      exact ⟨item, hperm.eq_singleton, hexchange⟩
  constructor
  · intro h packet hmem
    obtain ⟨number, hnumber⟩ := List.mem_iff_getElem?.mp hmem
    exact (hpacket number packet hnumber).mp (h number packet hnumber)
  · intro h number packet hnumber
    exact (hpacket number packet hnumber).mpr (h packet (List.mem_of_getElem? hnumber))

/-- A trade of any exchange, with the numbers of one Bitcoin at 65000.5. -/
def tradeOn (exchange : String) : TradeData where
  exchange          := exchange
  symbol            := "BTC-USDT"
  assetType         := "spot"
  price             := 6500050000000
  quantity          := 100000000
  pricePrecision    := 8
  quantityPrecision := 8
  timestamp         := 1700000000123
  timestampUnit     := .milliseconds

theorem exchangeOf_trade {trade : TradeData} {now : Nat} {packet : BinaryUdpPacket}
    (h : BinaryUdpPacket.fromTrade trade now = some packet) :
    exchangeOf packet = PacketHeader.parseName (PacketHeader.nameField trade.exchange) := by
  obtain ⟨hheader, item, -, hreads⟩ := readsTrade_fromTrade h
  unfold exchangeOf
  rw [← hheader, hreads.exchange]

/-- Two trades on Binance's second port, the arrivals in the other order. -/
theorem attributed_once_iff_binance :
    ∃ packet, BinaryUdpPacket.fromTrade (tradeOn "binance") 0 = some packet ∧
      (AttributedOnce [packet, packet] (arrivals (fun _ => 1) 0 [packet, packet]).reverse ↔
        ∀ p ∈ [packet, packet], OwnPort (fun _ => 1) p) := by
  obtain ⟨packet, hpacket⟩ := Option.isSome_iff_exists.mp
    (show (BinaryUdpPacket.fromTrade (tradeOn "binance") 0).isSome by decide +kernel)
  refine ⟨packet, hpacket, attributed_once_iff (fun _ => 1) (fun p hp => ?_) (List.reverse_perm _)⟩
  obtain rfl : p = packet := by simpa using hp
  refine ⟨⟨.trade, .trade hpacket⟩, ?_⟩
  rw [exchangeOf_trade hpacket]
  decide +kernel

/-- A trade on Bybit, whatever the hash: all seven exchanges claim it. -/
theorem not_attributed_once : ¬ ∀ (hash : String → Nat) (packets : List BinaryUdpPacket) (order : List Arrival),
    (∀ packet ∈ packets, (∃ dataType, Made packet dataType) ∧ toLowercase (exchangeOf packet) ∈ exchanges) →
      order.Perm (arrivals hash 0 packets) → AttributedOnce packets order := by
  intro h
  obtain ⟨packet, hpacket⟩ := Option.isSome_iff_exists.mp
    (show (BinaryUdpPacket.fromTrade (tradeOn "bybit") 0).isSome by decide +kernel)
  have hexchange : toLowercase (exchangeOf packet) = "bybit" := by
    rw [exchangeOf_trade hpacket]
    decide +kernel
  have hknown : toLowercase (exchangeOf packet) ∈ exchanges := by
    rw [hexchange]
    decide
  have honce := h (fun _ => 0) [packet] (arrivals (fun _ => 0) 0 [packet]) (fun p hp => ?_) (List.Perm.refl _)
  · obtain ⟨item, hproduced, hlabel⟩ := honce 0 packet rfl
    unfold produced at hproduced
    rw [@filter_arrivals (fun _ => 0) [packet] 0 0 packet rfl] at hproduced
    have hown := (itemsOf_iff (fun _ => 0) 0 (.trade hpacket) hknown).mp ⟨item, hproduced, hlabel⟩
    rw [OwnPort, hexchange] at hown
    exact absurd hown.1 (by decide)
  · obtain rfl := List.mem_singleton.mp hp
    exact ⟨⟨.trade, .trade hpacket⟩, hknown⟩

end Addresses
end Receiver
end TradingPlatform
