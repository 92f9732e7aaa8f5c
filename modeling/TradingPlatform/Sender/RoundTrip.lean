import TradingPlatform.Sender.Packet
import TradingPlatform.Rust.Collect

/-!
# `Sender.RoundTrip` — the receiver reads what the feeder wrote

Encoder and decoder meet at the bytes: the header comes back field by field (`parsePacketHeader_toBytes`), a name
of at most 19 bytes without a NUL comes back as it was (`parseString_nameField`), and the items come back in
order (`readItem_items`). What rescaling does is `atScale8`, as long as nothing overflows.
-/

namespace TradingPlatform
namespace Sender

open Market Rust Receiver

/-! ## Numbers in memory -/

theorem i64AsU64_lt (n : Int) : i64AsU64 n < 2 ^ 64 := by
  unfold i64AsU64
  omega

theorem u64AsI64_i64AsU64 {n : Int} (h : InI64 n) : u64AsI64 (i64AsU64 n) = n := by
  unfold InI64 at h
  unfold u64AsI64 i64AsU64
  split <;> omega

theorem i64AsU64_u64AsI64 {m : Nat} (h : m < 2 ^ 64) : i64AsU64 (u64AsI64 m) = m := by
  unfold u64AsI64 i64AsU64
  split <;> omega

theorem u64ToBe_lt (x : Nat) : u64ToBe x < 2 ^ 64 := by
  have hlt := ofBe_lt (toLe 8 x)
  rw [length_toLe] at hlt
  exact hlt

/-- A converted `i64` lies in memory big-endian. -/
theorem toLe_i64ToBe (n : Int) : toLe 8 (i64AsU64 (i64ToBe n)) = toBe 8 (i64AsU64 n) := by
  unfold i64ToBe
  rw [i64AsU64_u64AsI64 (u64ToBe_lt _), toLe_u64ToBe]

/-- An `i64` read back from its eight bytes. -/
theorem u64AsI64_ofBe (n : Int) : u64AsI64 (ofBe (toBe 8 (i64AsU64 n))) = wrapI64 n := by
  rw [ofBe_toBe (i64AsU64_lt n)]
  rfl

/-! ## Scaling -/

/-- The number `n`, of `precision` decimals, with 8 decimals; surplus decimals are cut off. -/
def atScale8 (n : Int) (precision : Nat) : Int :=
  if precision ≤ 8 then n * 10 ^ (8 - precision) else n.tdiv (10 ^ (precision - 8))

/-- Rescaling meets no overflow: neither the power of ten nor the result leaves the range. -/
structure Rescales (n : Int) (precision : Nat) : Prop where
  power  : InI64 (10 ^ (precision - 8))
  result : InI64 (atScale8 n precision)

instance (n : Int) (precision : Nat) : Decidable (Rescales n precision) :=
  decidable_of_iff (InI64 (10 ^ (precision - 8)) ∧ InI64 (atScale8 n precision))
    ⟨fun ⟨h₁, h₂⟩ => ⟨h₁, h₂⟩, fun ⟨h₁, h₂⟩ => ⟨h₁, h₂⟩⟩

/-- The powers of ten that numbers are multiplied with are all in range. -/
theorem inI64_pow_up (precision : Nat) : InI64 (10 ^ (8 - precision)) := by
  have hle : (10 : Int) ^ (8 - precision) ≤ 10 ^ 8 := pow_le_pow_right₀ (by decide) (Nat.sub_le ..)
  have hpos : (0 : Int) < 10 ^ (8 - precision) := pow_pos (by decide) _
  unfold InI64
  omega

theorem wrapI64_eq {n : Int} (h : InI64 n) : wrapI64 n = n := u64AsI64_i64AsU64 h

theorem rescale_eq {n : Int} {precision : Nat} (h : Rescales n precision) :
    rescale n precision = some (atScale8 n precision) := by
  have hresult := h.result
  unfold atScale8 at hresult ⊢
  unfold rescale
  rcases Nat.lt_trichotomy precision 8 with hlt | rfl | hgt
  · rw [if_pos (Nat.le_of_lt hlt)] at hresult ⊢
    rw [if_neg (Nat.ne_of_lt hlt), if_pos hlt, wrapI64_eq (inI64_pow_up precision), wrapI64_eq hresult]
  · simp
  · rw [if_neg (Nat.not_le.mpr hgt)] at hresult ⊢
    have hpos : (10 : Int) ^ (precision - 8) ≠ 0 := pow_ne_zero _ (by decide)
    rw [if_neg (Nat.ne_of_gt hgt), if_neg (Nat.not_lt.mpr (Nat.le_of_lt hgt)), wrapI64_eq h.power, if_neg hpos,
      wrapI64_eq hresult]

/-- Up to 8 decimals the wire shows the number itself. -/
theorem unscale_atScale8 {n : Int} {precision : Nat} (h : precision ≤ 8) :
    unscale (atScale8 n precision) = n / 10 ^ precision := by
  have hsplit : (10 : ℚ) ^ 8 = 10 ^ (8 - precision) * 10 ^ precision := by
    rw [← pow_add, Nat.sub_add_cancel h]
  have hne : (10 : ℚ) ^ (8 - precision) ≠ 0 := pow_ne_zero _ (by norm_num)
  unfold unscale atScale8
  rw [if_pos h, hsplit]
  push_cast
  rw [mul_comm ((10 : ℚ) ^ (8 - precision)), mul_div_mul_right _ _ hne]

/-! ## The header -/

/-- The flags come back as they were set, each cut to its bits. -/
theorem flags_setFlagsAndCount (header : PacketHeader) (isLast : Bool) (packetType : UInt8) (isBid : Bool)
    (count : UInt8) :
    (header.setFlagsAndCount isLast packetType isBid count).isLast = isLast ∧
    (header.setFlagsAndCount isLast packetType isBid count).packetType = packetType &&& 0x07 ∧
    (header.setFlagsAndCount isLast packetType isBid count).isBid = isBid ∧
    (header.setFlagsAndCount isLast packetType isBid count).itemCount = (count &&& 0x07).toNat := by
  -- the bits of the type and of the count, then all of the cases
  have hbits : ∀ x : UInt8, ∃ k : Fin 8, x &&& 0x07 = UInt8.ofNat k := by
    intro x
    have hlt : (x &&& 0x07).toNat < 8 := by
      rw [UInt8.toNat_and]
      exact Nat.lt_succ_of_le Nat.and_le_right
    exact ⟨⟨_, hlt⟩, (UInt8.ofNat_toNat (x := x &&& 0x07)).symm⟩
  obtain ⟨k, hk⟩ := hbits packetType
  obtain ⟨m, hm⟩ := hbits count
  unfold PacketHeader.setFlagsAndCount PacketHeader.isLast PacketHeader.packetType PacketHeader.isBid
    PacketHeader.itemCount
  simp only [hk, hm]
  clear hk hm
  revert isLast isBid k m
  decide +kernel

/-! ## Names -/

/-- A name the field of a header holds: at most 19 bytes, no NUL. -/
structure FitsName (name : String) : Prop where
  length_le : (utf8Bytes name).length ≤ 19
  noNul     : '\x00' ∉ name.toList

instance (name : String) : Decidable (FitsName name) :=
  decidable_of_iff ((utf8Bytes name).length ≤ 19 ∧ '\x00' ∉ name.toList)
    ⟨fun ⟨h₁, h₂⟩ => ⟨h₁, h₂⟩, fun ⟨h₁, h₂⟩ => ⟨h₁, h₂⟩⟩

@[simp] theorem length_nameField (name : String) : (PacketHeader.nameField name).length = 20 := by
  unfold PacketHeader.nameField
  simp only [List.length_append, List.length_take, List.length_replicate]
  omega

/-- **A name that fits is read back.** -/
theorem parseString_nameField {name : String} (h : FitsName name) :
    parseString (PacketHeader.nameField name) = name := by
  have hzero : ∀ b ∈ utf8Bytes name, (decide (b ≠ 0)) = true := by
    intro b hb
    refine decide_eq_true fun hb0 => zero_notMem_utf8Bytes h.noNul ?_
    rw [← hb0]
    exact hb
  have hpad : (List.replicate (20 - (utf8Bytes name).length) (0 : UInt8)).takeWhile (· ≠ 0) = [] := by
    cases 20 - (utf8Bytes name).length <;> rfl
  unfold parseString PacketHeader.nameField
  simp only [Nat.min_eq_left h.length_le]
  rw [List.take_length, List.takeWhile_append_of_pos hzero, hpad, List.append_nil, fromUtf8Lossy_utf8Bytes]

/-! ## The whole header -/

/-- A part of the buffer that lies before the field. -/
theorem field_skip {front rest : List UInt8} {offset : Nat} (h : front.length ≤ offset) (size : Nat) :
    field (front ++ rest) offset size = field rest (offset - front.length) size := by
  unfold field
  rw [List.drop_append, List.drop_eq_nil_of_le h, List.nil_append]

theorem field_here {part rest : List UInt8} {size : Nat} (h : part.length = size) :
    field (part ++ rest) 0 size = part := by
  unfold field
  rw [List.drop_zero, List.take_left' h]

/-- What the fields of a header hold. -/
structure WellFormed (header : PacketHeader) : Prop where
  exchangeTimestamp : header.exchangeTimestamp < 2 ^ 64
  localTimestamp    : header.localTimestamp < 2 ^ 64
  symbol            : header.symbol.length = 20
  exchange          : header.exchange.length = 20

theorem memory_toNetworkOrder (header : PacketHeader) :
    header.toNetworkOrder.memory
      = [header.protocolVersion] ++ toBe 8 header.exchangeTimestamp ++ toBe 8 header.localTimestamp
        ++ [header.flagsAndCount] ++ header.symbol ++ header.exchange := by
  unfold PacketHeader.toNetworkOrder PacketHeader.memory
  simp only [toLe_u64ToBe]

theorem length_memory {header : PacketHeader} (h : WellFormed header) :
    header.toNetworkOrder.memory.length = headerSize := by
  rw [memory_toNetworkOrder]
  simp [h.symbol, h.exchange, headerSize]

/-- **The header is read back as it was**, whatever follows it. -/
theorem parsePacketHeader_toBytes {packet : BinaryUdpPacket} (h : WellFormed packet.header) :
    parsePacketHeader packet.toBytes = packet.header := by
  obtain ⟨header, payload⟩ := packet
  obtain ⟨version, exchangeTimestamp, localTimestamp, flags, symbol, exchange⟩ := header
  obtain ⟨hexchangeTimestamp, hlocalTimestamp, hsymbol, hexchange⟩ := h
  simp only at hexchangeTimestamp hlocalTimestamp hsymbol hexchange
  unfold BinaryUdpPacket.toBytes
  rw [memory_toNetworkOrder]
  simp only [List.append_assoc]
  have hA : (toBe 8 exchangeTimestamp).length = 8 := length_toBe ..
  have hB : (toBe 8 localTimestamp).length = 8 := length_toBe ..
  generalize hdata : [version] ++ (toBe 8 exchangeTimestamp ++ (toBe 8 localTimestamp
    ++ ([flags] ++ (symbol ++ (exchange ++ payload))))) = data
  have hversion : data.getD 0 0 = version := by
    rw [← hdata]
    rfl
  have hflagsAndCount : data.getD 17 0 = flags := by
    rw [← hdata]
    simp [List.getElem?_append_right]
  have htimestamp : field data 1 8 = toBe 8 exchangeTimestamp := by
    rw [← hdata, field_skip (by simp), List.length_singleton, field_here hA]
  have hlocal : field data 9 8 = toBe 8 localTimestamp := by
    rw [← hdata, field_skip (by simp), List.length_singleton, field_skip (by simp), hA, field_here hB]
  have hsymbolField : field data 18 20 = symbol := by
    rw [← hdata, field_skip (by simp), List.length_singleton, field_skip (by simp), hA, field_skip (by simp), hB,
      field_skip (by simp), List.length_singleton, field_here hsymbol]
  have hexchangeField : field data 38 20 = exchange := by
    rw [← hdata, field_skip (by simp), List.length_singleton, field_skip (by simp), hA, field_skip (by simp), hB,
      field_skip (by simp), List.length_singleton, field_skip (by simp [hsymbol]), hsymbol, field_here hexchange]
  unfold parsePacketHeader
  rw [hversion, hflagsAndCount, htimestamp, hlocal, hsymbolField, hexchangeField, ofBe_toBe hexchangeTimestamp,
    ofBe_toBe hlocalTimestamp]

/-- Where the payload starts. -/
theorem toBytes_eq (packet : BinaryUdpPacket) :
    packet.toBytes = packet.header.toNetworkOrder.memory ++ packet.payload := rfl

/-! ## Items -/

theorem memory_item (item : OrderBookItem) :
    item.toNetworkOrder.memory = toBe 8 (i64AsU64 item.price) ++ toBe 8 (i64AsU64 item.quantity) := by
  unfold OrderBookItem.toNetworkOrder OrderBookItem.memory
  rw [toLe_i64ToBe, toLe_i64ToBe]

theorem length_memory_item (item : OrderBookItem) : item.toNetworkOrder.memory.length = 16 := by
  rw [memory_item, List.length_append, length_toBe, length_toBe]

/-- The level an item stands for. Its numbers are `i64`s, so they do not wrap. -/
def OrderBookItem.level (item : OrderBookItem) : PriceLevel :=
  ⟨unscale (wrapI64 item.price), unscale (wrapI64 item.quantity)⟩

theorem readItem_here (front : List UInt8) (item : OrderBookItem) (rest : List UInt8) :
    readItem (front ++ (item.toNetworkOrder.memory ++ rest)) front.length = item.level := by
  have hA : (toBe 8 (i64AsU64 item.price)).length = 8 := length_toBe ..
  have hB : (toBe 8 (i64AsU64 item.quantity)).length = 8 := length_toBe ..
  unfold readItem OrderBookItem.level
  rw [memory_item, List.append_assoc, field_skip (Nat.le_refl _), Nat.sub_self, field_here hA,
    field_skip (Nat.le_add_right ..), Nat.add_sub_cancel_left, field_skip (Nat.le_of_eq hA), hA, Nat.sub_self,
    field_here hB, u64AsI64_ofBe, u64AsI64_ofBe]

/-- **The items are read back in order.** -/
theorem readItem_items (items : List OrderBookItem) (front : List UInt8) :
    (List.range items.length).map (fun i => readItem
        (front ++ items.flatMap fun item => item.toNetworkOrder.memory) (front.length + i * 16))
      = items.map OrderBookItem.level := by
  induction items generalizing front with
  | nil => rfl
  | cons item items ih =>
      rw [List.length_cons, List.range_succ_eq_map, List.map_cons, List.map_map, List.map_cons, List.flatMap_cons]
      congr 1
      · rw [Nat.zero_mul, Nat.add_zero, readItem_here]
      · -- the rest is read behind the first item
        rw [← ih (front ++ item.toNetworkOrder.memory)]
        apply List.map_congr_left
        intro i _
        have hoffset : front.length + (i + 1) * 16 = (front ++ item.toNetworkOrder.memory).length + i * 16 := by
          rw [List.length_append, length_memory_item]
          omega
        simp only [Function.comp_apply, Nat.succ_eq_add_one]
        rw [hoffset, List.append_assoc]

theorem length_payload (items : List OrderBookItem) :
    (items.flatMap fun item => item.toNetworkOrder.memory).length = items.length * 16 := by
  induction items with
  | nil => rfl
  | cons item items ih =>
      rw [List.flatMap_cons, List.length_append, length_memory_item, ih, List.length_cons]
      omega

/-- **A payload is read item by item**, if the header announces as many as there are. -/
theorem parseOrderbookLevels_items {front : List UInt8} {header : PacketHeader} {items : List OrderBookItem}
    (hfront : front.length = headerSize) (hcount : header.itemCount = items.length) (hpos : items.length ≠ 0) :
    parseOrderbookLevels (front ++ items.flatMap fun item => item.toNetworkOrder.memory) header
      = some (items.map OrderBookItem.level) := by
  unfold parseOrderbookLevels
  rw [hcount, List.length_append, hfront, length_payload, if_neg (by omega), ← hfront, readItem_items]

/-! ## Order book packets -/

/-- The levels of one side that go onto the wire. -/
def OrderBookData.wireLevels (orderbook : OrderBookData) (isBid : Bool) : List PriceLevel :=
  ((orderbook.items isBid).getD []).map OrderBookItem.level

theorem length_items {orderbook : OrderBookData} {isBid : Bool} {items : List OrderBookItem}
    (h : orderbook.items isBid = some items) : items.length = min (orderbook.levels isBid).length 7 := by
  rw [length_mapM h, List.length_take, Nat.min_comm]

theorem toNat_count (n : Nat) : (UInt8.ofNat (min n 7) &&& 0x07).toNat = min n 7 := by
  have hall : ∀ k : Fin 8, (UInt8.ofNat k &&& 0x07).toNat = k := by decide
  exact hall ⟨min n 7, Nat.lt_succ_of_le (Nat.min_le_right ..)⟩

/-- What the receiver reads from a packet of one side, whatever the numbers in it. -/
structure ReadsSide (orderbook : OrderBookData) (side : Bool) (data : List UInt8) : Prop where
  header_le         : headerSize ≤ data.length
  exchange          : (parsePacketHeader data).exchange = PacketHeader.nameField orderbook.exchange
  symbol            : (parsePacketHeader data).symbol = PacketHeader.nameField orderbook.symbol
  exchangeTimestamp : orderbook.timestampUnit.toNanoseconds orderbook.timestamp
    = some (parsePacketHeader data).exchangeTimestamp
  isLast            : (parsePacketHeader data).isLast = true
  packetType        : (parsePacketHeader data).packetType = 2
  isBid             : (parsePacketHeader data).isBid = side
  itemCount         : (parsePacketHeader data).itemCount = min (orderbook.levels side).length 7
  levels            : orderbook.levels side ≠ [] →
    parseOrderbookLevels data (parsePacketHeader data) = some (orderbook.wireLevels side)

theorem toNanoseconds_lt {timestampUnit : TimestampUnit} {timestamp nanos : Nat}
    (h : timestampUnit.toNanoseconds timestamp = some nanos) : nanos < 2 ^ 64 := by
  unfold TimestampUnit.toNanoseconds at h
  split at h
  next hlt =>
    obtain rfl := Option.some.inj h
    exact hlt
  next => cases h

/-- **Every packet of a side is read back**: header, flags, names and items. -/
theorem readsSide_fromOrderbook {orderbook : OrderBookData} {side : Bool} {now : Nat} {packet : BinaryUdpPacket}
    (h : BinaryUdpPacket.fromOrderbook orderbook side now = some packet) :
    parsePacketHeader packet.toBytes = packet.header ∧ ReadsSide orderbook side packet.toBytes := by
  unfold BinaryUdpPacket.fromOrderbook at h
  simp only [Option.bind_eq_bind, Option.bind_eq_some_iff] at h
  obtain ⟨nanos, hnanos, items, hitems, hpacket⟩ := h
  obtain rfl := Option.some.inj hpacket
  -- the header before its flags are set
  generalize hbase : (({ PacketHeader.new with
      exchangeTimestamp := nanos, localTimestamp := now % 2 ^ 64 }.setSymbol orderbook.symbol).setExchange
        orderbook.exchange) = base
  obtain ⟨hlast, htype, hbid, hcount⟩ :=
    flags_setFlagsAndCount base true 2 side (UInt8.ofNat (min (orderbook.levels side).length 7))
  have hwf : WellFormed (base.setFlagsAndCount true 2 side (UInt8.ofNat (min (orderbook.levels side).length 7))) := by
    subst hbase
    exact ⟨toNanoseconds_lt hnanos, Nat.mod_lt _ (by decide), length_nameField _, length_nameField _⟩
  have hheader := @parsePacketHeader_toBytes
    ⟨base.setFlagsAndCount true 2 side (UInt8.ofNat (min (orderbook.levels side).length 7)),
      items.flatMap fun item => item.toNetworkOrder.memory⟩ hwf
  rw [toNat_count] at hcount
  have hlength := length_memory hwf
  refine ⟨hheader, ?_, ?_, ?_, ?_, ?_, ?_, ?_, ?_, ?_⟩
  · rw [toBytes_eq, List.length_append, hlength]
    exact Nat.le_add_right ..
  all_goals rw [hheader]
  · subst hbase
    rfl
  · subst hbase
    rfl
  · subst hbase
    exact hnanos
  · exact hlast
  · exact htype
  · exact hbid
  · exact hcount
  · intro hne
    have hitemCount : min (orderbook.levels side).length 7 = items.length := (length_items hitems).symm
    have hpos : items.length ≠ 0 := by
      rw [← hitemCount]
      have := List.length_pos_iff.mpr hne
      omega
    rw [toBytes_eq, parseOrderbookLevels_items hlength (hcount.trans hitemCount) hpos]
    unfold OrderBookData.wireLevels
    rw [hitems]
    rfl

/-! ## Trade packets -/

theorem memory_trade (item : TradeItem) :
    item.toNetworkOrder.memory = toBe 8 item.tradeId ++ (toBe 8 (i64AsU64 item.price)
      ++ (toBe 8 (i64AsU64 item.quantity) ++ ([item.side] ++ List.replicate 7 0))) := by
  unfold TradeItem.toNetworkOrder TradeItem.memory
  simp only [toLe_i64ToBe, toLe_u64ToBe, List.append_assoc]

theorem parseTradePacket_item {front : List UInt8} {header : PacketHeader} {item : TradeItem}
    (hfront : front.length = headerSize) (hcount : header.itemCount ≠ 0) (hid : item.tradeId < 2 ^ 64) :
    parseTradePacket (front ++ item.toNetworkOrder.memory) header
      = some { item with price := wrapI64 item.price, quantity := wrapI64 item.quantity } := by
  have hA : (toBe 8 item.tradeId).length = 8 := length_toBe ..
  have hB : (toBe 8 (i64AsU64 item.price)).length = 8 := length_toBe ..
  have hC : (toBe 8 (i64AsU64 item.quantity)).length = 8 := length_toBe ..
  have hlength : (front ++ item.toNetworkOrder.memory).length = headerSize + 32 := by
    rw [memory_trade]
    simp [hfront]
  have hside : (front ++ item.toNetworkOrder.memory).getD (headerSize + 24) 0 = item.side := by
    rw [memory_trade]
    simp [hfront]
  unfold parseTradePacket
  rw [hlength, hside, if_neg (by omega), memory_trade, field_skip (Nat.le_of_eq hfront), hfront, Nat.sub_self,
    field_here hA, field_skip (by omega), hfront, field_skip (by omega), hA, Nat.add_sub_cancel_left, Nat.sub_self,
    field_here hB, field_skip (by omega), hfront, field_skip (by omega), hA, Nat.add_sub_cancel_left,
    field_skip (by omega), hB, Nat.sub_self, field_here hC, ofBe_toBe hid, u64AsI64_ofBe, u64AsI64_ofBe]

/-- What the receiver reads from a packet of a trade, whatever the numbers in it. -/
structure ReadsTrade (trade : TradeData) (item : TradeItem) (data : List UInt8) : Prop where
  header_le         : headerSize ≤ data.length
  exchange          : (parsePacketHeader data).exchange = PacketHeader.nameField trade.exchange
  symbol            : (parsePacketHeader data).symbol = PacketHeader.nameField trade.symbol
  exchangeTimestamp : trade.timestampUnit.toNanoseconds trade.timestamp
    = some (parsePacketHeader data).exchangeTimestamp
  packetType        : (parsePacketHeader data).packetType = 1
  item              : parseTradePacket data (parsePacketHeader data)
    = some { item with price := wrapI64 item.price, quantity := wrapI64 item.quantity }

/-- **Every packet of a trade is read back**, too; the item in it is made of the trade's numbers. -/
theorem readsTrade_fromTrade {trade : TradeData} {now : Nat} {packet : BinaryUdpPacket}
    (h : BinaryUdpPacket.fromTrade trade now = some packet) :
    parsePacketHeader packet.toBytes = packet.header ∧
      ∃ item, TradeItem.newFromScaled 0 trade.price trade.quantity trade.pricePrecision trade.quantityPrecision
          (decide (0 < trade.quantity)) = some item ∧ ReadsTrade trade item packet.toBytes := by
  unfold BinaryUdpPacket.fromTrade at h
  simp only [Option.bind_eq_bind, Option.bind_eq_some_iff] at h
  obtain ⟨nanos, hnanos, item, hitem, hpacket⟩ := h
  obtain rfl := Option.some.inj hpacket
  -- the header before its flags are set
  generalize hbase : (({ PacketHeader.new with
      exchangeTimestamp := nanos, localTimestamp := now % 2 ^ 64 }.setSymbol trade.symbol).setExchange
        trade.exchange) = base
  obtain ⟨-, htype, -, hcount⟩ := flags_setFlagsAndCount base true 1 false 1
  have hwf : WellFormed (base.setFlagsAndCount true 1 false 1) := by
    subst hbase
    exact ⟨toNanoseconds_lt hnanos, Nat.mod_lt _ (by decide), length_nameField _, length_nameField _⟩
  have hheader := @parsePacketHeader_toBytes ⟨base.setFlagsAndCount true 1 false 1, item.toNetworkOrder.memory⟩ hwf
  have hlength := length_memory hwf
  have hid : item.tradeId < 2 ^ 64 := by
    unfold TradeItem.newFromScaled at hitem
    simp only [Option.bind_eq_bind, Option.bind_eq_some_iff] at hitem
    obtain ⟨price, -, quantity, -, hitem⟩ := hitem
    obtain rfl := Option.some.inj hitem
    exact Nat.two_pow_pos 64
  refine ⟨hheader, item, hitem, ?_, ?_, ?_, ?_, ?_, ?_⟩
  · rw [toBytes_eq, List.length_append, hlength]
    exact Nat.le_add_right ..
  all_goals rw [hheader]
  · subst hbase
    rfl
  · subst hbase
    rfl
  · subst hbase
    exact hnanos
  · exact htype
  · rw [toBytes_eq, parseTradePacket_item hlength (by rw [hcount]; decide) hid]

/-! ## Round trips -/

/-- No overflow: neither the timestamp in nanoseconds nor a number of this side that is sent. -/
structure OrderBookData.Scalable (orderbook : OrderBookData) (side : Bool) : Prop where
  timestamp  : orderbook.timestamp * orderbook.timestampUnit.nanosecondsPer < 2 ^ 64
  prices     : ∀ level ∈ (orderbook.levels side).take 7, Rescales level.1 orderbook.pricePrecision
  quantities : ∀ level ∈ (orderbook.levels side).take 7, Rescales level.2 orderbook.quantityPrecision

/-- What fits a packet of one side, names included. -/
structure OrderBookData.Encodable (orderbook : OrderBookData) (side : Bool) : Prop
    extends orderbook.Scalable side where
  exchange : FitsName orderbook.exchange
  symbol   : FitsName orderbook.symbol

structure TradeData.Encodable (trade : TradeData) : Prop where
  exchange  : FitsName trade.exchange
  symbol    : FitsName trade.symbol
  timestamp : trade.timestamp * trade.timestampUnit.nanosecondsPer < 2 ^ 64
  price     : Rescales trade.price trade.pricePrecision
  quantity  : Rescales trade.quantity trade.quantityPrecision

/-- The levels of one side in the units of the wire. -/
def OrderBookData.shownLevels (orderbook : OrderBookData) (side : Bool) : List PriceLevel :=
  (orderbook.levels side).map fun (price, quantity) =>
    ⟨unscale (atScale8 price orderbook.pricePrecision), unscale (atScale8 quantity orderbook.quantityPrecision)⟩

/-- These bytes are read as the first seven levels of this side of the book. -/
structure DecodesSide (orderbook : OrderBookData) (side : Bool) (data : List UInt8) : Prop where
  exchange          : parseString (parsePacketHeader data).exchange = orderbook.exchange
  symbol            : parseString (parsePacketHeader data).symbol = orderbook.symbol
  exchangeTimestamp : (parsePacketHeader data).exchangeTimestamp
    = orderbook.timestamp * orderbook.timestampUnit.nanosecondsPer
  packetType        : (parsePacketHeader data).packetType = 2
  isBid             : (parsePacketHeader data).isBid = side
  itemCount         : (parsePacketHeader data).itemCount = min 7 (orderbook.levels side).length
  levels            : parseOrderbookLevels data (parsePacketHeader data)
    = some ((orderbook.shownLevels side).take 7)

/-- These bytes are read as this trade. -/
structure DecodesTrade (trade : TradeData) (data : List UInt8) : Prop where
  exchange          : parseString (parsePacketHeader data).exchange = trade.exchange
  symbol            : parseString (parsePacketHeader data).symbol = trade.symbol
  exchangeTimestamp : (parsePacketHeader data).exchangeTimestamp
    = trade.timestamp * trade.timestampUnit.nanosecondsPer
  packetType        : (parsePacketHeader data).packetType = 1
  item              : parseTradePacket data (parsePacketHeader data) = some {
    tradeId  := 0
    price    := atScale8 trade.price trade.pricePrecision
    quantity := atScale8 trade.quantity trade.quantityPrecision
    side     := if 0 < trade.quantity then 1 else 0 }

theorem toNanoseconds_eq {timestampUnit : TimestampUnit} {timestamp : Nat}
    (h : timestamp * timestampUnit.nanosecondsPer < 2 ^ 64) :
    timestampUnit.toNanoseconds timestamp = some (timestamp * timestampUnit.nanosecondsPer) := if_pos h

theorem OrderBookData.Scalable.items {orderbook : OrderBookData} {side : Bool} (h : orderbook.Scalable side) :
    orderbook.items side = some (((orderbook.levels side).take 7).map fun (price, quantity) =>
      ⟨atScale8 price orderbook.pricePrecision, atScale8 quantity orderbook.quantityPrecision⟩) := by
  unfold OrderBookData.items
  refine mapM_eq_map fun (price, quantity) hlevel => ?_
  show OrderBookItem.newFromScaled price quantity orderbook.pricePrecision orderbook.quantityPrecision = _
  unfold OrderBookItem.newFromScaled
  rw [rescale_eq (h.prices _ hlevel), rescale_eq (h.quantities _ hlevel)]
  rfl

/-- Nothing of the first seven levels is lost. -/
theorem OrderBookData.Scalable.wireLevels {orderbook : OrderBookData} {side : Bool}
    (h : orderbook.Scalable side) : orderbook.wireLevels side = (orderbook.shownLevels side).take 7 := by
  unfold OrderBookData.wireLevels OrderBookData.shownLevels
  rw [h.items, Option.getD_some, List.map_map, ← List.map_take]
  apply List.map_congr_left
  intro level hlevel
  simp only [Function.comp_apply, OrderBookItem.level]
  rw [wrapI64_eq (h.prices level hlevel).result, wrapI64_eq (h.quantities level hlevel).result]

theorem OrderBookData.Scalable.fromOrderbook {orderbook : OrderBookData} {side : Bool}
    (h : orderbook.Scalable side) (now : Nat) :
    ∃ packet, BinaryUdpPacket.fromOrderbook orderbook side now = some packet := by
  unfold BinaryUdpPacket.fromOrderbook
  rw [toNanoseconds_eq h.timestamp, h.items]
  exact ⟨_, rfl⟩

theorem orderbook_roundTrip {orderbook : OrderBookData} {side : Bool} (h : orderbook.Encodable side)
    (hne : orderbook.levels side ≠ []) (now : Nat) :
    ∃ packet, BinaryUdpPacket.fromOrderbook orderbook side now = some packet ∧
      DecodesSide orderbook side packet.toBytes := by
  obtain ⟨packet, hpacket⟩ := h.fromOrderbook now
  obtain ⟨-, hreads⟩ := readsSide_fromOrderbook hpacket
  refine ⟨packet, hpacket, ?_, ?_, ?_, hreads.packetType, hreads.isBid, ?_, ?_⟩
  · rw [hreads.exchange, parseString_nameField h.exchange]
  · rw [hreads.symbol, parseString_nameField h.symbol]
  · have htimestamp := hreads.exchangeTimestamp
    rw [toNanoseconds_eq h.timestamp] at htimestamp
    exact (Option.some.inj htimestamp).symm
  · rw [hreads.itemCount, Nat.min_comm]
  · rw [hreads.levels hne, h.toScalable.wireLevels]

theorem trade_roundTrip {trade : TradeData} (h : trade.Encodable) (now : Nat) :
    ∃ packet, BinaryUdpPacket.fromTrade trade now = some packet ∧ DecodesTrade trade packet.toBytes := by
  have hitem : TradeItem.newFromScaled 0 trade.price trade.quantity trade.pricePrecision trade.quantityPrecision
      (decide (0 < trade.quantity)) = some {
        tradeId  := 0
        price    := atScale8 trade.price trade.pricePrecision
        quantity := atScale8 trade.quantity trade.quantityPrecision
        side     := if 0 < trade.quantity then 1 else 0 } := by
    rw [TradeItem.newFromScaled, rescale_eq h.price, rescale_eq h.quantity]
    simp
  obtain ⟨packet, hpacket⟩ : ∃ packet, BinaryUdpPacket.fromTrade trade now = some packet := by
    rw [BinaryUdpPacket.fromTrade, toNanoseconds_eq h.timestamp, hitem]
    exact ⟨_, rfl⟩
  obtain ⟨-, item, hitem', hreads⟩ := readsTrade_fromTrade hpacket
  obtain rfl := Option.some.inj (hitem.symm.trans hitem')
  refine ⟨packet, hpacket, ?_, ?_, ?_, hreads.packetType, ?_⟩
  · rw [hreads.exchange, parseString_nameField h.exchange]
  · rw [hreads.symbol, parseString_nameField h.symbol]
  · have htimestamp := hreads.exchangeTimestamp
    rw [toNanoseconds_eq h.timestamp] at htimestamp
    exact (Option.some.inj htimestamp).symm
  · rw [hreads.item, wrapI64_eq h.price.result, wrapI64_eq h.quantity.result]

/-- **Binary packet round trip.** What the feeder packs, the receiver unpacks: one side of a book with at least
    one level, and a trade. -/
theorem packet_roundTrip :
    (∀ (orderbook : OrderBookData) (side : Bool) (now : Nat), orderbook.Encodable side →
      orderbook.levels side ≠ [] → ∃ packet, BinaryUdpPacket.fromOrderbook orderbook side now = some packet ∧
        DecodesSide orderbook side packet.toBytes) ∧
    (∀ (trade : TradeData) (now : Nat), trade.Encodable →
      ∃ packet, BinaryUdpPacket.fromTrade trade now = some packet ∧ DecodesTrade trade packet.toBytes) :=
  ⟨fun _ _ now h hne => orderbook_roundTrip h hne now, fun _ now h => trade_roundTrip h now⟩

/-- A perpetual on Bybit: 120 bids in tenths, three asks. -/
def perpetual : OrderBookData where
  exchange          := "bybit"
  symbol            := "BTCUSDT"
  assetType         := "linear"
  bids              := (List.range 120).map fun i => (954321 - i, 25)
  asks              := [(954322, 7), (954330, 41), (954340, 3)]
  pricePrecision    := 1
  quantityPrecision := 3
  timestamp         := 1700000000123
  timestampUnit     := .milliseconds

/-- A trade quoted with more decimals than the wire has. -/
def fineTrade : TradeData where
  exchange          := "upbit"
  symbol            := "KRW-비트코인"
  assetType         := "spot"
  price             := -123456789012
  quantity          := 15
  pricePrecision    := 10
  quantityPrecision := 0
  timestamp         := 1700000000
  timestampUnit     := .seconds

/-- Both read back. -/
theorem perpetual_roundTrip :
    (∃ packet, BinaryUdpPacket.fromOrderbook perpetual true 1700000000124000000 = some packet ∧
      DecodesSide perpetual true packet.toBytes) ∧
    (∃ packet, BinaryUdpPacket.fromTrade fineTrade 1700000000124000000 = some packet ∧
      DecodesTrade fineTrade packet.toBytes) :=
  ⟨packet_roundTrip.1 perpetual true _
      ⟨⟨by decide +kernel, by decide +kernel, by decide +kernel⟩, by decide +kernel, by decide +kernel⟩
      (by decide +kernel),
    packet_roundTrip.2 fineTrade _
      ⟨by decide +kernel, by decide +kernel, by decide +kernel, by decide +kernel, by decide +kernel⟩⟩

/-! ## Names on the wire -/

/-- **Names of at most 19 bytes stay distinct.** Written into any headers, they are read back as they were, by
    the receiver and by the sender. -/
theorem names_stay_distinct :
    (∀ (header : PacketHeader) (symbol : String), FitsName symbol →
      parseString (header.setSymbol symbol).symbol = symbol ∧
      PacketHeader.parseName (header.setSymbol symbol).symbol = symbol) ∧
    (∀ (header header' : PacketHeader) (symbol symbol' : String), FitsName symbol → FitsName symbol' →
      symbol ≠ symbol' →
      parseString (header.setSymbol symbol).symbol ≠ parseString (header'.setSymbol symbol').symbol ∧
      PacketHeader.parseName (header.setSymbol symbol).symbol
        ≠ PacketHeader.parseName (header'.setSymbol symbol').symbol) := by
  have hread : ∀ (header : PacketHeader) (symbol : String), FitsName symbol →
      parseString (header.setSymbol symbol).symbol = symbol ∧
      PacketHeader.parseName (header.setSymbol symbol).symbol = symbol :=
    fun _ _ h => ⟨parseString_nameField h, parseString_nameField h⟩
  refine ⟨hread, fun header header' symbol symbol' h h' hne => ?_⟩
  obtain ⟨hstring, hname⟩ := hread header symbol h
  obtain ⟨hstring', hname'⟩ := hread header' symbol' h'
  rw [hstring, hstring', hname, hname']
  exact ⟨hne, hne⟩

/-- A call and a put of one expiry and strike: their names differ in the last character only. -/
def callName : String := "BTC_USDC-27DEC24-100000-C"
def putName : String := "BTC_USDC-27DEC24-100000-P"

/-- On the wire both are the same 19 bytes, and neither is read back. -/
theorem option_names_collide :
    callName ≠ putName ∧ '\x00' ∉ callName.toList ∧ '\x00' ∉ putName.toList ∧
    parseString (PacketHeader.new.setSymbol callName).symbol
      = parseString (PacketHeader.new.setSymbol putName).symbol ∧
    PacketHeader.parseName (PacketHeader.new.setSymbol callName).symbol
      = PacketHeader.parseName (PacketHeader.new.setSymbol putName).symbol ∧
    parseString (PacketHeader.new.setSymbol callName).symbol ≠ callName := by
  decide +kernel

/-- The spot and the perpetual name of a pair are read back apart. -/
theorem short_names_stay_distinct :
    (parseString (PacketHeader.new.setSymbol "BTC-USDT").symbol = "BTC-USDT" ∧
      PacketHeader.parseName (PacketHeader.new.setSymbol "BTC-USDT").symbol = "BTC-USDT") ∧
    parseString (PacketHeader.new.setSymbol "BTC-USDT").symbol
      ≠ parseString (PacketHeader.new.setSymbol "BTC-USDT-SWAP").symbol :=
  ⟨names_stay_distinct.1 PacketHeader.new "BTC-USDT" ⟨by decide +kernel, by decide +kernel⟩,
    (names_stay_distinct.2 PacketHeader.new PacketHeader.new "BTC-USDT" "BTC-USDT-SWAP"
      ⟨by decide +kernel, by decide +kernel⟩ ⟨by decide +kernel, by decide +kernel⟩ (by decide)).1⟩

end Sender
end TradingPlatform
