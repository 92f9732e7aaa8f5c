import TradingPlatform.Udp.Receiver

/-!
# `Udp.Total` — packets that stop the receiver

Only the length of the header is checked. The length of the symbol, the counts of the levels and the length of a trade
id are believed, and a packet that ends before what they announce panics. So does the successor of the largest
sequence number. What a packet must have is computed from these fields alone (`processPacket_total_iff`).
-/

namespace TradingPlatform
namespace Udp
namespace UdpReceiver

open Market Rust Wire

/-! ## Fields -/

/-- The number in `n` bytes from `offset` on. -/
def fieldAt (data : List UInt8) (offset n : Nat) : Nat := ofLe ((data.drop offset).take n)

theorem fieldAt_drop (data : List UInt8) (k offset n : Nat) :
    fieldAt (data.drop k) offset n = fieldAt data (k + offset) n := by
  unfold fieldAt
  rw [List.drop_drop]

theorem fieldAt_lt (data : List UInt8) (offset n : Nat) : fieldAt data offset n < 256 ^ n := by
  have hlt := ofLe_lt ((data.drop offset).take n)
  exact Nat.lt_of_lt_of_le hlt (Nat.pow_le_pow_right (by decide) (List.length_take_le ..))

/-- A number of `n` bytes. -/
theorem number_ok {α : Type} (g : List UInt8 → α) {n : Nat} {data : List UInt8} (h : n ≤ data.length) :
    (g <$> readBytes n) data = .ok (g (data.take n), data.drop n) :=
  map_ok (show take _ n data = _ from if_pos h) g

theorem readU8_ok {data : List UInt8} (h : 1 ≤ data.length) :
    ∃ x, readU8 data = .ok (x, data.drop 1) ∧ x.toNat = fieldAt data 0 1 :=
  ⟨_, number_ok _ h, UInt8.toNat_ofNat_of_lt' (fieldAt_lt data 0 1)⟩

theorem readU16_ok {data : List UInt8} (h : 2 ≤ data.length) :
    ∃ x, readU16 data = .ok (x, data.drop 2) ∧ x.toNat = fieldAt data 0 2 :=
  ⟨_, number_ok _ h, UInt16.toNat_ofNat_of_lt' (fieldAt_lt data 0 2)⟩

theorem readU32_ok {data : List UInt8} (h : 4 ≤ data.length) :
    ∃ x, readU32 data = .ok (x, data.drop 4) ∧ x.toNat = fieldAt data 0 4 :=
  ⟨_, number_ok _ h, UInt32.toNat_ofNat_of_lt' (fieldAt_lt data 0 4)⟩

theorem readU64_ok {data : List UInt8} (h : 8 ≤ data.length) :
    ∃ x, readU64 data = .ok (x, data.drop 8) ∧ x.toNat = fieldAt data 0 8 :=
  ⟨_, number_ok _ h, UInt64.toNat_ofNat_of_lt' (fieldAt_lt data 0 8)⟩

theorem needs_readU8 (data : List UInt8) : Needs .panicked readU8 data 1 := (needs_take _ 1 data).map _

theorem needs_readU16 (data : List UInt8) : Needs .panicked readU16 data 2 := (needs_take _ 2 data).map _

theorem needs_readU64 (data : List UInt8) : Needs .panicked readU64 data 8 := (needs_take _ 8 data).map _

theorem readU8_value {data rest : List UInt8} {x : UInt8} (h : readU8 data = .ok (x, rest)) :
    x.toNat = fieldAt data 0 1 := by
  obtain ⟨y, hy, hvalue⟩ := readU8_ok ((needs_readU8 data).length_le h)
  rw [hy] at h
  rw [← (Prod.mk.inj (Except.ok.inj h)).1]
  exact hvalue

theorem readU16_value {data rest : List UInt8} {x : UInt16} (h : readU16 data = .ok (x, rest)) :
    x.toNat = fieldAt data 0 2 := by
  obtain ⟨y, hy, hvalue⟩ := readU16_ok ((needs_readU16 data).length_le h)
  rw [hy] at h
  rw [← (Prod.mk.inj (Except.ok.inj h)).1]
  exact hvalue

/-- The header, from its fields. -/
theorem readHeader_ok {data : List UInt8} (h : headerSize ≤ data.length) :
    ∃ header, readHeader data = .ok (header, data.drop headerSize) ∧
      header.magic.toNat = fieldAt data 0 4 ∧ header.sequence.toNat = fieldAt data 4 8 ∧
      header.messageType.toNat = fieldAt data 21 1 ∧ header.symbolLen.toNat = fieldAt data 22 2 := by
  unfold headerSize at h
  have hlength : ∀ k n, k + n ≤ 24 → n ≤ (data.drop k).length := by
    intro k n hk
    rw [List.length_drop]
    omega
  obtain ⟨magic, hmagic, hmagic'⟩ := @readU32_ok data (by omega)
  obtain ⟨sequence, hsequence, hsequence'⟩ := readU64_ok (hlength 4 8 (by decide))
  obtain ⟨timestamp, htimestamp, -⟩ := readU64_ok (hlength 12 8 (by decide))
  obtain ⟨exchangeId, hexchangeId, -⟩ := readU8_ok (hlength 20 1 (by decide))
  obtain ⟨messageType, htype, htype'⟩ := readU8_ok (hlength 21 1 (by decide))
  obtain ⟨symbolLen, hsymbol, hsymbol'⟩ := readU16_ok (hlength 22 2 (by decide))
  simp only [List.drop_drop, fieldAt_drop, Nat.add_zero, Nat.reduceAdd] at *
  refine ⟨{ magic, sequence, timestamp := timestamp.toInt64, exchangeId, messageType, symbolLen }, ?_, hmagic',
    hsequence', htype', hsymbol'⟩
  unfold readHeader
  rw [bind_ok hmagic, bind_ok hsequence, bind_ok htimestamp, bind_ok hexchangeId, bind_ok htype, bind_ok hsymbol]
  rfl

/-! ## What the payloads need -/

/-- A count and as many levels. -/
def levelsSize (data : List UInt8) : Nat := 2 + 16 * fieldAt data 0 2

/-- The flag, the bids, and the asks behind them. -/
def orderbookSize (payload : List UInt8) : Nat :=
  1 + (levelsSize (payload.drop 1) + levelsSize (payload.drop (1 + levelsSize (payload.drop 1))))

/-- Two numbers, two bytes, and a trade id as long as the second byte says. -/
def tradeSize (payload : List UInt8) : Nat := 18 + fieldAt payload 17 1

theorem needs_readLevel (data : List UInt8) : Needs .panicked readLevel data 16 :=
  (needs_readU64 data).bind fun _ _ => (needs_readU64 _).bind_pure _

theorem needs_readLevels (data : List UInt8) : Needs .panicked readLevels data (levelsSize data) := by
  refine (needs_readU16 data).bind fun count hcount => ?_
  rw [← readU16_value hcount]
  exact needs_many needs_readLevel count.toNat _

theorem needs_parseOrderbook (exchange : Exchange) (symbol : String) (timestamp : Int64) (payload : List UInt8) :
    Needs .panicked (parseOrderbook exchange symbol timestamp) payload (orderbookSize payload) := by
  refine (needs_readU8 payload).bind fun flag _ => ?_
  refine (needs_readLevels (payload.drop 1)).bind fun bids _ => ?_
  rw [List.drop_drop]
  exact (needs_readLevels _).bind_pure _

theorem readText_some {n : Nat} {data : List UInt8} {text : String} (h : n ≤ data.length)
    (htext : fromUtf8 (data.take n) = some text) : readText n data = .ok (text, data.drop n) := by
  have htake : readBytes n data = .ok (data.take n, data.drop n) := if_pos h
  unfold readText
  rw [bind_ok htake, htext]
  rfl

theorem readText_none {n : Nat} {data : List UInt8} (h : n ≤ data.length)
    (htext : fromUtf8 (data.take n) = none) : readText n data = .error .utf8 := by
  have htake : readBytes n data = .ok (data.take n, data.drop n) := if_pos h
  unfold readText
  rw [bind_ok htake, htext]
  rfl

theorem readText_panics_iff (n : Nat) (data : List UInt8) : readText n data = .error .panicked ↔ data.length < n := by
  rcases Nat.lt_or_ge data.length n with hshort | hlong
  · exact iff_of_true (bind_error ((needs_take _ n data).2 hshort)) hshort
  · refine iff_of_false ?_ (Nat.not_lt.mpr hlong)
    cases htext : fromUtf8 (data.take n) with
    | some text =>
        rw [readText_some hlong htext]
        exact nofun
    | none =>
        rw [readText_none hlong htext]
        exact nofun

/-- The trade id need not be valid UTF-8, which is an error and no panic. -/
theorem parseTrade_panics_iff (exchange : Exchange) (symbol : String) (timestamp : Int64) (payload : List UInt8) :
    parseTrade exchange symbol timestamp payload = .error .panicked ↔ payload.length < tradeSize payload := by
  have hsize : tradeSize payload = 8 + (8 + (1 + (1 + fieldAt payload 17 1))) := by
    unfold tradeSize
    omega
  rw [hsize]
  refine (needs_readU64 payload).bind_error_iff fun price _ => ?_
  refine (needs_readU64 _).bind_error_iff fun quantity _ => ?_
  refine (needs_readU8 _).bind_error_iff fun side _ => ?_
  refine (needs_readU8 _).bind_error_iff fun idLen hidLen => ?_
  simp only [List.drop_drop, Nat.reduceAdd] at hidLen ⊢
  have hread : idLen.toNat = fieldAt payload 17 1 := by
    have hvalue := readU8_value hidLen
    rw [fieldAt_drop] at hvalue
    exact hvalue
  rw [bind_pure_error_iff, readText_panics_iff, hread]

/-- What the header's message type reads of the payload; an unknown type reads nothing. -/
def messageSize (messageType : Nat) (payload : List UInt8) : Nat :=
  if messageType = 0 then orderbookSize payload
  else if messageType = 1 then tradeSize payload
  else 0

/-- The symbol is cut out first. If it is no text the payload is not read at all. -/
theorem readMessage_panics_iff (exchange : Exchange) (header : UdpPacketHeader) (data : List UInt8) :
    readMessage exchange header data = .error .panicked ↔
      data.length < header.symbolLen.toNat ∨
      (fromUtf8 (data.take header.symbolLen.toNat) ≠ none ∧
        (data.drop header.symbolLen.toNat).length <
          messageSize header.messageType.toNat (data.drop header.symbolLen.toNat)) := by
  obtain ⟨n, hn⟩ : ∃ n, header.symbolLen.toNat = n := ⟨_, rfl⟩
  unfold readMessage
  rw [hn]
  rcases Nat.lt_or_ge data.length n with hshort | hlong
  · exact iff_of_true (bind_error ((readText_panics_iff n data).mpr hshort)) (Or.inl hshort)
  · rw [or_iff_right (Nat.not_lt.mpr hlong)]
    cases htext : fromUtf8 (data.take n) with
    | none =>
        rw [bind_error (readText_none hlong htext)]
        exact iff_of_false nofun fun h => h.1 rfl
    | some symbol =>
        rw [bind_ok (readText_some hlong htext), and_iff_right nofun]
        unfold messageSize
        simp only [← UInt8.toNat_inj, UInt8.reduceToNat]
        split
        · rw [map_error_iff]
          exact (needs_parseOrderbook exchange symbol header.timestamp _).error_iff
        · split
          · rw [map_error_iff]
            exact parseTrade_panics_iff exchange symbol header.timestamp _
          · exact iff_of_false nofun (Nat.not_lt_zero _)

/-! ## Whole packets -/

/-- The packet has the bytes that its own fields announce, and the last number has a successor. -/
structure Whole (data : List UInt8) (lastSequence : UInt64) : Prop where
  sequence : fieldAt data 4 8 = 0 ∨ lastSequence.toNat + 1 < 2 ^ 64
  symbol   : headerSize + fieldAt data 22 2 ≤ data.length
  payload  : fromUtf8 ((data.drop headerSize).take (fieldAt data 22 2)) ≠ none →
    messageSize (fieldAt data 21 1) (data.drop (headerSize + fieldAt data 22 2)) ≤
      (data.drop (headerSize + fieldAt data 22 2)).length

/-- **What does not panic** is short, of another protocol, or whole. -/
theorem processPacket_total_iff (data : List UInt8) (exchange : Exchange) (lastSequence : UInt64) :
    (processPacket data exchange lastSequence).2 ≠ .error .panicked ↔
      (headerSize ≤ data.length → fieldAt data 0 4 = magicNumber.toNat → Whole data lastSequence) := by
  unfold processPacket
  rcases Nat.lt_or_ge data.length headerSize with hshort | hlong
  · rw [if_pos hshort]
    exact iff_of_true nofun fun hlong => absurd hlong (Nat.not_le.mpr hshort)
  obtain ⟨header, hheader, hmagic, hsequence, htype, hsymbol⟩ := readHeader_ok hlong
  rw [if_neg (Nat.not_lt.mpr hlong), hheader]
  dsimp only
  rw [forall_prop_of_true hlong, ← hmagic, UInt32.toNat_inj]
  by_cases hprotocol : header.magic = magicNumber
  · rw [if_neg (not_not.mpr hprotocol), forall_prop_of_true hprotocol]
    have hlast := lastSequence.toNat_lt
    by_cases hoverflow : 0 < header.sequence ∧ lastSequence.toNat + 1 = 2 ^ 64
    · rw [if_pos hoverflow]
      refine iff_of_false (fun h => h rfl) fun h => ?_
      have hpos : 0 < header.sequence.toNat := UInt64.lt_iff_toNat_lt.mp hoverflow.1
      have := h.sequence
      omega
    · rw [if_neg hoverflow]
      have hno : fieldAt data 4 8 = 0 ∨ lastSequence.toNat + 1 < 2 ^ 64 := by
        rw [UInt64.lt_iff_toNat_lt, hsequence] at hoverflow
        change ¬ (0 < fieldAt data 4 8 ∧ _) at hoverflow
        omega
      dsimp only
      rw [ne_eq, readMessage_panics_iff, hsymbol, htype, List.drop_drop, List.length_drop, not_or, not_and, not_lt,
        not_lt]
      constructor
      · rintro ⟨hlength, hpayload⟩
        exact ⟨hno, by omega, hpayload⟩
      · intro h
        have := h.symbol
        exact ⟨by omega, h.payload⟩
  · rw [if_pos hprotocol]
    exact iff_of_true nofun fun h => absurd h hprotocol

/-- A header that announces a symbol of three bytes, and nothing behind it. -/
def bareHeader : List UInt8 :=
  [0x50, 0x54, 0x46, 0x48] ++ toLe 8 7 ++ toLe 8 1700000000000000 ++ [0, 0] ++ toLe 2 3

/-- **Not every packet is survived**: the slice of a missing symbol panics, and so does the check of a whole packet
    behind the largest sequence number. -/
theorem not_processPacket_total :
    (processPacket bareHeader .binance 6).2 = .error .panicked ∧
      (processPacket (BinaryCodec.encodeOrderbook sampleUpdate 1) .okx 0xFFFFFFFFFFFFFFFF).2 = .error .panicked := by
  decide +kernel

end UdpReceiver
end Udp
end TradingPlatform
