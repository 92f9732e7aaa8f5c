import TradingPlatform.Sender.RoundTrip
import Mathlib.Data.List.DropRight

/-!
# `Sender.Enhanced` — the trade packet with its scales

Sixty-eight bytes: a type, two scales, two names of twenty bytes, three numbers and a side. `arrived` is what a packet
comes back as, and a packet whose names fit comes back as it was.
-/

namespace TradingPlatform
namespace Sender

open Rust Receiver

structure EnhancedTradePacket where
  exchange       : String
  symbol         : String
  timestamp      : UInt64
  /-- Number of decimals. -/
  priceScale     : UInt8
  quantityScale  : UInt8
  priceScaled    : Int64
  quantityScaled : Int64
  side           : String
  tradeId        : Option String
deriving DecidableEq

namespace EnhancedTradePacket

/-- `resize(20, 0)`: cut to 20 bytes, or padded with zeros. -/
def resizedName (name : String) : List UInt8 :=
  (utf8Bytes name).take 20 ++ List.replicate (20 - (utf8Bytes name).length) 0

/-- Create compact binary representation. The trade id is not written. -/
def toBinary (packet : EnhancedTradePacket) : List UInt8 :=
  [1] ++ ([packet.priceScale] ++ ([packet.quantityScale] ++ (resizedName packet.exchange
    ++ (resizedName packet.symbol ++ (toBe 8 packet.timestamp.toNat ++ (toBe 8 packet.priceScaled.toUInt64.toNat
    ++ (toBe 8 packet.quantityScaled.toUInt64.toNat ++ [if packet.side = "buy" then 1 else 0])))))))

/-- `trim_end_matches('\0')` -/
def trimEndNul (s : String) : String := String.ofList (s.toList.rdropWhile (· = '\x00'))

def readU64 (data : List UInt8) (offset : Nat) : UInt64 := UInt64.ofNat (ofBe (field data offset 8))

/-- Parse from binary representation. Behind the length check no index is out of range. -/
def fromBinary (data : List UInt8) : Except String EnhancedTradePacket :=
  if data.length < 68 then .error "Insufficient data"
  else if data.getD 0 0 ≠ 1 then .error "Not a trade packet"
  else .ok {
    exchange       := trimEndNul (fromUtf8Lossy (field data 3 20))
    symbol         := trimEndNul (fromUtf8Lossy (field data 23 20))
    timestamp      := readU64 data 43
    priceScale     := data.getD 1 0
    quantityScale  := data.getD 2 0
    priceScaled    := (readU64 data 51).toInt64
    quantityScaled := (readU64 data 59).toInt64
    side           := if data.getD 67 0 = 1 then "buy" else "sell"
    tradeId        := none }

/-! ## Names -/

/-- A name the field holds: at most 20 bytes, no NUL. -/
structure HeldName (name : String) : Prop where
  length_le : (utf8Bytes name).length ≤ 20
  noNul     : '\x00' ∉ name.toList

@[simp] theorem length_resizedName (name : String) : (resizedName name).length = 20 := by
  unfold resizedName
  simp only [List.length_append, List.length_take, List.length_replicate]
  omega

/-- Zero bytes are NUL characters. -/
theorem utf8Bytes_replicate (k : Nat) :
    utf8Bytes (String.ofList (List.replicate k '\x00')) = List.replicate k 0 := by
  have hnul : String.utf8EncodeChar '\x00' = [0] := rfl
  unfold utf8Bytes
  rw [String.toList_ofList, List.flatMap_replicate, hnul, List.flatten_replicate_singleton]

theorem rdropWhile_append_replicate {cs : List Char} (h : '\x00' ∉ cs) (k : Nat) :
    (cs ++ List.replicate k '\x00').rdropWhile (· = '\x00') = cs := by
  induction k with
  | zero =>
      rw [List.replicate_zero, List.append_nil, List.rdropWhile_eq_self_iff]
      intro hne hlast
      rw [← of_decide_eq_true hlast] at h
      exact h (List.getLast_mem hne)
  | succ k ih =>
      rw [List.replicate_succ', ← List.append_assoc, List.rdropWhile_concat, if_pos (decide_eq_true rfl)]
      exact ih

/-- **A name that is held is read back.** -/
theorem trimEndNul_resizedName {name : String} (h : HeldName name) :
    trimEndNul (fromUtf8Lossy (resizedName name)) = name := by
  unfold resizedName
  rw [List.take_of_length_le h.length_le, ← utf8Bytes_replicate, ← utf8Bytes_append, fromUtf8Lossy_utf8Bytes]
  unfold trimEndNul
  rw [String.toList_append, String.toList_ofList, rdropWhile_append_replicate h.noNul, String.ofList_toList]

/-! ## The whole packet -/

theorem length_toBinary (packet : EnhancedTradePacket) : packet.toBinary.length = 68 := by
  unfold toBinary
  simp only [List.length_append, List.length_singleton, length_resizedName, length_toBe]

/-- What a packet comes back as: the names as far as they were written, a side of two, and no trade id. -/
def arrived (packet : EnhancedTradePacket) : EnhancedTradePacket :=
  { packet with
    exchange := trimEndNul (fromUtf8Lossy (resizedName packet.exchange))
    symbol   := trimEndNul (fromUtf8Lossy (resizedName packet.symbol))
    side     := if packet.side = "buy" then "buy" else "sell"
    tradeId  := none }

/-- A number at its offset. -/
theorem readU64_of_field {data : List UInt8} {offset : Nat} {x : UInt64} (h : field data offset 8 = toBe 8 x.toNat) :
    readU64 data offset = x := by
  unfold readU64
  rw [h, ofBe_toBe x.toNat_lt, UInt64.ofNat_toNat]

/-- **Every packet is accepted**, and what arrives differs in the texts only. -/
theorem fromBinary_toBinary (packet : EnhancedTradePacket) : fromBinary packet.toBinary = .ok packet.arrived := by
  obtain ⟨exchange, symbol, timestamp, priceScale, quantityScale, priceScaled, quantityScaled, side, tradeId⟩ :=
    packet
  have hlength := length_toBinary ⟨exchange, symbol, timestamp, priceScale, quantityScale, priceScaled,
    quantityScaled, side, tradeId⟩
  unfold toBinary at hlength ⊢
  dsimp only at hlength ⊢
  generalize hsideByte : (if side = "buy" then 1 else 0 : UInt8) = sideByte at hlength ⊢
  generalize hdata : [1] ++ ([priceScale] ++ ([quantityScale] ++ (resizedName exchange ++ (resizedName symbol
    ++ (toBe 8 timestamp.toNat ++ (toBe 8 priceScaled.toUInt64.toNat ++ (toBe 8 quantityScaled.toUInt64.toNat
    ++ [sideByte]))))))) = data at hlength ⊢
  have htype : data.getD 0 0 = 1 := by
    rw [← hdata]
    rfl
  have hpriceScale : data.getD 1 0 = priceScale := by
    rw [← hdata]
    rfl
  have hquantityScale : data.getD 2 0 = quantityScale := by
    rw [← hdata]
    rfl
  -- every part is passed over until the field is the next one
  have hexchange : field data 3 20 = resizedName exchange := by
    rw [← hdata, field_skip (by simp), field_skip (by simp), field_skip (by simp)]
    exact field_here (length_resizedName exchange)
  have hsymbol : field data 23 20 = resizedName symbol := by
    rw [← hdata, field_skip (by simp), field_skip (by simp), field_skip (by simp), field_skip (by simp)]
    simp only [List.length_singleton, length_resizedName]
    exact field_here (length_resizedName symbol)
  have htimestamp : field data 43 8 = toBe 8 timestamp.toNat := by
    rw [← hdata, field_skip (by simp), field_skip (by simp), field_skip (by simp), field_skip (by simp),
      field_skip (by simp)]
    simp only [List.length_singleton, length_resizedName]
    exact field_here (length_toBe ..)
  have hprice : field data 51 8 = toBe 8 priceScaled.toUInt64.toNat := by
    rw [← hdata, field_skip (by simp), field_skip (by simp), field_skip (by simp), field_skip (by simp),
      field_skip (by simp), field_skip (by simp)]
    simp only [List.length_singleton, length_resizedName, length_toBe]
    exact field_here (length_toBe ..)
  have hquantity : field data 59 8 = toBe 8 quantityScaled.toUInt64.toNat := by
    rw [← hdata, field_skip (by simp), field_skip (by simp), field_skip (by simp), field_skip (by simp),
      field_skip (by simp), field_skip (by simp), field_skip (by simp)]
    simp only [List.length_singleton, length_resizedName, length_toBe]
    exact field_here (length_toBe ..)
  have hside : data.getD 67 0 = sideByte := by
    rw [← hdata]
    simp
  have hbuy : (if sideByte = 1 then "buy" else "sell") = if side = "buy" then "buy" else "sell" := by
    rw [← hsideByte]
    split <;> rfl
  unfold fromBinary arrived
  rw [if_neg (by omega), if_neg (not_not.mpr htype), hexchange, hsymbol, readU64_of_field htimestamp,
    readU64_of_field hprice, readU64_of_field hquantity, hpriceScale, hquantityScale, hside, hbuy]
  rfl

/-- What the layout has room for. -/
structure Carried (packet : EnhancedTradePacket) : Prop where
  exchange : HeldName packet.exchange
  symbol   : HeldName packet.symbol
  side     : packet.side = "buy" ∨ packet.side = "sell"
  tradeId  : packet.tradeId = none

theorem arrived_eq {packet : EnhancedTradePacket} (h : Carried packet) : packet.arrived = packet := by
  have hside : (if packet.side = "buy" then "buy" else "sell") = packet.side := by
    rcases h.side with hbuy | hsell
    · rw [if_pos hbuy, hbuy]
    · rw [hsell]
      decide
  unfold arrived
  rw [trimEndNul_resizedName h.exchange, trimEndNul_resizedName h.symbol, hside, ← h.tradeId]

/-- **The round trip.** A packet takes 68 bytes, is accepted, and keeps its numbers; it is the same packet if the
    layout has room for it. -/
theorem binary_round_trip (packet : EnhancedTradePacket) :
    packet.toBinary.length = 68 ∧
    (∃ decoded, fromBinary packet.toBinary = .ok decoded ∧ decoded.timestamp = packet.timestamp ∧
      decoded.priceScale = packet.priceScale ∧ decoded.quantityScale = packet.quantityScale ∧
      decoded.priceScaled = packet.priceScaled ∧ decoded.quantityScaled = packet.quantityScaled) ∧
    (Carried packet → fromBinary packet.toBinary = .ok packet) := by
  refine ⟨length_toBinary packet, ⟨packet.arrived, fromBinary_toBinary packet, ?_⟩, ?_⟩
  · unfold arrived
    exact ⟨rfl, rfl, rfl, rfl, rfl⟩
  · intro h
    rw [fromBinary_toBinary, arrived_eq h]

/-- The largest and the smallest numbers, and a symbol that fills its field. -/
def samplePacket : EnhancedTradePacket where
  exchange       := "Binance"
  symbol         := "PERP-BTC-USDT-250926"
  timestamp      := 0xFFFFFFFFFFFFFFFF
  priceScale     := 2
  quantityScale  := 8
  priceScaled    := Int64.minValue
  quantityScaled := -1
  side           := "sell"
  tradeId        := none

theorem carried_samplePacket : Carried samplePacket where
  exchange := ⟨by decide +kernel, by decide +kernel⟩
  symbol   := ⟨by decide +kernel, by decide +kernel⟩
  side     := Or.inr rfl
  tradeId  := rfl

theorem binary_round_trip_samplePacket : fromBinary samplePacket.toBinary = .ok samplePacket :=
  (binary_round_trip samplePacket).2.2 carried_samplePacket

end EnhancedTradePacket
end Sender
end TradingPlatform
