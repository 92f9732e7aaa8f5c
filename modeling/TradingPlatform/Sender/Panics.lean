import TradingPlatform.Sender.Profiles

/-!
# `Sender.Panics` — which packets are made in which build profile

`Sender.Packet` makes packets as the release build does, and there a number stops nothing but by a divisor of 0. The
development build checks every power, product and quotient on the way to 8 decimals as well. So here the packets are
made in either profile, and what it takes is said for each (`fromTrade_isSome_iff`, `fromOrderbook_isSome_iff`).
-/

namespace TradingPlatform
namespace Sender
namespace Profiles

open Rust Receiver

/-! ## Packets -/

/-- The items of one side, of its first seven levels. -/
def OrderBookData.items (profile : Profile) (orderbook : OrderBookData) (isBid : Bool) :
    Option (List OrderBookItem) :=
  ((orderbook.levels isBid).take 7).mapM fun (price, quantity) =>
    OrderBookItem.newFromScaled profile price quantity orderbook.pricePrecision orderbook.quantityPrecision

/-- `Sender.BinaryUdpPacket.fromTrade` in either profile. -/
def BinaryUdpPacket.fromTrade (profile : Profile) (trade : TradeData) (now : Nat) : Option BinaryUdpPacket := do
  let exchangeTimestamp ← trade.timestampUnit.toNanoseconds trade.timestamp
  let item ← TradeItem.newFromScaled profile 0 trade.price trade.quantity trade.pricePrecision
    trade.quantityPrecision (decide (0 < trade.quantity))
  return {
    header  := ({ PacketHeader.new with exchangeTimestamp, localTimestamp := now % 2 ^ 64 }.setSymbol
      trade.symbol).setExchange trade.exchange |>.setFlagsAndCount true 1 false 1
    payload := item.toNetworkOrder.memory }

/-- `Sender.BinaryUdpPacket.fromOrderbook` in either profile. -/
def BinaryUdpPacket.fromOrderbook (profile : Profile) (orderbook : OrderBookData) (isBid : Bool) (now : Nat) :
    Option BinaryUdpPacket := do
  let exchangeTimestamp ← orderbook.timestampUnit.toNanoseconds orderbook.timestamp
  let count := UInt8.ofNat (min (orderbook.levels isBid).length 7)
  let items ← OrderBookData.items profile orderbook isBid
  return {
    header  := ({ PacketHeader.new with exchangeTimestamp, localTimestamp := now % 2 ^ 64 }.setSymbol
      orderbook.symbol).setExchange orderbook.exchange |>.setFlagsAndCount true 2 isBid count
    payload := items.flatMap fun item => item.toNetworkOrder.memory }

theorem fromTrade_release (trade : TradeData) (now : Nat) :
    BinaryUdpPacket.fromTrade .release trade now = Sender.BinaryUdpPacket.fromTrade trade now := rfl

theorem fromOrderbook_release (orderbook : OrderBookData) (isBid : Bool) (now : Nat) :
    BinaryUdpPacket.fromOrderbook .release orderbook isBid now =
      Sender.BinaryUdpPacket.fromOrderbook orderbook isBid now := rfl

/-! ## Numbers -/

/-- Rescaling this number does not panic. In the development build the power of ten and the result have to be in
    range, and with 8 decimals there is nothing to compute. -/
def Rescalable : Profile → Int → Nat → Prop
  | .dev, n, precision     => precision = 8 ∨ precision ≤ 26 ∧ InI64 (atEight n precision)
  | .release, _, precision => Sender.Rescalable precision

instance : (profile : Profile) → (n : Int) → (precision : Nat) → Decidable (Rescalable profile n precision)
  | .dev, n, precision     => inferInstanceAs (Decidable (precision = 8 ∨ precision ≤ 26 ∧ InI64 (atEight n precision)))
  | .release, _, precision => inferInstanceAs (Decidable (Sender.Rescalable precision))

theorem dev_i64_isSome_iff (n : Int) : (Profile.dev.i64 n).isSome ↔ InI64 n := by
  by_cases h : InI64 n
  · rw [Profile.i64_eq h]
    exact iff_of_true rfl h
  · rw [Profile.dev_i64_of_not h]
    exact iff_of_false nofun h

theorem rescale_isSome_iff (profile : Profile) (n : Int) (precision : Nat) :
    (rescale profile n precision).isSome ↔ Rescalable profile n precision := by
  cases profile with
  | release => exact Sender.rescale_isSome_iff n precision
  | dev =>
      show (rescale .dev n precision).isSome ↔ precision = 8 ∨ precision ≤ 26 ∧ InI64 (atEight n precision)
      unfold rescale
      rcases Nat.lt_trichotomy precision 8 with hlt | rfl | hgt
      · have hnear : precision ≤ 26 := by omega
        rw [if_neg (Nat.ne_of_lt hlt), if_pos hlt, Profile.i64_eq (inI64_pow_up precision),
          or_iff_right (Nat.ne_of_lt hlt), and_iff_right hnear, atEight_up n (Nat.le_of_lt hlt)]
        exact dev_i64_isSome_iff _
      · exact iff_of_true rfl (.inl rfl)
      · rw [if_neg (Nat.ne_of_gt hgt), if_neg (Nat.not_lt.mpr (Nat.le_of_lt hgt)),
          or_iff_right (Nat.ne_of_gt hgt)]
        by_cases hnear : precision ≤ 26
        · have hne : (10 : Int) ^ (precision - 8) ≠ 0 := by positivity
          rw [Profile.i64_eq ((inI64_pow_iff _).mpr (by omega)), and_iff_right hnear,
            atEight_down n (Nat.le_of_lt hgt)]
          show (if _ then _ else _ : Option Int).isSome ↔ _
          rw [if_neg hne]
          exact dev_i64_isSome_iff _
        · -- the power of ten itself overflows
          rw [Profile.dev_i64_of_not fun hrange => hnear (by have := (inI64_pow_iff _).mp hrange; omega)]
          exact iff_of_false nofun fun h => hnear h.1

/-- A price and a quantity are rescaled one after the other. -/
theorem rescale_both_isSome_iff {γ : Type} (profile : Profile) (price quantity : Int)
    (pricePrecision qtyPrecision : Nat) (item : Int → Int → γ) :
    (rescale profile price pricePrecision >>= fun p => rescale profile quantity qtyPrecision >>= fun q =>
        pure (item p q)).isSome ↔
      Rescalable profile price pricePrecision ∧ Rescalable profile quantity qtyPrecision := by
  rw [← rescale_isSome_iff, ← rescale_isSome_iff]
  cases rescale profile price pricePrecision with
  | none => exact iff_of_false nofun fun h => nomatch h.1
  | some p =>
      cases rescale profile quantity qtyPrecision with
      | none => exact iff_of_false nofun fun h => nomatch h.2
      | some q => exact iff_of_true rfl ⟨rfl, rfl⟩

/-! ## Packets that are made -/

theorem tradeItem_isSome_iff (profile : Profile) (tradeId : Nat) (price quantity : Int)
    (pricePrecision qtyPrecision : Nat) (isBuy : Bool) :
    (TradeItem.newFromScaled profile tradeId price quantity pricePrecision qtyPrecision isBuy).isSome ↔
      Rescalable profile price pricePrecision ∧ Rescalable profile quantity qtyPrecision :=
  rescale_both_isSome_iff profile price quantity pricePrecision qtyPrecision fun p q =>
    (⟨tradeId, p, q, if isBuy then 1 else 0⟩ : TradeItem)

theorem fromTrade_isSome_iff (profile : Profile) (trade : TradeData) (now : Nat) :
    (BinaryUdpPacket.fromTrade profile trade now).isSome ↔
      trade.timestamp * trade.timestampUnit.nanosecondsPer < 2 ^ 64 ∧
        Rescalable profile trade.price trade.pricePrecision ∧
        Rescalable profile trade.quantity trade.quantityPrecision := by
  unfold BinaryUdpPacket.fromTrade
  rw [← toNanoseconds_isSome_iff, ← tradeItem_isSome_iff profile 0 _ _ _ _ (decide (0 < trade.quantity))]
  cases trade.timestampUnit.toNanoseconds trade.timestamp with
  | none => exact iff_of_false nofun fun h => nomatch h.1
  | some exchangeTimestamp =>
      cases TradeItem.newFromScaled profile 0 trade.price trade.quantity trade.pricePrecision
          trade.quantityPrecision (decide (0 < trade.quantity)) with
      | none => exact iff_of_false nofun fun h => nomatch h.2
      | some item => exact iff_of_true rfl ⟨rfl, rfl⟩

/-- The numbers of one side's first seven levels are rescaled. -/
theorem items_isSome_iff (profile : Profile) (orderbook : OrderBookData) (isBid : Bool) :
    (OrderBookData.items profile orderbook isBid).isSome ↔
      ∀ level ∈ (orderbook.levels isBid).take 7, Rescalable profile level.1 orderbook.pricePrecision ∧
        Rescalable profile level.2 orderbook.quantityPrecision := by
  unfold OrderBookData.items
  rw [mapM_isSome_iff]
  exact forall₂_congr fun level _ => rescale_both_isSome_iff profile level.1 level.2 _ _ OrderBookItem.mk

theorem fromOrderbook_isSome_iff (profile : Profile) (orderbook : OrderBookData) (isBid : Bool) (now : Nat) :
    (BinaryUdpPacket.fromOrderbook profile orderbook isBid now).isSome ↔
      orderbook.timestamp * orderbook.timestampUnit.nanosecondsPer < 2 ^ 64 ∧
        ∀ level ∈ (orderbook.levels isBid).take 7, Rescalable profile level.1 orderbook.pricePrecision ∧
          Rescalable profile level.2 orderbook.quantityPrecision := by
  unfold BinaryUdpPacket.fromOrderbook
  rw [← toNanoseconds_isSome_iff, ← items_isSome_iff]
  cases orderbook.timestampUnit.toNanoseconds orderbook.timestamp with
  | none => exact iff_of_false nofun fun h => nomatch h.1
  | some exchangeTimestamp =>
      cases OrderBookData.items profile orderbook isBid with
      | none => exact iff_of_false nofun fun h => nomatch h.2
      | some items => exact iff_of_true rfl ⟨rfl, rfl⟩

end Profiles
end Sender
end TradingPlatform
