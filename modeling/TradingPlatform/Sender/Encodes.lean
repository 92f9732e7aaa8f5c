import TradingPlatform.Sender.RoundTrip

/-!
# `Sender.Encodes` — which trades and books are encoded without a panic

What panics is the timestamp, if it does not fit nanoseconds, and the division by a power of ten that wraps to
zero. Neither looks at a price or a quantity (`fromTrade_isSome_iff`, `fromOrderbook_isSome_iff`).
-/

namespace TradingPlatform
namespace Sender

open Receiver

/-- Numbers of this precision have a divisor, if they need one. -/
def Rescalable (precision : Nat) : Prop := precision ≤ 8 ∨ wrapI64 (10 ^ (precision - 8)) ≠ 0

instance (precision : Nat) : Decidable (Rescalable precision) := inferInstanceAs (Decidable (_ ∨ _))

theorem rescale_isSome_iff (n : Int) (precision : Nat) : (rescale n precision).isSome ↔ Rescalable precision := by
  unfold rescale Rescalable
  by_cases heq : precision = 8
  · rw [if_pos heq]
    exact iff_of_true rfl (.inl (Nat.le_of_eq heq))
  rw [if_neg heq]
  by_cases hlt : precision < 8
  · rw [if_pos hlt]
    exact iff_of_true rfl (.inl (Nat.le_of_lt hlt))
  rw [if_neg hlt]
  by_cases hzero : wrapI64 (10 ^ (precision - 8)) = 0
  · rw [if_pos hzero]
    exact iff_of_false Bool.false_ne_true (by omega)
  · rw [if_neg hzero]
    exact iff_of_true rfl (.inr hzero)

theorem toNanoseconds_isSome_iff (timestampUnit : TimestampUnit) (timestamp : Nat) :
    (timestampUnit.toNanoseconds timestamp).isSome ↔ timestamp * timestampUnit.nanosecondsPer < 2 ^ 64 := by
  unfold TimestampUnit.toNanoseconds
  split
  next h => exact iff_of_true rfl h
  next h => exact iff_of_false Bool.false_ne_true h

theorem bind_isSome_iff {α β : Type} (x : Option α) (f : α → Option β) :
    (x >>= f).isSome ↔ ∃ a, x = some a ∧ (f a).isSome := by
  cases x with
  | none => exact iff_of_false Bool.false_ne_true fun ⟨a, ha, _⟩ => nomatch ha
  | some a => exact ⟨fun h => ⟨a, rfl, h⟩, fun ⟨a', ha', h⟩ => (Option.some.inj ha') ▸ h⟩

/-- A price and a quantity are rescaled when both precisions allow it. -/
theorem rescale_both_isSome_iff {γ : Type} (price quantity : Int) (pricePrecision qtyPrecision : Nat)
    (item : Int → Int → γ) :
    (rescale price pricePrecision >>= fun p => rescale quantity qtyPrecision >>= fun q => pure (item p q)).isSome ↔
      Rescalable pricePrecision ∧ Rescalable qtyPrecision := by
  simp only [bind_isSome_iff]
  constructor
  · rintro ⟨p, hp, q, hq, -⟩
    exact ⟨(rescale_isSome_iff ..).mp (Option.isSome_of_eq_some hp),
      (rescale_isSome_iff ..).mp (Option.isSome_of_eq_some hq)⟩
  · intro ⟨hprice, hquantity⟩
    obtain ⟨p, hp⟩ := Option.isSome_iff_exists.mp ((rescale_isSome_iff price _).mpr hprice)
    obtain ⟨q, hq⟩ := Option.isSome_iff_exists.mp ((rescale_isSome_iff quantity _).mpr hquantity)
    exact ⟨p, hp, q, hq, rfl⟩

/-! ## Trades -/

structure TradeData.Encodes (trade : TradeData) : Prop where
  timestamp : trade.timestamp * trade.timestampUnit.nanosecondsPer < 2 ^ 64
  price     : Rescalable trade.pricePrecision
  quantity  : Rescalable trade.quantityPrecision

instance (trade : TradeData) : Decidable trade.Encodes :=
  decidable_of_iff (trade.timestamp * trade.timestampUnit.nanosecondsPer < 2 ^ 64 ∧
      Rescalable trade.pricePrecision ∧ Rescalable trade.quantityPrecision)
    ⟨fun ⟨h₁, h₂, h₃⟩ => ⟨h₁, h₂, h₃⟩, fun ⟨h₁, h₂, h₃⟩ => ⟨h₁, h₂, h₃⟩⟩

theorem tradeItem_isSome_iff (tradeId : Nat) (price quantity : Int) (pricePrecision qtyPrecision : Nat) (isBuy : Bool) :
    (TradeItem.newFromScaled tradeId price quantity pricePrecision qtyPrecision isBuy).isSome ↔
      Rescalable pricePrecision ∧ Rescalable qtyPrecision := by
  unfold TradeItem.newFromScaled
  exact rescale_both_isSome_iff ..

theorem fromTrade_isSome_iff (trade : TradeData) (now : Nat) :
    (BinaryUdpPacket.fromTrade trade now).isSome ↔ trade.Encodes := by
  unfold BinaryUdpPacket.fromTrade
  simp only [bind_isSome_iff]
  constructor
  · rintro ⟨timestamp, htimestamp, item, hitem, -⟩
    obtain ⟨hprice, hquantity⟩ := (tradeItem_isSome_iff ..).mp (Option.isSome_of_eq_some hitem)
    exact ⟨(toNanoseconds_isSome_iff ..).mp (Option.isSome_of_eq_some htimestamp), hprice, hquantity⟩
  · intro h
    obtain ⟨item, hitem⟩ := Option.isSome_iff_exists.mp ((tradeItem_isSome_iff 0 trade.price trade.quantity _ _
      (decide (0 < trade.quantity))).mpr ⟨h.price, h.quantity⟩)
    exact ⟨_, toNanoseconds_eq h.timestamp, item, hitem, rfl⟩

/-! ## Books -/

/-- One side of a book; without levels there is nothing to rescale. -/
structure OrderBookData.Encodes (orderbook : OrderBookData) (isBid : Bool) : Prop where
  timestamp : orderbook.timestamp * orderbook.timestampUnit.nanosecondsPer < 2 ^ 64
  levels    : orderbook.levels isBid ≠ [] →
    Rescalable orderbook.pricePrecision ∧ Rescalable orderbook.quantityPrecision

theorem newFromScaled_isSome_iff (price quantity : Int) (pricePrecision qtyPrecision : Nat) :
    (OrderBookItem.newFromScaled price quantity pricePrecision qtyPrecision).isSome ↔
      Rescalable pricePrecision ∧ Rescalable qtyPrecision := by
  unfold OrderBookItem.newFromScaled
  exact rescale_both_isSome_iff ..

/-- A list is mapped when every element is. -/
theorem mapM_isSome_iff {α β : Type} (f : α → Option β) (xs : List α) :
    (xs.mapM f).isSome ↔ ∀ x ∈ xs, (f x).isSome := by
  induction xs with
  | nil => exact iff_of_true rfl nofun
  | cons x xs ih =>
      rw [List.mapM_cons, List.forall_mem_cons, ← ih]
      simp only [bind_isSome_iff, Option.isSome_iff_exists (x := f x), Option.isSome_iff_exists (x := xs.mapM f)]
      constructor
      · rintro ⟨y, hy, ys, hys, -⟩
        exact ⟨⟨y, hy⟩, ys, hys⟩
      · rintro ⟨⟨y, hy⟩, ys, hys⟩
        exact ⟨y, hy, ys, hys, rfl⟩

theorem items_isSome_iff (orderbook : OrderBookData) (isBid : Bool) :
    (orderbook.items isBid).isSome ↔ (orderbook.levels isBid ≠ [] →
      Rescalable orderbook.pricePrecision ∧ Rescalable orderbook.quantityPrecision) := by
  unfold OrderBookData.items
  rw [mapM_isSome_iff]
  simp only [newFromScaled_isSome_iff]
  cases orderbook.levels isBid with
  | nil => exact iff_of_true nofun fun hne => absurd rfl hne
  | cons level levels =>
      refine ⟨fun h _ => h level List.mem_cons_self, fun h _ _ => h (List.cons_ne_nil _ _)⟩

theorem fromOrderbook_isSome_iff (orderbook : OrderBookData) (isBid : Bool) (now : Nat) :
    (BinaryUdpPacket.fromOrderbook orderbook isBid now).isSome ↔ orderbook.Encodes isBid := by
  unfold BinaryUdpPacket.fromOrderbook
  simp only [bind_isSome_iff]
  constructor
  · rintro ⟨timestamp, htimestamp, items, hitems, -⟩
    exact ⟨(toNanoseconds_isSome_iff ..).mp (Option.isSome_of_eq_some htimestamp),
      (items_isSome_iff ..).mp (Option.isSome_of_eq_some hitems)⟩
  · intro h
    obtain ⟨items, hitems⟩ := Option.isSome_iff_exists.mp ((items_isSome_iff ..).mpr h.levels)
    exact ⟨_, toNanoseconds_eq h.timestamp, items, hitems, rfl⟩

end Sender
end TradingPlatform
