import TradingPlatform.Sender.Profiles

/-!
# `Sender.Normalized` — books next to the trades of the same symbol

A normalized trade is rescaled to 8 decimals, and so is an item of a packet. A normalized book copies its levels,
which are then at the scale the fields declare only where the precisions are 8 already (`same_scale_iff`).
-/

namespace TradingPlatform
namespace Sender
namespace Profiles

open Rust Receiver Crypto.Parse

/-! ## Normalized books -/

/-- Normalized order book level with scaled integers. -/
structure NormalizedOrderBookLevel where
  price    : Int
  quantity : Int
deriving DecidableEq

/-- Normalized order book data. -/
structure NormalizedOrderBook where
  ts         : Nat
  exchangeId : UInt8
  symbolId   : UInt16
  bids       : List NormalizedOrderBookLevel
  asks       : List NormalizedOrderBookLevel
deriving DecidableEq

namespace NormalizedOrderBook

def levels (book : NormalizedOrderBook) (isBid : Bool) : List NormalizedOrderBookLevel :=
  if isBid then book.bids else book.asks

/-- Create a normalized order book from raw OrderBookData. The precisions are not consulted. -/
def fromOrderbookData (orderbook : OrderBookData) (exchangeId : UInt8) (symbolId : UInt16) :
    Option NormalizedOrderBook := do
  let ts ← orderbook.timestampUnit.toNanoseconds orderbook.timestamp
  let bids := orderbook.bids.map fun (price, quantity) => { price, quantity }
  let asks := orderbook.asks.map fun (price, quantity) => { price, quantity }
  return { ts, exchangeId, symbolId, bids, asks }

theorem levels_fromOrderbookData {orderbook : OrderBookData} {exchangeId : UInt8} {symbolId : UInt16}
    {book : NormalizedOrderBook} (h : fromOrderbookData orderbook exchangeId symbolId = some book) (isBid : Bool) :
    book.levels isBid = (orderbook.levels isBid).map fun level => ⟨level.1, level.2⟩ := by
  obtain ⟨ts, -, hbook⟩ := Option.bind_eq_some_iff.mp h
  obtain rfl := Option.some.inj hbook
  cases isBid with
  | true => rfl
  | false => rfl

end NormalizedOrderBook

/-! ## The scale of a level -/

/-- A level as it should be: the decimal with 8 places, the item on the wire, and the numbers of a normalized trade of
    the same price and quantity, which keeps the absolute value. -/
structure SameScale (profile : Profile) (pricePrecision quantityPrecision : Nat) (level : Int × Int)
    (normalized : NormalizedOrderBookLevel) : Prop where
  price    : normalized.price = atEight level.1 pricePrecision
  quantity : normalized.quantity = atEight level.2 quantityPrecision
  wire     : OrderBookItem.newFromScaled profile level.1 level.2 pricePrecision quantityPrecision =
    some ⟨normalized.price, normalized.quantity⟩
  trade    : ∀ (trade : TradeData) exchangeId symbolId normalizedTrade,
    trade.price = level.1 → trade.quantity = level.2 → trade.pricePrecision = pricePrecision →
    trade.quantityPrecision = quantityPrecision →
    NormalizedTrade.fromTradeData profile trade exchangeId symbolId = some normalizedTrade →
      normalizedTrade.price = normalized.price ∧ profile.i64 |normalized.quantity| = some normalizedTrade.quantity

/-- Rescaling the level does not overflow: neither do the powers of ten, where they are checked, nor the results. -/
structure Rescaled (profile : Profile) (pricePrecision quantityPrecision : Nat) (level : Int × Int) : Prop where
  price         : InI64 level.1
  quantity      : InI64 level.2
  pricePower    : DistanceFits profile pricePrecision
  quantityPower : DistanceFits profile quantityPrecision
  priceFits     : Fits level.1 pricePrecision
  quantityFits  : Fits level.2 quantityPrecision

/-- Only 0 is the same at every scale. -/
theorem atEight_eq_self_iff (n : Int) (precision : Nat) : n = atEight n precision ↔ precision = 8 ∨ n = 0 := by
  rcases Nat.lt_trichotomy precision 8 with hlt | rfl | hgt
  · obtain ⟨k, hk⟩ := Nat.exists_eq_succ_of_ne_zero (Nat.sub_ne_zero_of_lt hlt)
    have hpower : (0 : Int) < 10 ^ k := by positivity
    rw [atEight_up n (Nat.le_of_lt hlt), hk, pow_succ, or_iff_right (Nat.ne_of_lt hlt)]
    constructor
    · intro heq
      have hfactor : n * (10 ^ k * 10 - 1) = 0 := by linarith
      exact (mul_eq_zero.mp hfactor).resolve_right (by omega)
    · rintro rfl
      rw [zero_mul]
  · rw [atEight_up n (Nat.le_refl 8), Nat.sub_self, pow_zero, mul_one]
    exact iff_of_true rfl (.inl rfl)
  · rw [atEight_down n (Nat.le_of_lt hgt), or_iff_right (Nat.ne_of_gt hgt)]
    constructor
    · intro heq
      -- a quotient by 10 or more is smaller
      have hsmall : (n.tdiv (10 ^ (precision - 8))).natAbs ≤ n.natAbs / 10 := by
        rw [Int.natAbs_tdiv]
        refine Nat.div_le_div_left ?_ (by decide)
        rw [Int.natAbs_pow]
        exact Nat.le_self_pow (by omega) 10
      rw [← heq] at hsmall
      omega
    · rintro rfl
      exact (Int.zero_tdiv _).symm

/-- A copied level is at the right scale when nothing had to be rescaled. -/
theorem sameScale_copy_iff {profile : Profile} {pricePrecision quantityPrecision : Nat} {level : Int × Int}
    (h : Rescaled profile pricePrecision quantityPrecision level) :
    SameScale profile pricePrecision quantityPrecision level ⟨level.1, level.2⟩ ↔
      (pricePrecision = 8 ∨ level.1 = 0) ∧ (quantityPrecision = 8 ∨ level.2 = 0) := by
  have hprice := (rescale_eq_iff h.price h.pricePower).mpr h.priceFits
  have hquantity := (rescale_eq_iff h.quantity h.quantityPower).mpr h.quantityFits
  rw [← atEight_eq_self_iff, ← atEight_eq_self_iff]
  constructor
  · intro hscale
    exact ⟨hscale.price, hscale.quantity⟩
  · rintro ⟨hp, hq⟩
    rw [← hp] at hprice
    rw [← hq] at hquantity
    refine ⟨hp, hq, ?_, ?_⟩
    · rw [OrderBookItem.newFromScaled, hprice, hquantity]
      rfl
    · intro trade exchangeId symbolId normalizedTrade hp' hq' hpp hqp htrade
      rw [NormalizedTrade.fromTradeData, hp', hq', hpp, hqp, hprice, hquantity] at htrade
      simp only [Option.bind_eq_bind, Option.bind_some] at htrade
      obtain ⟨ts, -, htrade⟩ := Option.bind_eq_some_iff.mp htrade
      obtain ⟨absolute, habsolute, htrade⟩ := Option.bind_eq_some_iff.mp htrade
      obtain rfl := Option.some.inj htrade
      exact ⟨rfl, habsolute⟩

/-- **Books at the scale of the trades.** Every level of a normalized book is at the scale of the wire and of the
    trades exactly when each of its numbers has 8 decimals already or is 0. -/
theorem same_scale_iff {profile : Profile} {orderbook : OrderBookData} {exchangeId : UInt8} {symbolId : UInt16}
    {book : NormalizedOrderBook}
    (hbook : NormalizedOrderBook.fromOrderbookData orderbook exchangeId symbolId = some book)
    (hlevels : ∀ isBid, ∀ level ∈ orderbook.levels isBid,
      Rescaled profile orderbook.pricePrecision orderbook.quantityPrecision level) :
    (∀ isBid, List.Forall₂ (SameScale profile orderbook.pricePrecision orderbook.quantityPrecision)
      (orderbook.levels isBid) (book.levels isBid)) ↔
    ∀ isBid, ∀ level ∈ orderbook.levels isBid,
      (orderbook.pricePrecision = 8 ∨ level.1 = 0) ∧ (orderbook.quantityPrecision = 8 ∨ level.2 = 0) := by
  refine forall_congr' fun isBid => ?_
  rw [NormalizedOrderBook.levels_fromOrderbookData hbook, List.forall₂_map_right_iff, List.forall₂_same]
  exact forall₂_congr fun level hlevel => sameScale_copy_iff (hlevels isBid level hlevel)

/-- A bid of 95123.45 for 0.50, at the precisions given. -/
def bookAt (pricePrecision quantityPrecision : Nat) (price quantity : Int) : OrderBookData :=
  { exchange := "Binance", symbol := "BTC-USDT", assetType := "spot", bids := [(price, quantity)], asks := []
    pricePrecision, quantityPrecision, timestamp := 1700000000000, timestampUnit := .milliseconds }

theorem rescaled_bookAt {profile : Profile} {pricePrecision quantityPrecision : Nat} {price quantity : Int}
    (h : Rescaled profile pricePrecision quantityPrecision (price, quantity)) (isBid : Bool) :
    ∀ level ∈ (bookAt pricePrecision quantityPrecision price quantity).levels isBid,
      Rescaled profile pricePrecision quantityPrecision level := by
  intro level hlevel
  cases isBid with
  | true =>
      rw [List.mem_singleton.mp hlevel]
      exact h
  | false => cases hlevel

/-- The same book at 8 decimals is at the right scale. -/
theorem same_scale_iff_eight :
    (∀ isBid, List.Forall₂ (SameScale .dev 8 8) ((bookAt 8 8 9512345000000 50000000).levels isBid)
      ((⟨1700000000000000000, 1, 7, [⟨9512345000000, 50000000⟩], []⟩ : NormalizedOrderBook).levels isBid)) ↔
    ∀ isBid, ∀ level ∈ (bookAt 8 8 9512345000000 50000000).levels isBid,
      (8 = 8 ∨ level.1 = 0) ∧ (8 = 8 ∨ level.2 = 0) :=
  @same_scale_iff .dev (bookAt 8 8 9512345000000 50000000) 1 7 _ (by decide +kernel)
    (rescaled_bookAt ⟨by decide, by decide, .inr (by decide), .inr (by decide), by decide, by decide⟩)

/-- At two decimals the book is off by 10^6 in both numbers, against the packet and against the trade. -/
theorem not_same_scale : ¬ ∀ (profile : Profile) (orderbook : OrderBookData) (exchangeId : UInt8) (symbolId : UInt16)
    (book : NormalizedOrderBook),
    NormalizedOrderBook.fromOrderbookData orderbook exchangeId symbolId = some book →
    (∀ isBid, ∀ level ∈ orderbook.levels isBid,
      Rescaled profile orderbook.pricePrecision orderbook.quantityPrecision level) →
    ∀ isBid, List.Forall₂ (SameScale profile orderbook.pricePrecision orderbook.quantityPrecision)
      (orderbook.levels isBid) (book.levels isBid) := by
  intro h
  have hall := h .release (bookAt 2 2 9512345 50) 1 7 ⟨1700000000000000000, 1, 7, [⟨9512345, 50⟩], []⟩
    (by decide +kernel) (rescaled_bookAt ⟨by decide, by decide, .inl rfl, .inl rfl, by decide, by decide⟩) true
  cases hall with
  | cons hlevel _ =>
      have hprice := hlevel.price
      rw [atEight_up _ (by decide)] at hprice
      exact absurd hprice (by decide)

end Profiles
end Sender
end TradingPlatform
