import TradingPlatform.Crypto.Parse
import TradingPlatform.Sender.Encodes

/-!
# `Sender.Profiles` — rescaling in both build profiles

`Sender.Packet` rescales to 8 decimals as the release build does. Here is the arithmetic in either profile, for the
items of the packets and for the normalized trade, and the exact condition under which it does what it should on
what the parser reads (`rescaling_exact_iff`).
-/

namespace TradingPlatform
namespace Sender
namespace Profiles

open Rust Receiver Crypto.Parse

/-! ## The arithmetic -/

/-- From `precision` decimals to 8. The divisor is a power of ten, wrapped or not, and never −1. -/
def rescale (profile : Profile) (n : Int) (precision : Nat) : Option Int :=
  if precision = 8 then some n
  else if precision < 8 then do
    let power ← profile.i64 (10 ^ (8 - precision))
    profile.i64 (n * power)
  else do
    let power ← profile.i64 (10 ^ (precision - 8))
    if power = 0 then none else profile.i64 (n.tdiv power)

/-- Create new OrderBook item from already-scaled i64 values. -/
def OrderBookItem.newFromScaled (profile : Profile) (price quantity : Int)
    (pricePrecision qtyPrecision : Nat) : Option OrderBookItem := do
  let price ← rescale profile price pricePrecision
  let quantity ← rescale profile quantity qtyPrecision
  return { price, quantity }

/-- Create new Trade item from already-scaled i64 values. -/
def TradeItem.newFromScaled (profile : Profile) (tradeId : Nat) (price quantity : Int)
    (pricePrecision qtyPrecision : Nat) (isBuy : Bool) : Option TradeItem := do
  let price ← rescale profile price pricePrecision
  let quantity ← rescale profile quantity qtyPrecision
  return { tradeId, price, quantity, side := if isBuy then 1 else 0 }

/-- Normalized trade data with nanosecond timestamps and scaled integer prices/quantities. -/
structure NormalizedTrade where
  ts         : Nat
  price      : Int
  quantity   : Int
  side       : UInt8
  exchangeId : UInt8
  symbolId   : UInt16
deriving DecidableEq

/-- Create a normalized trade from raw TradeData. -/
def NormalizedTrade.fromTradeData (profile : Profile) (trade : TradeData) (exchangeId : UInt8) (symbolId : UInt16) :
    Option NormalizedTrade := do
  let ts ← trade.timestampUnit.toNanoseconds trade.timestamp
  let price ← rescale profile trade.price trade.pricePrecision
  let quantity ← rescale profile trade.quantity trade.quantityPrecision
  let absolute ← profile.i64 |quantity|
  return { ts, price, quantity := absolute, side := if 0 < trade.quantity then 1 else 0, exchangeId, symbolId }

/-- The packets of `Sender.Packet` are those of the release build. -/
theorem rescale_release (n : Int) (precision : Nat) : rescale .release n precision = Sender.rescale n precision := rfl

/-! ## When it is exact -/

/-- The number with 8 decimals, truncated. -/
def atEight (n : Int) (precision : Nat) : Int := truncated (n * 10 ^ ((8 : ℤ) - precision))

/-- What is multiplied stays in range; what is divided by a wrapped power of ten is smaller than it. -/
def Fits (n : Int) (precision : Nat) : Prop :=
  if precision ≤ 26 then InI64 (n * 10 ^ (8 - precision)) else |n| < |wrapI64 (10 ^ (precision - 8))|

instance (n : Int) (precision : Nat) : Decidable (Fits n precision) := inferInstanceAs (Decidable (ite _ _ _))

/-- Up to 8 decimals it is a product. -/
theorem atEight_up (n : Int) {precision : Nat} (h : precision ≤ 8) :
    atEight n precision = n * 10 ^ (8 - precision) := by
  have hexp : (8 : ℤ) - precision = (8 - precision : Nat) := by omega
  have hpower : (n : ℚ) * 10 ^ (8 - precision) = ((n * 10 ^ (8 - precision) : Int) : ℚ) := by push_cast; rfl
  rw [atEight, hexp, zpow_natCast, hpower, truncated_intCast]

/-- From 8 on it is a quotient. -/
theorem atEight_down (n : Int) {precision : Nat} (h : 8 ≤ precision) :
    atEight n precision = n.tdiv (10 ^ (precision - 8)) := by
  have hexp : (8 : ℤ) - precision = -(precision - 8 : Nat) := by omega
  have hpower : (10 : ℚ) ^ (precision - 8) = ((10 ^ (precision - 8) : Nat) : ℚ) := by push_cast; rfl
  rw [atEight, hexp, zpow_neg, zpow_natCast, ← div_eq_mul_inv, hpower, truncated_div]
  push_cast
  rfl

/-- Past the last power of ten in range nothing is left of a number. -/
theorem atEight_far {n : Int} (hn : InI64 n) {precision : Nat} (h : 26 < precision) : atEight n precision = 0 := by
  have hpower : (10 : Int) ^ 19 ≤ 10 ^ (precision - 8) := pow_le_pow_right₀ (by norm_num) (by omega)
  unfold InI64 at hn
  norm_num at hpower
  rw [atEight_down n (by omega)]
  refine Int.natAbs_eq_zero.mp ?_
  rw [Int.natAbs_tdiv]
  exact Nat.div_eq_of_lt (by omega)

theorem wrapI64_eq_zero {n : Int} (h : n.natAbs ≤ 2 ^ 63) : wrapI64 n = 0 ↔ n = 0 := by
  unfold wrapI64 u64AsI64 i64AsU64
  split <;> omega

/-- A result in either profile is in range. -/
theorem inI64_of_i64 {profile : Profile} {n m : Int} (h : profile.i64 n = some m) : InI64 m := by
  cases profile with
  | dev =>
      obtain ⟨hn, rfl⟩ := Profile.dev_i64.mp h
      exact hn
  | release =>
      obtain rfl := Option.some.inj h
      unfold u64AsI64 i64AsU64 InI64
      split <;> omega

theorem i64_eq_self_iff {profile : Profile} {n : Int} : profile.i64 n = some n ↔ InI64 n :=
  ⟨inI64_of_i64, fun h => Profile.i64_eq h profile⟩

/-- A quotient is no further from 0 than the number, and on the same side. -/
theorem inI64_tdiv {n : Int} (hn : InI64 n) (k : Nat) : InI64 (n.tdiv (10 ^ k)) := by
  have hle := Int.natAbs_tdiv_le_natAbs n (10 ^ k)
  have hpos : (0 : Int) ≤ 10 ^ k := by positivity
  unfold InI64 at *
  rcases Int.le_total 0 n with hsign | hsign
  · have hside := Int.tdiv_nonneg hsign hpos
    omega
  · have hside := Int.tdiv_nonneg (Int.neg_nonneg_of_nonpos hsign) hpos
    rw [Int.neg_tdiv] at hside
    omega

/-- The power of ten between this precision and 8 is in range, or not checked. -/
def DistanceFits (profile : Profile) (precision : Nat) : Prop := profile = .release ∨ precision ≤ 26

/-- What is read has such a precision. -/
theorem distanceFits_of_powerFits {profile : Profile} {precision : Nat} (h : PowerFits profile precision) :
    DistanceFits profile precision :=
  h.imp_right fun hle => by omega

/-- **Rescaling is exact** as long as it fits. -/
theorem rescale_eq_iff {profile : Profile} {n : Int} {precision : Nat} (hn : InI64 n)
    (hpower : DistanceFits profile precision) :
    rescale profile n precision = some (atEight n precision) ↔ Fits n precision := by
  unfold rescale Fits
  rcases Nat.lt_trichotomy precision 8 with hlt | rfl | hgt
  · rw [if_neg (Nat.ne_of_lt hlt), if_pos hlt, if_pos (by omega), atEight_up n (Nat.le_of_lt hlt),
      Profile.i64_eq (inI64_pow_up precision)]
    exact i64_eq_self_iff
  · rw [atEight_up n (Nat.le_refl 8)]
    simpa using hn
  · rw [if_neg (Nat.ne_of_gt hgt), if_neg (Nat.not_lt.mpr (Nat.le_of_lt hgt))]
    by_cases hnear : precision ≤ 26
    · rw [if_pos hnear, Profile.i64_eq ((inI64_pow_iff _).mpr (by omega)), atEight_down n (Nat.le_of_lt hgt),
        Nat.sub_eq_zero_of_le (Nat.le_of_lt hgt), pow_zero, mul_one]
      have hne : (10 : Int) ^ (precision - 8) ≠ 0 := by positivity
      refine iff_of_true ?_ hn
      show (if _ then _ else _) = _
      rw [if_neg hne]
      exact Profile.i64_eq (inI64_tdiv hn _) profile
    · obtain rfl : profile = .release := hpower.resolve_right hnear
      rw [if_neg hnear, atEight_far hn (by omega)]
      show (if wrapI64 (10 ^ (precision - 8)) = 0 then none
        else some (wrapI64 (n.tdiv (wrapI64 (10 ^ (precision - 8)))))) = some 0 ↔ _
      generalize wrapI64 (10 ^ (precision - 8)) = divisor
      by_cases hzero : divisor = 0
      · rw [if_pos hzero, hzero, abs_zero]
        exact iff_of_false nofun (not_lt_of_ge (abs_nonneg n))
      · have hsmall : (n.tdiv divisor).natAbs ≤ 2 ^ 63 := by
          have hle := Int.natAbs_tdiv_le_natAbs n divisor
          unfold InI64 at hn
          omega
        rw [if_neg hzero, Option.some.injEq, wrapI64_eq_zero hsmall, ← Int.natAbs_eq_zero, Int.natAbs_tdiv,
          Int.abs_eq_natAbs, Int.abs_eq_natAbs, Int.ofNat_lt]
        exact Nat.div_eq_zero_iff_lt (Int.natAbs_pos.mpr hzero)

/-! ## The three that rescale -/

/-- What the items and the normalized trade of a trade should be. -/
structure Exact (profile : Profile) (trade : TradeData) : Prop where
  orderBookItem : OrderBookItem.newFromScaled profile trade.price trade.quantity trade.pricePrecision
      trade.quantityPrecision =
    some ⟨atEight trade.price trade.pricePrecision, atEight trade.quantity trade.quantityPrecision⟩
  tradeItem     : ∀ tradeId isBuy, TradeItem.newFromScaled profile tradeId trade.price trade.quantity
      trade.pricePrecision trade.quantityPrecision isBuy =
    some ⟨tradeId, atEight trade.price trade.pricePrecision, atEight trade.quantity trade.quantityPrecision,
      if isBuy then 1 else 0⟩
  normalized    : ∀ exchangeId symbolId, ∃ normalized,
    NormalizedTrade.fromTradeData profile trade exchangeId symbolId = some normalized ∧
      normalized.price = atEight trade.price trade.pricePrecision ∧
      normalized.quantity = |atEight trade.quantity trade.quantityPrecision|

/-- What is needed for it. -/
structure InRange (trade : TradeData) : Prop where
  price     : Fits trade.price trade.pricePrecision
  quantity  : Fits trade.quantity trade.quantityPrecision
  /-- The least number has no absolute value. -/
  absolute  : trade.quantityPrecision = 8 → trade.quantity ≠ -2 ^ 63
  timestamp : trade.timestamp * trade.timestampUnit.nanosecondsPer < 2 ^ 64

theorem inI64_atEight {n : Int} (hn : InI64 n) {precision : Nat} (h : Fits n precision) :
    InI64 (atEight n precision) := by
  rcases Nat.le_total precision 8 with hle | hle
  · rw [Fits, if_pos (by omega)] at h
    rw [atEight_up n hle]
    exact h
  · rw [atEight_down n hle]
    exact inI64_tdiv hn _

/-- Only without rescaling the least number comes out. -/
theorem atEight_eq_min {n : Int} (hn : InI64 n) (precision : Nat) :
    atEight n precision = -2 ^ 63 ↔ precision = 8 ∧ n = -2 ^ 63 := by
  rcases Nat.lt_trichotomy precision 8 with hlt | rfl | hgt
  · obtain ⟨k, hk⟩ := Nat.exists_eq_succ_of_ne_zero (Nat.sub_ne_zero_of_lt hlt)
    rw [atEight_up n (Nat.le_of_lt hlt), hk, pow_succ, ← mul_assoc]
    omega
  · rw [atEight_up n (Nat.le_refl 8), Nat.sub_self, pow_zero, mul_one]
    exact (and_iff_right rfl).symm
  · refine iff_of_false (fun heq => ?_) fun h => Nat.ne_of_gt hgt h.1
    have hsmall : (n.tdiv (10 ^ (precision - 8))).natAbs ≤ n.natAbs / 10 := by
      rw [Int.natAbs_tdiv]
      refine Nat.div_le_div_left ?_ (by decide)
      rw [Int.natAbs_pow]
      exact Nat.le_self_pow (by omega) 10
    rw [← atEight_down n (Nat.le_of_lt hgt), heq] at hsmall
    unfold InI64 at hn
    omega

theorem inI64_abs_atEight {n : Int} (hn : InI64 n) {precision : Nat} (h : Fits n precision) :
    InI64 |atEight n precision| ↔ (precision = 8 → n ≠ -2 ^ 63) := by
  have hmin := atEight_eq_min hn precision
  have hrange := inI64_atEight hn h
  rw [← not_and, ← hmin, Int.abs_eq_natAbs]
  unfold InI64 at *
  omega

/-- **Rescaling is exact**, in all three places, for what the parser returns and as long as it fits. -/
theorem rescaling_exact_iff {profile : Profile} {trade : TradeData} {price quantity : String}
    (hprice : parseToScaled profile price trade.pricePrecision = some (some trade.price))
    (hquantity : parseToScaled profile quantity trade.quantityPrecision = some (some trade.quantity)) :
    Exact profile trade ↔ InRange trade := by
  obtain ⟨hp, hppower⟩ := inI64_of_read hprice
  obtain ⟨hq, hqpower⟩ := inI64_of_read hquantity
  have hprice := rescale_eq_iff hp (distanceFits_of_powerFits hppower)
  have hquantity := rescale_eq_iff hq (distanceFits_of_powerFits hqpower)
  constructor
  · intro h
    obtain ⟨rescaledPrice, hrescaledPrice, hitem⟩ := Option.bind_eq_some_iff.mp h.orderBookItem
    obtain ⟨rescaledQuantity, hrescaledQuantity, hitem⟩ := Option.bind_eq_some_iff.mp hitem
    obtain ⟨rfl, rfl⟩ := OrderBookItem.mk.inj (Option.some.inj hitem)
    have hfits := hquantity.mp hrescaledQuantity
    obtain ⟨normalized, hnormalized, -, habsolute⟩ := h.normalized 0 0
    rw [NormalizedTrade.fromTradeData, hrescaledPrice, hrescaledQuantity] at hnormalized
    simp only [Option.bind_eq_bind, Option.bind_some] at hnormalized
    obtain ⟨ts, hts, hnormalized⟩ := Option.bind_eq_some_iff.mp hnormalized
    obtain ⟨absolute, hchecked, hnormalized⟩ := Option.bind_eq_some_iff.mp hnormalized
    obtain rfl := Option.some.inj hnormalized
    rw [show absolute = _ from habsolute] at hchecked
    exact ⟨hprice.mp hrescaledPrice, hfits, (inI64_abs_atEight hq hfits).mp (inI64_of_i64 hchecked),
      (toNanoseconds_isSome_iff ..).mp (Option.isSome_of_eq_some hts)⟩
  · intro h
    have hprice := hprice.mpr h.price
    have hquantity := hquantity.mpr h.quantity
    refine ⟨?_, fun tradeId isBuy => ?_, fun exchangeId symbolId => ?_⟩
    · rw [OrderBookItem.newFromScaled, hprice, hquantity]
      rfl
    · rw [TradeItem.newFromScaled, hprice, hquantity]
      rfl
    · have habsolute := Profile.i64_eq ((inI64_abs_atEight hq h.quantity).mpr h.absolute) profile
      refine ⟨⟨trade.timestamp * trade.timestampUnit.nanosecondsPer, atEight trade.price trade.pricePrecision,
        |atEight trade.quantity trade.quantityPrecision|, if 0 < trade.quantity then 1 else 0, exchangeId, symbolId⟩,
        ?_, rfl, rfl⟩
      rw [NormalizedTrade.fromTradeData, toNanoseconds_eq h.timestamp, hprice, hquantity]
      simp only [Option.bind_eq_bind, Option.bind_some, habsolute]
      rfl

/-- A price of eight decimals and a quantity of two. -/
theorem rescaling_exact_iff_cents :
    let trade : TradeData :=
      ⟨"Binance", "BTC-USDT", "spot", 9512345000000, 50, 8, 2, 1700000000000, .milliseconds⟩
    Exact .dev trade ↔ InRange trade :=
  @rescaling_exact_iff .dev _ "95123.45" "0.5" (by decide +kernel) (by decide +kernel)

/-- A whole price of twelve digits turns negative. -/
theorem not_rescaling_exact : ¬ ∀ (profile : Profile) (trade : TradeData) (price quantity : String),
    trade.timestamp * trade.timestampUnit.nanosecondsPer < 2 ^ 64 →
    parseToScaled profile price trade.pricePrecision = some (some trade.price) →
    parseToScaled profile quantity trade.quantityPrecision = some (some trade.quantity) → Exact profile trade := by
  intro h
  let trade : TradeData := ⟨"Binance", "BTC-USDT", "spot", 92233720369, 50, 0, 2, 0, .milliseconds⟩
  have hitem :=
    (h .release trade "92233720369" "0.5" (by decide) (by decide +kernel) (by decide +kernel)).orderBookItem
  revert hitem
  decide +kernel

end Profiles
end Sender
end TradingPlatform
