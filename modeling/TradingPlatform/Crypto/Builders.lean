import TradingPlatform.Crypto.Scaled
import TradingPlatform.Library.Assoc

/-!
# `Crypto.Builders` — the per-symbol book builders of Bybit and Coinbase

A builder keeps one book. A snapshot replaces it; an update overwrites or appends levels, takes out those with
quantity 0, and sorts both sides. The two builders differ in the name of an update. Quantities come from text
through `parse_to_scaled_or_default`, so a quantity that is not kept reads as 0 and deletes its level
(`positive_quantity_stays_iff`).
-/

namespace TradingPlatform
namespace Crypto

open Rust Sender Ladder

/-! ## Sides -/

/-- Bids descend, asks ascend. -/
def better : Bool → Int → Int → Prop
  | true, p, p'  => p > p'
  | false, p, p' => p < p'

/-- The order a side is sorted by. -/
def notWorse : Bool → Int → Int → Prop
  | true, p, p'  => p ≥ p'
  | false, p, p' => p ≤ p'

instance : (isBid : Bool) → DecidableRel (better isBid)
  | true  => fun p p' => inferInstanceAs (Decidable (p > p'))
  | false => fun p p' => inferInstanceAs (Decidable (p < p'))

instance : (isBid : Bool) → DecidableRel (notWorse isBid)
  | true  => fun p p' => inferInstanceAs (Decidable (p ≥ p'))
  | false => fun p p' => inferInstanceAs (Decidable (p ≤ p'))

instance : (isBid : Bool) → IsStrictTotalOrder Int (better isBid)
  | true  => inferInstanceAs (IsStrictTotalOrder Int (· > ·))
  | false => inferInstanceAs (IsStrictTotalOrder Int (· < ·))

theorem notWorse_iff (isBid : Bool) (p p' : Int) : notWorse isBid p p' ↔ ¬ better isBid p' p := by
  cases isBid with
  | true => exact not_lt.symm
  | false => exact not_lt.symm

/-- A stable sort, best level first. -/
def sortLevels (isBid : Bool) (levels : List (Int × Int)) : List (Int × Int) :=
  levels.insertionSort fun a b => notWorse isBid a.1 b.1

theorem mem_keys_sortLevels {isBid : Bool} {levels : List (Int × Int)} {price : Int} :
    price ∈ (sortLevels isBid levels).map Prod.fst ↔ price ∈ levels.map Prod.fst :=
  (List.Perm.map _ (List.perm_insertionSort _ _)).mem_iff

/-! ## The builders -/

/-- Orderbook update message sent via channel. -/
structure ScaledOrderBookUpdate where
  messageType       : String
  bids              : List (Int × Int)
  asks              : List (Int × Int)
  timestamp         : Nat
  pricePrecision    : Nat
  quantityPrecision : Nat
  timestampUnit     : TimestampUnit

/-- "snapshot" or "delta" -/
abbrev BybitOrderBookUpdate := ScaledOrderBookUpdate

/-- "snapshot" or "update" -/
abbrev CoinbaseOrderBookUpdate := ScaledOrderBookUpdate

/-- Maintains local orderbook state and applies updates sequentially. -/
structure OrderBookBuilder where
  exchange  : String
  symbol    : String
  assetType : String
  orderbook : Option OrderBookData

namespace OrderBookBuilder

def new (exchange symbol assetType : String) : OrderBookBuilder :=
  { exchange, symbol, assetType, orderbook := none }

/-- Quantity 0 deletes the price level. -/
def levelWrite (level : Int × Int) : Int × Option Int := (level.1, if level.2 = 0 then none else some level.2)

def applyLevels (levels updates : List (Int × Int)) : List (Int × Int) :=
  Assoc.writeAll levels (updates.map levelWrite)

/-- The book a snapshot makes. -/
def replace (b : OrderBookBuilder) (update : ScaledOrderBookUpdate) : OrderBookData where
  exchange          := b.exchange
  symbol            := b.symbol
  assetType         := b.assetType
  bids              := update.bids
  asks              := update.asks
  pricePrecision    := update.pricePrecision
  quantityPrecision := update.quantityPrecision
  timestamp         := update.timestamp
  timestampUnit     := update.timestampUnit

def amend (orderbook : OrderBookData) (update : ScaledOrderBookUpdate) : OrderBookData :=
  { orderbook with
    bids      := sortLevels true (applyLevels orderbook.bids update.bids)
    asks      := sortLevels false (applyLevels orderbook.asks update.asks)
    timestamp := update.timestamp }

/-- Process an orderbook update; the book published, if any, is the output. `incremental` is the type of what is
    not a snapshot; before the first snapshot it is ignored, and so is any other type. -/
def process (incremental : String) (b : OrderBookBuilder) (update : ScaledOrderBookUpdate) :
    OrderBookBuilder × List OrderBookData :=
  if update.messageType = "snapshot" then
    ({ b with orderbook := some (b.replace update) }, [b.replace update])
  else if update.messageType = incremental then
    match b.orderbook with
    | some orderbook => ({ b with orderbook := some (amend orderbook update) }, [amend orderbook update])
    | none           => (b, [])
  else (b, [])

theorem process_incremental {incremental : String} (hne : incremental ≠ "snapshot") {b : OrderBookBuilder}
    {update : ScaledOrderBookUpdate} (htype : update.messageType = incremental) {orderbook : OrderBookData}
    (hb : b.orderbook = some orderbook) :
    process incremental b update =
      ({ b with orderbook := some (amend orderbook update) }, [amend orderbook update]) := by
  unfold process
  rw [if_neg (by rw [htype]; exact hne), if_pos htype, hb]

/-- At most one book is published for an update. -/
theorem length_process_le (incremental : String) (b : OrderBookBuilder) (update : ScaledOrderBookUpdate) :
    (process incremental b update).2.length ≤ 1 := by
  unfold process
  split
  · exact Nat.le_refl 1
  · split
    · split
      · exact Nat.le_refl 1
      · exact Nat.zero_le 1
    · exact Nat.zero_le 1

end OrderBookBuilder

namespace BybitOrderBookBuilder

def processUpdate (b : OrderBookBuilder) (update : BybitOrderBookUpdate) : OrderBookBuilder × List OrderBookData :=
  b.process "delta" update

end BybitOrderBookBuilder

namespace CoinbaseOrderBookBuilder

def processUpdate (b : OrderBookBuilder) (update : CoinbaseOrderBookUpdate) : OrderBookBuilder × List OrderBookData :=
  b.process "update" update

end CoinbaseOrderBookBuilder

/-! ## Quantities that delete -/

/-- The levels of a message as text. -/
structure Quoted where
  bids : List (String × String)
  asks : List (String × String)

namespace Quoted

def side (q : Quoted) (isBid : Bool) : List (String × String) := if isBid then q.bids else q.asks

def parseLevels (pricePrecision quantityPrecision : Nat) (levels : List (String × String)) : List (Int × Int) :=
  levels.map fun (price, quantity) =>
    (parseToScaledOrDefault price pricePrecision, parseToScaledOrDefault quantity quantityPrecision)

def update (q : Quoted) (messageType : String) (timestamp pricePrecision quantityPrecision : Nat)
    (timestampUnit : TimestampUnit) : ScaledOrderBookUpdate where
  messageType       := messageType
  bids              := parseLevels pricePrecision quantityPrecision q.bids
  asks              := parseLevels pricePrecision quantityPrecision q.asks
  timestamp         := timestamp
  pricePrecision    := pricePrecision
  quantityPrecision := quantityPrecision
  timestampUnit     := timestampUnit

/-- A level that is the last of its price on its side. -/
def Last (q : Quoted) (pricePrecision : Nat) (isBid : Bool) (price quantity : String) : Prop :=
  ∃ before after, q.side isBid = before ++ (price, quantity) :: after ∧
    ∀ level ∈ after, parseToScaledOrDefault level.1 pricePrecision ≠ parseToScaledOrDefault price pricePrecision

/-- Every price whose last quantity is a positive decimal is in the book. -/
def PositiveStays (q : Quoted) (pricePrecision : Nat) (b : OrderBookBuilder) : Prop :=
  ∀ isBid price quantity, q.Last pricePrecision isBid price quantity →
    ∀ x : Numeral, quantity = x.text → 0 < x.value →
      ∃ orderbook, b.orderbook = some orderbook ∧
        parseToScaledOrDefault price pricePrecision ∈ (orderbook.levels isBid).map Prod.fst

/-- Every last quantity that is a positive decimal is kept. -/
def PositiveKept (q : Quoted) (pricePrecision quantityPrecision : Nat) : Prop :=
  ∀ isBid price quantity, q.Last pricePrecision isBid price quantity →
    ∀ x : Numeral, quantity = x.text → 0 < x.value → Kept x quantityPrecision

variable {q : Quoted} {pricePrecision quantityPrecision timestamp : Nat} {timestampUnit : TimestampUnit}

/-- A price is in the amended book when its last quantity is not 0. -/
theorem Last.mem_amend {isBid : Bool} {price quantity : String} (h : q.Last pricePrecision isBid price quantity)
    (orderbook : OrderBookData) (messageType : String) :
    parseToScaledOrDefault price pricePrecision ∈ ((OrderBookBuilder.amend orderbook (q.update messageType timestamp
        pricePrecision quantityPrecision timestampUnit)).levels isBid).map Prod.fst ↔
      parseToScaledOrDefault quantity quantityPrecision ≠ 0 := by
  have hlevels : (OrderBookBuilder.amend orderbook (q.update messageType timestamp pricePrecision quantityPrecision
        timestampUnit)).levels isBid =
      sortLevels isBid (OrderBookBuilder.applyLevels (orderbook.levels isBid)
        (parseLevels pricePrecision quantityPrecision (q.side isBid))) := by
    cases isBid <;> rfl
  obtain ⟨before, after, hside, hafter⟩ := h
  have hlast : lastWrite (parseToScaledOrDefault price pricePrecision)
      ((parseLevels pricePrecision quantityPrecision (q.side isBid)).map OrderBookBuilder.levelWrite) =
        some (if parseToScaledOrDefault quantity quantityPrecision = 0 then none
          else some (parseToScaledOrDefault quantity quantityPrecision)) := by
    rw [hside, parseLevels, List.map_append, List.map_cons, List.map_append, List.map_cons]
    refine lastWrite_eq_some_iff.mpr ⟨_, _, rfl, ?_⟩
    simp only [List.map_map, List.mem_map]
    rintro op ⟨level, hlevel, rfl⟩
    exact hafter level hlevel
  rw [hlevels, mem_keys_sortLevels, OrderBookBuilder.applyLevels, Assoc.mem_keys_writeAll, hlast]
  by_cases hzero : parseToScaledOrDefault quantity quantityPrecision = 0
  · simp [hzero]
  · simp [hzero]

theorem positiveStays_process {incremental : String} (hne : incremental ≠ "snapshot") {b : OrderBookBuilder}
    {orderbook : OrderBookData} (hb : b.orderbook = some orderbook) :
    q.PositiveStays pricePrecision (b.process incremental
        (q.update incremental timestamp pricePrecision quantityPrecision timestampUnit)).1 ↔
      q.PositiveKept pricePrecision quantityPrecision := by
  rw [OrderBookBuilder.process_incremental hne rfl hb]
  constructor
  · intro h isBid price quantity hlast x htext hpos
    obtain ⟨_, hbook, hmem⟩ := h isBid price quantity hlast x htext hpos
    obtain rfl := Option.some.inj hbook
    rw [hlast.mem_amend orderbook incremental, htext] at hmem
    exact (parseToScaledOrDefault_ne_zero_iff (Numeral.sign_ne_minus hpos)).mp hmem
  · intro h isBid price quantity hlast x htext hpos
    refine ⟨_, rfl, ?_⟩
    rw [hlast.mem_amend orderbook incremental, htext]
    exact (parseToScaledOrDefault_ne_zero_iff (Numeral.sign_ne_minus hpos)).mpr
      (h isBid price quantity hlast x htext hpos)

end Quoted

/-- **A positive quantity never deletes** its level exactly when every last positive quantity of the message is
    kept at the precision, in the builder of Bybit and in that of Coinbase. -/
theorem positive_quantity_stays_iff (b : OrderBookBuilder) {orderbook : OrderBookData}
    (hb : b.orderbook = some orderbook) (q : Quoted) (timestamp pricePrecision quantityPrecision : Nat)
    (timestampUnit : TimestampUnit) :
    (q.PositiveStays pricePrecision (BybitOrderBookBuilder.processUpdate b
        (q.update "delta" timestamp pricePrecision quantityPrecision timestampUnit)).1 ↔
      q.PositiveKept pricePrecision quantityPrecision) ∧
    (q.PositiveStays pricePrecision (CoinbaseOrderBookBuilder.processUpdate b
        (q.update "update" timestamp pricePrecision quantityPrecision timestampUnit)).1 ↔
      q.PositiveKept pricePrecision quantityPrecision) :=
  ⟨Quoted.positiveStays_process (by decide) hb, Quoted.positiveStays_process (by decide) hb⟩

/-! A book with one bid, and messages that write to its price. -/

def oneBid : OrderBookBuilder :=
  { exchange := "Bybit", symbol := "SHIBUSDT", assetType := "spot"
    orderbook := some {
      exchange := "Bybit", symbol := "SHIBUSDT", assetType := "spot", bids := [(100000000, 500000000)], asks := []
      pricePrecision := 8, quantityPrecision := 8, timestamp := 1700000000000, timestampUnit := .milliseconds } }

def quoteBid (quantity : String) : Quoted := { bids := [("1.00", quantity)], asks := [] }

/-- 0.000000001 -/
def dust : Numeral where
  sign      := none
  whole     := [digit 0]
  fraction  := some ([0, 0, 0, 0, 0, 0, 0, 0, 1].map digit)
  exponent  := none
  hasDigits := by decide

/-- A quantity below the precision takes the level out of the book of either builder. So does one with an exponent,
    one with a point at precision 0, and one beyond the range of `i64`. -/
theorem dust_deletes :
    ¬ (quoteBid "0.000000001").PositiveStays 8 (BybitOrderBookBuilder.processUpdate oneBid
        ((quoteBid "0.000000001").update "delta" 1700000000100 8 8 .milliseconds)).1 ∧
    ¬ (quoteBid "0.000000001").PositiveStays 8 (CoinbaseOrderBookBuilder.processUpdate oneBid
        ((quoteBid "0.000000001").update "update" 1700000000100 8 8 .milliseconds)).1 ∧
    parseToScaledOrDefault "2.5e3" 8 = 0 ∧ parseToScaledOrDefault "5.0" 0 = 0 ∧
    parseToScaledOrDefault "100000000000" 8 = 0 := by
  have hlast : (quoteBid "0.000000001").Last 8 true "1.00" "0.000000001" :=
    ⟨[], [], rfl, fun level hlevel => by cases hlevel⟩
  have hpos : 0 < dust.value := by decide +kernel
  refine ⟨fun h => ?_, fun h => ?_, by decide +kernel, by decide +kernel, by decide +kernel⟩
  all_goals
    obtain ⟨orderbook, hbook, hmem⟩ := h true "1.00" "0.000000001" hlast dust (by decide +kernel) hpos
    obtain rfl := Option.some.inj hbook
    revert hmem
    decide +kernel

theorem quarter_stays :
    (quoteBid "0.25").PositiveStays 8 (BybitOrderBookBuilder.processUpdate oneBid
      ((quoteBid "0.25").update "delta" 1700000000100 8 8 .milliseconds)).1 := by
  refine (positive_quantity_stays_iff oneBid rfl (quoteBid "0.25") _ _ _ _).1.mpr ?_
  rintro isBid price quantity ⟨before, after, hside, -⟩ x htext hpos
  have hmem : (price, quantity) ∈ (quoteBid "0.25").side isBid := by
    rw [hside]
    exact List.mem_append_right _ List.mem_cons_self
  have hquantity : quantity = "0.25" := by
    cases isBid with
    | true => exact (Prod.mk.inj (List.mem_singleton.mp hmem)).2
    | false => cases hmem
  refine (parseToScaledOrDefault_ne_zero_iff (Numeral.sign_ne_minus hpos)).mp ?_
  rw [← htext, hquantity]
  decide +kernel

end Crypto
end TradingPlatform
