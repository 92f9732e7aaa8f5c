import TradingPlatform.Crypto.Builders
import TradingPlatform.Manager.Order

/-!
# `Crypto.Feed` — what the feeds with per-symbol builders share

A handler makes updates of a message and puts them into the channels of the builders, which are kept by common
symbol. A builder's task takes the updates of its channel one at a time. A book it has built is stored and then
sent, and making the packets panics on a timestamp that does not fit nanoseconds and on some precisions. A panic
ends the task; the book has been published by then.
-/

namespace TradingPlatform
namespace Crypto

open Json Rust Sender Ladder Manager

/-! ## Configuration -/

/-- The part of the feed configuration the handlers read. -/
structure FeedConfig where
  pricePrecision    : Nat
  quantityPrecision : Nat
  /-- price and quantity precision of a symbol -/
  symbolPrecision   : List (String × (Nat × Nat))
  timestampUnit     : TimestampUnit

namespace FeedConfig

def getPricePrecision (config : FeedConfig) (symbol : String) : Nat :=
  ((config.symbolPrecision.lookup symbol).map Prod.fst).getD config.pricePrecision

/-- Get quantity precision for a specific symbol (uses override if exists). -/
def getQuantityPrecision (config : FeedConfig) (symbol : String) : Nat :=
  ((config.symbolPrecision.lookup symbol).map Prod.snd).getD config.quantityPrecision

end FeedConfig

/-- What the handlers are given with every message. -/
structure Context where
  symbolMapper : SymbolMapper
  feedConfig   : FeedConfig

/-- The original symbol is used if no mapping exists. -/
def Context.commonSymbol (context : Context) (exchange original : String) : String :=
  (context.symbolMapper.map exchange original).getD original

/-! ## The task of a builder -/

/-- Making the packets of the book does not panic. -/
def Sendable (orderbook : OrderBookData) : Prop :=
  ∀ isBid, orderbook.levels isBid ≠ [] → (BinaryUdpPacket.fromOrderbook orderbook isBid 0).isSome

instance (orderbook : OrderBookData) : Decidable (Sendable orderbook) :=
  decidable_of_iff ((orderbook.levels true ≠ [] → (BinaryUdpPacket.fromOrderbook orderbook true 0).isSome) ∧
      (orderbook.levels false ≠ [] → (BinaryUdpPacket.fromOrderbook orderbook false 0).isSome))
    ⟨fun h isBid => by cases isBid; exacts [h.2, h.1], fun h => ⟨h true, h false⟩⟩

/-- One update in the task of a builder that does `process`: what is left of the builder, and what it published. -/
def taskStep {β υ : Type*} (process : β → υ → β × List OrderBookData) (b : β) (update : υ) :
    Option β × List OrderBookData :=
  (if ∀ orderbook ∈ (process b update).2, Sendable orderbook then some (process b update).1 else none,
    (process b update).2)

theorem rescale_isSome (n : Int) {precision : Nat} (h : precision ≤ 18) : (rescale n precision).isSome := by
  unfold rescale
  split
  · rfl
  · split
    · rfl
    · have hdivisor : wrapI64 (10 ^ (precision - 8)) = 10 ^ (precision - 8) := by
        refine wrapI64_eq ⟨le_trans (by norm_num) (pow_nonneg (by norm_num : (0 : Int) ≤ 10) _), ?_⟩
        exact lt_of_le_of_lt (pow_le_pow_right₀ (by norm_num) (show precision - 8 ≤ 10 by omega)) (by norm_num)
      have hne : (10 : Int) ^ (precision - 8) ≠ 0 := by positivity
      dsimp only
      rw [hdivisor, if_neg hne]
      rfl

/-- With a timestamp in range and up to 18 decimals there is no panic. -/
theorem sendable {orderbook : OrderBookData}
    (htimestamp : orderbook.timestamp * orderbook.timestampUnit.nanosecondsPer < 2 ^ 64)
    (hprice : orderbook.pricePrecision ≤ 18) (hquantity : orderbook.quantityPrecision ≤ 18) : Sendable orderbook := by
  intro isBid _
  have hitem : ∀ level : Int × Int, ∃ item, OrderBookItem.newFromScaled level.1 level.2 orderbook.pricePrecision
      orderbook.quantityPrecision = some item := by
    intro level
    obtain ⟨price, hp⟩ := Option.isSome_iff_exists.mp (rescale_isSome level.1 hprice)
    obtain ⟨quantity, hq⟩ := Option.isSome_iff_exists.mp (rescale_isSome level.2 hquantity)
    exact ⟨⟨price, quantity⟩, by rw [OrderBookItem.newFromScaled, hp, hq]; rfl⟩
  choose item hitem using hitem
  have hitems : orderbook.items isBid = some (((orderbook.levels isBid).take 7).map item) :=
    mapM_eq_map fun level _ => hitem level
  rw [BinaryUdpPacket.fromOrderbook, toNanoseconds_eq htimestamp, hitems]
  rfl

/-! ## Builders by symbol -/

/-- The builders by common symbol. A builder whose task has ended is as good as none: what is sent to either is
    dropped with a warning. -/
abbrev Builders := String → Option OrderBookBuilder

/-- One builder for each subscribed symbol, with its asset type. -/
def spawnBuilders (context : Context) (exchange : String) (allSymbols : List (String × String)) : Builders :=
  allSymbols.foldl (fun builders (symbol, assetType) =>
      Function.update builders (context.commonSymbol exchange symbol)
        (some (.new exchange (context.commonSymbol exchange symbol) assetType)))
    fun _ => none

/-- An update that the builder of its symbol takes at once. -/
def deliver {υ : Type*} (process : OrderBookBuilder → υ → OrderBookBuilder × List OrderBookData)
    (builders : Builders) (sent : String × υ) : Builders × List OrderBookData :=
  match builders sent.1 with
  | none   => (builders, [])
  | some b => (Function.update builders sent.1 (taskStep process b sent.2).1, (taskStep process b sent.2).2)

theorem length_deliver_le {υ : Type*} {process : OrderBookBuilder → υ → OrderBookBuilder × List OrderBookData}
    (h : ∀ b update, (process b update).2.length ≤ 1) (builders : Builders) (sent : String × υ) :
    (deliver process builders sent).2.length ≤ 1 := by
  unfold deliver
  split
  · exact Nat.zero_le 1
  · exact h _ _

/-- Asset type of a common symbol. -/
def assetTypeOf (context : Context) (exchange : String) (allSymbols : List (String × String))
    (commonSymbol : String) : String :=
  ((spawnBuilders context exchange allSymbols commonSymbol).map OrderBookBuilder.assetType).getD ""

/-- The book of a common symbol with given sides. -/
def bookOf (context : Context) (exchange : String) (allSymbols : List (String × String)) (commonSymbol : String)
    (timestamp : Nat) (bids asks : List (Int × Int)) : OrderBookData where
  exchange          := exchange
  symbol            := commonSymbol
  assetType         := assetTypeOf context exchange allSymbols commonSymbol
  bids              := bids
  asks              := asks
  pricePrecision    := context.feedConfig.getPricePrecision commonSymbol
  quantityPrecision := context.feedConfig.getQuantityPrecision commonSymbol
  timestamp         := timestamp
  timestampUnit     := context.feedConfig.timestampUnit

variable {context : Context} {exchange : String} {allSymbols : List (String × String)}

theorem spawnBuilders_snoc (symbol assetType : String) :
    spawnBuilders context exchange (allSymbols ++ [(symbol, assetType)]) =
      Function.update (spawnBuilders context exchange allSymbols) (context.commonSymbol exchange symbol)
        (some (.new exchange (context.commonSymbol exchange symbol) assetType)) := by
  rw [spawnBuilders, List.foldl_append]
  rfl

theorem spawnBuilders_some {c : String} {b : OrderBookBuilder}
    (h : spawnBuilders context exchange allSymbols c = some b) :
    b = .new exchange c (assetTypeOf context exchange allSymbols c) := by
  have hnew : b = .new exchange c b.assetType := by
    induction allSymbols using List.reverseRecOn with
    | nil => cases h
    | append_singleton allSymbols entry ih =>
        rw [spawnBuilders_snoc] at h
        by_cases hc : c = context.commonSymbol exchange entry.1
        · rw [hc, Function.update_self] at h
          rw [← Option.some.inj h, hc]
          rfl
        · rw [Function.update_of_ne hc] at h
          exact ih h
  rw [assetTypeOf, h]
  exact hnew

/-- A subscribed symbol has its builder. -/
theorem exists_spawned (context : Context) (exchange : String) {symbol : String}
    (h : symbol ∈ allSymbols.map Prod.fst) :
    ∃ b, spawnBuilders context exchange allSymbols (context.commonSymbol exchange symbol) = some b := by
  induction allSymbols using List.reverseRecOn with
  | nil => cases h
  | append_singleton allSymbols entry ih =>
      rw [spawnBuilders_snoc]
      by_cases hc : context.commonSymbol exchange symbol = context.commonSymbol exchange entry.1
      · rw [hc, Function.update_self]
        exact ⟨_, rfl⟩
      · rw [Function.update_of_ne hc]
        rw [List.map_append, List.mem_append] at h
        refine ih (h.resolve_right fun hlast => hc ?_)
        rw [List.mem_singleton.mp hlast]

/-! ## Writing to a sorted side -/

/-- To write into a sorted side and sort it again is to write into the ladder. -/
theorem sortLevels_writeAll {isBid : Bool} {levels : List (Int × Int)} (h : Sorted (better isBid) levels)
    (ops : List (Int × Option Int)) :
    sortLevels isBid (Assoc.writeAll levels ops) = replay (better isBid) levels ops := by
  rw [sortLevels, Assoc.insertionSort_writeAll (notWorse_iff isBid) h.nodup_keys,
    Assoc.insertionSort_of_sorted (notWorse_iff isBid) h]

end Crypto
end TradingPlatform
