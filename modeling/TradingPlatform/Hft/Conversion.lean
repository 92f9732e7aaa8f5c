import TradingPlatform.Hft.Meaning
import TradingPlatform.Hft.Registration
import TradingPlatform.Market.OrderBook

/-!
# `Hft.Conversion` — from prices to ticks and back

`convert_update` multiplies by the inverse of the tick size and truncates; `to_orderbook` multiplies by the tick
size. Levels that are whole numbers of ticks and of units of `1e-8` come back as they were, the first ten of each
side (`first_levels_kept`). The tick is guessed from the name of the symbol, and prices between two ticks are lost
(`prices_distinct_iff`).
-/

namespace TradingPlatform
namespace Hft

open Market Rust Ladder

def FastUpdate.levels (u : FastUpdate) : Side → List FastPriceLevel
  | .buy  => u.bidLevels
  | .sell => u.askLevels

namespace HFTOrderBookProcessor

/-! ## Reading a book back -/

/-- A level of a snapshot in numbers. -/
def asLevel (tickSize : ℚ) (level : FastPriceLevel) : PriceLevel where
  price    := level.priceTicks * tickSize
  quantity := level.quantity / 10 ^ 8

/-- Convert to market_types::OrderBook. -/
def FastOrderBookSnapshot.toOrderbook (snapshot : FastOrderBookSnapshot) (exchange : Exchange) : OrderBook :=
  { OrderBook.new snapshot.symbol exchange with
    bids         := snapshot.bids.map (asLevel snapshot.tickSize)
    asks         := snapshot.asks.map (asLevel snapshot.tickSize)
    lastUpdateId := snapshot.lastUpdateId }

/-- Whole numbers of ticks and of units. -/
def Multiple (tickSize : ℚ) (level : PriceLevel) : Prop :=
  (∃ n : Int, level.price = n * tickSize) ∧ ∃ m : Int, level.quantity = m / 10 ^ 8

/-- They are in the range of the fields, too. -/
def Representable (tickSize : ℚ) (level : PriceLevel) : Prop :=
  (∃ n : Int, InI64 n ∧ level.price = n * tickSize) ∧ ∃ m : Int, InI64 m ∧ level.quantity = m / 10 ^ 8

theorem inI64_asI64 (x : ℚ) : InI64 (asI64 x) := by
  unfold asI64 InI64
  omega

/-- **There and back**, for what can be represented. -/
theorem asLevel_convertLevel {tickSize : ℚ} (htick : tickSize ≠ 0) {level : PriceLevel}
    (h : Representable tickSize level) : asLevel tickSize (convertLevel tickSize level) = level := by
  obtain ⟨price, quantity⟩ := level
  obtain ⟨⟨n, hn, hprice⟩, m, hm, hquantity⟩ := h
  dsimp only at hprice hquantity
  subst hprice hquantity
  have hunits : (m : ℚ) / 10 ^ 8 * 10 ^ 8 = m := div_mul_cancel₀ _ (by norm_num)
  have hqty : (convertLevel tickSize ⟨n * tickSize, m / 10 ^ 8⟩).quantity = m := by
    show asI64 ((m : ℚ) / 10 ^ 8 * 10 ^ 8) = m
    rw [hunits, asI64_intCast hm]
  unfold asLevel
  rw [priceTicks_convertLevel htick hn, hqty]

/-- A price comes back exactly when it is a whole number of ticks in range. -/
theorem price_recovered_iff {tickSize : ℚ} (htick : tickSize ≠ 0) (level : PriceLevel) :
    ((convertLevel tickSize level).priceTicks : ℚ) * tickSize = level.price ↔
      ∃ n : Int, InI64 n ∧ level.price = n * tickSize := by
  constructor
  · intro h
    exact ⟨_, inI64_asI64 _, h.symm⟩
  · rintro ⟨n, hn, hprice⟩
    obtain ⟨price, quantity⟩ := level
    dsimp only at hprice
    subst hprice
    rw [priceTicks_convertLevel htick hn]

/-! ## The levels of one side in an empty book -/

/-- What a list of levels says: the last level of each price, if its quantity is not 0, best first. -/
structure ReadsBack (better : ℚ → ℚ → Prop) (levels listed : List PriceLevel) : Prop where
  sorted : listed.Pairwise fun a b => better a.price b.price
  mem    : ∀ level, level ∈ listed ↔ level.quantity ≠ 0 ∧
    ∃ before after, levels = before ++ level :: after ∧ ∀ l ∈ after, l.price ≠ level.price

section Side

variable {better : Int → Int → Prop} [DecidableRel better] [IsStrictTotalOrder Int better]

/-- Up to twenty levels leave nothing out. -/
theorem replayBounded_short {ls : List FastPriceLevel} (h : ls.length ≤ maxDepth) :
    replayBounded better maxDepth [] (ls.map levelOp) = replay better [] (ls.map levelOp) := by
  refine replayBounded_eq_replay fun j => ?_
  refine Nat.le_trans (length_le_of_keys (sorted_replay sorted_nil _) (ls.map FastPriceLevel.priceTicks) ?_) (by simpa)
  rintro ⟨p, q⟩ he
  obtain ⟨pre, post, hsplit, -⟩ := lastWrite_eq_some_iff.mp (mem_replay_nil.mp he)
  have hop : (p, some q) ∈ ls.map levelOp := List.mem_of_mem_take (i := j) (by rw [hsplit]; simp)
  obtain ⟨l, hl, hle⟩ := List.mem_map.mp hop
  exact List.mem_map.mpr ⟨l, hl, congrArg Prod.fst hle⟩

/-- The levels that are live are the last of their prices. -/
theorem mem_live_iff {ls live : List FastPriceLevel} (h : live.map entry = replay better [] (ls.map levelOp))
    {l : FastPriceLevel} : l ∈ live ↔ l.quantity ≠ 0 ∧
      ∃ pre post, ls = pre ++ l :: post ∧ ∀ l' ∈ post, l'.priceTicks ≠ l.priceTicks := by
  have hentry : l ∈ live ↔ entry l ∈ live.map entry :=
    (List.mem_map_of_injective fun _ _ heq => entry_injective heq).symm
  rw [hentry, h, entry, mem_replay_nil]
  constructor
  · exact lastWrite_levels
  · rintro ⟨hq, pre, post, rfl, hpost⟩
    refine lastWrite_eq_some_iff.mpr ⟨pre.map levelOp, post.map levelOp, ?_, ?_⟩
    · rw [List.map_append, List.map_cons, levelOp, if_neg hq]
    · intro op hop
      obtain ⟨l', hl', rfl⟩ := List.mem_map.mp hop
      exact hpost l' hl'

/-- **Levels there and back**: what is live lists the levels that were converted. -/
theorem lists_live {tickSize : ℚ} (htick : tickSize ≠ 0) {betterPrice : ℚ → ℚ → Prop}
    (hbetter : ∀ n m : Int, better n m → betterPrice (n * tickSize) (m * tickSize)) {levels : List PriceLevel}
    (hlevels : ∀ level ∈ levels, Representable tickSize level) {live : List FastPriceLevel}
    (h : live.map entry = replay better [] ((levels.map (convertLevel tickSize)).map levelOp)) :
    ReadsBack betterPrice levels (live.map (asLevel tickSize)) := by
  have hback : ∀ level ∈ levels, asLevel tickSize (convertLevel tickSize level) = level := fun level hlevel =>
    asLevel_convertLevel htick (hlevels level hlevel)
  have hprice : ∀ l l' : FastPriceLevel, l.priceTicks = l'.priceTicks →
      (asLevel tickSize l).price = (asLevel tickSize l').price := by
    intro l l' heq
    unfold asLevel
    rw [heq]
  refine ⟨?_, fun level => ?_⟩
  · have hsorted : Sorted better (live.map entry) := h ▸ sorted_replay sorted_nil _
    rw [List.pairwise_map]
    exact (pairwise_of_sorted hsorted).imp fun hab => hbetter _ _ hab
  · rw [List.mem_map]
    constructor
    · rintro ⟨l, hl, rfl⟩
      obtain ⟨hq, pre, post, hsplit, hpost⟩ := (mem_live_iff h).mp hl
      obtain ⟨before, rest, rfl, rfl, hrest⟩ := List.map_eq_append_iff.mp hsplit
      obtain ⟨level, after, rfl, rfl, rfl⟩ := List.map_eq_cons_iff.mp hrest
      have hmem : level ∈ before ++ level :: after := by simp
      rw [hback level hmem]
      refine ⟨fun hzero => hq ?_, before, after, rfl, fun level' hlevel' heq => ?_⟩
      · show asI64 (level.quantity * 10 ^ 8) = 0
        rw [hzero, zero_mul]
        exact asI64_intCast (by decide)
      · refine hpost _ (List.mem_map_of_mem hlevel') ?_
        show asI64 (level'.price * (1 / tickSize)) = asI64 (level.price * (1 / tickSize))
        rw [heq]
    · rintro ⟨hq, before, after, hsplit, hafter⟩
      have hmem : level ∈ levels := hsplit ▸ by simp
      refine ⟨convertLevel tickSize level, (mem_live_iff h).mpr ⟨fun hzero => hq ?_, before.map (convertLevel tickSize),
        after.map (convertLevel tickSize), ?_, ?_⟩, hback level hmem⟩
      · have hquantity := congrArg PriceLevel.quantity (hback level hmem)
        unfold asLevel at hquantity
        rw [← hquantity, hzero, Int.cast_zero, zero_div]
      · rw [hsplit, List.map_append, List.map_cons]
      · intro l' hl' heq
        obtain ⟨level', hlevel', rfl⟩ := List.mem_map.mp hl'
        have hsame := hprice _ _ heq
        rw [hback level hmem, hback level' (by rw [hsplit]; simp [hlevel'])] at hsame
        exact hafter level' hlevel' hsame

end Side

/-! ## An update in an empty book -/

/-- An empty book lists what it was given. -/
theorem live_new (symbolId : Nat) {u : FastUpdate} (hfresh : 0 < u.updateId) :
    ((FastOrderBook.new symbolId).applyUpdate u).liveBids.map entry
        = replay bidBetter [] (u.bidLevels.map levelOp) ∧
    ((FastOrderBook.new symbolId).applyUpdate u).liveAsks.map entry
        = replay askBetter [] (u.askLevels.map levelOp) := by
  have hnew := FastOrderBook.new_fits symbolId
  have hfits := FastOrderBook.applyUpdate_fits hnew u
  constructor
  · rw [← hfits.bidEntries_eq, FastOrderBook.bidEntries_applyUpdate hnew hfresh]
    exact replayBounded_short (Nat.le_trans (length_bidLevels_le u) (by decide))
  · rw [← hfits.askEntries_eq, FastOrderBook.askEntries_applyUpdate hnew hfresh]
    exact replayBounded_short (Nat.le_trans (length_askLevels_le u) (by decide))

theorem length_live_le {book : FastOrderBook} (h : book.Fits) :
    book.liveBids.length ≤ maxDepth ∧ book.liveAsks.length ≤ maxDepth :=
  ⟨Nat.le_trans (List.length_take_le _ _) h.bid, Nat.le_trans (List.length_take_le _ _) h.ask⟩

/-- The processor with a book under an id. -/
def withBook (p : HFTOrderBookProcessor) (symbolId : Nat) (book : FastOrderBook) : HFTOrderBookProcessor :=
  { p with orderbooks := Function.update p.orderbooks symbolId book }

/-- The converted update carries these levels, and an empty book that applies it reads back as their listing, the
    twenty best of each side. -/
def Kept (p : HFTOrderBookProcessor) (update : OrderBookUpdate) (symbolId : Nat) (tickSize : ℚ)
    (kept : Side → List PriceLevel) : Prop :=
  ∃ fast, p.convertUpdate update = .ok (some fast) ∧
    (∀ side, (fast.levels side).map (asLevel tickSize) = kept side) ∧
    ∀ exchange, ∃ snapshot,
      (p.withBook symbolId ((FastOrderBook.new symbolId).applyUpdate fast)).getOrderbook update.symbol
        = .ok (some snapshot) ∧
      ∀ side, ∃ listed, ReadsBack side.better (kept side) listed ∧
        (snapshot.toOrderbook exchange).side side = listed.take maxDepth

/-- The symbol is registered under this id with this tick size. -/
structure Known (p : HFTOrderBookProcessor) (symbol : String) (symbolId : Nat) (tickSize : ℚ) : Prop where
  entered  : p.symbolToId symbol = some symbolId
  tick     : p.tickSizes[symbolId]? = some tickSize
  positive : 0 < tickSize

/-- The update that is made for a known symbol, by its levels. -/
theorem convertUpdate_known {p : HFTOrderBookProcessor} {update : OrderBookUpdate} {symbolId : Nat} {tickSize : ℚ}
    (h : Known p update.symbol symbolId tickSize) : ∃ fast, p.convertUpdate update = .ok (some fast) ∧
      fast.updateId = update.updateId ∧
      ∀ side, fast.levels side = ((update.side side).take maxUpdateLevels).map (convertLevel tickSize) := by
  refine ⟨_, convertUpdate_registered h.entered h.tick, rfl, fun side => ?_⟩
  cases side with
  | buy =>
      show FastUpdate.bidLevels _ = _
      rw [bidLevels_ofLevels, List.map_take]
      rfl
  | sell =>
      show FastUpdate.askLevels _ = _
      rw [askLevels_ofLevels, List.map_take]
      rfl

/-- What is read back of a book, by its live levels. -/
theorem getOrderbook_withBook {p : HFTOrderBookProcessor} {symbol : String} {symbolId : Nat} {tickSize : ℚ}
    (h : Known p symbol symbolId tickSize) (book : FastOrderBook) (exchange : Exchange) :
    ∃ snapshot, (p.withBook symbolId book).getOrderbook symbol = .ok (some snapshot) ∧
      (snapshot.toOrderbook exchange).bids = book.liveBids.map (asLevel tickSize) ∧
      (snapshot.toOrderbook exchange).asks = book.liveAsks.map (asLevel tickSize) := by
  have hid : (p.withBook symbolId book).symbolToId symbol = some symbolId := h.entered
  have htick : (p.withBook symbolId book).tickSizes[symbolId]? = some tickSize := h.tick
  have hbook : (p.withBook symbolId book).orderbooks symbolId = book := Function.update_self ..
  unfold getOrderbook
  rw [hid]
  dsimp only
  rw [htick, hbook]
  exact ⟨_, rfl, rfl, rfl⟩

/-- **The first ten levels of each side are kept**, whole and in the book, and all levels are exactly when no side
    has more. -/
theorem first_levels_kept {p : HFTOrderBookProcessor} {update : OrderBookUpdate} {symbolId : Nat} {tickSize : ℚ}
    (hknown : Known p update.symbol symbolId tickSize) (hfresh : 0 < update.updateId)
    (hlevels : ∀ side, ∀ level ∈ update.side side, Representable tickSize level) :
    Kept p update symbolId tickSize (fun side => (update.side side).take maxUpdateLevels) ∧
    (Kept p update symbolId tickSize update.side ↔ ∀ side, (update.side side).length ≤ maxUpdateLevels) := by
  obtain ⟨fast, hfast, hid, hcarried⟩ := convertUpdate_known hknown
  have htick : tickSize ≠ 0 := ne_of_gt hknown.positive
  have hback : ∀ side, (fast.levels side).map (asLevel tickSize) = (update.side side).take maxUpdateLevels := by
    intro side
    rw [hcarried, List.map_map]
    refine (List.map_congr_left fun level hlevel => ?_).trans (List.map_id _)
    exact asLevel_convertLevel htick (hlevels side level (List.mem_of_mem_take hlevel))
  have hkept : Kept p update symbolId tickSize fun side => (update.side side).take maxUpdateLevels := by
    refine ⟨fast, hfast, hback, fun exchange => ?_⟩
    obtain ⟨hbids, hasks⟩ := live_new symbolId (hid.symm ▸ hfresh : 0 < fast.updateId)
    obtain ⟨snapshot, hsnapshot, hreadBids, hreadAsks⟩ :=
      getOrderbook_withBook hknown ((FastOrderBook.new symbolId).applyUpdate fast) exchange
    refine ⟨snapshot, hsnapshot, fun side => ⟨(snapshot.toOrderbook exchange).side side, ?_, ?_⟩⟩
    · have hshort : ∀ level ∈ (update.side side).take maxUpdateLevels, Representable tickSize level :=
        fun level hlevel => hlevels side level (List.mem_of_mem_take hlevel)
      have hside := hcarried side
      cases side with
      | buy =>
          rw [show fast.bidLevels = _ from hside] at hbids
          rw [show (snapshot.toOrderbook exchange).side .buy = _ from hreadBids]
          refine lists_live htick (fun n m hnm => ?_) hshort hbids
          exact mul_lt_mul_of_pos_right (by exact_mod_cast hnm) hknown.positive
      | sell =>
          rw [show fast.askLevels = _ from hside] at hasks
          rw [show (snapshot.toOrderbook exchange).side .sell = _ from hreadAsks]
          refine lists_live htick (fun n m hnm => ?_) hshort hasks
          exact mul_lt_mul_of_pos_right (by exact_mod_cast hnm) hknown.positive
    · refine (List.take_of_length_le ?_).symm
      have hlength := length_live_le (FastOrderBook.applyUpdate_fits (FastOrderBook.new_fits symbolId) fast)
      cases side with
      | buy =>
          rw [show (snapshot.toOrderbook exchange).side .buy = _ from hreadBids, List.length_map]
          exact hlength.1
      | sell =>
          rw [show (snapshot.toOrderbook exchange).side .sell = _ from hreadAsks, List.length_map]
          exact hlength.2
  refine ⟨hkept, ?_, fun hshort => ?_⟩
  · rintro ⟨fast', hfast', hall, -⟩ side
    rw [hfast] at hfast'
    obtain rfl := Option.some.inj (Except.ok.inj hfast')
    rw [← hall side, hback side]
    exact List.length_take_le _ _
  · have hsame : (fun side => (update.side side).take maxUpdateLevels) = update.side :=
      funext fun side => List.take_of_length_le (hshort side)
    rw [← hsame]
    exact hkept

/-! One registered symbol, with a tick of a cent, and updates with bids only. -/

def btc : HFTOrderBookProcessor := (new.registerSymbol "BTC-USDT" (1 / 100)).1

theorem known_btc : Known btc "BTC-USDT" 0 (1 / 100) :=
  ⟨by decide +kernel, by decide +kernel, by norm_num⟩

def bidsOf (updateId : Nat) (bids : List PriceLevel) : OrderBookUpdate :=
  { exchange := .binance, symbol := "BTC-USDT", timestamp := 0, bids, asks := [], isSnapshot := false, updateId
    firstUpdateId := updateId, prevUpdateId := none }

/-- A level of whole units. -/
def wholeLevel (price quantity : Int) : PriceLevel := { price, quantity }

theorem multiple_wholeLevel (price quantity : Int) : Multiple (1 / 100) (wholeLevel price quantity) := by
  refine ⟨⟨price * 100, ?_⟩, quantity * 10 ^ 8, ?_⟩
  · show (price : ℚ) = _
    push_cast
    ring
  · show (quantity : ℚ) = _
    push_cast
    ring

theorem first_levels_kept_btc :
    Kept btc (bidsOf 1 [wholeLevel 95000 1, wholeLevel 94999 2]) 0 (1 / 100)
      (fun side => ((bidsOf 1 [wholeLevel 95000 1, wholeLevel 94999 2]).side side).take maxUpdateLevels) ∧
    (Kept btc (bidsOf 1 [wholeLevel 95000 1, wholeLevel 94999 2]) 0 (1 / 100)
        (bidsOf 1 [wholeLevel 95000 1, wholeLevel 94999 2]).side ↔
      ∀ side, ((bidsOf 1 [wholeLevel 95000 1, wholeLevel 94999 2]).side side).length ≤ maxUpdateLevels) := by
  refine first_levels_kept known_btc (by decide) fun side level hlevel => ?_
  cases side with
  | sell => cases hlevel
  | buy =>
      have hcases : level = wholeLevel 95000 1 ∨ level = wholeLevel 94999 2 := by
        simpa [bidsOf, OrderBookUpdate.side] using hlevel
      rcases hcases with rfl | rfl
      · exact ⟨⟨9500000, by decide, by decide +kernel⟩, 100000000, by decide, by decide +kernel⟩
      · exact ⟨⟨9499900, by decide, by decide +kernel⟩, 200000000, by decide, by decide +kernel⟩

def elevenBids : List PriceLevel := (List.range 11).map fun i => wholeLevel (95000 - i) 1

/-- The eleventh bid is left out. An update numbered 0 is old news to an empty book, and a price past the range of
    the ticks is cut. -/
theorem not_every_level_kept :
    (∀ bids ∈ [elevenBids, [wholeLevel 95000 1], [wholeLevel (10 ^ 17) 1]], ∀ level ∈ bids, Multiple (1 / 100) level) ∧
    ¬ Kept btc (bidsOf 1 elevenBids) 0 (1 / 100) (bidsOf 1 elevenBids).side ∧
    ¬ Kept btc (bidsOf 0 [wholeLevel 95000 1]) 0 (1 / 100) (bidsOf 0 [wholeLevel 95000 1]).side ∧
    ¬ Kept btc (bidsOf 1 [wholeLevel (10 ^ 17) 1]) 0 (1 / 100) (bidsOf 1 [wholeLevel (10 ^ 17) 1]).side := by
  refine ⟨?_, ?_, ?_, ?_⟩
  · intro bids hbids level hlevel
    have hwhole : ∃ price quantity, level = wholeLevel price quantity := by
      simp only [List.mem_cons, List.not_mem_nil, or_false] at hbids
      rcases hbids with rfl | rfl | rfl
      · obtain ⟨i, -, rfl⟩ := List.mem_map.mp hlevel
        exact ⟨_, _, rfl⟩
      · exact ⟨_, _, List.mem_singleton.mp hlevel⟩
      · exact ⟨_, _, List.mem_singleton.mp hlevel⟩
    obtain ⟨price, quantity, rfl⟩ := hwhole
    exact multiple_wholeLevel price quantity
  · rintro ⟨fast, -, hall, -⟩
    have hlength := congrArg List.length (hall .buy)
    have hle := length_bidLevels_le fast
    rw [List.length_map, show fast.levels .buy = fast.bidLevels from rfl] at hlength
    rw [hlength] at hle
    exact absurd hle (by decide)
  · rintro ⟨fast, hfast, -, hread⟩
    obtain ⟨fast', hfast', hid, -⟩ := @convertUpdate_known _ (bidsOf 0 [wholeLevel 95000 1]) _ _ known_btc
    obtain rfl := Option.some.inj (Except.ok.inj (hfast.symm.trans hfast'))
    have hold : (FastOrderBook.new 0).applyUpdate fast = FastOrderBook.new 0 :=
      FastOrderBook.applyUpdate_stale (Nat.le_of_eq hid)
    obtain ⟨snapshot, hsnapshot, hsides⟩ := hread .binance
    obtain ⟨snapshot', hsnapshot', hbids, -⟩ :=
      getOrderbook_withBook known_btc ((FastOrderBook.new 0).applyUpdate fast) .binance
    obtain rfl := Option.some.inj (Except.ok.inj (hsnapshot.symm.trans hsnapshot'))
    obtain ⟨listed, hlisted, hempty⟩ := hsides .buy
    rw [show (snapshot.toOrderbook .binance).side .buy = _ from hbids, hold] at hempty
    have hnil : listed = [] := by
      cases listed with
      | nil => rfl
      | cons level listed => cases hempty
    have hmem := (hlisted.mem (wholeLevel 95000 1)).mpr ⟨by decide +kernel, [], [], rfl, by simp⟩
    rw [hnil] at hmem
    cases hmem
  · rintro ⟨fast, hfast, hall, -⟩
    obtain ⟨fast', hfast', -, hlevels⟩ := @convertUpdate_known _ (bidsOf 1 [wholeLevel (10 ^ 17) 1]) _ _ known_btc
    obtain rfl := Option.some.inj (Except.ok.inj (hfast.symm.trans hfast'))
    have hprice := hall .buy
    rw [hlevels] at hprice
    revert hprice
    decide +kernel

/-! ## Prices between ticks -/

end HFTOrderBookProcessor

def FastOrderBook.live (b : FastOrderBook) : Side → List FastPriceLevel
  | .buy  => b.liveBids
  | .sell => b.liveAsks

namespace HFTOrderBookProcessor

/-- The levels of one side that were converted: their ticks are distinct and give the prices back, and none takes the
    place of another in an empty book that applies the update. -/
structure KeptApart (applied : Prop) (tickSize : ℚ) (levels : List PriceLevel) (carried live : List FastPriceLevel) :
    Prop where
  apart     : (carried.map FastPriceLevel.priceTicks).Nodup
  recovered : carried.map (fun l => (l.priceTicks : ℚ) * tickSize) = levels.map PriceLevel.price
  unmerged  : applied → ∀ l ∈ carried, l.quantity ≠ 0 → l ∈ live

/-- Levels at distinct ticks are all live in the end. -/
theorem mem_live_of_apart {better : Int → Int → Prop} [DecidableRel better] [IsStrictTotalOrder Int better]
    {ls live : List FastPriceLevel} (h : live.map entry = replay better [] (ls.map levelOp))
    (hapart : (ls.map FastPriceLevel.priceTicks).Nodup) {l : FastPriceLevel} (hl : l ∈ ls) (hq : l.quantity ≠ 0) :
    l ∈ live := by
  obtain ⟨pre, post, rfl⟩ := List.append_of_mem hl
  refine (mem_live_iff h).mpr ⟨hq, pre, post, rfl, fun l' hl' heq => ?_⟩
  rw [List.map_append, List.map_cons, List.nodup_append, List.nodup_cons] at hapart
  exact hapart.2.1.1 (List.mem_map.mpr ⟨l', hl', heq⟩)

/-- Converted levels keep apart when every price is a whole number of ticks. -/
theorem keptApart_iff {applied : Prop} {tickSize : ℚ} (htick : tickSize ≠ 0) {levels : List PriceLevel}
    (hdistinct : (levels.map PriceLevel.price).Nodup) {live : List FastPriceLevel}
    (hlive : applied → ((levels.map (convertLevel tickSize)).map FastPriceLevel.priceTicks).Nodup →
      ∀ l ∈ levels.map (convertLevel tickSize), l.quantity ≠ 0 → l ∈ live) :
    KeptApart applied tickSize levels (levels.map (convertLevel tickSize)) live ↔
      ∀ level ∈ levels, ∃ n : Int, InI64 n ∧ level.price = n * tickSize := by
  have hrecovered : (levels.map (convertLevel tickSize)).map (fun l => (l.priceTicks : ℚ) * tickSize)
        = levels.map PriceLevel.price ↔ ∀ level ∈ levels, ∃ n : Int, InI64 n ∧ level.price = n * tickSize := by
    rw [List.map_map, List.map_inj_left]
    exact forall₂_congr fun level _ => price_recovered_iff htick level
  rw [← hrecovered]
  constructor
  · exact fun h => h.recovered
  · intro h
    -- equal ticks would give equal prices
    have hapart : ((levels.map (convertLevel tickSize)).map FastPriceLevel.priceTicks).Nodup := by
      rw [← h] at hdistinct
      refine List.Nodup.of_map (fun n : Int => (n : ℚ) * tickSize) ?_
      rw [List.map_map]
      exact hdistinct
    exact ⟨hapart, h, fun happlied => hlive happlied hapart⟩

/-- **Distinct prices stay distinct levels** exactly when every price that is converted is a whole number of the
    ticks its symbol is registered with. -/
theorem prices_distinct_iff {symbols : List String} {p : HFTOrderBookProcessor}
    (hp : registerSymbols .new symbols = (p, .ok ())) {update : OrderBookUpdate} {symbolId : Nat}
    (hid : p.symbolToId update.symbol = some symbolId)
    (hdistinct : ∀ side, ((update.side side).map PriceLevel.price).Nodup) :
    ∃ fast, p.convertUpdate update = .ok (some fast) ∧
      ((∀ side, KeptApart (0 < update.updateId) (tickSizeFor update.symbol)
          ((update.side side).take maxUpdateLevels) (fast.levels side)
          (((FastOrderBook.new symbolId).applyUpdate fast).live side)) ↔
        ∀ side, ∀ level ∈ (update.side side).take maxUpdateLevels,
          ∃ n : Int, InI64 n ∧ level.price = n * tickSizeFor update.symbol) := by
  obtain ⟨hused, htick⟩ := (registry_new.registerSymbols hp).ids _ _ hid
  have hpositive := tickSizeFor_pos update.symbol
  obtain ⟨fast, hfast, hupdate, hcarried⟩ := convertUpdate_known ⟨hid, htick, hpositive⟩
  refine ⟨fast, hfast, forall_congr' fun side => ?_⟩
  rw [hcarried side]
  refine keptApart_iff (ne_of_gt hpositive) ((hdistinct side).sublist ((List.take_sublist ..).map _)) ?_
  have hside := hcarried side
  rw [← hside]
  intro hfresh hapart l hl hq
  obtain ⟨hbids, hasks⟩ := live_new symbolId (hupdate.symm ▸ hfresh : 0 < fast.updateId)
  cases side with
  | buy => exact mem_live_of_apart hbids hapart hl hq
  | sell => exact mem_live_of_apart hasks hapart hl hq

/-- Two bids of a symbol with the tick that is left for the rest. -/
def dogeBids (price price' : ℚ) : OrderBookUpdate :=
  { exchange := .binance, symbol := "DOGE-USDT", timestamp := 0, bids := [⟨price, 1⟩, ⟨price', 2⟩], asks := []
    isSnapshot := false, updateId := 1, firstUpdateId := 1, prevUpdateId := none }

theorem registered_doge : ∃ p symbolId, registerSymbols .new ["DOGE-USDT"] = (p, .ok ()) ∧
    p.symbolToId "DOGE-USDT" = some symbolId := by
  obtain ⟨p, heq, -, -, hall, -, -⟩ := registerSymbols_room registry_new
    (show new.idToSymbol.length + ["DOGE-USDT"].length ≤ maxSymbols by decide)
  obtain ⟨symbolId, hid⟩ := hall "DOGE-USDT" List.mem_cons_self
  exact ⟨p, symbolId, heq, hid⟩

theorem nodup_dogeBids {price price' : ℚ} (hne : price ≠ price') (side : Side) :
    (((dogeBids price price').side side).map PriceLevel.price).Nodup := by
  cases side with
  | buy => simpa [dogeBids, OrderBookUpdate.side] using hne
  | sell => exact List.nodup_nil

/-- Prices of four decimals keep apart. -/
theorem prices_distinct_iff_doge : ∃ p symbolId, registerSymbols .new ["DOGE-USDT"] = (p, .ok ()) ∧
    ∃ fast, p.convertUpdate (dogeBids 0.1235 0.1234) = .ok (some fast) ∧
      ((∀ side, KeptApart (0 < 1) (tickSizeFor "DOGE-USDT")
          (((dogeBids 0.1235 0.1234).side side).take maxUpdateLevels) (fast.levels side)
          (((FastOrderBook.new symbolId).applyUpdate fast).live side)) ↔
        ∀ side, ∀ level ∈ ((dogeBids 0.1235 0.1234).side side).take maxUpdateLevels,
          ∃ n : Int, InI64 n ∧ level.price = n * tickSizeFor "DOGE-USDT") := by
  obtain ⟨p, symbolId, hp, hid⟩ := registered_doge
  exact ⟨p, symbolId, hp, @prices_distinct_iff _ p hp (dogeBids 0.1235 0.1234) symbolId hid
    (nodup_dogeBids (by norm_num))⟩

/-- 0.12345 and 0.12341 are one price. -/
theorem not_prices_distinct : ¬ ∀ (symbols : List String) (p : HFTOrderBookProcessor) (update : OrderBookUpdate)
    (symbolId : Nat) (fast : FastUpdate), registerSymbols .new symbols = (p, .ok ()) →
    p.symbolToId update.symbol = some symbolId →
    (∀ side, ((update.side side).map PriceLevel.price).Nodup) →
    (∀ side, ∀ level ∈ update.side side, ∃ k : Nat, 0 < k ∧ level.price = k / 10 ^ 8) →
    p.convertUpdate update = .ok (some fast) →
    ∀ side, KeptApart (0 < update.updateId) (tickSizeFor update.symbol)
      ((update.side side).take maxUpdateLevels) (fast.levels side)
      (((FastOrderBook.new symbolId).applyUpdate fast).live side) := by
  intro h
  obtain ⟨p, symbolId, hp, hid⟩ := registered_doge
  obtain ⟨hused, htick⟩ := (registry_new.registerSymbols hp).ids _ _ hid
  obtain ⟨fast, hfast, -, hcarried⟩ :=
    @convertUpdate_known p (dogeBids 0.12345 0.12341) symbolId _ ⟨hid, htick, tickSizeFor_pos _⟩
  have hdecimal : ∀ side, ∀ level ∈ (dogeBids 0.12345 0.12341).side side,
      ∃ k : Nat, 0 < k ∧ level.price = k / 10 ^ 8 := by
    intro side level hlevel
    cases side with
    | sell => cases hlevel
    | buy =>
        have hcases : level = ⟨0.12345, 1⟩ ∨ level = ⟨0.12341, 2⟩ := by
          simpa [dogeBids, OrderBookUpdate.side] using hlevel
        rcases hcases with rfl | rfl
        · exact ⟨12345000, by decide, by norm_num⟩
        · exact ⟨12341000, by decide, by norm_num⟩
  have hkept := (h _ p (dogeBids 0.12345 0.12341) symbolId fast hp hid
    (nodup_dogeBids (by norm_num)) hdecimal hfast .buy).apart
  rw [hcarried] at hkept
  revert hkept
  decide +kernel

end HFTOrderBookProcessor
end Hft
end TradingPlatform
