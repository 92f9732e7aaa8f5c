import TradingPlatform.Engine.Levels
import TradingPlatform.Features.History
import Mathlib.Algebra.Order.BigOperators.Group.List
import Mathlib.Algebra.BigOperators.Ring.List
import Mathlib.Data.Finset.Max

/-!
# `Features.Ranges` — no feature divides by zero, and the ratios stay in range

Division by zero is 0 in the calculator's definitions, so each function that divides is written a second time with
the divisor checked. On the books of the engine, whose levels are positive, the checks never fail: every guard before
a division, and the engine's invariant where there is none, implies that the divisor is positive.
-/

namespace TradingPlatform
namespace Features

open Market Engine

/-! ## The order flow -/

/-- The quantities of the additions of one direction since the cutoff; the other events are skipped. -/
def addsOf (side : Side) (cutoff : Int) (events : List OrderEvent) : List ℚ :=
  events.filterMap fun
    | .add _ s _ quantity timestamp => if timestamp < cutoff then none else if s = side then some quantity else none
    | .modify _ _ _                 => none
    | .cancel _ _                   => none
    | .execute _ _ _                => none

/-- `calc_ofi` -/
def FeatureCalculator.calcOfi (events : List OrderEvent) (lookbackMs : Int) : Option ℚ := do
  let latest ← events.getLast?
  let cutoff := OrderEventHistory.eventTimestamp latest - lookbackMs * 1000
  imbalance (addsOf .buy cutoff events).sum (addsOf .sell cutoff events).sum

/-- An event of a positive quantity, where it has one. -/
def PositiveEvent : OrderEvent → Prop
  | .add _ _ _ quantity _         => 0 < quantity
  | .modify _ newQuantity _       => 0 < newQuantity
  | .cancel _ _                   => True
  | .execute _ executedQuantity _ => 0 < executedQuantity

/-! ## The calculator with its divisors checked -/

inductive Fault where
  | divisionByZero
deriving DecidableEq, Repr

namespace Checked

def div (a b : ℚ) : Except Fault ℚ := if b = 0 then .error .divisionByZero else .ok (a / b)

def midPrice (book : OrderBook) : Except Fault (Option ℚ) :=
  match book.bestBid, book.bestAsk with
  | some bid, some ask => some <$> div (bid.price + ask.price) 2
  | _, _               => .ok none

def wap (book : OrderBook) (depthBps : ℚ) : Except Fault (Option ℚ) := do
  match ← midPrice book with
  | none     => return none
  | some mid =>
      let depthThreshold ← div (mid * depthBps) 10000
      let levels := book.bidsWithin mid depthThreshold ++ book.asksWithin mid depthThreshold
      let totalValue := (levels.map fun l => l.price * l.quantity).sum
      let totalVolume := (levels.map PriceLevel.quantity).sum
      if totalVolume > 0 then some <$> div totalValue totalVolume else return none

def calcOrderBookImbalance (book : OrderBook) : Except Fault (Option ℚ) :=
  match book.bids.head?, book.asks.head? with
  | some bid, some ask => some <$> div (bid.quantity - ask.quantity) (bid.quantity + ask.quantity)
  | _, _               => .ok none

def calcVolumeAtDepth (book : OrderBook) (depthBps : ℚ) : Except Fault (ℚ × ℚ) := do
  match ← midPrice book with
  | none     => return (0, 0)
  | some mid =>
      let threshold ← div (mid * depthBps) 10000
      return (((book.bidsWithin mid threshold).map PriceLevel.quantity).sum,
        ((book.asksWithin mid threshold).map PriceLevel.quantity).sum)

def imbalance (a b : ℚ) : Except Fault (Option ℚ) :=
  if a + b > 0 then some <$> div (a - b) (a + b) else .ok none

def calcLiquidityImbalance (book : OrderBook) (depthBps : ℚ) : Except Fault (Option ℚ) := do
  match ← midPrice book with
  | none   => return none
  | some _ =>
      let (bidLiquidity, askLiquidity) ← calcVolumeAtDepth book depthBps
      imbalance bidLiquidity askLiquidity

def calcQueueImbalance (book : OrderBook) : Except Fault (Option ℚ) := imbalance book.bids.length book.asks.length

def calcTickFlowImbalance (h : TradeHistory) (lookbackMs : Int) : Except Fault (Option ℚ) :=
  imbalance (FeatureCalculator.tradesOf .buy h lookbackMs).length
    (FeatureCalculator.tradesOf .sell h lookbackMs).length

def calcTradeFlowImbalance (h : TradeHistory) (lookbackMs : Int) : Except Fault (Option ℚ) :=
  imbalance ((FeatureCalculator.tradesOf .buy h lookbackMs).map Trade.quantity).sum
    ((FeatureCalculator.tradesOf .sell h lookbackMs).map Trade.quantity).sum

def calcOfi (events : List OrderEvent) (lookbackMs : Int) : Except Fault (Option ℚ) :=
  match events.getLast? with
  | none        => .ok none
  | some latest =>
      let cutoff := OrderEventHistory.eventTimestamp latest - lookbackMs * 1000
      imbalance (addsOf .buy cutoff events).sum (addsOf .sell cutoff events).sum

/-- `spread.and_then(|s| mid_price().map(|mid| s / mid * 10000.0))` -/
def spreadBps (book : OrderBook) : Except Fault (Option ℚ) := do
  match book.spread with
  | none   => return none
  | some s =>
      match ← midPrice book with
      | none     => return none
      | some mid => return some ((← div s mid) * 10000)

/-- `get_book_at(offset).and_then(|b| b.wap(10.0))` -/
def wapAt (h : OrderBookHistory) (timestampOffsetMs : Int) : Except Fault (Option ℚ) :=
  match h.getBookAt timestampOffsetMs with
  | none      => .ok none
  | some book => wap book 10

def calculateFeatures (c : FeatureCalculator) (symbol : String) (exchange : Exchange) :
    Except Fault (Option MarketFeatures) :=
  match c.bookHistory.latest with
  | none             => .ok none
  | some currentBook => do
      let wap0ms ← wap currentBook 10
      let wap100ms ← wapAt c.bookHistory 100
      let wap200ms ← wapAt c.bookHistory 200
      let wap300ms ← wapAt c.bookHistory 300
      let orderBookImbalance ← calcOrderBookImbalance currentBook
      let liquidityImbalance ← calcLiquidityImbalance currentBook 10
      let queueImbalance ← calcQueueImbalance currentBook
      let tickFlowImbalance ← calcTickFlowImbalance c.tradeHistory 1000
      let tradeFlowImbalance ← calcTradeFlowImbalance c.tradeHistory 1000
      let spreadBps ← spreadBps currentBook
      let (bidVolume10bps, askVolume10bps) ← calcVolumeAtDepth currentBook 10
      let (bidVolume20bps, askVolume20bps) ← calcVolumeAtDepth currentBook 20
      return some
        { timestamp          := currentBook.timestamp
          symbol             := symbol
          exchange           := exchange
          wap0ms             := wap0ms
          wap100ms           := wap100ms
          wap200ms           := wap200ms
          wap300ms           := wap300ms
          orderFlowImbalance := none
          orderBookImbalance := orderBookImbalance
          liquidityImbalance := liquidityImbalance
          queueImbalance     := queueImbalance
          tickFlowImbalance  := tickFlowImbalance
          tradeFlowImbalance := tradeFlowImbalance
          spread             := currentBook.spread
          spreadBps          := spreadBps
          bidVolume10bps     := some bidVolume10bps
          askVolume10bps     := some askVolume10bps
          bidVolume20bps     := some bidVolume20bps
          askVolume20bps     := some askVolume20bps }

/-! ## The checks pass -/

theorem ok_bind {α β : Type} (a : α) (f : α → Except Fault β) : (Except.ok a >>= f) = f a := rfl

theorem div_eq {a b : ℚ} (h : b ≠ 0) : div a b = .ok (a / b) := if_neg h

theorem midPrice_eq (book : OrderBook) : midPrice book = .ok book.midPrice := by
  unfold midPrice OrderBook.midPrice
  cases book.bestBid with
  | none => rfl
  | some bid =>
      cases book.bestAsk with
      | none => rfl
      | some ask =>
          dsimp only
          rw [div_eq two_ne_zero]
          rfl

theorem wap_eq (book : OrderBook) (depthBps : ℚ) : wap book depthBps = .ok (book.wap depthBps) := by
  unfold wap OrderBook.wap
  rw [midPrice_eq, ok_bind]
  cases book.midPrice with
  | none => rfl
  | some mid =>
      dsimp only [Option.bind_eq_bind, Option.bind_some]
      rw [div_eq (by norm_num), ok_bind]
      split_ifs with hvolume
      · rw [div_eq (ne_of_gt hvolume)]
        rfl
      · rfl

theorem calcVolumeAtDepth_eq (book : OrderBook) (depthBps : ℚ) :
    calcVolumeAtDepth book depthBps = .ok (FeatureCalculator.calcVolumeAtDepth book depthBps) := by
  unfold calcVolumeAtDepth FeatureCalculator.calcVolumeAtDepth
  rw [midPrice_eq, ok_bind]
  cases book.midPrice with
  | none => rfl
  | some mid =>
      dsimp only
      rw [div_eq (by norm_num)]
      rfl

/-- The guard of an imbalance implies that it divides by something positive. -/
theorem imbalance_eq (a b : ℚ) : imbalance a b = .ok (FeatureCalculator.imbalance a b) := by
  unfold imbalance FeatureCalculator.imbalance
  split_ifs with htotal
  · rw [div_eq (ne_of_gt htotal)]
    rfl
  · rfl

theorem calcLiquidityImbalance_eq (book : OrderBook) (depthBps : ℚ) :
    calcLiquidityImbalance book depthBps = .ok (FeatureCalculator.calcLiquidityImbalance book depthBps) := by
  unfold calcLiquidityImbalance FeatureCalculator.calcLiquidityImbalance
  rw [midPrice_eq, calcVolumeAtDepth_eq]
  cases book.midPrice with
  | none => rfl
  | some mid => exact imbalance_eq _ _

theorem calcOfi_eq (events : List OrderEvent) (lookbackMs : Int) :
    calcOfi events lookbackMs = .ok (FeatureCalculator.calcOfi events lookbackMs) := by
  unfold calcOfi FeatureCalculator.calcOfi
  cases events.getLast? with
  | none => rfl
  | some latest => exact imbalance_eq _ _

theorem wapAt_eq (h : OrderBookHistory) (timestampOffsetMs : Int) :
    wapAt h timestampOffsetMs = .ok ((h.getBookAt timestampOffsetMs).bind (·.wap 10)) := by
  unfold wapAt
  cases h.getBookAt timestampOffsetMs with
  | none => rfl
  | some book => exact wap_eq book 10

section Positive

variable {book : OrderBook} (h : PositiveBook book)

include h

/-- No guard stands before this division: both quantities are positive. -/
theorem calcOrderBookImbalance_eq :
    calcOrderBookImbalance book = .ok (FeatureCalculator.calcOrderBookImbalance book) := by
  unfold calcOrderBookImbalance FeatureCalculator.calcOrderBookImbalance
  cases hbid : book.bids.head? with
  | none => rfl
  | some bid =>
      cases hask : book.asks.head? with
      | none => rfl
      | some ask =>
          have hb : 0 < bid.quantity := (h .buy bid (List.mem_of_mem_head? hbid)).quantity
          have ha : 0 < ask.quantity := (h .sell ask (List.mem_of_mem_head? hask)).quantity
          dsimp only
          rw [div_eq (ne_of_gt (add_pos hb ha))]
          rfl

theorem midPrice_pos {mid : ℚ} (hmid : book.midPrice = some mid) : 0 < mid := by
  unfold OrderBook.midPrice at hmid
  obtain ⟨bid, hbid, hmid⟩ := Option.bind_eq_some_iff.mp hmid
  obtain ⟨ask, hask, hmid⟩ := Option.bind_eq_some_iff.mp hmid
  have hb : 0 < bid.price := (h .buy bid (List.mem_of_mem_head? hbid)).price
  have ha : 0 < ask.price := (h .sell ask (List.mem_of_mem_head? hask)).price
  rw [← Option.some.inj hmid]
  exact div_pos (add_pos hb ha) two_pos

/-- Nor before this one: a mid price is positive, also in a crossed book. -/
theorem spreadBps_eq :
    spreadBps book = .ok (book.spread.bind fun s => book.midPrice.map fun mid => s / mid * 10000) := by
  unfold spreadBps
  rw [midPrice_eq]
  cases book.spread with
  | none => rfl
  | some s =>
      cases hmid : book.midPrice with
      | none => rfl
      | some mid =>
          dsimp only
          rw [ok_bind]
          dsimp only
          rw [div_eq (ne_of_gt (midPrice_pos h hmid))]
          rfl

end Positive

/-- **No feature of a calculator on positive books divides by zero.** -/
theorem calculateFeatures_eq {c : FeatureCalculator} (h : ∀ book ∈ c.bookHistory.entries, PositiveBook book)
    (symbol : String) (exchange : Exchange) :
    calculateFeatures c symbol exchange = .ok (c.calculateFeatures symbol exchange) := by
  unfold calculateFeatures FeatureCalculator.calculateFeatures
  cases hlatest : c.bookHistory.latest with
  | none => rfl
  | some book =>
      have hbook : PositiveBook book := h book (List.mem_of_getLast? hlatest)
      simp only [wap_eq, wapAt_eq, calcOrderBookImbalance_eq hbook, calcLiquidityImbalance_eq, calcQueueImbalance,
        calcTickFlowImbalance, calcTradeFlowImbalance, imbalance_eq, spreadBps_eq hbook, calcVolumeAtDepth_eq]
      rfl

end Checked

/-! ## The ranges -/

/-- A ratio of that kind, where there is one, is from -1 to 1. -/
def InUnit (o : Option ℚ) : Prop := ∀ v, o = some v → -1 ≤ v ∧ v ≤ 1

theorem ratio_inUnit {a b : ℚ} (ha : 0 ≤ a) (hb : 0 ≤ b) (htotal : 0 < a + b) :
    -1 ≤ (a - b) / (a + b) ∧ (a - b) / (a + b) ≤ 1 := by
  constructor
  · rw [le_div_iff₀ htotal]
    linarith
  · rw [div_le_one₀ htotal]
    linarith

theorem imbalance_inUnit {a b : ℚ} (ha : 0 ≤ a) (hb : 0 ≤ b) : InUnit (FeatureCalculator.imbalance a b) := by
  intro v hv
  unfold FeatureCalculator.imbalance at hv
  split_ifs at hv with htotal
  rw [← Option.some.inj hv]
  exact ratio_inUnit ha hb htotal

theorem sum_quantity_nonneg {α : Type} {quantity : α → ℚ} {xs : List α} (h : ∀ x ∈ xs, 0 < quantity x) :
    0 ≤ (xs.map quantity).sum := by
  apply List.sum_nonneg
  simp only [List.forall_mem_map]
  exact fun x hx => (h x hx).le

/-- An average with positive weights stays over a bound of what is averaged. -/
theorem le_average {levels : List PriceLevel} (h : ∀ l ∈ levels, 0 < l.quantity)
    (hvolume : 0 < (levels.map PriceLevel.quantity).sum) {low : ℚ} (hlow : ∀ l ∈ levels, low ≤ l.price) :
    low ≤ (levels.map fun l => l.price * l.quantity).sum / (levels.map PriceLevel.quantity).sum := by
  rw [le_div_iff₀ hvolume, ← List.sum_map_mul_left]
  exact List.sum_le_sum fun l hl => mul_le_mul_of_nonneg_right (hlow l hl) (h l hl).le

theorem average_le {levels : List PriceLevel} (h : ∀ l ∈ levels, 0 < l.quantity)
    (hvolume : 0 < (levels.map PriceLevel.quantity).sum) {high : ℚ} (hhigh : ∀ l ∈ levels, l.price ≤ high) :
    (levels.map fun l => l.price * l.quantity).sum / (levels.map PriceLevel.quantity).sum ≤ high := by
  rw [div_le_iff₀ hvolume, ← List.sum_map_mul_left]
  exact List.sum_le_sum fun l hl => mul_le_mul_of_nonneg_right (hhigh l hl) (h l hl).le

/-- The levels that a weighted average goes over. -/
def averaged (book : OrderBook) (depthBps mid : ℚ) : List PriceLevel :=
  book.bidsWithin mid (mid * depthBps / 10000) ++ book.asksWithin mid (mid * depthBps / 10000)

/-- `v` lies between the lowest and the highest price of the levels. -/
def BetweenPrices (levels : List PriceLevel) (v : ℚ) : Prop :=
  ∃ lowest ∈ levels, ∃ highest ∈ levels,
    (∀ l ∈ levels, lowest.price ≤ l.price ∧ l.price ≤ highest.price) ∧ lowest.price ≤ v ∧ v ≤ highest.price

/-- Weights that sum to something have a lowest and a highest price among them. -/
theorem exists_extreme_prices {levels : List PriceLevel} (h : 0 < (levels.map PriceLevel.quantity).sum) :
    ∃ lowest ∈ levels, ∃ highest ∈ levels, ∀ l ∈ levels, lowest.price ≤ l.price ∧ l.price ≤ highest.price := by
  have hne : levels.toFinset.Nonempty := by
    rw [List.toFinset_nonempty_iff]
    rintro rfl
    exact lt_irrefl _ h
  obtain ⟨lowest, hlowest, hlow⟩ := levels.toFinset.exists_min_image PriceLevel.price hne
  obtain ⟨highest, hhighest, hhigh⟩ := levels.toFinset.exists_max_image PriceLevel.price hne
  simp only [List.mem_toFinset] at hlowest hlow hhighest hhigh
  exact ⟨lowest, hlowest, highest, hhighest, fun l hl => ⟨hlow l hl, hhigh l hl⟩⟩

theorem betweenPrices_average {levels : List PriceLevel} (h : ∀ l ∈ levels, 0 < l.quantity)
    (hvolume : 0 < (levels.map PriceLevel.quantity).sum) :
    BetweenPrices levels
      ((levels.map fun l => l.price * l.quantity).sum / (levels.map PriceLevel.quantity).sum) := by
  obtain ⟨lowest, hlowest, highest, hhighest, hbounds⟩ := exists_extreme_prices hvolume
  exact ⟨lowest, hlowest, highest, hhighest, hbounds, le_average h hvolume fun l hl => (hbounds l hl).1,
    average_le h hvolume fun l hl => (hbounds l hl).2⟩

section Book

variable {book : OrderBook} (h : PositiveBook book)

include h

theorem bidsWithin_positive (mid threshold : ℚ) : ∀ l ∈ book.bidsWithin mid threshold, Positive l :=
  fun l hl => h .buy l ((List.takeWhile_sublist _).subset hl)

theorem asksWithin_positive (mid threshold : ℚ) : ∀ l ∈ book.asksWithin mid threshold, Positive l :=
  fun l hl => h .sell l ((List.takeWhile_sublist _).subset hl)

theorem orderBookImbalance_inUnit : InUnit (FeatureCalculator.calcOrderBookImbalance book) := by
  intro v hv
  unfold FeatureCalculator.calcOrderBookImbalance at hv
  obtain ⟨bid, hbid, hv⟩ := Option.bind_eq_some_iff.mp hv
  obtain ⟨ask, hask, hv⟩ := Option.bind_eq_some_iff.mp hv
  have hb : 0 < bid.quantity := (h .buy bid (List.mem_of_mem_head? hbid)).quantity
  have ha : 0 < ask.quantity := (h .sell ask (List.mem_of_mem_head? hask)).quantity
  rw [← Option.some.inj hv]
  exact ratio_inUnit hb.le ha.le (add_pos hb ha)

theorem liquidityImbalance_inUnit (depthBps : ℚ) :
    InUnit (FeatureCalculator.calcLiquidityImbalance book depthBps) := by
  intro v hv
  unfold FeatureCalculator.calcLiquidityImbalance FeatureCalculator.calcVolumeAtDepth at hv
  obtain ⟨mid, hmid, hv⟩ := Option.bind_eq_some_iff.mp hv
  rw [hmid] at hv
  exact imbalance_inUnit (sum_quantity_nonneg fun l hl => (bidsWithin_positive h _ _ l hl).quantity)
    (sum_quantity_nonneg fun l hl => (asksWithin_positive h _ _ l hl).quantity) v hv

theorem wap_between {depthBps v : ℚ} (hv : book.wap depthBps = some v) :
    ∃ mid, book.midPrice = some mid ∧ BetweenPrices (averaged book depthBps mid) v := by
  unfold OrderBook.wap at hv
  obtain ⟨mid, hmid, hv⟩ := Option.bind_eq_some_iff.mp hv
  refine ⟨mid, hmid, ?_⟩
  have hquantity : ∀ l ∈ averaged book depthBps mid, 0 < l.quantity := by
    intro l hl
    rcases List.mem_append.mp hl with hl | hl
    · exact (bidsWithin_positive h _ _ l hl).quantity
    · exact (asksWithin_positive h _ _ l hl).quantity
  dsimp only at hv
  split_ifs at hv with hvolume
  rw [← Option.some.inj hv]
  exact betweenPrices_average hquantity hvolume

end Book

theorem queueImbalance_inUnit (book : OrderBook) : InUnit (FeatureCalculator.calcQueueImbalance book) :=
  imbalance_inUnit (Nat.cast_nonneg _) (Nat.cast_nonneg _)

theorem tickFlowImbalance_inUnit (h : TradeHistory) (lookbackMs : Int) :
    InUnit (FeatureCalculator.calcTickFlowImbalance h lookbackMs) :=
  imbalance_inUnit (Nat.cast_nonneg _) (Nat.cast_nonneg _)

theorem tradeFlowImbalance_inUnit {h : TradeHistory} (hpositive : ∀ t ∈ h.entries, 0 < t.quantity)
    (lookbackMs : Int) :
    InUnit (FeatureCalculator.calcTradeFlowImbalance h lookbackMs) := by
  have htrades : ∀ side, ∀ t ∈ FeatureCalculator.tradesOf side h lookbackMs, 0 < t.quantity := by
    intro side t ht
    exact hpositive t (List.mem_filter.mp (List.mem_filter.mp ht).1).1
  exact imbalance_inUnit (sum_quantity_nonneg (htrades .buy)) (sum_quantity_nonneg (htrades .sell))

theorem addsOf_pos {events : List OrderEvent} (h : ∀ e ∈ events, PositiveEvent e) (side : Side) (cutoff : Int) :
    ∀ q ∈ addsOf side cutoff events, 0 < q := by
  intro q hq
  obtain ⟨e, he, hadd⟩ := List.mem_filterMap.mp hq
  have hpos := h e he
  cases e with
  | add orderId s price quantity timestamp =>
      dsimp only at hadd
      split_ifs at hadd
      rw [← Option.some.inj hadd]
      exact hpos
  | modify orderId newQuantity timestamp => cases hadd
  | cancel orderId timestamp => cases hadd
  | execute orderId executedQuantity timestamp => cases hadd

theorem ofi_inUnit {events : List OrderEvent} (h : ∀ e ∈ events, PositiveEvent e) (lookbackMs : Int) :
    InUnit (FeatureCalculator.calcOfi events lookbackMs) := by
  have hsum : ∀ side cutoff, 0 ≤ (addsOf side cutoff events).sum :=
    fun side cutoff => List.sum_nonneg fun q hq => (addsOf_pos h side cutoff q hq).le
  intro v hv
  unfold FeatureCalculator.calcOfi at hv
  obtain ⟨latest, _, hv⟩ := Option.bind_eq_some_iff.mp hv
  exact imbalance_inUnit (hsum .buy _) (hsum .sell _) v hv

/-- What is computed from one book: no division by zero at any depth, and all values in their range. -/
structure BookInRange (book : OrderBook) : Prop where
  orderBook : Checked.calcOrderBookImbalance book = .ok (FeatureCalculator.calcOrderBookImbalance book) ∧
    InUnit (FeatureCalculator.calcOrderBookImbalance book)
  liquidity : ∀ depthBps,
    Checked.calcLiquidityImbalance book depthBps = .ok (FeatureCalculator.calcLiquidityImbalance book depthBps) ∧
      InUnit (FeatureCalculator.calcLiquidityImbalance book depthBps)
  queue     : Checked.calcQueueImbalance book = .ok (FeatureCalculator.calcQueueImbalance book) ∧
    InUnit (FeatureCalculator.calcQueueImbalance book)
  volume    : ∀ depthBps,
    Checked.calcVolumeAtDepth book depthBps = .ok (FeatureCalculator.calcVolumeAtDepth book depthBps)
  wap       : ∀ depthBps, Checked.wap book depthBps = .ok (book.wap depthBps) ∧
    ∀ v, book.wap depthBps = some v → ∃ mid, book.midPrice = some mid ∧ BetweenPrices (averaged book depthBps mid) v

theorem bookInRange_of_positive {book : OrderBook} (h : PositiveBook book) : BookInRange book where
  orderBook := ⟨Checked.calcOrderBookImbalance_eq h, orderBookImbalance_inUnit h⟩
  liquidity := fun depthBps => ⟨Checked.calcLiquidityImbalance_eq book depthBps, liquidityImbalance_inUnit h depthBps⟩
  queue     := ⟨Checked.imbalance_eq _ _, queueImbalance_inUnit book⟩
  volume    := Checked.calcVolumeAtDepth_eq book
  wap       := fun depthBps => ⟨Checked.wap_eq book depthBps, fun _ hv => wap_between h hv⟩

/-- **The features stay in range.** On books that the engine builds from positive prices and non-negative
    quantities, trades and events of positive quantities: nothing divides by zero, the imbalances are ratios from -1
    to 1, and a weighted average price lies between the prices it averages. -/
theorem features_in_range {c : FeatureCalculator}
    (hbooks : ∀ book ∈ c.bookHistory.entries, Reachable PositivePriced book)
    (htrades : ∀ t ∈ c.tradeHistory.entries, 0 < t.quantity) {events : List OrderEvent}
    (hevents : ∀ e ∈ events, PositiveEvent e) :
    (∀ symbol exchange, Checked.calculateFeatures c symbol exchange = .ok (c.calculateFeatures symbol exchange)) ∧
    (∀ book ∈ c.bookHistory.entries, BookInRange book) ∧
    (∀ lookbackMs,
      (Checked.calcTickFlowImbalance c.tradeHistory lookbackMs
          = .ok (FeatureCalculator.calcTickFlowImbalance c.tradeHistory lookbackMs) ∧
        InUnit (FeatureCalculator.calcTickFlowImbalance c.tradeHistory lookbackMs)) ∧
      (Checked.calcTradeFlowImbalance c.tradeHistory lookbackMs
          = .ok (FeatureCalculator.calcTradeFlowImbalance c.tradeHistory lookbackMs) ∧
        InUnit (FeatureCalculator.calcTradeFlowImbalance c.tradeHistory lookbackMs)) ∧
      (Checked.calcOfi events lookbackMs = .ok (FeatureCalculator.calcOfi events lookbackMs) ∧
        InUnit (FeatureCalculator.calcOfi events lookbackMs))) := by
  have hpositive : ∀ book ∈ c.bookHistory.entries, PositiveBook book := fun book hb => (hbooks book hb).positiveBook
  refine ⟨Checked.calculateFeatures_eq hpositive, fun book hb => bookInRange_of_positive (hpositive book hb), ?_⟩
  intro lookbackMs
  refine ⟨⟨Checked.imbalance_eq _ _, tickFlowImbalance_inUnit c.tradeHistory lookbackMs⟩,
    ⟨Checked.imbalance_eq _ _, tradeFlowImbalance_inUnit htrades lookbackMs⟩,
    ⟨Checked.calcOfi_eq events lookbackMs, ofi_inUnit hevents lookbackMs⟩⟩

theorem positivePriced_quote (isSnapshot : Bool) {bid ask : PriceLevel} (hbid : Positive bid) (hask : Positive ask) :
    PositivePriced (MatchingEngine.quote isSnapshot bid ask) := by
  have hlevels : ∀ side, ∀ l ∈ (MatchingEngine.quote isSnapshot bid ask).side side, Positive l :=
    forall_mem_side_of_single rfl rfl hbid hask
  exact ⟨fun side l hl => (hlevels side l hl).price, fun side l hl => (hlevels side l hl).quantity.le⟩

/-- A crossed book, which the engine keeps as it comes. -/
def crossed : OrderBookUpdate := MatchingEngine.quote true ⟨102, 1⟩ ⟨101, 3⟩

def crossedBook : OrderBook := (MatchingEngine.after [crossed]).bookOf "BTCUSDT" .binance

theorem reachable_crossedBook : Reachable PositivePriced crossedBook := by
  refine ⟨[crossed], "BTCUSDT", ?_, rfl⟩
  intro u hu
  obtain rfl := List.mem_singleton.mp hu
  exact positivePriced_quote true ⟨by norm_num, by norm_num⟩ ⟨by norm_num, by norm_num⟩

theorem features_in_range_crossed :
    FeatureCalculator.calcOrderBookImbalance crossedBook = some (-1 / 2) ∧ BookInRange crossedBook := by
  refine ⟨by decide +kernel, ?_⟩
  have hin : crossedBook ∈ (FeatureCalculator.mk { entries := [crossedBook], maxLookbackMicros := 0 }
      (.new 0)).bookHistory.entries := List.mem_singleton_self _
  refine (@features_in_range (FeatureCalculator.mk { entries := [crossedBook], maxLookbackMicros := 0 } (.new 0))
    ?_ ?_ [.add 1 .buy 100 2 0] ?_).2.1 crossedBook hin
  · intro book hb
    obtain rfl := List.mem_singleton.mp hb
    exact reachable_crossedBook
  · intro t ht
    cases ht
  · intro e he
    obtain rfl := List.mem_singleton.mp he
    exact two_pos

end Features
end TradingPlatform
