import TradingPlatform.Features.Ranges

/-!
# `Features.Depth` — the depth loops may stop at the first level that is too deep

The loops over a side break at the first level beyond the threshold. The engine keeps its sides best price first, so
no level after it is within, and the sums are those over all levels within the threshold (`bidsWithin_eq`,
`asksWithin_eq`). A deeper threshold then takes in more levels.
-/

namespace TradingPlatform
namespace Features

open Market Engine

/-! ## The sums over all levels -/

/-- The levels of a side within a distance of the mid price, wherever they stand. -/
def allBidsWithin (book : OrderBook) (mid threshold : ℚ) : List PriceLevel :=
  book.bids.filter fun l => mid - l.price ≤ threshold

def allAsksWithin (book : OrderBook) (mid threshold : ℚ) : List PriceLevel :=
  book.asks.filter fun l => l.price - mid ≤ threshold

def wapOverAll (book : OrderBook) (depthBps : ℚ) : Option ℚ := do
  let mid ← book.midPrice
  let depthThreshold := mid * depthBps / 10000
  let levels := allBidsWithin book mid depthThreshold ++ allAsksWithin book mid depthThreshold
  let totalValue := (levels.map fun l => l.price * l.quantity).sum
  let totalVolume := (levels.map PriceLevel.quantity).sum
  if totalVolume > 0 then some (totalValue / totalVolume) else none

def volumeOverAll (book : OrderBook) (depthBps : ℚ) : ℚ × ℚ :=
  match book.midPrice with
  | none     => (0, 0)
  | some mid =>
      let threshold := mid * depthBps / 10000
      (((allBidsWithin book mid threshold).map PriceLevel.quantity).sum,
        ((allAsksWithin book mid threshold).map PriceLevel.quantity).sum)

def liquidityImbalanceOverAll (book : OrderBook) (depthBps : ℚ) : Option ℚ := do
  let _ ← book.midPrice
  let (bidLiquidity, askLiquidity) := volumeOverAll book depthBps
  FeatureCalculator.imbalance bidLiquidity askLiquidity

/-! ## Sorted sides -/

/-- Both sides best price first. -/
def SortedBook (book : OrderBook) : Prop :=
  ∀ side : Side, (book.side side).Pairwise fun l l' => side.better l.price l'.price

/-- An update the engine keeps sorted books of: the prices of a symbol are positive and on its grid. -/
structure OnPositiveGrid (grid : String → ℚ) (u : OrderBookUpdate) : Prop where
  wellPriced : WellPriced (grid u.symbol) u
  positive   : PositivePriced u

theorem sortedBook_of_reachable {grid : String → ℚ} {book : OrderBook} (h : Reachable (OnPositiveGrid grid) book) :
    SortedBook book := by
  obtain ⟨updates, symbol, hupdates, hbook⟩ := h
  intro side
  rw [MatchingEngine.side_of_getOrderBook hbook]
  have hledger := MatchingEngine.engineBook_run (fun u hu => (hupdates u hu).wellPriced) side symbol
  exact sorted_entries_iff.mp hledger.sorted

section Sorted

variable {book : OrderBook} (h : SortedBook book)

include h

theorem bidsWithin_eq (mid threshold : ℚ) : book.bidsWithin mid threshold = allBidsWithin book mid threshold := by
  have hcut : book.bids.Pairwise fun l l' =>
      decide (¬ mid - l'.price > threshold) → decide (¬ mid - l.price > threshold) := by
    apply List.Pairwise.imp _ (h .buy)
    intro l l' (hbetter : l.price > l'.price) hwithin
    rw [decide_eq_true_eq] at hwithin ⊢
    linarith
  unfold OrderBook.bidsWithin allBidsWithin
  rw [Expiry.takeWhile_eq_filter hcut]
  simp only [gt_iff_lt, not_lt]

theorem asksWithin_eq (mid threshold : ℚ) : book.asksWithin mid threshold = allAsksWithin book mid threshold := by
  have hcut : book.asks.Pairwise fun l l' =>
      decide (¬ l'.price - mid > threshold) → decide (¬ l.price - mid > threshold) := by
    apply List.Pairwise.imp _ (h .sell)
    intro l l' (hbetter : l.price < l'.price) hwithin
    rw [decide_eq_true_eq] at hwithin ⊢
    linarith
  unfold OrderBook.asksWithin allAsksWithin
  rw [Expiry.takeWhile_eq_filter hcut]
  simp only [gt_iff_lt, not_lt]

theorem wap_eq_overAll (depthBps : ℚ) : book.wap depthBps = wapOverAll book depthBps := by
  unfold OrderBook.wap wapOverAll
  simp only [bidsWithin_eq h, asksWithin_eq h]

theorem calcVolumeAtDepth_eq_overAll (depthBps : ℚ) :
    FeatureCalculator.calcVolumeAtDepth book depthBps = volumeOverAll book depthBps := by
  unfold FeatureCalculator.calcVolumeAtDepth volumeOverAll
  cases book.midPrice with
  | none => rfl
  | some mid =>
      dsimp only
      rw [bidsWithin_eq h, asksWithin_eq h]

theorem calcLiquidityImbalance_eq_overAll (depthBps : ℚ) :
    FeatureCalculator.calcLiquidityImbalance book depthBps = liquidityImbalanceOverAll book depthBps := by
  unfold FeatureCalculator.calcLiquidityImbalance liquidityImbalanceOverAll
  rw [calcVolumeAtDepth_eq_overAll h]

end Sorted

/-! ## Deeper thresholds -/

theorem sum_quantity_filter_le {levels : List PriceLevel} (h : ∀ l ∈ levels, Positive l) {p q : PriceLevel → Bool}
    (hpq : ∀ l, p l = true → q l = true) :
    ((levels.filter p).map PriceLevel.quantity).sum ≤ ((levels.filter q).map PriceLevel.quantity).sum := by
  apply ((List.monotone_filter_right levels hpq).map PriceLevel.quantity).sum_le_sum
  simp only [List.forall_mem_map]
  exact fun l hl => (h l (List.mem_filter.mp hl).1).quantity.le

theorem volumeOverAll_mono {book : OrderBook} (h : PositiveBook book) {depthBps depthBps' : ℚ}
    (hle : depthBps ≤ depthBps') :
    (volumeOverAll book depthBps).1 ≤ (volumeOverAll book depthBps').1 ∧
      (volumeOverAll book depthBps).2 ≤ (volumeOverAll book depthBps').2 := by
  unfold volumeOverAll
  cases hmid : book.midPrice with
  | none => exact ⟨le_rfl, le_rfl⟩
  | some mid =>
      -- the threshold grows with the depth because the mid price is positive
      have hthreshold : mid * depthBps / 10000 ≤ mid * depthBps' / 10000 := by
        have hmul : mid * depthBps ≤ mid * depthBps' :=
          mul_le_mul_of_nonneg_left hle (Checked.midPrice_pos h hmid).le
        linarith
      constructor
      · apply sum_quantity_filter_le (h .buy)
        intro l hl
        exact decide_eq_true ((of_decide_eq_true hl).trans hthreshold)
      · apply sum_quantity_filter_le (h .sell)
        intro l hl
        exact decide_eq_true ((of_decide_eq_true hl).trans hthreshold)

/-- **The depth sums are complete, and grow with the depth.** On every book that the engine builds from positive
    prices on a grid, the loops that stop early compute what the sums over all levels within the threshold are. -/
theorem depth_sums_complete {grid : String → ℚ} {book : OrderBook} (h : Reachable (OnPositiveGrid grid) book) :
    (∀ depthBps,
      book.wap depthBps = wapOverAll book depthBps ∧
      FeatureCalculator.calcLiquidityImbalance book depthBps = liquidityImbalanceOverAll book depthBps ∧
      FeatureCalculator.calcVolumeAtDepth book depthBps = volumeOverAll book depthBps) ∧
    (∀ depthBps depthBps', depthBps ≤ depthBps' →
      (FeatureCalculator.calcVolumeAtDepth book depthBps).1 ≤
          (FeatureCalculator.calcVolumeAtDepth book depthBps').1 ∧
        (FeatureCalculator.calcVolumeAtDepth book depthBps).2 ≤
          (FeatureCalculator.calcVolumeAtDepth book depthBps').2) := by
  have hsorted : SortedBook book := sortedBook_of_reachable h
  have hpositive : PositiveBook book := (h.imp fun u hu => hu.positive).positiveBook
  refine ⟨?_, ?_⟩
  · intro depthBps
    exact ⟨wap_eq_overAll hsorted depthBps, calcLiquidityImbalance_eq_overAll hsorted depthBps,
      calcVolumeAtDepth_eq_overAll hsorted depthBps⟩
  · intro depthBps depthBps' hle
    rw [calcVolumeAtDepth_eq_overAll hsorted, calcVolumeAtDepth_eq_overAll hsorted]
    exact volumeOverAll_mono hpositive hle

/-- Two quotes, the second away from the market on both sides. -/
def twoQuotes : List OrderBookUpdate :=
  [MatchingEngine.quote true ⟨100, 1⟩ ⟨101, 2⟩, MatchingEngine.quote false ⟨99, 3⟩ ⟨103, 1⟩]

def twoQuotesBook : OrderBook := (MatchingEngine.after twoQuotes).bookOf "BTCUSDT" .binance

theorem onPositiveGrid_quote (isSnapshot : Bool) {bid ask : PriceLevel} (hbid : bid.price.den = 1)
    (hask : ask.price.den = 1) (hb : Positive bid) (ha : Positive ask) :
    OnPositiveGrid (fun _ => 1) (MatchingEngine.quote isSnapshot bid ask) where
  wellPriced := MatchingEngine.wellPriced_quote isSnapshot hbid hask hb.quantity.le ha.quantity.le
  positive   := positivePriced_quote isSnapshot hb ha

theorem depth_sums_complete_two_quotes :
    FeatureCalculator.calcVolumeAtDepth twoQuotesBook 100 = (1, 2) ∧
    FeatureCalculator.calcVolumeAtDepth twoQuotesBook 100 = volumeOverAll twoQuotesBook 100 ∧
    FeatureCalculator.calcVolumeAtDepth twoQuotesBook 200 = (4, 2) := by
  have hreachable : Reachable (OnPositiveGrid fun _ => 1) twoQuotesBook := by
    refine ⟨twoQuotes, "BTCUSDT", ?_, rfl⟩
    unfold twoQuotes
    simp only [List.forall_mem_cons]
    refine ⟨?_, ?_, by simp⟩
    · exact onPositiveGrid_quote true rfl rfl ⟨by norm_num, by norm_num⟩ ⟨by norm_num, by norm_num⟩
    · exact onPositiveGrid_quote false rfl rfl ⟨by norm_num, by norm_num⟩ ⟨by norm_num, by norm_num⟩
  exact ⟨by decide +kernel, ((@depth_sums_complete (fun _ => 1) _ hreachable).1 100).2.2, by decide +kernel⟩

end Features
end TradingPlatform
