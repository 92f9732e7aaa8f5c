import TradingPlatform.Market.OrderBook

/-!
# `Features.Calculator` — histories and the features computed from them

A `FeatureCalculator` keeps the books and the trades of one key, cleaned up behind the latest entry. The
features are read off the latest book, some earlier books and the recent trades. Sums and quotients are exact; where the
source divides zero by zero (both best quantities zero) it has a NaN and the quotient here is 0.
-/

namespace TradingPlatform
namespace Features

open Market

structure MarketFeatures where
  timestamp          : Int
  symbol             : String
  exchange           : Exchange
  wap0ms             : Option ℚ
  wap100ms           : Option ℚ
  wap200ms           : Option ℚ
  wap300ms           : Option ℚ
  orderFlowImbalance : Option ℚ
  orderBookImbalance : Option ℚ
  liquidityImbalance : Option ℚ
  queueImbalance     : Option ℚ
  tickFlowImbalance  : Option ℚ
  tradeFlowImbalance : Option ℚ
  spread             : Option ℚ
  spreadBps          : Option ℚ
  bidVolume10bps     : Option ℚ
  askVolume10bps     : Option ℚ
  bidVolume20bps     : Option ℚ
  askVolume20bps     : Option ℚ
deriving DecidableEq, Repr

/-! ## Histories

The two histories differ in what they keep, so they are one definition over the time stamp. -/

structure History (α : Type) where
  entries           : List α
  maxLookbackMicros : Int

namespace History

variable {α : Type}

def new (maxLookbackMs : Int) : History α := { entries := [], maxLookbackMicros := maxLookbackMs * 1000 }

/-- Drop from the front what is older than the latest entry by more than the lookback. -/
def cleanup (timestamp : α → Int) (h : History α) : History α :=
  match h.entries.getLast? with
  | some latest =>
      let cutoff := timestamp latest - h.maxLookbackMicros
      { h with entries := h.entries.dropWhile fun oldest => timestamp oldest < cutoff }
  | none => h

/-- `add_snapshot` / `add_trade` -/
def add (timestamp : α → Int) (h : History α) (entry : α) : History α :=
  cleanup timestamp { h with entries := h.entries ++ [entry] }

def latest (h : History α) : Option α := h.entries.getLast?

end History

abbrev OrderBookHistory := History OrderBook

abbrev TradeHistory := History Trade

/-- The last book that is at least so much older than the latest. -/
def OrderBookHistory.getBookAt (h : OrderBookHistory) (timestampOffsetMs : Int) : Option OrderBook := do
  let latest ← h.latest
  let targetTime := latest.timestamp - timestampOffsetMs * 1000
  h.entries.reverse.find? fun book => book.timestamp ≤ targetTime

def TradeHistory.tradesSince (h : TradeHistory) (lookbackMs : Int) : List Trade :=
  let cutoff := (h.latest.map fun t => t.timestamp - lookbackMs * 1000).getD 0
  h.entries.filter fun t => t.timestamp ≥ cutoff

/-! ## The calculator -/

structure FeatureCalculator where
  bookHistory  : OrderBookHistory
  tradeHistory : TradeHistory

namespace FeatureCalculator

def new (lookbackMs : Int) : FeatureCalculator :=
  { bookHistory := .new lookbackMs, tradeHistory := .new lookbackMs }

def updateOrderBook (c : FeatureCalculator) (book : OrderBook) : FeatureCalculator :=
  { c with bookHistory := c.bookHistory.add OrderBook.timestamp book }

def updateTrade (c : FeatureCalculator) (trade : Trade) : FeatureCalculator :=
  { c with tradeHistory := c.tradeHistory.add Trade.timestamp trade }

def calcOrderBookImbalance (book : OrderBook) : Option ℚ := do
  let bid ← book.bids.head?
  let ask ← book.asks.head?
  return (bid.quantity - ask.quantity) / (bid.quantity + ask.quantity)

/-- The quantities within a depth; nothing without a mid price. -/
def calcVolumeAtDepth (book : OrderBook) (depthBps : ℚ) : ℚ × ℚ :=
  match book.midPrice with
  | none     => (0, 0)
  | some mid =>
      let threshold := mid * depthBps / 10000
      (((book.bidsWithin mid threshold).map PriceLevel.quantity).sum,
        ((book.asksWithin mid threshold).map PriceLevel.quantity).sum)

/-- `(a - b) / (a + b)`, when there is anything. -/
def imbalance (a b : ℚ) : Option ℚ := if a + b > 0 then some ((a - b) / (a + b)) else none

/-- The loops are those of `calc_volume_at_depth`. -/
def calcLiquidityImbalance (book : OrderBook) (depthBps : ℚ) : Option ℚ := do
  let _ ← book.midPrice
  let (bidLiquidity, askLiquidity) := calcVolumeAtDepth book depthBps
  imbalance bidLiquidity askLiquidity

def calcQueueImbalance (book : OrderBook) : Option ℚ := imbalance book.bids.length book.asks.length

/-- The recent trades of one direction. -/
def tradesOf (side : Side) (h : TradeHistory) (lookbackMs : Int) : List Trade :=
  (h.tradesSince lookbackMs).filter fun t => t.side = side

def calcTickFlowImbalance (h : TradeHistory) (lookbackMs : Int) : Option ℚ :=
  imbalance (tradesOf .buy h lookbackMs).length (tradesOf .sell h lookbackMs).length

def calcTradeFlowImbalance (h : TradeHistory) (lookbackMs : Int) : Option ℚ :=
  imbalance ((tradesOf .buy h lookbackMs).map Trade.quantity).sum ((tradesOf .sell h lookbackMs).map Trade.quantity).sum

def calculateFeatures (c : FeatureCalculator) (symbol : String) (exchange : Exchange) : Option MarketFeatures :=
  c.bookHistory.latest.map fun currentBook =>
    { timestamp          := currentBook.timestamp
      symbol             := symbol
      exchange           := exchange
      wap0ms             := currentBook.wap 10
      wap100ms           := (c.bookHistory.getBookAt 100).bind (·.wap 10)
      wap200ms           := (c.bookHistory.getBookAt 200).bind (·.wap 10)
      wap300ms           := (c.bookHistory.getBookAt 300).bind (·.wap 10)
      orderFlowImbalance := none
      orderBookImbalance := calcOrderBookImbalance currentBook
      liquidityImbalance := calcLiquidityImbalance currentBook 10
      queueImbalance     := calcQueueImbalance currentBook
      tickFlowImbalance  := calcTickFlowImbalance c.tradeHistory 1000
      tradeFlowImbalance := calcTradeFlowImbalance c.tradeHistory 1000
      spread             := currentBook.spread
      spreadBps          := currentBook.spread.bind fun s => currentBook.midPrice.map fun mid => s / mid * 10000
      bidVolume10bps     := some (calcVolumeAtDepth currentBook 10).1
      askVolume10bps     := some (calcVolumeAtDepth currentBook 10).2
      bidVolume20bps     := some (calcVolumeAtDepth currentBook 20).1
      askVolume20bps     := some (calcVolumeAtDepth currentBook 20).2 }

end FeatureCalculator

/-! ## Imbalances -/

theorem imbalance_zero_right {a : ℚ} (h : 0 < a) : FeatureCalculator.imbalance a 0 = some 1 := by
  unfold FeatureCalculator.imbalance
  rw [add_zero, sub_zero, if_pos h, div_self (ne_of_gt h)]

/-- Only with nothing on the other side the imbalance is whole. -/
theorem imbalance_eq_one {a b : ℚ} (h : FeatureCalculator.imbalance a b = some 1) : b = 0 := by
  unfold FeatureCalculator.imbalance at h
  split at h
  next hpos =>
    have hone := (div_eq_one_iff_eq (ne_of_gt hpos)).mp (Option.some.inj h)
    linarith
  next => cases h

end Features
end TradingPlatform
