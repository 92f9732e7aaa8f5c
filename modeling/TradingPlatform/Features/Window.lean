import TradingPlatform.Features.History

/-!
# `Features.Window` — which trades the flow features look at

Features are stamped with the time of the latest book, but `trades_since` counts its second back from the latest
trade. The two windows hold the same trades exactly if every trade of the second before the last trade is in the
second before the book too (`flows_of_window_iff`): a stream that has been quiet for longer keeps its last flows, and
trades that are newer than the book count already.
-/

namespace TradingPlatform
namespace Features

open Market History FeatureCalculator

/-! ## Calls -/

/-- What changes a calculator. -/
inductive Call where
  | updateOrderBook (book : OrderBook)
  | updateTrade (trade : Trade)

def Call.book? : Call → Option OrderBook
  | .updateOrderBook book => some book
  | .updateTrade _        => none

def Call.trade? : Call → Option Trade
  | .updateOrderBook _ => none
  | .updateTrade trade => some trade

/-- The same call with another side for its trade. -/
def Call.withSides (sides : Trade → Side) : Call → Call
  | .updateOrderBook book => .updateOrderBook book
  | .updateTrade trade    => .updateTrade { trade with side := sides trade }

def Call.apply (c : FeatureCalculator) : Call → FeatureCalculator
  | .updateOrderBook book => c.updateOrderBook book
  | .updateTrade trade    => c.updateTrade trade

def booksIn (calls : List Call) : List OrderBook := calls.filterMap Call.book?

def tradesIn (calls : List Call) : List Trade := calls.filterMap Call.trade?

/-- The calculator after the calls, in any interleaving. -/
def FeatureCalculator.after (lookbackMs : Int) (calls : List Call) : FeatureCalculator :=
  calls.foldl Call.apply (.new lookbackMs)

/-- Each kind has time stamps that do not decrease. -/
structure TimedCalls (calls : List Call) : Prop where
  books  : (booksIn calls).Pairwise fun b b' => b.timestamp ≤ b'.timestamp
  trades : (tradesIn calls).Pairwise fun t t' => t.timestamp ≤ t'.timestamp

theorem foldl_apply (c : FeatureCalculator) (calls : List Call) :
    calls.foldl Call.apply c =
      { bookHistory  := (booksIn calls).foldl (add OrderBook.timestamp) c.bookHistory
        tradeHistory := (tradesIn calls).foldl (add Trade.timestamp) c.tradeHistory } := by
  induction calls generalizing c with
  | nil => rfl
  | cons call calls ih =>
      rw [List.foldl_cons, ih]
      cases call <;> rfl

/-- The two kinds do not see each other. -/
theorem after_eq (lookbackMs : Int) (calls : List Call) :
    FeatureCalculator.after lookbackMs calls =
      { bookHistory  := OrderBookHistory.after lookbackMs (booksIn calls)
        tradeHistory := TradeHistory.after lookbackMs (tradesIn calls) } := foldl_apply _ _

/-! ## Flows -/

def sideOf (side : Side) (trades : List Trade) : List Trade := trades.filter fun t => t.side = side

/-- The flows of some trades. -/
def tickFlow (trades : List Trade) : Option ℚ :=
  imbalance (sideOf .buy trades).length (sideOf .sell trades).length

def tradeFlow (trades : List Trade) : Option ℚ :=
  imbalance ((sideOf .buy trades).map Trade.quantity).sum ((sideOf .sell trades).map Trade.quantity).sum

theorem calcTickFlowImbalance_eq (h : TradeHistory) (lookbackMs : Int) :
    calcTickFlowImbalance h lookbackMs = tickFlow (h.tradesSince lookbackMs) := rfl

theorem calcTradeFlowImbalance_eq (h : TradeHistory) (lookbackMs : Int) :
    calcTradeFlowImbalance h lookbackMs = tradeFlow (h.tradesSince lookbackMs) := rfl

/-- The trades of the second up to a time. -/
def stampedWindow (stamp : Int) (trades : List Trade) : List Trade :=
  trades.filter fun t => back 1000 stamp ≤ t.timestamp ∧ t.timestamp ≤ stamp

/-- The flow features are those of these trades. -/
structure FlowsOf (features : MarketFeatures) (trades : List Trade) : Prop where
  tick  : features.tickFlowImbalance = tickFlow trades
  trade : features.tradeFlowImbalance = tradeFlow trades
  empty : trades = [] → features.tickFlowImbalance = none ∧ features.tradeFlowImbalance = none

/-- The features after the calls look at the window they are stamped with. -/
def FlowsOfWindow (lookbackMs : Int) (symbol : String) (exchange : Exchange) (calls : List Call) : Prop :=
  ∀ features, (FeatureCalculator.after lookbackMs calls).calculateFeatures symbol exchange = some features →
    FlowsOf features (stampedWindow features.timestamp (tradesIn calls))

/-- The trades that the flows are computed from are those of the window. -/
def SeesWindow (lookbackMs : Int) (calls : List Call) : Prop :=
  ∀ book ∈ (booksIn calls).getLast?,
    (FeatureCalculator.after lookbackMs calls).tradeHistory.tradesSince 1000
      = stampedWindow book.timestamp (tradesIn calls)

/-- Every trade of the second before the last trade is in the second before the last book. -/
def InStep (calls : List Call) : Prop :=
  ∀ book ∈ (booksIn calls).getLast?, ∀ last ∈ (tradesIn calls).getLast?, ∀ t ∈ tradesIn calls,
    back 1000 last.timestamp ≤ t.timestamp → back 1000 book.timestamp ≤ t.timestamp ∧ t.timestamp ≤ book.timestamp

/-! ## The two windows -/

section Windows

variable {lookbackMs : Int} {symbol : String} {exchange : Exchange} {calls : List Call}

/-- The flows are computed from the second before the last trade. -/
theorem tradesSince_after (hlookback : 1000 ≤ lookbackMs) (h : TimedCalls calls) :
    (FeatureCalculator.after lookbackMs calls).tradeHistory.tradesSince 1000
      = Expiry.recent Trade.timestamp (back 1000) (tradesIn calls) := by
  rw [after_eq, tradesSince_eq, TradeHistory.after, entries_after lookbackMs h.trades]
  exact Expiry.recent_recent (back_le_back hlookback) h.trades

/-- What the features are, after the calls. -/
theorem calculateFeatures_after (hlookback : 1000 ≤ lookbackMs) (h : TimedCalls calls) {features : MarketFeatures}
    (hfeatures : (FeatureCalculator.after lookbackMs calls).calculateFeatures symbol exchange = some features) :
    ∃ book, (booksIn calls).getLast? = some book ∧ features.timestamp = book.timestamp ∧
      features.tickFlowImbalance = tickFlow (Expiry.recent Trade.timestamp (back 1000) (tradesIn calls)) ∧
      features.tradeFlowImbalance = tradeFlow (Expiry.recent Trade.timestamp (back 1000) (tradesIn calls)) := by
  have hlatest : (FeatureCalculator.after lookbackMs calls).bookHistory.latest = (booksIn calls).getLast? := by
    rw [after_eq]
    exact getLast?_entries_after (by omega) h.books
  have htrades := tradesSince_after hlookback h
  unfold calculateFeatures at hfeatures
  rw [hlatest, Option.map_eq_some_iff] at hfeatures
  obtain ⟨book, hbook, rfl⟩ := hfeatures
  refine ⟨book, hbook, rfl, ?_, ?_⟩
  · show calcTickFlowImbalance _ 1000 = _
    rw [calcTickFlowImbalance_eq, htrades]
  · show calcTradeFlowImbalance _ 1000 = _
    rw [calcTradeFlowImbalance_eq, htrades]

theorem seesWindow_iff (hlookback : 1000 ≤ lookbackMs) (h : TimedCalls calls) :
    SeesWindow lookbackMs calls ↔ InStep calls := by
  have hlast : ∀ last ∈ (tradesIn calls).getLast?, ∀ t ∈ tradesIn calls, t.timestamp ≤ last.timestamp := by
    intro last hlast t ht
    obtain ⟨earlier, hearlier⟩ := List.getLast?_eq_some_iff.mp hlast
    rw [hearlier] at ht
    have hordered := h.trades
    rw [hearlier] at hordered
    exact Expiry.Ordered.le_last hordered t ht
  unfold SeesWindow InStep
  rw [tradesSince_after hlookback h]
  constructor
  · intro hsees book hbook last hl t ht hrecent
    have hmem : t ∈ Expiry.recent Trade.timestamp (back 1000) (tradesIn calls) := by
      refine List.mem_filter.mpr ⟨ht, decide_eq_true ?_⟩
      intro last' hl'
      rw [hl] at hl'
      cases hl'
      exact hrecent
    rw [hsees book hbook] at hmem
    exact of_decide_eq_true (List.mem_filter.mp hmem).2
  · intro hstep book hbook
    apply List.filter_congr
    intro t ht
    rw [decide_eq_decide]
    constructor
    · intro hrecent
      obtain ⟨last, hl⟩ := Option.isSome_iff_exists.mp (List.getLast?_isSome.mpr (List.ne_nil_of_mem ht))
      exact hstep book hbook last hl t ht (hrecent last hl)
    · -- the last trade is not newer than the book, so its window reaches further back
      rintro ⟨hlow, _⟩ last hl
      have hself : last.timestamp ≤ book.timestamp :=
        (hstep book hbook last hl last (List.mem_of_getLast? hl) (by unfold back; omega)).2
      exact (back_mono 1000 hself).trans hlow

/-- **In step, the flows are those of the window.** -/
theorem flowsOfWindow (hlookback : 1000 ≤ lookbackMs) (h : TimedCalls calls) (hstep : InStep calls) :
    FlowsOfWindow lookbackMs symbol exchange calls := by
  intro features hfeatures
  obtain ⟨book, hbook, hstamp, htick, htrade⟩ := calculateFeatures_after hlookback h hfeatures
  have hwindow := (seesWindow_iff hlookback h).mpr hstep book hbook
  rw [tradesSince_after hlookback h, ← hstamp] at hwindow
  rw [hwindow] at htick htrade
  refine ⟨htick, htrade, ?_⟩
  intro hempty
  rw [htick, htrade, hempty]
  exact ⟨by decide +kernel, by decide +kernel⟩

end Windows

/-! ## Other sides -/

section Sides

variable (sides : Trade → Side) (calls : List Call)

theorem booksIn_withSides : booksIn (calls.map (Call.withSides sides)) = booksIn calls := by
  unfold booksIn
  rw [List.filterMap_map]
  apply List.filterMap_congr
  intro call _
  cases call <;> rfl

theorem tradesIn_withSides :
    tradesIn (calls.map (Call.withSides sides)) = (tradesIn calls).map fun t => { t with side := sides t } := by
  unfold tradesIn
  rw [List.filterMap_map, List.map_filterMap]
  apply List.filterMap_congr
  intro call _
  cases call <;> rfl

variable {sides calls}

theorem TimedCalls.withSides (h : TimedCalls calls) : TimedCalls (calls.map (Call.withSides sides)) := by
  constructor
  · rw [booksIn_withSides]
    exact h.books
  · rw [tradesIn_withSides, List.pairwise_map]
    exact h.trades

/-- A list of buys with a sell in it has another flow than any list of buys. -/
theorem tickFlow_ne {mixed buys : List Trade} (hbuys : ∀ t ∈ buys, t.side = .buy)
    (hmixed : ∃ t ∈ mixed, t.side = .sell) : tickFlow mixed ≠ tickFlow buys := by
  intro heq
  have hsold : sideOf .sell buys = [] := by
    refine List.filter_eq_nil_iff.mpr fun t ht => ?_
    rw [hbuys t ht]
    decide
  have hsell : 0 < (sideOf .sell mixed).length := by
    obtain ⟨t, ht, hside⟩ := hmixed
    exact List.length_pos_of_mem (List.mem_filter.mpr ⟨ht, decide_eq_true hside⟩)
  unfold tickFlow at heq
  rw [hsold, List.length_nil, Nat.cast_zero] at heq
  rcases Nat.eq_zero_or_pos (sideOf .buy buys).length with hzero | hpos
  · -- no flow against some flow
    have htotal : (0 : ℚ) < (sideOf .buy mixed).length + (sideOf .sell mixed).length := by
      exact_mod_cast Nat.add_pos_right _ hsell
    rw [hzero, Nat.cast_zero, imbalance, imbalance, if_pos htotal, if_neg (by norm_num)] at heq
    cases heq
  · rw [imbalance_zero_right (by exact_mod_cast hpos)] at heq
    have hnone := imbalance_eq_one heq
    rw [Nat.cast_eq_zero] at hnone
    omega

/-- **Out of step, some sides of the same trades give other flows than those of the window.** -/
theorem exists_sides {lookbackMs : Int} (hlookback : 1000 ≤ lookbackMs) (symbol : String) (exchange : Exchange)
    (h : TimedCalls calls) (hstep : ¬ InStep calls) :
    ∃ sides : Trade → Side, ¬ FlowsOfWindow lookbackMs symbol exchange (calls.map (Call.withSides sides)) := by
  unfold InStep at hstep
  push Not at hstep
  obtain ⟨book, hbook, last, hlast, t, ht, hrecent, hout⟩ := hstep
  -- buys in the window, sells outside it
  let sides : Trade → Side := fun t =>
    if back 1000 book.timestamp ≤ t.timestamp ∧ t.timestamp ≤ book.timestamp then .buy else .sell
  refine ⟨sides, fun hflows => ?_⟩
  have hlatest : (FeatureCalculator.after lookbackMs (calls.map (Call.withSides sides))).bookHistory.latest
      = some book := by
    rw [after_eq, booksIn_withSides]
    exact (getLast?_entries_after (by omega) h.books).trans hbook
  obtain ⟨features, hfeatures⟩ : ∃ features, (FeatureCalculator.after lookbackMs
      (calls.map (Call.withSides sides))).calculateFeatures symbol exchange = some features := by
    unfold calculateFeatures
    rw [hlatest]
    exact ⟨_, rfl⟩
  obtain ⟨book', hbook', hstamp, htick, _⟩ := calculateFeatures_after hlookback h.withSides hfeatures
  rw [booksIn_withSides, hbook] at hbook'
  cases hbook'
  have heq := (hflows features hfeatures).tick
  rw [htick, hstamp] at heq
  refine tickFlow_ne ?_ ?_ heq
  · intro t' ht'
    obtain ⟨hmem, hin⟩ := List.mem_filter.mp ht'
    rw [tradesIn_withSides] at hmem
    obtain ⟨t'', _, rfl⟩ := List.mem_map.mp hmem
    exact if_pos (of_decide_eq_true hin)
  · refine ⟨{ t with side := sides t }, List.mem_filter.mpr ⟨?_, decide_eq_true ?_⟩, if_neg ?_⟩
    · rw [tradesIn_withSides]
      exact List.mem_map_of_mem ht
    · rw [tradesIn_withSides, List.getLast?_map, hlast]
      rintro _ ⟨⟩
      exact hrecent
    · rintro ⟨hlow, hhigh⟩
      exact absurd (hout hlow) (not_lt.mpr hhigh)

end Sides

/-- **The flow features look at the window they are stamped with** exactly if the trades are in step with the books:
    then the flows are those of its trades, and otherwise there are sides for the same trades with which they are
    not. -/
theorem flows_of_window_iff {lookbackMs : Int} (hlookback : 1000 ≤ lookbackMs) (symbol : String) (exchange : Exchange)
    {calls : List Call} (h : TimedCalls calls) :
    (SeesWindow lookbackMs calls ↔ InStep calls) ∧
    (InStep calls → FlowsOfWindow lookbackMs symbol exchange calls) ∧
    (¬ InStep calls →
      ∃ sides : Trade → Side, ¬ FlowsOfWindow lookbackMs symbol exchange (calls.map (Call.withSides sides))) :=
  ⟨seesWindow_iff hlookback h, flowsOfWindow hlookback h, exists_sides hlookback symbol exchange h⟩

/-- A trade half a second before the book: it is all the flow. -/
theorem flows_of_window_half_second :
    FlowsOfWindow 1000 "BTCUSDT" .binance [.updateTrade (tradeAt 500000), .updateOrderBook (bookAt 1000000)] :=
  (@flows_of_window_iff 1000 (by decide) "BTCUSDT" .binance _ ⟨by decide +kernel, by decide +kernel⟩).2.1
    (by unfold InStep; decide +kernel)

/-- A flow of trades none of which is in the window. -/
theorem not_flowsOfWindow {calls : List Call} (hflows :
      ((FeatureCalculator.after 1000 calls).calculateFeatures "BTCUSDT" .binance).map (fun features =>
        (features.tickFlowImbalance, stampedWindow features.timestamp (tradesIn calls))) = some (some 1, [])) :
    ¬ FlowsOfWindow 1000 "BTCUSDT" .binance calls := by
  intro hwindow
  obtain ⟨features, hfeatures, hpair⟩ := Option.map_eq_some_iff.mp hflows
  obtain ⟨htick, hempty⟩ := Prod.mk.inj hpair
  have hnone := ((hwindow features hfeatures).empty hempty).1
  rw [htick] at hnone
  cases hnone

/-- A trade ten seconds before the book, and one five seconds after it: no trade is in the window, and yet there is a
    flow. -/
theorem flows_outside_window :
    (TimedCalls [.updateTrade (tradeAt 0), .updateOrderBook (bookAt 10000000)] ∧
      ¬ FlowsOfWindow 1000 "BTCUSDT" .binance [.updateTrade (tradeAt 0), .updateOrderBook (bookAt 10000000)]) ∧
    TimedCalls [.updateOrderBook (bookAt 0), .updateTrade (tradeAt 5000000)] ∧
      ¬ FlowsOfWindow 1000 "BTCUSDT" .binance [.updateOrderBook (bookAt 0), .updateTrade (tradeAt 5000000)] := by
  refine ⟨⟨⟨by decide +kernel, by decide +kernel⟩, not_flowsOfWindow (by decide +kernel)⟩,
    ⟨by decide +kernel, by decide +kernel⟩, not_flowsOfWindow (by decide +kernel)⟩

end Features
end TradingPlatform
