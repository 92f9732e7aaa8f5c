import TradingPlatform.Crypto.Trades
import TradingPlatform.Features.Pipeline
import TradingPlatform.Receiver.Pipeline

/-!
# `Features.Direction` — the direction of trades, from the exchange to the features

A trade message of Binance says whether the buyer was the maker. Nothing on the way asks it: the packet of a trade
is marked as a buy when its quantity is positive. So the flow imbalances are those of the exchange only over windows
of buys (`direction_survives`).
-/

namespace TradingPlatform
namespace Features

open Market Json Rust Sender Crypto FeaturePipeline
open Receiver hiding pipelineStep

/-! ## Messages -/

/-- A text the handler takes for a trade, with a positive quantity and the flag of the maker. -/
structure TradeMessage where
  text            : Value
  quantity        : Numeral
  /-- The buyer is the maker: the aggressor sold. -/
  isBuyerMaker    : Bool
  notConfirmation : Feed.isConfirmation text = false
  isTrade         : Feed.streamType? text = some .trade
  hasQuantity     : ((Feed.actualData text).index "q").asStr? = some quantity.text
  hasMaker        : (Feed.actualData text).index "m" = .bool isBuyerMaker
  positive        : 0 < quantity.value

/-- A message that reached the pipeline, with the data made of it and the trade it has become there. -/
structure Passage (context : Context) where
  message  : TradeMessage
  data     : TradeData
  trade    : Trade
  made     : ∃ syncs assetType clocks, data ∈
    (Feed.processBinanceMessage syncs (some message.text) assetType).2.filterMap
      (Trades.tradeOfDelivery context clocks)
  received : ∃ now packet agg exchangeName, BinaryUdpPacket.fromTrade data now = some packet ∧
    .trade trade ∈ (handlePacket agg packet.toBytes exchangeName .trade).2

namespace Passage

variable {context : Context}

/-- The quantity as the feed reads it, of the configured precision. -/
def read (x : Passage context) : Int :=
  parseToScaledOrDefault x.message.quantity.text x.data.quantityPrecision

/-- The quantity as the packet has it. -/
def wire (x : Passage context) : Int := wrapI64 ((rescale x.read x.data.quantityPrecision).getD 0)

theorem data_quantity (x : Passage context) : x.data.quantity = x.read := by
  obtain ⟨syncs, assetType, clocks, hdata⟩ := x.made
  have htrade := Trades.tradeOf_of_delivered hdata
  unfold Binance.tradeOf at htrade
  dsimp only at htrade
  split at htrade
  · cases htrade
  · obtain ⟨commonSymbol, -, hsome⟩ := Option.bind_eq_some_iff.mp htrade
    have heq := Option.some.inj hsome
    unfold read
    rw [← heq]
    show Binance.readNumber _ "q" _ = _
    rw [Binance.readNumber, x.message.hasQuantity]
    rfl

/-- The side is that of the sign of the quantity. -/
theorem trade_eq (x : Passage context) :
    x.trade.side = (if 0 < x.read then .buy else .sell) ∧ x.trade.quantity = unscale x.wire := by
  obtain ⟨now, packet, agg, exchangeName, hpacket, htrade⟩ := x.received
  obtain ⟨-, item, hitem, hreads⟩ := readsTrade_fromTrade hpacket
  rw [x.data_quantity] at hitem
  unfold TradeItem.newFromScaled at hitem
  simp only [Option.bind_eq_bind, Option.bind_eq_some_iff] at hitem
  obtain ⟨price, -, quantity, hquantity, hitem⟩ := hitem
  obtain rfl := Option.some.inj hitem
  unfold handlePacket readTrade at htrade
  rw [if_neg (Nat.not_lt.mpr hreads.header_le), hreads.item] at htrade
  have heq := Sent.trade.inj (List.mem_singleton.mp htrade)
  constructor
  · rw [heq]
    by_cases hbuy : 0 < x.read
    · rw [if_pos hbuy, decide_eq_true hbuy]
      rfl
    · rw [if_neg hbuy, decide_eq_false hbuy]
      rfl
  · rw [heq, wire, hquantity]
    rfl

/-- What is read as 0 is 0 on the wire. -/
theorem wire_eq_zero {x : Passage context} (h : x.read = 0) : x.wire = 0 := by
  have hzero : ∀ precision, wrapI64 ((rescale 0 precision).getD 0) = 0 := by
    intro precision
    unfold rescale
    split
    · rfl
    · split
      · rw [Int.zero_mul]
        rfl
      · dsimp only
        split
        · rfl
        · rw [Int.zero_tdiv]
          rfl
  rw [wire, h]
  exact hzero _

end Passage

/-! ## Histories

A history of trades is the history of what became them. -/

/-- The entries not older than the latest by more than the lookback. -/
def History.since {α : Type} (timestamp : α → Int) (h : History α) (lookbackMs : Int) : List α :=
  let cutoff := (h.latest.map fun a => timestamp a - lookbackMs * 1000).getD 0
  h.entries.filter fun a => timestamp a ≥ cutoff

def History.map {α β : Type} (f : α → β) (h : History α) : History β :=
  { entries := h.entries.map f, maxLookbackMicros := h.maxLookbackMicros }

section
variable {α β : Type} (f : α → β) (timestamp : β → Int)

theorem History.map_add (h : History α) (a : α) :
    (h.map f).add timestamp (f a) = (h.add (timestamp ∘ f) a).map f := by
  have hentries : h.entries.map f ++ [f a] = (h.entries ++ [a]).map f := by
    rw [List.map_append]
    rfl
  unfold History.add History.cleanup History.map
  dsimp only
  rw [List.getLast?_concat, List.getLast?_concat]
  dsimp only
  rw [hentries, List.dropWhile_map]
  rfl

theorem History.map_foldl_add (h : History α) (as : List α) :
    (as.map f).foldl (History.add timestamp) (h.map f) = (as.foldl (History.add (timestamp ∘ f)) h).map f := by
  induction as generalizing h with
  | nil => rfl
  | cons a as ih => rw [List.map_cons, List.foldl_cons, List.foldl_cons, History.map_add, ih]

theorem History.map_since (h : History α) (lookbackMs : Int) :
    (h.map f).since timestamp lookbackMs = (h.since (timestamp ∘ f) lookbackMs).map f := by
  unfold History.since History.map History.latest
  dsimp only
  rw [List.getLast?_map, Option.map_map, List.filter_map]
  rfl

end

/-! ## Runs -/

/-- The trades of a symbol among the inputs of the pipeline. -/
def tradesOfSymbol (symbol : String) (inputs : List Input) : List Trade :=
  inputs.filterMap fun
    | .trade trade => if trade.symbol = symbol then some trade else none
    | .book _      => none

/-- A step adds to a history the trade it takes for the symbol, if it takes one. -/
theorem tradeHistory_step (p : FeaturePipeline) (i : Input) (symbol : String) :
    ((pipelineStep p i).1.calculatorOf symbol).tradeHistory =
      (tradesOfSymbol symbol [i]).foldl (History.add Trade.timestamp) (p.calculatorOf symbol).tradeHistory := by
  cases i with
  | book u =>
      obtain ⟨book, hbook, -⟩ := getOrderBook_processL2Update p.matchingEngine u
      rw [pipelineStep_book p hbook]
      show ((Function.update p.featureCalculators u.symbol (some (p.calculatorAfter u.symbol book)) symbol).getD
        _).tradeHistory = _
      by_cases hsymbol : symbol = u.symbol
      · rw [hsymbol, Function.update_self]
        rfl
      · rw [Function.update_of_ne hsymbol]
        rfl
  | trade t =>
      show ((Function.update p.featureCalculators t.symbol _ symbol).getD _).tradeHistory = _
      by_cases hsymbol : t.symbol = symbol
      · have htrades : tradesOfSymbol symbol [.trade t] = [t] := List.filterMap_cons_some (if_pos hsymbol)
        rw [htrades, ← hsymbol, Function.update_self]
        rfl
      · have htrades : tradesOfSymbol symbol [.trade t] = [] := List.filterMap_cons_none (if_neg hsymbol)
        rw [htrades, Function.update_of_ne (Ne.symm hsymbol)]
        rfl

theorem tradeHistory_run (p : FeaturePipeline) (inputs : List Input) (symbol : String) :
    ((Machine.run pipelineStep p inputs).1.calculatorOf symbol).tradeHistory =
      (tradesOfSymbol symbol inputs).foldl (History.add Trade.timestamp) (p.calculatorOf symbol).tradeHistory := by
  induction inputs generalizing p with
  | nil => rfl
  | cons i inputs ih =>
      have hcons : tradesOfSymbol symbol (i :: inputs) =
          tradesOfSymbol symbol [i] ++ tradesOfSymbol symbol inputs := by
        rw [tradesOfSymbol, ← List.singleton_append, List.filterMap_append]
        rfl
      rw [Machine.run_cons, ih, tradeHistory_step, hcons, List.foldl_append]

/-- **The features of a symbol** are those of the trades it has been given. -/
theorem flow_of_getFeatures {lookbackMs : Int} {inputs : List Input} {symbol : String} {exchange : Exchange}
    {features : MarketFeatures}
    (h : (Machine.run pipelineStep (.new lookbackMs) inputs).1.getFeatures symbol exchange = some features) :
    let history := (tradesOfSymbol symbol inputs).foldl (History.add Trade.timestamp) (.new lookbackMs)
    features.tickFlowImbalance = FeatureCalculator.calcTickFlowImbalance history 1000 ∧
      features.tradeFlowImbalance = FeatureCalculator.calcTradeFlowImbalance history 1000 := by
  obtain ⟨calculator, hcalculator, hfeatures⟩ := Option.bind_eq_some_iff.mp h
  obtain ⟨book, -, rfl⟩ := Option.map_eq_some_iff.mp hfeatures
  have hrun := tradeHistory_run (.new lookbackMs) inputs symbol
  rw [calculatorOf, hcalculator, Option.getD_some] at hrun
  intro history
  have hhistory : calculator.tradeHistory = history := hrun
  rw [← hhistory]
  exact ⟨rfl, rfl⟩

/-! ## The flow of a window -/

variable {context : Context}

/-- The messages in the window the features are computed over. -/
def window (lookbackMs : Int) (passages : List (Passage context)) : List (Passage context) :=
  (passages.foldl (History.add fun x => x.trade.timestamp) (.new lookbackMs)).since (fun x => x.trade.timestamp) 1000

/-- The messages with this flag. -/
def flagged (isBuyerMaker : Bool) (W : List (Passage context)) : List (Passage context) :=
  W.filter fun x => x.message.isBuyerMaker = isBuyerMaker

def volume (W : List (Passage context)) : ℚ := (W.map fun x => x.message.quantity.value).sum

/-- What the features say of the window is what the exchange said. -/
structure Survives (features : MarketFeatures) (W : List (Passage context)) : Prop where
  tick  : features.tickFlowImbalance =
    FeatureCalculator.imbalance (flagged false W).length (flagged true W).length
  trade : features.tradeFlowImbalance =
    FeatureCalculator.imbalance (volume (flagged false W)) (volume (flagged true W))

/-- Buys, all of them read as positive, and not all of them lost on the wire. -/
structure Bought (W : List (Passage context)) : Prop where
  taker    : ∀ x ∈ W, x.message.isBuyerMaker = false
  read     : ∀ x ∈ W, 0 < x.read
  wire     : ∀ x ∈ W, 0 ≤ x.wire
  positive : W ≠ [] → ∃ x ∈ W, 0 < x.wire

/-- The messages whose trades are buys to the pipeline. -/
def seen (isBuy : Bool) (W : List (Passage context)) : List (Passage context) :=
  W.filter fun x => decide (0 < x.read) = isBuy

def wireVolume (W : List (Passage context)) : ℚ := (W.map fun x => unscale x.wire).sum

theorem tradesOf_map (side : Side) (lookbackMs : Int) (passages : List (Passage context)) :
    FeatureCalculator.tradesOf side
        ((passages.map Passage.trade).foldl (History.add Trade.timestamp) (.new lookbackMs)) 1000 =
      (seen (side = .buy) (window lookbackMs passages)).map Passage.trade := by
  have hside : ∀ x : Passage context,
      decide (x.trade.side = side) = decide (decide (0 < x.read) = decide (side = .buy)) := by
    intro x
    rw [x.trade_eq.1]
    by_cases hbuy : 0 < x.read <;> cases side <;> simp [hbuy]
  have hhistory : (passages.map Passage.trade).foldl (History.add Trade.timestamp) (.new lookbackMs) =
      (passages.foldl (History.add fun x => x.trade.timestamp) (.new lookbackMs)).map Passage.trade :=
    History.map_foldl_add Passage.trade Trade.timestamp (.new lookbackMs) passages
  have hwindow : TradeHistory.tradesSince
      ((passages.foldl (History.add fun x => x.trade.timestamp) (.new lookbackMs)).map Passage.trade) 1000 =
      (window lookbackMs passages).map Passage.trade := History.map_since Passage.trade Trade.timestamp _ 1000
  unfold FeatureCalculator.tradesOf
  rw [hhistory, hwindow, List.filter_map]
  refine congrArg (List.map Passage.trade) (List.filter_congr fun x _ => ?_)
  exact hside x

/-- **What the features are**: flows of what is seen. -/
theorem flow_eq {lookbackMs : Int} {inputs : List Input} {symbol : String} {exchange : Exchange}
    {features : MarketFeatures} {passages : List (Passage context)}
    (h : (Machine.run pipelineStep (.new lookbackMs) inputs).1.getFeatures symbol exchange = some features)
    (hpassages : tradesOfSymbol symbol inputs = passages.map Passage.trade) :
    features.tickFlowImbalance = FeatureCalculator.imbalance (seen true (window lookbackMs passages)).length
        (seen false (window lookbackMs passages)).length ∧
      features.tradeFlowImbalance = FeatureCalculator.imbalance (wireVolume (seen true (window lookbackMs passages)))
        (wireVolume (seen false (window lookbackMs passages))) := by
  have hvolume : ∀ W : List (Passage context), ((W.map Passage.trade).map Trade.quantity).sum = wireVolume W := by
    intro W
    rw [wireVolume, List.map_map]
    refine congrArg List.sum (List.map_congr_left fun x _ => ?_)
    exact x.trade_eq.2
  obtain ⟨htick, htrade⟩ := flow_of_getFeatures h
  rw [hpassages] at htick htrade
  rw [htick, htrade, FeatureCalculator.calcTickFlowImbalance, FeatureCalculator.calcTradeFlowImbalance, tradesOf_map,
    tradesOf_map, List.length_map, List.length_map, hvolume, hvolume]
  exact ⟨rfl, rfl⟩

theorem sum_pos {α : Type} {f : α → ℚ} {as : List α} (hnonneg : ∀ a ∈ as, 0 ≤ f a) (hpos : ∃ a ∈ as, 0 < f a) :
    0 < (as.map f).sum := by
  obtain ⟨a, ha, hfa⟩ := hpos
  have hle := List.single_le_sum (l := as.map f) (List.forall_mem_map.mpr hnonneg) _ (List.mem_map_of_mem ha)
  exact lt_of_lt_of_le hfa hle

theorem exists_pos_of_sum_pos {α : Type} {f : α → ℚ} {as : List α} (h : 0 < (as.map f).sum) : ∃ a ∈ as, 0 < f a := by
  by_contra hno
  push Not at hno
  have hle := List.sum_le_card_nsmul (as.map f) 0 (List.forall_mem_map.mpr hno)
  rw [nsmul_zero] at hle
  exact absurd h (not_lt.mpr hle)

theorem unscale_pos_iff {n : Int} : 0 < unscale n ↔ 0 < n := by
  rw [unscale, div_pos_iff_of_pos_right (by norm_num)]
  exact Int.cast_pos

theorem unscale_nonneg {n : Int} (h : 0 ≤ n) : 0 ≤ unscale n := div_nonneg (Int.cast_nonneg h) (by norm_num)

theorem volume_pos {W : List (Passage context)} (h : W ≠ []) : 0 < volume W := by
  obtain ⟨x, hx⟩ := List.exists_mem_of_ne_nil W h
  exact sum_pos (fun y _ => le_of_lt y.message.positive) ⟨x, hx, x.message.positive⟩

/-- A message has one flag or the other. -/
theorem volume_flagged_pos {W : List (Passage context)} (h : W ≠ []) :
    0 < volume (flagged false W) + volume (flagged true W) := by
  have hnonneg : ∀ V : List (Passage context), 0 ≤ volume V := fun V =>
    List.sum_nonneg (List.forall_mem_map.mpr fun x _ => le_of_lt x.message.positive)
  obtain ⟨x, hx⟩ := List.exists_mem_of_ne_nil W h
  have hpos : 0 < volume (flagged x.message.isBuyerMaker W) :=
    volume_pos (List.ne_nil_of_mem (List.mem_filter.mpr ⟨hx, decide_eq_true rfl⟩))
  cases hflag : x.message.isBuyerMaker with
  | false =>
      rw [hflag] at hpos
      exact add_pos_of_pos_of_nonneg hpos (hnonneg _)
  | true =>
      rw [hflag] at hpos
      exact add_pos_of_nonneg_of_pos (hnonneg _) hpos

theorem flagged_eq_self {W : List (Passage context)} (h : ∀ x ∈ W, x.message.isBuyerMaker = false) :
    flagged false W = W ∧ flagged true W = [] := by
  constructor
  · exact List.filter_eq_self.mpr fun x hx => decide_eq_true (h x hx)
  · refine List.filter_eq_nil_iff.mpr fun x hx => ?_
    rw [h x hx]
    decide

theorem seen_eq_self {W : List (Passage context)} (h : ∀ x ∈ W, 0 < x.read) :
    seen true W = W ∧ seen false W = [] := by
  constructor
  · exact List.filter_eq_self.mpr fun x hx => by rw [decide_eq_true (h x hx)]; rfl
  · refine List.filter_eq_nil_iff.mpr fun x hx => ?_
    rw [decide_eq_true (h x hx)]
    decide

theorem Bought.survives {features : MarketFeatures} {W : List (Passage context)} (h : Bought W)
    (htick : features.tickFlowImbalance = FeatureCalculator.imbalance (seen true W).length (seen false W).length)
    (htrade : features.tradeFlowImbalance =
      FeatureCalculator.imbalance (wireVolume (seen true W)) (wireVolume (seen false W))) : Survives features W := by
  obtain ⟨hfalse, htrue⟩ := flagged_eq_self h.taker
  obtain ⟨hbuys, hsells⟩ := seen_eq_self h.read
  rw [hbuys, hsells] at htick htrade
  refine ⟨by rw [htick, hfalse, htrue], ?_⟩
  rw [htrade, hfalse, htrue]
  by_cases hempty : W = []
  · rw [hempty]
    rfl
  · have hwire : 0 < wireVolume W := by
      obtain ⟨x, hx, hpos⟩ := h.positive hempty
      exact sum_pos (fun y hy => unscale_nonneg (h.wire y hy)) ⟨x, hx, unscale_pos_iff.mpr hpos⟩
    show FeatureCalculator.imbalance (wireVolume W) 0 = FeatureCalculator.imbalance (volume W) 0
    rw [imbalance_zero_right hwire, imbalance_zero_right (volume_pos hempty)]

/-- With nothing negative about, what is seen as a sell is nothing on the wire. -/
theorem wireVolume_seen_false {W : List (Passage context)} (hread : ∀ x ∈ W, 0 ≤ x.read) :
    wireVolume (seen false W) = 0 := by
  refine List.sum_eq_zero (List.forall_mem_map.mpr fun x hx => ?_)
  obtain ⟨hmem, hsell⟩ := List.mem_filter.mp hx
  have hno : ¬ 0 < x.read := of_decide_eq_false (of_decide_eq_true hsell)
  have hzero : x.read = 0 := le_antisymm (not_lt.mp hno) (hread x hmem)
  rw [x.wire_eq_zero hzero, unscale, Int.cast_zero, zero_div]

theorem Survives.bought {features : MarketFeatures} {W : List (Passage context)} (h : Survives features W)
    (htick : features.tickFlowImbalance = FeatureCalculator.imbalance (seen true W).length (seen false W).length)
    (htrade : features.tradeFlowImbalance =
      FeatureCalculator.imbalance (wireVolume (seen true W)) (wireVolume (seen false W)))
    (hread : ∀ x ∈ W, 0 ≤ x.read) (hwire : ∀ x ∈ W, 0 ≤ x.wire) : Bought W := by
  by_cases hempty : W = []
  · subst hempty
    have hno : ∀ {P : Passage context → Prop}, ∀ x ∈ ([] : List (Passage context)), P x :=
      fun x hx => absurd hx List.not_mem_nil
    exact ⟨hno, hno, hno, fun h => absurd rfl h⟩
  -- the flow of the volumes is whole, on both sides
  have hflow := h.trade.symm.trans htrade
  rw [wireVolume_seen_false hread] at hflow
  have hsome : FeatureCalculator.imbalance (volume (flagged false W)) (volume (flagged true W)) ≠ none := by
    rw [FeatureCalculator.imbalance, if_pos (volume_flagged_pos hempty)]
    exact Option.some_ne_none _
  have hpos : 0 < wireVolume (seen true W) := by
    by_contra hno
    rw [hflow, FeatureCalculator.imbalance, add_zero, if_neg hno] at hsome
    exact hsome rfl
  rw [imbalance_zero_right hpos] at hflow
  have hmakers : flagged true W = [] := by
    by_contra hne
    exact ne_of_gt (volume_pos hne) (imbalance_eq_one hflow)
  have htaker : ∀ x ∈ W, x.message.isBuyerMaker = false := by
    intro x hx
    refine Bool.eq_false_iff.mpr fun hmaker => ?_
    have hmem : x ∈ flagged true W := List.mem_filter.mpr ⟨hx, decide_eq_true hmaker⟩
    rw [hmakers] at hmem
    exact absurd hmem List.not_mem_nil
  -- and so is the flow of the counts
  have hticks := h.tick.symm.trans htick
  obtain ⟨hfalse, htrue⟩ := flagged_eq_self htaker
  have hlength : (0 : ℚ) < W.length := Nat.cast_pos.mpr (List.length_pos_iff.mpr hempty)
  rw [hfalse, htrue, List.length_nil, Nat.cast_zero, imbalance_zero_right hlength] at hticks
  have hsells : seen false W = [] := List.length_eq_zero_iff.mp (by exact_mod_cast imbalance_eq_one hticks.symm)
  refine ⟨htaker, fun x hx => ?_, hwire, fun _ => ?_⟩
  · by_contra hno
    have hmem : x ∈ seen false W := List.mem_filter.mpr ⟨hx, decide_eq_true (decide_eq_false hno)⟩
    rw [hsells] at hmem
    exact absurd hmem List.not_mem_nil
  · obtain ⟨x, hx, hsome⟩ := exists_pos_of_sum_pos hpos
    exact ⟨x, (List.mem_filter.mp hx).1, unscale_pos_iff.mp hsome⟩

/-- **The direction survives** the way of windows of buys; and where no quantity turns negative on the way, of no
    others. -/
theorem direction_survives {lookbackMs : Int} {inputs : List Input} {symbol : String} {exchange : Exchange}
    {features : MarketFeatures} {passages : List (Passage context)}
    (h : (Machine.run pipelineStep (.new lookbackMs) inputs).1.getFeatures symbol exchange = some features)
    (hpassages : tradesOfSymbol symbol inputs = passages.map Passage.trade) :
    (Bought (window lookbackMs passages) → Survives features (window lookbackMs passages)) ∧
      ((∀ x ∈ window lookbackMs passages, 0 ≤ x.read ∧ 0 ≤ x.wire) →
        Survives features (window lookbackMs passages) → Bought (window lookbackMs passages)) := by
  obtain ⟨htick, htrade⟩ := flow_eq h hpassages
  refine ⟨fun hbought => hbought.survives htick htrade, fun hnonneg hsurvives => ?_⟩
  exact hsurvives.bought htick htrade (fun x hx => (hnonneg x hx).1) fun x hx => (hnonneg x hx).2

/-! ## A sale -/

/-- A quarter of a bitcoin, sold. -/
def sale : TradeMessage where
  text            := Trades.quarterBitcoin
  quantity        := ⟨none, [digit 0], some [digit 2, digit 5], none, by decide⟩
  isBuyerMaker    := true
  notConfirmation := by decide +kernel
  isTrade         := by decide +kernel
  hasQuantity     := by decide +kernel
  hasMaker        := rfl
  positive        := by decide +kernel

/-- The same, bought. -/
def purchase : TradeMessage where
  text            := .object [("stream", .string "btcusdt@trade"), ("data", .object [("e", .string "trade"),
    ("s", .string "BTCUSDT"), ("p", .string "65000.5"), ("q", .string "0.25"), ("T", .ofNat 1700000000123),
    ("m", .bool false)])]
  quantity        := ⟨none, [digit 0], some [digit 2, digit 5], none, by decide⟩
  isBuyerMaker    := false
  notConfirmation := by decide +kernel
  isTrade         := by decide +kernel
  hasQuantity     := by decide +kernel
  hasMaker        := rfl
  positive        := by decide +kernel

/-- What the pipeline gets of either. -/
def saleTrade : Trade where
  exchange  := .binance
  symbol    := "BTC-USDT"
  timestamp := 1700000000123000
  price     := 130001 / 2
  quantity  := 1 / 4
  side      := .buy
  tradeId   := "0"

theorem received_of_readTrade {data : TradeData} {now : Nat} {packet : BinaryUdpPacket} {exchangeName : String}
    {trade : Trade} (hpacket : BinaryUdpPacket.fromTrade data now = some packet)
    (hread : readTrade packet.toBytes exchangeName = some trade) (agg : OrderBookAggregator) :
    .trade trade ∈ (handlePacket agg packet.toBytes exchangeName .trade).2 := by
  obtain ⟨-, item, -, hreads⟩ := readsTrade_fromTrade hpacket
  rw [handlePacket, if_neg (Nat.not_lt.mpr hreads.header_le), hread]
  exact List.mem_singleton.mpr rfl

/-- The way of a message of a quarter of a bitcoin. -/
def passageOf (message : TradeMessage)
    (h : Binance.tradeOf Timestamps.millisContext "spot" ⟨1700000000200, 1700000000200⟩
      (Feed.actualData message.text) = some Trades.quarterBitcoinTrade) : Passage Timestamps.millisContext where
  message  := message
  data     := Trades.quarterBitcoinTrade
  trade    := saleTrade
  made     := by
    refine ⟨fun _ => none, "spot", ⟨1700000000200, 1700000000200⟩, ?_⟩
    rw [Trades.processBinanceMessage_trade _ _ message.notConfirmation message.isTrade]
    exact List.mem_filterMap.mpr ⟨_, List.mem_singleton.mpr rfl, h⟩
  received := by
    have hway : ((BinaryUdpPacket.fromTrade Trades.quarterBitcoinTrade 1700000000200000000).bind fun packet =>
        readTrade packet.toBytes "binance") = some saleTrade := by decide +kernel
    obtain ⟨packet, hpacket, hread⟩ := Option.bind_eq_some_iff.mp hway
    exact ⟨_, packet, .new, "binance", hpacket, received_of_readTrade hpacket hread .new⟩

def salePassage : Passage Timestamps.millisContext := passageOf sale (by decide +kernel)

def purchasePassage : Passage Timestamps.millisContext := passageOf purchase (by decide +kernel)

/-- A book, so that there are features, and the trade. -/
def saleInputs : List Input := [.book (emptyUpdate .binance "BTC-USDT"), .trade saleTrade]

theorem window_singleton {lookbackMs : Int} (h : 0 ≤ lookbackMs) (x : Passage context) :
    window lookbackMs [x] = [x] := by
  have hentries := @entries_add_new _ (fun x : Passage context => x.trade.timestamp) lookbackMs h x
  unfold window History.since History.latest
  rw [List.foldl_cons, List.foldl_nil, hentries]
  refine List.filter_eq_self.mpr fun y hy => ?_
  rw [List.mem_singleton.mp hy]
  refine decide_eq_true ?_
  show x.trade.timestamp - 1000 * 1000 ≤ x.trade.timestamp
  omega

/-- The features are right about the purchase. -/
theorem direction_survives_purchase : ∃ features,
    (Machine.run pipelineStep (.new 60000) saleInputs).1.getFeatures "BTC-USDT" .binance = some features ∧
      window 60000 [purchasePassage] = [purchasePassage] ∧ Survives features (window 60000 [purchasePassage]) := by
  obtain ⟨features, hfeatures⟩ := Option.isSome_iff_exists.mp (show ((Machine.run pipelineStep (.new 60000)
    saleInputs).1.getFeatures "BTC-USDT" .binance).isSome by decide +kernel)
  have hwindow := window_singleton (show (0 : Int) ≤ 60000 by decide) purchasePassage
  have hread : purchasePassage.read = 25000000 := by decide +kernel
  have hwire : purchasePassage.wire = 25000000 := by decide +kernel
  have hbought : Bought [purchasePassage] := {
    taker    := fun x hx => by rw [List.mem_singleton.mp hx]; rfl
    read     := fun x hx => by rw [List.mem_singleton.mp hx, hread]; decide
    wire     := fun x hx => by rw [List.mem_singleton.mp hx, hwire]; decide
    positive := fun _ => ⟨_, List.mem_singleton.mpr rfl, by rw [hwire]; decide⟩ }
  refine ⟨features, hfeatures, hwindow, ?_⟩
  exact (@direction_survives _ _ _ _ _ _ [purchasePassage] hfeatures rfl).1 (hwindow.symm ▸ hbought)

/-- The features call the sale a buy. -/
theorem sale_turned : ∃ features,
    (Machine.run pipelineStep (.new 60000) saleInputs).1.getFeatures "BTC-USDT" .binance = some features ∧
      tradesOfSymbol "BTC-USDT" saleInputs = [salePassage].map Passage.trade ∧
      ¬ Survives features (window 60000 [salePassage]) := by
  obtain ⟨features, hfeatures⟩ := Option.isSome_iff_exists.mp (show ((Machine.run pipelineStep (.new 60000)
    saleInputs).1.getFeatures "BTC-USDT" .binance).isSome by decide +kernel)
  refine ⟨features, hfeatures, rfl, fun hsurvives => ?_⟩
  obtain ⟨htick, htrade⟩ := @flow_eq Timestamps.millisContext _ _ _ _ _ [salePassage] hfeatures rfl
  rw [window_singleton (by decide)] at hsurvives htick htrade
  have hread : salePassage.read = 25000000 := by decide +kernel
  have hwire : salePassage.wire = 25000000 := by decide +kernel
  have hbought := hsurvives.bought htick htrade
    (fun x hx => by rw [List.mem_singleton.mp hx, hread]; decide)
    (fun x hx => by rw [List.mem_singleton.mp hx, hwire]; decide)
  exact absurd (hbought.taker salePassage (List.mem_singleton.mpr rfl)) (by decide)

end Features
end TradingPlatform
