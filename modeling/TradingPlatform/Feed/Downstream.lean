import TradingPlatform.Feed.Delivered
import TradingPlatform.Hft.Integration
import TradingPlatform.Hft.Meaning
import Mathlib.Data.List.Infix

/-!
# `Feed.Downstream` — the book behind the synchroniser

The exchange's book is the snapshot with the later events written over it, in prices. The book of the feeder is
what `publish` makes of the delivered messages. The snapshot's own levels are never handed on: only its id is
used. So the two agree exactly when the events have rewritten every level of the snapshot
(`book_shows_market_iff`).
-/

namespace TradingPlatform
namespace Feed

open Json Market Rust Hft Ladder BinanceOrderbookSynchronizer BufferedDepthEvent HFTOrderBookProcessor

/-! ## The exchange's book -/

/-- A level as a write: prices as they are, quantities in the book's units of `1e-8`, zero deleting. -/
def marketOp (level : PriceLevel) : ℚ × Option Int :=
  let quantity := asI64 (level.quantity * 10 ^ 8)
  (level.price, if quantity = 0 then none else some quantity)

/-- One side of a market from nothing, best price first. -/
def marketSide (better : ℚ → ℚ → Prop) [DecidableRel better] (levels : List PriceLevel) : List (ℚ × Int) :=
  replay better [] (levels.map marketOp)

/-- The pairs of numerals among the snapshot's pairs of strings. -/
def snapshotLevels (pairs : List (String × String)) : List PriceLevel :=
  pairs.filterMap fun (price, quantity) => do
    let price ← parseF64 price
    let quantity ← parseF64 quantity
    return { price, quantity }

/-- The levels of one side of the events, one event after the other. -/
def eventLevels (short long : String) (es : List BufferedDepthEvent) : List PriceLevel :=
  es.flatMap fun e => messageLevels e.data short long

abbrev bidLevels : List BufferedDepthEvent → List PriceLevel := eventLevels "b" "bids"
abbrev askLevels : List BufferedDepthEvent → List PriceLevel := eventLevels "a" "asks"

/-- The exchange's bids: those of the snapshot, then what the events write. -/
def exchangeBids (snap : BinanceSnapshot) (es : List BufferedDepthEvent) : List (ℚ × Int) :=
  marketSide (· > ·) (snapshotLevels snap.bids ++ bidLevels es)

def exchangeAsks (snap : BinanceSnapshot) (es : List BufferedDepthEvent) : List (ℚ × Int) :=
  marketSide (· < ·) (snapshotLevels snap.asks ++ askLevels es)

/-! ## Ticks and prices -/

/-- The price is a number of ticks that the book can hold. -/
def OnTick (tickSize price : ℚ) : Prop := (price / tickSize).den = 1 ∧ InI64 (price / tickSize).num

instance (tickSize price : ℚ) : Decidable (OnTick tickSize price) := inferInstanceAs (Decidable (_ ∧ _))

/-- A level of the book in prices. -/
def priced (tickSize : ℚ) (level : FastPriceLevel) : ℚ × Int := (level.priceTicks * tickSize, level.quantity)

section Side

variable {tickSize : ℚ}

theorem priceTicks_of_onTick (htick : tickSize ≠ 0) {level : PriceLevel} (h : OnTick tickSize level.price) :
    ((convertLevel tickSize level).priceTicks : ℚ) * tickSize = level.price := by
  have hnum : ((level.price / tickSize).num : ℚ) = level.price / tickSize :=
    Rat.coe_int_num_of_den_eq_one h.1
  have hprice : level.price = (level.price / tickSize).num * tickSize := by
    rw [hnum, div_mul_cancel₀ _ htick]
  have hticks := priceTicks_convertLevel htick h.2 level.quantity
  rw [← hprice] at hticks
  rw [show (convertLevel tickSize level).priceTicks = _ from hticks, ← hprice]

/-- The writes of a side in ticks, as the book makes them. -/
def tickOps (tickSize : ℚ) (levels : List PriceLevel) : List (Int × Option Int) :=
  (levels.map (convertLevel tickSize)).map levelOp

/-- A write or an entry in ticks, in prices. -/
abbrev inPrices {V : Type} (tickSize : ℚ) : Int × V → ℚ × V := Prod.map (fun n : Int => n * tickSize) id

theorem inPrices_injective (htick : tickSize ≠ 0) : Function.Injective fun n : Int => (n : ℚ) * tickSize := by
  intro a b hab
  exact Int.cast_injective (mul_right_cancel₀ htick hab)

theorem map_marketOp (htick : tickSize ≠ 0) {levels : List PriceLevel}
    (h : ∀ l ∈ levels, OnTick tickSize l.price) :
    levels.map marketOp = (tickOps tickSize levels).map (inPrices tickSize) := by
  unfold tickOps
  rw [List.map_map, List.map_map]
  apply List.map_congr_left
  intro l hl
  show marketOp l = (((convertLevel tickSize l).priceTicks : ℚ) * tickSize, _)
  rw [priceTicks_of_onTick htick (h l hl)]
  rfl

/-- A price among the writes is a price among the levels. -/
theorem lastWrite_tickOps_ne_none_iff (htick : tickSize ≠ 0) {levels : List PriceLevel}
    (h : ∀ l ∈ levels, OnTick tickSize l.price) (n : Int) :
    lastWrite n (tickOps tickSize levels) ≠ none ↔ ∃ l ∈ levels, l.price = n * tickSize := by
  rw [tickOps, Ne, lastWrite_none_iff, List.forall_mem_map]
  push Not
  refine exists_congr fun l => and_congr_right fun hl => ?_
  rw [← priceTicks_of_onTick htick (h l hl)]
  exact (inPrices_injective htick).eq_iff.symm

variable {better : Int → Int → Prop} [DecidableRel better]
  {priceBetter : ℚ → ℚ → Prop} [DecidableRel priceBetter]

/-- The market in prices is the market in ticks. -/
theorem marketSide_eq (htick : tickSize ≠ 0)
    (horder : ∀ a b : Int, priceBetter (a * tickSize) (b * tickSize) ↔ better a b) {levels : List PriceLevel}
    (h : ∀ l ∈ levels, OnTick tickSize l.price) :
    marketSide priceBetter levels = (replay better [] (tickOps tickSize levels)).map (inPrices tickSize) := by
  rw [marketSide, map_marketOp htick h, map_replay (inPrices_injective htick) horder]
  rfl

theorem marketSide_append_eq (htick : tickSize ≠ 0)
    (horder : ∀ a b : Int, priceBetter (a * tickSize) (b * tickSize) ↔ better a b) {snapshot levels : List PriceLevel}
    (hsnap : ∀ l ∈ snapshot, OnTick tickSize l.price) (h : ∀ l ∈ levels, OnTick tickSize l.price) :
    marketSide priceBetter (snapshot ++ levels)
      = (replay better (replay better [] (tickOps tickSize snapshot)) (tickOps tickSize levels)).map
          (inPrices tickSize) := by
  rw [marketSide_eq htick horder fun l hl => (List.mem_append.mp hl).elim (hsnap l) (h l)]
  unfold tickOps
  rw [List.map_append, List.map_append, replay_append]

theorem tickOps_eventLevels (short long : String) (es : List BufferedDepthEvent) :
    tickOps tickSize (eventLevels short long es)
      = ((es.map BufferedDepthEvent.data).flatMap (tickLevels tickSize · short long)).map levelOp := by
  unfold tickOps eventLevels
  rw [List.map_flatMap, List.flatMap_map]
  rfl

variable (better priceBetter) [IsStrictTotalOrder Int better]

/-- **One side.** A bounded replay of the events alone shows the market iff the events write every price that
    is live in the snapshot. -/
theorem priced_eq_marketSide_iff (htick : 0 < tickSize)
    (horder : ∀ a b : Int, priceBetter (a * tickSize) (b * tickSize) ↔ better a b)
    {snapshot levels : List PriceLevel} (hsnap : ∀ l ∈ snapshot, OnTick tickSize l.price)
    (hlevels : ∀ l ∈ levels, OnTick tickSize l.price)
    (hdepth : ∀ ls ∈ levels.inits, (marketSide priceBetter (snapshot ++ ls)).length ≤ maxDepth)
    {live : List FastPriceLevel}
    (hlive : live.map entry = replayBounded better maxDepth [] (tickOps tickSize levels)) :
    live.map (priced tickSize) = marketSide priceBetter (snapshot ++ levels) ↔
      ∀ e ∈ marketSide priceBetter snapshot, ∃ l ∈ levels, l.price = e.1 := by
  have hne : tickSize ≠ 0 := ne_of_gt htick
  have hfit : ∀ j, (replay better (replay better [] (tickOps tickSize snapshot))
      ((tickOps tickSize levels).take j)).length ≤ maxDepth := by
    intro j
    have hj := hdepth (levels.take j) ((List.mem_inits _ _).mpr (List.take_prefix j levels))
    rw [marketSide_append_eq hne horder hsnap fun l hl => hlevels l (List.mem_of_mem_take hl),
      List.length_map] at hj
    unfold tickOps at hj ⊢
    rw [← List.map_take, ← List.map_take]
    exact hj
  have hpriced : live.map (priced tickSize) = (live.map entry).map (inPrices tickSize) := by
    rw [List.map_map]
    rfl
  have hinj : Function.Injective (List.map (inPrices (V := Int) tickSize)) :=
    List.map_injective_iff.mpr ((inPrices_injective hne).prodMap Function.injective_id)
  -- both sides as renamed replays: what is compared is the run from scratch with the run from the snapshot
  rw [hpriced, hlive, marketSide_append_eq hne horder hsnap hlevels, hinj.eq_iff,
    replayBounded_nil_eq_iff (sorted_replay sorted_nil _) hfit, marketSide_eq hne horder hsnap, List.forall_mem_map]
  exact forall_congr' fun e => forall_congr' fun _ => lastWrite_tickOps_ne_none_iff hne hlevels e.1

end Side

/-! ## The run -/

/-- What is taken for granted about the messages past the snapshot: ten levels a side at most, prices on ticks,
    and never more than `MAX_DEPTH` levels on a side of the exchange's book. -/
structure Tame (tickSize : ℚ) (snap : BinanceSnapshot) (es : List BufferedDepthEvent) : Prop where
  short          : ∀ e ∈ es, Short e.data
  snapshotOnTick : ∀ l ∈ snapshotLevels snap.bids ++ snapshotLevels snap.asks, OnTick tickSize l.price
  eventsOnTick   : ∀ l ∈ bidLevels es ++ askLevels es, OnTick tickSize l.price
  bidDepth       : ∀ ls ∈ (bidLevels es).inits,
                     (marketSide (· > ·) (snapshotLevels snap.bids ++ ls)).length ≤ maxDepth
  askDepth       : ∀ ls ∈ (askLevels es).inits,
                     (marketSide (· < ·) (snapshotLevels snap.asks ++ ls)).length ≤ maxDepth

instance (tickSize : ℚ) (snap : BinanceSnapshot) (es : List BufferedDepthEvent) :
    Decidable (Tame tickSize snap es) :=
  decidable_of_iff
    ((∀ e ∈ es, Short e.data) ∧
      (∀ l ∈ snapshotLevels snap.bids ++ snapshotLevels snap.asks, OnTick tickSize l.price) ∧
      (∀ l ∈ bidLevels es ++ askLevels es, OnTick tickSize l.price) ∧
      (∀ ls ∈ (bidLevels es).inits, (marketSide (· > ·) (snapshotLevels snap.bids ++ ls)).length ≤ maxDepth) ∧
      (∀ ls ∈ (askLevels es).inits, (marketSide (· < ·) (snapshotLevels snap.asks ++ ls)).length ≤ maxDepth))
    ⟨fun ⟨h₁, h₂, h₃, h₄, h₅⟩ => ⟨h₁, h₂, h₃, h₄, h₅⟩, fun ⟨h₁, h₂, h₃, h₄, h₅⟩ => ⟨h₁, h₂, h₃, h₄, h₅⟩⟩

/-- The book of the symbol after the delivered messages. -/
def bookAfter (now : Int) (symbol : String) (id : Nat) (d : Downstream) (delivered : List Value) :
    FastOrderBook :=
  (delivered.foldl (publish now symbol) d).1.orderbooks id

/-- The book is the exchange's book. -/
def Shows (tickSize : ℚ) (snap : BinanceSnapshot) (es : List BufferedDepthEvent) (b : FastOrderBook) : Prop :=
  b.liveBids.map (priced tickSize) = exchangeBids snap es ∧
  b.liveAsks.map (priced tickSize) = exchangeAsks snap es

instance (tickSize : ℚ) (snap : BinanceSnapshot) (es : List BufferedDepthEvent) (b : FastOrderBook) :
    Decidable (Shows tickSize snap es b) := inferInstanceAs (Decidable (_ ∧ _))

/-- Every price live in the snapshot is written by some event, on its side. -/
def Rewritten (snap : BinanceSnapshot) (es : List BufferedDepthEvent) : Prop :=
  (∀ e ∈ exchangeBids snap [], ∃ l ∈ bidLevels es, l.price = e.1) ∧
  (∀ e ∈ exchangeAsks snap [], ∃ l ∈ askLevels es, l.price = e.1)

instance (snap : BinanceSnapshot) (es : List BufferedDepthEvent) : Decidable (Rewritten snap es) :=
  inferInstanceAs (Decidable (_ ∧ _))

/-- A message with a sequence number is integrated under that number. -/
theorem updateIdOf_eq {data : Value} (h : 0 < (depthEvent data).finalUpdateId) :
    updateIdOf data = (depthEvent data).finalUpdateId := by
  change 0 < ((data.get? "u").bind Value.asU64?).getD 0 at h
  show (((data.get? "u").or (data.get? "lastUpdateId")).bind Value.asU64?).getD 0
    = ((data.get? "u").bind Value.asU64?).getD 0
  cases hu : data.get? "u" with
  | none =>
      rw [hu] at h
      exact absurd h (Nat.lt_irrefl 0)
  | some u => rfl

/-- The delivered messages carry increasing ids, all past the snapshot. -/
theorem pairwise_updateIdOf {last : Nat} {is : List SyncInput} (hord : InOrder (received is)) :
    ((retained last (received is)).map BufferedDepthEvent.data).Pairwise
        (fun d d' => updateIdOf d < updateIdOf d') ∧
      ∀ d ∈ (retained last (received is)).map BufferedDepthEvent.data, 0 < updateIdOf d := by
  have hid : ∀ e ∈ retained last (received is), updateIdOf e.data = e.finalUpdateId ∧ last < e.finalUpdateId := by
    intro e he
    obtain ⟨hmem, hlt⟩ := List.mem_filter.mp he
    have hlt : last < e.finalUpdateId := of_decide_eq_true hlt
    have hself := depthEvent_of_received hmem
    refine ⟨(updateIdOf_eq ?_).trans (congrArg finalUpdateId hself), hlt⟩
    rw [hself]
    omega
  obtain ⟨hpair, hwf⟩ := hord.pairwise
  constructor
  · rw [List.pairwise_map]
    refine (hpair.sublist List.filter_sublist).imp_of_mem ?_
    intro a b ha hb hab
    rw [(hid a ha).1, (hid b hb).1]
    exact Nat.lt_of_lt_of_le hab (hwf b (List.mem_of_mem_filter hb))
  · intro d hd
    obtain ⟨e, he, rfl⟩ := List.mem_map.mp hd
    obtain ⟨heq, hlt⟩ := hid e he
    omega

/-- **When the downstream book is the exchange's book.** In every run in which an in-order stream synchronises
    with its snapshot, the book of the delivered messages shows the snapshot with the later events written over
    it iff those events have rewritten every level of the snapshot. -/
theorem book_shows_market_iff (symbol assetType : String) {snap : BinanceSnapshot} {is : List SyncInput}
    (hfetch : OnlyFetches snap is) (hord : InOrder (received is))
    (hsync : (Machine.run syncStep (new symbol assetType) is).1.isSynchronized = true)
    (now : Int) {id : Nat} {tickSize : ℚ} (htick : 0 < tickSize) {d : Downstream}
    (hd : Idle symbol id tickSize d)
    (htame : Tame tickSize snap (retained snap.lastUpdateId (received is))) :
    Shows tickSize snap (retained snap.lastUpdateId (received is))
        (bookAfter now symbol id d (Machine.run syncStep (new symbol assetType) is).2) ↔
      Rewritten snap (retained snap.lastUpdateId (received is)) := by
  rw [delivered_of_inOrder symbol assetType hfetch hord hsync]
  obtain ⟨hinc, hpos⟩ := @pairwise_updateIdOf snap.lastUpdateId is hord
  -- from here on only the delivered events matter, not the run that delivered them
  generalize retained snap.lastUpdateId (received is) = es at hinc hpos htame ⊢
  have hshort : ∀ data ∈ es.map BufferedDepthEvent.data, Short data := List.forall_mem_map.mpr htame.short
  have hfresh : ∀ data ∈ es.map BufferedDepthEvent.data, (d.1.orderbooks id).lastUpdateId < updateIdOf data := by
    rw [hd.empty]
    exact hpos
  obtain ⟨hfits, hbids, hasks⟩ := entries_publish now hshort hinc hd.ready hfresh
  rw [hd.empty, ← tickOps_eventLevels, hfits.bidEntries_eq] at hbids
  rw [hd.empty, ← tickOps_eventLevels, hfits.askEntries_eq] at hasks
  have hmul : ∀ a b : Int, ((a : ℚ) * tickSize < b * tickSize ↔ a < b) := by
    intro a b
    rw [mul_lt_mul_iff_left₀ htick, Int.cast_lt]
  have hbid := priced_eq_marketSide_iff bidBetter (· > ·) htick (fun a b => hmul b a)
    (fun l hl => htame.snapshotOnTick l (List.mem_append_left _ hl))
    (fun l hl => htame.eventsOnTick l (List.mem_append_left _ hl)) htame.bidDepth hbids
  have hask := priced_eq_marketSide_iff askBetter (· < ·) htick hmul
    (fun l hl => htame.snapshotOnTick l (List.mem_append_right _ hl))
    (fun l hl => htame.eventsOnTick l (List.mem_append_right _ hl)) htame.askDepth hasks
  have hnothing : exchangeBids snap [] = marketSide (· > ·) (snapshotLevels snap.bids) ∧
      exchangeAsks snap [] = marketSide (· < ·) (snapshotLevels snap.asks) :=
    ⟨congrArg _ (List.append_nil _), congrArg _ (List.append_nil _)⟩
  unfold Rewritten
  rw [hnothing.1, hnothing.2]
  exact and_congr hbid hask

/-! ## One message over a snapshot -/

def pairsValue (pairs : List (String × String)) : Value :=
  .array (pairs.map fun (price, quantity) => .array [.string price, .string quantity])

/-- A spot depth message with levels. -/
def levelsMessage (U u : Nat) (bids asks : List (String × String)) : Value :=
  .object [("e", .string "depthUpdate"), ("U", Value.ofNat U), ("u", Value.ofNat u), ("b", pairsValue bids),
    ("a", pairsValue asks)]

/-- One level a side. -/
def smallSnapshot : BinanceSnapshot := ⟨"BTCUSDT", 100, [("99.00", "1.5")], [("101.00", "2")]⟩

/-- The snapshot arrives, then one message with new bids and a new quantity at the ask. -/
def smallRun (bids : List (String × String)) : List SyncInput :=
  [.fetched smallSnapshot, .message (levelsMessage 95 105 bids [("101.00", "3")])]

/-- The feeder with one symbol. -/
def btcFeeder : Downstream := ((HFTOrderBookProcessor.new.registerSymbol "BTCUSDT" (1 / 100)).1,
  List.replicate batchSize none)

theorem onlyFetches_smallRun (bids : List (String × String)) : OnlyFetches smallSnapshot (smallRun bids) := by
  intro snap h
  rcases List.mem_cons.mp h with h | h
  · exact SyncInput.fetched.inj h
  · cases List.mem_singleton.mp h

theorem idle_btcFeeder : Idle "BTCUSDT" 0 (1 / 100) btcFeeder where
  registered := ⟨by decide +kernel, by decide +kernel, by decide⟩
  caughtUp   := ⟨by decide +kernel, by decide +kernel, by decide⟩
  empty      := by decide +kernel

/-- The message deletes the snapshot's bid and rewrites its ask. -/
theorem smallRun_shows_market :
    Shows (1 / 100) smallSnapshot (retained 100 (received (smallRun [("100.00", "1"), ("99.00", "0")])))
      (bookAfter 0 "BTCUSDT" 0 btcFeeder
        (Machine.run syncStep (new "BTCUSDT" "spot") (smallRun [("100.00", "1"), ("99.00", "0")])).2) :=
  (book_shows_market_iff "BTCUSDT" "spot" (onlyFetches_smallRun _) (by decide +kernel) (by decide +kernel) 0
    (by norm_num) idle_btcFeeder (by decide +kernel)).mpr (by decide +kernel)

/-- The message leaves the snapshot's bid at 99 alone: the exchange has it, the book has not. -/
theorem smallRun_misses_bid :
    OnlyFetches smallSnapshot (smallRun [("100.00", "1")]) ∧
    InOrder (received (smallRun [("100.00", "1")])) ∧
    (Machine.run syncStep (new "BTCUSDT" "spot") (smallRun [("100.00", "1")])).1.isSynchronized = true ∧
    Idle "BTCUSDT" 0 (1 / 100) btcFeeder ∧
    Tame (1 / 100) smallSnapshot (retained 100 (received (smallRun [("100.00", "1")]))) ∧
    ¬ Shows (1 / 100) smallSnapshot (retained 100 (received (smallRun [("100.00", "1")])))
      (bookAfter 0 "BTCUSDT" 0 btcFeeder
        (Machine.run syncStep (new "BTCUSDT" "spot") (smallRun [("100.00", "1")])).2) :=
  ⟨onlyFetches_smallRun _, by decide +kernel, by decide +kernel, idle_btcFeeder, by decide +kernel,
    by decide +kernel⟩

end Feed
end TradingPlatform
