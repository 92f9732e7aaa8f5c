import TradingPlatform.Engine.Book
import TradingPlatform.Features.Calculator

/-!
# `Features.Pipeline` — one pipeline, several venues

`FeaturePipeline` sends order book updates through one matching engine and keeps one calculator per symbol.
The exchange only labels the features. So a venue is disturbed by every input of another venue for the same
symbol, and by nothing else (`venues_apart_iff`).
-/

namespace TradingPlatform
namespace Features

open Market Engine

structure FeaturePipeline where
  matchingEngine     : MatchingEngine
  featureCalculators : String → Option FeatureCalculator
  lookbackMs         : Int

namespace FeaturePipeline

def new (lookbackMs : Int) : FeaturePipeline :=
  { matchingEngine := .new, featureCalculators := fun _ => none, lookbackMs }

/-- The calculator of the symbol, created if there is none. -/
def calculatorOf (p : FeaturePipeline) (symbol : String) : FeatureCalculator :=
  (p.featureCalculators symbol).getD (.new p.lookbackMs)

/-- Process an order book update through the matching engine and calculate features. -/
def processOrderBookUpdate (p : FeaturePipeline) (update : OrderBookUpdate) :
    FeaturePipeline × Option MarketFeatures :=
  let p := { p with matchingEngine := (p.matchingEngine.processL2Update update).1 }
  match p.matchingEngine.getOrderBook update.symbol with
  | some book =>
      let calculator := (p.calculatorOf update.symbol).updateOrderBook book
      ({ p with featureCalculators := Function.update p.featureCalculators update.symbol (some calculator) },
        calculator.calculateFeatures update.symbol update.exchange)
  | none => (p, none)

def processTrade (p : FeaturePipeline) (trade : Trade) : FeaturePipeline :=
  let calculator := (p.calculatorOf trade.symbol).updateTrade trade
  { p with featureCalculators := Function.update p.featureCalculators trade.symbol (some calculator) }

/-- Get current features for a symbol. -/
def getFeatures (p : FeaturePipeline) (symbol : String) (exchange : Exchange) : Option MarketFeatures := do
  let calculator ← p.featureCalculators symbol
  calculator.calculateFeatures symbol exchange

/-! ## Runs -/

inductive Input where
  | book (update : OrderBookUpdate)
  | trade (trade : Trade)

def Input.symbol : Input → String
  | .book u  => u.symbol
  | .trade t => t.symbol

def Input.exchange : Input → Exchange
  | .book u  => u.exchange
  | .trade t => t.exchange

/-- What an order book update shows: the engine's book and the features returned. -/
structure Shown where
  exchange : Exchange
  symbol   : String
  book     : Option OrderBook
  features : Option MarketFeatures
deriving DecidableEq, Repr

def pipelineStep (p : FeaturePipeline) : Input → FeaturePipeline × List Shown
  | .book update =>
      let result := p.processOrderBookUpdate update
      (result.1, [{ exchange := update.exchange, symbol := update.symbol,
                    book := result.1.matchingEngine.getOrderBook update.symbol, features := result.2 }])
  | .trade trade => (p.processTrade trade, [])

/-- The inputs of one venue for one symbol. -/
def own (exchange : Exchange) (symbol : String) (i : Input) : Bool :=
  i.exchange = exchange ∧ i.symbol = symbol

/-- What is shown for them. -/
def ownShown (exchange : Exchange) (symbol : String) (o : Shown) : Bool :=
  o.exchange = exchange ∧ o.symbol = symbol

/-- What the pipeline shows a venue for a symbol does not depend on the other inputs, as long as all inputs
    are of the given kind. -/
def VenuesApart (lookbackMs : Int) (admissible : Input → Prop) (exchange : Exchange) (symbol : String) : Prop :=
  Machine.NonInterfering pipelineStep (.new lookbackMs) admissible (own exchange symbol) (ownShown exchange symbol)

/-! ## What a step does to one symbol -/

/-- The pipelines agree on everything they keep for the symbol. -/
structure SameFor (symbol : String) (p q : FeaturePipeline) : Prop where
  book       : p.matchingEngine.orderBooks symbol = q.matchingEngine.orderBooks symbol
  calculator : p.featureCalculators symbol = q.featureCalculators symbol
  lookbackMs : p.lookbackMs = q.lookbackMs

theorem SameFor.refl (symbol : String) (p : FeaturePipeline) : SameFor symbol p p := ⟨rfl, rfl, rfl⟩

theorem SameFor.symm {symbol : String} {p q : FeaturePipeline} (h : SameFor symbol p q) : SameFor symbol q p :=
  ⟨h.book.symm, h.calculator.symm, h.lookbackMs.symm⟩

theorem SameFor.trans {symbol : String} {p q r : FeaturePipeline} (h : SameFor symbol p q)
    (h' : SameFor symbol q r) : SameFor symbol p r :=
  ⟨h.book.trans h'.book, h.calculator.trans h'.calculator, h.lookbackMs.trans h'.lookbackMs⟩

theorem SameFor.calculatorOf {symbol : String} {p q : FeaturePipeline} (h : SameFor symbol p q) :
    p.calculatorOf symbol = q.calculatorOf symbol := by
  unfold FeaturePipeline.calculatorOf
  rw [h.calculator, h.lookbackMs]

/-- The levels after an update do not depend on the counter. -/
theorem levels_processSideUpdates_congr (side : Side) (timestamp : Int) {s t : SideState} (h : s.levels = t.levels)
    (us : List PriceLevel) :
    (processSideUpdates side timestamp s us).1.levels = (processSideUpdates side timestamp t us).1.levels := by
  have hlevel : ∀ {s t : SideState} (u : PriceLevel), s.levels = t.levels →
      (processLevel side timestamp s u).1.levels = (processLevel side timestamp t u).1.levels := by
    intro s t u hst
    unfold processLevel
    rw [hst]
    split
    · dsimp only
      split_ifs <;> first | rfl | exact hst
    · split_ifs <;> first | rfl | exact hst
  induction us generalizing s t with
  | nil => exact h
  | cons u us ih => exact ih (hlevel u h)

/-- The book after an update depends on the book before it alone. -/
theorem orderBooks_processL2Update_congr {e f : MatchingEngine} {u : OrderBookUpdate}
    (h : e.orderBooks u.symbol = f.orderBooks u.symbol) :
    (e.processL2Update u).1.orderBooks u.symbol = (f.processL2Update u).1.orderBooks u.symbol := by
  have hbook : e.bookOf u.symbol u.exchange = f.bookOf u.symbol u.exchange := by
    unfold MatchingEngine.bookOf
    rw [h]
  have hlevels : ∀ side, (e.processL2Update u).1.levels side u.symbol = (f.processL2Update u).1.levels side u.symbol := by
    intro side
    obtain ⟨c, he⟩ := MatchingEngine.levels_processL2Update e u side
    obtain ⟨d, hf⟩ := MatchingEngine.levels_processL2Update f u side
    rw [he, hf]
    apply levels_processSideUpdates_congr
    simp only [MatchingEngine.startLevels, MatchingEngine.levels, MatchingEngine.getOrderBook, h]
  rw [MatchingEngine.orderBooks_processL2Update, MatchingEngine.orderBooks_processL2Update, Function.update_self,
    Function.update_self, hbook, hlevels, hlevels]

theorem orderBooks_processL2Update_of_ne (e : MatchingEngine) {u : OrderBookUpdate} {symbol : String}
    (h : symbol ≠ u.symbol) : (e.processL2Update u).1.orderBooks symbol = e.orderBooks symbol := by
  rw [MatchingEngine.orderBooks_processL2Update, Function.update_of_ne h]

/-- The book an update works on is there afterwards. -/
theorem getOrderBook_processL2Update (e : MatchingEngine) (u : OrderBookUpdate) :
    ∃ book, (e.processL2Update u).1.getOrderBook u.symbol = some book ∧
      book.exchange = (e.bookOf u.symbol u.exchange).exchange := by
  unfold MatchingEngine.getOrderBook
  rw [MatchingEngine.orderBooks_processL2Update, Function.update_self]
  exact ⟨_, rfl, rfl⟩

/-- The calculator of an update's symbol, with the book the update leaves behind. -/
def calculatorAfter (p : FeaturePipeline) (symbol : String) (book : OrderBook) : FeatureCalculator :=
  (p.calculatorOf symbol).updateOrderBook book

/-- An update, with the book it leaves behind. -/
theorem pipelineStep_book (p : FeaturePipeline) {u : OrderBookUpdate} {book : OrderBook}
    (h : (p.matchingEngine.processL2Update u).1.getOrderBook u.symbol = some book) :
    pipelineStep p (.book u) =
      ({ matchingEngine := (p.matchingEngine.processL2Update u).1,
         featureCalculators := Function.update p.featureCalculators u.symbol
           (some (p.calculatorAfter u.symbol book)),
         lookbackMs := p.lookbackMs },
       [{ exchange := u.exchange, symbol := u.symbol, book := some book,
          features := (p.calculatorAfter u.symbol book).calculateFeatures u.symbol u.exchange }]) := by
  have hresult : p.processOrderBookUpdate u =
      ({ matchingEngine := (p.matchingEngine.processL2Update u).1,
         featureCalculators := Function.update p.featureCalculators u.symbol
           (some (p.calculatorAfter u.symbol book)),
         lookbackMs := p.lookbackMs },
       (p.calculatorAfter u.symbol book).calculateFeatures u.symbol u.exchange) := by
    unfold processOrderBookUpdate
    dsimp only
    rw [h]
    rfl
  show ((p.processOrderBookUpdate u).1, _) = _
  rw [hresult, h]

/-- An input for the symbol, taken by two pipelines that agree on it. -/
theorem SameFor.step {p q : FeaturePipeline} {i : Input} (h : SameFor i.symbol p q) :
    SameFor i.symbol (pipelineStep p i).1 (pipelineStep q i).1 ∧ (pipelineStep p i).2 = (pipelineStep q i).2 := by
  cases i with
  | book u =>
      have hbooks := orderBooks_processL2Update_congr (u := u) h.book
      obtain ⟨book, hp, _⟩ := getOrderBook_processL2Update p.matchingEngine u
      have hq : (q.matchingEngine.processL2Update u).1.getOrderBook u.symbol = some book := hbooks.symm.trans hp
      have hcalculator : p.calculatorAfter u.symbol book = q.calculatorAfter u.symbol book := by
        unfold calculatorAfter
        rw [show p.calculatorOf u.symbol = q.calculatorOf u.symbol from h.calculatorOf]
      rw [pipelineStep_book p hp, pipelineStep_book q hq, hcalculator]
      exact ⟨⟨hbooks, by simp [Input.symbol], h.lookbackMs⟩, rfl⟩
  | trade t =>
      have hcalculator : p.calculatorOf t.symbol = q.calculatorOf t.symbol := h.calculatorOf
      refine ⟨⟨h.book, ?_, h.lookbackMs⟩, rfl⟩
      simp [pipelineStep, processTrade, Input.symbol, hcalculator]

/-- An input for another symbol. -/
theorem sameFor_step_of_ne (p : FeaturePipeline) {i : Input} {symbol : String} (h : symbol ≠ i.symbol) :
    SameFor symbol (pipelineStep p i).1 p := by
  cases i with
  | book u =>
      have hne : symbol ≠ u.symbol := h
      obtain ⟨book, hbook, _⟩ := getOrderBook_processL2Update p.matchingEngine u
      rw [pipelineStep_book p hbook]
      exact ⟨orderBooks_processL2Update_of_ne p.matchingEngine hne, Function.update_of_ne hne .., rfl⟩
  | trade t =>
      have hne : symbol ≠ t.symbol := h
      exact ⟨rfl, Function.update_of_ne hne .., rfl⟩

/-! ## Two runs -/

/-- Inputs of other venues stay with other symbols. -/
def Apart (exchange : Exchange) (symbol : String) (_p : FeaturePipeline) (i : Input) : Prop :=
  i.symbol = symbol → i.exchange = exchange

theorem pipeline_unwinding (exchange : Exchange) (symbol : String) :
    Machine.Unwinding pipelineStep (Apart exchange symbol) (own exchange symbol) (ownShown exchange symbol)
      (SameFor symbol) where
  symm := fun _ _ h => h.symm
  low_step := by
    intro p q i h hown _ _
    obtain ⟨_, rfl⟩ := of_decide_eq_true hown
    obtain ⟨hsame, hshown⟩ := SameFor.step h
    exact ⟨hsame, by rw [hshown]⟩
  high_step := by
    intro p q i h hother hapart
    have hne : symbol ≠ i.symbol := by
      rintro rfl
      exact of_decide_eq_false hother ⟨hapart rfl, rfl⟩
    refine ⟨(sameFor_step_of_ne p hne).trans h, ?_⟩
    -- an update of another symbol shows nothing of this one
    cases i with
    | book u => simp [pipelineStep, ownShown, show u.symbol ≠ symbol from Ne.symm hne]
    | trade t => rfl

/-! ## What one foreign input changes -/

/-- An update that writes nothing. -/
def emptyUpdate (exchange : Exchange) (symbol : String) : OrderBookUpdate where
  exchange      := exchange
  symbol        := symbol
  timestamp     := 0
  bids          := []
  asks          := []
  isSnapshot    := false
  updateId      := 0
  firstUpdateId := 0
  prevUpdateId  := none

/-- A history holds what was added to it first. -/
theorem entries_add_new {α : Type} {timestamp : α → Int} {lookbackMs : Int} (h : 0 ≤ lookbackMs) (a : α) :
    ((History.new lookbackMs).add timestamp a).entries = [a] := by
  have hkeep : ¬ timestamp a < timestamp a - lookbackMs * 1000 := by omega
  simp [History.add, History.new, History.cleanup, hkeep]

/-- What a venue is shown for its update. -/
theorem shown_of_book (p : FeaturePipeline) (exchange : Exchange) (symbol : String) :
    ∃ book, ((pipelineStep p (.book (emptyUpdate exchange symbol))).2).filter (ownShown exchange symbol)
        = [{ exchange, symbol, book := some book,
             features := (p.calculatorAfter symbol book).calculateFeatures symbol exchange }] ∧
      book.exchange = (p.matchingEngine.bookOf symbol exchange).exchange := by
  obtain ⟨book, hbook, hexchange⟩ := getOrderBook_processL2Update p.matchingEngine (emptyUpdate exchange symbol)
  refine ⟨book, ?_, hexchange⟩
  rw [pipelineStep_book p hbook]
  simp [ownShown, emptyUpdate]

/-- A foreign update that comes first makes the venue's book a foreign one. -/
theorem foreign_book_shows {exchange : Exchange} {u : OrderBookUpdate} (h : u.exchange ≠ exchange) (lookbackMs : Int) :
    (Machine.run pipelineStep (.new lookbackMs) [.book u, .book (emptyUpdate exchange u.symbol)]).2.filter
        (ownShown exchange u.symbol)
      ≠ (Machine.run pipelineStep (.new lookbackMs) [.book (emptyUpdate exchange u.symbol)]).2.filter
        (ownShown exchange u.symbol) := by
  obtain ⟨first, hfirst, hfirstExchange⟩ := getOrderBook_processL2Update MatchingEngine.new u
  have hforeign : ((pipelineStep (.new lookbackMs) (.book u)).2).filter (ownShown exchange u.symbol) = [] := by
    simp [pipelineStep, ownShown, h]
  obtain ⟨after, hafter, hafterExchange⟩ := shown_of_book (pipelineStep (.new lookbackMs) (.book u)).1 exchange u.symbol
  obtain ⟨alone, halone, haloneExchange⟩ := shown_of_book (.new lookbackMs) exchange u.symbol
  have hengine : (pipelineStep (.new lookbackMs) (.book u)).1.matchingEngine.bookOf u.symbol exchange = first := by
    rw [pipelineStep_book (.new lookbackMs) hfirst]
    show (Option.getD ((MatchingEngine.new.processL2Update u).1.getOrderBook u.symbol) _) = first
    rw [hfirst]
    rfl
  rw [hengine, hfirstExchange] at hafterExchange
  have hne : after.exchange ≠ alone.exchange := by
    rw [hafterExchange, haloneExchange]
    exact h
  simp only [Machine.run_cons, Machine.run_nil, List.append_nil, List.filter_append, hforeign, hafter, halone,
    List.nil_append]
  intro heq
  injection heq with heq _
  injection heq with _ _ hbook _
  exact hne (congrArg OrderBook.exchange (Option.some.inj hbook))

/-- The trade that came last is among the trades of the last second. -/
theorem calcTickFlowImbalance_add_new {lookbackMs : Int} (h : 0 ≤ lookbackMs) (t : Trade) :
    FeatureCalculator.calcTickFlowImbalance ((History.new lookbackMs).add Trade.timestamp t) 1000 ≠ none := by
  have hrecent : TradeHistory.tradesSince ((History.new lookbackMs).add Trade.timestamp t) 1000 = [t] := by
    unfold TradeHistory.tradesSince History.latest
    rw [entries_add_new h]
    simp
  unfold FeatureCalculator.calcTickFlowImbalance FeatureCalculator.tradesOf
  rw [hrecent]
  cases hside : t.side <;> simp [hside, FeatureCalculator.imbalance]

/-- A foreign trade shows up in the venue's trade flow. -/
theorem foreign_trade_shows {exchange : Exchange} {lookbackMs : Int} (hlookback : 0 ≤ lookbackMs) (t : Trade) :
    (Machine.run pipelineStep (.new lookbackMs) [.trade t, .book (emptyUpdate exchange t.symbol)]).2.filter
        (ownShown exchange t.symbol)
      ≠ (Machine.run pipelineStep (.new lookbackMs) [.book (emptyUpdate exchange t.symbol)]).2.filter
        (ownShown exchange t.symbol) := by
  obtain ⟨after, hafter, _⟩ := shown_of_book (pipelineStep (.new lookbackMs) (.trade t)).1 exchange t.symbol
  obtain ⟨alone, halone, _⟩ := shown_of_book (.new lookbackMs) exchange t.symbol
  have hcalculator : (pipelineStep (.new lookbackMs) (.trade t)).1.calculatorOf t.symbol
      = (FeatureCalculator.new lookbackMs).updateTrade t := by
    simp [pipelineStep, processTrade, calculatorOf, new]
  have hforeign : (pipelineStep (.new lookbackMs) (.trade t)).2 = [] := rfl
  have hsilent : FeatureCalculator.calcTickFlowImbalance (History.new lookbackMs) 1000 = none := by
    simp [FeatureCalculator.calcTickFlowImbalance, FeatureCalculator.tradesOf, TradeHistory.tradesSince, History.new,
      FeatureCalculator.imbalance]
  simp only [Machine.run_cons, Machine.run_nil, List.append_nil, hforeign, hafter, halone, List.nil_append]
  intro heq
  injection heq with heq _
  injection heq with _ _ _ hfeatures
  -- compared on the tick flow: some imbalance on one side, none on the other
  have hflow := congrArg (fun f => f.bind MarketFeatures.tickFlowImbalance) hfeatures
  unfold calculatorAfter at hflow
  rw [hcalculator] at hflow
  simp only [FeatureCalculator.calculateFeatures, FeatureCalculator.updateOrderBook, FeatureCalculator.updateTrade,
    FeatureCalculator.new, calculatorOf, new, Option.getD_none, History.latest, entries_add_new hlookback,
    List.getLast?_singleton, Option.map_some, Option.bind_some] at hflow
  exact calcTickFlowImbalance_add_new hlookback t (hflow.trans hsilent)

/-- **A venue is shown the same whatever the inputs of the others, exactly when none of them is for its symbol.** -/
theorem venues_apart_iff {lookbackMs : Int} (hlookback : 0 ≤ lookbackMs) {admissible : Input → Prop}
    {exchange : Exchange} {symbol : String}
    (hown : ∀ i, i.exchange = exchange → i.symbol = symbol → admissible i) :
    VenuesApart lookbackMs admissible exchange symbol ↔
      ∀ i, admissible i → i.symbol = symbol → i.exchange = exchange := by
  constructor
  · intro hapart i hi hsymbol
    by_contra hforeign
    have hempty : admissible (.book (emptyUpdate exchange symbol)) := hown _ rfl rfl
    have hboth : ∀ j ∈ [i, .book (emptyUpdate exchange symbol)], admissible j := by simp [hi, hempty]
    have halone : ∀ j ∈ [Input.book (emptyUpdate exchange symbol)], admissible j := by simp [hempty]
    have hagree := hapart _ _ hboth halone (by simp [own, hforeign])
    subst hsymbol
    cases i with
    | book u => exact foreign_book_shows hforeign lookbackMs hagree
    | trade t => exact foreign_trade_shows hlookback t hagree
  · intro hkind is js his hjs hlow
    have hs : Machine.Guarded pipelineStep (Apart exchange symbol) (.new lookbackMs) is :=
      Machine.guarded_of_forall (fun i hi => hkind i (his i hi)) _
    have ht : Machine.Guarded pipelineStep (Apart exchange symbol) (.new lookbackMs) js :=
      Machine.guarded_of_forall (fun j hj => hkind j (hjs j hj)) _
    exact ((pipeline_unwinding exchange symbol).run_agree (.refl symbol _) hs ht hlow).2

/-- Updates of other symbols leave OKX alone. -/
theorem okx_apart_from_other_symbols :
    VenuesApart 1000 (fun i => i.symbol = "BTCUSDT" → i.exchange = .okx) .okx "BTCUSDT" := by
  apply (venues_apart_iff _ _).mpr
  · intro i hi
    exact hi
  · decide
  · intro i hexchange _ _
    exact hexchange

/-- One bid and one ask of a venue. -/
def venueQuote (exchange : Exchange) (isSnapshot : Bool) (bid ask : ℚ) : Input :=
  .book { emptyUpdate exchange "BTCUSDT" with bids := [⟨bid, 1⟩], asks := [⟨ask, 1⟩], isSnapshot }

/-- The bids OKX is shown. -/
def okxBids (is : List Input) : List (Option (List PriceLevel)) :=
  ((Machine.run pipelineStep (.new 1000) is).2.filter (ownShown .okx "BTCUSDT")).map fun o => o.book.map OrderBook.bids

/-- **A snapshot of Binance comes in between.** OKX is shown Binance's bid in front of its own. -/
theorem binance_shows_up_for_okx :
    okxBids [venueQuote .okx false 100 101] = [some [⟨100, 1⟩]] ∧
    okxBids [venueQuote .binance true 200 201, venueQuote .okx false 100 101] = [some [⟨200, 1⟩, ⟨100, 1⟩]] ∧
    ¬ VenuesApart 1000 (fun _ => True) .okx "BTCUSDT" := by
  have halone : okxBids [venueQuote .okx false 100 101] = [some [⟨100, 1⟩]] := by decide +kernel
  have hmixed : okxBids [venueQuote .binance true 200 201, venueQuote .okx false 100 101]
      = [some [⟨200, 1⟩, ⟨100, 1⟩]] := by decide +kernel
  refine ⟨halone, hmixed, ?_⟩
  intro hapart
  have hagree := hapart [venueQuote .okx false 100 101]
    [venueQuote .binance true 200 201, venueQuote .okx false 100 101] (fun _ _ => trivial) (fun _ _ => trivial) rfl
  have hbids : okxBids [venueQuote .okx false 100 101]
      = okxBids [venueQuote .binance true 200 201, venueQuote .okx false 100 101] := by
    unfold okxBids
    rw [hagree]
  rw [halone, hmixed] at hbids
  exact absurd hbids (by decide)

end FeaturePipeline
end Features
end TradingPlatform
