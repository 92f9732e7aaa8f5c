import TradingPlatform.Library.Assoc
import TradingPlatform.Library.Guards
import TradingPlatform.Market.OrderBook
import TradingPlatform.Rust.Float

/-!
# `Nbbo.Manager` — the best bid and offer across exchanges

The manager stores the last book of every symbol and exchange. A computation visits them all in the order of the map,
leaves out the books that are stale, and keeps the first of the highest bids and of the lowest asks. The quote is put
under a lock of its own and written to the cache: where the symbol has an entry under the lock of that entry, and
where it has none the lock just made becomes the entry, and the call awaits it for reading while it holds it for
writing. So a computation that finds a quote returns exactly if the symbol has one already (`computeNbbo_spec`).
-/

namespace TradingPlatform
namespace Nbbo

open Market Guards

/-! ## The manager -/

structure NBBO where
  symbol          : String
  bestBid         : ℚ
  bestBidQty      : ℚ
  bestBidExchange : Exchange
  bestAsk         : ℚ
  bestAskQty      : ℚ
  bestAskExchange : Exchange
  nbboMid         : ℚ
  nbboSpread      : ℚ
  nbboSpreadBps   : ℚ
  numExchanges    : Nat
  timestamp       : Int
  validationRate  : ℚ
deriving DecidableEq

structure ExchangeBookState where
  orderBook  : OrderBook
  lastUpdate : Int
deriving DecidableEq

/-- A stored book under its symbol and exchange. -/
abbrev BookEntry : Type := (String × Exchange) × ExchangeBookState

structure NBBOManager where
  orderBooks       : List BookEntry
  nbboCache        : List (String × NBBO)
  totalUpdates     : Nat
  nbboComputations : Nat
  crossedMarkets   : Nat
  maxStaleMs       : Int
deriving DecidableEq

/-- The order in which a map visits its entries. -/
structure Iteration where
  visit : List BookEntry → List BookEntry
  perm  : ∀ entries, (visit entries).Perm entries

def NBBOManager.new (maxStaleMs : Int) : NBBOManager :=
  { orderBooks := [], nbboCache := [], totalUpdates := 0, nbboComputations := 0, crossedMarkets := 0, maxStaleMs }

/-! ## A computation -/

/-- A price with its quantity and exchange. -/
structure Quote where
  price    : ℚ
  quantity : ℚ
  exchange : Exchange
deriving DecidableEq

/-- What the loop keeps. -/
structure Scan where
  bestBid      : Quote
  bestAsk      : Quote
  numExchanges : Nat
  totalValid   : Nat
  totalChecked : Nat
deriving DecidableEq

/-- Microseconds counted in whole milliseconds. -/
def ageMs (currentTime lastUpdate : Int) : Int := (currentTime - lastUpdate).tdiv 1000

namespace Scan

def start : Scan where
  bestBid      := ⟨0, 0, .binance⟩
  bestAsk      := ⟨Rust.f64Max, 0, .binance⟩
  numExchanges := 0
  totalValid   := 0
  totalChecked := 0

def bid (scan : Scan) (exchange : Exchange) : Option PriceLevel → Scan
  | some level =>
    if scan.bestBid.price < level.price then { scan with bestBid := ⟨level.price, level.quantity, exchange⟩ } else scan
  | none => scan

def ask (scan : Scan) (exchange : Exchange) : Option PriceLevel → Scan
  | some level =>
    if level.price < scan.bestAsk.price then { scan with bestAsk := ⟨level.price, level.quantity, exchange⟩ } else scan
  | none => scan

/-- One turn of the loop. -/
def visit (maxStaleMs : Int) (symbol : String) (currentTime : Int) (scan : Scan) (entry : BookEntry) : Scan :=
  if entry.1.1 ≠ symbol then scan
  else if maxStaleMs < ageMs currentTime entry.2.lastUpdate then { scan with totalChecked := scan.totalChecked + 1 }
  else
    let counted : Scan := { scan with
      totalChecked := scan.totalChecked + 1
      totalValid   := scan.totalValid + 1
      numExchanges := scan.numExchanges + 1 }
    (counted.bid entry.1.2 entry.2.orderBook.bids.head?).ask entry.1.2 entry.2.orderBook.asks.head?

end Scan

/-- The lock around the quote of a call, and the one around the quote that was cached before it. -/
inductive QuoteLock where
  | made
  | cached
deriving DecidableEq

namespace NBBOManager

def scan (manager : NBBOManager) (iteration : Iteration) (symbol : String) (currentTime : Int) : Scan :=
  (iteration.visit manager.orderBooks).foldl (Scan.visit manager.maxStaleMs symbol currentTime) .start

/-- The quote written to the entry of its symbol. `nbbo_cache.entry(..).or_insert_with(|| nbbo_arc.clone())` is the
    lock that was made for the quote if there was no entry, and the argument of `clone_from` is read under its guard. -/
def cacheQuote (manager : NBBOManager) (symbol : String) (nbbo : NBBO) : Option NBBOManager :=
  let entry := if (manager.nbboCache.lookup symbol).isSome then QuoteLock.cached else .made
  withGuard [] entry fun held => withGuard held .made fun _ =>
    some { manager with nbboCache := Assoc.put symbol nbbo manager.nbboCache }

/-- `none` is a call that never returns. -/
def computeNbbo (manager : NBBOManager) (iteration : Iteration) (symbol : String) (currentTime : Int) :
    Option (NBBOManager × Except String NBBO) :=
  let manager := { manager with nbboComputations := manager.nbboComputations + 1 }
  let scan := manager.scan iteration symbol currentTime
  if scan.bestBid.price ≤ 0 ∨ Rust.f64Max ≤ scan.bestAsk.price then
    some (manager, .error "Incomplete NBBO: no valid bid or ask")
  else
    let nbboMid := (scan.bestBid.price + scan.bestAsk.price) / 2
    let nbboSpread := scan.bestAsk.price - scan.bestBid.price
    let manager := { manager with
      crossedMarkets := if nbboSpread < 0 then manager.crossedMarkets + 1 else manager.crossedMarkets }
    let nbbo : NBBO := {
      symbol
      bestBid         := scan.bestBid.price
      bestBidQty      := scan.bestBid.quantity
      bestBidExchange := scan.bestBid.exchange
      bestAsk         := scan.bestAsk.price
      bestAskQty      := scan.bestAsk.quantity
      bestAskExchange := scan.bestAsk.exchange
      nbboMid
      nbboSpread
      nbboSpreadBps   := nbboSpread / nbboMid * 10000
      numExchanges    := scan.numExchanges
      timestamp       := currentTime
      validationRate  := if 0 < scan.totalChecked then scan.totalValid / scan.totalChecked else 0 }
    (manager.cacheQuote symbol nbbo).map fun manager => (manager, .ok nbbo)

/-- The book of an exchange replaced. -/
def store (manager : NBBOManager) (symbol : String) (exchange : Exchange) (orderBook : OrderBook) (timestamp : Int) :
    NBBOManager :=
  { manager with orderBooks := Assoc.put (symbol, exchange) ⟨orderBook, timestamp⟩ manager.orderBooks }

def updateOrderBook (manager : NBBOManager) (iteration : Iteration) (symbol : String) (exchange : Exchange)
    (orderBook : OrderBook) (timestamp : Int) : Option (NBBOManager × Except String NBBO) :=
  let manager := { manager with totalUpdates := manager.totalUpdates + 1 }
  if orderBook.bids = [] ∧ orderBook.asks = [] then some (manager, .error "Empty order book")
  else (manager.store symbol exchange orderBook timestamp).computeNbbo iteration symbol timestamp

def getNbbo (manager : NBBOManager) (symbol : String) : Option NBBO := manager.nbboCache.lookup symbol

def cleanupStale (manager : NBBOManager) (currentTime : Int) : NBBOManager :=
  let toRemove := (manager.orderBooks.filter fun entry =>
    manager.maxStaleMs < ageMs currentTime entry.2.lastUpdate).map Prod.fst
  { manager with orderBooks := manager.orderBooks.filter fun entry => entry.1 ∉ toRemove }

end NBBOManager

/-! ## The best of a set of books -/

def bidOf (entry : BookEntry) : Option Quote :=
  entry.2.orderBook.bids.head?.map fun level => ⟨level.price, level.quantity, entry.1.2⟩

def askOf (entry : BookEntry) : Option Quote :=
  entry.2.orderBook.asks.head?.map fun level => ⟨level.price, level.quantity, entry.1.2⟩

/-- A book of the symbol that is not stale. -/
def IsFresh (maxStaleMs : Int) (symbol : String) (time : Int) (entry : BookEntry) : Prop :=
  entry.1.1 = symbol ∧ ageMs time entry.2.lastUpdate ≤ maxStaleMs

instance (maxStaleMs : Int) (symbol : String) (time : Int) : DecidablePred (IsFresh maxStaleMs symbol time) :=
  fun _ => inferInstanceAs (Decidable (_ ∧ _))

/-- The stored books of the symbol that are not stale. -/
def NBBOManager.Fresh (manager : NBBOManager) (symbol : String) (time : Int) : Set BookEntry :=
  {entry | entry ∈ manager.orderBooks ∧ IsFresh manager.maxStaleMs symbol time entry}

/-- Some book has a bid and some book has an ask. -/
def Complete (books : Set BookEntry) : Prop :=
  (∃ entry ∈ books, (bidOf entry).isSome) ∧ ∃ entry ∈ books, (askOf entry).isSome

/-- The highest bid and the lowest ask, with quantity and exchange of a book that has them. -/
structure NBBO.IsBest (nbbo : NBBO) (books : Set BookEntry) : Prop where
  bid      : ∃ entry ∈ books, bidOf entry = some ⟨nbbo.bestBid, nbbo.bestBidQty, nbbo.bestBidExchange⟩
  bidBest  : ∀ entry ∈ books, ∀ quote ∈ bidOf entry, quote.price ≤ nbbo.bestBid
  ask      : ∃ entry ∈ books, askOf entry = some ⟨nbbo.bestAsk, nbbo.bestAskQty, nbbo.bestAskExchange⟩
  askBest  : ∀ entry ∈ books, ∀ quote ∈ askOf entry, nbbo.bestAsk ≤ quote.price

/-! ## What a computation finds -/

/-- A bid above the price the loop starts from, and an ask below. -/
def Quoted (books : Set BookEntry) : Prop :=
  (∃ entry ∈ books, ∃ quote ∈ bidOf entry, 0 < quote.price) ∧
    ∃ entry ∈ books, ∃ quote ∈ askOf entry, quote.price < Rust.f64Max

/-- The quotes of the fresh books among these, in their order. -/
def freshQuotes (side : BookEntry → Option Quote) (maxStaleMs : Int) (symbol : String) (time : Int)
    (entries : List BookEntry) : List Quote :=
  (entries.filter fun entry => IsFresh maxStaleMs symbol time entry).filterMap side

theorem mem_freshQuotes {side : BookEntry → Option Quote} {maxStaleMs : Int} {symbol : String} {time : Int}
    {entries : List BookEntry} {quote : Quote} :
    quote ∈ freshQuotes side maxStaleMs symbol time entries ↔
      ∃ entry ∈ entries, IsFresh maxStaleMs symbol time entry ∧ side entry = some quote := by
  unfold freshQuotes
  simp only [List.mem_filterMap, List.mem_filter, decide_eq_true_eq, and_assoc]

theorem freshQuotes_cons (side : BookEntry → Option Quote) (maxStaleMs : Int) (symbol : String) (time : Int)
    (entry : BookEntry) (entries : List BookEntry) :
    freshQuotes side maxStaleMs symbol time (entry :: entries) =
      freshQuotes side maxStaleMs symbol time [entry] ++ freshQuotes side maxStaleMs symbol time entries := by
  unfold freshQuotes
  rw [← List.filterMap_append, ← List.filter_append, List.singleton_append]

theorem freshQuotes_singleton (side : BookEntry → Option Quote) (maxStaleMs : Int) (symbol : String) (time : Int)
    (entry : BookEntry) :
    freshQuotes side maxStaleMs symbol time [entry] =
      if IsFresh maxStaleMs symbol time entry then (side entry).toList else [] := by
  unfold freshQuotes
  by_cases hfresh : IsFresh maxStaleMs symbol time entry
  · cases hside : side entry <;> simp [hfresh, hside]
  · simp [hfresh]

/-- The better of two quotes of a side, the first if they are the same. -/
def preferQuote (side : Side) : Quote → Quote → Quote := Ladder.prefer side.better Quote.price

theorem bestBid_bid (scan : Scan) (exchange : Exchange) (level : Option PriceLevel) :
    (scan.bid exchange level).bestBid =
      (level.map fun level => ⟨level.price, level.quantity, exchange⟩).toList.foldl (preferQuote .buy) scan.bestBid := by
  cases level with
  | none => rfl
  | some level => exact apply_ite Scan.bestBid ..

theorem bestAsk_bid (scan : Scan) (exchange : Exchange) (level : Option PriceLevel) :
    (scan.bid exchange level).bestAsk = scan.bestAsk := by
  cases level with
  | none => rfl
  | some level => exact (apply_ite Scan.bestAsk ..).trans (ite_self _)

theorem bestAsk_ask (scan : Scan) (exchange : Exchange) (level : Option PriceLevel) :
    (scan.ask exchange level).bestAsk =
      (level.map fun level => ⟨level.price, level.quantity, exchange⟩).toList.foldl (preferQuote .sell) scan.bestAsk := by
  cases level with
  | none => rfl
  | some level => exact apply_ite Scan.bestAsk ..

theorem bestBid_ask (scan : Scan) (exchange : Exchange) (level : Option PriceLevel) :
    (scan.ask exchange level).bestBid = scan.bestBid := by
  cases level with
  | none => rfl
  | some level => exact (apply_ite Scan.bestBid ..).trans (ite_self _)

/-- **One turn** takes the quotes of a fresh book into account, and nothing else. -/
theorem visit_spec (scan : Scan) (maxStaleMs : Int) (symbol : String) (time : Int) (entry : BookEntry) :
    (scan.visit maxStaleMs symbol time entry).bestBid =
        (freshQuotes bidOf maxStaleMs symbol time [entry]).foldl (preferQuote .buy) scan.bestBid ∧
      (scan.visit maxStaleMs symbol time entry).bestAsk =
        (freshQuotes askOf maxStaleMs symbol time [entry]).foldl (preferQuote .sell) scan.bestAsk := by
  rw [freshQuotes_singleton, freshQuotes_singleton]
  unfold Scan.visit
  by_cases hsymbol : entry.1.1 = symbol
  · rw [if_neg (not_not.mpr hsymbol)]
    by_cases hstale : maxStaleMs < ageMs time entry.2.lastUpdate
    · have hfresh : ¬ IsFresh maxStaleMs symbol time entry := fun h => absurd h.2 (not_le.mpr hstale)
      rw [if_pos hstale, if_neg hfresh, if_neg hfresh]
      exact ⟨rfl, rfl⟩
    · have hfresh : IsFresh maxStaleMs symbol time entry := ⟨hsymbol, not_lt.mp hstale⟩
      rw [if_neg hstale, if_pos hfresh, if_pos hfresh, bestBid_ask, bestBid_bid, bestAsk_ask, bestAsk_bid]
      exact ⟨rfl, rfl⟩
  · have hfresh : ¬ IsFresh maxStaleMs symbol time entry := fun h => absurd h.1 hsymbol
    rw [if_pos hsymbol, if_neg hfresh, if_neg hfresh]
    exact ⟨rfl, rfl⟩

/-- **The loop** prefers among the quotes of the fresh books. -/
theorem scan_spec (entries : List BookEntry) (scan : Scan) (maxStaleMs : Int) (symbol : String) (time : Int) :
    (entries.foldl (Scan.visit maxStaleMs symbol time) scan).bestBid =
        (freshQuotes bidOf maxStaleMs symbol time entries).foldl (preferQuote .buy) scan.bestBid ∧
      (entries.foldl (Scan.visit maxStaleMs symbol time) scan).bestAsk =
        (freshQuotes askOf maxStaleMs symbol time entries).foldl (preferQuote .sell) scan.bestAsk := by
  induction entries generalizing scan with
  | nil => exact ⟨rfl, rfl⟩
  | cons entry entries ih =>
      obtain ⟨hbid, hask⟩ := ih (scan.visit maxStaleMs symbol time entry)
      obtain ⟨hbid', hask'⟩ := visit_spec scan maxStaleMs symbol time entry
      rw [List.foldl_cons, hbid, hask, hbid', hask', ← List.foldl_append, ← List.foldl_append, ← freshQuotes_cons,
        ← freshQuotes_cons]
      exact ⟨rfl, rfl⟩

/-! ## What a computation does -/

section Compute

variable {manager : NBBOManager} {symbol : String} {time : Int}

/-- The quotes that are compared are those of the fresh books. -/
theorem mem_quotes {side : BookEntry → Option Quote} (iteration : Iteration) {quote : Quote} :
    quote ∈ freshQuotes side manager.maxStaleMs symbol time (iteration.visit manager.orderBooks) ↔
      ∃ entry ∈ manager.Fresh symbol time, side entry = some quote := by
  rw [mem_freshQuotes]
  constructor
  · rintro ⟨entry, hentry, hfresh, hside⟩
    exact ⟨entry, ⟨(iteration.perm _).mem_iff.mp hentry, hfresh⟩, hside⟩
  · rintro ⟨entry, ⟨hentry, hfresh⟩, hside⟩
    exact ⟨entry, (iteration.perm _).mem_iff.mpr hentry, hfresh, hside⟩

/-- **A side of the scan** is the start if no fresh book is better, and else the best quote of the fresh books. -/
theorem preferred_spec {quoteOf : BookEntry → Option Quote} (side : Side) (start : Quote) (iteration : Iteration)
    {best : Quote}
    (hbest : best = (freshQuotes quoteOf manager.maxStaleMs symbol time (iteration.visit manager.orderBooks)).foldl
      (preferQuote side) start) :
    (best = start ∧ ∀ entry ∈ manager.Fresh symbol time, ∀ quote ∈ quoteOf entry,
      ¬ side.better quote.price start.price) ∨
    (side.better best.price start.price ∧ (∃ entry ∈ manager.Fresh symbol time, quoteOf entry = some best) ∧
      ∀ entry ∈ manager.Fresh symbol time, ∀ quote ∈ quoteOf entry, ¬ side.better quote.price best.price) := by
  have hquotes : ∀ {P : Quote → Prop}, (∀ quote ∈ freshQuotes quoteOf manager.maxStaleMs symbol time
      (iteration.visit manager.orderBooks), P quote) → ∀ entry ∈ manager.Fresh symbol time,
        ∀ quote ∈ quoteOf entry, P quote :=
    fun h entry hentry quote hquote => h quote ((mem_quotes iteration).mpr ⟨entry, hentry, hquote⟩)
  unfold preferQuote at hbest
  rcases @Ladder.foldl_prefer _ _ side.better _ Quote.price _ start (freshQuotes quoteOf manager.maxStaleMs
    symbol time (iteration.visit manager.orderBooks)) with ⟨hstart, hnone⟩ | ⟨hbetter, hmem, hnone⟩
  · exact .inl ⟨hbest.trans hstart, hquotes hnone⟩
  · rw [← hbest] at hbetter hmem hnone
    exact .inr ⟨hbetter, (mem_quotes iteration).mp hmem, hquotes hnone⟩

/-- The scan kept a bid and an ask: they are the best of the books. -/
structure Scan.Found (scan : Scan) (books : Set BookEntry) : Prop where
  pos     : 0 < scan.bestBid.price
  lt      : scan.bestAsk.price < Rust.f64Max
  bid     : ∃ entry ∈ books, bidOf entry = some scan.bestBid
  bidBest : ∀ entry ∈ books, ∀ quote ∈ bidOf entry, quote.price ≤ scan.bestBid.price
  ask     : ∃ entry ∈ books, askOf entry = some scan.bestAsk
  askBest : ∀ entry ∈ books, ∀ quote ∈ askOf entry, scan.bestAsk.price ≤ quote.price

/-- **The scan** is cut short without a quote, or keeps the best of the fresh books. -/
theorem scan_quoted (manager : NBBOManager) (iteration : Iteration) (symbol : String) (time : Int) :
    ((manager.scan iteration symbol time).bestBid.price ≤ 0 ∨
        Rust.f64Max ≤ (manager.scan iteration symbol time).bestAsk.price) ∧ ¬ Quoted (manager.Fresh symbol time) ∨
    (manager.scan iteration symbol time).Found (manager.Fresh symbol time) ∧ Quoted (manager.Fresh symbol time) := by
  obtain ⟨hscanBid, hscanAsk⟩ := scan_spec (iteration.visit manager.orderBooks) .start manager.maxStaleMs symbol time
  rcases preferred_spec .buy Scan.start.bestBid iteration hscanBid with ⟨hstart, hnone⟩ | ⟨hpos, hbid, hbids⟩
  · left
    refine ⟨.inl (le_of_eq (congrArg Quote.price hstart)), ?_⟩
    rintro ⟨⟨entry, hentry, quote, hquote, hprice⟩, -⟩
    exact hnone entry hentry quote hquote hprice
  rcases preferred_spec .sell Scan.start.bestAsk iteration hscanAsk with ⟨hstart, hnone⟩ | ⟨hlt, hask, hasks⟩
  · left
    refine ⟨.inr (le_of_eq (congrArg Quote.price hstart).symm), ?_⟩
    rintro ⟨-, entry, hentry, quote, hquote, hprice⟩
    exact hnone entry hentry quote hquote hprice
  · right
    have hquoted : Quoted (manager.Fresh symbol time) := by
      obtain ⟨bid, hbid, hbidOf⟩ := hbid
      obtain ⟨ask, hask, haskOf⟩ := hask
      exact ⟨⟨bid, hbid, _, hbidOf, hpos⟩, ask, hask, _, haskOf, hlt⟩
    exact ⟨⟨hpos, hlt, hbid, fun entry hentry quote hquote => not_lt.mp (hbids entry hentry quote hquote), hask,
      fun entry hentry quote hquote => not_lt.mp (hasks entry hentry quote hquote)⟩, hquoted⟩

theorem cacheQuote_of_isSome {symbol : String} (h : (manager.getNbbo symbol).isSome) (nbbo : NBBO) :
    manager.cacheQuote symbol nbbo =
      some { manager with nbboCache := Assoc.put symbol nbbo manager.nbboCache } := by
  unfold NBBOManager.cacheQuote
  rw [if_pos (show (manager.nbboCache.lookup symbol).isSome from h), withGuard_of_notMem List.not_mem_nil]
  exact withGuard_of_notMem (by decide) _

/-- The lock of a new entry is held when it is awaited. -/
theorem cacheQuote_of_not_isSome {symbol : String} (h : ¬ (manager.getNbbo symbol).isSome) (nbbo : NBBO) :
    manager.cacheQuote symbol nbbo = none := by
  unfold NBBOManager.cacheQuote
  rw [if_neg (show ¬ (manager.nbboCache.lookup symbol).isSome from h), withGuard_of_notMem List.not_mem_nil]
  exact withGuard_of_mem List.mem_cons_self _

/-- **A computation** fails without a quote. With one it returns exactly if the symbol is cached, and then it caches the
    best of the fresh books. -/
theorem computeNbbo_spec (manager : NBBOManager) (iteration : Iteration) (symbol : String) (time : Int) :
    (¬ Quoted (manager.Fresh symbol time) → manager.computeNbbo iteration symbol time =
      some ({ manager with nbboComputations := manager.nbboComputations + 1 },
        .error "Incomplete NBBO: no valid bid or ask")) ∧
    (Quoted (manager.Fresh symbol time) →
      ((manager.computeNbbo iteration symbol time).isSome ↔ (manager.getNbbo symbol).isSome) ∧
      ∀ next ∈ manager.computeNbbo iteration symbol time, ∃ nbbo : NBBO,
        nbbo.IsBest (manager.Fresh symbol time) ∧ next.2 = .ok nbbo ∧ next.1.getNbbo symbol = some nbbo) := by
  have hscan : NBBOManager.scan { manager with nbboComputations := manager.nbboComputations + 1 } iteration symbol
      time = manager.scan iteration symbol time := rfl
  unfold NBBOManager.computeNbbo
  dsimp only
  rw [hscan]
  rcases scan_quoted manager iteration symbol time with ⟨hcut, hquoted⟩ | ⟨hfound, hquoted⟩
  · rw [if_pos hcut]
    exact ⟨fun _ => rfl, fun h => absurd h hquoted⟩
  · rw [if_neg (not_or.mpr ⟨not_le.mpr hfound.pos, not_le.mpr hfound.lt⟩)]
    refine ⟨fun h => absurd hquoted h, fun _ => ?_⟩
    by_cases hentry : (manager.getNbbo symbol).isSome
    · rw [cacheQuote_of_isSome]
      · refine ⟨iff_of_true rfl hentry, ?_⟩
        rintro next ⟨⟩
        exact ⟨_, ⟨hfound.bid, hfound.bidBest, hfound.ask, hfound.askBest⟩, rfl, Assoc.lookup_put_self _ _ _⟩
      · exact hentry
    · rw [cacheQuote_of_not_isSome]
      · refine ⟨iff_of_false Bool.false_ne_true hentry, fun next hnext => ?_⟩
        rw [Option.map_none] at hnext
        cases hnext
      · exact hentry

end Compute

end Nbbo
end TradingPlatform
