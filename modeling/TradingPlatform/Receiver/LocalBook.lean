import TradingPlatform.Receiver.Pipeline
import TradingPlatform.Hft.Entries

/-!
# `Receiver.LocalBook` — what reaches the local books

The handler completes every book of a stream, in order (`run_completes_books`). But it numbers every update 0,
and `apply_update` skips what is not newer than the book, which starts at 0. So no update is ever applied
(`Unnumbered`), and the local book shows the last completed book only when that book shows nothing
(`local_book_follows_wire_iff`).
-/

namespace TradingPlatform
namespace Receiver

open Market Rust Hft OrderBookAggregator HFTOrderBookProcessor

/-! ## Books on the wire -/

/-- An order book packet that carries these levels of one side of the symbol. -/
structure SidePacket (data : List UInt8) (symbol : String) (isBid isLast : Bool) (levels : List PriceLevel) :
    Prop where
  header_le : headerSize ≤ data.length
  symbol    : parseString (parsePacketHeader data).symbol = symbol
  isBid     : (parsePacketHeader data).isBid = isBid
  isLast    : (parsePacketHeader data).isLast = isLast
  levels    : parseOrderbookLevels data (parsePacketHeader data) = some levels

instance (data : List UInt8) (symbol : String) (isBid isLast : Bool) (levels : List PriceLevel) :
    Decidable (SidePacket data symbol isBid isLast levels) :=
  decidable_of_iff
    (headerSize ≤ data.length ∧ parseString (parsePacketHeader data).symbol = symbol ∧
      (parsePacketHeader data).isBid = isBid ∧ (parsePacketHeader data).isLast = isLast ∧
      parseOrderbookLevels data (parsePacketHeader data) = some levels)
    ⟨fun ⟨h₁, h₂, h₃, h₄, h₅⟩ => ⟨h₁, h₂, h₃, h₄, h₅⟩, fun ⟨h₁, h₂, h₃, h₄, h₅⟩ => ⟨h₁, h₂, h₃, h₄, h₅⟩⟩

/-- A book in two packets: the bids, then the asks as the last. -/
structure WireBook where
  symbol    : String
  bids      : List PriceLevel
  asks      : List PriceLevel
  bidPacket : List UInt8
  askPacket : List UInt8
  bid       : SidePacket bidPacket symbol true false bids
  ask       : SidePacket askPacket symbol false true asks

/-- The packets of a book, in the order in which they arrive. -/
def WireBook.packets (book : WireBook) : List (List UInt8) := [book.bidPacket, book.askPacket]

/-- The update a completed book becomes. -/
def WireBook.update (book : WireBook) (exchangeName : String) : OrderBookUpdate where
  exchange      := parseExchange exchangeName
  symbol        := book.symbol
  timestamp     := microseconds (parsePacketHeader book.askPacket)
  bids          := book.bids
  asks          := book.asks
  isSnapshot    := true
  updateId      := 0
  firstUpdateId := 0
  prevUpdateId  := none

/-! ## The handler completes every book -/

/-- Both sides added to a key without an entry are taken together, and the entry is gone again. -/
theorem takeComplete_both {agg : OrderBookAggregator} {key : Exchange × String} (h : agg.partialBooks key = none)
    (bids asks : List PriceLevel) :
    ((agg.addBids key bids).addAsks key asks).takeComplete key = (agg, some (bids, asks)) := by
  have hgone : Function.update agg.partialBooks key none = agg.partialBooks := by
    rw [← h]
    exact Function.update_eq_self ..
  simp [takeComplete, addAsks, addBids, OrderBookAggregator.entry, h, hgone]

theorem handlePacket_bid (agg : OrderBookAggregator) (exchangeName : String) (book : WireBook) :
    handlePacket agg book.bidPacket exchangeName .orderBook
      = (agg.addBids (parseExchange exchangeName, book.symbol) book.bids, []) := by
  obtain ⟨hlen, hsymbol, hbid, hlast, hlevels⟩ := book.bid
  unfold handlePacket aggregate
  rw [if_neg (Nat.not_lt.mpr hlen)]
  simp [hlevels, hbid, hlast, hsymbol]

/-- The last packet completes the book whose bids are there. -/
theorem handlePacket_ask {agg : OrderBookAggregator} {exchangeName : String} {book : WireBook}
    (h : agg.partialBooks (parseExchange exchangeName, book.symbol) = none) :
    handlePacket (agg.addBids (parseExchange exchangeName, book.symbol) book.bids) book.askPacket exchangeName
        .orderBook = (agg, [.orderbook (book.update exchangeName)]) := by
  obtain ⟨hlen, hsymbol, hbid, hlast, hlevels⟩ := book.ask
  unfold handlePacket aggregate
  rw [if_neg (Nat.not_lt.mpr hlen)]
  simp [hlevels, hbid, hlast, hsymbol, takeComplete_both h, WireBook.update]

/-- The handler of one order book stream as a machine. -/
def streamStep (exchangeName : String) (agg : OrderBookAggregator) (data : List UInt8) :
    OrderBookAggregator × List Sent :=
  handlePacket agg data exchangeName .orderBook

theorem run_streamStep (exchangeName : String) (books : List WireBook) :
    Machine.run (streamStep exchangeName) .new (books.flatMap WireBook.packets)
      = (.new, books.map fun book => .orderbook (book.update exchangeName)) := by
  induction books with
  | nil => rfl
  | cons book books ih =>
      have hbook : Machine.run (streamStep exchangeName) .new (book.packets ++ books.flatMap WireBook.packets)
          = ((Machine.run (streamStep exchangeName) .new (books.flatMap WireBook.packets)).1,
             .orderbook (book.update exchangeName) ::
              (Machine.run (streamStep exchangeName) .new (books.flatMap WireBook.packets)).2) := by
        unfold WireBook.packets
        rw [List.cons_append, List.cons_append, List.nil_append, Machine.run_cons, Machine.run_cons]
        unfold streamStep
        rw [handlePacket_bid, handlePacket_ask rfl]
        rfl
      rw [List.flatMap_cons, hbook, ih, List.map_cons]

/-- The packets among the actions. -/
def packetsOf (as : List Action) : List (List UInt8 × String × DataType) :=
  as.filterMap fun
    | .packet data exchangeName dataType => some (data, exchangeName, dataType)
    | _                                  => none

/-- These packets, on the order book stream of one exchange. -/
def onStream (exchangeName : String) (datas : List (List UInt8)) : List (List UInt8 × String × DataType) :=
  datas.map fun data => (data, exchangeName, .orderBook)

theorem aggregator_pushUpdate (r : Pipeline) (update : OrderBookUpdate) :
    (r.pushUpdate update).aggregator = r.aggregator := by
  unfold Pipeline.pushUpdate
  split <;> rfl

theorem aggregator_runTask (r : Pipeline) : r.runTask.aggregator = r.aggregator := by
  unfold Pipeline.runTask Pipeline.takeUpdate
  split
  · rfl
  · split
    · exact aggregator_pushUpdate ..
    · split
      · rfl
      · exact aggregator_pushUpdate ..

theorem aggregator_send (r : Pipeline) (sent : List Sent) : (r.send sent).aggregator = r.aggregator := by
  unfold Pipeline.send
  split <;> rfl

/-- Only packets move the aggregator and are answered: what a run sends is what the handler sends. -/
theorem run_pipelineStep_sent (exchangeName : String) {as : List Action} {datas : List (List UInt8)}
    (h : packetsOf as = onStream exchangeName datas) (r : Pipeline) :
    (Machine.run pipelineStep r as).2 = (Machine.run (streamStep exchangeName) r.aggregator datas).2 := by
  induction as generalizing r datas with
  | nil =>
      obtain rfl : datas = [] := List.map_eq_nil_iff.mp h.symm
      rfl
  | cons a as ih =>
      rw [Machine.run_cons]
      cases a with
      | packet data name dataType =>
          -- the next action that is a packet carries the next bytes of the stream
          cases datas with
          | nil => cases h
          | cons data' datas =>
              have hhead : (data, name, dataType) = (data', exchangeName, DataType.orderBook) :=
                (List.cons.inj h).1
              cases hhead
              have hrest := ih (List.cons.inj h).2 (pipelineStep r (.packet data exchangeName .orderBook)).1
              have hagg : (pipelineStep r (.packet data exchangeName .orderBook)).1.aggregator
                  = (handlePacket r.aggregator data exchangeName .orderBook).1 := aggregator_send ..
              rw [Machine.run_cons, hrest, hagg]
              rfl
      | task =>
          have hagg : (pipelineStep r .task).1.aggregator = r.aggregator := aggregator_runTask r
          rw [ih h, hagg]
          rfl
      | processRing ring =>
          rw [ih h]
          rfl

/-- **Every book of the stream is completed, in order**, whatever the other parties do in between. -/
theorem run_completes_books (exchangeName : String) {as : List Action} {books : List WireBook}
    (h : packetsOf as = onStream exchangeName (books.flatMap WireBook.packets)) :
    (Machine.run pipelineStep .new as).2 = books.map fun book => .orderbook (book.update exchangeName) := by
  rw [run_pipelineStep_sent exchangeName h]
  exact congrArg Prod.snd (run_streamStep exchangeName books)

/-! ## No update is ever applied -/

/-- Everything on its way to the books is numbered 0, and the books are as they were created. -/
structure Unnumbered (r : Pipeline) : Prop where
  channel : ∀ update ∈ r.channel, update.updateId = 0
  holding : r.processor.Holding (·.updateId = 0) r.batch
  books   : r.processor.orderbooks = FastOrderBook.new

theorem unnumbered_new : Unnumbered .new where
  channel := by intro update h; cases h
  holding := ⟨fun _ _ => rfl, by intro update h; cases List.eq_of_mem_replicate h⟩
  books   := rfl

/-- The handler numbers every update 0. -/
theorem updateId_handlePacket {agg : OrderBookAggregator} {data : List UInt8} {exchangeName : String}
    {dataType : DataType} {update : OrderBookUpdate}
    (h : Sent.orderbook update ∈ (handlePacket agg data exchangeName dataType).2) : update.updateId = 0 := by
  unfold handlePacket at h
  split at h
  · cases h
  · cases dataType with
    | trade =>
        simp at h
    | orderBook =>
        simp only [Option.mem_toList, Option.map_eq_some_iff] at h
        obtain ⟨update', haggregate, heq⟩ := h
        cases heq
        unfold aggregate at haggregate
        simp only [] at haggregate
        split at haggregate
        · cases haggregate
        · split at haggregate
          · obtain ⟨sides, _, hsides⟩ := Option.map_eq_some_iff.mp haggregate
            rw [← hsides]
          · cases haggregate

theorem Unnumbered.kill {r : Pipeline} {p : HFTOrderBookProcessor} (hholding : p.Holding (·.updateId = 0) r.batch)
    (hbooks : p.orderbooks = FastOrderBook.new) : Unnumbered (r.kill p) where
  channel := by intro update h; cases h
  holding := hholding
  books   := hbooks

theorem Unnumbered.pushUpdate {r : Pipeline} (h : Unnumbered r) {update : OrderBookUpdate}
    (hu : update.updateId = 0) : Unnumbered (r.pushUpdate update) := by
  unfold Pipeline.pushUpdate
  split
  next fast hfast =>
    have hzero : fast.updateId = 0 := (updateId_convertUpdate hfast).trans hu
    exact ⟨h.channel, h.holding.push update.exchange hzero, h.books⟩
  next => exact h
  next => exact .kill h.holding h.books

theorem Unnumbered.takeUpdate {r : Pipeline} (h : Unnumbered r) {update : OrderBookUpdate}
    (hu : update.updateId = 0) : Unnumbered (r.takeUpdate update) := by
  unfold Pipeline.takeUpdate
  split
  · exact h.pushUpdate hu
  · obtain ⟨hbooks, hrings⟩ := registerSymbol_frame r.processor update.symbol (tickSizeFor update.symbol)
    have hholding : ((r.processor.registerSymbol update.symbol (tickSizeFor update.symbol)).1).Holding
        (·.updateId = 0) r.batch := ⟨hrings ▸ h.holding.rings, h.holding.batch⟩
    generalize r.processor.registerSymbol update.symbol (tickSizeFor update.symbol) = registered at *
    obtain ⟨p, e | id⟩ := registered
    · exact .kill hholding (hbooks.trans h.books)
    · have hr : Unnumbered { r with
          processor        := p
          symbolRegistered := Function.update r.symbolRegistered update.symbol true } :=
        ⟨h.channel, hholding, hbooks.trans h.books⟩
      exact hr.pushUpdate hu

theorem Unnumbered.runTask {r : Pipeline} (h : Unnumbered r) : Unnumbered r.runTask := by
  unfold Pipeline.runTask
  split
  next => exact h
  next update waiting hchannel =>
    have hall : ∀ u ∈ update :: waiting, u.updateId = 0 := hchannel ▸ h.channel
    have hr : Unnumbered { r with channel := waiting } :=
      ⟨fun u hu => hall u (List.mem_cons_of_mem _ hu), h.holding, h.books⟩
    exact hr.takeUpdate (hall update (List.mem_cons_self ..))

theorem Unnumbered.send {r : Pipeline} (h : Unnumbered r) {sent : List Sent}
    (hsent : ∀ update, Sent.orderbook update ∈ sent → update.updateId = 0) : Unnumbered (r.send sent) := by
  unfold Pipeline.send
  split
  · refine ⟨?_, h.holding, h.books⟩
    intro update hmem
    rcases List.mem_append.mp hmem with hmem | hmem
    · exact h.channel update hmem
    · obtain ⟨s, hs, hsome⟩ := List.mem_filterMap.mp hmem
      cases s with
      | trade => cases hsome
      | orderbook update' =>
          obtain rfl := Option.some.inj hsome
          exact hsent _ hs
  · exact h

theorem Unnumbered.step {r : Pipeline} (h : Unnumbered r) (a : Action) : Unnumbered (pipelineStep r a).1 := by
  cases a with
  | packet data exchangeName dataType =>
      have hr : Unnumbered { r with
          aggregator := (handlePacket r.aggregator data exchangeName dataType).1 } :=
        ⟨h.channel, h.holding, h.books⟩
      exact hr.send fun _ hu => updateId_handlePacket hu
  | task => exact h.runTask
  | processRing ring =>
      -- also what the batch holds from earlier calls is numbered 0
      have hholding := h.holding.processRingBatched ring
      refine ⟨h.channel, hholding, ?_⟩
      show applyBatch r.processor.orderbooks _ _ = FastOrderBook.new
      rw [applyBatch_stale, h.books]
      intro update hu
      rw [hholding.batch update hu]
      exact Nat.zero_le _

theorem unnumbered_run (as : List Action) : Unnumbered (Machine.run pipelineStep .new as).1 :=
  Machine.run_invariant (fun _ a h => h.step a) unnumbered_new as

/-! ## What the local book shows -/

/-- The bids and asks of the local book; a symbol that is not registered has none. -/
def Pipeline.shown (r : Pipeline) (symbol : String) : List FastPriceLevel × List FastPriceLevel :=
  match r.processor.getOrderbook symbol with
  | .ok (some snapshot) => (snapshot.bids, snapshot.asks)
  | _                   => ([], [])

/-- The levels a book with these levels holds, in its units. -/
def bookLevels (symbol : String) (levels : List PriceLevel) : List FastPriceLevel :=
  (levels.filter (·.quantity ≠ 0)).map (convertLevel (tickSizeFor symbol))

/-- The local book of the symbol holds exactly these levels. -/
def Pipeline.ShowsBook (r : Pipeline) (symbol : String) (bids asks : List PriceLevel) : Prop :=
  (r.shown symbol).1.Perm (bookLevels symbol bids) ∧ (r.shown symbol).2.Perm (bookLevels symbol asks)

instance (r : Pipeline) (symbol : String) (bids asks : List PriceLevel) :
    Decidable (r.ShowsBook symbol bids asks) := inferInstanceAs (Decidable (_ ∧ _))

/-- The last completed book of a symbol among the books of a stream. -/
def lastBook (symbol : String) (books : List WireBook) : Option WireBook :=
  (books.filter (·.symbol = symbol)).getLast?

/-- The last update of a symbol that was sent to the order book task. -/
def lastUpdate (symbol : String) (sent : List Sent) : Option OrderBookUpdate :=
  ((sent.filterMap fun
    | .trade _          => none
    | .orderbook update => some update).filter (·.symbol = symbol)).getLast?

theorem lastUpdate_completed (symbol exchangeName : String) (books : List WireBook) :
    lastUpdate symbol (books.map fun book => .orderbook (book.update exchangeName))
      = (lastBook symbol books).map (·.update exchangeName) := by
  have hsent : (books.map fun book => Sent.orderbook (book.update exchangeName)).filterMap (fun
      | .trade _          => none
      | .orderbook update => some update) = books.map (·.update exchangeName) := by
    rw [List.filterMap_map]
    exact congrFun (List.filterMap_eq_map (f := fun book : WireBook => book.update exchangeName)) books
  unfold lastUpdate lastBook
  rw [hsent, List.filter_map, List.getLast?_map]
  rfl

/-- With the books as they were created, nothing is shown for any symbol. -/
theorem Unnumbered.shown {r : Pipeline} (h : Unnumbered r) (symbol : String) : r.shown symbol = ([], []) := by
  unfold Pipeline.shown getOrderbook
  rw [h.books]
  split
  next snapshot hsnapshot =>
    split at hsnapshot
    · cases hsnapshot
    · split at hsnapshot
      · cases hsnapshot
      · cases hsnapshot
        rfl
  next => rfl

theorem bookLevels_eq_nil {symbol : String} {levels : List PriceLevel} :
    bookLevels symbol levels = [] ↔ ∀ l ∈ levels, l.quantity = 0 := by
  unfold bookLevels
  rw [List.map_eq_nil_iff, List.filter_eq_nil_iff]
  simp

/-- **When the local book follows the wire.** Whatever order packets, task and book thread take turns in, the
    last book of the symbol has been sent to the task; and the local book holds exactly its levels iff all of
    them have quantity zero. -/
theorem local_book_follows_wire_iff (exchangeName : String) {as : List Action} {books : List WireBook}
    (has : packetsOf as = onStream exchangeName (books.flatMap WireBook.packets)) {symbol : String}
    {book : WireBook} (hlast : lastBook symbol books = some book) :
    lastUpdate symbol (Machine.run pipelineStep .new as).2 = some (book.update exchangeName) ∧
    ((Machine.run pipelineStep .new as).1.ShowsBook symbol book.bids book.asks ↔
      ∀ l ∈ book.bids ++ book.asks, l.quantity = 0) := by
  constructor
  · rw [run_completes_books exchangeName has, lastUpdate_completed, hlast]
    rfl
  · unfold Pipeline.ShowsBook
    rw [(unnumbered_run as).shown symbol, List.nil_perm, List.nil_perm, bookLevels_eq_nil, bookLevels_eq_nil,
      List.forall_mem_append]

/-! ## One book -/

/-- An order book packet of an ASCII symbol with its items scaled by `10^8`. -/
def orderbookPacket (flagsAndCount : UInt8) (symbol : String) (items : List (Nat × Nat)) : List UInt8 :=
  [1] ++ List.replicate 16 0 ++ [flagsAndCount]
    ++ (symbol.toList.map fun c => UInt8.ofNat c.toNat) ++ List.replicate (20 - symbol.length) 0
    ++ List.replicate 20 0
    ++ items.flatMap fun (price, quantity) => toBe 8 price ++ toBe 8 quantity

/-- One bid at 100 and one ask at 101. -/
def smallBook : WireBook where
  symbol    := "BTCUSDT"
  bids      := [⟨100, 1⟩]
  asks      := [⟨101, 2⟩]
  bidPacket := orderbookPacket 0x29 "BTCUSDT" [(100 * 10 ^ 8, 1 * 10 ^ 8)]
  askPacket := orderbookPacket 0xA1 "BTCUSDT" [(101 * 10 ^ 8, 2 * 10 ^ 8)]
  bid       := by decide +kernel
  ask       := by decide +kernel

/-- Both packets, then the task and the book thread take their turns. -/
def smallActions : List Action :=
  [.packet smallBook.bidPacket "Binance" .orderBook, .packet smallBook.askPacket "Binance" .orderBook, .task,
    .processRing .binance]

/-- Everything has been worked off, the symbol is registered, and its book is empty. -/
theorem smallBook_not_shown :
    packetsOf smallActions = onStream "Binance" ([smallBook].flatMap WireBook.packets) ∧
    lastBook "BTCUSDT" [smallBook] = some smallBook ∧
    (Machine.run pipelineStep .new smallActions).1.channel = [] ∧
    ((Machine.run pipelineStep .new smallActions).1.processor.rings .binance).Drained ∧
    (Machine.run pipelineStep .new smallActions).1.symbolRegistered "BTCUSDT" = true ∧
    ¬ (Machine.run pipelineStep .new smallActions).1.ShowsBook "BTCUSDT" smallBook.bids smallBook.asks := by
  refine ⟨rfl, rfl, ?_, ?_, ?_, ?_⟩
  · decide +kernel
  · decide +kernel
  · decide +kernel
  · decide +kernel

/-- The same run through the general statement. -/
theorem smallBook_follows_wire :
    lastUpdate "BTCUSDT" (Machine.run pipelineStep .new smallActions).2 = some (smallBook.update "Binance") ∧
    ((Machine.run pipelineStep .new smallActions).1.ShowsBook "BTCUSDT" smallBook.bids smallBook.asks ↔
      ∀ l ∈ smallBook.bids ++ smallBook.asks, l.quantity = 0) :=
  @local_book_follows_wire_iff "Binance" smallActions [smallBook] rfl "BTCUSDT" smallBook rfl

end Receiver
end TradingPlatform
