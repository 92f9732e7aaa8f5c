import TradingPlatform.Hft.Processor
import TradingPlatform.Hft.Entries
import TradingPlatform.Json.Value
import TradingPlatform.Rust.Text

/-!
# `Hft.Integration` — from a Binance message to the book

`integrate_binance_orderbook` reads the levels of a message into an `OrderBookUpdate`, which
`process_orderbook_update` converts and pushes. `publish` is the whole way of one message: integrate it, then let
the book thread process its ring.

`entries_publish`: over messages with ids that increase, at most ten levels a side each, the book is one bounded
replay of all their levels.
-/

namespace TradingPlatform
namespace Hft

open Json Market Rust Ladder HFTOrderBookProcessor

/-! ## Reading a message -/

/-- A `[price, qty, ..]` item of two numerals. -/
def readLevel (item : Value) : Option PriceLevel :=
  match item.asArray? with
  | some (price :: quantity :: _) => do
    let price ← parseF64 (← price.asStr?)
    let quantity ← parseF64 (← quantity.asStr?)
    return { price, quantity }
  | _ => none

/-- The items of one side: under the short name, or under the long one when the short one is missing. -/
def sideItems (data : Value) (short long : String) : List Value :=
  (((data.get? short).or (data.get? long)).bind Value.asArray?).getD []

/-- Only the top twenty items are looked at; items that do not parse are passed over. -/
def readSide (data : Value) (short long : String) : List PriceLevel :=
  ((sideItems data short long).take 20).filterMap readLevel

/-- The sequence number of a message, of an event or of a partial book. -/
def updateIdOf (data : Value) : Nat :=
  (((data.get? "u").or (data.get? "lastUpdateId")).bind Value.asU64?).getD 0

/-- The update made of a message, none when it has no levels. `now` is the clock. The symbol is taken to be ASCII when
    it is put in upper case. -/
def integrateUpdate (now : Int) (data : Value) (symbol streamName : String) : Option OrderBookUpdate :=
  if (readSide data "b" "bids").isEmpty && (readSide data "a" "asks").isEmpty then none
  else some {
    exchange      := .binance
    symbol        := toUppercase symbol
    timestamp     := ((data.get? "E").bind Value.asI64?).getD now
    bids          := readSide data "b" "bids"
    asks          := readSide data "a" "asks"
    isSnapshot    := contains streamName "@depth" && !contains streamName "@depth@"
    updateId      := updateIdOf data
    firstUpdateId := ((data.get? "U").bind Value.asU64?).getD (updateIdOf data)
    prevUpdateId  := (data.get? "pu").bind Value.asU64? }

/-- Convert and push; an unregistered symbol and a full ring are passed over. -/
def processOrderbookUpdate (p : HFTOrderBookProcessor) (update : OrderBookUpdate) :
    Except Panic HFTOrderBookProcessor :=
  match p.convertUpdate update with
  | .ok (some fast) => .ok (p.push update.exchange fast)
  | .ok none        => .ok p
  | .error e        => .error e

def integrateBinanceOrderbook (p : HFTOrderBookProcessor) (now : Int) (data : Value)
    (symbol streamName : String) : Except Panic HFTOrderBookProcessor :=
  match integrateUpdate now data symbol streamName with
  | some update => processOrderbookUpdate p update
  | none        => .ok p

/-! ## Registration -/

/-- `register_symbols`; a panic ends the loop. -/
def registerSymbols (p : HFTOrderBookProcessor) : List String → HFTOrderBookProcessor × Except Panic Unit
  | []                => (p, .ok ())
  | symbol :: symbols =>
    match p.registerSymbol symbol (tickSizeFor symbol) with
    | (p, .ok _)    => registerSymbols p symbols
    | (p, .error e) => (p, .error e)

/-- With room for all of them, every symbol ends up registered and nothing else has changed. -/
theorem registerSymbols_room {p : HFTOrderBookProcessor} (hp : Registry p) {symbols : List String}
    (hroom : p.idToSymbol.length + symbols.length ≤ maxSymbols) :
    ∃ p', registerSymbols p symbols = (p', .ok ()) ∧ Registry p' ∧
      (∀ symbol id, p.symbolToId symbol = some id → p'.symbolToId symbol = some id) ∧
      (∀ symbol ∈ symbols, ∃ id, p'.symbolToId symbol = some id) ∧
      p'.orderbooks = p.orderbooks ∧ p'.rings = p.rings := by
  induction symbols generalizing p with
  | nil => exact ⟨p, rfl, hp, fun _ _ h => h, by simp, rfl, rfl⟩
  | cons symbol symbols ih =>
      rw [List.length_cons] at hroom
      obtain ⟨p₁, id, heq, hentered⟩ := registerSymbol_room hp (by omega) symbol
      have hused := hentered.inUse
      obtain ⟨p₂, heq₂, hreg, hkeep, hall, hbooks, hrings⟩ := ih hentered.registry (by omega)
      refine ⟨p₂, ?_, hreg, ?_, ?_, hbooks.trans hentered.orderbooks, hrings.trans hentered.rings⟩
      · unfold registerSymbols
        rw [heq]
        exact heq₂
      · intro other id h
        exact hkeep other id (hentered.others other id h)
      · intro other hmem
        rcases List.mem_cons.mp hmem with rfl | hmem
        · exact ⟨id, hkeep _ _ hentered.symbolToId⟩
        · exact hall other hmem

/-! ## What a message does to its book -/

/-- The `FastUpdate` that `integrate_binance_orderbook` pushes for a message of the handler. -/
def fastUpdate? (p : HFTOrderBookProcessor) (now : Int) (symbol : String) (data : Value) : Option FastUpdate :=
  (integrateUpdate now data symbol "").bind fun update => (p.convertUpdate update).toOption.join

/-- The symbol is registered with this id and tick size. -/
structure Registered (p : HFTOrderBookProcessor) (symbol : String) (id : Nat) (tickSize : ℚ) : Prop where
  symbolToId : p.symbolToId (toUppercase symbol) = some id
  tickSize   : p.tickSizes[id]? = some tickSize
  id_lt      : id < maxSymbols

theorem integrateUpdate_some {now : Int} {data : Value} {symbol streamName : String} {update : OrderBookUpdate}
    (h : integrateUpdate now data symbol streamName = some update) :
    update.exchange = .binance ∧ update.symbol = toUppercase symbol := by
  unfold integrateUpdate at h
  split at h
  · cases h
  · obtain rfl := Option.some.inj h
    exact ⟨rfl, rfl⟩

/-- `integrate_binance_orderbook` pushes that update into Binance's ring, or nothing. -/
theorem integrateBinanceOrderbook_eq {p : HFTOrderBookProcessor} {now : Int} {symbol : String} {id : Nat}
    {tickSize : ℚ} (hreg : Registered p symbol id tickSize) (data : Value) :
    integrateBinanceOrderbook p now data symbol "" =
      .ok ((fastUpdate? p now symbol data).elim p (p.push .binance)) := by
  unfold integrateBinanceOrderbook fastUpdate?
  cases h : integrateUpdate now data symbol "" with
  | none => rfl
  | some update =>
      obtain ⟨hexchange, hsymbol⟩ := integrateUpdate_some h
      have hconv := convertUpdate_registered (hsymbol.symm ▸ hreg.symbolToId) hreg.tickSize
      simp only [processOrderbookUpdate, Option.bind_some, hconv, hexchange]
      rfl

/-- The levels of one side of a message, all of them. -/
def messageLevels (data : Value) (short long : String) : List PriceLevel :=
  (sideItems data short long).filterMap readLevel

/-- The same levels in ticks. -/
def tickLevels (tickSize : ℚ) (data : Value) (short long : String) : List FastPriceLevel :=
  (messageLevels data short long).map (convertLevel tickSize)

/-- A message with at most ten items a side. -/
def Short (data : Value) : Prop :=
  (sideItems data "b" "bids").length ≤ maxUpdateLevels ∧ (sideItems data "a" "asks").length ≤ maxUpdateLevels

instance (data : Value) : Decidable (Short data) := inferInstanceAs (Decidable (_ ∧ _))

theorem readSide_of_short {data : Value} {short long : String}
    (h : (sideItems data short long).length ≤ maxUpdateLevels) :
    readSide data short long = messageLevels data short long := by
  unfold readSide messageLevels
  rw [List.take_of_length_le (Nat.le_trans h (by decide))]

theorem length_tickLevels_le {tickSize : ℚ} {data : Value} {short long : String}
    (h : (sideItems data short long).length ≤ maxUpdateLevels) :
    (tickLevels tickSize data short long).length ≤ maxUpdateLevels := by
  unfold tickLevels
  rw [List.length_map]
  exact Nat.le_trans (List.length_filterMap_le ..) h

/-- With at most ten items a side, the pushed update carries the levels as they are. -/
theorem fastUpdate?_cases {p : HFTOrderBookProcessor} {symbol : String} {id : Nat} {tickSize : ℚ}
    (hreg : Registered p symbol id tickSize) (now : Int) {data : Value} (hshort : Short data) :
    (∃ u, fastUpdate? p now symbol data = some u ∧ u.symbolId = id ∧ u.updateId = updateIdOf data ∧
      u.bidLevels = tickLevels tickSize data "b" "bids" ∧
      u.askLevels = tickLevels tickSize data "a" "asks") ∨
    (fastUpdate? p now symbol data = none ∧ tickLevels tickSize data "b" "bids" = [] ∧
      tickLevels tickSize data "a" "asks" = []) := by
  have hbids := @length_tickLevels_le tickSize _ _ _ hshort.1
  have hasks := @length_tickLevels_le tickSize _ _ _ hshort.2
  unfold tickLevels at hbids hasks ⊢
  unfold fastUpdate? integrateUpdate
  rw [readSide_of_short hshort.1, readSide_of_short hshort.2]
  split
  next hempty =>
    rw [Bool.and_eq_true, List.isEmpty_iff, List.isEmpty_iff] at hempty
    rw [hempty.1, hempty.2]
    exact Or.inr ⟨rfl, rfl, rfl⟩
  next =>
    rw [Option.bind_some, convertUpdate_registered hreg.symbolToId hreg.tickSize]
    refine Or.inl ⟨_, rfl, rfl, rfl, ?_, ?_⟩
    · rw [bidLevels_ofLevels, List.take_of_length_le hbids]
    · rw [askLevels_ofLevels, List.take_of_length_le hasks]

/-! ## What messages do to their book -/

/-- The processor and the batch array of its book thread. -/
abbrev Downstream := HFTOrderBookProcessor × List (Option FastUpdate)

/-- A message handed on by the handler, and the book thread's next batch of Binance's ring. -/
def publish (now : Int) (symbol : String) (d : Downstream) (data : Value) : Downstream :=
  match integrateBinanceOrderbook d.1 now data symbol "" with
  | .ok p    => ((p.processRingBatched .binance d.2).1, (p.processRingBatched .binance d.2).2.1)
  | .error _ => d

/-- Where a run of messages stands: the book thread has caught up, and the book of the symbol is in order. -/
structure Ready (symbol : String) (id : Nat) (tickSize : ℚ) (d : Downstream) : Prop where
  registered : Registered d.1 symbol id tickSize
  caughtUp   : d.1.CaughtUp .binance d.2
  fits       : (d.1.orderbooks id).Fits

/-- Nothing has happened to the symbol since it was registered. -/
structure Idle (symbol : String) (id : Nat) (tickSize : ℚ) (d : Downstream) : Prop where
  registered : Registered d.1 symbol id tickSize
  caughtUp   : d.1.CaughtUp .binance d.2
  empty      : d.1.orderbooks id = FastOrderBook.new id

theorem Idle.ready {symbol : String} {id : Nat} {tickSize : ℚ} {d : Downstream}
    (h : Idle symbol id tickSize d) : Ready symbol id tickSize d where
  registered := h.registered
  caughtUp   := h.caughtUp
  fits       := by
    rw [h.empty]
    exact FastOrderBook.new_fits id

section Publish

variable {symbol : String} {id : Nat} {tickSize : ℚ}

/-- One message: its levels are replayed on both sides, and the id does not pass that of the message. -/
theorem publish_step (now : Int) {d : Downstream} (hd : Ready symbol id tickSize d) {data : Value}
    (hshort : Short data) (hfresh : (d.1.orderbooks id).lastUpdateId < updateIdOf data) :
    Ready symbol id tickSize (publish now symbol d data) ∧
    ((publish now symbol d data).1.orderbooks id).lastUpdateId ≤ updateIdOf data ∧
    ((publish now symbol d data).1.orderbooks id).bidEntries
      = replayBounded bidBetter maxDepth (d.1.orderbooks id).bidEntries
          ((tickLevels tickSize data "b" "bids").map levelOp) ∧
    ((publish now symbol d data).1.orderbooks id).askEntries
      = replayBounded askBetter maxDepth (d.1.orderbooks id).askEntries
          ((tickLevels tickSize data "a" "asks").map levelOp) := by
  obtain ⟨hreg, hcaught, hfits⟩ := hd
  unfold publish
  rw [integrateBinanceOrderbook_eq hreg]
  rcases fastUpdate?_cases hreg now hshort with ⟨u, hu, hid, hupd, hbids, hasks⟩ | ⟨hnone, hbids, hasks⟩
  · -- the update comes out of the ring at once, since the book thread had caught up
    obtain ⟨hbooks, hcaught'⟩ := @processRingBatched_push d.1 .binance .binance rfl d.2 hcaught u
      (hid.symm ▸ hreg.id_lt)
    have hlt : (d.1.orderbooks id).lastUpdateId < u.updateId := hupd.symm ▸ hfresh
    rw [hu]
    simp only [Option.elim_some]
    rw [hid] at hbooks
    have hbook := congrFun hbooks id
    rw [Function.update_self] at hbook
    refine ⟨⟨⟨hreg.symbolToId, hreg.tickSize, hreg.id_lt⟩, hcaught', ?_⟩, ?_, ?_, ?_⟩
    · rw [hbook]
      exact FastOrderBook.applyUpdate_fits hfits u
    · rw [hbook, FastOrderBook.lastUpdateId_applyUpdate, hupd]
      exact Nat.max_le.mpr ⟨Nat.le_of_lt hfresh, Nat.le_refl _⟩
    · rw [hbook, FastOrderBook.bidEntries_applyUpdate hfits hlt, hbids]
    · rw [hbook, FastOrderBook.askEntries_applyUpdate hfits hlt, hasks]
  · -- a message without levels pushes nothing, and replaying no levels changes nothing
    obtain ⟨hbooks, hcaught'⟩ := processRingBatched_idle hcaught
    rw [hnone, hbids, hasks]
    simp only [Option.elim_none]
    rw [hbooks]
    exact ⟨⟨⟨hreg.symbolToId, hreg.tickSize, hreg.id_lt⟩, hcaught', hbooks ▸ hfits⟩, Nat.le_of_lt hfresh,
      rfl, rfl⟩

/-- **A run of messages is one bounded replay of their levels**, when their ids increase from the book's. -/
theorem entries_publish (now : Int) {datas : List Value} (hshort : ∀ d ∈ datas, Short d)
    (hinc : datas.Pairwise (fun d d' => updateIdOf d < updateIdOf d')) {d : Downstream}
    (hd : Ready symbol id tickSize d) (hfresh : ∀ data ∈ datas, (d.1.orderbooks id).lastUpdateId < updateIdOf data) :
    ((datas.foldl (publish now symbol) d).1.orderbooks id).Fits ∧
    ((datas.foldl (publish now symbol) d).1.orderbooks id).bidEntries
      = replayBounded bidBetter maxDepth (d.1.orderbooks id).bidEntries
          ((datas.flatMap (tickLevels tickSize · "b" "bids")).map levelOp) ∧
    ((datas.foldl (publish now symbol) d).1.orderbooks id).askEntries
      = replayBounded askBetter maxDepth (d.1.orderbooks id).askEntries
          ((datas.flatMap (tickLevels tickSize · "a" "asks")).map levelOp) := by
  induction datas generalizing d with
  | nil => exact ⟨hd.fits, rfl, rfl⟩
  | cons data datas ih =>
      obtain ⟨hlater, hinc'⟩ := List.pairwise_cons.mp hinc
      obtain ⟨hready, hlast, hbids, hasks⟩ := publish_step now hd
        (hshort data (List.mem_cons_self ..)) (hfresh data (List.mem_cons_self ..))
      obtain ⟨hfits', hbids', hasks'⟩ := ih (fun d' hd' => hshort d' (List.mem_cons_of_mem _ hd')) hinc' hready
        (fun d' hd' => Nat.lt_of_le_of_lt hlast (hlater d' hd'))
      rw [List.foldl_cons, hbids', hasks', hbids, hasks, List.flatMap_cons, List.flatMap_cons,
        List.map_append, List.map_append, replayBounded_append, replayBounded_append]
      exact ⟨hfits', rfl, rfl⟩

end Publish

end Hft
end TradingPlatform
