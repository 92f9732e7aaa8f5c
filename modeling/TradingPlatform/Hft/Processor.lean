import TradingPlatform.Hft.Ring
import TradingPlatform.Rust.Float
import TradingPlatform.Rust.Text
import TradingPlatform.Market.Types

/-!
# `Hft.Processor` — the processor around the books

`HFTOrderBookProcessor` holds the books by symbol id, the registered symbols with their tick sizes, and one
ring per exchange. An `OrderBookUpdate` is converted to integer ticks by `convert_update`, pushed into the
ring of its exchange by the feed, and applied by `process_ring_batched`, sixteen at a time.

An index out of bounds panics; what had been written before stays written.
-/

namespace TradingPlatform
namespace Hft

open Market Rust

def maxSymbols : Nat := 2048
def batchSize : Nat := 16

inductive Panic where
  | indexOutOfBounds
deriving DecidableEq

/-- The rings by name. -/
inductive RingId where
  | binance
  | bybit
  | okx
  | coinbase
  | upbit
  | bithumb
  | deribit
deriving DecidableEq

structure HFTOrderBookProcessor where
  orderbooks : Nat → FastOrderBook
  symbolToId : String → Option Nat
  idToSymbol : List String
  rings      : RingId → RingBuffer
  tickSizes  : List ℚ

namespace HFTOrderBookProcessor

def new : HFTOrderBookProcessor where
  orderbooks := FastOrderBook.new
  symbolToId := fun _ => none
  idToSymbol := []
  rings      := fun _ => .new
  tickSizes  := List.replicate maxSymbols (1 / 100)

/-- The id is a `u16`. It is entered before the tick size is written, and the write panics out of bounds. -/
def registerSymbol (p : HFTOrderBookProcessor) (symbol : String) (tickSize : ℚ) :
    HFTOrderBookProcessor × Except Panic Nat :=
  match p.symbolToId symbol with
  | some id => (p, .ok id)
  | none    =>
    let id := p.idToSymbol.length % 2 ^ 16
    let entered := { p with
      symbolToId := Function.update p.symbolToId symbol (some id)
      idToSymbol := p.idToSymbol ++ [symbol] }
    if id < p.tickSizes.length then
      ({ entered with tickSizes := p.tickSizes.set id tickSize }, .ok id)
    else (entered, .error .indexOutOfBounds)

/-- The tick size a symbol is registered with, the same choice in the feeder and in the receiver. -/
def tickSizeFor (symbol : String) : ℚ :=
  if contains symbol "BTC" then 1 / 100
  else if contains symbol "SHIB" || contains symbol "PEPE" then 1 / 10 ^ 8
  else 1 / 10 ^ 4

theorem tickSizeFor_pos (symbol : String) : 0 < tickSizeFor symbol := by
  unfold tickSizeFor
  split
  · norm_num
  · split <;> norm_num

/-- What registration keeps: every registered id is in use, in range, and has the tick size of its symbol. -/
structure Registry (p : HFTOrderBookProcessor) : Prop where
  ticks : p.tickSizes.length = maxSymbols
  inUse : p.idToSymbol.length ≤ maxSymbols
  ids   : ∀ symbol id, p.symbolToId symbol = some id →
            id < p.idToSymbol.length ∧ p.tickSizes[id]? = some (tickSizeFor symbol)

theorem registry_new : Registry new where
  ticks := List.length_replicate
  inUse := Nat.zero_le _
  ids   := by intro symbol id h; cases h

/-- What registering a symbol with room left does: enter it, keep every other entry, and touch neither books
    nor rings. -/
structure Entered (p : HFTOrderBookProcessor) (symbol : String) (id : Nat) (p' : HFTOrderBookProcessor) :
    Prop where
  registry   : Registry p'
  symbolToId : p'.symbolToId symbol = some id
  others     : ∀ other id, p.symbolToId other = some id → p'.symbolToId other = some id
  inUse      : p'.idToSymbol.length ≤ p.idToSymbol.length + 1
  orderbooks : p'.orderbooks = p.orderbooks
  rings      : p'.rings = p.rings

theorem registerSymbol_room {p : HFTOrderBookProcessor} (hp : Registry p)
    (hroom : p.idToSymbol.length < maxSymbols) (symbol : String) :
    ∃ p' id, p.registerSymbol symbol (tickSizeFor symbol) = (p', .ok id) ∧ Entered p symbol id p' := by
  unfold registerSymbol
  cases hid : p.symbolToId symbol with
  | some id => exact ⟨p, id, rfl, hp, hid, fun _ _ h => h, Nat.le_succ _, rfl, rfl⟩
  | none =>
      -- below `MAX_SYMBOLS` the cast to `u16` loses nothing
      have hsmall : p.idToSymbol.length % 2 ^ 16 = p.idToSymbol.length :=
        Nat.mod_eq_of_lt (Nat.lt_trans hroom (by decide))
      have hlt : p.idToSymbol.length < p.tickSizes.length := hp.ticks ▸ hroom
      simp only [hsmall, if_pos hlt]
      refine ⟨_, _, rfl, ⟨?_, ?_, ?_⟩, Function.update_self .., ?_, ?_, rfl, rfl⟩
      · simp only [List.length_set]
        exact hp.ticks
      · simp only [List.length_append]
        exact hroom
      · intro other id h
        by_cases hsame : other = symbol
        · subst hsame
          simp only [Function.update_self] at h
          obtain rfl := Option.some.inj h
          simp [hlt]
        · simp only [Function.update_of_ne hsame] at h
          obtain ⟨hused, htick⟩ := hp.ids other id h
          simp only [List.length_append, List.getElem?_set_ne (Nat.ne_of_gt hused)]
          exact ⟨Nat.lt_succ_of_lt hused, htick⟩
      · intro other id h
        have hne : other ≠ symbol := by
          rintro rfl
          rw [hid] at h
          cases h
        simp only [Function.update_of_ne hne]
        exact h
      · simp only [List.length_append]
        exact Nat.le_refl _

/-- A level in integer ticks and units of `1e-8`. -/
def convertLevel (tickSize : ℚ) (level : PriceLevel) : FastPriceLevel where
  priceTicks := asI64 (level.price * (1 / tickSize))
  quantity   := asI64 (level.quantity * 10 ^ 8)

/-- `None` for a symbol that is not registered; the first ten levels of each side otherwise. -/
def convertUpdate (p : HFTOrderBookProcessor) (update : OrderBookUpdate) :
    Except Panic (Option FastUpdate) :=
  match p.symbolToId update.symbol with
  | none          => .ok none
  | some symbolId =>
    match p.tickSizes[symbolId]? with
    | none          => .error .indexOutOfBounds
    | some tickSize =>
      .ok (some (.ofLevels symbolId update.updateId (i64AsU64 update.timestamp)
        (update.bids.map (convertLevel tickSize)) (update.asks.map (convertLevel tickSize))
        update.isSnapshot))

/-- A registered symbol is converted with its own id and tick size. -/
theorem convertUpdate_registered {p : HFTOrderBookProcessor} {update : OrderBookUpdate} {symbolId : Nat}
    {tickSize : ℚ} (hid : p.symbolToId update.symbol = some symbolId)
    (htick : p.tickSizes[symbolId]? = some tickSize) :
    p.convertUpdate update = .ok (some (.ofLevels symbolId update.updateId (i64AsU64 update.timestamp)
      (update.bids.map (convertLevel tickSize)) (update.asks.map (convertLevel tickSize))
      update.isSnapshot)) := by
  unfold convertUpdate
  simp only [hid, htick]

/-- An exact multiple of the tick converts to its number of ticks. -/
theorem priceTicks_convertLevel {tickSize : ℚ} (htick : tickSize ≠ 0) {n : Int} (hn : InI64 n) (quantity : ℚ) :
    (convertLevel tickSize ⟨n * tickSize, quantity⟩).priceTicks = n := by
  show asI64 (n * tickSize * (1 / tickSize)) = n
  rw [mul_one_div, mul_div_cancel_right₀ _ htick]
  exact asI64_intCast hn

/-- An exchange without a ring of its own uses Binance's. -/
def getRingBuffer : Exchange → RingId
  | .binance | .binanceFutures => .binance
  | .bybit    => .bybit
  | .okx      => .okx
  | .coinbase => .coinbase
  | .upbit    => .upbit
  | .bithumb  => .bithumb
  | .deribit  => .deribit
  | _         => .binance

/-- Push into the ring of the exchange; a full ring drops the update. -/
def push (p : HFTOrderBookProcessor) (exchange : Exchange) (update : FastUpdate) :
    HFTOrderBookProcessor :=
  let ring := getRingBuffer exchange
  { p with rings := Function.update p.rings ring ((p.rings ring).push update).1 }

/-! ## Batches -/

/-- Step 1: fill the slots of the batch from the ring. It stops at an empty ring, leaving the slots behind as
    they were; an update with an id out of range leaves a hole and is not counted. -/
def collectBatch (ring : RingBuffer) :
    List (Option FastUpdate) → RingBuffer × List (Option FastUpdate) × Nat
  | []         => (ring, [], 0)
  | _ :: slots =>
    match ring.pop with
    | (ring', some update) =>
      let (ring'', batch, n) := collectBatch ring' slots
      if update.symbolId < maxSymbols then (ring'', some update :: batch, n + 1)
      -- the hole shifts what `applyBatch` reaches: the last update of such a batch is not applied
      else (ring'', none :: batch, n)
    | (ring', none) => (ring', none :: slots, 0)

/-- Step 3: apply the first `batch_count` slots. -/
def applyBatch (orderbooks : Nat → FastOrderBook) (batch : List (Option FastUpdate)) (n : Nat) :
    Nat → FastOrderBook :=
  ((batch.take n).filterMap id).foldl (fun books update =>
    Function.update books update.symbolId ((books update.symbolId).applyUpdate update)) orderbooks

/-- One call for one ring, with the batch array that is reused from call to call. -/
def processRingBatched (p : HFTOrderBookProcessor) (ring : RingId) (batch : List (Option FastUpdate)) :
    HFTOrderBookProcessor × List (Option FastUpdate) × Nat :=
  ({ p with rings      := Function.update p.rings ring (collectBatch (p.rings ring) batch).1
            orderbooks := applyBatch p.orderbooks (collectBatch (p.rings ring) batch).2.1
              (collectBatch (p.rings ring) batch).2.2 },
    (collectBatch (p.rings ring) batch).2)

/-- The book thread has popped everything, the indices are in range, and the batch array has its length. -/
structure CaughtUp (p : HFTOrderBookProcessor) (ring : RingId) (batch : List (Option FastUpdate)) : Prop where
  drained : (p.rings ring).Drained
  inRange : (p.rings ring).tail < ringBufferSize
  length  : batch.length = batchSize

/-- With nothing in the ring a batch changes nothing. -/
theorem processRingBatched_idle {p : HFTOrderBookProcessor} {ring : RingId} {batch : List (Option FastUpdate)}
    (h : p.CaughtUp ring batch) :
    (p.processRingBatched ring batch).1.orderbooks = p.orderbooks ∧
    (p.processRingBatched ring batch).1.CaughtUp ring (p.processRingBatched ring batch).2.1 := by
  obtain ⟨slot, slots, rfl⟩ : ∃ slot slots, batch = slot :: slots :=
    List.exists_cons_of_length_pos (by rw [h.length]; decide)
  have hbatch : collectBatch (p.rings ring) (slot :: slots) = (p.rings ring, none :: slots, 0) := by
    have hempty : (p.rings ring).head = (p.rings ring).tail := h.drained
    unfold collectBatch RingBuffer.pop
    rw [if_pos hempty]
  unfold processRingBatched
  rw [hbatch]
  refine ⟨rfl, ?_, ?_, h.length⟩
  · simp only [Function.update_self]
    exact h.drained
  · simp only [Function.update_self]
    exact h.inRange

/-- **Through the ring.** When the book thread has caught up before the push, its next batch applies the pushed
    update to its book and it has caught up again. -/
theorem processRingBatched_push {p : HFTOrderBookProcessor} {exchange : Exchange} {ring : RingId}
    (hring : getRingBuffer exchange = ring) {batch : List (Option FastUpdate)} (h : p.CaughtUp ring batch)
    {update : FastUpdate} (hid : update.symbolId < maxSymbols) :
    ((p.push exchange update).processRingBatched ring batch).1.orderbooks
        = Function.update p.orderbooks update.symbolId ((p.orderbooks update.symbolId).applyUpdate update) ∧
    ((p.push exchange update).processRingBatched ring batch).1.CaughtUp ring
      ((p.push exchange update).processRingBatched ring batch).2.1 := by
  subst hring
  obtain ⟨slot, slot', slots, rfl⟩ : ∃ slot slot' slots, batch = slot :: slot' :: slots := by
    match batch, h.length with
    | slot :: slot' :: slots, _ => exact ⟨slot, slot', slots, rfl⟩
  obtain ⟨hdrained, hrange, hlength⟩ := h
  cases hp : p.rings (getRingBuffer exchange) with
  | mk buffer head tail =>
      rw [hp] at hdrained hrange
      obtain rfl : head = tail := hdrained
      have hnext : (head + 1) % ringBufferSize ≠ head := by
        unfold ringBufferSize at hrange ⊢
        omega
      have hpush : (p.push exchange update).rings (getRingBuffer exchange)
          = ⟨Function.update buffer head update, head, (head + 1) % ringBufferSize⟩ := by
        unfold push
        simp only [Function.update_self, hp, RingBuffer.push, if_neg hnext]
      -- the first slot takes the update, the second finds the ring empty
      have hbatch : collectBatch ((p.push exchange update).rings (getRingBuffer exchange)) (slot :: slot' :: slots)
          = (⟨Function.update buffer head update, (head + 1) % ringBufferSize, (head + 1) % ringBufferSize⟩,
              some update :: none :: slots, 1) := by
        rw [hpush]
        simp [collectBatch, RingBuffer.pop, hnext.symm, hid]
      unfold processRingBatched
      rw [hbatch]
      refine ⟨rfl, ?_, ?_, hlength⟩
      · simp only [Function.update_self]
        exact rfl
      · simp only [Function.update_self]
        exact Nat.mod_lt _ (by decide)

/-! ## What holds of every update in a ring -/

/-- Every slot of every ring and of the batch array, stale ones included. -/
structure Holding (P : FastUpdate → Prop) (p : HFTOrderBookProcessor) (batch : List (Option FastUpdate)) :
    Prop where
  rings : ∀ ring, (p.rings ring).Slots P
  batch : ∀ update, some update ∈ batch → P update

theorem collectBatch_slots {P : FastUpdate → Prop} {ring : RingBuffer} {slots : List (Option FastUpdate)}
    (hring : ring.Slots P) (hslots : ∀ update, some update ∈ slots → P update) :
    (collectBatch ring slots).1.Slots P ∧ ∀ update, some update ∈ (collectBatch ring slots).2.1 → P update := by
  induction slots generalizing ring with
  | nil => exact ⟨hring, by simp [collectBatch]⟩
  | cons slot slots ih =>
      have hrest : ∀ update, some update ∈ slots → P update := fun update h => hslots update (by simp [h])
      obtain ⟨hpop, hpopped⟩ := hring.pop
      unfold collectBatch
      cases hp : ring.pop with
      | mk ring' popped =>
          rw [hp] at hpop hpopped
          obtain ⟨hring', hbatch⟩ := ih hpop hrest
          cases popped with
          | none =>
              refine ⟨hpop, ?_⟩
              intro update h
              exact hrest update (by simpa using h)
          | some first =>
              have hfirst : P first := hpopped first rfl
              simp only []
              split
              · refine ⟨hring', ?_⟩
                intro update h
                rcases List.mem_cons.mp h with h | h
                · exact Option.some.inj h ▸ hfirst
                · exact hbatch update h
              · refine ⟨hring', ?_⟩
                intro update h
                exact hbatch update (by simpa using h)

theorem Holding.processRingBatched {P : FastUpdate → Prop} {p : HFTOrderBookProcessor}
    {batch : List (Option FastUpdate)} (h : p.Holding P batch) (ring : RingId) :
    (p.processRingBatched ring batch).1.Holding P (p.processRingBatched ring batch).2.1 := by
  obtain ⟨hring, hbatch⟩ := collectBatch_slots (h.rings ring) h.batch
  refine ⟨?_, hbatch⟩
  intro other
  show (Function.update p.rings ring (collectBatch (p.rings ring) batch).1 other).Slots P
  by_cases hother : other = ring
  · subst hother
    rw [Function.update_self]
    exact hring
  · rw [Function.update_of_ne hother]
    exact h.rings other

theorem Holding.push {P : FastUpdate → Prop} {p : HFTOrderBookProcessor} {batch : List (Option FastUpdate)}
    (h : p.Holding P batch) (exchange : Exchange) {update : FastUpdate} (hu : P update) :
    (p.push exchange update).Holding P batch := by
  refine ⟨?_, h.batch⟩
  intro ring
  show (Function.update p.rings (getRingBuffer exchange)
    ((p.rings (getRingBuffer exchange)).push update).1 ring).Slots P
  by_cases hring : ring = getRingBuffer exchange
  · subst hring
    rw [Function.update_self]
    exact (h.rings _).push hu
  · rw [Function.update_of_ne hring]
    exact h.rings ring

/-- A batch of updates that are all old news changes no book. -/
theorem applyBatch_stale {orderbooks : Nat → FastOrderBook} {batch : List (Option FastUpdate)}
    (h : ∀ update, some update ∈ batch → update.updateId ≤ (orderbooks update.symbolId).lastUpdateId) (n : Nat) :
    applyBatch orderbooks batch n = orderbooks := by
  have key : ∀ updates : List FastUpdate,
      (∀ update ∈ updates, update.updateId ≤ (orderbooks update.symbolId).lastUpdateId) →
      updates.foldl (fun books update =>
        Function.update books update.symbolId ((books update.symbolId).applyUpdate update)) orderbooks
        = orderbooks := by
    intro updates hall
    induction updates with
    | nil => rfl
    | cons update updates ih =>
        have hstale : (orderbooks update.symbolId).applyUpdate update = orderbooks update.symbolId :=
          if_pos (hall update (List.mem_cons_self ..))
        rw [List.foldl_cons, hstale, Function.update_eq_self]
        exact ih fun u hu => hall u (List.mem_cons_of_mem _ hu)
  refine key _ fun update hu => ?_
  obtain ⟨slot, hslot, hsome⟩ := List.mem_filterMap.mp hu
  obtain rfl : slot = some update := hsome
  exact h update (List.mem_of_mem_take hslot)

/-- Registration touches neither books nor rings, even when it panics. -/
theorem registerSymbol_frame (p : HFTOrderBookProcessor) (symbol : String) (tickSize : ℚ) :
    (p.registerSymbol symbol tickSize).1.orderbooks = p.orderbooks ∧
    (p.registerSymbol symbol tickSize).1.rings = p.rings := by
  unfold registerSymbol
  split
  · exact ⟨rfl, rfl⟩
  · simp only []
    split <;> exact ⟨rfl, rfl⟩

/-- A converted update keeps its number. -/
theorem updateId_convertUpdate {p : HFTOrderBookProcessor} {update : OrderBookUpdate} {fast : FastUpdate}
    (h : p.convertUpdate update = .ok (some fast)) : fast.updateId = update.updateId := by
  unfold convertUpdate at h
  split at h
  · cases h
  · split at h
    · cases h
    · cases h
      rfl

/-! ## Reading a book -/

structure FastOrderBookSnapshot where
  symbol       : String
  bids         : List FastPriceLevel
  asks         : List FastPriceLevel
  lastUpdateId : Nat
  tickSize     : ℚ
deriving DecidableEq

def getOrderbook (p : HFTOrderBookProcessor) (symbol : String) :
    Except Panic (Option FastOrderBookSnapshot) :=
  match p.symbolToId symbol with
  | none          => .ok none
  | some symbolId =>
    match p.tickSizes[symbolId]? with
    | none          => .error .indexOutOfBounds
    | some tickSize =>
      let book := p.orderbooks symbolId
      .ok (some { symbol, bids := book.liveBids, asks := book.liveAsks, lastUpdateId := book.lastUpdateId,
                  tickSize })

end HFTOrderBookProcessor
end Hft
end TradingPlatform
