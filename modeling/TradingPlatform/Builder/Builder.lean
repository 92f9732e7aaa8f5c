import TradingPlatform.Library.Machine
import TradingPlatform.Market.OrderBook
import Mathlib.Data.List.Sort

/-!
# `Builder.Builder` — the order book builder and its loop

`OrderBookBuilder::run` is a loop over a state enum. One iteration reads the state, may take an update from its
channel, and writes the state back. Time enters in three places: the elapsed time of a buffering phase (an
input of the iteration), the pause of 100 ms that ends an empty `recv` (an iteration that finds the channel
empty), and the backoff (an effect).

## Contents
- **Data.** The states, the reasons, the builder.
- **Applying updates.** `applyUpdate`: a snapshot replaces the sides, any other update is merged in.
- **One iteration.** `handleUpdate` for an update from the channel, `advance` for everything else.
- **The loop.** `Loop` puts the builder next to its channel; `loopStep` is the machine.
-/

namespace TradingPlatform
namespace Builder

open Market

/-! ## Data -/

def maxBufferSize : Nat := 10000

/-- `RESYNC_BACKOFF_BASE`, in milliseconds. -/
def resyncBackoffBase : Nat := 100

def maxResyncAttempts : Nat := 5

inductive ResyncReason where
  | sequenceGap (expected actual : Nat)
  | checksumMismatch
  | crossedBook
  | timeout
  | manualRequest
  | initialSync
deriving DecidableEq, Repr

/-- `{:?}` -/
def ResyncReason.debug : ResyncReason → String
  | .sequenceGap expected actual =>
      "SequenceGap \x7b expected: " ++ toString expected ++ ", actual: " ++ toString actual ++ " \x7d"
  | .checksumMismatch            => "ChecksumMismatch"
  | .crossedBook                 => "CrossedBook"
  | .timeout                     => "Timeout"
  | .manualRequest               => "ManualRequest"
  | .initialSync                 => "InitialSync"

/-- The states. Their time stamps are left out: the iteration is told whether a buffering phase has expired. -/
inductive OrderBookState where
  | uninitialized
  | buffering (buffer : List OrderBookUpdate)
  | fetchingSnapshot (bufferedUpdates : List OrderBookUpdate) (attempt : Nat)
  | initializing (snapshotSeq : Nat) (bufferedUpdates : List OrderBookUpdate)
  | live (lastSeq updatesSinceSync : Nat)
  | resyncing (reason : ResyncReason) (attempt : Nat)
  | error (message : String) (canRetry : Bool)
deriving DecidableEq

structure OrderBookStats where
  totalUpdates      : Nat
  gapsDetected      : Nat
  resyncsTriggered  : Nat
  successfulResyncs : Nat
  failedResyncs     : Nat
deriving DecidableEq

structure OrderBookBuilder where
  symbol    : String
  exchange  : Exchange
  state     : OrderBookState
  orderbook : OrderBook
  stats     : OrderBookStats
deriving DecidableEq

/-- What an iteration does that others can see. `applied` remembers the state it happened in. -/
inductive Effect where
  | received (update : OrderBookUpdate)
  | applied (current : OrderBookState) (update : OrderBookUpdate)
  | published (book : OrderBook)
  | resync (reason : ResyncReason)
  | fetch
  | backoff (ms : Nat)
deriving DecidableEq

namespace OrderBookBuilder

def new (symbol : String) (exchange : Exchange) : OrderBookBuilder where
  symbol    := symbol
  exchange  := exchange
  state     := .uninitialized
  orderbook := .new symbol exchange
  stats     :=
    { totalUpdates := 0, gapsDetected := 0, resyncsTriggered := 0, successfulResyncs := 0, failedResyncs := 0 }

/-! ## Applying updates -/

/-- "Remove existing level and add new one" -/
def mergeLevel (levels : List PriceLevel) (level : PriceLevel) : List PriceLevel :=
  let retained := levels.filter fun l => |l.price - level.price| > epsilon
  if level.quantity > 0 then retained ++ [level] else retained

/-- `sort_by` on the price, which is stable; best price first. -/
def sortLevels : Side → List PriceLevel → List PriceLevel
  | .buy, levels  => levels.insertionSort fun a b => b.price ≤ a.price
  | .sell, levels => levels.insertionSort fun a b => a.price ≤ b.price

def mergeSide (side : Side) (levels updateLevels : List PriceLevel) : List PriceLevel :=
  sortLevels side (updateLevels.foldl mergeLevel levels)

def applyUpdate (book : OrderBook) (update : OrderBookUpdate) : OrderBook :=
  let book := { book with
    lastUpdateId := update.updateId, timestamp := update.timestamp, updateCount := book.updateCount + 1 }
  if update.isSnapshot then { book with bids := update.bids, asks := update.asks }
  else { book with bids := mergeSide .buy book.bids update.bids, asks := mergeSide .sell book.asks update.asks }

/-! ## One iteration -/

def fetchSnapshot (b : OrderBookBuilder) (bufferedUpdates : List OrderBookUpdate) : OrderBookBuilder × List Effect :=
  ({ b with
      state := .fetchingSnapshot bufferedUpdates 1
      stats := { b.stats with resyncsTriggered := b.stats.resyncsTriggered + 1 } },
    [.fetch])

def triggerResync (b : OrderBookBuilder) (reason : ResyncReason) : OrderBookBuilder × List Effect :=
  ({ b with
      state := .resyncing reason 1
      stats := { b.stats with
        gapsDetected := b.stats.gapsDetected + 1, resyncsTriggered := b.stats.resyncsTriggered + 1 } },
    [.resync reason])

/-- A full buffer loses its oldest 100 updates. -/
def makeRoom (buffer : List OrderBookUpdate) : List OrderBookUpdate :=
  if buffer.length ≥ maxBufferSize then buffer.drop 100 else buffer

/-- The update joins the buffer; a snapshot that is alone in it is fetched at once. -/
def handleBufferingUpdate (b : OrderBookBuilder) (update : OrderBookUpdate) (buffer : List OrderBookUpdate) :
    OrderBookBuilder × List Effect :=
  let buffer := makeRoom buffer ++ [update]
  let b := { b with state := .buffering buffer }
  if buffer.length = 1 ∧ update.isSnapshot then b.fetchSnapshot buffer else (b, [])

/-- Whether the update does not follow the last one. -/
def hasGap (lastSeq : Nat) (update : OrderBookUpdate) : Bool :=
  if update.firstUpdateId > 0 then update.firstUpdateId ≠ lastSeq + 1 else update.updateId ≠ lastSeq + 1

/-- Whether the iteration asks the channel for an update. -/
def awaits (b : OrderBookBuilder) (expired : Bool) : Bool :=
  match b.state with
  | .buffering _ => !expired
  | .live ..     => true
  | _            => false

/-- An update taken from the channel while buffering or live. -/
def handleUpdate (b : OrderBookBuilder) (update : OrderBookUpdate) : OrderBookBuilder × List Effect :=
  match b.state with
  | .buffering buffer => b.handleBufferingUpdate update buffer
  | .live lastSeq updatesSinceSync =>
      if !update.isSnapshot && update.updateId ≠ lastSeq + 1 && hasGap lastSeq update then
        b.triggerResync (.sequenceGap (lastSeq + 1) update.updateId)
      else
        let orderbook := applyUpdate b.orderbook update
        let published := if updatesSinceSync % 100 = 0 then [Effect.published orderbook] else []
        ({ b with
            state := .live update.updateId (updatesSinceSync + 1)
            orderbook := orderbook
            stats := { b.stats with totalUpdates := b.stats.totalUpdates + 1 } },
          .applied b.state update :: published)
  | _ => (b, [])

/-- The iteration of a state that takes no update from the channel, or of a buffering phase that gets none. -/
def advance (b : OrderBookBuilder) (expired : Bool) : OrderBookBuilder × List Effect :=
  match b.state with
  | .uninitialized => ({ b with state := .buffering [] }, [])
  | .buffering buffer =>
      if expired then b.triggerResync .timeout
      -- the pause of 100 ms is over
      else if buffer.isEmpty then (b, []) else b.fetchSnapshot buffer
  | .fetchingSnapshot bufferedUpdates attempt =>
      if attempt > maxResyncAttempts then ({ b with state := .error "Failed to fetch snapshot" true }, [])
      else
        match bufferedUpdates.head? with
        | some firstUpdate =>
            if firstUpdate.isSnapshot then
              ({ b with state := .live firstUpdate.updateId 1, orderbook := applyUpdate b.orderbook firstUpdate },
                [.applied b.state firstUpdate])
            else (b, [])
        | none => (b, [])
  | .initializing snapshotSeq bufferedUpdates =>
      let later := bufferedUpdates.filter fun u => u.updateId > snapshotSeq
      let orderbook := later.foldl applyUpdate b.orderbook
      ({ b with state := .live orderbook.lastUpdateId later.length, orderbook := orderbook },
        later.map (.applied b.state) ++ [.published orderbook])
  -- `recv` has not come back
  | .live .. => (b, [])
  | .resyncing reason attempt =>
      if attempt > maxResyncAttempts then ({ b with state := .error ("Resync failed: " ++ reason.debug) true }, [])
      else ({ b with state := .buffering [] }, [.backoff (resyncBackoffBase * attempt)])
  -- an error that cannot be retried leaves the loop, see `loopStep`
  | .error _ canRetry => if canRetry then ({ b with state := .uninitialized }, []) else (b, [])

end OrderBookBuilder

/-! ## The loop -/

/-- The builder in its loop, next to its channel. -/
structure Loop where
  builder : OrderBookBuilder
  channel : List OrderBookUpdate
  closed  : Bool
  running : Bool

/-- `run` starts in the buffering state. -/
def Loop.start (symbol : String) (exchange : Exchange) : Loop where
  builder := { OrderBookBuilder.new symbol exchange with state := .buffering [] }
  channel := []
  closed  := false
  running := true

inductive Event where
  | send (update : OrderBookUpdate)
  | close
  | iterate (expired : Bool)

/-- One iteration of a loop that is running. An iteration that awaits an update takes the first one of the
    channel, leaves the loop when the channel is closed and empty, and else gets nothing. -/
def Loop.iterate (s : Loop) (expired : Bool) : Loop × List Effect :=
  if s.builder.awaits expired then
    match s.channel with
    | update :: rest =>
        let result := s.builder.handleUpdate update
        ({ s with builder := result.1, channel := rest }, .received update :: result.2)
    | [] =>
        if s.closed then ({ s with running := false }, [])
        else
          let result := s.builder.advance expired
          ({ s with builder := result.1 }, result.2)
  else
    match s.builder.state with
    | .error _ false => ({ s with running := false }, [])
    | _ =>
        let result := s.builder.advance expired
        ({ s with builder := result.1 }, result.2)

def loopStep (s : Loop) : Event → Loop × List Effect
  | .send update     => if s.closed then (s, []) else ({ s with channel := s.channel ++ [update] }, [])
  | .close           => ({ s with closed := true }, [])
  | .iterate expired => if s.running then s.iterate expired else (s, [])

end Builder
end TradingPlatform
