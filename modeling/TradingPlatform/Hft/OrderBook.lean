import Mathlib.Data.Vector.Defs

/-!
# `Hft.OrderBook` — the fixed-depth order book and its loops

`FastOrderBook` keeps each side in an array of `MAX_DEPTH` slots with a counter; only the first `count`
slots are live. `apply_update` walks the levels of a `FastUpdate` and, level by level, either removes the
price or searches for its slot and shifts the tail. The two sides run the same loops with the comparison
turned round, so the loops are written once over `BookSide` with the comparison as a parameter.

What the loops do to the live entries is computed in `Hft.Entries`.
-/

namespace TradingPlatform
namespace Hft

/-! ## Data -/

/-- Maximum depth per side. -/
def maxDepth : Nat := 20

/-- Maximum number of levels per side in one update. -/
def maxUpdateLevels : Nat := 10

/-- A price level in integer ticks and integer quantity units (`i64` in the source; compared, never added). -/
structure FastPriceLevel where
  priceTicks : Int
  quantity   : Int
deriving DecidableEq, Repr

/-- The zeroed level the arrays are filled with. -/
instance : Inhabited FastPriceLevel := ⟨{ priceTicks := 0, quantity := 0 }⟩

abbrev Levels := Vector FastPriceLevel maxDepth

/-- One side of the book: the slots and the number of live ones. -/
structure BookSide where
  levels : Levels
  count  : Nat
deriving DecidableEq

structure FastOrderBook where
  bids         : Levels
  asks         : Levels
  bidCount     : Nat
  askCount     : Nat
  symbolId     : Nat
  lastUpdateId : Nat
  updateCount  : Nat
deriving DecidableEq

/-- An update of at most ten levels a side. The source indexes `[FastPriceLevel; 10]` with a `u8` counter;
    the bounds carried here are what keeps that in range. -/
structure FastUpdate where
  symbolId   : Nat
  updateId   : Nat
  timestamp  : Nat
  bidUpdates : Vector FastPriceLevel maxUpdateLevels
  askUpdates : Vector FastPriceLevel maxUpdateLevels
  bidCount   : Nat
  askCount   : Nat
  isSnapshot : Bool
  bidCount_le : bidCount ≤ maxUpdateLevels
  askCount_le : askCount ≤ maxUpdateLevels

/-- The levels `for i in 0..bid_count` visits. -/
def FastUpdate.bidLevels (u : FastUpdate) : List FastPriceLevel := u.bidUpdates.toList.take u.bidCount

def FastUpdate.askLevels (u : FastUpdate) : List FastPriceLevel := u.askUpdates.toList.take u.askCount

/-- Fill an update from two level lists, the first ten of each. -/
def FastUpdate.ofLevels (symbolId updateId timestamp : Nat) (bids asks : List FastPriceLevel)
    (isSnapshot : Bool) : FastUpdate :=
  { symbolId, updateId, timestamp, isSnapshot,
    bidUpdates := Vector.ofFn (fun i => bids.getD i.val default),
    askUpdates := Vector.ofFn (fun i => asks.getD i.val default),
    bidCount := min bids.length maxUpdateLevels, askCount := min asks.length maxUpdateLevels,
    bidCount_le := Nat.min_le_right _ _, askCount_le := Nat.min_le_right _ _ }

/-! ## The loops of one side -/

/-- Slot read with the zeroed level out of range (so it is total in the index). -/
def read (levels : Levels) (i : Nat) : FastPriceLevel := levels[i]?.getD default

/-- Where the search loop of an update stops: on the price itself, or at an insertion position. -/
inductive Slot where
  | existing (i : Nat)
  | insertAt (i : Nat)
deriving DecidableEq

/-- The search loop, at index `i` with `n` live slots to go. `better p p'` is the side's priority: `p` is
    placed in front of the first price it beats, and behind all of them if it beats none. -/
def findSlot (better : Int → Int → Prop) [DecidableRel better] (levels : Levels) (priceTicks : Int) :
    Nat → Nat → Slot
  | i, 0     => .insertAt i
  | i, n + 1 =>
      if (read levels i).priceTicks = priceTicks then .existing i
      else if better priceTicks (read levels i).priceTicks then .insertAt i
      else findSlot better levels priceTicks (i + 1) n

/-- `for i in (lo..lo+n).rev() { levels[i + 1] = levels[i] }` -/
def shiftDown (levels : Levels) (lo : Nat) : Nat → Levels
  | 0     => levels
  | n + 1 => shiftDown (levels.setIfInBounds (lo + n + 1) (read levels (lo + n))) lo n

/-- `for j in lo..lo+n { levels[j] = levels[j + 1] }` -/
def shiftUp (levels : Levels) (lo : Nat) : Nat → Levels
  | 0     => levels
  | n + 1 => shiftUp (levels.setIfInBounds lo (read levels (lo + 1))) (lo + 1) n

/-- `update_bid` / `update_ask` with the comparison as a parameter. -/
def updateSide (better : Int → Int → Prop) [DecidableRel better] (s : BookSide)
    (priceTicks quantity : Int) : BookSide :=
  match findSlot better s.levels priceTicks 0 s.count with
  | .existing i =>
      { s with levels := s.levels.setIfInBounds i { read s.levels i with quantity := quantity } }
  | .insertAt insertPos =>
      if insertPos < maxDepth then
        let shifted : BookSide :=
          -- full: the last level is overwritten and the counter stays
          if s.count ≥ maxDepth then
            { s with levels := shiftDown s.levels insertPos (maxDepth - 1 - insertPos) }
          else
            { levels := shiftDown s.levels insertPos (s.count - insertPos), count := s.count + 1 }
        { shifted with
          levels := shifted.levels.setIfInBounds insertPos { priceTicks, quantity } }
      else s

/-- The search loop of a removal: the first live slot at the price. -/
def findPrice (levels : Levels) (priceTicks : Int) : Nat → Nat → Option Nat
  | _, 0     => none
  | i, n + 1 =>
      if (read levels i).priceTicks = priceTicks then some i
      else findPrice levels priceTicks (i + 1) n

/-- `remove_bid` / `remove_ask`. -/
def removeSide (s : BookSide) (priceTicks : Int) : BookSide :=
  match findPrice s.levels priceTicks 0 s.count with
  | some i => { levels := shiftUp s.levels i (s.count - 1 - i), count := s.count - 1 }
  | none   => s

/-- One level of an update: quantity zero removes the price. -/
def applyLevel (better : Int → Int → Prop) [DecidableRel better] (s : BookSide)
    (level : FastPriceLevel) : BookSide :=
  if level.quantity = 0 then removeSide s level.priceTicks
  else updateSide better s level.priceTicks level.quantity

/-! ## The book -/

/-- Bids descend. -/
abbrev bidBetter : Int → Int → Prop := (· > ·)

/-- Asks ascend. -/
abbrev askBetter : Int → Int → Prop := (· < ·)

namespace FastOrderBook

def new (symbolId : Nat) : FastOrderBook :=
  { bids := Vector.replicate maxDepth default, asks := Vector.replicate maxDepth default,
    bidCount := 0, askCount := 0, symbolId, lastUpdateId := 0, updateCount := 0 }

def bidSide (b : FastOrderBook) : BookSide := { levels := b.bids, count := b.bidCount }
def askSide (b : FastOrderBook) : BookSide := { levels := b.asks, count := b.askCount }

def setBidSide (b : FastOrderBook) (s : BookSide) : FastOrderBook :=
  { b with bids := s.levels, bidCount := s.count }
def setAskSide (b : FastOrderBook) (s : BookSide) : FastOrderBook :=
  { b with asks := s.levels, askCount := s.count }

def updateBid (b : FastOrderBook) (priceTicks quantity : Int) : FastOrderBook :=
  b.setBidSide (updateSide bidBetter b.bidSide priceTicks quantity)

def updateAsk (b : FastOrderBook) (priceTicks quantity : Int) : FastOrderBook :=
  b.setAskSide (updateSide askBetter b.askSide priceTicks quantity)

def removeBid (b : FastOrderBook) (priceTicks : Int) : FastOrderBook :=
  b.setBidSide (removeSide b.bidSide priceTicks)

def removeAsk (b : FastOrderBook) (priceTicks : Int) : FastOrderBook :=
  b.setAskSide (removeSide b.askSide priceTicks)

/-- Apply an update in place. `is_snapshot` is not consulted. -/
def applyUpdate (b : FastOrderBook) (update : FastUpdate) : FastOrderBook :=
  if update.updateId ≤ b.lastUpdateId then b
  else
    let b := update.bidLevels.foldl (fun b level =>
      if level.quantity = 0 then b.removeBid level.priceTicks
      else b.updateBid level.priceTicks level.quantity) b
    let b := update.askLevels.foldl (fun b level =>
      if level.quantity = 0 then b.removeAsk level.priceTicks
      else b.updateAsk level.priceTicks level.quantity) b
    { b with lastUpdateId := update.updateId, updateCount := b.updateCount + 1 }

/-- Updates applied one after the other. -/
def applyUpdates (b : FastOrderBook) (updates : List FastUpdate) : FastOrderBook :=
  updates.foldl applyUpdate b

/-- `bids[0..bid_count]`, as `get_orderbook` copies it out. -/
def liveBids (b : FastOrderBook) : List FastPriceLevel := b.bids.toList.take b.bidCount

def liveAsks (b : FastOrderBook) : List FastPriceLevel := b.asks.toList.take b.askCount

end FastOrderBook
end Hft
end TradingPlatform
