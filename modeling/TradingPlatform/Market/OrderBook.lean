import TradingPlatform.Market.Types
import TradingPlatform.Library.Ladder
import Mathlib.Algebra.BigOperators.Group.List.Defs
import Mathlib.Algebra.Order.Field.Rat
import Mathlib.Algebra.Order.Ring.Abs
import Mathlib.Tactic.Linarith

/-!
# `Market.OrderBook` — the order book of the market types, and its sides as ladders

A side is a list of levels. Two of the components that write into it look a price up by a tolerance test,
`(a - b).abs() < f64::EPSILON`; on a grid coarser than that the test is equality (`abs_sub_lt_epsilon_iff`).
The ladder library then speaks of a side through its entries, the pairs of price and quantity.
-/

namespace TradingPlatform
namespace Market

open Ladder

structure OrderBook where
  symbol        : String
  exchange      : Exchange
  timestamp     : Int
  bids          : List PriceLevel
  asks          : List PriceLevel
  lastUpdateId  : Nat
  firstUpdateId : Nat
  updateCount   : Nat
deriving DecidableEq, Repr

def OrderBook.new (symbol : String) (exchange : Exchange) : OrderBook :=
  { symbol, exchange, timestamp := 0, bids := [], asks := [], lastUpdateId := 0, firstUpdateId := 0, updateCount := 0 }

namespace OrderBook

def bestBid (b : OrderBook) : Option PriceLevel := b.bids.head?

def bestAsk (b : OrderBook) : Option PriceLevel := b.asks.head?

def midPrice (b : OrderBook) : Option ℚ := do
  let bid ← b.bestBid
  let ask ← b.bestAsk
  return (bid.price + ask.price) / 2

def spread (b : OrderBook) : Option ℚ := do
  let bid ← b.bestBid
  let ask ← b.bestAsk
  return ask.price - bid.price

/-- The levels the depth loops visit before they break. -/
def bidsWithin (b : OrderBook) (mid threshold : ℚ) : List PriceLevel :=
  b.bids.takeWhile fun l => ¬ mid - l.price > threshold

def asksWithin (b : OrderBook) (mid threshold : ℚ) : List PriceLevel :=
  b.asks.takeWhile fun l => ¬ l.price - mid > threshold

/-- The weighted average price within a depth, in basis points of the mid price. -/
def wap (b : OrderBook) (depthBps : ℚ) : Option ℚ := do
  let mid ← b.midPrice
  let depthThreshold := mid * depthBps / 10000
  let levels := b.bidsWithin mid depthThreshold ++ b.asksWithin mid depthThreshold
  let totalValue := (levels.map fun l => l.price * l.quantity).sum
  let totalVolume := (levels.map PriceLevel.quantity).sum
  if totalVolume > 0 then some (totalValue / totalVolume) else none

end OrderBook

/-- The list of a side, in a book and in an update. -/
def OrderBook.side (b : OrderBook) : Side → List PriceLevel
  | .buy  => b.bids
  | .sell => b.asks

def OrderBookUpdate.side (u : OrderBookUpdate) : Side → List PriceLevel
  | .buy  => u.bids
  | .sell => u.asks

/-- Where each side has one level, what holds of the two holds of every level. -/
theorem forall_mem_side_of_single {u : OrderBookUpdate} {bid ask : PriceLevel} {P : PriceLevel → Prop}
    (hbids : u.bids = [bid]) (hasks : u.asks = [ask]) (hbid : P bid) (hask : P ask) :
    ∀ side, ∀ l ∈ u.side side, P l := by
  intro side l hl
  cases side with
  | buy =>
      rw [OrderBookUpdate.side, hbids] at hl
      exact List.mem_singleton.mp hl ▸ hbid
  | sell =>
      rw [OrderBookUpdate.side, hasks] at hl
      exact List.mem_singleton.mp hl ▸ hask

/-- Bids descend, asks ascend. -/
def Side.better : Side → ℚ → ℚ → Prop
  | .buy, p, p'  => p > p'
  | .sell, p, p' => p < p'

instance : (side : Side) → DecidableRel side.better
  | .buy  => fun p p' => inferInstanceAs (Decidable (p > p'))
  | .sell => fun p p' => inferInstanceAs (Decidable (p < p'))

instance : (side : Side) → IsStrictTotalOrder ℚ side.better
  | .buy  => inferInstanceAs (IsStrictTotalOrder ℚ (· > ·))
  | .sell => inferInstanceAs (IsStrictTotalOrder ℚ (· < ·))

/-! ## The tolerance test -/

/-- `f64::EPSILON` -/
def epsilon : ℚ := 1 / 2 ^ 52

/-- The price is a multiple of the grid's step. -/
def OnGrid (grid price : ℚ) : Prop := ∃ n : Int, price = n * grid

/-- Whole prices are on the grid of 1. -/
theorem onGrid_one {price : ℚ} (h : price.den = 1) : OnGrid 1 price := by
  refine ⟨price.num, ?_⟩
  rw [mul_one, Rat.coe_int_num_of_den_eq_one h]

theorem epsilon_pos : 0 < epsilon := by
  unfold epsilon
  norm_num

/-- Different prices of a grid are at least a step apart. -/
theorem grid_le_abs_sub {grid p p' : ℚ} (hgrid : 0 < grid) (hp : OnGrid grid p) (hp' : OnGrid grid p')
    (hne : p ≠ p') : grid ≤ |p - p'| := by
  obtain ⟨n, rfl⟩ := hp
  obtain ⟨m, rfl⟩ := hp'
  have hnm : n - m ≠ 0 := fun h => hne (by rw [sub_eq_zero.mp h])
  have hone : (1 : ℚ) ≤ |((n - m : Int) : ℚ)| := by exact_mod_cast Int.one_le_abs hnm
  have hstep : |(n : ℚ) * grid - m * grid| = |((n - m : Int) : ℚ)| * grid := by
    rw [← sub_mul, abs_mul, abs_of_pos hgrid]
    push_cast
    rfl
  rw [hstep]
  exact le_mul_of_one_le_left (le_of_lt hgrid) hone

/-- **On a grid coarser than the tolerance, close prices are equal.** -/
theorem abs_sub_lt_epsilon_iff {grid p p' : ℚ} (hgrid : epsilon < grid) (hp : OnGrid grid p)
    (hp' : OnGrid grid p') : |p - p'| < epsilon ↔ p = p' := by
  constructor
  · intro hclose
    by_contra hne
    have hstep := grid_le_abs_sub (epsilon_pos.trans hgrid) hp hp' hne
    linarith
  · rintro rfl
    simpa using epsilon_pos

/-- The same for the test that keeps what is further away. -/
theorem epsilon_lt_abs_sub_iff {grid p p' : ℚ} (hgrid : epsilon < grid) (hp : OnGrid grid p)
    (hp' : OnGrid grid p') : epsilon < |p - p'| ↔ p ≠ p' := by
  constructor
  · rintro hfar rfl
    rw [sub_self, abs_zero] at hfar
    exact absurd epsilon_pos (not_lt.mpr (le_of_lt hfar))
  · intro hne
    exact hgrid.trans_le (grid_le_abs_sub (epsilon_pos.trans hgrid) hp hp' hne)

/-- Where the tolerance test finds a price on the grid, the price itself stands. -/
theorem findIdx?_close {grid p : ℚ} (hgrid : epsilon < grid) (hp : OnGrid grid p) {levels : List PriceLevel}
    (h : ∀ l ∈ levels, OnGrid grid l.price) :
    levels.findIdx? (fun l => |l.price - p| < epsilon) = levels.findIdx? (fun l => l.price = p) := by
  induction levels with
  | nil => rfl
  | cons l ls ih =>
      simp only [List.findIdx?_cons, abs_sub_lt_epsilon_iff hgrid (h l List.mem_cons_self) hp,
        ih fun x hx => h x (List.mem_cons_of_mem _ hx)]

/-! ## Sides as ladders -/

/-- A level as an entry of a ladder. -/
def PriceLevel.entry (l : PriceLevel) : ℚ × ℚ := (l.price, l.quantity)

/-- A level as a write: quantity 0 deletes the price, any other overwrites it. -/
def PriceLevel.write (l : PriceLevel) : ℚ × Option ℚ :=
  (l.price, if l.quantity = 0 then none else some l.quantity)

/-- A side as a map from prices to quantities. -/
abbrev LevelMap := ℚ → Option ℚ

/-- One level in a map: delete on quantity 0, overwrite otherwise. -/
def setLevel (m : LevelMap) (l : PriceLevel) : LevelMap := assign m l.write

def entries (levels : List PriceLevel) : List (ℚ × ℚ) := levels.map PriceLevel.entry

@[simp] theorem entries_nil : entries [] = [] := rfl

@[simp] theorem entries_cons (l : PriceLevel) (ls : List PriceLevel) :
    entries (l :: ls) = l.entry :: entries ls := rfl

@[simp] theorem entries_append (ls ls' : List PriceLevel) : entries (ls ++ ls') = entries ls ++ entries ls' :=
  List.map_append

theorem entry_injective : Function.Injective PriceLevel.entry := by
  rintro ⟨p, q⟩ ⟨p', q'⟩ h
  obtain ⟨rfl, rfl⟩ := Prod.mk.inj h
  rfl

theorem entries_injective : Function.Injective entries := List.map_injective_iff.mpr entry_injective

@[simp] theorem entry_mem_entries {levels : List PriceLevel} {l : PriceLevel} :
    l.entry ∈ entries levels ↔ l ∈ levels := List.mem_map_of_injective entry_injective

theorem mem_entries {levels : List PriceLevel} {e : ℚ × ℚ} :
    e ∈ entries levels ↔ ∃ l ∈ levels, l.entry = e := List.mem_map

/-- A side is sorted as a ladder when its prices are strictly best first. -/
theorem sorted_entries_iff {side : Side} {levels : List PriceLevel} :
    Sorted side.better (entries levels) ↔ levels.Pairwise fun l l' => side.better l.price l'.price :=
  List.pairwise_map

theorem findIdx?_entries (levels : List PriceLevel) (p : ℚ) :
    (entries levels).findIdx? (fun e => e.1 = p) = levels.findIdx? (fun l => l.price = p) :=
  List.findIdx?_map

end Market
end TradingPlatform
