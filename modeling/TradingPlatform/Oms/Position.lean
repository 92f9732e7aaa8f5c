import TradingPlatform.Market.Types
import TradingPlatform.Library.Assoc
import TradingPlatform.Library.Machine
import Mathlib.Algebra.Order.Ring.Rat
import Mathlib.Tactic.FieldSimp
import Mathlib.Tactic.Linarith
import Mathlib.Tactic.Ring

/-!
# `Oms.Position` — positions and their accounts

A fill moves the position of its symbol and exchange. What a position has realised and what it still holds at its
entry price account for the cash of its fills, unless a fill reduces it, or closes a long position: the sign of the
new quantity tells these from a fill that adds to the position in no way (`cash_conserved_iff`).

Arithmetic is exact here and in `Oms.Orders`; `Oms.Rounded` has the roundings of the source.
-/

namespace TradingPlatform
namespace Oms

open Market Machine

/-! ## The system -/

inductive OrderType where
  | market
  | limit
  | ioc
deriving DecidableEq

inductive TimeInForce where
  | gtc
  | ioc
  | fok
deriving DecidableEq

inductive OrderStatus where
  | new
  | pending
  | partiallyFilled (filledQuantity : ℚ)
  | filled (filledQuantity avgPrice : ℚ)
  | cancelled
  | rejected (reason : String)
deriving DecidableEq

structure Order where
  id          : UInt64
  timestamp   : Int
  symbol      : String
  exchange    : Exchange
  side        : Side
  orderType   : OrderType
  quantity    : ℚ
  price       : Option ℚ
  timeInForce : TimeInForce
  status      : OrderStatus
deriving DecidableEq

/-- The quantity is positive for long, negative for short. -/
structure Position where
  symbol        : String
  exchange      : Exchange
  quantity      : ℚ
  avgEntryPrice : ℚ
  unrealizedPnl : ℚ
  realizedPnl   : ℚ
  lastUpdate    : Int
deriving DecidableEq

structure PerformanceMetrics where
  totalTrades   : Nat
  winningTrades : Nat
  losingTrades  : Nat
  totalPnl      : ℚ
  sharpeRatio   : ℚ
  maxDrawdown   : ℚ
  winRate       : ℚ
  avgWin        : ℚ
  avgLoss       : ℚ
deriving DecidableEq

/-- Orders by id, positions by symbol and exchange. -/
structure OrderManagementSystem where
  orders           : List (UInt64 × Order)
  orderIdCounter   : UInt64
  positions        : List ((String × Exchange) × Position)
  maxPositionSize  : ℚ
  maxDailyLoss     : ℚ
  maxTotalExposure : ℚ
  performance      : PerformanceMetrics
  dailyPnl         : ℚ
deriving DecidableEq

def OrderManagementSystem.new (maxPositionSize maxDailyLoss maxTotalExposure : ℚ) : OrderManagementSystem where
  orders           := []
  orderIdCounter   := 1
  positions        := []
  maxPositionSize  := maxPositionSize
  maxDailyLoss     := maxDailyLoss
  maxTotalExposure := maxTotalExposure
  performance      := {
    totalTrades := 0, winningTrades := 0, losingTrades := 0, totalPnl := 0, sharpeRatio := 0, maxDrawdown := 0
    winRate := 0, avgWin := 0, avgLoss := 0 }
  dailyPnl         := 0

/-! ## A fill -/

/-- `f64::signum` of a number that is not negative zero. -/
def signum (x : ℚ) : ℚ := if x < 0 then -1 else 1

def Side.signed (quantity : ℚ) : Side → ℚ
  | .buy  => quantity
  | .sell => -quantity

namespace Position

/-- The position a fill finds when there is none. -/
def flat (symbol : String) (exchange : Exchange) (timestamp : Int) : Position :=
  { symbol, exchange, quantity := 0, avgEntryPrice := 0, unrealizedPnl := 0, realizedPnl := 0,
    lastUpdate := timestamp }

/-- The profit of a position that is closed or reversed. -/
def closingPnl (pos : Position) (side : Side) (quantity price : ℚ) : Option ℚ :=
  let oldQuantity := pos.quantity
  let newQuantity := oldQuantity + Side.signed quantity side
  if oldQuantity ≠ 0 ∧ signum oldQuantity ≠ signum newQuantity then
    let closedQuantity := if signum newQuantity ≠ signum oldQuantity then |oldQuantity| else quantity
    some (closedQuantity * (price - pos.avgEntryPrice) * signum oldQuantity)
  else none

/-- Quantity and entry price after a fill. -/
def moved (pos : Position) (side : Side) (quantity price : ℚ) : Position :=
  let oldQuantity := pos.quantity
  let newQuantity := oldQuantity + Side.signed quantity side
  if newQuantity ≠ 0 then
    if signum oldQuantity = signum newQuantity then
      -- Adding to position
      let totalCost := pos.avgEntryPrice * |oldQuantity| + price * quantity
      { pos with quantity := newQuantity, avgEntryPrice := totalCost / |newQuantity| }
    else { pos with quantity := newQuantity, avgEntryPrice := price }
  else { pos with quantity := 0, avgEntryPrice := 0 }

/-- The position after a fill. -/
def filled (pos : Position) (side : Side) (quantity price : ℚ) (timestamp : Int) : Position :=
  { pos.moved side quantity price with
    realizedPnl := pos.realizedPnl + (pos.closingPnl side quantity price).getD 0
    lastUpdate  := timestamp }

end Position

namespace PerformanceMetrics

def update (metrics : PerformanceMetrics) (pnl : ℚ) : PerformanceMetrics :=
  let totalTrades := metrics.totalTrades + 1
  let totalPnl := metrics.totalPnl + pnl
  let winningTrades := if 0 < pnl then metrics.winningTrades + 1 else metrics.winningTrades
  let losingTrades := if pnl < 0 then metrics.losingTrades + 1 else metrics.losingTrades
  { metrics with
    totalTrades, totalPnl, winningTrades, losingTrades
    winRate     := winningTrades / totalTrades
    avgWin      := if 0 < winningTrades then max totalPnl 0 / winningTrades else metrics.avgWin
    avgLoss     := if 0 < losingTrades then min totalPnl 0 / losingTrades else metrics.avgLoss
    maxDrawdown := if totalPnl < metrics.maxDrawdown then totalPnl else metrics.maxDrawdown }

end PerformanceMetrics

namespace OrderManagementSystem

def getPosition (oms : OrderManagementSystem) (symbol : String) (exchange : Exchange) : Option Position :=
  oms.positions.lookup (symbol, exchange)

/-- The position, flat if there is none. -/
def position (oms : OrderManagementSystem) (symbol : String) (exchange : Exchange) (timestamp : Int) : Position :=
  (oms.getPosition symbol exchange).getD (.flat symbol exchange timestamp)

def updatePosition (oms : OrderManagementSystem) (symbol : String) (exchange : Exchange) (side : Side)
    (quantity price : ℚ) (timestamp : Int) : OrderManagementSystem :=
  let pos := oms.position symbol exchange timestamp
  let positions := Assoc.put (symbol, exchange) (pos.filled side quantity price timestamp) oms.positions
  match pos.closingPnl side quantity price with
  | some pnl => { oms with positions, dailyPnl := oms.dailyPnl + pnl, performance := oms.performance.update pnl }
  | none     => { oms with positions }

end OrderManagementSystem

/-! ## What a fill does to a position -/

/-- A fill against the position that leaves some of it. -/
def Reduces (held signed : ℚ) : Prop := held * signed < 0 ∧ |signed| < |held|

/-- What a fill against the position closes of it, with the sign of the position. -/
def closedQuantity (held signed : ℚ) : ℚ := if |signed| ≤ |held| then -signed else held

theorem abs_signed {quantity : ℚ} (h : 0 < quantity) (side : Side) : |Side.signed quantity side| = quantity := by
  cases side with
  | buy => exact abs_of_pos h
  | sell => exact (abs_neg quantity).trans (abs_of_pos h)

theorem signum_of_neg {x : ℚ} (h : x < 0) : signum x = -1 := if_pos h

theorem signum_of_nonneg {x : ℚ} (h : 0 ≤ x) : signum x = 1 := if_neg (not_lt.mpr h)

theorem signum_mul_abs (x : ℚ) : signum x * |x| = x := by
  rcases lt_or_ge x 0 with h | h
  · rw [signum_of_neg h, abs_of_neg h]
    ring
  · rw [signum_of_nonneg h, abs_of_nonneg h, one_mul]

section Fill

variable {pos : Position} {side : Side} {quantity price : ℚ} {timestamp : Int}

theorem closingPnl_same (h : signum pos.quantity = signum (pos.quantity + Side.signed quantity side)) :
    pos.closingPnl side quantity price = none :=
  if_neg fun hne => hne.2 h

theorem closingPnl_other (hne : pos.quantity ≠ 0)
    (h : signum pos.quantity ≠ signum (pos.quantity + Side.signed quantity side)) :
    pos.closingPnl side quantity price = some (pos.quantity * (price - pos.avgEntryPrice)) := by
  have hvalue : |pos.quantity| * (price - pos.avgEntryPrice) * signum pos.quantity =
      pos.quantity * (price - pos.avgEntryPrice) := by
    conv_rhs => rw [← signum_mul_abs pos.quantity]
    ring
  unfold Position.closingPnl
  dsimp only
  rw [if_pos ⟨hne, h⟩, if_pos h.symm, hvalue]

theorem filled_quantity :
    (pos.filled side quantity price timestamp).quantity = pos.quantity + Side.signed quantity side := by
  show (pos.moved side quantity price).quantity = _
  unfold Position.moved
  dsimp only
  by_cases hzero : pos.quantity + Side.signed quantity side = 0
  · rw [if_neg (not_not.mpr hzero), hzero]
  · rw [if_pos hzero]
    split <;> rfl

/-- A new quantity of the same sign takes the cost of the fill in, whichever way the fill goes. -/
theorem filled_same (hn : pos.quantity + Side.signed quantity side ≠ 0)
    (h : signum pos.quantity = signum (pos.quantity + Side.signed quantity side)) :
    (pos.filled side quantity price timestamp).quantity * (pos.filled side quantity price timestamp).avgEntryPrice =
      pos.quantity * pos.avgEntryPrice + signum (pos.quantity + Side.signed quantity side) * quantity * price := by
  have havg : (pos.filled side quantity price timestamp).avgEntryPrice =
      (pos.avgEntryPrice * |pos.quantity| + price * quantity) / |pos.quantity + Side.signed quantity side| := by
    show (pos.moved side quantity price).avgEntryPrice = _
    unfold Position.moved
    dsimp only
    rw [if_pos hn, if_pos h]
  have hheld := signum_mul_abs pos.quantity
  rw [filled_quantity, havg]
  rw [h] at hheld
  generalize pos.quantity + Side.signed quantity side = n at *
  have habs : |n| ≠ 0 := abs_ne_zero.mpr hn
  calc n * ((pos.avgEntryPrice * |pos.quantity| + price * quantity) / |n|)
      = signum n * |n| * ((pos.avgEntryPrice * |pos.quantity| + price * quantity) / |n|) := by rw [signum_mul_abs]
    _ = signum n * |pos.quantity| * pos.avgEntryPrice + signum n * quantity * price := by field_simp
    _ = pos.quantity * pos.avgEntryPrice + signum n * quantity * price := by rw [hheld]

/-- A new quantity of the other sign, or none, is held at the price of the fill. -/
theorem filled_other (h : signum pos.quantity ≠ signum (pos.quantity + Side.signed quantity side)) :
    (pos.filled side quantity price timestamp).quantity * (pos.filled side quantity price timestamp).avgEntryPrice =
      (pos.quantity + Side.signed quantity side) * price := by
  rw [filled_quantity]
  by_cases hzero : pos.quantity + Side.signed quantity side = 0
  · rw [hzero, zero_mul, zero_mul]
  · have havg : (pos.moved side quantity price).avgEntryPrice = price := by
      unfold Position.moved
      dsimp only
      rw [if_pos hzero, if_neg h]
    exact congrArg _ havg

/-- **Adding** to a position, or opening one. -/
theorem filled_adds (hq : 0 < quantity) (h : 0 ≤ pos.quantity * Side.signed quantity side) :
    pos.closingPnl side quantity price = none ∧
      (pos.filled side quantity price timestamp).quantity * (pos.filled side quantity price timestamp).avgEntryPrice =
        pos.quantity * pos.avgEntryPrice + Side.signed quantity side * price := by
  have habs := abs_signed hq side
  rcases lt_or_ge (Side.signed quantity side) 0 with hneg | hnonneg
  · have hsell : Side.signed quantity side = -quantity := by
      rw [abs_of_neg hneg] at habs
      linarith
    have hheld : pos.quantity ≤ 0 := nonpos_of_mul_nonneg_left h hneg
    have hn : pos.quantity + Side.signed quantity side < 0 := by linarith
    rcases hheld.lt_or_eq with hshort | hflat
    · have hsame : signum pos.quantity = signum (pos.quantity + Side.signed quantity side) := by
        rw [signum_of_neg hshort, signum_of_neg hn]
      refine ⟨closingPnl_same hsame, ?_⟩
      rw [filled_same hn.ne hsame, signum_of_neg hn, hsell]
      ring
    · have hother : signum pos.quantity ≠ signum (pos.quantity + Side.signed quantity side) := by
        rw [hflat, zero_add, signum_of_nonneg le_rfl, signum_of_neg hneg]
        norm_num
      refine ⟨if_neg fun hne => hne.1 hflat, ?_⟩
      rw [filled_other hother, hflat]
      ring
  · rw [abs_of_nonneg hnonneg] at habs
    have hpos : 0 < Side.signed quantity side := by linarith
    have hheld : 0 ≤ pos.quantity := nonneg_of_mul_nonneg_left h hpos
    have hn : 0 < pos.quantity + Side.signed quantity side := by linarith
    have hsame : signum pos.quantity = signum (pos.quantity + Side.signed quantity side) := by
      rw [signum_of_nonneg hheld, signum_of_nonneg hn.le]
    refine ⟨closingPnl_same hsame, ?_⟩
    rw [filled_same hn.ne' hsame, signum_of_nonneg hn.le, habs]
    ring

/-- **Reducing** a position is taken for adding to it. -/
theorem filled_reduces (hq : 0 < quantity) (h : Reduces pos.quantity (Side.signed quantity side)) :
    pos.closingPnl side quantity price = none ∧
      (pos.filled side quantity price timestamp).quantity * (pos.filled side quantity price timestamp).avgEntryPrice =
        pos.quantity * pos.avgEntryPrice - Side.signed quantity side * price := by
  obtain ⟨hagainst, hless⟩ := h
  have habs := abs_signed hq side
  rcases lt_or_ge pos.quantity 0 with hshort | hlong
  · have hpos : 0 < Side.signed quantity side := pos_of_mul_neg_right hagainst hshort.le
    rw [abs_of_pos hpos, abs_of_neg hshort] at hless
    rw [abs_of_pos hpos] at habs
    have hn : pos.quantity + Side.signed quantity side < 0 := by linarith
    have hsame : signum pos.quantity = signum (pos.quantity + Side.signed quantity side) := by
      rw [signum_of_neg hshort, signum_of_neg hn]
    refine ⟨closingPnl_same hsame, ?_⟩
    rw [filled_same hn.ne hsame, signum_of_neg hn, habs]
    ring
  · have hneg : Side.signed quantity side < 0 := neg_of_mul_neg_right hagainst hlong
    have hsell : Side.signed quantity side = -quantity := by
      rw [abs_of_neg hneg] at habs
      linarith
    rw [abs_of_neg hneg, abs_of_nonneg hlong] at hless
    have hn : 0 < pos.quantity + Side.signed quantity side := by linarith
    have hsame : signum pos.quantity = signum (pos.quantity + Side.signed quantity side) := by
      rw [signum_of_nonneg hlong, signum_of_nonneg hn.le]
    refine ⟨closingPnl_same hsame, ?_⟩
    rw [filled_same hn.ne' hsame, signum_of_nonneg hn.le, hsell]
    ring

/-- **Closing a long position** realises nothing. -/
theorem filled_closesLong (h : 0 < pos.quantity) (hs : Side.signed quantity side = -pos.quantity) :
    pos.closingPnl side quantity price = none := by
  refine closingPnl_same ?_
  rw [hs, add_neg_cancel, signum_of_nonneg h.le, signum_of_nonneg le_rfl]

/-- **Closing a short position, or reversing one**, realises what was held. -/
theorem filled_reverses (h : pos.quantity * Side.signed quantity side < 0)
    (hs : |pos.quantity| ≤ |Side.signed quantity side|)
    (hlong : ¬ (0 < pos.quantity ∧ Side.signed quantity side = -pos.quantity)) :
    pos.closingPnl side quantity price = some (pos.quantity * (price - pos.avgEntryPrice)) ∧
      (pos.filled side quantity price timestamp).quantity * (pos.filled side quantity price timestamp).avgEntryPrice =
        (pos.quantity + Side.signed quantity side) * price := by
  have hne : pos.quantity ≠ 0 := fun hzero => absurd h (by rw [hzero, zero_mul]; exact lt_irrefl 0)
  have hother : signum pos.quantity ≠ signum (pos.quantity + Side.signed quantity side) := by
    rcases lt_or_ge pos.quantity 0 with hshort | hheld
    · have hpos : 0 < Side.signed quantity side := pos_of_mul_neg_right h hshort.le
      rw [abs_of_neg hshort, abs_of_pos hpos] at hs
      rw [signum_of_neg hshort, signum_of_nonneg (by linarith)]
      norm_num
    · have hpos : 0 < pos.quantity := lt_of_le_of_ne hheld hne.symm
      have hneg : Side.signed quantity side < 0 := neg_of_mul_neg_right h hheld
      rw [abs_of_pos hpos, abs_of_neg hneg] at hs
      have hn : pos.quantity + Side.signed quantity side < 0 := by
        refine lt_of_le_of_ne (by linarith) fun hzero => hlong ⟨hpos, ?_⟩
        linarith
      rw [signum_of_nonneg hheld, signum_of_neg hn]
      norm_num
  exact ⟨closingPnl_other hne hother, filled_other hother⟩

end Fill

/-! ## Accounts -/

structure Fill where
  side      : Side
  quantity  : ℚ
  price     : ℚ
  timestamp : Int
deriving DecidableEq

namespace Fill

def signed (fill : Fill) : ℚ := Side.signed fill.quantity fill.side

/-- Received for what is sold, less what is paid for what is bought. -/
def cash (fill : Fill) : ℚ := -(fill.signed * fill.price)

end Fill

namespace Position

def fill (pos : Position) (fill : Fill) : Position := pos.filled fill.side fill.quantity fill.price fill.timestamp

/-- What the position has realised, less what it holds at its entry price. -/
def account (pos : Position) : ℚ := pos.realizedPnl - pos.quantity * pos.avgEntryPrice

/-- A fill against the position realises the difference to the entry price on what it closes, and leaves the entry
    price of the rest. -/
structure Realises (pos pos' : Position) (fill : Fill) : Prop where
  closing  : pos.quantity * fill.signed < 0 → pos'.realizedPnl - pos.realizedPnl =
    (fill.price - pos.avgEntryPrice) * closedQuantity pos.quantity fill.signed
  reducing : Reduces pos.quantity fill.signed → pos'.avgEntryPrice = pos.avgEntryPrice

/-- The fill does not reduce the position, unless both prices are 0, nor close a long one, unless at its entry
    price. -/
structure Clean (pos : Position) (fill : Fill) : Prop where
  reducing    : Reduces pos.quantity fill.signed → fill.price = 0 ∧ pos.avgEntryPrice = 0
  closingLong : 0 < pos.quantity → fill.signed = -pos.quantity → fill.price = pos.avgEntryPrice

variable {pos : Position} {fill : Fill}

theorem realizedPnl_fill : (pos.fill fill).realizedPnl - pos.realizedPnl =
    (pos.closingPnl fill.side fill.quantity fill.price).getD 0 :=
  add_sub_cancel_left ..

theorem not_reduces_of_le {held signed : ℚ} (h : |held| ≤ |signed|) : ¬ Reduces held signed :=
  fun hreduces => absurd hreduces.2 (not_lt.mpr h)

/-- What is closed when nothing of the position is left on its side. -/
theorem closedQuantity_of_le {held signed : ℚ} (h : held * signed < 0) (hle : |held| ≤ |signed|) :
    closedQuantity held signed = held := by
  unfold closedQuantity
  split
  next hge =>
    have habs : |held| = |signed| := le_antisymm hle hge
    rcases abs_eq_abs.mp habs with heq | heq
    · rw [heq] at h
      exact absurd h (not_lt.mpr (mul_self_nonneg _))
    · exact heq.symm
  next => rfl

theorem account_fill : (pos.fill fill).account - pos.account =
    (pos.closingPnl fill.side fill.quantity fill.price).getD 0 -
      ((pos.fill fill).quantity * (pos.fill fill).avgEntryPrice - pos.quantity * pos.avgEntryPrice) := by
  rw [← realizedPnl_fill]
  unfold account
  ring

/-- **Adding** to the position, or opening it, accounts for the cash. -/
theorem accounts_of_adds (hq : 0 < fill.quantity) (hadds : 0 ≤ pos.quantity * fill.signed) :
    (pos.fill fill).account - pos.account = fill.cash ∧ pos.Realises (pos.fill fill) fill ∧ pos.Clean fill := by
  obtain ⟨hnone, hvalue⟩ := @filled_adds pos fill.side fill.quantity fill.price fill.timestamp hq hadds
  have hagainst : ¬ pos.quantity * fill.signed < 0 := not_lt.mpr hadds
  refine ⟨?_, ⟨fun h => absurd h hagainst, fun h => absurd h.1 hagainst⟩, fun h => absurd h.1 hagainst, ?_⟩
  · rw [account_fill, hnone]
    unfold Position.fill
    rw [hvalue, Fill.cash, Fill.signed, Option.getD_none]
    ring
  · intro hlong hs
    rw [hs, mul_neg] at hadds
    exact absurd (mul_pos hlong hlong) (not_lt.mpr (neg_nonneg.mp hadds))

/-- **Reducing** the position never accounts for the cash, unless both prices are 0. -/
theorem accounts_iff_of_reduces (hq : 0 < fill.quantity) (hreduces : Reduces pos.quantity fill.signed) :
    (pos.fill fill).account - pos.account = fill.cash ∧ pos.Realises (pos.fill fill) fill ↔
      fill.price = 0 ∧ pos.avgEntryPrice = 0 := by
  have hsigned : fill.signed ≠ 0 := abs_pos.mp ((abs_signed hq fill.side).symm ▸ hq)
  obtain ⟨hnone, hvalue⟩ := @filled_reduces pos fill.side fill.quantity fill.price fill.timestamp hq hreduces
  have hclosed : closedQuantity pos.quantity fill.signed = -fill.signed := if_pos hreduces.2.le
  have haccount : (pos.fill fill).account - pos.account = fill.signed * fill.price := by
    rw [account_fill, hnone]
    unfold Position.fill
    rw [hvalue, Fill.signed, Option.getD_none]
    ring
  rw [haccount, Fill.cash]
  constructor
  · rintro ⟨hcash, hrealises⟩
    have hprice : fill.price = 0 := by
      have hzero : fill.signed * fill.price = 0 := by linarith
      exact (mul_eq_zero.mp hzero).resolve_left hsigned
    have hclosing := hrealises.closing hreduces.1
    rw [realizedPnl_fill, hnone, hclosed, hprice, zero_sub] at hclosing
    exact ⟨hprice, neg_eq_zero.mp ((mul_eq_zero.mp hclosing.symm).resolve_right (neg_ne_zero.mpr hsigned))⟩
  · rintro ⟨hprice, hentry⟩
    refine ⟨by rw [hprice, mul_zero, neg_zero], fun _ => ?_, fun _ => ?_⟩
    · rw [realizedPnl_fill, hnone, hprice, hentry, sub_zero, zero_mul, Option.getD_none]
    · -- what is left is worth nothing, and it is not nothing
      have hleft : (pos.fill fill).quantity ≠ 0 := by
        rw [Position.fill, filled_quantity]
        intro hzero
        have hless := hreduces.2
        rw [Fill.signed, eq_neg_of_add_eq_zero_right hzero, abs_neg] at hless
        exact lt_irrefl _ hless
      have hworth : (pos.fill fill).quantity * (pos.fill fill).avgEntryPrice = 0 := by
        unfold Position.fill
        rw [hvalue, hentry, hprice, mul_zero, mul_zero, sub_zero]
      exact ((mul_eq_zero.mp hworth).resolve_left hleft).trans hentry.symm

/-- **Closing a long position** accounts for the cash at its entry price only. -/
theorem accounts_iff_of_closesLong (hlong : 0 < pos.quantity) (hs : fill.signed = -pos.quantity) :
    (pos.fill fill).account - pos.account = fill.cash ∧ pos.Realises (pos.fill fill) fill ↔
      fill.price = pos.avgEntryPrice := by
  have hnone := @filled_closesLong pos fill.side fill.quantity fill.price hlong hs
  have hreduces : ¬ Reduces pos.quantity fill.signed := not_reduces_of_le (by rw [hs, abs_neg])
  have haccount : (pos.fill fill).account - pos.account = pos.quantity * pos.avgEntryPrice := by
    have hflat : (pos.fill fill).quantity = 0 := by
      rw [Position.fill, filled_quantity, ← Fill.signed, hs, add_neg_cancel]
    rw [account_fill, hnone, hflat, zero_mul, zero_sub, sub_neg_eq_add, Option.getD_none, zero_add]
  rw [haccount, Fill.cash, hs]
  constructor
  · rintro ⟨hcash, -⟩
    have hequal : pos.quantity * pos.avgEntryPrice = pos.quantity * fill.price := by linarith
    exact (mul_left_cancel₀ hlong.ne' hequal).symm
  · intro hprice
    refine ⟨by rw [hprice]; ring, fun _ => ?_, fun h => absurd h hreduces⟩
    rw [realizedPnl_fill, hnone, hprice, sub_self, zero_mul, Option.getD_none]

/-- **Closing a short position, or reversing one,** accounts for the cash. -/
theorem accounts_of_reverses (hagainst : pos.quantity * fill.signed < 0) (hmore : |pos.quantity| ≤ |fill.signed|)
    (hlong : ¬ (0 < pos.quantity ∧ fill.signed = -pos.quantity)) :
    (pos.fill fill).account - pos.account = fill.cash ∧ pos.Realises (pos.fill fill) fill ∧ pos.Clean fill := by
  have hreduces := not_reduces_of_le hmore
  obtain ⟨hsome, hvalue⟩ :=
    @filled_reverses pos fill.side fill.quantity fill.price fill.timestamp hagainst hmore hlong
  refine ⟨?_, ⟨fun _ => ?_, fun h => absurd h hreduces⟩, fun h => absurd h hreduces,
    fun hpos hs => absurd ⟨hpos, hs⟩ hlong⟩
  · rw [account_fill, hsome]
    unfold Position.fill
    rw [hvalue, Fill.cash, Fill.signed, Option.getD_some]
    ring
  · rw [realizedPnl_fill, hsome, closedQuantity_of_le hagainst hmore, Option.getD_some]
    exact mul_comm ..

/-- **One fill** keeps the account and realises what it should exactly when it is clean. -/
theorem fill_accounts_iff (hq : 0 < fill.quantity) :
    (pos.fill fill).account - pos.account = fill.cash ∧ pos.Realises (pos.fill fill) fill ↔ pos.Clean fill := by
  rcases le_or_gt 0 (pos.quantity * fill.signed) with hadds | hagainst
  · obtain ⟨hcash, hrealises, hclean⟩ := accounts_of_adds hq hadds
    exact iff_of_true ⟨hcash, hrealises⟩ hclean
  rcases lt_or_ge |fill.signed| |pos.quantity| with hless | hmore
  · have hreduces : Reduces pos.quantity fill.signed := ⟨hagainst, hless⟩
    refine (accounts_iff_of_reduces hq hreduces).trans ⟨fun h => ⟨fun _ => h, fun _ hs => ?_⟩,
      fun h => h.reducing hreduces⟩
    rw [hs, abs_neg] at hless
    exact absurd hless (lt_irrefl _)
  by_cases hlong : 0 < pos.quantity ∧ fill.signed = -pos.quantity
  · refine (accounts_iff_of_closesLong hlong.1 hlong.2).trans ⟨fun h => ⟨fun hreduces => ?_, fun _ _ => h⟩,
      fun h => h.closingLong hlong.1 hlong.2⟩
    exact absurd hreduces (not_reduces_of_le hmore)
  · obtain ⟨hcash, hrealises, hclean⟩ := accounts_of_reverses hagainst hmore hlong
    exact iff_of_true ⟨hcash, hrealises⟩ hclean

end Position

/-! ## Runs of fills -/

namespace OrderManagementSystem

variable {oms : OrderManagementSystem} {symbol : String} {exchange : Exchange}

/-- Nothing is accounted for where nothing was ever held. -/
def account (oms : OrderManagementSystem) (symbol : String) (exchange : Exchange) : ℚ :=
  ((oms.getPosition symbol exchange).map Position.account).getD 0

theorem account_eq (timestamp : Int) :
    oms.account symbol exchange = (oms.position symbol exchange timestamp).account := by
  unfold account position
  cases oms.getPosition symbol exchange with
  | none => exact (sub_eq_zero.mpr (mul_zero 0).symm).symm
  | some pos => rfl

theorem positions_updatePosition (oms : OrderManagementSystem) (symbol : String) (exchange : Exchange) (side : Side)
    (quantity price : ℚ) (timestamp : Int) :
    (oms.updatePosition symbol exchange side quantity price timestamp).positions =
      Assoc.put (symbol, exchange) ((oms.position symbol exchange timestamp).filled side quantity price timestamp)
        oms.positions := by
  unfold updatePosition
  dsimp only
  split <;> rfl

theorem dailyPnl_updatePosition (oms : OrderManagementSystem) (symbol : String) (exchange : Exchange) (side : Side)
    (quantity price : ℚ) (timestamp : Int) :
    (oms.updatePosition symbol exchange side quantity price timestamp).dailyPnl =
      oms.dailyPnl + ((oms.position symbol exchange timestamp).closingPnl side quantity price).getD 0 := by
  unfold updatePosition
  dsimp only
  split
  next pnl hpnl => rw [hpnl, Option.getD_some]
  next hnone => rw [hnone, Option.getD_none, add_zero]

def fill (symbol : String) (exchange : Exchange) (oms : OrderManagementSystem) (fill : Fill) : OrderManagementSystem :=
  oms.updatePosition symbol exchange fill.side fill.quantity fill.price fill.timestamp

theorem position_fill (oms : OrderManagementSystem) (fill : Fill) (timestamp : Int) :
    (oms.fill symbol exchange fill).position symbol exchange timestamp =
      (oms.position symbol exchange fill.timestamp).fill fill := by
  unfold position getPosition OrderManagementSystem.fill
  rw [positions_updatePosition, Assoc.lookup_put_self]
  rfl

/-- A fill of one symbol and exchange. -/
def fillStep (symbol : String) (exchange : Exchange) (oms : OrderManagementSystem) (fill : Fill) :
    OrderManagementSystem × List Unit :=
  (oms.fill symbol exchange fill, [])

/-- The system after some fills. -/
def after (oms : OrderManagementSystem) (symbol : String) (exchange : Exchange) (fills : List Fill) :
    OrderManagementSystem :=
  (run (fillStep symbol exchange) oms fills).1

/-- **Cash is conserved:** at every point the account is the cash received less the cash paid, every fill realises what
    it closes, and the daily profit grows by what is realised. -/
structure Conserves (oms : OrderManagementSystem) (symbol : String) (exchange : Exchange) (fills : List Fill) :
    Prop where
  cash     : ∀ done, done <+: fills →
    (oms.after symbol exchange done).account symbol exchange = (done.map Fill.cash).sum
  realises : ∀ done fill, done ++ [fill] <+: fills →
    ((oms.after symbol exchange done).position symbol exchange fill.timestamp).Realises
      ((oms.after symbol exchange (done ++ [fill])).position symbol exchange fill.timestamp) fill
  daily    : ∀ done fill, done ++ [fill] <+: fills →
    (oms.after symbol exchange (done ++ [fill])).dailyPnl - (oms.after symbol exchange done).dailyPnl =
      ((oms.after symbol exchange (done ++ [fill])).position symbol exchange fill.timestamp).realizedPnl -
        ((oms.after symbol exchange done).position symbol exchange fill.timestamp).realizedPnl

/-- The position takes the fill as it should. -/
def Clean (symbol : String) (exchange : Exchange) (oms : OrderManagementSystem) (fill : Fill) : Prop :=
  (oms.position symbol exchange fill.timestamp).Clean fill

theorem after_concat (oms : OrderManagementSystem) (symbol : String) (exchange : Exchange) (done : List Fill)
    (fill : Fill) :
    oms.after symbol exchange (done ++ [fill]) = (oms.after symbol exchange done).fill symbol exchange fill := by
  unfold after
  rw [run_append_state]
  rfl

theorem daily_fill (oms : OrderManagementSystem) (symbol : String) (exchange : Exchange) (fill : Fill) :
    (oms.fill symbol exchange fill).dailyPnl - oms.dailyPnl =
      ((oms.fill symbol exchange fill).position symbol exchange fill.timestamp).realizedPnl -
        (oms.position symbol exchange fill.timestamp).realizedPnl := by
  rw [position_fill, Position.realizedPnl_fill, OrderManagementSystem.fill, dailyPnl_updatePosition]
  exact add_sub_cancel_left ..

theorem cash_concat (done : List Fill) (fill : Fill) :
    ((done ++ [fill]).map Fill.cash).sum = (done.map Fill.cash).sum + fill.cash := by
  rw [List.map_append, List.sum_append, List.map_singleton, List.sum_singleton]

/-- The account is right at every point when every fill moves it by its cash. -/
theorem cash_iff (hflat : oms.getPosition symbol exchange = none) (fills : List Fill) :
    (∀ done, done <+: fills →
        (oms.after symbol exchange done).account symbol exchange = (done.map Fill.cash).sum) ↔
      ∀ done fill, done ++ [fill] <+: fills →
        (oms.after symbol exchange (done ++ [fill])).account symbol exchange -
          (oms.after symbol exchange done).account symbol exchange = fill.cash := by
  constructor
  · intro h done fill hdone
    rw [h _ hdone, h done ((List.prefix_append ..).trans hdone), cash_concat]
    exact add_sub_cancel_left ..
  · intro h done
    induction done using List.reverseRecOn with
    | nil =>
        intro _
        show ((oms.getPosition symbol exchange).map Position.account).getD 0 = 0
        rw [hflat]
        rfl
    | append_singleton done fill ih =>
        intro hdone
        rw [cash_concat, ← ih ((List.prefix_append ..).trans hdone), ← h done fill hdone]
        exact (add_sub_cancel ..).symm

/-- **Position accounting** conserves cash on a run of fills of a flat position exactly when every fill is clean. -/
theorem cash_conserved_iff (hflat : oms.getPosition symbol exchange = none) (fills : List Fill)
    (hq : ∀ fill ∈ fills, 0 < fill.quantity) :
    oms.Conserves symbol exchange fills ↔ Guarded (fillStep symbol exchange) (Clean symbol exchange) oms fills := by
  have hstep : ∀ done fill, done ++ [fill] <+: fills →
      ((oms.after symbol exchange (done ++ [fill])).account symbol exchange -
          (oms.after symbol exchange done).account symbol exchange = fill.cash ∧
        ((oms.after symbol exchange done).position symbol exchange fill.timestamp).Realises
          ((oms.after symbol exchange (done ++ [fill])).position symbol exchange fill.timestamp) fill ↔
        Clean symbol exchange (oms.after symbol exchange done) fill) := by
    intro done fill hdone
    have hmem : fill ∈ fills := hdone.subset (List.mem_append_right _ (List.mem_singleton_self _))
    rw [account_eq fill.timestamp, account_eq fill.timestamp, after_concat, position_fill]
    exact Position.fill_accounts_iff (hq fill hmem)
  rw [guarded_iff_points]
  constructor
  · intro h done fill hdone
    exact (hstep done fill hdone).mp ⟨(cash_iff hflat fills).mp h.cash done fill hdone, h.realises done fill hdone⟩
  · intro h
    refine ⟨(cash_iff hflat fills).mpr fun done fill hdone => ?_, fun done fill hdone => ?_,
      fun done fill _ => ?_⟩
    · exact ((hstep done fill hdone).mpr (h done fill hdone)).1
    · exact ((hstep done fill hdone).mpr (h done fill hdone)).2
    · rw [after_concat]
      exact daily_fill ..

/-! ## A long position reduced -/

def limits : OrderManagementSystem := .new 100 1000 100000

/-- Bought in two parts, sold and more, bought back. -/
def roundTrip : List Fill := [⟨.buy, 4, 100, 1⟩, ⟨.buy, 6, 110, 2⟩, ⟨.sell, 15, 120, 3⟩, ⟨.buy, 5, 115, 4⟩]

theorem cash_conserved_roundTrip :
    limits.getPosition "BTCUSDT" .binance = none ∧ (∀ fill ∈ roundTrip, 0 < fill.quantity) ∧
      (limits.Conserves "BTCUSDT" .binance roundTrip ↔
        Guarded (fillStep "BTCUSDT" .binance) (Clean "BTCUSDT" .binance) limits roundTrip) :=
  ⟨rfl, by decide +kernel, cash_conserved_iff rfl roundTrip (by decide +kernel)⟩

/-- Half of what was bought is sold again. -/
def reduced : List Fill := [⟨.buy, 10, 100, 1⟩, ⟨.sell, 5, 110, 2⟩]

/-- 450 was paid, and 1550 is held at the entry price of 310. -/
theorem reduced_not_conserved : ¬ limits.Conserves "BTCUSDT" .binance reduced := by
  intro h
  have hcash := h.cash reduced List.prefix_rfl
  revert hcash
  decide +kernel

end OrderManagementSystem
end Oms
end TradingPlatform
