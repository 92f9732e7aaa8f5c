import TradingPlatform.Maker.Tracking
import Mathlib.Tactic.FieldSimp
import Mathlib.Tactic.Positivity

/-!
# `Maker.Margin` — whether a ladder stays within its margin

The number of levels is computed for orders of the given size at the middle price. The orders themselves are
enlarged to the minimum notional and to whole thousandths, priced away from the middle, and a skewed ladder has
fewer on one side. A call stays within its margin if the orders do not overrun what the sizing has left of it, and all
calls do if the reserve of a fifth is always enough (`within_margin_iff`).
-/

namespace TradingPlatform
namespace Maker

open Rust Json

/-! ## The worth of orders -/

def notional (order : OrderRequest) : F64 := order.price.getD 0 * order.quantity

def totalNotional : List OrderRequest → F64
  | []              => 0
  | order :: orders => notional order + totalNotional orders

/-- `sum(price * quantity) / leverage <= margin` -/
def WithinMargin (margin leverage : ℚ) (orders : List OrderRequest) : Prop :=
  totalNotional orders / .finite leverage ≤ .finite margin

theorem totalNotional_of_finite {orders : List OrderRequest} {worths : List ℚ}
    (h : orders.map notional = worths.map F64.finite) : totalNotional orders = .finite worths.sum := by
  induction orders generalizing worths with
  | nil =>
      obtain rfl := List.map_eq_nil_iff.mp h.symm
      rfl
  | cons order orders ih =>
      cases worths with
      | nil => cases h
      | cons worth worths =>
          rw [List.map_cons, List.map_cons, List.cons.injEq] at h
          rw [totalNotional, h.1, ih h.2, F64.finite_add, List.sum_cons]

/-- One order of no worth spoils the sum. -/
theorem totalNotional_of_nan {orders : List OrderRequest} (h : ∃ order ∈ orders, notional order = .nan) :
    totalNotional orders = .nan := by
  have hnan : ∀ x : F64, x + .nan = .nan := by
    intro x
    cases x <;> rfl
  induction orders with
  | nil =>
      obtain ⟨order, hmem, -⟩ := h
      cases hmem
  | cons order orders ih =>
      obtain ⟨other, hmem, hother⟩ := h
      rw [totalNotional]
      rcases List.mem_cons.mp hmem with rfl | hmem
      · rw [hother]
        cases totalNotional orders <;> rfl
      · rw [ih ⟨other, hmem, hother⟩, hnan]

/-! ## How many orders the margin is for -/

theorem le_asUsize_iff {x : ℚ} (hx : 0 ≤ x) {n : Nat} (hn : n < 2 ^ 64) :
    n ≤ (F64.finite x).asUsize ↔ (n : ℚ) ≤ x := by
  show n ≤ Nat.min (truncated x).toNat (2 ^ 64 - 1) ↔ _
  rw [truncated_eq_floor hx, Nat.le_min, and_iff_left (Nat.le_sub_one_of_lt hn),
    Int.le_toNat (Int.floor_nonneg.mpr hx), Int.le_floor]
  rfl

/-- The number of orders computed from these numbers. -/
def ordersFor (margin leverage mid size : ℚ) : Nat :=
  maxOrders (.finite margin) (.finite leverage) (.finite mid) (.finite size)

section

variable {mid size leverage : ℚ}

theorem ordersFor_of_ne (hmid : mid ≠ 0) (hsize : 0 < size) (hleverage : 0 < leverage) (margin : ℚ) :
    ordersFor margin leverage mid size = (F64.finite (margin * (4 / 5) / (mid * size / leverage))).asUsize := by
  have hperOrder : mid * size / leverage ≠ 0 := div_ne_zero (mul_ne_zero hmid hsize.ne') hleverage.ne'
  unfold ordersFor maxOrders
  dsimp only
  rw [F64.finite_mul, F64.finite_mul, F64.finite_div hleverage.ne', F64.finite_div hperOrder]

/-- Above zero the number is as large as 80% of the margin allow. -/
theorem le_ordersFor_iff (hmid : 0 < mid) (hsize : 0 < size) (hleverage : 0 < leverage) {margin : ℚ}
    (hmargin : 0 ≤ margin) {n : Nat} (hn : n < 2 ^ 64) :
    n ≤ ordersFor margin leverage mid size ↔ n * (mid * size) ≤ margin * leverage * (4 / 5) := by
  rw [ordersFor_of_ne hmid.ne' hsize hleverage, le_asUsize_iff (by positivity) hn, le_div_iff₀ (by positivity),
    mul_div_assoc', div_le_iff₀ hleverage, mul_right_comm]

/-- At price zero any margin is enough for any number. -/
theorem ordersFor_zero (hleverage : 0 < leverage) {margin : ℚ} (hmargin : 0 < margin) :
    ordersFor margin leverage 0 size = 2 ^ 64 - 1 := by
  have hsafe : 0 < margin * (4 / 5) := by positivity
  unfold ordersFor maxOrders
  dsimp only
  rw [F64.finite_mul, F64.finite_mul, zero_mul, F64.finite_div hleverage.ne', zero_div, F64.div_zero_of_pos hsafe]
  rfl

/-- A margin just above that is enough for `n` levels. -/
theorem ordersFor_of_reserve (hmid : 0 ≤ mid) (hsize : 0 < size) (hleverage : 0 < leverage) {ε : ℚ} (hε : 0 < ε)
    {n : Nat} (hn : n < 2 ^ 63) :
    2 * n ≤ ordersFor ((5 / 2 * n * mid * size + ε) / leverage) leverage mid size := by
  have hmargin : 0 < (5 / 2 * n * mid * size + ε) / leverage := by positivity
  rcases hmid.eq_or_lt with rfl | hpos
  · rw [ordersFor_zero hleverage hmargin]
    omega
  · rw [le_ordersFor_iff hpos hsize hleverage hmargin.le (by omega), div_mul_cancel₀ _ hleverage.ne']
    push_cast
    linarith

end

/-! ## The orders of a ladder -/

/-- The nearest multiple of the tick. -/
def onTick (tick price : ℚ) : ℚ := rounded (price / tick) * tick

/-- The price of level `i`. -/
def levelPrice (mid spread tick : ℚ) (side : OrderSide) (i : Nat) : ℚ :=
  match side with
  | .buy  => onTick tick (onTick tick mid - i * spread)
  | .sell => onTick tick (onTick tick mid + i * spread)

/-- What an order of this size is worth at this price, after it is enlarged. -/
def worth (size price : ℚ) : ℚ := price * (⌈max size (100 / price) * 1000⌉ / 1000)

def sideWorth (mid spread tick size : ℚ) (side : OrderSide) (levels : Nat) : ℚ :=
  ((List.range levels).map fun i => worth size (levelPrice mid spread tick side (i + 1))).sum

/-- What the orders of a side are worth beyond as many orders of the size at the middle price. -/
def overrun (mid spread tick size : ℚ) (side : OrderSide) (levels : Nat) : ℚ :=
  ((List.range levels).map fun i => worth size (levelPrice mid spread tick side (i + 1)) - mid * size).sum

/-- A market maker with these numbers. -/
def makerOf (symbol : String) (size spread tick : ℚ) : MarketMaker :=
  ⟨symbol, .finite size, .finite spread, .finite tick⟩

section

variable {symbol : String} {size spread tick mid : ℚ}

theorem toTick_finite (htick : tick ≠ 0) (price : ℚ) :
    (makerOf symbol size spread tick).toTick (.finite price) = .finite (onTick tick price) := by
  unfold MarketMaker.toTick makerOf
  dsimp only
  rw [F64.finite_div htick, F64.finite_round, F64.finite_mul]
  rfl

theorem ladderOrder_price (htick : tick ≠ 0) (side : OrderSide) (i : Nat) :
    (makerOf symbol size spread tick).toTick
        (awayFrom ((makerOf symbol size spread tick).toTick (.finite mid)) (.finite spread) side i) =
      .finite (levelPrice mid spread tick side i) := by
  rw [toTick_finite htick]
  unfold awayFrom levelPrice
  cases side with
  | buy =>
      dsimp only
      rw [F64.finite_mul, F64.finite_sub, toTick_finite htick]
  | sell =>
      dsimp only
      rw [F64.finite_mul, F64.finite_add, toTick_finite htick]

theorem ladderQuantity_finite {price : ℚ} (hprice : price ≠ 0) :
    (makerOf symbol size spread tick).ladderQuantity (.finite price) =
      .finite (⌈max size (100 / price) * 1000⌉ / 1000) := by
  have hthousand : ((1000 : Nat) : ℚ) ≠ 0 := by norm_num
  unfold MarketMaker.ladderQuantity minNotional makerOf
  dsimp only
  rw [F64.ofNat_eq, F64.ofNat_eq, F64.finite_div hprice, F64.finite_max, F64.finite_mul, F64.finite_ceil,
    F64.finite_div hthousand]
  push_cast
  rfl

theorem ladderQuantity_zero :
    (makerOf symbol size spread tick).ladderQuantity (.finite 0) = .infinity false := by
  have hhundred : (minNotional / .finite 0 : F64) = .infinity false := F64.div_zero_of_pos (by norm_num)
  unfold MarketMaker.ladderQuantity makerOf
  dsimp only
  rw [hhundred]
  rfl

/-- **An order** is worth what its price and the enlarged size make, and nothing at price zero. -/
theorem notional_ladderOrder (htick : tick ≠ 0) (side : OrderSide) (i : Nat) :
    notional ((makerOf symbol size spread tick).ladderOrder
        ((makerOf symbol size spread tick).toTick (.finite mid)) side i) =
      if levelPrice mid spread tick side i = 0 then .nan
      else .finite (worth size (levelPrice mid spread tick side i)) := by
  show (makerOf symbol size spread tick).toTick
        (awayFrom ((makerOf symbol size spread tick).toTick (.finite mid)) (.finite spread) side i) *
      (makerOf symbol size spread tick).ladderQuantity ((makerOf symbol size spread tick).toTick
        (awayFrom ((makerOf symbol size spread tick).toTick (.finite mid)) (.finite spread) side i)) = _
  rw [ladderOrder_price htick]
  by_cases hzero : levelPrice mid spread tick side i = 0
  · rw [if_pos hzero, hzero, ladderQuantity_zero]
    rfl
  · rw [if_neg hzero, ladderQuantity_finite hzero, F64.finite_mul]
    rfl

/-- No level up to this one is priced at zero. -/
def Priced (mid spread tick : ℚ) (side : OrderSide) (levels : Nat) : Prop :=
  ∀ i < levels, levelPrice mid spread tick side (i + 1) ≠ 0

theorem notionals_ladderSide (htick : tick ≠ 0) {side : OrderSide} {levels : Nat}
    (h : Priced mid spread tick side levels) :
    ((makerOf symbol size spread tick).ladderSide
        ((makerOf symbol size spread tick).toTick (.finite mid)) side levels).map notional =
      ((List.range levels).map fun i => worth size (levelPrice mid spread tick side (i + 1))).map F64.finite := by
  unfold MarketMaker.ladderSide
  rw [List.map_map, List.map_map]
  refine List.map_congr_left fun i hi => ?_
  show notional _ = F64.finite _
  rw [notional_ladderOrder htick, if_neg (h i (List.mem_range.mp hi))]

theorem WithinMargin.of_total {margin leverage total : ℚ} {orders : List OrderRequest} (hleverage : 0 < leverage)
    (htotal : totalNotional orders = .finite total) :
    WithinMargin margin leverage orders ↔ total ≤ margin * leverage := by
  unfold WithinMargin
  rw [htotal, F64.finite_div hleverage.ne', F64.finite_le, div_le_iff₀ hleverage]

theorem not_withinMargin_of_nan {margin leverage : ℚ} {orders : List OrderRequest}
    (h : ∃ order ∈ orders, notional order = .nan) : ¬ WithinMargin margin leverage orders := by
  unfold WithinMargin
  rw [totalNotional_of_nan h]
  exact nofun

/-- **A ladder** is within the margin when all its prices are numbers it can divide by, and its worth is. -/
theorem ladder_within_iff (htick : tick ≠ 0) {margin leverage : ℚ} (hleverage : 0 < leverage) (bids asks : Nat) :
    WithinMargin margin leverage ((makerOf symbol size spread tick).ladder (.finite mid) bids asks) ↔
      Priced mid spread tick .buy bids ∧ Priced mid spread tick .sell asks ∧
        sideWorth mid spread tick size .buy bids + sideWorth mid spread tick size .sell asks ≤ margin * leverage := by
  -- a level at price zero gets an infinite quantity
  have hspoiled : ∀ side levels, ¬ Priced mid spread tick side levels →
      ∃ order ∈ (makerOf symbol size spread tick).ladderSide
        ((makerOf symbol size spread tick).toTick (.finite mid)) side levels, notional order = .nan := by
    intro side levels h
    unfold Priced at h
    push Not at h
    obtain ⟨i, hi, hzero⟩ := h
    refine ⟨_, List.mem_map.mpr ⟨i, List.mem_range.mpr hi, rfl⟩, ?_⟩
    rw [notional_ladderOrder htick, if_pos hzero]
  by_cases hbids : Priced mid spread tick .buy bids
  · by_cases hasks : Priced mid spread tick .sell asks
    · rw [and_iff_right hbids, and_iff_right hasks]
      refine WithinMargin.of_total hleverage ?_
      unfold MarketMaker.ladder sideWorth
      rw [← List.sum_append]
      refine totalNotional_of_finite ?_
      rw [List.map_append, List.map_append, notionals_ladderSide htick hbids, notionals_ladderSide htick hasks]
    · obtain ⟨order, hmem, hnan⟩ := hspoiled .sell asks hasks
      refine ⟨fun h => ?_, fun h => absurd h.2.1 hasks⟩
      exact absurd h (not_withinMargin_of_nan ⟨order, List.mem_append_right _ hmem, hnan⟩)
  · obtain ⟨order, hmem, hnan⟩ := hspoiled .buy bids hbids
    refine ⟨fun h => ?_, fun h => absurd h.1 hbids⟩
    exact absurd h (not_withinMargin_of_nan ⟨order, List.mem_append_left _ hmem, hnan⟩)

end

/-! ## The skew -/

/-- The part of the levels that is kept. -/
def keptPart (q : ℚ) : ℚ := (1 - |q|) * (1 / 2) + 1 / 2

theorem keptPart_bounds {q : ℚ} (hq : |q| ≤ 1) : 1 / 2 ≤ keptPart q ∧ keptPart q ≤ 1 := by
  have habs : 0 ≤ |q| := abs_nonneg q
  unfold keptPart
  constructor <;> linarith

theorem reducedLevels_eq {q : ℚ} (hq : |q| ≤ 1) {n : Nat} (hn : n < 2 ^ 63) :
    MarketMaker.reducedLevels (.finite q) n = ⌊n * keptPart q + 1 / 2⌋.toNat := by
  obtain ⟨hlow, hhigh⟩ := keptPart_bounds hq
  have hnonneg : 0 ≤ n * keptPart q := by positivity
  have hfloor : ⌊n * keptPart q + 1 / 2⌋ ≤ n := by
    refine Int.lt_add_one_iff.mp (Int.floor_lt.mpr ?_)
    have hpart : n * keptPart q ≤ n * 1 := mul_le_mul_of_nonneg_left hhigh (Nat.cast_nonneg n)
    push_cast
    linarith
  have hfactor : MarketMaker.skewFactor (.finite q) = .finite (keptPart q) := by
    unfold MarketMaker.skewFactor keptPart
    rw [F64.ofNat_eq, F64.finite_abs, F64.finite_sub, F64.finite_mul, F64.finite_add, Nat.cast_one]
  unfold MarketMaker.reducedLevels
  rw [hfactor, F64.finite_mul, F64.finite_round]
  show Nat.min (truncated (rounded (n * keptPart q))).toNat (2 ^ 64 - 1) = _
  rw [truncated_intCast, rounded, if_pos hnonneg]
  exact Nat.min_eq_left (by omega)

/-- From half of the levels on every number is one that some skew leaves. -/
theorem exists_reducedLevels {n k : Nat} (hn : n < 2 ^ 63) (hk : k < n) (hhalf : n ≤ 2 * k) :
    ∃ q : ℚ, 0 < q ∧ q ≤ 1 ∧ MarketMaker.reducedLevels (.finite q) n = k := by
  have hpos : (0 : ℚ) < n := by exact_mod_cast Nat.zero_lt_of_lt hk
  have hlt : (k : ℚ) < n := by exact_mod_cast hk
  have hle : (n : ℚ) ≤ 2 * k := by exact_mod_cast hhalf
  have hq : 0 < 2 * (1 - k / n : ℚ) ∧ 2 * (1 - k / n : ℚ) ≤ 1 := by
    have hbelow : (k : ℚ) / n < 1 := (div_lt_one hpos).mpr hlt
    have habove : 1 / 2 ≤ (k : ℚ) / n := by
      rw [div_le_div_iff₀ (by norm_num) hpos]
      linarith
    constructor <;> linarith
  have hpart : n * keptPart (2 * (1 - k / n)) = k := by
    unfold keptPart
    rw [abs_of_pos hq.1]
    field_simp
    ring
  refine ⟨_, hq.1, hq.2, ?_⟩
  rw [reducedLevels_eq (by rw [abs_of_pos hq.1]; exact hq.2) hn, hpart]
  have hfloor : ⌊(k : ℚ) + 1 / 2⌋ = k := Int.floor_eq_iff.mpr ⟨by push_cast; linarith, by push_cast; linarith⟩
  rw [hfloor, Int.toNat_natCast]

/-! ## All ladders -/

/-- The checker's answers say this margin and this leverage. -/
structure HasMargin (checker : OrderStatusChecker) (symbol : String) (margin leverage : ℚ) : Prop where
  margin   : ∃ balances, checker.accountBalance = .ok balances ∧ availableMargin balances = .finite margin
  leverage : ∃ data, checker.leverageBracket = .ok data ∧ leverageOf symbol data = .finite leverage

theorem HasMargin.calculateMaxOrders {checker : OrderStatusChecker} {symbol : String} {margin leverage : ℚ}
    (h : HasMargin checker symbol margin leverage) (mid size : ℚ) :
    checker.calculateMaxOrders symbol (.finite mid) (.finite size) = .ok (ordersFor margin leverage mid size) := by
  obtain ⟨⟨balances, hbalances, hmargin⟩, data, hdata, hleverage⟩ := h
  unfold OrderStatusChecker.calculateMaxOrders
  rw [hbalances, hdata, ordersFor, ← hmargin, ← hleverage]
  rfl

/-- The levels that the skew leaves on either side. -/
def bidLevels (maker : MarketMaker) (positions : List Position) (levels maxOrders : Nat) : Nat :=
  if 0 < maker.skewOf positions then
    MarketMaker.reducedLevels (maker.skewOf positions) (MarketMaker.actualLevels levels maxOrders)
  else MarketMaker.actualLevels levels maxOrders

def askLevels (maker : MarketMaker) (positions : List Position) (levels maxOrders : Nat) : Nat :=
  if maker.skewOf positions < 0 then
    MarketMaker.reducedLevels (maker.skewOf positions) (MarketMaker.actualLevels levels maxOrders)
  else MarketMaker.actualLevels levels maxOrders

/-- Both ladders stay within every margin, for every number of levels and all positions. -/
def StaysWithin (maker : MarketMaker) (mid leverage : ℚ) : Prop :=
  ∀ (checker : OrderStatusChecker) (margin : ℚ) (levels : Nat), 0 ≤ margin →
    HasMargin checker maker.symbol margin leverage →
      WithinMargin margin leverage ((Call.balanced (.finite mid) levels).orders maker checker) ∧
        WithinMargin margin leverage ((Call.skewed (.finite mid) levels).orders maker checker)

/-- No level is priced at zero, and `n` levels of one side with at least half as many of the other are worth no more
    than 1.25 times `2 n` orders of the size at the middle price. -/
structure Affordable (mid spread tick size : ℚ) : Prop where
  ticks  : tick ≠ 0
  priced : ∀ side, Priced mid spread tick side (2 ^ 63 - 1)
  asks   : ∀ n < 2 ^ 63, ∀ k ≤ n, n ≤ 2 * k →
    sideWorth mid spread tick size .buy k + sideWorth mid spread tick size .sell n ≤ 5 / 2 * n * mid * size
  bids   : ∀ n < 2 ^ 63, ∀ k ≤ n, n ≤ 2 * k →
    sideWorth mid spread tick size .buy n + sideWorth mid spread tick size .sell k ≤ 5 / 2 * n * mid * size

theorem actualLevels_of_sized {n maxOrders : Nat} (h : 2 * n ≤ maxOrders) :
    MarketMaker.actualLevels n maxOrders = n :=
  Nat.min_eq_left (by omega)

theorem orders_balanced {maker : MarketMaker} {checker : OrderStatusChecker} {mid : F64} {maxOrders : Nat}
    (h : checker.calculateMaxOrders maker.symbol mid maker.orderSize = .ok maxOrders) (levels : Nat) :
    (Call.balanced mid levels).orders maker checker = maker.balancedOrders mid levels maxOrders := by
  unfold Call.orders
  dsimp only
  rw [h]

/-- A skewed call builds no orders when the positions are not answered. -/
theorem orders_skewed {maker : MarketMaker} {checker : OrderStatusChecker} {mid : F64} {maxOrders : Nat}
    (h : checker.calculateMaxOrders maker.symbol mid maker.orderSize = .ok maxOrders) (levels : Nat) :
    (Call.skewed mid levels).orders maker checker =
      match checker.positions with
      | .ok positions => maker.skewedOrders positions mid levels maxOrders
      | .error _      => [] := by
  unfold Call.orders
  dsimp only
  rw [h]
  cases checker.positions <;> rfl

section

variable {symbol : String} {size spread tick mid margin leverage : ℚ}

/-- The ladders of one number of levels, within a margin that has the reserve. -/
theorem Affordable.ladder (h : Affordable mid spread tick size) (hleverage : 0 < leverage) {n k : Nat}
    (hn : n < 2 ^ 63) (hk : k ≤ n) (hhalf : n ≤ 2 * k) (hreserve : 5 / 2 * n * mid * size ≤ margin * leverage) :
    WithinMargin margin leverage ((makerOf symbol size spread tick).ladder (.finite mid) k n) ∧
      WithinMargin margin leverage ((makerOf symbol size spread tick).ladder (.finite mid) n k) := by
  have hpriced : ∀ side, ∀ levels ≤ n, Priced mid spread tick side levels := fun side levels hlevels i hi =>
    h.priced side i (by omega)
  rw [ladder_within_iff h.ticks hleverage, ladder_within_iff h.ticks hleverage]
  exact ⟨⟨hpriced _ _ hk, hpriced _ _ le_rfl, (h.asks n hn k hk hhalf).trans hreserve⟩,
    hpriced _ _ le_rfl, hpriced _ _ hk, (h.bids n hn k hk hhalf).trans hreserve⟩

/-- A checker with this margin, this leverage and these positions. -/
def checkerWith (symbol : String) (margin leverage : ℚ) (positions : List Position) : OrderStatusChecker where
  accountBalance  := .ok [⟨"USDT", .finite margin⟩]
  leverageBracket := .ok [.object [("symbol", .string symbol),
    ("brackets", .array [.object [("initialLeverage", .number (.float leverage))]])]]
  positions       := .ok positions

theorem hasMargin_checkerWith (symbol : String) (margin leverage : ℚ) (positions : List Position) :
    HasMargin (checkerWith symbol margin leverage positions) symbol margin leverage := by
  refine ⟨⟨_, rfl, rfl⟩, _, rfl, ?_⟩
  simp [leverageOf, Value.index, Value.get?, Value.asStr?, Value.asArray?, Value.asF64?, Number.value,
    List.lookup_cons]

/-- A position of the maker's symbol with this skew. -/
def positionWith (symbol side : String) (q : ℚ) : Position := ⟨symbol, .finite (q / 10), 0, 0, side⟩

theorem skewOf_positionWith (maker : MarketMaker) {q : ℚ} (hpos : 0 < q) (hle : q ≤ 1) :
    maker.skewOf [positionWith maker.symbol "LONG" q] = .finite q ∧
      maker.skewOf [positionWith maker.symbol "SHORT" q] = .finite (-q) := by
  have htenth : (1 / 10 : ℚ) ≠ 0 := by norm_num
  have hscaled : q / 10 / (1 / 10) = q := by ring
  have hneg : -(q / 10) / (1 / 10) = -q := by ring
  have hshort : ("SHORT" : String) ≠ "LONG" := by decide
  unfold MarketMaker.skewOf positionWith
  rw [List.find?_cons_of_pos (by simp), List.find?_cons_of_pos (by simp)]
  dsimp only
  rw [if_pos rfl, if_neg hshort]
  constructor
  · rw [F64.finite_div htenth, hscaled, F64.finite_max, F64.ofNat_eq, F64.finite_min, Nat.cast_one,
      max_eq_left (by linarith), min_eq_left hle]
  · show ((F64.finite (-(q / 10)) / .finite (1 / 10)).max (.finite (-1))).min 1 = _
    rw [F64.finite_div htenth, hneg, F64.finite_max, F64.ofNat_eq, F64.finite_min, Nat.cast_one,
      max_eq_left (by linarith), min_eq_left (by linarith)]

/-- The two skewed ladders of a position, held either way. -/
theorem skewedOrders_positionWith (maker : MarketMaker) (mid : F64) {q : ℚ} (hpos : 0 < q) (hle : q ≤ 1)
    {n maxOrders : Nat} (hsized : 2 * n ≤ maxOrders) :
    maker.skewedOrders [positionWith maker.symbol "LONG" q] mid n maxOrders =
        maker.ladder mid (MarketMaker.reducedLevels (.finite q) n) n ∧
      maker.skewedOrders [positionWith maker.symbol "SHORT" q] mid n maxOrders =
        maker.ladder mid n (MarketMaker.reducedLevels (.finite q) n) := by
  obtain ⟨hlong, hshort⟩ := skewOf_positionWith maker hpos hle
  have habs : MarketMaker.reducedLevels (.finite (-q)) n = MarketMaker.reducedLevels (.finite q) n := by
    unfold MarketMaker.reducedLevels MarketMaker.skewFactor
    rw [F64.finite_abs, F64.finite_abs, abs_neg]
  unfold MarketMaker.skewedOrders
  dsimp only
  rw [hlong, hshort, actualLevels_of_sized hsized, habs]
  simp only [F64.ofNat_eq, F64.finite_lt, Nat.cast_zero, hpos, not_lt.mpr hpos.le, neg_lt_zero, neg_pos, if_true,
    if_false, and_self]

/-- **Every ladder is built**: with the margin just above the reserve, for every number of levels and every number of
    levels kept on the side that is reduced. -/
theorem StaysWithin.ladder (h : StaysWithin (makerOf symbol size spread tick) mid leverage) (hmid : 0 ≤ mid)
    (hsize : 0 < size) (hleverage : 0 < leverage) {n k : Nat} (hn : n < 2 ^ 63) (hk : k ≤ n) (hhalf : n ≤ 2 * k)
    {ε : ℚ} (hε : 0 < ε) :
    WithinMargin ((5 / 2 * n * mid * size + ε) / leverage) leverage
        ((makerOf symbol size spread tick).ladder (.finite mid) k n) ∧
      WithinMargin ((5 / 2 * n * mid * size + ε) / leverage) leverage
        ((makerOf symbol size spread tick).ladder (.finite mid) n k) := by
  have hsized := @ordersFor_of_reserve mid size leverage hmid hsize hleverage ε hε n hn
  have hmargin : 0 ≤ (5 / 2 * n * mid * size + ε) / leverage := by positivity
  -- a balanced ladder keeps all levels; fewer are kept for a position held either way
  have hwithin := fun positions => h (checkerWith symbol ((5 / 2 * n * mid * size + ε) / leverage) leverage positions)
    _ n hmargin (hasMargin_checkerWith _ _ _ _)
  have hmax : ∀ positions, (checkerWith symbol ((5 / 2 * n * mid * size + ε) / leverage) leverage
      positions).calculateMaxOrders (makerOf symbol size spread tick).symbol (.finite mid)
        (makerOf symbol size spread tick).orderSize = .ok _ :=
    fun positions => (hasMargin_checkerWith symbol _ _ positions).calculateMaxOrders mid size
  rcases hk.eq_or_lt with rfl | hlt
  · have hbalanced := (hwithin []).1
    rw [orders_balanced (hmax [])] at hbalanced
    unfold MarketMaker.balancedOrders at hbalanced
    dsimp only at hbalanced
    rw [actualLevels_of_sized hsized] at hbalanced
    exact ⟨hbalanced, hbalanced⟩
  · obtain ⟨q, hpos, hle, rfl⟩ := exists_reducedLevels hn hlt hhalf
    obtain ⟨hlong, hshort⟩ :=
      skewedOrders_positionWith (makerOf symbol size spread tick) (.finite mid) hpos hle hsized
    have hbids := (hwithin [positionWith symbol "LONG" q]).2
    have hasks := (hwithin [positionWith symbol "SHORT" q]).2
    rw [orders_skewed (hmax _)] at hbids hasks
    exact ⟨hlong ▸ hbids, hshort ▸ hasks⟩

/-- Without a spread all orders are alike, and it is enough that one is affordable. -/
theorem affordable_flat_iff (hsize : 0 < size) (hmid : 0 ≤ mid) :
    Affordable mid 0 tick size ↔
      tick ≠ 0 ∧ onTick tick (onTick tick mid) ≠ 0 ∧
        worth size (onTick tick (onTick tick mid)) ≤ 5 / 4 * mid * size := by
  have hprice : ∀ side i, levelPrice mid 0 tick side i = onTick tick (onTick tick mid) := by
    intro side i
    unfold levelPrice
    cases side <;> simp
  have hside : ∀ side levels, sideWorth mid 0 tick size side levels =
      levels * worth size (onTick tick (onTick tick mid)) := by
    intro side levels
    unfold sideWorth
    simp [hprice]
  constructor
  · intro h
    have hone := h.asks 1 (by decide) 1 le_rfl (by decide)
    rw [hside, hside] at hone
    refine ⟨h.ticks, hprice .buy 1 ▸ h.priced .buy 0 (by decide), ?_⟩
    push_cast at hone
    linarith
  · rintro ⟨htick, hne, hworth⟩
    have hcap : ∀ n k : Nat, k ≤ n →
        (n + k) * worth size (onTick tick (onTick tick mid)) ≤ 5 / 2 * n * mid * size := by
      intro n k hk
      have hcast : (k : ℚ) ≤ n := by exact_mod_cast hk
      have hnonneg : 0 ≤ 5 / 4 * mid * size := by positivity
      calc (n + k) * worth size (onTick tick (onTick tick mid))
          ≤ (n + k) * (5 / 4 * mid * size) := mul_le_mul_of_nonneg_left hworth (by positivity)
        _ ≤ (n + n) * (5 / 4 * mid * size) := mul_le_mul_of_nonneg_right (by linarith) hnonneg
        _ = 5 / 2 * n * mid * size := by ring
    refine ⟨htick, fun side i _ => hprice side (i + 1) ▸ hne, fun n _ k hk _ => ?_, fun n _ k hk _ => ?_⟩
    · rw [hside, hside, ← add_mul, add_comm]
      exact hcap n k hk
    · rw [hside, hside, ← add_mul]
      exact hcap n k hk

end

end Maker
end TradingPlatform
