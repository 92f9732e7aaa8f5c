import TradingPlatform.Maker.Margin
import TradingPlatform.Market.OrderBook

/-!
# `Maker.Quotes` — when the quotes are valid and do not cross

A quote is valid when its price is a positive multiple of the tick and its quantity is worth the minimum notional.
The quantity always follows the price; the price is what goes wrong. `place_orders` rounds a second time, to one
decimal, which leaves the grid of a finer tick and can step over the middle: what it takes is that the raw prices are
near enough to common multiples of the tick and a tenth, and the spread wide enough. A ladder counts its levels without
looking where they end, and levels closer than half a tick meet (`quotes_valid_iff`).
-/

namespace TradingPlatform
namespace Maker

open Rust Market

/-! ## Valid orders -/

/-- The order is priced at this multiple of the tick and worth at least the minimum notional. -/
structure ValidAt (tick : ℚ) (order : OrderRequest) (price : ℚ) : Prop where
  priced   : order.price = some (.finite price)
  positive : 0 < price
  grid     : OnGrid tick price
  notional : ∃ quantity : ℚ, order.quantity = .finite quantity ∧ 0 < quantity ∧ 100 ≤ quantity * price

/-- The pair of quotes is valid and encloses the middle. -/
def PairSound (tick mid : ℚ) (pair : OrderRequest × OrderRequest) : Prop :=
  ∃ bid ask : ℚ, ValidAt tick pair.1 bid ∧ ValidAt tick pair.2 ask ∧ bid < mid ∧ mid < ask

/-- All orders are valid and no buy meets a sell. -/
structure LadderSound (tick : ℚ) (orders : List OrderRequest) : Prop where
  valid     : ∀ order ∈ orders, ∃ price, ValidAt tick order price
  uncrossed : ∀ buy ∈ orders, buy.side = .buy → ∀ sell ∈ orders, sell.side = .sell →
    ∀ bid ask : ℚ, buy.price = some (.finite bid) → sell.price = some (.finite ask) → bid < ask

/-- The least common multiple of two positive numbers. -/
def commonGrid (a b : ℚ) : ℚ := Int.lcm (a.num * b.den) (b.num * a.den) / (a.den * b.den)

/-- What is left above the last multiple of a step. -/
def remainder (x step : ℚ) : ℚ := Int.fract (x / step) * step

/-- How far below a tenth that is a multiple of the tick the multiples reach that are rounded to it. -/
def reachBelow (tick : ℚ) : ℚ := ⌊1 / (20 * tick)⌋ * tick

/-- How far above it they reach; what is half way up is rounded to the next tenth. -/
def reachAbove (tick : ℚ) : ℚ := (⌈1 / (20 * tick)⌉ - 1) * tick

/-- What the spread and the tick must be: the nearest common multiples of the tick and a tenth are within the reach of
    the raw prices, the lower one is positive, and the spread is wider than the rounding towards the middle. -/
structure PairFits (mid spread tick : ℚ) : Prop where
  bidPositive : commonGrid tick (1 / 10) ≤ mid - spread / 2 + reachBelow tick
  bidOnGrid   : remainder (mid - spread / 2 + reachBelow tick) (commonGrid tick (1 / 10)) <
    reachBelow tick + reachAbove tick + tick
  bidOff      : reachBelow tick <
    spread / 2 + remainder (mid - spread / 2 + reachBelow tick) (commonGrid tick (1 / 10))
  askOnGrid   : remainder (reachAbove tick - (mid + spread / 2)) (commonGrid tick (1 / 10)) <
    reachBelow tick + reachAbove tick + tick
  askOff      : reachAbove tick <
    spread / 2 + remainder (reachAbove tick - (mid + spread / 2)) (commonGrid tick (1 / 10))

/-- With the middle on the grid: the lowest bid and the lowest ask are half a tick above zero, and the spread is half
    a tick if there are both. -/
def LadderFits (mid spread tick : ℚ) (bidLevels askLevels : Nat) : Prop :=
  ∃ n : Int, (n * tick - tick / 2 ≤ mid ∧ mid < n * tick + tick / 2) ∧
    (bidLevels = 0 ∨ tick / 2 ≤ n * tick - bidLevels * spread) ∧
    (askLevels = 0 ∨ tick / 2 ≤ n * tick + spread) ∧
    (bidLevels = 0 ∨ askLevels = 0 ∨ tick / 2 ≤ spread)

/-! ## Rounding -/

theorem le_rounded_iff {x : ℚ} {n : Int} (hn : 1 ≤ n) : n ≤ rounded x ↔ (n : ℚ) - 1 / 2 ≤ x := by
  unfold rounded
  split_ifs with hx
  · rw [Int.le_floor]
    constructor <;> intro h <;> linarith
  · -- below zero both sides are false
    have hceil : ⌈x - 1 / 2⌉ ≤ 0 := Int.ceil_le.mpr (by push_cast; linarith)
    have hone : (1 : ℚ) ≤ n := by exact_mod_cast hn
    constructor <;> intro h
    · omega
    · linarith

theorem rounded_eq_iff {x : ℚ} {n : Int} (hn : 1 ≤ n) :
    rounded x = n ↔ (n : ℚ) - 1 / 2 ≤ x ∧ x < n + 1 / 2 := by
  have hlow := le_rounded_iff (x := x) hn
  have hhigh := le_rounded_iff (x := x) (n := n + 1) (by omega)
  push_cast at hhigh
  constructor
  · intro h
    refine ⟨hlow.mp (by omega), ?_⟩
    by_contra hge
    have hnext := hhigh.mpr (by linarith)
    omega
  · rintro ⟨h, h'⟩
    have hle := hlow.mpr h
    have hlt : ¬ n + 1 ≤ rounded x := fun hnext => by linarith [hhigh.mp hnext]
    omega

theorem rounded_eq_iff_of_nonneg {x : ℚ} (hx : 0 ≤ x) {n : Int} :
    rounded x = n ↔ (n : ℚ) - 1 / 2 ≤ x ∧ x < n + 1 / 2 := by
  rw [rounded, if_pos hx, Int.floor_eq_iff]
  constructor <;> rintro ⟨h, h'⟩ <;> constructor <;> linarith

section Ticks

variable {tick x : ℚ}

theorem onTick_eq_iff (htick : 0 < tick) (hx : 0 ≤ x) {n : Int} :
    onTick tick x = n * tick ↔ n * tick - tick / 2 ≤ x ∧ x < n * tick + tick / 2 := by
  unfold onTick
  rw [mul_left_inj' htick.ne', Int.cast_inj, rounded_eq_iff_of_nonneg (div_nonneg hx htick.le), le_div_iff₀ htick,
    div_lt_iff₀ htick]
  constructor <;> rintro ⟨h, h'⟩ <;> constructor <;> linarith

theorem le_onTick_iff (htick : 0 < tick) {n : Int} (hn : 1 ≤ n) :
    n * tick ≤ onTick tick x ↔ n * tick - tick / 2 ≤ x := by
  unfold onTick
  rw [mul_le_mul_iff_left₀ htick, Int.cast_le, le_rounded_iff hn, le_div_iff₀ htick]
  constructor <;> intro h <;> linarith

theorem rounded_pos (htick : 0 < tick) (h : 0 < onTick tick x) : 1 ≤ rounded (x / tick) := by
  have hcast : (0 : ℚ) < rounded (x / tick) := pos_of_mul_pos_left h htick.le
  exact_mod_cast hcast

theorem onTick_pos_iff (htick : 0 < tick) : 0 < onTick tick x ↔ tick / 2 ≤ x := by
  constructor
  · intro hpos
    have hone := rounded_pos htick hpos
    have hself := (le_onTick_iff htick hone).mp (le_refl (onTick tick x))
    have hstep : (1 : ℚ) * tick ≤ rounded (x / tick) * tick :=
      mul_le_mul_of_nonneg_right (by exact_mod_cast hone) htick.le
    linarith
  · intro hx
    have hone := (le_onTick_iff (x := x) htick (n := 1) le_rfl).mpr (by push_cast; linarith)
    push_cast at hone
    linarith

theorem onTick_mono (htick : 0 < tick) {y : ℚ} (h : x ≤ y) (hpos : 0 < onTick tick x) :
    onTick tick x ≤ onTick tick y := by
  have hone := rounded_pos htick hpos
  have hself := (le_onTick_iff htick hone).mp (le_refl (onTick tick x))
  exact (le_onTick_iff htick hone).mpr (by linarith)

/-- Around a positive multiple of the tick, half a tick to either side is what it takes to part. -/
theorem onTick_lt_onTick_iff (htick : 0 < tick) {n : Int} (hn : 1 ≤ n) {spread : ℚ} :
    onTick tick (n * tick - spread) < onTick tick (n * tick + spread) ↔ tick / 2 ≤ spread := by
  have hbelow := le_onTick_iff (x := n * tick - spread) htick hn
  have hbelow' := le_onTick_iff (x := n * tick - spread) htick (n := n + 1) (by omega)
  have habove' := le_onTick_iff (x := n * tick + spread) htick (n := n + 1) (by omega)
  push_cast at hbelow' habove'
  have hgrid : ∀ y, ¬ (n + 1) * tick ≤ onTick tick y → onTick tick y ≤ n * tick := by
    intro y hlt
    unfold onTick at hlt ⊢
    rw [mul_le_mul_iff_left₀ htick] at hlt ⊢
    have hlt' : ¬ n + 1 ≤ rounded (y / tick) := fun hle => hlt (by exact_mod_cast hle)
    have hle : rounded (y / tick) ≤ n := by omega
    exact_mod_cast hle
  constructor
  · intro hlt
    by_contra hnear
    -- nearer than that both round to the multiple itself
    have hlow := hbelow.mpr (by linarith)
    have hhigh := hgrid _ fun hle => by linarith [habove'.mp hle]
    linarith
  · intro hfar
    have hhigh := habove'.mpr (by linarith)
    have hlow := hgrid _ fun hle => by linarith [hbelow'.mp hle]
    linarith

end Ticks

/-! ## Common multiples -/

section Grids

variable {a b step x : ℚ}

theorem commonGrid_pos (ha : 0 < a) (hb : 0 < b) : 0 < commonGrid a b := by
  have hleft : a.num * b.den ≠ 0 := mul_ne_zero (Rat.num_pos.mpr ha).ne' (by exact_mod_cast b.den_nz)
  have hright : b.num * a.den ≠ 0 := mul_ne_zero (Rat.num_pos.mpr hb).ne' (by exact_mod_cast a.den_nz)
  have hlcm : 0 < Int.lcm (a.num * b.den) (b.num * a.den) := Nat.pos_of_ne_zero fun hzero => by
    rcases Int.lcm_eq_zero_iff.mp hzero with h | h
    · exact hleft h
    · exact hright h
  unfold commonGrid
  have := a.den_pos
  have := b.den_pos
  positivity

theorem onGrid_self (step : ℚ) : OnGrid step step := ⟨1, by rw [Int.cast_one, one_mul]⟩

/-- Its multiples are the numbers on both grids. -/
theorem onGrid_commonGrid_iff : OnGrid (commonGrid a b) x ↔ OnGrid a x ∧ OnGrid b x := by
  have hda : (a.den : ℚ) ≠ 0 := by exact_mod_cast a.den_nz
  have hdb : (b.den : ℚ) ≠ 0 := by exact_mod_cast b.den_nz
  have ha : (a.num : ℚ) = a * a.den := (Rat.mul_den_eq_num a).symm
  have hb : (b.num : ℚ) = b * b.den := (Rat.mul_den_eq_num b).symm
  unfold commonGrid
  constructor
  · rintro ⟨n, rfl⟩
    obtain ⟨u, hu⟩ := Int.dvd_lcm_left (a.num * b.den) (b.num * a.den)
    obtain ⟨v, hv⟩ := Int.dvd_lcm_right (a.num * b.den) (b.num * a.den)
    have hu' : ((Int.lcm (a.num * b.den) (b.num * a.den) : ℕ) : ℚ) = a.num * b.den * u := by exact_mod_cast hu
    have hv' : ((Int.lcm (a.num * b.den) (b.num * a.den) : ℕ) : ℚ) = b.num * a.den * v := by exact_mod_cast hv
    constructor
    · refine ⟨n * u, ?_⟩
      rw [hu', ha]
      push_cast
      field_simp
    · refine ⟨n * v, ?_⟩
      rw [hv', hb]
      push_cast
      field_simp
  · rintro ⟨⟨i, hi⟩, j, hj⟩
    -- over the product of the denominators both are whole numbers
    have hwhole : i * (a.num * b.den) = j * (b.num * a.den) := by
      have hcast : (i : ℚ) * (a.num * b.den) = j * (b.num * a.den) := by
        calc (i : ℚ) * (a.num * b.den) = i * a * (a.den * b.den) := by rw [ha]; ring
          _ = j * b * (a.den * b.den) := by rw [← hi, hj]
          _ = j * (b.num * a.den) := by rw [hb]; ring
      exact_mod_cast hcast
    obtain ⟨n, hn⟩ := Int.coe_lcm_dvd (Dvd.intro_left i rfl) (Dvd.intro_left j hwhole.symm)
    refine ⟨n, ?_⟩
    have hn' : (i : ℚ) * (a.num * b.den) = (Int.lcm (a.num * b.den) (b.num * a.den) : ℕ) * n := by exact_mod_cast hn
    rw [← mul_div_assoc, eq_div_iff (mul_ne_zero hda hdb), mul_comm (n : ℚ), ← hn', hi, ha]
    ring

/-- The common grid of a grid and a finer one is the grid. -/
theorem commonGrid_eq_left (ha : 0 < a) (hb : 0 < b) (h : OnGrid b a) : commonGrid a b = a := by
  obtain ⟨i, hi⟩ := onGrid_commonGrid_iff.mpr ⟨onGrid_self a, h⟩
  obtain ⟨⟨j, hj⟩, -⟩ := onGrid_commonGrid_iff.mp (onGrid_self (commonGrid a b))
  have hpos := commonGrid_pos ha hb
  have hone : ((i * j : ℤ) : ℚ) = 1 := by
    rw [hj] at hi hpos
    push_cast
    apply mul_right_cancel₀ ha.ne'
    linarith
  have hipos : (0 : ℚ) < i := pos_of_mul_pos_left (hi ▸ ha) hpos.le
  have hi' : i = 1 := by
    have hmul : i * j = 1 := by exact_mod_cast hone
    have : 0 < i := by exact_mod_cast hipos
    exact Int.eq_one_of_mul_eq_one_right this.le hmul
  rw [hi', Int.cast_one, one_mul] at hi
  exact hi.symm

theorem remainder_nonneg (hstep : 0 < step) : 0 ≤ remainder x step := mul_nonneg (Int.fract_nonneg _) hstep.le

theorem remainder_lt (hstep : 0 < step) : remainder x step < step := by
  calc remainder x step < 1 * step := mul_lt_mul_of_pos_right (Int.fract_lt_one _) hstep
    _ = step := one_mul step

theorem onGrid_sub_remainder (hstep : step ≠ 0) : OnGrid step (x - remainder x step) := by
  refine ⟨⌊x / step⌋, ?_⟩
  unfold remainder Int.fract
  rw [sub_mul, div_mul_cancel₀ x hstep]
  ring

/-- **The last multiple**, if it is within less than a step. -/
theorem eq_sub_remainder_iff (hstep : 0 < step) {width p : ℚ} (hwidth : width ≤ step) :
    OnGrid step p ∧ p ≤ x ∧ x < p + width ↔ p = x - remainder x step ∧ remainder x step < width := by
  constructor
  · rintro ⟨⟨n, rfl⟩, hle, hlt⟩
    have hfloor : ⌊x / step⌋ = n := by
      rw [Int.floor_eq_iff, le_div_iff₀ hstep, div_lt_iff₀ hstep]
      exact ⟨hle, by linarith⟩
    have heq : remainder x step = x - n * step := by
      unfold remainder Int.fract
      rw [hfloor, sub_mul, div_mul_cancel₀ x hstep.ne']
    rw [heq]
    exact ⟨by ring, by linarith⟩
  · rintro ⟨rfl, hlt⟩
    exact ⟨onGrid_sub_remainder hstep.ne', by linarith [remainder_nonneg (x := x) hstep], by linarith⟩

end Grids

/-! ## The orders of a ladder -/

section Ladders

variable {symbol : String} {size spread tick mid : ℚ}

/-- A quantity that is enlarged to the minimum notional is worth it. -/
theorem enlarged_spec {price need : ℚ} (hsize : 0 < size) (hprice : 0 < price) (hneed : 100 / price ≤ need) :
    0 < (⌈max size need * 1000⌉ : ℚ) / 1000 ∧ 100 ≤ (⌈max size need * 1000⌉ : ℚ) / 1000 * price := by
  have hceil := Int.le_ceil (max size need * 1000)
  have hmax : max size need ≤ (⌈max size need * 1000⌉ : ℚ) / 1000 := by
    rw [le_div_iff₀ (by norm_num)]
    exact hceil
  refine ⟨lt_of_lt_of_le (lt_max_of_lt_left hsize) hmax, ?_⟩
  calc (100 : ℚ) = 100 / price * price := (div_mul_cancel₀ 100 hprice.ne').symm
    _ ≤ (⌈max size need * 1000⌉ : ℚ) / 1000 * price :=
        mul_le_mul_of_nonneg_right (hneed.trans ((le_max_right _ _).trans hmax)) hprice.le

/-- The order of a level, on a middle that is on the grid. -/
def levelOrder (symbol : String) (size spread tick mid : ℚ) (side : OrderSide) (i : Nat) : OrderRequest :=
  (makerOf symbol size spread tick).ladderOrder ((makerOf symbol size spread tick).toTick (.finite mid)) side i

theorem levelOrder_price (htick : 0 < tick) (side : OrderSide) (i : Nat) :
    (levelOrder symbol size spread tick mid side i).price = some (.finite (levelPrice mid spread tick side i)) :=
  congrArg some (ladderOrder_price htick.ne' side i)

theorem levelPrice_onGrid (side : OrderSide) (i : Nat) : OnGrid tick (levelPrice mid spread tick side i) := by
  cases side <;> exact ⟨_, rfl⟩

/-- **An order of a ladder is valid** as soon as its price is positive. -/
theorem exists_validAt_iff (hsize : 0 < size) (htick : 0 < tick) (side : OrderSide) (i : Nat) :
    (∃ price, ValidAt tick (levelOrder symbol size spread tick mid side i) price) ↔
      0 < levelPrice mid spread tick side i := by
  constructor
  · rintro ⟨price, h⟩
    have hprice := h.priced
    rw [levelOrder_price htick, Option.some.injEq, F64.finite.injEq] at hprice
    rw [hprice]
    exact h.positive
  · intro hpos
    have hquantity : (levelOrder symbol size spread tick mid side i).quantity
        = .finite (⌈max size (100 / levelPrice mid spread tick side i) * 1000⌉ / 1000) := by
      show (makerOf symbol size spread tick).ladderQuantity ((makerOf symbol size spread tick).toTick
        (awayFrom ((makerOf symbol size spread tick).toTick (.finite mid)) (.finite spread) side i)) = _
      rw [ladderOrder_price htick.ne', ladderQuantity_finite hpos.ne']
    exact ⟨_, levelOrder_price htick side i, hpos, levelPrice_onGrid side i, _, hquantity,
      enlarged_spec hsize hpos le_rfl⟩

theorem mem_ladder_iff {bidLevels askLevels : Nat} {order : OrderRequest} :
    order ∈ (makerOf symbol size spread tick).ladder (.finite mid) bidLevels askLevels ↔
      (∃ i < bidLevels, order = levelOrder symbol size spread tick mid .buy (i + 1)) ∨
      ∃ i < askLevels, order = levelOrder symbol size spread tick mid .sell (i + 1) := by
  unfold MarketMaker.ladder MarketMaker.ladderSide
  rw [List.mem_append, List.mem_map, List.mem_map]
  simp only [List.mem_range, eq_comm (a := order)]
  rfl

/-- A ladder is sound when all its prices are positive and no bid meets an ask. -/
theorem ladderSound_iff (hsize : 0 < size) (htick : 0 < tick) (bidLevels askLevels : Nat) :
    LadderSound tick ((makerOf symbol size spread tick).ladder (.finite mid) bidLevels askLevels) ↔
      (∀ i < bidLevels, 0 < levelPrice mid spread tick .buy (i + 1)) ∧
      (∀ i < askLevels, 0 < levelPrice mid spread tick .sell (i + 1)) ∧
      ∀ i < bidLevels, ∀ j < askLevels,
        levelPrice mid spread tick .buy (i + 1) < levelPrice mid spread tick .sell (j + 1) := by
  constructor
  · intro h
    refine ⟨?_, ?_, ?_⟩
    · intro i hi
      exact (exists_validAt_iff hsize htick .buy (i + 1)).mp (h.valid _ (mem_ladder_iff.mpr (.inl ⟨i, hi, rfl⟩)))
    · intro i hi
      exact (exists_validAt_iff hsize htick .sell (i + 1)).mp (h.valid _ (mem_ladder_iff.mpr (.inr ⟨i, hi, rfl⟩)))
    · intro i hi j hj
      exact h.uncrossed _ (mem_ladder_iff.mpr (.inl ⟨i, hi, rfl⟩)) rfl _ (mem_ladder_iff.mpr (.inr ⟨j, hj, rfl⟩)) rfl
        _ _ (levelOrder_price htick .buy (i + 1)) (levelOrder_price htick .sell (j + 1))
  · rintro ⟨hbids, hasks, hcross⟩
    constructor
    · intro order horder
      rcases mem_ladder_iff.mp horder with ⟨i, hi, rfl⟩ | ⟨i, hi, rfl⟩
      · exact (exists_validAt_iff hsize htick .buy (i + 1)).mpr (hbids i hi)
      · exact (exists_validAt_iff hsize htick .sell (i + 1)).mpr (hasks i hi)
    · intro buy hbuy hbuyside sell hsell hsellside bid ask hbid hask
      rcases mem_ladder_iff.mp hbuy with ⟨i, hi, rfl⟩ | ⟨i, hi, rfl⟩
      · rcases mem_ladder_iff.mp hsell with ⟨j, hj, rfl⟩ | ⟨j, hj, rfl⟩
        · cases hsellside
        · rw [levelOrder_price htick, Option.some.injEq, F64.finite.injEq] at hbid hask
          rw [← hbid, ← hask]
          exact hcross i hi j hj
      · cases hbuyside

/-! ## The levels of a ladder -/

section Levels

variable {n : Int} {levels : Nat}

theorem levelPrice_buy (hn : onTick tick mid = n * tick) (i : Nat) :
    levelPrice mid spread tick .buy i = onTick tick (n * tick - i * spread) := by
  unfold levelPrice
  rw [hn]

theorem levelPrice_sell (hn : onTick tick mid = n * tick) (i : Nat) :
    levelPrice mid spread tick .sell i = onTick tick (n * tick + i * spread) := by
  unfold levelPrice
  rw [hn]

/-- The lowest bid decides. -/
theorem bids_pos_iff (htick : 0 < tick) (hspread : 0 < spread) (hn : onTick tick mid = n * tick) :
    (∀ i < levels, 0 < levelPrice mid spread tick .buy (i + 1)) ↔
      levels = 0 ∨ tick / 2 ≤ n * tick - levels * spread := by
  constructor
  · intro h
    rcases levels with _ | last
    · exact Or.inl rfl
    · have hlast := h last (Nat.lt_succ_self last)
      rw [levelPrice_buy hn, onTick_pos_iff htick] at hlast
      exact Or.inr hlast
  · rintro (rfl | h) i hi
    · exact absurd hi (Nat.not_lt_zero i)
    · have hle : ((i + 1 : Nat) : ℚ) * spread ≤ levels * spread :=
        mul_le_mul_of_nonneg_right (by exact_mod_cast hi) hspread.le
      rw [levelPrice_buy hn, onTick_pos_iff htick]
      linarith

/-- The lowest ask decides. -/
theorem asks_pos_iff (htick : 0 < tick) (hspread : 0 < spread) (hn : onTick tick mid = n * tick) :
    (∀ i < levels, 0 < levelPrice mid spread tick .sell (i + 1)) ↔ levels = 0 ∨ tick / 2 ≤ n * tick + spread := by
  have hfirst : ((0 + 1 : Nat) : ℚ) * spread = spread := by norm_num
  constructor
  · intro h
    rcases levels with _ | last
    · exact Or.inl rfl
    · have hpos := h 0 (Nat.succ_pos last)
      rw [levelPrice_sell hn, hfirst, onTick_pos_iff htick] at hpos
      exact Or.inr hpos
  · rintro (rfl | h) i hi
    · exact absurd hi (Nat.not_lt_zero i)
    · have hle : 1 * spread ≤ ((i + 1 : Nat) : ℚ) * spread :=
        mul_le_mul_of_nonneg_right (by exact_mod_cast Nat.succ_pos i) hspread.le
      rw [levelPrice_sell hn, onTick_pos_iff htick]
      linarith

/-- The two levels next to the middle decide. -/
theorem uncrossed_iff {bidLevels askLevels : Nat} (htick : 0 < tick) (hspread : 0 < spread)
    (hn : onTick tick mid = n * tick) (hbids : ∀ i < bidLevels, 0 < levelPrice mid spread tick .buy (i + 1)) :
    (∀ i < bidLevels, ∀ j < askLevels,
        levelPrice mid spread tick .buy (i + 1) < levelPrice mid spread tick .sell (j + 1)) ↔
      bidLevels = 0 ∨ askLevels = 0 ∨ tick / 2 ≤ spread := by
  rcases Nat.eq_zero_or_pos bidLevels with rfl | hbid
  · simp
  rcases Nat.eq_zero_or_pos askLevels with rfl | hask
  · simp
  have hfirst : ((0 + 1 : Nat) : ℚ) * spread = spread := by norm_num
  have hpos := hbids 0 hbid
  rw [levelPrice_buy hn, hfirst] at hpos
  -- a positive bid below the middle makes the middle positive
  have hmiddle : 1 ≤ n := by
    have hbelow := (onTick_pos_iff htick).mp hpos
    by_contra hlt
    have hcast : (n : ℚ) ≤ 0 := by exact_mod_cast (show n ≤ 0 by omega)
    have hproduct : (n : ℚ) * tick ≤ 0 := mul_nonpos_of_nonpos_of_nonneg hcast htick.le
    linarith
  have hinner := @onTick_lt_onTick_iff tick htick n hmiddle spread
  constructor
  · intro h
    have hlt := h 0 hbid 0 hask
    rw [levelPrice_buy hn, levelPrice_sell hn, hfirst, hinner] at hlt
    exact Or.inr (Or.inr hlt)
  · rintro (hzero | hzero | hfar) i hi j hj
    · omega
    · omega
    · have hi' : 1 * spread ≤ ((i + 1 : Nat) : ℚ) * spread :=
        mul_le_mul_of_nonneg_right (by exact_mod_cast Nat.succ_pos i) hspread.le
      have hj' : 1 * spread ≤ ((j + 1 : Nat) : ℚ) * spread :=
        mul_le_mul_of_nonneg_right (by exact_mod_cast Nat.succ_pos j) hspread.le
      have hposi := hbids i hi
      rw [levelPrice_buy hn] at hposi
      rw [levelPrice_buy hn, levelPrice_sell hn]
      calc onTick tick (n * tick - (i + 1 : Nat) * spread)
          ≤ onTick tick (n * tick - spread) := onTick_mono htick (by linarith) hposi
        _ < onTick tick (n * tick + spread) := hinner.mpr hfar
        _ ≤ onTick tick (n * tick + (j + 1 : Nat) * spread) :=
            onTick_mono htick (by linarith) (hpos.trans (hinner.mpr hfar))

end Levels

/-- **A ladder is sound** exactly if its levels fit. -/
theorem ladder_sound_iff_fits (hsize : 0 < size) (htick : 0 < tick) (hspread : 0 < spread) (hmid : 0 < mid)
    (bidLevels askLevels : Nat) :
    LadderSound tick ((makerOf symbol size spread tick).ladder (.finite mid) bidLevels askLevels) ↔
      LadderFits mid spread tick bidLevels askLevels := by
  obtain ⟨n, hn⟩ : ∃ n : Int, onTick tick mid = n * tick := ⟨_, rfl⟩
  have hfits : LadderFits mid spread tick bidLevels askLevels ↔
      (bidLevels = 0 ∨ tick / 2 ≤ n * tick - bidLevels * spread) ∧
      (askLevels = 0 ∨ tick / 2 ≤ n * tick + spread) ∧
      (bidLevels = 0 ∨ askLevels = 0 ∨ tick / 2 ≤ spread) := by
    constructor
    · rintro ⟨m, hm, h⟩
      have heq := (onTick_eq_iff htick hmid.le).mpr hm
      rw [hn, mul_left_inj' htick.ne', Int.cast_inj] at heq
      rw [heq]
      exact h
    · exact fun h => ⟨n, (onTick_eq_iff htick hmid.le).mp hn, h⟩
  rw [ladderSound_iff hsize htick, hfits, ← bids_pos_iff htick hspread hn, ← asks_pos_iff htick hspread hn]
  apply and_congr_right
  intro hbids
  rw [uncrossed_iff htick hspread hn hbids]

end Ladders

/-! ## The pair of quotes -/

/-- The two prices of `place_orders`, rounded to the tick outwards and then to one decimal. -/
def pairBid (mid spread tick : ℚ) : ℚ := rounded (⌊(mid - spread / 2) / tick⌋ * tick * 10) / 10

def pairAsk (mid spread tick : ℚ) : ℚ := rounded (⌈(mid + spread / 2) / tick⌉ * tick * 10) / 10

section Tenths

variable {tick : ℚ}

theorem near_iff (htick : 0 < tick) {k n : Int} :
    k * tick - 1 / 20 ≤ n * tick ∧ n * tick < k * tick + 1 / 20 ↔
      k - ⌊1 / (20 * tick)⌋ ≤ n ∧ n < k + ⌈1 / (20 * tick)⌉ := by
  have hz : 1 / (20 * tick) = 1 / 20 / tick := by rw [div_div]
  have hbelow : k - ⌊1 / (20 * tick)⌋ ≤ n ↔ k * tick - 1 / 20 ≤ n * tick := by
    rw [sub_le_comm, Int.le_floor, hz, le_div_iff₀ htick]
    push_cast
    constructor <;> intro h <;> linarith
  have habove : n < k + ⌈1 / (20 * tick)⌉ ↔ n * tick < k * tick + 1 / 20 := by
    rw [← sub_lt_iff_lt_add', Int.lt_ceil, hz, lt_div_iff₀ htick]
    push_cast
    constructor <;> intro h <;> linarith
  rw [hbelow, habove]

/-- What is rounded to one tenth is not rounded to the next. -/
theorem reach_le (htick : 0 < tick) :
    reachBelow tick + reachAbove tick + tick ≤ commonGrid tick (1 / 10) := by
  have hpos := commonGrid_pos htick (b := 1 / 10) (by norm_num)
  obtain ⟨⟨m, hm⟩, j, hj⟩ := onGrid_commonGrid_iff.mp (onGrid_self (commonGrid tick (1 / 10)))
  have hjpos : (1 : ℚ) ≤ j := by
    have hlt : (0 : ℚ) < j := by linarith
    exact_mod_cast hlt
  -- twice the half of a tenth is no more than the common multiple
  have htwice : 1 / (20 * tick) + 1 / (20 * tick) ≤ m := by
    have heq : 1 / (20 * tick) + 1 / (20 * tick) = 1 / 10 / tick := by
      field_simp
      norm_num
    rw [heq, div_le_iff₀ htick, ← hm]
    linarith
  have hcount : ⌊1 / (20 * tick)⌋ + ⌈1 / (20 * tick)⌉ ≤ m := by
    rw [← le_sub_iff_add_le', Int.ceil_le]
    push_cast
    linarith [Int.floor_le (1 / (20 * tick))]
  have hcast : (⌊1 / (20 * tick)⌋ + ⌈1 / (20 * tick)⌉ : ℚ) * tick ≤ m * tick :=
    mul_le_mul_of_nonneg_right (by exact_mod_cast hcount) htick.le
  rw [hm]
  unfold reachBelow reachAbove
  linarith

/-- A positive price is the nearest tenth of a multiple of the tick. -/
theorem rounded_tenth_iff {price : ℚ} (hprice : 0 < price) {n : Int} :
    rounded (n * tick * 10) / 10 = price ↔
      OnGrid (1 / 10) price ∧ price - 1 / 20 ≤ n * tick ∧ n * tick < price + 1 / 20 := by
  have hscaled : ∀ k : Int, (k : ℚ) / 10 = price → 1 ≤ k := by
    intro k hk
    have hcast : (0 : ℚ) < k := by linarith
    exact_mod_cast hcast
  constructor
  · intro heq
    obtain ⟨hlow, hhigh⟩ := (rounded_eq_iff (hscaled _ heq)).mp rfl
    exact ⟨⟨_, by rw [← heq]; ring⟩, by linarith, by linarith⟩
  · rintro ⟨⟨k, hk⟩, hlow, hhigh⟩
    have heq : rounded (n * tick * 10) = k :=
      (rounded_eq_iff (hscaled k (by linarith))).mpr ⟨by linarith, by linarith⟩
    rw [heq]
    linarith

variable {mid spread price : ℚ}

/-- **The bid** is this common multiple. -/
theorem pairBid_eq_iff (htick : 0 < tick) (hprice : 0 < price) :
    OnGrid tick price ∧ pairBid mid spread tick = price ↔
      OnGrid (commonGrid tick (1 / 10)) price ∧ price ≤ mid - spread / 2 + reachBelow tick ∧
        mid - spread / 2 + reachBelow tick < price + (reachBelow tick + reachAbove tick + tick) := by
  unfold pairBid
  rw [rounded_tenth_iff hprice, onGrid_commonGrid_iff, and_assoc]
  refine and_congr_right fun hgrid => and_congr_right fun _ => ?_
  obtain ⟨k, rfl⟩ := hgrid
  rw [near_iff htick, Int.le_floor, le_div_iff₀ htick, Int.floor_lt, div_lt_iff₀ htick]
  unfold reachBelow reachAbove
  push_cast
  constructor <;> rintro ⟨h, h'⟩ <;> constructor <;> linarith

/-- **The ask**, counted downwards. -/
theorem pairAsk_eq_iff (htick : 0 < tick) (hprice : 0 < price) :
    OnGrid tick price ∧ pairAsk mid spread tick = price ↔
      OnGrid (commonGrid tick (1 / 10)) (-price) ∧ -price ≤ reachAbove tick - (mid + spread / 2) ∧
        reachAbove tick - (mid + spread / 2) < -price + (reachBelow tick + reachAbove tick + tick) := by
  have hneg : ∀ step : ℚ, OnGrid step (-price) ↔ OnGrid step price := by
    intro step
    constructor
    · rintro ⟨n, hn⟩
      exact ⟨-n, by push_cast; linarith⟩
    · rintro ⟨n, hn⟩
      exact ⟨-n, by push_cast; linarith⟩
  unfold pairAsk
  rw [rounded_tenth_iff hprice, hneg, onGrid_commonGrid_iff, and_assoc]
  refine and_congr_right fun hgrid => and_congr_right fun _ => ?_
  obtain ⟨k, rfl⟩ := hgrid
  have hlast : ⌈(mid + spread / 2) / tick⌉ < k + ⌈1 / (20 * tick)⌉ ↔
      mid + spread / 2 ≤ k * tick + (⌈1 / (20 * tick)⌉ - 1) * tick := by
    rw [Int.lt_iff_add_one_le, ← le_sub_iff_add_le, Int.ceil_le, div_le_iff₀ htick]
    push_cast
    constructor <;> intro h <;> linarith
  have hfirst : k - ⌊1 / (20 * tick)⌋ ≤ ⌈(mid + spread / 2) / tick⌉ ↔
      k * tick - ⌊1 / (20 * tick)⌋ * tick - tick < mid + spread / 2 := by
    rw [← Int.sub_one_lt_iff, Int.lt_ceil, lt_div_iff₀ htick]
    push_cast
    constructor <;> intro h <;> linarith
  rw [near_iff htick, hfirst, hlast]
  unfold reachBelow reachAbove
  constructor <;> rintro ⟨h, h'⟩ <;> constructor <;> linarith

end Tenths

section Pair

variable {symbol requested : String} {size spread tick mid : ℚ}

/-- The bid and the ask with the prices written out. -/
theorem pairOrders_eq (htick : tick ≠ 0) :
    (makerOf symbol size spread tick).pairOrders requested (.finite mid) =
      (limitOrder requested .buy
        ((((F64.finite size).max ((minNotional / .finite (pairBid mid spread tick)).max
          (minNotional / .finite (pairAsk mid spread tick)))) * 1000).ceil / 1000)
          (.finite (pairBid mid spread tick)),
      limitOrder requested .sell
        ((((F64.finite size).max ((minNotional / .finite (pairBid mid spread tick)).max
          (minNotional / .finite (pairAsk mid spread tick)))) * 1000).ceil / 1000)
          (.finite (pairAsk mid spread tick))) := by
  have htwo : ((2 : Nat) : ℚ) ≠ 0 := by norm_num
  have hten : ((10 : Nat) : ℚ) ≠ 0 := by norm_num
  have hbid : (((F64.finite mid - .finite spread / 2) / .finite tick).floor * .finite tick * 10).round / 10
      = .finite (pairBid mid spread tick) := by
    rw [F64.ofNat_eq, F64.ofNat_eq, F64.finite_div htwo, F64.finite_sub, F64.finite_div htick,
      F64.finite_floor, F64.finite_mul, F64.finite_mul, F64.finite_round, F64.finite_div hten]
    rfl
  have hask : (((F64.finite mid + .finite spread / 2) / .finite tick).ceil * .finite tick * 10).round / 10
      = .finite (pairAsk mid spread tick) := by
    rw [F64.ofNat_eq, F64.ofNat_eq, F64.finite_div htwo, F64.finite_add, F64.finite_div htick,
      F64.finite_ceil, F64.finite_mul, F64.finite_mul, F64.finite_round, F64.finite_div hten]
    rfl
  unfold MarketMaker.pairOrders makerOf
  dsimp only
  rw [hbid, hask]

theorem pair_quantity {bid ask : ℚ} (hbid : bid ≠ 0) (hask : ask ≠ 0) :
    (((F64.finite size).max ((minNotional / .finite bid).max (minNotional / .finite ask))) * 1000).ceil / 1000
      = .finite (⌈max size (max (100 / bid) (100 / ask)) * 1000⌉ / 1000) := by
  have hthousand : ((1000 : Nat) : ℚ) ≠ 0 := by norm_num
  unfold minNotional
  rw [F64.ofNat_eq, F64.ofNat_eq, F64.finite_div hbid, F64.finite_div hask, F64.finite_max, F64.finite_max,
    F64.finite_mul, F64.finite_ceil, F64.finite_div hthousand]
  push_cast
  rfl

/-- The pair is sound when its prices are on the grid, the bid positive and both off the middle. -/
theorem pairSound_iff (hsize : 0 < size) (htick : 0 < tick) (hmid : 0 < mid) :
    PairSound tick mid ((makerOf symbol size spread tick).pairOrders requested (.finite mid)) ↔
      (OnGrid tick (pairBid mid spread tick) ∧ 0 < pairBid mid spread tick ∧ pairBid mid spread tick < mid) ∧
      OnGrid tick (pairAsk mid spread tick) ∧ mid < pairAsk mid spread tick := by
  rw [pairOrders_eq htick.ne']
  constructor
  · rintro ⟨bid, ask, hbid, hask, hbelow, habove⟩
    obtain rfl : pairBid mid spread tick = bid := F64.finite.inj (Option.some.inj hbid.priced)
    obtain rfl : pairAsk mid spread tick = ask := F64.finite.inj (Option.some.inj hask.priced)
    exact ⟨⟨hbid.grid, hbid.positive, hbelow⟩, hask.grid, habove⟩
  · rintro ⟨⟨hgrid, hpos, hbelow⟩, hgrid', habove⟩
    have hpos' := hmid.trans habove
    have hquantity := @pair_quantity size _ _ hpos.ne' hpos'.ne'
    exact ⟨_, _, ⟨rfl, hpos, hgrid, _, hquantity, enlarged_spec hsize hpos (le_max_left _ _)⟩,
      ⟨rfl, hpos', hgrid', _, hquantity, enlarged_spec hsize hpos' (le_max_right _ _)⟩, hbelow, habove⟩

theorem sub_remainder_pos_iff {x step : ℚ} (hstep : 0 < step) : 0 < x - remainder x step ↔ step ≤ x := by
  constructor
  · intro hpos
    obtain ⟨n, hn⟩ := onGrid_sub_remainder (x := x) hstep.ne'
    rw [hn] at hpos
    have hone : (1 : ℚ) ≤ n := by exact_mod_cast pos_of_mul_pos_left hpos hstep.le
    have hle : 1 * step ≤ n * step := mul_le_mul_of_nonneg_right hone hstep.le
    linarith [remainder_nonneg (x := x) hstep]
  · intro hle
    linarith [remainder_lt (x := x) hstep]

theorem bid_fits_iff (htick : 0 < tick) :
    OnGrid tick (pairBid mid spread tick) ∧ 0 < pairBid mid spread tick ∧ pairBid mid spread tick < mid ↔
      commonGrid tick (1 / 10) ≤ mid - spread / 2 + reachBelow tick ∧
      remainder (mid - spread / 2 + reachBelow tick) (commonGrid tick (1 / 10)) <
        reachBelow tick + reachAbove tick + tick ∧
      reachBelow tick < spread / 2 + remainder (mid - spread / 2 + reachBelow tick) (commonGrid tick (1 / 10)) := by
  have hstep := commonGrid_pos htick (b := 1 / 10) (by norm_num)
  have hlast := fun p => @eq_sub_remainder_iff _ (mid - spread / 2 + reachBelow tick) hstep _ p (reach_le htick)
  constructor
  · rintro ⟨hgrid, hpos, hoff⟩
    obtain ⟨hp, hwidth⟩ := (hlast _).mp ((pairBid_eq_iff htick hpos).mp ⟨hgrid, rfl⟩)
    rw [hp] at hpos hoff
    exact ⟨(sub_remainder_pos_iff hstep).mp hpos, hwidth, by linarith⟩
  · rintro ⟨hle, hwidth, hoff⟩
    have hpos := (sub_remainder_pos_iff hstep).mpr hle
    obtain ⟨hgrid, hp⟩ := (pairBid_eq_iff htick hpos).mpr ((hlast _).mpr ⟨rfl, hwidth⟩)
    rw [hp]
    exact ⟨hgrid, hpos, by linarith⟩

theorem ask_fits_iff (htick : 0 < tick) (hmid : 0 < mid) :
    OnGrid tick (pairAsk mid spread tick) ∧ mid < pairAsk mid spread tick ↔
      remainder (reachAbove tick - (mid + spread / 2)) (commonGrid tick (1 / 10)) <
        reachBelow tick + reachAbove tick + tick ∧
      reachAbove tick < spread / 2 + remainder (reachAbove tick - (mid + spread / 2)) (commonGrid tick (1 / 10)) := by
  have hstep := commonGrid_pos htick (b := 1 / 10) (by norm_num)
  have hlast := fun p => @eq_sub_remainder_iff _ (reachAbove tick - (mid + spread / 2)) hstep _ p (reach_le htick)
  constructor
  · rintro ⟨hgrid, hoff⟩
    obtain ⟨hp, hwidth⟩ := (hlast _).mp ((pairAsk_eq_iff htick (hmid.trans hoff)).mp ⟨hgrid, rfl⟩)
    exact ⟨hwidth, by linarith⟩
  · rintro ⟨hwidth, hoff⟩
    obtain ⟨p, hp⟩ : ∃ p, -p = reachAbove tick - (mid + spread / 2) -
        remainder (reachAbove tick - (mid + spread / 2)) (commonGrid tick (1 / 10)) := ⟨_, neg_neg _⟩
    have habove : mid < p := by linarith
    obtain ⟨hgrid, hask⟩ := (pairAsk_eq_iff htick (hmid.trans habove)).mpr ((hlast _).mpr ⟨hp, hwidth⟩)
    rw [hask]
    exact ⟨hgrid, habove⟩

theorem pair_sound_iff_fits (hsize : 0 < size) (htick : 0 < tick) (hmid : 0 < mid) :
    PairSound tick mid ((makerOf symbol size spread tick).pairOrders requested (.finite mid)) ↔
      PairFits mid spread tick := by
  rw [pairSound_iff hsize htick hmid, bid_fits_iff htick, ask_fits_iff htick hmid]
  exact ⟨fun ⟨⟨h₁, h₂, h₃⟩, h₄, h₅⟩ => ⟨h₁, h₂, h₃, h₄, h₅⟩, fun ⟨h₁, h₂, h₃, h₄, h₅⟩ => ⟨⟨h₁, h₂, h₃⟩, h₄, h₅⟩⟩

/-- With a tick that is a multiple of a tenth the second rounding changes nothing, and a bid above zero is enough. -/
theorem pairFits_of_decimal (htick : 0 < tick) (hspread : 0 < spread) (hdecimal : OnGrid (1 / 10) tick) :
    PairFits mid spread tick ↔ tick ≤ mid - spread / 2 := by
  have htenth : (1 / 10 : ℚ) ≤ tick := by
    obtain ⟨k, hk⟩ := hdecimal
    have hpos : (0 : ℚ) < k := by linarith
    have hone : (1 : ℚ) ≤ k := by exact_mod_cast hpos
    linarith
  have hhalf : 0 < 1 / (20 * tick) ∧ 1 / (20 * tick) < 1 := by
    refine ⟨by positivity, ?_⟩
    rw [div_lt_one (by positivity)]
    linarith
  have hbelow : reachBelow tick = 0 := by
    have hfloor : ⌊1 / (20 * tick)⌋ = 0 := Int.floor_eq_zero_iff.mpr ⟨hhalf.1.le, hhalf.2⟩
    rw [reachBelow, hfloor, Int.cast_zero, zero_mul]
  have habove : reachAbove tick = 0 := by
    have hceil : ⌈1 / (20 * tick)⌉ = 1 :=
      Int.ceil_eq_iff.mpr ⟨by push_cast; linarith [hhalf.1], by push_cast; linarith [hhalf.2]⟩
    rw [reachAbove, hceil, Int.cast_one, sub_self, zero_mul]
  have hcommon := commonGrid_eq_left htick (by norm_num) hdecimal
  constructor
  · intro h
    have hpositive := h.bidPositive
    rwa [hcommon, hbelow, add_zero] at hpositive
  · intro hle
    have hrest := fun x => @remainder_nonneg tick x htick
    have hlt := fun x => @remainder_lt tick x htick
    have hwidth : reachBelow tick + reachAbove tick + tick = tick := by rw [hbelow, habove, zero_add, zero_add]
    constructor <;> rw [hcommon]
    · rwa [hbelow, add_zero]
    · rw [hwidth]
      exact hlt _
    · linarith [hrest (mid - spread / 2 + reachBelow tick)]
    · rw [hwidth]
      exact hlt _
    · linarith [hrest (reachAbove tick - (mid + spread / 2))]

end Pair

/-! ## All quotes -/

/-- **The quotes are valid and do not cross** exactly if the tick and the spread leave the second rounding where it is
    on the grid and outside the middle, which for ticks of whole tenths takes a tick above zero, and the levels of a
    ladder fit above zero and apart. -/
theorem quotes_valid_iff (symbol requested : String) {size spread tick mid : ℚ} (hsize : 0 < size)
    (hspread : 0 < spread) (htick : 0 < tick) (hmid : 0 < mid) :
    (PairSound tick mid ((makerOf symbol size spread tick).pairOrders requested (.finite mid)) ↔
      PairFits mid spread tick) ∧
    (OnGrid (1 / 10) tick →
      (PairSound tick mid ((makerOf symbol size spread tick).pairOrders requested (.finite mid)) ↔
        tick ≤ mid - spread / 2)) ∧
    (∀ levels maxOrders,
      LadderSound tick ((makerOf symbol size spread tick).balancedOrders (.finite mid) levels maxOrders) ↔
        LadderFits mid spread tick (MarketMaker.actualLevels levels maxOrders)
          (MarketMaker.actualLevels levels maxOrders)) ∧
    ∀ levels maxOrders positions,
      LadderSound tick ((makerOf symbol size spread tick).skewedOrders positions (.finite mid) levels maxOrders) ↔
        LadderFits mid spread tick (bidLevels (makerOf symbol size spread tick) positions levels maxOrders)
          (askLevels (makerOf symbol size spread tick) positions levels maxOrders) :=
  ⟨pair_sound_iff_fits hsize htick hmid,
    fun hdecimal => (pair_sound_iff_fits hsize htick hmid).trans (pairFits_of_decimal htick hspread hdecimal),
    fun _ _ => ladder_sound_iff_fits hsize htick hspread hmid _ _,
    fun _ _ _ => ladder_sound_iff_fits hsize htick hspread hmid _ _⟩

theorem quotes_valid_iff_wide :
    PairSound (1 / 10) 100 ((makerOf "BTCUSDT" 1 1 (1 / 10)).pairOrders "BTCUSDT" (.finite 100)) := by
  refine (@quotes_valid_iff "BTCUSDT" "BTCUSDT" 1 1 (1 / 10) 100 (by norm_num) (by norm_num) (by norm_num)
    (by norm_num)).2.1 ⟨1, by norm_num⟩ |>.mpr ?_
  norm_num

/-- A tick of a cent and a spread of two: both quotes become the same price, below the middle. Two levels of six from
    ten: the lower bid is at minus two. -/
theorem quotes_crossed :
    ((makerOf "BTCUSDT" 1 (1 / 50) (1 / 100)).pairOrders "BTCUSDT" (.finite (5001 / 50)) =
      (limitOrder "BTCUSDT" .buy 1 100, limitOrder "BTCUSDT" .sell 1 100)) ∧
    ¬ PairSound (1 / 100) (5001 / 50)
      ((makerOf "BTCUSDT" 1 (1 / 50) (1 / 100)).pairOrders "BTCUSDT" (.finite (5001 / 50))) ∧
    ((makerOf "BTCUSDT" 1 6 1).balancedOrders 10 2 4).map OrderRequest.price
      = [some 4, some (.finite (-2)), some 16, some 22] ∧
    ¬ LadderSound 1 ((makerOf "BTCUSDT" 1 6 1).balancedOrders (.finite 10) 2 4) := by
  refine ⟨by decide +kernel, ?_, by decide +kernel, ?_⟩
  · rw [pairSound_iff (by norm_num) (by norm_num) (by norm_num)]
    rintro ⟨_, _, habove⟩
    revert habove
    decide +kernel
  · intro h
    have hsound := (@ladderSound_iff "BTCUSDT" 1 6 1 10 (by norm_num) (by norm_num) 2 2).mp h
    have hbids := hsound.1 1 (by norm_num)
    revert hbids
    decide +kernel

end Maker
end TradingPlatform
