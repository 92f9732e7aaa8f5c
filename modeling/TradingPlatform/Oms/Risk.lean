import TradingPlatform.Oms.Rounded
import TradingPlatform.Rust.Binary64

/-!
# `Oms.Risk` — the risk limits over a run

The checks at a submission see the positions of that moment: the position as if the order were filled at once, without
the orders that are still open, and the exposure without the order itself. So the limits hold on the runs in which
every submission that is accepted leaves room for the open orders and itself (`limits_hold_of_room`), and not on all.

Arithmetic is that of `f64` (`Oms.Rounded`). A position is the rounded sum of its fills: 0.2, 0.4 and 0.3 are more than
0.9, and the order of the fills matters. So the room of a position is asked of the rounded sums, in every order. A fill
rounds the exposure some five times, and the room of the exposure has an allowance for that. A run with such room
stores finite numbers only, so that overflow, which the rounding does not know of, does not occur.
-/

namespace TradingPlatform
namespace Oms

open Market Machine Rounding Rust OrderManagementSystem

/-- A finite `f64`. -/
def IsF64 (x : ℚ) : Prop := IsDouble x ∧ |x| ≤ f64Max

instance (x : ℚ) : Decidable (IsF64 x) := inferInstanceAs (Decidable (_ ∧ _))

/-! ## Open orders -/

/-- The quantity of an open order of this side of a position. -/
def openQuantity (symbol : String) (exchange : Exchange) (side : Side) (order : Order) : List ℚ :=
  if order.status = .new ∧ order.symbol = symbol ∧ order.exchange = exchange ∧ order.side = side then [order.quantity]
  else []

/-- What an order counts while it is open. -/
def openWeight (weight : Order → ℚ) (order : Order) : ℚ := if order.status = .new then weight order else 0

/-- What an order costs at its limit price. -/
def cost (order : Order) : ℚ := order.price.getD 0 * order.quantity

namespace OrderManagementSystem

def openQuantities (oms : OrderManagementSystem) (symbol : String) (exchange : Exchange) (side : Side) : List ℚ :=
  oms.orders.flatMap fun entry => openQuantity symbol exchange side entry.2

/-- What the open orders count together. -/
def openSum (oms : OrderManagementSystem) (weight : Order → ℚ) : ℚ :=
  (oms.orders.map fun entry => openWeight weight entry.2).sum

/-- What rounding can add to the exposure for a fill: five times for an amount within the limit, and what a small
    price loses for every unit of the position. -/
def allowance (oms : OrderManagementSystem) : ℚ :=
  5 * binary64.slack oms.maxTotalExposure + |oms.maxPositionSize| * binary64.slack 0

/-- What the open orders can add to the exposure. -/
def openExposure (oms : OrderManagementSystem) : ℚ := oms.openSum fun order => cost order + oms.allowance

/-- The exposure of the positions, with a rounding for each. -/
def heldExposure (oms : OrderManagementSystem) : ℚ :=
  (oms.positions.map fun entry => entry.2.exposure binary64.round + binary64.slack oms.maxTotalExposure).sum

/-- No position is larger than the limit, and the exposure is within its limit. -/
structure WithinLimits (oms : OrderManagementSystem) (iteration : Iteration) : Prop where
  position : ∀ symbol exchange pos, oms.getPosition symbol exchange = some pos → |pos.quantity| ≤ oms.maxPositionSize
  exposure : Rounded.calculateTotalExposure binary64.round iteration oms ≤ oms.maxTotalExposure

/-- No position has a number beyond the greatest `f64`. -/
def StoresF64 (oms : OrderManagementSystem) : Prop :=
  ∀ symbol exchange pos, oms.getPosition symbol exchange = some pos → IsF64 pos.quantity ∧ IsF64 pos.avgEntryPrice

end OrderManagementSystem

/-- Submissions of positive quantities, and fills of open orders up to their quantity at their limit price. -/
def SubmitsOrFills (oms : OrderManagementSystem) : Call → Prop
  | .submit _ _ _ _ quantity _ _ => 0 < quantity
  | .update orderId (.filled filledQuantity avgPrice) _ =>
    IsF64 filledQuantity ∧ IsF64 avgPrice ∧ ∃ order ∈ oms.getOrder orderId, order.status = .new ∧
      0 < filledQuantity ∧ filledQuantity ≤ order.quantity ∧ order.price = some avgPrice
  | _ => False

/-- Whatever the order in which they are filled, the open orders of one side and these quantities leave a position
    within the limit. -/
def HasRoom (oms : OrderManagementSystem) (symbol : String) (exchange : Exchange) (side : Side)
    (more : List ℚ) : Prop :=
  binary64.SumsWithin (Side.signed (oms.held symbol exchange) side) oms.maxPositionSize
    (more ++ oms.openQuantities symbol exchange side)

/-- A submission that is accepted has a limit price that is not negative, and the limits have room for the order and
    all that are open. A fill leaves no position so small that the price at which it costs the whole exposure is beyond
    the greatest `f64`. -/
def LeavesRoom (iteration : Iteration) (oms : OrderManagementSystem) : Call → Prop
  | .submit symbol exchange side _ quantity price _ =>
    Rounded.checkRiskLimits binary64.round iteration oms symbol exchange side quantity = .ok () →
      0 ≤ price.getD 0 ∧ HasRoom oms symbol exchange side [quantity] ∧
      oms.heldExposure + oms.openExposure + (price.getD 0 * quantity + oms.allowance) ≤ oms.maxTotalExposure
  | .update orderId (.filled filledQuantity _) _ =>
    ∀ order ∈ oms.getOrder orderId,
      binary64.round (oms.held order.symbol order.exchange + Side.signed filledQuantity order.side) = 0 ∨
      oms.maxTotalExposure ≤
        f64Max * |binary64.round (oms.held order.symbol order.exchange + Side.signed filledQuantity order.side)|
  | _ => True

/-- The sum of 0.2, 0.4 and 0.3 is the number after 0.9. -/
example : ¬ binary64.SumsWithin 0 (binary64.round (9 / 10))
    [binary64.round (2 / 10), binary64.round (4 / 10), binary64.round (3 / 10)] := by decide +kernel

/-! ## Exposure of a fill -/

theorem isDouble_signed {x : ℚ} (h : IsDouble x) (side : Side) : IsDouble (Side.signed x side) := by
  cases side with
  | buy => exact h
  | sell => exact (Format.round_neg x).trans (congrArg Neg.neg h)

/-- What a fill against a position leaves on the other side is at most the fill. -/
theorem abs_newQuantity_le {pos : Position} {side : Side} {quantity : ℚ} (hq : 0 < quantity) (hdouble : IsDouble quantity)
    (h : signum pos.quantity ≠ signum (Rounded.newQuantity binary64.round pos side quantity)) :
    |Rounded.newQuantity binary64.round pos side quantity| ≤ quantity := by
  have habs := abs_signed hq side
  unfold Rounded.newQuantity at h ⊢
  generalize Side.signed quantity side = signed at *
  have hle : |pos.quantity + signed| ≤ quantity ∨ binary64.round (pos.quantity + signed) = 0 := by
    rcases lt_or_ge pos.quantity 0 with hshort | hlong
    · rcases lt_or_ge (binary64.round (pos.quantity + signed)) 0 with hneg | hnonneg
      · exact absurd ((signum_of_neg hshort).trans (signum_of_neg hneg).symm) h
      · rcases lt_or_ge (pos.quantity + signed) 0 with hneg | hpos
        · -- rounded up to zero
          have hle := @Format.round_mono binary64 _ _ hneg.le
          rw [Format.round_zero] at hle
          exact .inr (le_antisymm hle hnonneg)
        · left
          rw [← habs, abs_of_nonneg hpos, abs_of_nonneg (by linarith)]
          linarith
    · rcases lt_or_ge (pos.quantity + signed) 0 with hneg | hpos
      · left
        rw [← habs, abs_of_neg hneg, abs_of_neg (by linarith)]
        linarith
      · exact absurd ((signum_of_nonneg hlong).trans (signum_of_nonneg (Format.round_nonneg hpos)).symm) h
  rcases hle with hle | hzero
  · rw [Format.abs_round, ← hdouble]
    exact Format.round_mono hle
  · rw [hzero, abs_zero]
    exact hq.le

/-- What the entries of the positions are. -/
structure Position.Sound (pos : Position) : Prop where
  quantity : IsDouble pos.quantity
  entry    : IsF64 pos.avgEntryPrice
  nonneg   : 0 ≤ pos.avgEntryPrice

theorem Position.Sound.exposure_nonneg {pos : Position} (h : pos.Sound) : 0 ≤ pos.exposure binary64.round :=
  Format.round_nonneg (mul_nonneg (abs_nonneg _) h.nonneg)

theorem isF64_zero : IsF64 0 := by decide +kernel

theorem Position.Sound.flat (symbol : String) (exchange : Exchange) (timestamp : Int) :
    (Position.flat symbol exchange timestamp).Sound :=
  ⟨Format.round_zero, isF64_zero, le_rfl⟩

section Fill

variable {pos : Position} {side : Side} {quantity price size limit : ℚ} {timestamp : Int}

/-- **The cost** that a position of the same sign takes in, rounded three times. -/
theorem totalCost_le (h : pos.Sound) (hp : 0 ≤ price * quantity) (hlimit : 0 ≤ limit)
    (hroom : pos.exposure binary64.round + price * quantity + binary64.slack limit ≤ limit) :
    0 ≤ binary64.round (binary64.round (pos.avgEntryPrice * |pos.quantity|) + binary64.round (price * quantity)) ∧
      binary64.round (binary64.round (pos.avgEntryPrice * |pos.quantity|) + binary64.round (price * quantity)) ≤
        pos.exposure binary64.round + price * quantity + 2 * binary64.slack limit := by
  have hexposure := h.exposure_nonneg
  have hslack := @Format.slack_nonneg binary64 _ hlimit
  have hfill : binary64.round (price * quantity) ≤ price * quantity + binary64.slack limit :=
    Format.round_le_add_slack (by rw [abs_of_nonneg hp]; linarith)
  have hnonneg := @Format.round_nonneg binary64 _ hp
  -- the first product is the exposure before the fill
  rw [mul_comm pos.avgEntryPrice, show binary64.round (|pos.quantity| * pos.avgEntryPrice) =
    pos.exposure binary64.round from rfl]
  have hsum : 0 ≤ pos.exposure binary64.round + binary64.round (price * quantity) := add_nonneg hexposure hnonneg
  refine ⟨Format.round_nonneg hsum, ?_⟩
  have hrounded : binary64.round (pos.exposure binary64.round + binary64.round (price * quantity)) ≤
      pos.exposure binary64.round + binary64.round (price * quantity) + binary64.slack limit :=
    Format.round_le_add_slack (by rw [abs_of_nonneg hsum]; linarith)
  linarith

/-- **A fill** raises the exposure by its own and what is allowed for rounding. -/
theorem exposure_filled (h : pos.Sound) (hq : 0 < quantity) (hdouble : IsDouble quantity) (hp : 0 ≤ price)
    (hlimit : 0 ≤ limit) (hsize : |Rounded.newQuantity binary64.round pos side quantity| ≤ size)
    (hroom : pos.exposure binary64.round + price * quantity +
      (5 * binary64.slack limit + size * binary64.slack 0) ≤ limit) :
    (Rounded.filled binary64.round pos side quantity price timestamp).exposure binary64.round ≤
      pos.exposure binary64.round + price * quantity + 4 * binary64.slack limit + size * binary64.slack 0 := by
  have hexposure := h.exposure_nonneg
  have hcost : 0 ≤ price * quantity := mul_nonneg hp hq.le
  have hslack := @Format.slack_nonneg binary64 _ hlimit
  have hsmall : 0 ≤ size * binary64.slack 0 :=
    mul_nonneg ((abs_nonneg _).trans hsize) (Format.slack_nonneg le_rfl)
  show binary64.round (|(Rounded.moved binary64.round pos side quantity price).quantity| *
    (Rounded.moved binary64.round pos side quantity price).avgEntryPrice) ≤ _
  unfold Rounded.moved
  dsimp only
  split
  next hn =>
    split
    next hsame =>
      -- the cost of the fill is taken in, whichever way it goes
      obtain ⟨hnonneg, htotal⟩ := totalCost_le h hcost hlimit (by linarith)
      have hless : |Rounded.newQuantity binary64.round pos side quantity| * binary64.slack 0 ≤
          size * binary64.slack 0 := mul_le_mul_of_nonneg_right hsize (Format.slack_nonneg le_rfl)
      have hagain := @Format.round_mul_round_div_le binary64 _ _ limit (abs_pos.mpr hn) hnonneg (by linarith)
        (by linarith)
      dsimp only
      linarith
    next hother =>
      have hle : |Rounded.newQuantity binary64.round pos side quantity| * price ≤ price * quantity := by
        rw [mul_comm]
        exact mul_le_mul_of_nonneg_left (abs_newQuantity_le hq hdouble hother) hp
      have hrounded : binary64.round (|Rounded.newQuantity binary64.round pos side quantity| * price) ≤
          |Rounded.newQuantity binary64.round pos side quantity| * price + binary64.slack limit := by
        refine Format.round_le_add_slack ?_
        rw [abs_of_nonneg (mul_nonneg (abs_nonneg _) hp)]
        linarith
      linarith
  next hzero =>
    rw [abs_zero, zero_mul, Format.round_zero]
    linarith

/-- **A fill** leaves finite numbers, unless it leaves very little. -/
theorem sound_filled (h : pos.Sound) (hq : 0 < quantity) (hp : 0 ≤ price) (hprice : IsF64 price) (hlimit : 0 ≤ limit)
    (hroom : pos.exposure binary64.round + price * quantity + 2 * binary64.slack limit ≤ limit)
    (hleft : Rounded.newQuantity binary64.round pos side quantity = 0 ∨
      limit ≤ f64Max * |Rounded.newQuantity binary64.round pos side quantity|) :
    (Rounded.filled binary64.round pos side quantity price timestamp).Sound := by
  have hcost : 0 ≤ price * quantity := mul_nonneg hp hq.le
  have hslack := @Format.slack_nonneg binary64 _ hlimit
  have hmax : IsDouble f64Max := by decide +kernel
  have hentry : IsF64 (Rounded.moved binary64.round pos side quantity price).avgEntryPrice ∧
      0 ≤ (Rounded.moved binary64.round pos side quantity price).avgEntryPrice := by
    unfold Rounded.moved
    dsimp only
    split
    next hn =>
      split
      next hsame =>
        obtain ⟨hnonneg, htotal⟩ := totalCost_le h hcost hlimit (by linarith)
        have hpos := abs_pos.mpr hn
        have hquotient := @Format.round_nonneg binary64 _ (div_nonneg hnonneg hpos.le)
        have hgreatest := hleft.resolve_left hn
        refine ⟨⟨Format.round_round _, ?_⟩, hquotient⟩
        rw [abs_of_nonneg hquotient, ← hmax]
        apply Format.round_mono
        rw [div_le_iff₀ hpos]
        linarith
      next hother => exact ⟨hprice, hp⟩
    next hzero => exact ⟨isF64_zero, le_rfl⟩
  refine ⟨?_, hentry.1, hentry.2⟩
  rw [Rounded.filled_quantity]
  exact Format.round_round _

end Fill

/-! ## Sums -/

section Sums

variable {oms oms' : OrderManagementSystem}

theorem openSum_put {orderId : UInt64} {order : Order} (h : oms'.orders = Assoc.put orderId order oms.orders)
    (weight : Order → ℚ) :
    oms'.openSum weight + ((oms.getOrder orderId).map (openWeight weight)).getD 0 =
      oms.openSum weight + openWeight weight order := by
  unfold openSum getOrder
  rw [h]
  exact Assoc.sum_put (openWeight weight) orderId order oms.orders

theorem openWeight_nonneg {weight : Order → ℚ} {order : Order} (h : 0 ≤ weight order) :
    0 ≤ openWeight weight order := by
  unfold openWeight
  split
  · exact h
  · exact le_rfl

theorem openSum_nonneg {weight : Order → ℚ} (h : ∀ entry ∈ oms.orders, 0 ≤ weight entry.2) :
    0 ≤ oms.openSum weight := by
  refine List.sum_nonneg fun value hvalue => ?_
  obtain ⟨entry, hentry, rfl⟩ := List.mem_map.mp hvalue
  exact openWeight_nonneg (h entry hentry)

/-- **An order that is stored** counts once, whatever was stored under its id. -/
theorem openSum_submit {weight : Order → ℚ} (hnonneg : ∀ entry ∈ oms.orders, 0 ≤ weight entry.2) {orderId : UInt64}
    {order : Order} (h : oms'.orders = Assoc.put orderId order oms.orders) (hnew : order.status = .new) :
    oms'.openSum weight ≤ oms.openSum weight + weight order := by
  have hsum := openSum_put h weight
  have hold : 0 ≤ ((oms.getOrder orderId).map (openWeight weight)).getD 0 := by
    cases hget : oms.getOrder orderId with
    | none => exact le_rfl
    | some old => exact openWeight_nonneg (hnonneg _ (Assoc.mem_of_lookup hget))
  rw [show openWeight weight order = weight order from if_pos hnew] at hsum
  linarith

/-- **An order that is filled** is not open any more. -/
theorem openSum_fill (weight : Order → ℚ) {orderId : UInt64} {order : Order} {status : OrderStatus}
    (hget : oms.getOrder orderId = some order) (hopen : order.status = .new) (hstatus : status ≠ .new)
    (h : oms'.orders = Assoc.put orderId { order with status } oms.orders) :
    oms'.openSum weight = oms.openSum weight - weight order := by
  have hsum := openSum_put h weight
  rw [hget, Option.map_some, Option.getD_some, show openWeight weight order = weight order from if_pos hopen,
    show openWeight weight { order with status } = 0 from if_neg hstatus] at hsum
  linarith

theorem openQuantities_put {orderId : UInt64} {order : Order} (h : oms'.orders = Assoc.put orderId order oms.orders)
    (symbol : String) (exchange : Exchange) (side : Side) :
    (oms'.openQuantities symbol exchange side ++
        ((oms.getOrder orderId).map (openQuantity symbol exchange side)).getD []).Perm
      (oms.openQuantities symbol exchange side ++ openQuantity symbol exchange side order) := by
  unfold openQuantities getOrder
  rw [h]
  exact Assoc.perm_flatMap_put (openQuantity symbol exchange side) orderId order oms.orders

theorem openQuantity_nonneg {order : Order} (h : 0 < order.quantity) (symbol : String) (exchange : Exchange)
    (side : Side) : ∀ quantity ∈ openQuantity symbol exchange side order, 0 ≤ quantity := by
  intro quantity hmem
  unfold openQuantity at hmem
  split at hmem
  · rw [List.mem_singleton.mp hmem]
    exact h.le
  · cases hmem

end Sums

/-! ## Room of a position -/

theorem openQuantity_self {order : Order} (h : order.status = .new) :
    openQuantity order.symbol order.exchange order.side order = [order.quantity] :=
  if_pos ⟨h, rfl, rfl, rfl⟩

/-- An order of another position, of another side or that is settled adds nothing. -/
theorem openQuantity_of_not {symbol : String} {exchange : Exchange} {side : Side} {order : Order}
    (h : order.status = .new → order.symbol = symbol → order.exchange = exchange → order.side ≠ side) :
    openQuantity symbol exchange side order = [] :=
  if_neg fun hall => h hall.1 hall.2.1 hall.2.2.1 hall.2.2.2

/-- A fill moves the position towards its own side and away from the other. -/
theorem signed_fill (held quantity : ℚ) (side side' : Side) :
    Side.signed (binary64.round (held + Side.signed quantity side)) side' =
      binary64.round (Side.signed held side' + if side' = side then quantity else -quantity) := by
  cases side <;> cases side' <;> simp [Side.signed, ← Format.round_neg] <;> ring_nf

structure Untouched (oms : OrderManagementSystem) (symbol : String) (exchange : Exchange) : Prop where
  position : oms.getPosition symbol exchange = none
  orders   : ∀ side, oms.openQuantities symbol exchange side = []

/-- The position has room for the open orders of either side. -/
def Room (oms : OrderManagementSystem) (symbol : String) (exchange : Exchange) : Prop :=
  ∀ side, HasRoom oms symbol exchange side []

section Rooms

variable {oms next : OrderManagementSystem} {symbol : String} {exchange : Exchange} {side : Side} {order : Order}
  {orderId : UInt64}

theorem held_of_getPosition (h : next.getPosition symbol exchange = oms.getPosition symbol exchange) :
    next.held symbol exchange = oms.held symbol exchange := by
  unfold held
  rw [h]

theorem isDouble_held (h : ∀ entry ∈ oms.positions, entry.2.Sound) (symbol : String) (exchange : Exchange) :
    IsDouble (oms.held symbol exchange) := by
  unfold held
  cases hget : oms.getPosition symbol exchange with
  | none => exact Format.round_zero
  | some pos => exact (h _ (Assoc.mem_of_lookup hget)).quantity

theorem openQuantities_nonneg (h : ∀ entry ∈ oms.orders, 0 < entry.2.quantity ∧ 0 ≤ entry.2.price.getD 0)
    (symbol : String) (exchange : Exchange) (side : Side) :
    ∀ quantity ∈ oms.openQuantities symbol exchange side, 0 ≤ quantity := by
  intro quantity hmem
  obtain ⟨entry, hentry, hquantity⟩ := List.mem_flatMap.mp hmem
  exact openQuantity_nonneg (h entry hentry).1 symbol exchange side quantity hquantity

/-- What an order that is overwritten would have added. -/
theorem overwritten_nonneg (h : ∀ entry ∈ oms.orders, 0 < entry.2.quantity ∧ 0 ≤ entry.2.price.getD 0)
    (orderId : UInt64) (symbol : String) (exchange : Exchange) (side : Side) :
    ∀ quantity ∈ ((oms.getOrder orderId).map (openQuantity symbol exchange side)).getD [], 0 ≤ quantity := by
  cases hget : oms.getOrder orderId with
  | none => nofun
  | some old => exact openQuantity_nonneg (h _ (Assoc.mem_of_lookup hget)).1 symbol exchange side

/-- Room for the open orders and some more is room for those that are open next. -/
theorem HasRoom.of_perm {more rest : List ℚ} (h : HasRoom oms symbol exchange side more)
    (hheld : next.held symbol exchange = oms.held symbol exchange) (hmax : next.maxPositionSize = oms.maxPositionSize)
    (hperm : (next.openQuantities symbol exchange side ++ rest).Perm (oms.openQuantities symbol exchange side ++ more))
    (hdouble : IsDouble (oms.held symbol exchange)) (hrest : ∀ quantity ∈ rest, 0 ≤ quantity) :
    HasRoom next symbol exchange side [] := by
  have hstart := Format.round_eq_self_iff.mp (isDouble_signed hdouble side)
  unfold HasRoom at h ⊢
  rw [hheld, hmax, List.nil_append]
  exact (h.perm (List.perm_append_comm.trans hperm.symm)).drop hstart hrest

/-- **Another position** is left with the room it had. -/
theorem put_kept (h : Untouched oms symbol exchange ∨ Room oms symbol exchange)
    (horders : ∀ entry ∈ oms.orders, 0 < entry.2.quantity ∧ 0 ≤ entry.2.price.getD 0)
    (hentries : ∀ entry ∈ oms.positions, entry.2.Sound) (hput : next.orders = Assoc.put orderId order oms.orders)
    (hnone : ∀ side, openQuantity symbol exchange side order = [])
    (hposition : next.getPosition symbol exchange = oms.getPosition symbol exchange)
    (hmax : next.maxPositionSize = oms.maxPositionSize) :
    Untouched next symbol exchange ∨ Room next symbol exchange := by
  have hperm : ∀ side, (next.openQuantities symbol exchange side ++
      ((oms.getOrder orderId).map (openQuantity symbol exchange side)).getD []).Perm
        (oms.openQuantities symbol exchange side ++ []) := by
    intro side
    have hwrite := openQuantities_put hput symbol exchange side
    rwa [hnone side] at hwrite
  rcases h with huntouched | hroom
  · refine .inl ⟨hposition.trans huntouched.position, fun side => ?_⟩
    have hnil := hperm side
    rw [huntouched.orders side] at hnil
    exact (List.append_eq_nil_iff.mp hnil.eq_nil).1
  · refine .inr fun side => ?_
    exact (hroom side).of_perm (held_of_getPosition hposition) hmax (hperm side) (isDouble_held hentries ..)
      (overwritten_nonneg horders orderId symbol exchange side)

/-- **A submission** takes of the room that was there for it. -/
theorem room_of_submit (h : Untouched oms order.symbol order.exchange ∨ Room oms order.symbol order.exchange)
    (horders : ∀ entry ∈ oms.orders, 0 < entry.2.quantity ∧ 0 ≤ entry.2.price.getD 0)
    (hentries : ∀ entry ∈ oms.positions, entry.2.Sound) (hput : next.orders = Assoc.put orderId order oms.orders)
    (hnew : order.status = .new) (hq : 0 < order.quantity)
    (hroom : HasRoom oms order.symbol order.exchange order.side [order.quantity])
    (hposition : next.getPosition order.symbol order.exchange = oms.getPosition order.symbol order.exchange)
    (hmax : next.maxPositionSize = oms.maxPositionSize) : Room next order.symbol order.exchange := by
  intro side
  have hdouble := isDouble_held hentries order.symbol order.exchange
  have hheld := held_of_getPosition hposition
  have hwrite := openQuantities_put hput order.symbol order.exchange side
  have hrest := overwritten_nonneg horders orderId order.symbol order.exchange side
  by_cases hside : side = order.side
  · subst hside
    rw [openQuantity_self hnew] at hwrite
    exact hroom.of_perm hheld hmax hwrite hdouble hrest
  · rw [openQuantity_of_not fun _ _ _ => Ne.symm hside] at hwrite
    rcases h with huntouched | hbefore
    · -- nothing is held, and the limit is not negative
      have hzero : oms.held order.symbol order.exchange = 0 := by
        unfold held
        rw [huntouched.position]
        rfl
      have hstart := Format.round_eq_self_iff.mp (isDouble_signed hdouble order.side)
      have hquantities : ∀ quantity ∈ [order.quantity] ++ oms.openQuantities order.symbol order.exchange order.side,
          0 ≤ quantity := by
        rw [huntouched.orders]
        exact List.forall_mem_singleton.mpr hq.le
      have hle := hroom.start_le hstart hquantities
      rw [huntouched.orders side] at hwrite
      have hnil := (List.append_eq_nil_iff.mp hwrite.eq_nil).1
      intro quantities hall
      rw [hnil] at hall
      rw [hall.eq_nil, hmax, hheld]
      rw [hzero] at hle ⊢
      revert hle
      cases order.side <;> cases side <;> simp [Side.signed, accumulate]
    · exact (hbefore side).of_perm hheld hmax hwrite hdouble hrest

/-- **A fill** moves the position by no more than the order took of its room. -/
theorem room_of_fill {filledQuantity : ℚ} {status : OrderStatus}
    (h : Untouched oms order.symbol order.exchange ∨ Room oms order.symbol order.exchange)
    (hentries : ∀ entry ∈ oms.positions, entry.2.Sound) (hget : oms.getOrder orderId = some order)
    (hopen : order.status = .new) (hstatus : status ≠ .new)
    (hput : next.orders = Assoc.put orderId { order with status } oms.orders) (hfilled : 0 < filledQuantity)
    (hle : filledQuantity ≤ order.quantity)
    (hheld : next.held order.symbol order.exchange =
      binary64.round (oms.held order.symbol order.exchange + Side.signed filledQuantity order.side))
    (hmax : next.maxPositionSize = oms.maxPositionSize) : Room next order.symbol order.exchange := by
  have hperm : ∀ side, (next.openQuantities order.symbol order.exchange side ++
      openQuantity order.symbol order.exchange side order).Perm
        (oms.openQuantities order.symbol order.exchange side) := by
    intro side
    have hwrite := openQuantities_put hput order.symbol order.exchange side
    rwa [hget, openQuantity_of_not fun hnew => absurd hnew hstatus, List.append_nil] at hwrite
  have hbefore : Room oms order.symbol order.exchange := by
    refine h.resolve_left fun huntouched => ?_
    -- an order that is open is counted
    have hcounted := hperm order.side
    rw [huntouched.orders, openQuantity_self hopen] at hcounted
    exact absurd hcounted.eq_nil (by simp)
  intro side
  have hroom := hbefore side
  unfold HasRoom at hroom ⊢
  rw [List.nil_append] at hroom ⊢
  rw [hheld, hmax, signed_fill]
  by_cases hside : side = order.side
  · subst hside
    have hcounted := hperm order.side
    rw [openQuantity_self hopen] at hcounted
    rw [if_pos rfl]
    -- the order comes first of all that were open
    exact (hroom.perm (hcounted.symm.trans (List.perm_append_singleton ..))).add hle
  · have hsame := hperm side
    rw [openQuantity_of_not fun _ _ _ => Ne.symm hside, List.append_nil] at hsame
    rw [if_neg hside]
    -- the other side starts lower
    refine (hroom.perm hsame.symm).lower ?_
    have hdouble := isDouble_signed (isDouble_held hentries order.symbol order.exchange) side
    calc binary64.round (Side.signed (oms.held order.symbol order.exchange) side + -filledQuantity)
        ≤ binary64.round (Side.signed (oms.held order.symbol order.exchange) side) :=
          Format.round_mono (by linarith)
      _ = Side.signed (oms.held order.symbol order.exchange) side := hdouble

theorem Room.abs_held_le (h : Room oms symbol exchange)
    (horders : ∀ entry ∈ oms.orders, 0 < entry.2.quantity ∧ 0 ≤ entry.2.price.getD 0)
    (hdouble : IsDouble (oms.held symbol exchange)) : |oms.held symbol exchange| ≤ oms.maxPositionSize := by
  have hside : ∀ side, Side.signed (oms.held symbol exchange) side ≤ oms.maxPositionSize := by
    intro side
    have hstart := Format.round_eq_self_iff.mp (isDouble_signed hdouble side)
    exact (h side).start_le hstart (openQuantities_nonneg horders symbol exchange side)
  exact abs_le.mpr ⟨neg_le.mp (hside .sell), hside .buy⟩

end Rooms

/-! ## Exposure over a run -/

structure Inv (oms : OrderManagementSystem) : Prop where
  size     : oms.maxPositionSize ≤ f64Max
  limit    : 0 ≤ oms.maxTotalExposure
  orders   : ∀ entry ∈ oms.orders, 0 < entry.2.quantity ∧ 0 ≤ entry.2.price.getD 0
  entries  : ∀ entry ∈ oms.positions, entry.2.Sound
  position : ∀ symbol exchange, Untouched oms symbol exchange ∨ Room oms symbol exchange
  exposure : oms.heldExposure + oms.openExposure ≤ oms.maxTotalExposure

theorem Inv.new {maxPositionSize maxTotalExposure : ℚ} (maxDailyLoss : ℚ) (hsize : maxPositionSize ≤ f64Max)
    (h : 0 ≤ maxTotalExposure) : Inv (.new maxPositionSize maxDailyLoss maxTotalExposure) := by
  have hheld : (OrderManagementSystem.new maxPositionSize maxDailyLoss maxTotalExposure).heldExposure = 0 :=
    List.sum_nil
  have hopen : (OrderManagementSystem.new maxPositionSize maxDailyLoss maxTotalExposure).openExposure = 0 :=
    List.sum_nil
  refine ⟨hsize, h, fun _ hmem => ?_, fun _ hmem => ?_, fun _ _ => .inl ⟨rfl, fun _ => rfl⟩, ?_⟩
  · cases hmem
  · cases hmem
  · rw [hheld, hopen, add_zero]
    exact h

section Exposure

variable {oms next : OrderManagementSystem} {order : Order} {orderId : UInt64}

theorem allowance_nonneg (h : 0 ≤ oms.maxTotalExposure) : 0 ≤ oms.allowance := by
  have hslack := @Format.slack_nonneg binary64 _ h
  have hsmall := @Format.slack_nonneg binary64 0 le_rfl
  unfold allowance
  positivity

theorem Inv.weight_nonneg (h : Inv oms) : ∀ entry ∈ oms.orders, 0 ≤ cost entry.2 + oms.allowance := by
  intro entry hentry
  obtain ⟨hq, hprice⟩ := h.orders entry hentry
  exact add_nonneg (mul_nonneg hprice hq.le) (allowance_nonneg h.limit)

theorem Inv.held_nonneg (h : Inv oms) :
    ∀ exposure ∈ oms.positions.map fun entry => entry.2.exposure binary64.round + binary64.slack oms.maxTotalExposure,
      0 ≤ exposure := by
  intro exposure hmem
  obtain ⟨entry, hentry, rfl⟩ := List.mem_map.mp hmem
  exact add_nonneg (h.entries entry hentry).exposure_nonneg (Format.slack_nonneg h.limit)

theorem Inv.position_sound (h : Inv oms) (symbol : String) (exchange : Exchange) (timestamp : Int) :
    (oms.position symbol exchange timestamp).Sound := by
  unfold OrderManagementSystem.position
  cases hget : oms.getPosition symbol exchange with
  | none => exact Position.Sound.flat ..
  | some pos => exact h.entries _ (Assoc.mem_of_lookup hget)

/-- The exposure of one position is part of that of all. -/
theorem Inv.exposure_le (h : Inv oms) (symbol : String) (exchange : Exchange) (timestamp : Int) :
    (oms.position symbol exchange timestamp).exposure binary64.round ≤ oms.heldExposure := by
  have hslack := @Format.slack_nonneg binary64 _ h.limit
  unfold OrderManagementSystem.position
  cases hget : oms.getPosition symbol exchange with
  | none =>
      show binary64.round (|0| * 0) ≤ _
      rw [mul_zero, Format.round_zero]
      exact List.sum_nonneg h.held_nonneg
  | some pos =>
      have hmem : pos.exposure binary64.round + binary64.slack oms.maxTotalExposure ∈
          oms.positions.map fun entry => entry.2.exposure binary64.round + binary64.slack oms.maxTotalExposure :=
        List.mem_map.mpr ⟨_, Assoc.mem_of_lookup hget, rfl⟩
      have hle := List.single_le_sum h.held_nonneg _ hmem
      show pos.exposure binary64.round ≤ _
      unfold heldExposure
      linarith

/-- **A position that is written** counts in the place of the one it overwrites. -/
theorem heldExposure_put {symbol : String} {exchange : Exchange} {pos : Position} {timestamp : Int} (h : Inv oms)
    (hput : next.positions = Assoc.put (symbol, exchange) pos oms.positions)
    (hmax : next.maxTotalExposure = oms.maxTotalExposure) :
    next.heldExposure ≤ oms.heldExposure + binary64.slack oms.maxTotalExposure +
      (pos.exposure binary64.round - (oms.position symbol exchange timestamp).exposure binary64.round) := by
  have hslack := @Format.slack_nonneg binary64 _ h.limit
  have hsum := Assoc.sum_put
    (fun pos : Position => pos.exposure binary64.round + binary64.slack oms.maxTotalExposure) (symbol, exchange) pos
    oms.positions
  have hold : (oms.position symbol exchange timestamp).exposure binary64.round ≤
      ((oms.positions.lookup (symbol, exchange)).map fun pos : Position =>
        pos.exposure binary64.round + binary64.slack oms.maxTotalExposure).getD 0 := by
    unfold OrderManagementSystem.position getPosition
    cases oms.positions.lookup (symbol, exchange) with
    | none =>
        show binary64.round (|0| * 0) ≤ 0
        rw [mul_zero, Format.round_zero]
    | some pos => exact le_add_of_nonneg_right hslack
  unfold heldExposure
  rw [hput, hmax]
  linarith

end Exposure

/-! ## Steps -/

section Steps

variable {oms next : OrderManagementSystem} {order : Order} {orderId : UInt64} {iteration : Iteration}

theorem put_orders (h : ∀ entry ∈ oms.orders, 0 < entry.2.quantity ∧ 0 ≤ entry.2.price.getD 0)
    (hput : next.orders = Assoc.put orderId order oms.orders) (hq : 0 < order.quantity)
    (hprice : 0 ≤ order.price.getD 0) :
    ∀ entry ∈ next.orders, 0 < entry.2.quantity ∧ 0 ≤ entry.2.price.getD 0 := by
  intro entry hentry
  rw [hput] at hentry
  rcases Assoc.snd_of_mem_put hentry with heq | hentry
  · rw [heq]
    exact ⟨hq, hprice⟩
  · exact h entry hentry

theorem allowance_eq (hmax : next.maxPositionSize = oms.maxPositionSize)
    (hmaxExposure : next.maxTotalExposure = oms.maxTotalExposure) : next.allowance = oms.allowance := by
  unfold allowance
  rw [hmax, hmaxExposure]

/-- **An accepted submission** for which there is room. -/
theorem Inv.submit (h : Inv oms) (hnew : order.status = .new) (hq : 0 < order.quantity)
    (hprice : 0 ≤ order.price.getD 0) (hroom : HasRoom oms order.symbol order.exchange order.side [order.quantity])
    (hexposure : oms.heldExposure + oms.openExposure + (order.price.getD 0 * order.quantity + oms.allowance) ≤
      oms.maxTotalExposure)
    (hput : next.orders = Assoc.put orderId order oms.orders) (hpositions : next.positions = oms.positions)
    (hmax : next.maxPositionSize = oms.maxPositionSize) (hmaxExposure : next.maxTotalExposure = oms.maxTotalExposure) :
    Inv next := by
  have hposition : ∀ symbol exchange, next.getPosition symbol exchange = oms.getPosition symbol exchange := by
    intro symbol exchange
    unfold getPosition
    rw [hpositions]
  refine ⟨hmax ▸ h.size, hmaxExposure ▸ h.limit, put_orders h.orders hput hq hprice, hpositions ▸ h.entries,
    fun symbol exchange => ?_, ?_⟩
  · by_cases hkey : order.symbol = symbol ∧ order.exchange = exchange
    · obtain ⟨rfl, rfl⟩ := hkey
      exact .inr (room_of_submit (h.position ..) h.orders h.entries hput hnew hq hroom (hposition ..) hmax)
    · have hnone : ∀ side, openQuantity symbol exchange side order = [] :=
        fun side => openQuantity_of_not fun _ hsymbol hexchange => absurd ⟨hsymbol, hexchange⟩ hkey
      exact put_kept (h.position symbol exchange) h.orders h.entries hput hnone (hposition ..) hmax
  · have hsame : next.heldExposure = oms.heldExposure := by
      unfold heldExposure
      rw [hpositions, hmaxExposure]
    have hopen : next.openExposure ≤ oms.openExposure + (cost order + oms.allowance) := by
      unfold openExposure
      rw [allowance_eq hmax hmaxExposure]
      exact openSum_submit h.weight_nonneg hput hnew
    unfold cost at hopen
    rw [hsame, hmaxExposure]
    linarith

/-- **A fill** of an open order, first stored with its status, then applied to the position. -/
theorem Inv.fill (h : Inv oms) {stored : OrderManagementSystem} {filledQuantity avgPrice : ℚ}
    (hget : oms.getOrder orderId = some order) (hopen : order.status = .new) (hfilled : 0 < filledQuantity)
    (hdouble : IsF64 filledQuantity) (hprice : IsF64 avgPrice) (hle : filledQuantity ≤ order.quantity)
    (hlimit : order.price = some avgPrice) (timestamp : Int)
    (hleft : binary64.round (oms.held order.symbol order.exchange + Side.signed filledQuantity order.side) = 0 ∨
      oms.maxTotalExposure ≤
        f64Max * |binary64.round (oms.held order.symbol order.exchange + Side.signed filledQuantity order.side)|)
    (hstored : stored = { oms with
      orders := Assoc.put orderId { order with status := .filled filledQuantity avgPrice } oms.orders })
    (hnext : next = Rounded.updatePosition binary64.round stored order.symbol order.exchange order.side filledQuantity
      avgPrice timestamp) :
    Inv next := by
  obtain ⟨hq, hnonneg⟩ : 0 < order.quantity ∧ 0 ≤ order.price.getD 0 := h.orders _ (Assoc.mem_of_lookup hget)
  have hp : 0 ≤ avgPrice := by rwa [hlimit, Option.getD_some] at hnonneg
  have hsound := h.position_sound order.symbol order.exchange timestamp
  -- what storing the status leaves as it is
  have hposition : ∀ symbol exchange, stored.getPosition symbol exchange = oms.getPosition symbol exchange := by
    intro symbol exchange
    unfold getPosition
    rw [hstored]
  have hfound : stored.position order.symbol order.exchange timestamp =
      oms.position order.symbol order.exchange timestamp := by
    unfold OrderManagementSystem.position
    rw [hposition]
  -- what the fill does
  have hput : next.orders =
      Assoc.put orderId { order with status := .filled filledQuantity avgPrice } oms.orders := by
    rw [hnext, Rounded.orders_updatePosition, hstored]
  have hpositions : next.positions = Assoc.put (order.symbol, order.exchange)
      (Rounded.filled binary64.round (oms.position order.symbol order.exchange timestamp) order.side filledQuantity
        avgPrice timestamp) oms.positions := by
    rw [hnext, Rounded.positions_updatePosition, hfound, hstored]
  have hheld : next.held order.symbol order.exchange =
      binary64.round (oms.held order.symbol order.exchange + Side.signed filledQuantity order.side) := by
    rw [hnext, Rounded.held_updatePosition_self, held_of_getPosition (hposition ..)]
  obtain ⟨hmax, hmaxExposure⟩ := @Rounded.limits_updatePosition binary64.round stored order.symbol order.exchange
    order.side filledQuantity avgPrice timestamp
  rw [← hnext, hstored] at hmax hmaxExposure
  dsimp only at hmax hmaxExposure
  have horders := put_orders h.orders hput hq hnonneg
  have hsettled : OrderStatus.filled filledQuantity avgPrice ≠ .new := by nofun
  have hroom := room_of_fill (h.position ..) h.entries hget hopen hsettled hput hfilled hle hheld hmax
  -- the order reserved the exposure of the fill
  have hclosed : next.openExposure = oms.openExposure - (avgPrice * order.quantity + oms.allowance) := by
    have hweight : cost order = avgPrice * order.quantity := by rw [cost, hlimit, Option.getD_some]
    unfold openExposure
    rw [allowance_eq hmax hmaxExposure, ← hweight]
    exact openSum_fill _ hget hopen hsettled hput
  have hopenNext : 0 ≤ next.openExposure := by
    refine openSum_nonneg fun entry hentry => ?_
    obtain ⟨hq, hprice⟩ := horders entry hentry
    exact add_nonneg (mul_nonneg hprice hq.le) (allowance_nonneg (hmaxExposure ▸ h.limit))
  have hmore : avgPrice * filledQuantity ≤ avgPrice * order.quantity := mul_le_mul_of_nonneg_left hle hp
  have hreserved := h.exposure
  have hpart := h.exposure_le order.symbol order.exchange timestamp
  have hslack := @Format.slack_nonneg binary64 _ h.limit
  have hnew : Rounded.newQuantity binary64.round (oms.position order.symbol order.exchange timestamp) order.side
      filledQuantity = binary64.round (oms.held order.symbol order.exchange +
        Side.signed filledQuantity order.side) := by
    unfold Rounded.newQuantity
    rw [← held_eq]
  have hsize : |Rounded.newQuantity binary64.round (oms.position order.symbol order.exchange timestamp) order.side
      filledQuantity| ≤ |oms.maxPositionSize| := by
    have hdouble : IsDouble (next.held order.symbol order.exchange) := by
      rw [hheld]
      exact Format.round_round _
    have habs := hroom.abs_held_le horders hdouble
    rw [hnew, ← hheld, ← hmax]
    exact habs.trans (le_abs_self _)
  have hfits : (oms.position order.symbol order.exchange timestamp).exposure binary64.round +
      avgPrice * filledQuantity + oms.allowance ≤ oms.maxTotalExposure := by linarith
  refine ⟨hmax ▸ h.size, hmaxExposure ▸ h.limit, horders, fun entry hmem => ?_, fun symbol exchange => ?_, ?_⟩
  · rw [hpositions] at hmem
    rcases Assoc.snd_of_mem_put hmem with heq | hmem
    · rw [heq]
      refine sound_filled hsound hfilled hp hprice h.limit ?_ (hnew ▸ hleft)
      have hsmall : 0 ≤ |oms.maxPositionSize| * binary64.slack 0 :=
        mul_nonneg (abs_nonneg _) (Format.slack_nonneg le_rfl)
      unfold allowance at hfits
      linarith
    · exact h.entries entry hmem
  · by_cases hkey : order.symbol = symbol ∧ order.exchange = exchange
    · obtain ⟨rfl, rfl⟩ := hkey
      exact .inr hroom
    · have hnone : ∀ side, openQuantity symbol exchange side
          { order with status := .filled filledQuantity avgPrice } = [] :=
        fun side => openQuantity_of_not fun hstatus => absurd hstatus hsettled
      have hother : next.getPosition symbol exchange = oms.getPosition symbol exchange := by
        rw [hnext, Rounded.getPosition_updatePosition_of_ne _ _ _ _ _ _ _ hkey, hposition]
      exact put_kept (h.position symbol exchange) h.orders h.entries hput hnone hother hmax
  · have hfill := @exposure_filled _ order.side _ _ _ _ timestamp hsound hfilled hdouble.1 hp h.limit hsize hfits
    have hput := @heldExposure_put _ _ _ _ _ timestamp h hpositions hmaxExposure
    rw [hclosed, hmaxExposure]
    unfold allowance
    linarith

/-- **One call** keeps room for the open orders. -/
theorem Inv.step (h : Inv oms) {call : Call} (hcall : SubmitsOrFills oms call)
    (hroom : LeavesRoom iteration oms call) : Inv (Rounded.step binary64.round iteration oms call).1 := by
  cases call with
  | submit symbol exchange side orderType quantity price timestamp =>
      unfold Rounded.step
      dsimp only
      cases hsubmit : Rounded.submitOrder binary64.round iteration oms symbol exchange side orderType quantity price
        timestamp with
      | error message => exact h
      | ok result =>
          obtain ⟨orderId, next⟩ := result
          obtain ⟨hcheck, hnext⟩ := Rounded.submitOrder_ok hsubmit
          obtain ⟨hprice, hside, hexposure⟩ := hroom hcheck
          dsimp only
          rw [hnext]
          have hnew : (Order.mk orderId timestamp symbol exchange side orderType quantity price .ioc .new).status =
            .new := rfl
          exact h.submit hnew hcall hprice hside hexposure rfl rfl rfl rfl
  | update orderId status timestamp =>
      cases status with
      | filled filledQuantity avgPrice =>
          obtain ⟨hdouble, hprice, order, hget, hopen, hfilled, hle, hlimit⟩ := hcall
          refine h.fill hget hopen hfilled hdouble hprice hle hlimit timestamp (hroom order hget) rfl ?_
          unfold Rounded.step Rounded.updateOrderStatus
          dsimp only
          rw [show oms.getOrder orderId = some order from hget]
      | _ => cases hcall
  | cancel orderId => cases hcall

/-- **The exposure that is computed**, whatever the order of the positions. -/
theorem Inv.calculateTotalExposure_le (h : Inv oms) (iteration : Iteration) :
    Rounded.calculateTotalExposure binary64.round iteration oms ≤ oms.heldExposure := by
  have hperm := (iteration.perm oms.positions).map fun entry => entry.2.exposure binary64.round
  have hopen : 0 ≤ oms.openExposure := openSum_nonneg h.weight_nonneg
  have hexposure := h.exposure
  have hterms : ∀ x ∈ (iteration.visit oms.positions).map fun entry => entry.2.exposure binary64.round, 0 ≤ x := by
    intro x hmem
    obtain ⟨entry, hentry, rfl⟩ := List.mem_map.mp hmem
    exact (h.entries entry ((iteration.perm _).mem_iff.mp hentry)).exposure_nonneg
  have hsum : oms.heldExposure =
      0 + ((iteration.visit oms.positions).map fun entry => entry.2.exposure binary64.round).sum +
        ((iteration.visit oms.positions).map fun entry => entry.2.exposure binary64.round).length *
          binary64.slack oms.maxTotalExposure := by
    unfold heldExposure
    rw [hperm.sum_eq, hperm.length_eq, List.length_map, List.sum_map_add, List.map_const', List.sum_replicate,
      nsmul_eq_mul, zero_add]
  rw [hsum] at hexposure ⊢
  exact Format.accumulate_le_sum h.limit le_rfl hterms (by linarith)

theorem Inv.withinLimits (h : Inv oms) (iteration : Iteration) : oms.WithinLimits iteration := by
  constructor
  · intro symbol exchange pos hget
    have hheld : oms.held symbol exchange = pos.quantity := by
      unfold held
      rw [hget]
      rfl
    rcases h.position symbol exchange with huntouched | hroom
    · rw [huntouched.position] at hget
      cases hget
    · rw [← hheld]
      exact hroom.abs_held_le h.orders (isDouble_held h.entries ..)
  · have hopen : 0 ≤ oms.openExposure := openSum_nonneg h.weight_nonneg
    have hle := h.calculateTotalExposure_le iteration
    have hexposure := h.exposure
    linarith

theorem Inv.storesF64 (h : Inv oms) : oms.StoresF64 := by
  intro symbol exchange pos hget
  have hsound := h.entries _ (Assoc.mem_of_lookup hget)
  have hwithin := (h.withinLimits ⟨id, fun _ => .refl _⟩).position symbol exchange pos hget
  exact ⟨⟨hsound.quantity, hwithin.trans h.size⟩, hsound.entry⟩

end Steps

/-- **The risk limits hold** at every point of a run of submissions and fills in which every submission that is
    accepted leaves room for the open orders and itself. -/
theorem limits_hold_of_room (iteration : Iteration) {maxPositionSize maxTotalExposure : ℚ} (maxDailyLoss : ℚ)
    (hsize : maxPositionSize ≤ f64Max) (hlimit : 0 ≤ maxTotalExposure) (calls : List Call)
    (hcalls : Guarded (Rounded.step binary64.round iteration) SubmitsOrFills
      (.new maxPositionSize maxDailyLoss maxTotalExposure) calls)
    (hroom : Guarded (Rounded.step binary64.round iteration) (LeavesRoom iteration)
      (.new maxPositionSize maxDailyLoss maxTotalExposure) calls) :
    ∀ done, done <+: calls →
      (run (Rounded.step binary64.round iteration) (.new maxPositionSize maxDailyLoss maxTotalExposure)
        done).1.WithinLimits iteration ∧
      (run (Rounded.step binary64.round iteration) (.new maxPositionSize maxDailyLoss maxTotalExposure)
        done).1.StoresF64 := by
  rintro done ⟨rest, rfl⟩
  have hboth := (guarded_append.mp hcalls).1.and (guarded_append.mp hroom).1
  have hstep : ∀ s i, Inv s → SubmitsOrFills s i ∧ LeavesRoom iteration s i →
      Inv (Rounded.step binary64.round iteration s i).1 := fun s i hs hg => hs.step hg.1 hg.2
  have hinv := hboth.invariant hstep (Inv.new maxDailyLoss hsize hlimit)
  exact ⟨hinv.withinLimits iteration, hinv.storesF64⟩

/-! ## Two open orders -/

/-- The positions in the order of their first fills. -/
def Iteration.listed : Iteration := ⟨id, fun _ => .refl _⟩

instance (oms : OrderManagementSystem) (call : Call) : Decidable (SubmitsOrFills oms call) :=
  match call with
  | .submit _ _ _ _ quantity _ _ => inferInstanceAs (Decidable (0 < quantity))
  | .update orderId (.filled filledQuantity avgPrice) _ => inferInstanceAs (Decidable
      (IsF64 filledQuantity ∧ IsF64 avgPrice ∧ ∃ order ∈ oms.getOrder orderId, order.status = .new ∧
        0 < filledQuantity ∧ filledQuantity ≤ order.quantity ∧ order.price = some avgPrice))
  | .update _ .new _ | .update _ .pending _ | .update _ (.partiallyFilled _) _ | .update _ .cancelled _
  | .update _ (.rejected _) _ | .cancel _ => isFalse id

instance (oms : OrderManagementSystem) (symbol : String) (exchange : Exchange) (side : Side) (more : List ℚ) :
    Decidable (HasRoom oms symbol exchange side more) :=
  inferInstanceAs (Decidable (binary64.SumsWithin _ _ _))

instance (iteration : Iteration) (oms : OrderManagementSystem) (call : Call) :
    Decidable (LeavesRoom iteration oms call) :=
  match call with
  | .submit symbol exchange side _ quantity price _ => inferInstanceAs (Decidable
      (Rounded.checkRiskLimits binary64.round iteration oms symbol exchange side quantity = .ok () →
        0 ≤ price.getD 0 ∧ HasRoom oms symbol exchange side [quantity] ∧
        oms.heldExposure + oms.openExposure + (price.getD 0 * quantity + oms.allowance) ≤ oms.maxTotalExposure))
  | .update orderId (.filled filledQuantity _) _ => inferInstanceAs (Decidable
      (∀ order ∈ oms.getOrder orderId,
        binary64.round (oms.held order.symbol order.exchange + Side.signed filledQuantity order.side) = 0 ∨
        oms.maxTotalExposure ≤
          f64Max * |binary64.round (oms.held order.symbol order.exchange + Side.signed filledQuantity order.side)|))
  | .update _ .new _ | .update _ .pending _ | .update _ (.partiallyFilled _) _ | .update _ .cancelled _
  | .update _ (.rejected _) _ | .cancel _ => isTrue trivial

/-- Tenths, as `f64`. -/
def tenths (n : ℚ) : ℚ := binary64.round (n / 10)

/-- Bought and sold within the limits, in tenths. -/
def bothSides : List Call :=
  [.submit "BTCUSDT" .binance .buy .limit (tenths 6) (some 100) 1,
    .submit "BTCUSDT" .binance .sell .limit (tenths 9) (some 110) 2, .update 2 (.filled (tenths 9) 110) 3,
    .update 1 (.filled (tenths 4) 100) 4, .submit "BTCUSDT" .binance .buy .limit (tenths 8) (some 90) 5,
    .update 3 (.filled (tenths 8) 90) 6]

theorem limits_hold_bothSides :
    (1 : ℚ) ≤ f64Max ∧ (0 : ℚ) ≤ 1000 ∧
      Guarded (Rounded.step binary64.round .listed) SubmitsOrFills (.new 1 1000 1000) bothSides ∧
      Guarded (Rounded.step binary64.round .listed) (LeavesRoom .listed) (.new 1 1000 1000) bothSides ∧
      ∀ done, done <+: bothSides →
        (run (Rounded.step binary64.round .listed) (.new 1 1000 1000) done).1.WithinLimits .listed ∧
        (run (Rounded.step binary64.round .listed) (.new 1 1000 1000) done).1.StoresF64 :=
  have hsize : (1 : ℚ) ≤ f64Max := by decide +kernel
  have hlimit : (0 : ℚ) ≤ 1000 := by decide +kernel
  have hcalls : Guarded (Rounded.step binary64.round .listed) SubmitsOrFills (.new 1 1000 1000) bothSides := by
    decide +kernel
  have hroom : Guarded (Rounded.step binary64.round .listed) (LeavesRoom .listed) (.new 1 1000 1000) bothSides := by
    decide +kernel
  ⟨hsize, hlimit, hcalls, hroom, limits_hold_of_room .listed 1000 hsize hlimit bothSides hcalls hroom⟩

/-- Each order is within the limit, and both are filled. -/
def bothFilled : List Call :=
  [.submit "BTCUSDT" .binance .buy .limit 60 (some 100) 1, .submit "BTCUSDT" .binance .buy .limit 60 (some 100) 2,
    .update 1 (.filled 60 100) 3, .update 2 (.filled 60 100) 4]

/-- The position is 120 of at most 100, and the exposure 12000 of at most 5000. -/
theorem bothFilled_exceeds :
    Guarded (Rounded.step binary64.round .listed) SubmitsOrFills (.new 100 1000 5000) bothFilled ∧
      ¬ (run (Rounded.step binary64.round .listed) (.new 100 1000 5000) bothFilled).1.WithinLimits .listed ∧
      (run (Rounded.step binary64.round .listed) (.new 100 1000 5000) bothFilled).1.held "BTCUSDT" .binance = 120 ∧
      Rounded.calculateTotalExposure binary64.round .listed
        (run (Rounded.step binary64.round .listed) (.new 100 1000 5000) bothFilled).1 = 12000 := by
  refine ⟨by decide +kernel, fun h => ?_, by decide +kernel, by decide +kernel⟩
  have hexposure := h.exposure
  revert hexposure
  decide +kernel

end Oms
end TradingPlatform
