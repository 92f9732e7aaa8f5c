import TradingPlatform.Maker.Orders
import TradingPlatform.Library.FixedWindow

/-!
# `Maker.RateLimit` — the order rate limit of `BinanceRiskManager`

The manager counts the orders of a window that is started anew by the first order after its end. A window of the
clock can meet two of these, so it holds at most twice the limit (`orders_limited`), and it can hold that many
(`window_straddled`).
-/

namespace TradingPlatform
namespace Maker

open Rust FixedWindow

structure BinanceRiskManager where
  maxOrdersPerWindow  : Nat
  orderWindowMs       : Nat
  lastOrdersTimestamp : Int
  orderCount          : Nat

/-- A call of `validate_order`: the order, what `calculate_max_orders` answers to it, and the time. -/
structure Validation where
  order              : OrderRequest
  calculateMaxOrders : String → F64 → F64 → Except Error Nat
  now                : Int

namespace BinanceRiskManager

/-- Reset the counter for a new window. -/
def startWindow (m : BinanceRiskManager) (now : Int) : BinanceRiskManager :=
  if now - m.lastOrdersTimestamp > u64AsI64 m.orderWindowMs then
    { m with orderCount := 0, lastOrdersTimestamp := now }
  else m

/-- The rate limit, which is checked last. -/
def countOrder (m : BinanceRiskManager) (now : Int) : Except Error Unit × BinanceRiskManager :=
  let m := m.startWindow now
  if m.orderCount ≥ m.maxOrdersPerWindow then (.error (.invalidInput "Order rate limit exceeded"), m)
  else (.ok (), { m with orderCount := m.orderCount + 1 })

def validateOrder (m : BinanceRiskManager) (v : Validation) : Except Error Unit × BinanceRiskManager :=
  let price := v.order.price.getD 0
  match v.calculateMaxOrders v.order.symbol price v.order.quantity with
  | .error e            => (.error e, m)
  | .ok availableOrders =>
    if availableOrders = 0 then (.error (.invalidInput "Insufficient balance for order"), m)
    else m.countOrder v.now

/-- The manager after some calls. -/
def after (m : BinanceRiskManager) (vs : List Validation) : BinanceRiskManager :=
  vs.foldl (fun m v => (m.validateOrder v).2) m

/-- The times at which `validate_order` returned `Ok`. -/
def accepted : BinanceRiskManager → List Validation → List Int
  | _, []      => []
  | m, v :: vs =>
    match m.validateOrder v with
    | (.ok _, m')    => v.now :: accepted m' vs
    | (.error _, m') => accepted m' vs

/-- The length of a window, as the comparison reads it. -/
def width (m : BinanceRiskManager) : Int := u64AsI64 m.orderWindowMs

end BinanceRiskManager

/-- There is balance for the order. -/
def Validation.available (v : Validation) : Bool :=
  match v.calculateMaxOrders v.order.symbol (v.order.price.getD 0) v.order.quantity with
  | .ok (_ + 1) => true
  | _           => false

namespace BinanceRiskManager

/-- The call starts the counter anew. -/
def Resets (m : BinanceRiskManager) (v : Validation) : Prop :=
  v.available = true ∧ v.now - m.lastOrdersTimestamp > m.width

/-- No call of these does. -/
def SameWindow : BinanceRiskManager → List Validation → Prop
  | _, []      => True
  | m, v :: vs => ¬ m.Resets v ∧ SameWindow (m.validateOrder v).2 vs

/-! ## The manager as a counter -/

def counter (m : BinanceRiskManager) : Counter := ⟨m.lastOrdersTimestamp, m.orderCount⟩

/-- The manager with another counter. -/
def withCounter (m : BinanceRiskManager) (c : Counter) : BinanceRiskManager :=
  { m with lastOrdersTimestamp := c.start, orderCount := c.count }

variable {m : BinanceRiskManager} {v : Validation} {vs : List Validation}

theorem startWindow_eq (m : BinanceRiskManager) (now : Int) :
    m.startWindow now = m.withCounter (current m.width m.counter now) := by
  by_cases hexpired : Expired m.width m.counter now
  · rw [current_of_expired hexpired]
    exact if_pos hexpired
  · rw [current_of_not_expired hexpired]
    exact if_neg hexpired

/-- **The rate limit is a counter.** -/
theorem countOrder_eq (m : BinanceRiskManager) (now : Int) :
    m.countOrder now =
      (if (ask m.width m.maxOrdersPerWindow m.counter now).1 then .ok ()
        else .error (.invalidInput "Order rate limit exceeded"),
      m.withCounter (ask m.width m.maxOrdersPerWindow m.counter now).2) := by
  unfold countOrder
  rw [startWindow_eq]
  rcases ask_cases m.width m.maxOrdersPerWindow m.counter now with ⟨hfull, hask⟩ | ⟨hroom, hask⟩
  · rw [hask]
    exact if_pos hfull
  · rw [hask]
    exact if_neg (Nat.not_le.mpr hroom)

/-- Without balance the counter is not asked. -/
theorem validateOrder_of_unavailable (h : v.available = false) : ∃ e, m.validateOrder v = (.error e, m) := by
  unfold Validation.available at h
  unfold validateOrder
  dsimp only
  cases hmax : v.calculateMaxOrders v.order.symbol (v.order.price.getD 0) v.order.quantity with
  | error e => exact ⟨e, rfl⟩
  | ok availableOrders =>
      cases availableOrders with
      | zero => exact ⟨_, rfl⟩
      | succ n =>
          rw [hmax] at h
          cases h

theorem validateOrder_of_available (h : v.available = true) : m.validateOrder v = m.countOrder v.now := by
  unfold Validation.available at h
  unfold validateOrder
  dsimp only
  cases hmax : v.calculateMaxOrders v.order.symbol (v.order.price.getD 0) v.order.quantity with
  | error e =>
      rw [hmax] at h
      cases h
  | ok availableOrders =>
      cases availableOrders with
      | zero =>
          rw [hmax] at h
          cases h
      | succ n => exact if_neg (Nat.succ_ne_zero n)

/-- The limits stay. -/
theorem validateOrder_frame (m : BinanceRiskManager) (v : Validation) :
    (m.validateOrder v).2.maxOrdersPerWindow = m.maxOrdersPerWindow ∧ (m.validateOrder v).2.width = m.width := by
  cases hv : v.available with
  | false =>
      obtain ⟨e, he⟩ := @validateOrder_of_unavailable m v hv
      rw [he]
      exact ⟨rfl, rfl⟩
  | true =>
      rw [validateOrder_of_available hv, countOrder_eq]
      exact ⟨rfl, rfl⟩

/-- The times at which there is balance. -/
def askedAt (vs : List Validation) : List Int := (vs.filter Validation.available).map Validation.now

theorem askedAt_of_unavailable (h : v.available = false) (vs : List Validation) : askedAt (v :: vs) = askedAt vs := by
  rw [askedAt, List.filter_cons_of_neg (by rw [h]; exact Bool.false_ne_true), ← askedAt]

theorem askedAt_of_available (h : v.available = true) (vs : List Validation) :
    askedAt (v :: vs) = v.now :: askedAt vs := by
  rw [askedAt, List.filter_cons_of_pos h, List.map_cons, ← askedAt]

theorem askedAt_pairwise (h : vs.Pairwise fun v v' => v.now ≤ v'.now) : (askedAt vs).Pairwise (· ≤ ·) := by
  unfold askedAt
  rw [List.pairwise_map]
  exact h.sublist List.filter_sublist

/-- **The accepted orders are those the counter admits.** -/
theorem accepted_eq (m : BinanceRiskManager) (vs : List Validation) :
    m.accepted vs = admitted m.width m.maxOrdersPerWindow m.counter (askedAt vs) := by
  induction vs generalizing m with
  | nil => rfl
  | cons v vs ih =>
      unfold accepted
      cases hv : v.available with
      | false =>
          obtain ⟨e, he⟩ := @validateOrder_of_unavailable m v hv
          rw [he, askedAt_of_unavailable hv]
          exact ih m
      | true =>
          rw [validateOrder_of_available hv, countOrder_eq, askedAt_of_available hv]
          rcases ask_cases m.width m.maxOrdersPerWindow m.counter v.now with ⟨_, hask⟩ | ⟨_, hask⟩
          · rw [admitted_of_refused hask, hask]
            exact ih _
          · rw [admitted_of_counted hask, hask]
            exact congrArg _ (ih _)

theorem oneWindow_of_sameWindow (h : m.SameWindow vs) :
    OneWindow m.width m.maxOrdersPerWindow m.counter (askedAt vs) := by
  induction vs generalizing m with
  | nil => trivial
  | cons v vs ih =>
      obtain ⟨hsame, hrest⟩ := h
      have hnext := ih hrest
      cases hv : v.available with
      | false =>
          obtain ⟨e, he⟩ := @validateOrder_of_unavailable m v hv
          rw [he] at hnext
          rw [askedAt_of_unavailable hv]
          exact hnext
      | true =>
          rw [validateOrder_of_available hv, countOrder_eq] at hnext
          rw [askedAt_of_available hv]
          exact ⟨fun hexpired => hsame ⟨hv, hexpired⟩, hnext⟩

theorem after_frame (m : BinanceRiskManager) (vs : List Validation) :
    (m.after vs).maxOrdersPerWindow = m.maxOrdersPerWindow ∧ (m.after vs).width = m.width := by
  induction vs generalizing m with
  | nil => exact ⟨rfl, rfl⟩
  | cons v vs ih =>
      obtain ⟨hmax, hwidth⟩ := validateOrder_frame m v
      obtain ⟨hmax', hwidth'⟩ := ih (m.validateOrder v).2
      exact ⟨hmax'.trans hmax, hwidth'.trans hwidth⟩

@[simp] theorem after_concat (m : BinanceRiskManager) (vs : List Validation) (v : Validation) :
    m.after (vs ++ [v]) = ((m.after vs).validateOrder v).2 := by
  unfold after
  rw [List.foldl_append]
  rfl

/-! ## A stretch without a reset -/

/-- After a call the window has at most the limit of orders, and the calls until the next reset only what is left. -/
theorem accepted_stretch_le (m : BinanceRiskManager) (v : Validation) {stretch : List Validation}
    (h : (m.validateOrder v).2.SameWindow stretch) :
    (m.accepted (v :: stretch)).length ≤ m.maxOrdersPerWindow := by
  have hrest := length_admitted_le (oneWindow_of_sameWindow h)
  rw [← accepted_eq, (validateOrder_frame m v).1] at hrest
  unfold accepted
  cases hv : v.available with
  | false =>
      obtain ⟨e, he⟩ := @validateOrder_of_unavailable m v hv
      rw [he] at hrest ⊢
      exact hrest.trans (Nat.sub_le _ _)
  | true =>
      rw [validateOrder_of_available hv, countOrder_eq] at hrest ⊢
      rcases ask_cases m.width m.maxOrdersPerWindow m.counter v.now with ⟨_, hask⟩ | ⟨hroom, hask⟩
      · rw [hask] at hrest ⊢
        exact hrest.trans (Nat.sub_le _ _)
      · rw [hask] at hrest ⊢
        -- the order itself is one of those that the counter holds
        have hcount : (accepted (m.withCounter ⟨(current m.width m.counter v.now).start,
            (current m.width m.counter v.now).count + 1⟩) stretch).length ≤
              m.maxOrdersPerWindow - ((current m.width m.counter v.now).count + 1) := hrest
        dsimp only
        rw [if_pos rfl, List.length_cons]
        omega

/-- **A refused order changes no later answer.** -/
theorem accepted_after_refused {v : Validation} (h : (m.validateOrder v).1 ≠ .ok ()) (rest : List Validation) :
    (m.validateOrder v).2.accepted rest = m.accepted rest := by
  cases hv : v.available with
  | false =>
      obtain ⟨e, he⟩ := @validateOrder_of_unavailable m v hv
      rw [he]
  | true =>
      -- the counter refused it, and a counter that refuses is as before
      rw [validateOrder_of_available hv, countOrder_eq] at h ⊢
      have hrefused : (ask m.width m.maxOrdersPerWindow m.counter v.now).1 = false := by
        rw [← Bool.not_eq_true]
        exact fun hok => h (if_pos hok)
      rw [accepted_eq, accepted_eq]
      exact admitted_after_refused hrefused _

/-- **What the rate limit keeps.** On a clock that does not go back, no interval of the window's length has more than
twice the limit of accepted orders; between one reset and the next there are at most the limit; and a refused order
changes no later answer. -/
theorem orders_limited (m : BinanceRiskManager) (vs : List Validation)
    (hclock : vs.Pairwise fun v v' => v.now ≤ v'.now) :
    (∀ start : Int, within m.width start (m.accepted vs) ≤ 2 * m.maxOrdersPerWindow) ∧
    (∀ before v stretch rest, vs = before ++ v :: stretch ++ rest →
      ((m.after before).validateOrder v).2.SameWindow stretch →
        ((m.after before).accepted (v :: stretch)).length ≤ m.maxOrdersPerWindow) ∧
    (∀ before v rest, vs = before ++ v :: rest → ((m.after before).validateOrder v).1 ≠ .ok () →
      (m.after (before ++ [v])).accepted rest = (m.after before).accepted rest) := by
  refine ⟨fun start => ?_, fun before v stretch _ _ hsame => ?_, fun before v rest _ hrefused => ?_⟩
  · rw [accepted_eq]
    exact within_admitted_le m.counter (askedAt_pairwise hclock) start
  · have hle := accepted_stretch_le (m.after before) v hsame
    rwa [(after_frame m before).1] at hle
  · rw [after_concat]
    exact accepted_after_refused hrefused rest

/-- Two orders for a second, since some midnight. -/
def twoForSecond : BinanceRiskManager := ⟨2, 1000, 1704067200000, 0⟩

/-- An order for which there is balance, some milliseconds later. -/
def affordable (ms : Int) : Validation :=
  ⟨⟨"BTCUSDT", .buy, .limit, 1, some 100, "GTC"⟩, fun _ _ _ => .ok 5, 1704067200000 + ms⟩

theorem orders_limited_two_windows :
    within twoForSecond.width 1704067201000
      (twoForSecond.accepted [affordable 500, affordable 1000, affordable 1001, affordable 1001, affordable 1002]) ≤
        2 * twoForSecond.maxOrdersPerWindow :=
  (orders_limited twoForSecond
    [affordable 500, affordable 1000, affordable 1001, affordable 1001, affordable 1002] (by decide +kernel)).1
      1704067201000

/-- The window of a counter ends a moment after the first order of the interval: the interval holds four of two. -/
theorem window_straddled :
    [affordable 1000, affordable 1000, affordable 1001, affordable 1001].Pairwise (fun v v' => v.now ≤ v'.now) ∧
    within twoForSecond.width 1704067201000
      (twoForSecond.accepted [affordable 1000, affordable 1000, affordable 1001, affordable 1001]) = 4 ∧
    ¬ 4 ≤ twoForSecond.maxOrdersPerWindow := by decide +kernel

end BinanceRiskManager

end Maker
end TradingPlatform
