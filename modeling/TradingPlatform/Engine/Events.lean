import TradingPlatform.Engine.Book
import Mathlib.Data.List.Infix

/-!
# `Engine.Events` — replaying the event stream order by order

An order-level book keeps every order that was added, under its id. `Cancel` and `Execute` name an order by
id, and every event the engine emits has a fresh id: so neither ever names an order that was added, and a
stream replays exactly when it holds nothing but `Add`s (`replayEvents_emitted`). That is so as long as no level
shrinks. The orders then add up to the L2 levels as far as the rounding of what was added allows: 0.2 and the
rounded difference of 0.9 and 0.2 are less than 0.9.
-/

namespace TradingPlatform
namespace Engine

open Market Ladder Rust MatchingEngine

/-! ## The order-level book -/

structure Order where
  orderId  : Nat
  side     : Side
  price    : ℚ
  quantity : ℚ
deriving DecidableEq, Repr

/-- One event. `Add` creates the order; the others are defined when their id names a live order. -/
def applyEvent (orders : List Order) : OrderEvent → Option (List Order)
  | .add orderId side price quantity _ => some (orders ++ [{ orderId, side, price, quantity }])
  | .modify orderId newQuantity _ =>
      if ∃ o ∈ orders, o.orderId = orderId then
        some (orders.map fun o => if o.orderId = orderId then { o with quantity := newQuantity } else o)
      else none
  | .cancel orderId _ =>
      if ∃ o ∈ orders, o.orderId = orderId then some (orders.filter fun o => o.orderId ≠ orderId) else none
  | .execute orderId executedQuantity _ =>
      if ∃ o ∈ orders, o.orderId = orderId then
        some (orders.map fun o =>
          if o.orderId = orderId then { o with quantity := o.quantity - executedQuantity } else o)
      else none

def replayEvents (orders : List Order) (events : List OrderEvent) : Option (List Order) :=
  events.foldlM applyEvent orders

/-- How the quantities of orders are added up: exactly, or as `f64`s one after the other. -/
inductive Summing where
  | exact
  | rounded
deriving DecidableEq

def Summing.round : Summing → ℚ → ℚ
  | .exact, x   => x
  | .rounded, x => binary64.round x

/-- One more order counts for its side and price. -/
def sumOrder (summing : Summing) (side : Side) (price : ℚ) (sum : ℚ) (o : Order) : ℚ :=
  if o.side = side ∧ o.price = price then summing.round (sum + o.quantity) else sum

/-- The sum of the orders at a price. -/
def sumAt (summing : Summing) (side : Side) (price : ℚ) (orders : List Order) : ℚ :=
  orders.foldl (sumOrder summing side price) 0

/-- The quantity a list of levels shows at a price. -/
def quantityAt (levels : List PriceLevel) (price : ℚ) : ℚ :=
  ((levels.find? fun l => l.price = price).map PriceLevel.quantity).getD 0

/-- **The events of the run replay, and the orders add up to the engine's levels.** -/
def Reproduces (summing : Summing) (symbol : String) (updates : List OrderBookUpdate) : Prop :=
  ∃ orders, replayEvents [] (emitted updates) = some orders ∧
    ∀ side price, sumAt summing side price orders = quantityAt ((after updates).levels side symbol) price

/-! ## Runs that only grow -/

/-- Every level asks for at least what the map holds at its price when its turn comes. -/
def GrowsBy (m : LevelMap) : List PriceLevel → Prop
  | []      => True
  | l :: ls => held m l.price ≤ l.quantity ∧ GrowsBy (setLevel m l) ls

/-- A sum of orders at the price, after a level has asked for more there. -/
def raise (summing : Summing) (m : LevelMap) (price : ℚ) (sum : ℚ) (l : PriceLevel) : ℚ :=
  if l.price = price ∧ held m price < l.quantity then summing.round (sum + missing m l) else sum

/-- The sum after all levels of an update, on one side; for prices that are named once see `raiseAll_eq_iff`. -/
def raiseAll (summing : Summing) (m : LevelMap) (price : ℚ) (sum : ℚ) : List PriceLevel → ℚ
  | []      => sum
  | l :: ls => raiseAll summing (setLevel m l) price (raise summing m price sum l) ls

/-- A snapshot meets empty maps, on each side every level grows, and what is added at a price adds up. -/
structure Grows (summing : Summing) (m : Side → LevelMap) (u : OrderBookUpdate) : Prop where
  fresh  : u.isSnapshot = true → ∀ side price, m side price = none
  levels : ∀ side, GrowsBy (m side) (u.side side)
  sums   : ∀ side price, raiseAll summing (m side) price (held (m side) price) (u.side side) =
    held (referenceStep side (m side) u) price

/-- Every update of the run grows what those before it made. -/
def OnlyGrows (summing : Summing) (symbol : String) (updates : List OrderBookUpdate) : Prop :=
  ∀ earlier u later, updates = earlier ++ u :: later →
    Grows summing (fun side => reference side symbol earlier) u

variable {summing : Summing}

theorem onlyGrows_nil (summing : Summing) (symbol : String) : OnlyGrows summing symbol [] := by
  intro earlier u later h
  simp at h

theorem onlyGrows_snoc {symbol : String} {updates : List OrderBookUpdate} {u : OrderBookUpdate} :
    OnlyGrows summing symbol (updates ++ [u]) ↔
      OnlyGrows summing symbol updates ∧ Grows summing (fun side => reference side symbol updates) u := by
  constructor
  · intro h
    refine ⟨?_, h updates u [] rfl⟩
    intro earlier v later heq
    exact h earlier v (later ++ [u]) (by rw [heq]; simp)
  · rintro ⟨hprev, hlast⟩ earlier v later heq
    rcases List.eq_nil_or_concat later with rfl | ⟨later', last, rfl⟩
    · obtain ⟨rfl, hv⟩ := List.append_inj' heq rfl
      exact List.singleton_inj.mp hv ▸ hlast
    · have hsplit : updates ++ [u] = (earlier ++ v :: later') ++ [last] := by
        rw [heq]
        simp
      exact hprev earlier v later' (List.append_inj' hsplit rfl).1

/-! ## What replays -/

def OrderEvent.isAdd : OrderEvent → Bool
  | .add .. => true
  | _       => false

/-- The order an `Add` creates. -/
def OrderEvent.order? : OrderEvent → Option Order
  | .add orderId side price quantity _ => some { orderId, side, price, quantity }
  | _                                  => none

def Adds (events : List OrderEvent) : Prop := ∀ event ∈ events, event.isAdd = true

@[simp] theorem adds_nil : Adds [] := by simp [Adds]

@[simp] theorem adds_cons {event : OrderEvent} {events : List OrderEvent} :
    Adds (event :: events) ↔ event.isAdd = true ∧ Adds events := by simp [Adds]

@[simp] theorem adds_append {events events' : List OrderEvent} :
    Adds (events ++ events') ↔ Adds events ∧ Adds events' := by
  simp [Adds, or_imp, forall_and]

/-- An event under an id that no live order has is defined only if it is an `Add`. -/
theorem applyEvent_fresh {orders : List Order} {event : OrderEvent} (h : ∀ o ∈ orders, o.orderId < event.orderId) :
    applyEvent orders event = event.order?.map fun o => orders ++ [o] := by
  have hdead : ¬ ∃ o ∈ orders, o.orderId = event.orderId := by
    rintro ⟨o, ho, heq⟩
    exact Nat.lt_irrefl _ (heq ▸ h o ho)
  cases event with
  | add => rfl
  | modify orderId newQuantity timestamp => exact if_neg hdead
  | cancel orderId timestamp => exact if_neg hdead
  | execute orderId executedQuantity timestamp => exact if_neg hdead

theorem orderId_of_order? {event : OrderEvent} {o : Order} (h : event.order? = some o) :
    o.orderId = event.orderId ∧ event.isAdd = true := by
  cases event with
  | add =>
      obtain rfl := Option.some.inj h
      exact ⟨rfl, rfl⟩
  | modify => cases h
  | cancel => cases h
  | execute => cases h

/-- **Numbered events replay exactly when all of them are `Add`s.** -/
theorem replayEvents_eq_some_iff {old new : Nat} {events : List OrderEvent} (h : Numbered old new events)
    {orders orders' : List Order} (hlive : ∀ o ∈ orders, o.orderId ≤ old) :
    replayEvents orders events = some orders' ↔
      Adds events ∧ orders' = orders ++ events.filterMap OrderEvent.order? := by
  induction events generalizing old orders with
  | nil => simp [replayEvents, eq_comm]
  | cons event events ih =>
      have hid := h.bounds event List.mem_cons_self
      have hinc := List.pairwise_cons.mp (List.map_cons ▸ h.increasing)
      have hrest : Numbered event.orderId new events :=
        ⟨hid.2, fun e he => ⟨hinc.1 _ (List.mem_map_of_mem he), (h.bounds e (List.mem_cons_of_mem _ he)).2⟩, hinc.2⟩
      have happly : applyEvent orders event = event.order?.map fun o => orders ++ [o] :=
        applyEvent_fresh fun o ho => (hlive o ho).trans_lt hid.1
      unfold replayEvents at ih ⊢
      rw [List.foldlM_cons, happly]
      cases horder : event.order? with
      | none =>
          have hnot : event.isAdd = false := by cases event <;> first | rfl | cases horder
          simp [hnot]
      | some o =>
          obtain ⟨hoid, hadd⟩ := orderId_of_order? horder
          have hlive' : ∀ x ∈ orders ++ [o], x.orderId ≤ event.orderId := by
            intro x hx
            rcases List.mem_append.mp hx with hx | hx
            · exact Nat.le_of_lt ((hlive x hx).trans_lt hid.1)
            · rw [List.mem_singleton.mp hx, hoid]
          show (List.foldlM applyEvent (orders ++ [o]) events = some orders') ↔ _
          rw [ih hrest hlive']
          simp [hadd, horder]

theorem replayEvents_emitted {updates : List OrderBookUpdate} {orders : List Order} :
    replayEvents [] (emitted updates) = some orders ↔
      Adds (emitted updates) ∧ orders = (emitted updates).filterMap OrderEvent.order? := by
  have h : replayEvents [] (emitted updates) = some orders ↔
      Adds (emitted updates) ∧ orders = [] ++ (emitted updates).filterMap OrderEvent.order? :=
    replayEvents_eq_some_iff (emitted_numbered updates) (by simp)
  rwa [List.nil_append] at h

/-! ## What is added -/

/-- What the `Add`s among the events make of a sum of orders at a price. -/
def addedAt (summing : Summing) (side : Side) (price : ℚ) (sum : ℚ) (events : List OrderEvent) : ℚ :=
  (events.filterMap OrderEvent.order?).foldl (sumOrder summing side price) sum

@[simp] theorem addedAt_nil (side : Side) (price sum : ℚ) : addedAt summing side price sum [] = sum := rfl

theorem addedAt_append (side : Side) (price sum : ℚ) (events events' : List OrderEvent) :
    addedAt summing side price sum (events ++ events') =
      addedAt summing side price (addedAt summing side price sum events) events' := by
  unfold addedAt
  rw [List.filterMap_append, List.foldl_append]

@[simp] theorem addedAt_add (side side' : Side) (price price' sum quantity : ℚ) (orderId : Nat) (timestamp : Int) :
    addedAt summing side price sum [.add orderId side' price' quantity timestamp]
      = if side' = side ∧ price' = price then summing.round (sum + quantity) else sum := rfl

theorem setLevel_of_ne {m : LevelMap} {l : PriceLevel} {price : ℚ} (h : l.price ≠ price) :
    setLevel m l price = m price :=
  Function.update_of_ne h.symm _ _

theorem held_setLevel (m : LevelMap) (l : PriceLevel) (price : ℚ) :
    held (setLevel m l) price = if l.price = price then l.quantity else held m price := by
  unfold held setLevel assign
  by_cases hprice : l.price = price
  · subst hprice
    by_cases hzero : l.quantity = 0 <;> simp [PriceLevel.write, hzero]
  · rw [Function.update_of_ne (show price ≠ l.write.1 from Ne.symm hprice), if_neg hprice]

/-! Prices that an update names once -/

theorem raiseAll_of_ne {m : LevelMap} {us : List PriceLevel} {price : ℚ} (h : ∀ l ∈ us, l.price ≠ price) (sum : ℚ) :
    raiseAll summing m price sum us = sum ∧ us.foldl setLevel m price = m price := by
  induction us generalizing m with
  | nil => exact ⟨rfl, rfl⟩
  | cons u us ih =>
      obtain ⟨hu, hus⟩ := List.forall_mem_cons.mp h
      obtain ⟨hsum, hmap⟩ := @ih (setLevel m u) hus
      rw [raiseAll, raise, if_neg fun hboth => hu hboth.1, List.foldl_cons, hmap, setLevel_of_ne hu]
      exact ⟨hsum, rfl⟩

theorem raiseAll_of_mem {m : LevelMap} {us : List PriceLevel} (hnodup : (us.map PriceLevel.price).Nodup)
    {l : PriceLevel} (hl : l ∈ us) (sum : ℚ) :
    raiseAll summing m l.price sum us = raise summing m l.price sum l ∧
      held (us.foldl setLevel m) l.price = l.quantity := by
  induction us generalizing m with
  | nil => cases hl
  | cons u us ih =>
      obtain ⟨hnew, hnodup⟩ := List.nodup_cons.mp hnodup
      have hother : ∀ x ∈ us, x.price ≠ u.price := fun x hx heq => hnew (heq ▸ List.mem_map_of_mem hx)
      rcases List.mem_cons.mp hl with rfl | hl
      · obtain ⟨hsum, hmap⟩ := @raiseAll_of_ne summing (setLevel m l) _ _ hother (raise summing m l.price sum l)
        refine ⟨hsum, ?_⟩
        rw [held, List.foldl_cons, hmap]
        exact (held_setLevel m l l.price).trans (if_pos rfl)
      · have hne : u.price ≠ l.price := (hother l hl).symm
        obtain ⟨hsum, hheld⟩ := @ih (setLevel m u) hnodup hl
        have hsame : setLevel m u l.price = m l.price := setLevel_of_ne hne
        rw [raiseAll, show raise summing m l.price sum u = sum from if_neg fun hboth => hne hboth.1, hsum,
          List.foldl_cons]
        refine ⟨?_, hheld⟩
        unfold raise missing held
        rw [hsame]

/-- The sums are those the map holds in the end when at every level that grows the old quantity and what is missing
    add up to the new one. -/
theorem raiseAll_eq_iff {m : LevelMap} {us : List PriceLevel} (hnodup : (us.map PriceLevel.price).Nodup)
    (hgrows : ∀ l ∈ us, held m l.price ≤ l.quantity) :
    (∀ price, raiseAll summing m price (held m price) us = held (us.foldl setLevel m) price) ↔
      ∀ l ∈ us, held m l.price < l.quantity → summing.round (held m l.price + missing m l) = l.quantity := by
  constructor
  · intro h l hl hlt
    obtain ⟨hsum, hheld⟩ := @raiseAll_of_mem summing m _ hnodup l hl (held m l.price)
    rw [← hheld, ← h, hsum, raise, if_pos ⟨rfl, hlt⟩]
  · intro h price
    by_cases hprice : ∃ l ∈ us, l.price = price
    · obtain ⟨l, hl, rfl⟩ := hprice
      obtain ⟨hsum, hheld⟩ := @raiseAll_of_mem summing m _ hnodup l hl (held m l.price)
      rw [hsum, hheld, raise]
      split_ifs with hboth
      · exact h l hl hboth.2
      · exact le_antisymm (hgrows l hl) (not_lt.mp fun hlt => hboth ⟨rfl, hlt⟩)
    · have hne : ∀ l ∈ us, l.price ≠ price := fun l hl heq => hprice ⟨l, hl, heq⟩
      obtain ⟨hsum, hmap⟩ := @raiseAll_of_ne summing m _ _ hne (held m price)
      rw [hsum, held, held, hmap]

/-- As `f64`s, 0.2 and the difference of 0.9 and 0.2 do not add up to 0.9. -/
example : let q : ℚ → ℚ := binary64.round
    q (q 0.2 + q (q 0.9 - q 0.2)) < q 0.9 := by decide +kernel

section Side

variable {side : Side} {grid : ℚ} {s : SideState} {m : LevelMap}

/-- One level: it emits no more than an `Add` exactly when it does not shrink, and then raises the sum at its price. -/
theorem processLevel_adds (hs : SideBook side grid s.levels m) {u : PriceLevel} (hgrid : epsilon < grid)
    (hu : OnGrid grid u.price) (hq : 0 ≤ u.quantity) (timestamp : Int) :
    (Adds (processLevel side timestamp s u).2 ↔ held m u.price ≤ u.quantity) ∧
      (held m u.price ≤ u.quantity → ∀ side' price sum,
        addedAt summing side' price sum (processLevel side timestamp s u).2
          = if side = side' then raise summing m price sum u else sum) := by
  obtain ⟨levels, _, hcases⟩ := processLevel_cases hs hgrid hu hq timestamp
  rcases hcases with ⟨hsame, heq⟩ | ⟨hlt, heq⟩ | ⟨hgt, event, hevent, heq⟩
  · -- as it was
    rw [heq]
    refine ⟨by simp [hsame], ?_⟩
    intro _ side' price sum
    have hno : ¬ (u.price = price ∧ held m price < u.quantity) := by
      rintro ⟨rfl, hlt⟩
      exact absurd hsame.le (not_le.mpr hlt)
    rw [raise, if_neg hno, ite_self]
    rfl
  · -- raised or new
    rw [heq]
    refine ⟨by simp [OrderEvent.isAdd, le_of_lt hlt], ?_⟩
    intro _ side' price sum
    rw [addedAt_add, raise]
    by_cases hprice : u.price = price
    · subst hprice
      simp [hlt]
    · simp [hprice]
  · -- removed or lowered
    rw [heq]
    have hnot : event.isAdd = false := by rcases hevent with rfl | rfl <;> rfl
    refine ⟨by simp [hnot, hgt], ?_⟩
    intro hle
    exact absurd hgt (not_lt.mpr hle)

/-- The levels of one update on one side. -/
theorem processSideUpdates_adds (hs : SideBook side grid s.levels m) (hgrid : epsilon < grid) {us : List PriceLevel}
    (hu : ∀ l ∈ us, OnGrid grid l.price) (hq : ∀ l ∈ us, 0 ≤ l.quantity) (timestamp : Int) :
    (Adds (processSideUpdates side timestamp s us).2 ↔ GrowsBy m us) ∧
      (GrowsBy m us → ∀ side' price sum,
        addedAt summing side' price sum (processSideUpdates side timestamp s us).2
          = if side = side' then raiseAll summing m price sum us else sum) := by
  induction us generalizing s m with
  | nil =>
      refine ⟨by simp [processSideUpdates, GrowsBy], ?_⟩
      intro _ side' price sum
      simp [processSideUpdates, raiseAll]
  | cons l ls ih =>
      have hl := hu l List.mem_cons_self
      have hlq := hq l List.mem_cons_self
      obtain ⟨hadds, hadded⟩ := @processLevel_adds summing _ _ _ _ hs l hgrid hl hlq timestamp
      obtain ⟨ihadds, ihadded⟩ := ih (hs.processLevel hgrid hl hlq timestamp)
        (fun x hx => hu x (List.mem_cons_of_mem _ hx)) fun x hx => hq x (List.mem_cons_of_mem _ hx)
      have hevents : (processSideUpdates side timestamp s (l :: ls)).2 = (processLevel side timestamp s l).2
          ++ (processSideUpdates side timestamp (processLevel side timestamp s l).1 ls).2 := rfl
      rw [hevents]
      refine ⟨by rw [adds_append, hadds, ihadds]; rfl, ?_⟩
      intro hgrows side' price sum
      rw [addedAt_append, hadded hgrows.1, ihadded hgrows.2]
      split_ifs
      · rfl
      · rfl

end Side

/-! ## Clearing -/

/-- Clearing levels of positive quantity emits a `Cancel` for each. -/
theorem run_clearLevel_adds (side : Side) (timestamp : Int) (counter : Nat) {levels : List PriceLevel}
    (hpos : ∀ l ∈ levels, 0 < l.quantity) :
    Adds (Machine.run (clearLevel side timestamp) counter levels).2 ↔ levels = [] := by
  cases levels with
  | nil => simp
  | cons l ls =>
      have hl : 0 < l.quantity := hpos l List.mem_cons_self
      simp [clearLevel, hl, generateCancelEvent, OrderEvent.isAdd]

/-- Clearing adds nothing. -/
theorem addedAt_run_clearLevel (side side' : Side) (timestamp : Int) (price : ℚ) (counter : Nat)
    (levels : List PriceLevel) (sum : ℚ) :
    addedAt summing side' price sum (Machine.run (clearLevel side timestamp) counter levels).2 = sum := by
  induction levels generalizing counter sum with
  | nil => rfl
  | cons l ls ih =>
      rw [Machine.run_cons, addedAt_append, ih]
      unfold clearLevel
      split_ifs
      · rfl
      · rfl

theorem SideBook.eq_nil_iff {side : Side} {grid : ℚ} {levels : List PriceLevel} {m : LevelMap}
    (h : SideBook side grid levels m) : levels = [] ↔ ∀ price, m price = none := by
  constructor
  · rintro rfl price
    exact h.notFound (by simp)
  · intro hm
    apply List.eq_nil_iff_forall_not_mem.mpr
    intro l hl
    have hsome := (h.mem_iff l).mp hl
    rw [hm] at hsome
    cases hsome

/-- What the levels show is what the map holds. -/
theorem SideBook.quantityAt {side : Side} {grid : ℚ} {levels : List PriceLevel} {m : LevelMap}
    (h : SideBook side grid levels m) (price : ℚ) : Engine.quantityAt levels price = held m price := by
  unfold Engine.quantityAt held
  cases hfind : levels.find? (fun l => l.price = price) with
  | none =>
      have hnew : ∀ l ∈ levels, l.price ≠ price := by simpa using hfind
      rw [h.notFound hnew]
      rfl
  | some l =>
      have hprice : l.price = price := by simpa using List.find?_some hfind
      rw [← hprice, (h.mem_iff l).mp (List.mem_of_find?_eq_some hfind)]
      rfl

namespace MatchingEngine

variable {grid : ℚ} {e : MatchingEngine} {u : OrderBookUpdate} {m : Side → LevelMap}

/-- A snapshot emits no `Cancel` exactly when it meets an empty book. -/
theorem clearOnSnapshot_adds (h : ∀ side, SideBook side grid (e.levels side u.symbol) (m side)) :
    Adds (e.clearOnSnapshot u).2.2 ↔ (u.isSnapshot = true → ∀ side price, m side price = none) := by
  unfold clearOnSnapshot
  by_cases hsnap : u.isSnapshot = true
  · have hside : ∀ side, (e.bookOf u.symbol u.exchange).side side = e.levels side u.symbol := by
      intro side
      unfold bookOf levels getOrderBook
      cases e.orderBooks u.symbol <;> cases side <;> rfl
    have hbids : (e.bookOf u.symbol u.exchange).bids = e.levels .buy u.symbol := hside .buy
    have hasks : (e.bookOf u.symbol u.exchange).asks = e.levels .sell u.symbol := hside .sell
    rw [if_pos hsnap]
    simp only [generateClearEvents, adds_append, hbids, hasks,
      run_clearLevel_adds _ _ _ (h .buy).positive, run_clearLevel_adds _ _ _ (h .sell).positive,
      (h .buy).eq_nil_iff, (h .sell).eq_nil_iff]
    constructor
    · rintro ⟨hbuy, hsell⟩ _ side
      cases side
      · exact hbuy
      · exact hsell
    · intro hall
      exact ⟨hall hsnap .buy, hall hsnap .sell⟩
  · rw [if_neg hsnap]
    simp [hsnap]

/-- What an update asks for can be added: a snapshot meets empty maps, and no level shrinks. -/
def Addable (m : Side → LevelMap) (u : OrderBookUpdate) : Prop :=
  (u.isSnapshot = true → ∀ side price, m side price = none) ∧ ∀ side, GrowsBy (m side) (u.side side)

/-- **One call** emits nothing but `Add`s exactly when no level shrinks, and then raises the sums at every price. -/
theorem processL2Update_adds (h : ∀ side, SideBook side grid (e.levels side u.symbol) (m side))
    (hu : WellPriced grid u) :
    (Adds (e.processL2Update u).2 ↔ Addable m u) ∧
      (Addable m u → ∀ side price sum, addedAt summing side price sum (e.processL2Update u).2
        = raiseAll summing (m side) price sum (u.side side)) := by
  have hstart : ∀ side, SideBook side grid (e.startLevels side u) (if u.isSnapshot then fun _ => none else m side) := by
    intro side
    unfold startLevels
    split_ifs
    · exact sideBook_nil side grid
    · exact h side
  -- where a snapshot meets empty maps, both sides start from the maps themselves
  have hsame : (u.isSnapshot = true → ∀ side price, m side price = none) →
      ∀ side, (if u.isSnapshot then fun _ => none else m side) = m side := by
    intro hfresh side
    split_ifs with hsnap
    · funext price
      exact (hfresh hsnap side price).symm
    · rfl
  have hrun := fun side orderIdCounter => @processSideUpdates_adds summing side grid
    { orderIdCounter, levels := e.startLevels side u } _ (hstart side) hu.coarse _ (hu.onGrid side) (hu.nonneg side)
    u.timestamp
  have hbids : e.processBids u = processSideUpdates .buy u.timestamp
      { orderIdCounter := (e.clearOnSnapshot u).1, levels := e.startLevels .buy u } (u.side .buy) := by
    rw [← side_clearOnSnapshot]
    rfl
  have hasks : e.processAsks u = processSideUpdates .sell u.timestamp
      { orderIdCounter := (e.processBids u).1.orderIdCounter, levels := e.startLevels .sell u } (u.side .sell) := by
    rw [← side_clearOnSnapshot]
    rfl
  have hevents : (e.processL2Update u).2
      = (e.clearOnSnapshot u).2.2 ++ (e.processBids u).2 ++ (e.processAsks u).2 := rfl
  obtain ⟨hbidAdds, hbidAdded⟩ := hrun .buy (e.clearOnSnapshot u).1
  obtain ⟨haskAdds, haskAdded⟩ := hrun .sell (e.processBids u).1.orderIdCounter
  rw [← hbids] at hbidAdds hbidAdded
  rw [← hasks] at haskAdds haskAdded
  constructor
  · rw [hevents, adds_append, adds_append, clearOnSnapshot_adds h]
    constructor
    · rintro ⟨⟨hfresh, hb⟩, ha⟩
      refine ⟨hfresh, ?_⟩
      intro side
      rw [← hsame hfresh side]
      cases side
      · exact hbidAdds.mp hb
      · exact haskAdds.mp ha
    · rintro ⟨hfresh, hlevels⟩
      refine ⟨⟨hfresh, hbidAdds.mpr ?_⟩, haskAdds.mpr ?_⟩
      · rw [hsame hfresh .buy]
        exact hlevels .buy
      · rw [hsame hfresh .sell]
        exact hlevels .sell
  · rintro ⟨hfresh, hlevels⟩ side price sum
    have hclear : addedAt summing side price sum (e.clearOnSnapshot u).2.2 = sum := by
      unfold clearOnSnapshot
      dsimp only
      split_ifs
      · simp [generateClearEvents, addedAt_append, addedAt_run_clearLevel]
      · rfl
    rw [hsame hfresh .buy] at hbidAdded
    rw [hsame hfresh .sell] at haskAdded
    rw [hevents, addedAt_append, addedAt_append, hclear, hbidAdded (hlevels .buy), haskAdded (hlevels .sell)]
    cases side <;> simp

/-! ## Whole runs -/

variable {symbol : String} {updates : List OrderBookUpdate}

theorem sideBook_after (h : ∀ u ∈ updates, u.symbol = symbol ∧ WellPriced grid u) (side : Side) :
    SideBook side grid ((after updates).levels side symbol) (reference side symbol updates) :=
  @engineBook_run (fun _ => grid) _ (fun u hu => (h u hu).2) side symbol

/-- A run reproduces its book when all its events are `Add`s, and they add up to the reference. -/
theorem reproduces_iff (h : ∀ u ∈ updates, u.symbol = symbol ∧ WellPriced grid u) :
    Reproduces summing symbol updates ↔ Adds (emitted updates) ∧
      ∀ side price, addedAt summing side price 0 (emitted updates) = held (reference side symbol updates) price := by
  unfold Reproduces
  simp only [replayEvents_emitted, fun side price => (sideBook_after h side).quantityAt price]
  constructor
  · rintro ⟨orders, ⟨hadds, rfl⟩, hsums⟩
    exact ⟨hadds, hsums⟩
  · rintro ⟨hadds, hsums⟩
    exact ⟨_, ⟨hadds, rfl⟩, hsums⟩

/-- One more update keeps the book reproduced exactly when it grows. -/
theorem reproduces_snoc_iff {u : OrderBookUpdate} (h : ∀ x ∈ updates ++ [u], x.symbol = symbol ∧ WellPriced grid x)
    (hreproduces : Reproduces summing symbol updates) :
    Reproduces summing symbol (updates ++ [u]) ↔ Grows summing (fun side => reference side symbol updates) u := by
  have hprev : ∀ x ∈ updates, x.symbol = symbol ∧ WellPriced grid x := fun x hx => h x (List.mem_append_left _ hx)
  obtain ⟨rfl, hu⟩ := h u (by simp)
  obtain ⟨hadds, hsums⟩ := (reproduces_iff hprev).mp hreproduces
  obtain ⟨huadds, hadded⟩ := @processL2Update_adds summing _ _ _ _ (sideBook_after hprev) hu
  rw [reproduces_iff h, emitted_snoc, adds_append, and_iff_right hadds, huadds]
  simp only [addedAt_append, hsums, reference_snoc, if_true]
  constructor
  · rintro ⟨haddable, hheld⟩
    exact ⟨haddable.1, haddable.2, fun side price => (hadded haddable side price _).symm.trans (hheld side price)⟩
  · intro hgrows
    have haddable : Addable (fun side => reference side u.symbol updates) u := ⟨hgrows.fresh, hgrows.levels⟩
    exact ⟨haddable, fun side price => (hadded haddable side price _).trans (hgrows.sums side price)⟩

/-- **The event stream reproduces the book after every call exactly when no level ever shrinks** and what is added
    adds up, whichever way it is added up. -/
theorem event_stream_reproduces_book_iff (summing : Summing)
    (h : ∀ u ∈ updates, u.symbol = symbol ∧ WellPriced grid u) :
    (∀ earlier, earlier <+: updates → Reproduces summing symbol earlier) ↔ OnlyGrows summing symbol updates := by
  induction updates using List.reverseRecOn with
  | nil =>
      refine iff_of_true (fun earlier hearlier => ?_) (onlyGrows_nil summing symbol)
      rw [List.prefix_nil.mp hearlier]
      exact (reproduces_iff h).mpr ⟨adds_nil, fun _ _ => rfl⟩
  | append_singleton updates u ih =>
      have ih := ih fun x hx => h x (List.mem_append_left _ hx)
      rw [onlyGrows_snoc, ← ih]
      constructor
      · intro hall
        have hearlier : ∀ earlier, earlier <+: updates → Reproduces summing symbol earlier :=
          fun earlier hearlier => hall earlier (hearlier.trans (List.prefix_append _ _))
        exact ⟨hearlier, (reproduces_snoc_iff h (hearlier updates List.prefix_rfl)).mp (hall _ List.prefix_rfl)⟩
      · rintro ⟨hearlier, hgrows⟩ earlier hprefixed
        rcases List.prefix_concat_iff.mp hprefixed with rfl | hshorter
        · exact (reproduces_snoc_iff h (hearlier updates List.prefix_rfl)).mpr hgrows
        · exact hearlier earlier hshorter

/-- Two quotes, the second twice the first. -/
def doubledQuote : List OrderBookUpdate := [quote true ⟨100, 1⟩ ⟨101, 1⟩, quote false ⟨100, 2⟩ ⟨101, 2⟩]

/-- A quote grows maps if each of its two levels does, and what is missing at it adds up. -/
theorem grows_quote {m : Side → LevelMap} {isSnapshot : Bool} {bid ask : PriceLevel}
    (hfresh : isSnapshot = true → ∀ side price, m side price = none)
    (hgrows : ∀ side, ∀ l ∈ (quote isSnapshot bid ask).side side, held (m side) l.price ≤ l.quantity)
    (hadds : ∀ side, ∀ l ∈ (quote isSnapshot bid ask).side side, held (m side) l.price < l.quantity →
      summing.round (held (m side) l.price + missing (m side) l) = l.quantity) :
    Grows summing m (quote isSnapshot bid ask) := by
  have hside : ∀ side, ∃ l, (quote isSnapshot bid ask).side side = [l] := by
    intro side
    cases side
    · exact ⟨bid, rfl⟩
    · exact ⟨ask, rfl⟩
  refine ⟨hfresh, fun side => ?_, fun side => ?_⟩
  · obtain ⟨l, hl⟩ := hside side
    rw [hl]
    exact ⟨hgrows side l (by rw [hl]; exact List.mem_singleton_self l), trivial⟩
  · have hstart : (if (quote isSnapshot bid ask).isSnapshot then fun _ => none else m side) = m side := by
      split_ifs with hsnap
      · exact funext fun price => (hfresh hsnap side price).symm
      · rfl
    have hnodup : (((quote isSnapshot bid ask).side side).map PriceLevel.price).Nodup := by
      obtain ⟨l, hl⟩ := hside side
      rw [hl]
      exact List.nodup_singleton _
    unfold referenceStep
    rw [hstart]
    exact (raiseAll_eq_iff hnodup (hgrows side)).mpr (hadds side)

theorem doubled_quote_reproduces : Reproduces .rounded "BTCUSDT" doubledQuote := by
  have hpriced : ∀ u ∈ doubledQuote, u.symbol = "BTCUSDT" ∧ WellPriced 1 u := by
    simp only [doubledQuote, List.forall_mem_cons]
    refine ⟨⟨rfl, ?_⟩, ⟨rfl, ?_⟩, by simp⟩
    · apply wellPriced_quote <;> norm_num
    · apply wellPriced_quote <;> norm_num
  refine (event_stream_reproduces_book_iff .rounded hpriced).mpr ?_ doubledQuote List.prefix_rfl
  apply (@onlyGrows_snoc .rounded "BTCUSDT" [quote true ⟨100, 1⟩ ⟨101, 1⟩] _).mpr
  refine ⟨(@onlyGrows_snoc .rounded "BTCUSDT" [] _).mpr ⟨onlyGrows_nil _ _, ?_⟩, ?_⟩
  · refine grows_quote (fun _ side price => rfl) (fun side => ?_) fun side => ?_
    all_goals cases side <;> decide +kernel
  · refine grows_quote nofun (fun side => ?_) fun side => ?_
    all_goals cases side <;> decide +kernel

/-- **A level that is taken away.** The `Cancel` goes out under id 3, and no order was added under that id. -/
theorem deleted_level_breaks_replay :
    (∀ u ∈ [quote true ⟨100, 1⟩ ⟨101, 1⟩, quote false ⟨100, 0⟩ ⟨101, 1⟩], u.symbol = "BTCUSDT" ∧ WellPriced 1 u) ∧
    emitted [quote true ⟨100, 1⟩ ⟨101, 1⟩, quote false ⟨100, 0⟩ ⟨101, 1⟩]
      = [.add 1 .buy 100 1 0, .add 2 .sell 101 1 0, .cancel 3 0] ∧
    ¬ Reproduces .rounded "BTCUSDT" [quote true ⟨100, 1⟩ ⟨101, 1⟩, quote false ⟨100, 0⟩ ⟨101, 1⟩] := by
  have hevents : emitted [quote true ⟨100, 1⟩ ⟨101, 1⟩, quote false ⟨100, 0⟩ ⟨101, 1⟩]
      = [.add 1 .buy 100 1 0, .add 2 .sell 101 1 0, .cancel 3 0] := by decide +kernel
  refine ⟨?_, hevents, ?_⟩
  · simp only [List.forall_mem_cons]
    refine ⟨⟨rfl, ?_⟩, ⟨rfl, ?_⟩, by simp⟩
    · apply wellPriced_quote <;> norm_num
    · apply wellPriced_quote <;> norm_num
  · rintro ⟨orders, hreplay, _⟩
    rw [hevents] at hreplay
    cases hreplay

end MatchingEngine

end Engine
end TradingPlatform
