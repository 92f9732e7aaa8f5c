import TradingPlatform.Engine.Matching

/-!
# `Engine.Book` — the engine's book is the reference map, best price first

The reference of a side is a map from prices to quantities: a snapshot empties it, then each level deletes its
price on quantity 0 and overwrites it otherwise. `SideBook` ties the engine's list of levels to the map. One
level keeps the tie (`processLevel_cases`, `SideBook.processLevel`), so a whole run does (`engineBook_run`).

The tolerance test needs prices on a grid coarser than the tolerance, and each symbol may have a grid of its own.
-/

namespace TradingPlatform
namespace Engine

open Market Rust Ladder

/-! ## The reference -/

/-- The quantity the map has at a price, 0 where it has none. -/
def held (m : LevelMap) (price : ℚ) : ℚ := (m price).getD 0

/-- One update: a snapshot empties the map first. -/
def referenceStep (side : Side) (m : LevelMap) (u : OrderBookUpdate) : LevelMap :=
  (u.side side).foldl setLevel (if u.isSnapshot then fun _ => none else m)

/-- The reference of a side of a symbol after a run. -/
def reference (side : Side) (symbol : String) (updates : List OrderBookUpdate) : LevelMap :=
  (updates.filter fun u => u.symbol = symbol).foldl (referenceStep side) fun _ => none

/-- An update the engine is made for: prices on the grid, no negative quantities. -/
structure WellPriced (grid : ℚ) (u : OrderBookUpdate) : Prop where
  coarse : epsilon < grid
  onGrid : ∀ side, ∀ l ∈ u.side side, OnGrid grid l.price
  nonneg : ∀ side, ∀ l ∈ u.side side, 0 ≤ l.quantity

/-- What a side of a book holds: the entries of the map, best price first, every quantity positive. -/
structure SideBook (side : Side) (grid : ℚ) (levels : List PriceLevel) (m : LevelMap) : Prop where
  sorted   : Sorted side.better (entries levels)
  lists    : Lists (entries levels) m
  onGrid   : ∀ l ∈ levels, OnGrid grid l.price
  positive : ∀ l ∈ levels, 0 < l.quantity

theorem sideBook_nil (side : Side) (grid : ℚ) : SideBook side grid [] fun _ => none where
  sorted   := sorted_nil
  lists    := lists_nil
  onGrid   := by simp
  positive := by simp

theorem SideBook.mem_iff {side : Side} {grid : ℚ} {levels : List PriceLevel} {m : LevelMap}
    (h : SideBook side grid levels m) (l : PriceLevel) : l ∈ levels ↔ m l.price = some l.quantity := by
  rw [← entry_mem_entries]
  exact h.lists l.price l.quantity

/-! ## One level -/

section Level

theorem insertCmp_eq_lt_iff (side : Side) (price : ℚ) (l : PriceLevel) :
    insertCmp side price l = .lt ↔ side.better l.price price := by
  cases side <;> exact compare_lt_iff_lt

theorem insertCmp_eq_eq_iff (side : Side) (price : ℚ) (l : PriceLevel) :
    insertCmp side price l = .eq ↔ l.price = price := by
  cases side
  · exact compare_eq_iff_eq.trans eq_comm
  · exact compare_eq_iff_eq

/-- A new price inserted where the search says is the upsert of the ladder. -/
theorem entries_insertIdx {side : Side} {levels : List PriceLevel} (hs : Sorted side.better (entries levels))
    {l : PriceLevel} (hnew : ∀ x ∈ levels, x.price ≠ l.price) :
    entries (levels.insertIdx (unwrapOrErr (binarySearchBy (insertCmp side l.price) levels)) l)
      = upsert side.better l.price l.quantity (entries levels) := by
  have hne : ∀ x ∈ levels, insertCmp side l.price x ≠ .eq := by
    intro x hx heq
    exact hnew x hx ((insertCmp_eq_eq_iff side l.price x).mp heq)
  have hpartition : levels.Pairwise fun x y =>
      insertCmp side l.price y = .lt → insertCmp side l.price x = .lt := by
    apply List.Pairwise.imp _ (sorted_entries_iff.mp hs)
    intro x y hxy hy
    rw [insertCmp_eq_lt_iff] at hy ⊢
    exact trans_of side.better hxy hy
  have hkeys : ∀ e ∈ entries levels, e.1 ≠ l.price := by
    intro e he
    obtain ⟨x, hx, rfl⟩ := mem_entries.mp he
    exact hnew x hx
  rw [insertIdx_binarySearchBy hne hpartition, upsert_of_notMem hkeys, entries_append, entries_cons]
  unfold entries
  rw [List.takeWhile_map, List.dropWhile_map]
  simp only [insertCmp_eq_lt_iff]
  rfl

/-- The quantity changed in place. -/
theorem entries_setQuantity {levels : List PriceLevel} {price : ℚ} {idx : Nat}
    (h : levels.findIdx? (fun l => l.price = price) = some idx) (quantity : ℚ) :
    entries (setQuantity levels idx quantity) = (entries levels).set idx (price, quantity) := by
  obtain ⟨hlt, hprice, _⟩ := List.findIdx?_eq_some_iff_getElem.mp h
  unfold setQuantity entries
  rw [List.modify_eq_take_cons_drop hlt, List.set_eq_take_append_cons_drop, if_pos (by simpa using hlt)]
  simp [PriceLevel.entry, of_decide_eq_true hprice]

variable {side : Side} {grid : ℚ} {s : SideState} {m : LevelMap} {u : PriceLevel}

/-- The index that the tolerance test finds is that of the price, with the quantity of the map. -/
theorem SideBook.found {levels : List PriceLevel} (h : SideBook side grid levels m) {price : ℚ} {idx : Nat}
    (hidx : levels.findIdx? (fun l => l.price = price) = some idx) :
    ((levels[idx]?).map PriceLevel.quantity).getD 0 = held m price ∧ 0 < held m price ∧
      (entries levels)[idx]? = some (price, held m price) := by
  obtain ⟨hlt, hprice, _⟩ := List.findIdx?_eq_some_iff_getElem.mp hidx
  have hmem : levels[idx] ∈ levels := List.getElem_mem hlt
  have hm := (h.mem_iff _).mp hmem
  rw [of_decide_eq_true hprice] at hm
  have hheld : held m price = levels[idx].quantity := by unfold held; simp [hm]
  refine ⟨?_, ?_, ?_⟩
  · rw [List.getElem?_eq_getElem hlt, hheld]
    rfl
  · rw [hheld]
    exact h.positive _ hmem
  · unfold entries
    rw [List.getElem?_map, List.getElem?_eq_getElem hlt, hheld]
    simp [PriceLevel.entry, of_decide_eq_true hprice]

theorem SideBook.notFound {levels : List PriceLevel} (h : SideBook side grid levels m) {price : ℚ}
    (hnew : ∀ l ∈ levels, l.price ≠ price) : m price = none := by
  cases hm : m price with
  | none => rfl
  | some q => exact absurd rfl (hnew ⟨price, q⟩ ((h.mem_iff _).mpr hm))

theorem isSome_of_held {price : ℚ} (h : 0 < held m price) : (m price).isSome = true := by
  cases hm : m price with
  | none =>
      unfold held at h
      rw [hm] at h
      exact absurd h (lt_irrefl _)
  | some q => rfl

/-- What an `Add` brings to the price of the level: the rounded difference, or all of it where the map holds nothing. -/
def missing (m : LevelMap) (u : PriceLevel) : ℚ :=
  if (m u.price).isSome then binary64.round (u.quantity - held m u.price) else u.quantity

/-- What one level can do, read off the quantity the map holds at its price: nothing, an `Add` of what is
    missing, or a `Cancel` or `Execute` under a fresh id. The levels are the write of the ladder each time. -/
theorem processLevel_cases (hs : SideBook side grid s.levels m) (hgrid : epsilon < grid)
    (hu : OnGrid grid u.price) (hq : 0 ≤ u.quantity) (timestamp : Int) :
    ∃ levels, entries levels = write side.better (entries s.levels) u.write ∧
      ((u.quantity = held m u.price ∧
          processLevel side timestamp s u = ({ s with levels }, [])) ∨
       (held m u.price < u.quantity ∧
          processLevel side timestamp s u = ({ orderIdCounter := getNextOrderId s.orderIdCounter, levels },
            [.add (getNextOrderId s.orderIdCounter) side u.price (missing m u) timestamp])) ∨
       (u.quantity < held m u.price ∧ ∃ event,
          (event = .cancel (getNextOrderId s.orderIdCounter) timestamp ∨
            event = .execute (getNextOrderId s.orderIdCounter) (binary64.round (held m u.price - u.quantity)) timestamp) ∧
          processLevel side timestamp s u
            = ({ orderIdCounter := getNextOrderId s.orderIdCounter, levels }, [event]))) := by
  unfold processLevel
  rw [findIdx?_close hgrid hu hs.onGrid]
  cases hidx : s.levels.findIdx? (fun l => l.price = u.price) with
  | some idx =>
      obtain ⟨hcurrent, hpos, hentry⟩ := hs.found hidx
      have hkey : (entries s.levels).findIdx? (fun e => e.1 = u.price) = some idx := by
        rw [findIdx?_entries, hidx]
      simp only [hcurrent]
      by_cases hzero : u.quantity = 0
      · -- removed
        refine ⟨s.levels.eraseIdx idx, ?_, Or.inr (Or.inr ⟨by rw [hzero]; exact hpos, _, Or.inl rfl, ?_⟩)⟩
        · simp only [PriceLevel.write, hzero, if_true, Ladder.write]
          rw [erase_eq_eraseIdx hkey]
          exact (List.eraseIdx_map PriceLevel.entry s.levels idx).symm
        · rw [if_pos hzero]
          rfl
      · have hset : write side.better (entries s.levels) u.write
            = (entries s.levels).set idx (u.price, u.quantity) := by
          simp only [PriceLevel.write, hzero, if_false, Ladder.write]
          exact upsert_eq_set hs.sorted hkey u.quantity
        rw [if_neg hzero]
        rcases lt_trichotomy (held m u.price) u.quantity with hlt | heq | hgt
        · -- raised
          refine ⟨setQuantity s.levels idx u.quantity, ?_, Or.inr (Or.inl ⟨hlt, ?_⟩)⟩
          · rw [hset, entries_setQuantity hidx]
          · rw [if_pos hlt, missing, if_pos (isSome_of_held hpos)]
            rfl
        · -- as it was
          refine ⟨s.levels, ?_, Or.inl ⟨heq.symm, ?_⟩⟩
          · rw [hset, ← heq]
            obtain ⟨hlt, hget⟩ := List.getElem?_eq_some_iff.mp hentry
            rw [← hget, List.set_getElem_self]
          · simp [heq]
        · -- lowered
          refine ⟨setQuantity s.levels idx u.quantity, ?_, Or.inr (Or.inr ⟨hgt, _, Or.inr rfl, ?_⟩)⟩
          · rw [hset, entries_setQuantity hidx]
          · rw [if_neg (not_lt.mpr (le_of_lt hgt)), if_pos hgt]
            rfl
  | none =>
      have hnew : ∀ l ∈ s.levels, l.price ≠ u.price := by simpa using hidx
      have hheld : held m u.price = 0 := by unfold held; rw [hs.notFound hnew]; rfl
      rw [hheld]
      by_cases hzero : u.quantity = 0
      · -- nothing to delete
        refine ⟨s.levels, ?_, Or.inl ⟨hzero, by simp [hzero]⟩⟩
        have hkeys : ∀ e ∈ entries s.levels, e.1 ≠ u.price := by
          intro e he
          obtain ⟨x, hx, rfl⟩ := mem_entries.mp he
          exact hnew x hx
        simp only [PriceLevel.write, hzero, if_true, Ladder.write]
        exact (erase_of_notMem hkeys).symm
      · -- inserted
        have hpos : 0 < u.quantity := lt_of_le_of_ne hq (Ne.symm hzero)
        refine ⟨s.levels.insertIdx (unwrapOrErr (binarySearchBy (insertCmp side u.price) s.levels)) u, ?_,
          Or.inr (Or.inl ⟨hpos, ?_⟩)⟩
        · simp only [PriceLevel.write, hzero, if_false, Ladder.write]
          exact entries_insertIdx hs.sorted hnew
        · have hmissing : missing m u = u.quantity := by
            rw [missing, hs.notFound hnew]
            rfl
          simp [hpos, generateAddEvent, hmissing]

/-- **One level is a write** in the ladder of the side. -/
theorem entries_processLevel (hs : SideBook side grid s.levels m) (hgrid : epsilon < grid)
    (hu : OnGrid grid u.price) (hq : 0 ≤ u.quantity) (timestamp : Int) :
    entries (processLevel side timestamp s u).1.levels = write side.better (entries s.levels) u.write := by
  obtain ⟨levels, hwrite, hcases⟩ := processLevel_cases hs hgrid hu hq timestamp
  have hresult : (processLevel side timestamp s u).1.levels = levels := by
    rcases hcases with ⟨_, heq⟩ | ⟨_, heq⟩ | ⟨_, _, _, heq⟩ <;> rw [heq]
  rw [hresult, hwrite]

/-- **One level keeps the tie to the reference.** -/
theorem SideBook.processLevel (hs : SideBook side grid s.levels m) (hgrid : epsilon < grid)
    (hu : OnGrid grid u.price) (hq : 0 ≤ u.quantity) (timestamp : Int) :
    SideBook side grid (Engine.processLevel side timestamp s u).1.levels (setLevel m u) := by
  have hwrite := entries_processLevel hs hgrid hu hq timestamp
  generalize (Engine.processLevel side timestamp s u).1.levels = levels at hwrite ⊢
  -- a level of the result is the written one or an old one
  have hmem : ∀ l ∈ levels, (l.price = u.price ∧ u.write.2 = some l.quantity) ∨ l ∈ s.levels := by
    intro l hl
    rw [← entry_mem_entries, hwrite, mem_write hs.sorted] at hl
    rcases hl with hnew | ⟨_, hold⟩
    · exact Or.inl hnew
    · exact Or.inr (entry_mem_entries.mp hold)
  refine ⟨?_, ?_, ?_, ?_⟩
  · rw [hwrite]
    exact sorted_write hs.sorted u.write
  · rw [hwrite]
    exact hs.lists.write hs.sorted u.write
  · intro l hl
    rcases hmem l hl with ⟨hprice, _⟩ | hold
    · exact hprice ▸ hu
    · exact hs.onGrid l hold
  · intro l hl
    rcases hmem l hl with ⟨_, hquantity⟩ | hold
    · have hne : u.quantity ≠ 0 := by
        intro hzero
        simp [PriceLevel.write, hzero] at hquantity
      simp only [PriceLevel.write, hne, if_false, Option.some.injEq] at hquantity
      rw [← hquantity]
      exact lt_of_le_of_ne hq (Ne.symm hne)
    · exact hs.positive l hold

theorem SideBook.processSideUpdates (hs : SideBook side grid s.levels m) (hgrid : epsilon < grid)
    {us : List PriceLevel} (hu : ∀ l ∈ us, OnGrid grid l.price) (hq : ∀ l ∈ us, 0 ≤ l.quantity)
    (timestamp : Int) :
    SideBook side grid (Engine.processSideUpdates side timestamp s us).1.levels (us.foldl setLevel m) := by
  induction us generalizing s m with
  | nil => exact hs
  | cons l ls ih =>
      apply ih
      · exact hs.processLevel hgrid (hu l List.mem_cons_self) (hq l List.mem_cons_self) timestamp
      · exact fun x hx => hu x (List.mem_cons_of_mem _ hx)
      · exact fun x hx => hq x (List.mem_cons_of_mem _ hx)

end Level

/-! ## Order ids -/

/-- The events are numbered upwards, above the old counter and up to the new one. -/
structure Numbered (old new : Nat) (events : List OrderEvent) : Prop where
  le         : old ≤ new
  bounds     : ∀ event ∈ events, old < event.orderId ∧ event.orderId ≤ new
  increasing : (events.map OrderEvent.orderId).Pairwise (· < ·)

theorem Numbered.nil (counter : Nat) : Numbered counter counter [] where
  le         := Nat.le_refl _
  bounds     := by simp
  increasing := by simp

theorem Numbered.single {counter : Nat} {event : OrderEvent} (h : event.orderId = getNextOrderId counter) :
    Numbered counter (getNextOrderId counter) [event] where
  le         := Nat.le_succ _
  bounds     := by simp [h, getNextOrderId]
  increasing := by simp

theorem Numbered.append {a b c : Nat} {xs ys : List OrderEvent} (hx : Numbered a b xs) (hy : Numbered b c ys) :
    Numbered a c (xs ++ ys) where
  le     := hx.le.trans hy.le
  bounds := by
    intro event hevent
    rcases List.mem_append.mp hevent with hevent | hevent
    · exact ⟨(hx.bounds event hevent).1, (hx.bounds event hevent).2.trans hy.le⟩
    · exact ⟨hx.le.trans_lt (hy.bounds event hevent).1, (hy.bounds event hevent).2⟩
  increasing := by
    rw [List.map_append, List.pairwise_append]
    refine ⟨hx.increasing, hy.increasing, ?_⟩
    intro i hi j hj
    obtain ⟨x, hx', rfl⟩ := List.mem_map.mp hi
    obtain ⟨y, hy', rfl⟩ := List.mem_map.mp hj
    exact (hx.bounds x hx').2.trans_lt (hy.bounds y hy').1

/-- Steps that number their events make runs that do. -/
theorem run_numbered {σ ι : Type} {step : σ → ι → σ × List OrderEvent} (counter : σ → Nat)
    (hstep : ∀ s i, Numbered (counter s) (counter (step s i).1) (step s i).2) (s : σ) (is : List ι) :
    Numbered (counter s) (counter (Machine.run step s is).1) (Machine.run step s is).2 := by
  induction is generalizing s with
  | nil => exact .nil _
  | cons i is ih => exact (hstep s i).append (ih _)

theorem processLevel_numbered (side : Side) (timestamp : Int) (s : SideState) (u : PriceLevel) :
    Numbered s.orderIdCounter (processLevel side timestamp s u).1.orderIdCounter
      (processLevel side timestamp s u).2 := by
  unfold processLevel
  split
  · dsimp only
    split_ifs
    · exact .single rfl
    · exact .single rfl
    · exact .single rfl
    · exact .nil _
  · split_ifs
    · exact .single rfl
    · exact .nil _

theorem clearLevel_numbered (side : Side) (timestamp : Int) (counter : Nat) (level : PriceLevel) :
    Numbered counter (clearLevel side timestamp counter level).1 (clearLevel side timestamp counter level).2 := by
  unfold clearLevel
  split_ifs
  · exact .single rfl
  · exact .nil _

theorem generateClearEvents_numbered (counter : Nat) (book : OrderBook) (timestamp : Int) :
    Numbered counter (generateClearEvents counter book timestamp).1
      (generateClearEvents counter book timestamp).2 := by
  have hbids := run_numbered id (clearLevel_numbered .buy timestamp) counter book.bids
  exact hbids.append (run_numbered id (clearLevel_numbered .sell timestamp) _ book.asks)

namespace MatchingEngine

theorem clearOnSnapshot_numbered (e : MatchingEngine) (u : OrderBookUpdate) :
    Numbered e.orderIdCounter (e.clearOnSnapshot u).1 (e.clearOnSnapshot u).2.2 := by
  unfold clearOnSnapshot
  dsimp only
  split_ifs
  · exact generateClearEvents_numbered ..
  · exact .nil _

theorem processSideUpdates_numbered (side : Side) (timestamp : Int) (s : SideState) (us : List PriceLevel) :
    Numbered s.orderIdCounter (processSideUpdates side timestamp s us).1.orderIdCounter
      (processSideUpdates side timestamp s us).2 :=
  run_numbered SideState.orderIdCounter (processLevel_numbered side timestamp) s us

theorem processL2Update_numbered (e : MatchingEngine) (u : OrderBookUpdate) :
    Numbered e.orderIdCounter (e.processL2Update u).1.orderIdCounter (e.processL2Update u).2 := by
  have hbids : Numbered (e.clearOnSnapshot u).1 (e.processBids u).1.orderIdCounter (e.processBids u).2 :=
    processSideUpdates_numbered .buy u.timestamp
      { orderIdCounter := (e.clearOnSnapshot u).1, levels := (e.clearOnSnapshot u).2.1.bids } u.bids
  have hasks : Numbered (e.processBids u).1.orderIdCounter (e.processAsks u).1.orderIdCounter
      (e.processAsks u).2 :=
    processSideUpdates_numbered .sell u.timestamp
      { orderIdCounter := (e.processBids u).1.orderIdCounter, levels := (e.clearOnSnapshot u).2.1.asks } u.asks
  exact ((clearOnSnapshot_numbered e u).append hbids).append hasks

/-! ## Whole runs -/

/-- The engine after a run, and the events the run emitted. -/
def after (updates : List OrderBookUpdate) : MatchingEngine := (Machine.run processL2Update .new updates).1

def emitted (updates : List OrderBookUpdate) : List OrderEvent := (Machine.run processL2Update .new updates).2

@[simp] theorem after_nil : after [] = .new := rfl

@[simp] theorem emitted_nil : emitted [] = [] := rfl

theorem after_snoc (updates : List OrderBookUpdate) (u : OrderBookUpdate) :
    after (updates ++ [u]) = ((after updates).processL2Update u).1 := by
  unfold after
  rw [Machine.run_append_state, Machine.run_cons, Machine.run_nil]

theorem emitted_snoc (updates : List OrderBookUpdate) (u : OrderBookUpdate) :
    emitted (updates ++ [u]) = emitted updates ++ ((after updates).processL2Update u).2 := by
  unfold emitted
  rw [Machine.run_append_outputs, Machine.run_cons, Machine.run_nil, List.append_nil]
  rfl

theorem emitted_numbered (updates : List OrderBookUpdate) :
    Numbered 0 (after updates).orderIdCounter (emitted updates) :=
  run_numbered MatchingEngine.orderIdCounter processL2Update_numbered .new updates

/-- The levels a side starts from in one call. -/
def startLevels (e : MatchingEngine) (side : Side) (u : OrderBookUpdate) : List PriceLevel :=
  if u.isSnapshot then [] else e.levels side u.symbol

theorem side_clearOnSnapshot (e : MatchingEngine) (u : OrderBookUpdate) (side : Side) :
    (e.clearOnSnapshot u).2.1.side side = e.startLevels side u := by
  unfold clearOnSnapshot startLevels levels getOrderBook bookOf
  cases u.isSnapshot <;> cases e.orderBooks u.symbol <;> cases side <;> rfl

/-- One call works on the sides of its symbol. -/
theorem levels_processL2Update (e : MatchingEngine) (u : OrderBookUpdate) (side : Side) :
    ∃ orderIdCounter, (e.processL2Update u).1.levels side u.symbol
      = (processSideUpdates side u.timestamp { orderIdCounter, levels := e.startLevels side u }
          (u.side side)).1.levels := by
  cases side
  · refine ⟨(e.clearOnSnapshot u).1, ?_⟩
    rw [← side_clearOnSnapshot]
    simp [levels, getOrderBook, processL2Update, processBids, OrderBook.side, OrderBookUpdate.side]
  · refine ⟨(e.processBids u).1.orderIdCounter, ?_⟩
    rw [← side_clearOnSnapshot]
    simp [levels, getOrderBook, processL2Update, processAsks, OrderBook.side, OrderBookUpdate.side]

/-- The books of the other symbols are left alone. -/
theorem levels_processL2Update_of_ne (e : MatchingEngine) {u : OrderBookUpdate} {symbol : String}
    (h : symbol ≠ u.symbol) (side : Side) : (e.processL2Update u).1.levels side symbol = e.levels side symbol := by
  simp [levels, getOrderBook, processL2Update, Function.update_of_ne h]

/-- The sides of all books list the reference. -/
def EngineBook (grid : String → ℚ) (e : MatchingEngine) (m : Side → String → LevelMap) : Prop :=
  ∀ side symbol, SideBook side (grid symbol) (e.levels side symbol) (m side symbol)

/-- **One call keeps the book of its symbol on the reference.** -/
theorem sideBook_processL2Update {grid : ℚ} {e : MatchingEngine} {u : OrderBookUpdate} {side : Side} {m : LevelMap}
    (h : SideBook side grid (e.levels side u.symbol) m) (hu : WellPriced grid u) :
    SideBook side grid ((e.processL2Update u).1.levels side u.symbol) (referenceStep side m u) := by
  obtain ⟨orderIdCounter, hlevels⟩ := levels_processL2Update e u side
  have hstart : SideBook side grid (e.startLevels side u) (if u.isSnapshot then fun _ => none else m) := by
    unfold startLevels
    split_ifs
    · exact sideBook_nil side grid
    · exact h
  rw [hlevels]
  exact SideBook.processSideUpdates (s := { orderIdCounter, levels := e.startLevels side u }) hstart hu.coarse
    (hu.onGrid side) (hu.nonneg side) u.timestamp

theorem reference_snoc (side : Side) (symbol : String) (updates : List OrderBookUpdate) (u : OrderBookUpdate) :
    reference side symbol (updates ++ [u])
      = if u.symbol = symbol then referenceStep side (reference side symbol updates) u
        else reference side symbol updates := by
  unfold reference
  rw [List.filter_append, List.foldl_append]
  by_cases hsymbol : u.symbol = symbol <;> simp [hsymbol]

/-- **The books of a run list the reference.** -/
theorem engineBook_run {grid : String → ℚ} {updates : List OrderBookUpdate}
    (h : ∀ u ∈ updates, WellPriced (grid u.symbol) u) :
    EngineBook grid (after updates) fun side symbol => reference side symbol updates := by
  induction updates using List.reverseRecOn with
  | nil => exact fun side symbol => sideBook_nil side (grid symbol)
  | append_singleton updates u ih =>
      have hprev := ih fun x hx => h x (List.mem_append_left _ hx)
      have hu := h u (by simp)
      intro side symbol
      show SideBook side (grid symbol) ((after (updates ++ [u])).levels side symbol) (reference side symbol _)
      rw [after_snoc, reference_snoc]
      by_cases hsymbol : u.symbol = symbol
      · subst hsymbol
        rw [if_pos rfl]
        exact sideBook_processL2Update (hprev side u.symbol) hu
      · rw [if_neg hsymbol, levels_processL2Update_of_ne _ (Ne.symm hsymbol)]
        exact hprev side symbol

/-! ## The same snapshot twice -/

/-- The book after a call: that before it with new sides and time stamp. -/
theorem orderBooks_processL2Update (e : MatchingEngine) (u : OrderBookUpdate) :
    (e.processL2Update u).1.orderBooks = Function.update e.orderBooks u.symbol
      (some { e.bookOf u.symbol u.exchange with
        bids := (e.processL2Update u).1.levels .buy u.symbol,
        asks := (e.processL2Update u).1.levels .sell u.symbol,
        timestamp := u.timestamp }) := by
  have hframe : ∀ bids asks : List PriceLevel, ∀ timestamp : Int,
      { (e.clearOnSnapshot u).2.1 with bids, asks, timestamp }
        = { e.bookOf u.symbol u.exchange with bids, asks, timestamp } := by
    intro bids asks timestamp
    unfold clearOnSnapshot
    dsimp only
    split_ifs <;> rfl
  unfold processL2Update levels getOrderBook
  simp only [Function.update_self, Option.map_some, Option.getD_some, OrderBook.side, hframe]

/-- **A snapshot processed a second time changes no book.** -/
theorem processL2Update_snapshot_twice {grid : ℚ} {e : MatchingEngine} {u : OrderBookUpdate}
    (hu : WellPriced grid u) (hsnap : u.isSnapshot = true) :
    ((e.processL2Update u).1.processL2Update u).1.orderBooks = (e.processL2Update u).1.orderBooks := by
  -- both calls start from nothing, so their sides list one map
  have hside : ∀ (e : MatchingEngine) side, SideBook side grid ((e.processL2Update u).1.levels side u.symbol)
      ((u.side side).foldl setLevel fun _ => none) := by
    intro e side
    obtain ⟨orderIdCounter, hlevels⟩ := levels_processL2Update e u side
    have hstart : SideBook side grid (e.startLevels side u) fun _ => none := by
      unfold startLevels
      rw [if_pos hsnap]
      exact sideBook_nil side grid
    rw [hlevels]
    exact SideBook.processSideUpdates (s := { orderIdCounter, levels := e.startLevels side u }) hstart hu.coarse
      (hu.onGrid side) (hu.nonneg side) u.timestamp
  have hlevels : ∀ side, ((e.processL2Update u).1.processL2Update u).1.levels side u.symbol
      = (e.processL2Update u).1.levels side u.symbol := by
    intro side
    have hagain := hside (e.processL2Update u).1 side
    apply entries_injective
    exact hagain.lists.eq (hside e side).lists hagain.sorted (hside e side).sorted
  rw [orderBooks_processL2Update, hlevels, hlevels]
  simp [bookOf, orderBooks_processL2Update e u]

/-- **The engine keeps a correct book.** After every run of well-priced updates each side of each symbol is
    sorted best first, holds positive quantities only and lists the reference; the ids of the events emitted
    so far strictly increase; and a snapshot that was the last update may be processed again. -/
theorem matching_engine_keeps_book {grid : String → ℚ} {updates : List OrderBookUpdate}
    (h : ∀ u ∈ updates, WellPriced (grid u.symbol) u) :
    (∀ side symbol,
      ((after updates).levels side symbol).Pairwise (fun l l' => side.better l.price l'.price) ∧
      (∀ l ∈ (after updates).levels side symbol, 0 < l.quantity) ∧
      (∀ l, l ∈ (after updates).levels side symbol ↔
        reference side symbol updates l.price = some l.quantity)) ∧
    ((emitted updates).map OrderEvent.orderId).Pairwise (· < ·) ∧
    (∀ u, updates.getLast? = some u → u.isSnapshot = true →
      (after (updates ++ [u])).orderBooks = (after updates).orderBooks) := by
  have hbook := engineBook_run h
  refine ⟨?_, (emitted_numbered updates).increasing, ?_⟩
  · intro side symbol
    exact ⟨sorted_entries_iff.mp (hbook side symbol).sorted, (hbook side symbol).positive,
      (hbook side symbol).mem_iff⟩
  · intro u hlast hsnap
    obtain ⟨earlier, rfl⟩ := List.getLast?_eq_some_iff.mp hlast
    rw [after_snoc, after_snoc]
    exact processL2Update_snapshot_twice (h u (by simp)) hsnap

/-- An update of one bid and one ask. -/
def quote (isSnapshot : Bool) (bid ask : PriceLevel) : OrderBookUpdate where
  exchange      := .binance
  symbol        := "BTCUSDT"
  timestamp     := 0
  bids          := [bid]
  asks          := [ask]
  isSnapshot    := isSnapshot
  updateId      := 0
  firstUpdateId := 0
  prevUpdateId  := none

theorem wellPriced_quote (isSnapshot : Bool) {bid ask : PriceLevel} (hbid : bid.price.den = 1)
    (hask : ask.price.den = 1) (hbidq : 0 ≤ bid.quantity) (haskq : 0 ≤ ask.quantity) :
    WellPriced 1 (quote isSnapshot bid ask) where
  coarse := by unfold epsilon; norm_num
  onGrid := forall_mem_side_of_single rfl rfl (onGrid_one hbid) (onGrid_one hask)
  nonneg := forall_mem_side_of_single rfl rfl hbidq haskq

/-- Two snapshots of one symbol, the second of another price on the bid side. -/
theorem snapshot_replaces_book :
    (∀ u ∈ [quote true ⟨100, 1⟩ ⟨101, 2⟩, quote true ⟨99, 3⟩ ⟨101, 1⟩], WellPriced 1 u) ∧
    ((after [quote true ⟨100, 1⟩ ⟨101, 2⟩, quote true ⟨99, 3⟩ ⟨101, 1⟩]).levels .buy "BTCUSDT").Pairwise
      (fun l l' => Side.buy.better l.price l'.price) := by
  have h : ∀ u ∈ [quote true ⟨100, 1⟩ ⟨101, 2⟩, quote true ⟨99, 3⟩ ⟨101, 1⟩], WellPriced 1 u := by
    simp only [List.forall_mem_cons]
    refine ⟨?_, ?_, by simp⟩
    · apply wellPriced_quote <;> norm_num
    · apply wellPriced_quote <;> norm_num
  exact ⟨h, ((@matching_engine_keeps_book (fun _ => 1) _ h).1 .buy "BTCUSDT").1⟩

end MatchingEngine

end Engine
end TradingPlatform
