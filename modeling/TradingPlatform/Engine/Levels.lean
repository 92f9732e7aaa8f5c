import TradingPlatform.Engine.Book

/-!
# `Engine.Levels` — what every level of a reachable book satisfies

Whatever the prices are, on a grid or not, the tolerance test may hit the wrong level but no level is made up: its
price came with some update, and its quantity is never set to less than what makes it stay.
-/

namespace TradingPlatform
namespace Engine

open Market Rust

/-- A level with a positive price and a positive quantity. -/
structure Positive (l : PriceLevel) : Prop where
  price    : 0 < l.price
  quantity : 0 < l.quantity

/-- An update of positive prices without negative quantities. -/
structure PositivePriced (u : OrderBookUpdate) : Prop where
  price    : ∀ side, ∀ l ∈ u.side side, 0 < l.price
  quantity : ∀ side, ∀ l ∈ u.side side, 0 ≤ l.quantity

/-- A level after a change of quantity in place is an old one, or one of that quantity at an old price. -/
theorem mem_setQuantity {levels : List PriceLevel} {idx : Nat} {quantity : ℚ} {l : PriceLevel}
    (h : l ∈ setQuantity levels idx quantity) : l ∈ levels ∨ ∃ l' ∈ levels, l = { l' with quantity } := by
  unfold setQuantity at h
  obtain ⟨j, hj⟩ := List.mem_iff_getElem?.mp h
  rw [List.getElem?_modify] at hj
  split_ifs at hj with hidx
  · obtain ⟨l', hl', rfl⟩ := Option.map_eq_some_iff.mp hj
    exact .inr ⟨l', List.mem_of_getElem? hl', rfl⟩
  · rw [id_map'] at hj
    exact .inl (List.mem_of_getElem? hj)

/-- One level of an update keeps the levels positive. -/
theorem positive_processLevel {s : SideState} (hs : ∀ l ∈ s.levels, Positive l) (side : Side) (timestamp : Int)
    {u : PriceLevel} (hprice : 0 < u.price) (hquantity : 0 ≤ u.quantity) :
    ∀ l ∈ (processLevel side timestamp s u).1.levels, Positive l := by
  have hset : u.quantity ≠ 0 → ∀ idx, ∀ l ∈ setQuantity s.levels idx u.quantity, Positive l := by
    intro hne idx l hl
    rcases mem_setQuantity hl with hl | ⟨l', hl', rfl⟩
    · exact hs l hl
    · exact ⟨(hs l' hl').price, lt_of_le_of_ne hquantity (Ne.symm hne)⟩
  unfold processLevel
  split
  next idx _ =>
    dsimp only
    split_ifs with hzero
    · exact fun l hl => hs l (List.mem_of_mem_eraseIdx hl)
    · exact hset hzero idx
    · exact hset hzero idx
    · exact hs
  next =>
    split_ifs with hpos
    · intro l hl
      rcases List.eq_or_mem_of_mem_insertIdx hl with rfl | hl
      · exact ⟨hprice, hpos⟩
      · exact hs l hl
    · exact hs

theorem positive_processSideUpdates {s : SideState} (hs : ∀ l ∈ s.levels, Positive l) (side : Side) (timestamp : Int)
    {us : List PriceLevel} (hprice : ∀ u ∈ us, 0 < u.price) (hquantity : ∀ u ∈ us, 0 ≤ u.quantity) :
    ∀ l ∈ (processSideUpdates side timestamp s us).1.levels, Positive l := by
  have hguard : Machine.Guarded (processLevel side timestamp) (fun _ u => 0 < u.price ∧ 0 ≤ u.quantity) s us :=
    Machine.guarded_of_forall (fun u hu => ⟨hprice u hu, hquantity u hu⟩) s
  exact @Machine.Guarded.invariant _ _ _ _ _ (fun s => ∀ l ∈ s.levels, Positive l)
    (fun s u hs hu => positive_processLevel hs side timestamp hu.1 hu.2) _ _ hguard hs

namespace MatchingEngine

theorem positive_processL2Update {e : MatchingEngine} (he : ∀ side symbol, ∀ l ∈ e.levels side symbol, Positive l)
    {u : OrderBookUpdate} (hu : PositivePriced u) :
    ∀ side symbol, ∀ l ∈ (e.processL2Update u).1.levels side symbol, Positive l := by
  intro side symbol
  by_cases hsymbol : symbol = u.symbol
  · subst hsymbol
    obtain ⟨orderIdCounter, hlevels⟩ := levels_processL2Update e u side
    have hstart : ∀ l ∈ e.startLevels side u, Positive l := by
      unfold startLevels
      split_ifs
      · simp
      · exact he side u.symbol
    rw [hlevels]
    exact @positive_processSideUpdates { orderIdCounter, levels := e.startLevels side u } hstart side u.timestamp _
      (hu.price side) (hu.quantity side)
  · rw [levels_processL2Update_of_ne e hsymbol]
    exact he side symbol

/-- **All levels of all books of a run are positive.** -/
theorem positive_after {updates : List OrderBookUpdate} (h : ∀ u ∈ updates, PositivePriced u) :
    ∀ side symbol, ∀ l ∈ (after updates).levels side symbol, Positive l := by
  induction updates using List.reverseRecOn with
  | nil =>
      intro side symbol l hl
      cases hl
  | append_singleton updates u ih =>
      rw [after_snoc]
      exact positive_processL2Update (ih fun x hx => h x (List.mem_append_left _ hx)) (h u (by simp))

/-- The sides of a book are the levels that the engine reports. -/
theorem side_of_getOrderBook {e : MatchingEngine} {symbol : String} {book : OrderBook}
    (h : e.getOrderBook symbol = some book) (side : Side) : book.side side = e.levels side symbol := by
  unfold levels
  rw [h]
  rfl

end MatchingEngine

/-- A book that some run of updates which all satisfy `P` leaves in the engine. -/
def Reachable (P : OrderBookUpdate → Prop) (book : OrderBook) : Prop :=
  ∃ updates symbol, (∀ u ∈ updates, P u) ∧ (MatchingEngine.after updates).getOrderBook symbol = some book

/-- A book of positive levels. -/
def PositiveBook (book : OrderBook) : Prop := ∀ side, ∀ l ∈ book.side side, Positive l

theorem Reachable.positiveBook {book : OrderBook} (h : Reachable PositivePriced book) : PositiveBook book := by
  obtain ⟨updates, symbol, hupdates, hbook⟩ := h
  intro side
  rw [MatchingEngine.side_of_getOrderBook hbook]
  exact MatchingEngine.positive_after hupdates side symbol

theorem Reachable.imp {P Q : OrderBookUpdate → Prop} (hPQ : ∀ u, P u → Q u) {book : OrderBook}
    (h : Reachable P book) : Reachable Q book := by
  obtain ⟨updates, symbol, hupdates, hbook⟩ := h
  exact ⟨updates, symbol, fun u hu => hPQ u (hupdates u hu), hbook⟩

end Engine
end TradingPlatform
