import TradingPlatform.Engine.Book
import TradingPlatform.Rust.BTreeMap
import TradingPlatform.Rust.Collect
import TradingPlatform.Rust.Ieee

/-!
# `Engine.Optimized` — the tick-keyed book and the engine's book

`OptimizedOrderBook` keeps the levels of a side in a tree under the number of ticks of the price, negated for bids.
Read back, the tree of a side is the engine's list of that side (`Mirrors`). The one number of ticks that an `i64`
cannot negate breaks it: a bid there panics in the development profile and is stored as the best one in the release
profile (`optimized_follows_iff`).
-/

namespace TradingPlatform
namespace Engine

open Market Rust Ladder

structure OptimizedOrderBook where
  symbol       : String
  bids         : BTreeMap Int ℚ
  asks         : BTreeMap Int ℚ
  tickSize     : ℚ
  lastSequence : Nat
  updateCount  : Nat

/-- Quantity 0 removes the level. -/
def put (levels : BTreeMap Int ℚ) (ticks : Int) (quantity : ℚ) : BTreeMap Int ℚ :=
  if quantity = 0 then levels.remove ticks else levels.insert ticks quantity

namespace OptimizedOrderBook

def new (symbol : String) (tickSize : ℚ) : OptimizedOrderBook where
  symbol       := symbol
  bids         := .new
  asks         := .new
  tickSize     := tickSize
  lastSequence := 0
  updateCount  := 0

def priceToTicks (b : OptimizedOrderBook) (price : ℚ) : Int := asI64 (rounded (price / b.tickSize))

def ticksToPrice (b : OptimizedOrderBook) (ticks : Int) : ℚ := ticks * b.tickSize

section Operations

variable (profile : Profile) (b : OptimizedOrderBook)

/-- The key is negated for descending order. -/
def updateBid (price quantity : ℚ) : Option OptimizedOrderBook := do
  let key ← profile.i64 (-b.priceToTicks price)
  return { b with bids := put b.bids key quantity }

def updateAsk (price quantity : ℚ) : OptimizedOrderBook :=
  { b with asks := put b.asks (b.priceToTicks price) quantity }

/-- The level of an entry, the key negated back. -/
def bidLevel (e : Int × ℚ) : Option PriceLevel := do
  let ticks ← profile.i64 (-e.1)
  return ⟨b.ticksToPrice ticks, e.2⟩

def askLevel (e : Int × ℚ) : PriceLevel := ⟨b.ticksToPrice e.1, e.2⟩

/-- Price and quantity of the first entry. -/
def bestBid : Option (Option (ℚ × ℚ)) :=
  match b.bids.entries.head? with
  | none   => some none
  | some e => (bidLevel profile b e).map fun level => some level.entry

def bestAsk : Option (ℚ × ℚ) := b.asks.entries.head?.map fun e => (b.askLevel e).entry

def topBids (n : Nat) : Option (List PriceLevel) := (b.bids.entries.take n).mapM (bidLevel profile b)

def topAsks (n : Nat) : List PriceLevel := (b.asks.entries.take n).map b.askLevel

/-- Convert to the standard `OrderBook`. -/
def toOrderbook : Option OrderBook := do
  let bids ← b.topBids profile 100
  return { OrderBook.new b.symbol .binance with
    bids, asks := b.topAsks 100, lastUpdateId := b.lastSequence, updateCount := b.updateCount }

def clear : OptimizedOrderBook := { b with bids := .new, asks := .new }

def batchUpdate (bidUpdates askUpdates : List (ℚ × ℚ)) : Option OptimizedOrderBook := do
  let b ← bidUpdates.foldlM (fun b level => b.updateBid profile level.1 level.2) b
  let b := askUpdates.foldl (fun b level => b.updateAsk level.1 level.2) b
  return { b with updateCount := b.updateCount + 1 }

/-- An L2 update: a snapshot clears the book first. -/
def applyUpdate (u : OrderBookUpdate) : Option OptimizedOrderBook :=
  (if u.isSnapshot then b.clear else b).batchUpdate profile (entries u.bids) (entries u.asks)

end Operations

/-- The book after a run. -/
def after (profile : Profile) (symbol : String) (tickSize : ℚ) (updates : List OrderBookUpdate) :
    Option OptimizedOrderBook :=
  updates.foldlM (applyUpdate profile) (new symbol tickSize)

end OptimizedOrderBook

/-- An update the books are made for: prices of as many ticks as an `i64` can count, no negative quantities. -/
structure WellTicked (tick : ℚ) (u : OrderBookUpdate) : Prop where
  coarse  : epsilon < tick
  counted : ∀ side, ∀ l ∈ u.side side, ∃ ticks : Int, InI64 ticks ∧ l.price = ticks * tick
  nonneg  : ∀ side, ∀ l ∈ u.side side, 0 ≤ l.quantity

theorem WellTicked.wellPriced {tick : ℚ} {u : OrderBookUpdate} (h : WellTicked tick u) : WellPriced tick u where
  coarse := h.coarse
  onGrid := by
    intro side l hl
    obtain ⟨ticks, -, hprice⟩ := h.counted side l hl
    exact ⟨ticks, hprice⟩
  nonneg := h.nonneg

/-- The number of ticks of a price. -/
def ticksOf (tick price : ℚ) : Int := asI64 (rounded (price / tick))

/-- The number of ticks within the range is recovered from the price. -/
theorem ticksOf_mul {tick : ℚ} {ticks : Int} (htick : tick ≠ 0) (h : InI64 ticks) :
    ticksOf tick (ticks * tick) = ticks := by
  rw [ticksOf, mul_div_cancel_right₀ _ htick, rounded_intCast, asI64_intCast h]

/-! ## A tree and a list -/

/-- The key of a number of ticks, and the number of ticks of a key. -/
def keyed : Side → Int → Int
  | .buy, n  => -n
  | .sell, n => n

@[simp] theorem keyed_keyed (side : Side) (n : Int) : keyed side (keyed side n) = n := by
  cases side
  · exact neg_neg n
  · rfl

/-- The price under a key. -/
def keyPrice (side : Side) (tick : ℚ) (key : Int) : ℚ := keyed side key * tick

theorem better_keyPrice_iff {tick : ℚ} (htick : 0 < tick) (side : Side) (key key' : Int) :
    side.better (keyPrice side tick key) (keyPrice side tick key') ↔ key < key' := by
  unfold keyPrice
  cases side with
  | buy =>
      show ((-key' : Int) : ℚ) * tick < ((-key : Int) : ℚ) * tick ↔ _
      rw [mul_lt_mul_iff_left₀ htick, Int.cast_lt, neg_lt_neg_iff]
  | sell =>
      show (key : ℚ) * tick < (key' : ℚ) * tick ↔ _
      rw [mul_lt_mul_iff_left₀ htick, Int.cast_lt]

theorem keyPrice_injective {tick : ℚ} (htick : 0 < tick) (side : Side) : Function.Injective (keyPrice side tick) := by
  intro key key' heq
  have hkeyed : keyed side key = keyed side key' := by
    exact_mod_cast mul_right_cancel₀ htick.ne' heq
  rw [← keyed_keyed side key, hkeyed, keyed_keyed]

/-- Read back, the tree of a side is the list of the engine. -/
structure Mirrors (side : Side) (tick : ℚ) (levels : List PriceLevel) (tree : BTreeMap Int ℚ) : Prop where
  listed  : entries levels = tree.entries.map (Prod.map (keyPrice side tick) id)
  inRange : ∀ e ∈ tree.entries, InI64 (keyed side e.1)

theorem mirrors_new (side : Side) (tick : ℚ) : Mirrors side tick [] .new where
  listed  := rfl
  inRange := by simp

theorem entries_put (tree : BTreeMap Int ℚ) (key : Int) (quantity : ℚ) :
    (put tree key quantity).entries =
      write (fun k k' => k < k') tree.entries (key, if quantity = 0 then none else some quantity) := by
  unfold put
  split_ifs
  · exact tree.entries_remove key
  · exact tree.entries_insert key quantity

section Sides

variable {side : Side} {tick : ℚ} {s : SideState} {m : LevelMap} {tree : BTreeMap Int ℚ}

/-- **One level keeps the tree and the list in step.** -/
theorem Mirrors.put (h : Mirrors side tick s.levels tree) (hs : SideBook side tick s.levels m)
    (htick : epsilon < tick) {u : PriceLevel} {ticks : Int} (hticks : InI64 ticks) (hprice : u.price = ticks * tick)
    (hq : 0 ≤ u.quantity) (timestamp : Int) :
    Mirrors side tick (processLevel side timestamp s u).1.levels
      (Engine.put tree (keyed side (ticksOf tick u.price)) u.quantity) := by
  have hpos : 0 < tick := epsilon_pos.trans htick
  have hkey : ticksOf tick u.price = ticks := by rw [hprice, ticksOf_mul hpos.ne' hticks]
  have hwrite : u.write = Prod.map (keyPrice side tick) id
      (keyed side ticks, if u.quantity = 0 then none else some u.quantity) := by
    rw [PriceLevel.write, Prod.map, keyPrice, keyed_keyed, hprice]
    rfl
  rw [hkey]
  constructor
  · -- the list is written at the price, the tree at the key that stands for it
    rw [entries_processLevel hs htick ⟨ticks, hprice⟩ hq, h.listed, hwrite, entries_put,
      map_write (keyPrice_injective hpos side) (better_keyPrice_iff hpos side)]
  · intro e he
    rw [entries_put, mem_write tree.ordered] at he
    rcases he with ⟨hnew, -⟩ | ⟨-, hold⟩
    · rw [hnew, keyed_keyed]
      exact hticks
    · exact h.inRange e hold

/-- The levels of one side of an update. -/
def putAll (side : Side) (tick : ℚ) (tree : BTreeMap Int ℚ) (us : List PriceLevel) : BTreeMap Int ℚ :=
  us.foldl (fun tree u => put tree (keyed side (ticksOf tick u.price)) u.quantity) tree

theorem Mirrors.putAll (h : Mirrors side tick s.levels tree) (hs : SideBook side tick s.levels m)
    (htick : epsilon < tick) {us : List PriceLevel}
    (hcounted : ∀ u ∈ us, ∃ ticks : Int, InI64 ticks ∧ u.price = ticks * tick) (hq : ∀ u ∈ us, 0 ≤ u.quantity)
    (timestamp : Int) :
    Mirrors side tick (processSideUpdates side timestamp s us).1.levels (Engine.putAll side tick tree us) := by
  induction us generalizing s m tree with
  | nil => exact h
  | cons u us ih =>
      obtain ⟨⟨ticks, hticks, hprice⟩, hcounted⟩ := List.forall_mem_cons.mp hcounted
      obtain ⟨hquantity, hq⟩ := List.forall_mem_cons.mp hq
      exact ih (h.put hs htick hticks hprice hquantity timestamp)
        (hs.processLevel htick ⟨ticks, hprice⟩ hquantity timestamp) hcounted hq

end Sides

/-! ## One update -/

namespace OptimizedOrderBook

def tree (b : OptimizedOrderBook) : Side → BTreeMap Int ℚ
  | .buy  => b.bids
  | .sell => b.asks

variable {profile : Profile} {b : OptimizedOrderBook} {tick : ℚ}

theorem updateBids_eq (htick : b.tickSize = tick) {us : List PriceLevel}
    (h : ∀ u ∈ us, InI64 (-ticksOf tick u.price)) :
    (entries us).foldlM (fun b level => b.updateBid profile level.1 level.2) b =
      some { b with bids := putAll .buy tick b.bids us } := by
  induction us generalizing b with
  | nil => rfl
  | cons u us ih =>
      obtain ⟨hu, hus⟩ := List.forall_mem_cons.mp h
      have hkey : profile.i64 (-b.priceToTicks u.price) = some (-ticksOf tick u.price) := by
        rw [priceToTicks, htick]
        exact Profile.i64_eq hu profile
      have hbid : b.updateBid profile u.price u.quantity =
          some { b with bids := put b.bids (-ticksOf tick u.price) u.quantity } := by
        rw [updateBid, hkey]
        rfl
      rw [entries_cons, List.foldlM_cons]
      show (b.updateBid profile u.price u.quantity).bind _ = _
      rw [hbid]
      exact @ih { b with bids := put b.bids (-ticksOf tick u.price) u.quantity } htick hus

theorem updateAsks_eq (htick : b.tickSize = tick) (us : List PriceLevel) :
    (entries us).foldl (fun b level => b.updateAsk level.1 level.2) b =
      { b with asks := putAll .sell tick b.asks us } := by
  induction us generalizing b with
  | nil => rfl
  | cons u us ih =>
      have hask : b.updateAsk u.price u.quantity =
          { b with asks := put b.asks (ticksOf tick u.price) u.quantity } := by
        rw [updateAsk, priceToTicks, htick]
        rfl
      rw [entries_cons, List.foldl_cons]
      show (entries us).foldl _ (b.updateAsk u.price u.quantity) = _
      rw [hask]
      exact @ih { b with asks := put b.asks (ticksOf tick u.price) u.quantity } htick

/-- **What an update does**, if all its bids can be negated. -/
theorem batchUpdate_eq (htick : b.tickSize = tick) {bids : List PriceLevel}
    (h : ∀ l ∈ bids, InI64 (-ticksOf tick l.price)) (asks : List PriceLevel) :
    b.batchUpdate profile (entries bids) (entries asks) =
      some { b with bids := putAll .buy tick b.bids bids, asks := putAll .sell tick b.asks asks,
                    updateCount := b.updateCount + 1 } := by
  unfold batchUpdate
  rw [updateBids_eq htick h]
  show some _ = _
  rw [@updateAsks_eq { b with bids := putAll .buy tick b.bids bids } tick htick]

/-- A bid that cannot be negated stops the process, where overflow is checked. -/
theorem updateBids_dev {b' : OptimizedOrderBook} (htick : b.tickSize = tick) {us : List PriceLevel}
    (h : (entries us).foldlM (fun b level => b.updateBid .dev level.1 level.2) b = some b') :
    ∀ u ∈ us, InI64 (-ticksOf tick u.price) := by
  induction us generalizing b with
  | nil => simp
  | cons u us ih =>
      rw [entries_cons, List.foldlM_cons] at h
      obtain ⟨b'', hbid, hrest⟩ := Option.bind_eq_some_iff.mp h
      obtain ⟨key, hkey, hnext⟩ := Option.bind_eq_some_iff.mp hbid
      rw [priceToTicks, htick] at hkey
      obtain rfl := Option.some.inj hnext
      refine List.forall_mem_cons.mpr ⟨(Profile.dev_i64.mp hkey).1, ih ?_ hrest⟩
      exact htick

/-! ## Runs -/

@[simp] theorem after_nil (profile : Profile) (symbol : String) (tick : ℚ) :
    after profile symbol tick [] = some (new symbol tick) := rfl

theorem after_snoc (profile : Profile) (symbol : String) (tick : ℚ) (updates : List OrderBookUpdate)
    (u : OrderBookUpdate) :
    after profile symbol tick (updates ++ [u]) =
      (after profile symbol tick updates).bind fun b => b.applyUpdate profile u :=
  foldlM_concat ..

/-- No bid has the one number of ticks that an `i64` cannot negate. -/
def Negatable (tick : ℚ) (u : OrderBookUpdate) : Prop := ∀ l ∈ u.bids, l.price ≠ -2 ^ 63 * tick

theorem negatable_iff {u : OrderBookUpdate} (h : WellTicked tick u) :
    Negatable tick u ↔ ∀ l ∈ u.bids, InI64 (-ticksOf tick l.price) := by
  have htick : tick ≠ 0 := (epsilon_pos.trans h.coarse).ne'
  refine forall₂_congr fun l hl => ?_
  obtain ⟨ticks, hticks, hprice⟩ := h.counted .buy l hl
  have hlowest : (-2 ^ 63 : ℚ) = ((-2 ^ 63 : Int) : ℚ) := by norm_num
  rw [hprice, ticksOf_mul htick hticks, hlowest, Ne, mul_left_inj' htick, Int.cast_inj]
  -- only the lowest number has no negative in range
  unfold InI64 at hticks ⊢
  omega

/-- The update keeps the size of a tick. -/
theorem applyUpdate_eq {u : OrderBookUpdate} (htick : b.tickSize = tick) (hu : WellTicked tick u)
    (hneg : Negatable tick u) :
    ∃ b', b.applyUpdate profile u = some b' ∧ b'.tickSize = tick ∧ ∀ side,
      b'.tree side = putAll side tick (if u.isSnapshot then .new else b.tree side) (u.side side) := by
  have hbids := (negatable_iff hu).mp hneg
  unfold applyUpdate
  split_ifs with hsnap
  · refine ⟨_, @batchUpdate_eq profile b.clear tick htick _ hbids u.asks, htick, ?_⟩
    rintro (_ | _) <;> rfl
  · refine ⟨_, batchUpdate_eq htick hbids u.asks, htick, ?_⟩
    rintro (_ | _) <;> rfl

/-- **One update keeps both sides in step.** -/
theorem mirrors_applyUpdate {e : MatchingEngine} {m : Side → LevelMap} {u : OrderBookUpdate}
    (htick : b.tickSize = tick) (h : ∀ side, Mirrors side tick (e.levels side u.symbol) (b.tree side))
    (hs : ∀ side, SideBook side tick (e.levels side u.symbol) (m side)) (hu : WellTicked tick u)
    (hneg : Negatable tick u) :
    ∃ b', b.applyUpdate profile u = some b' ∧ b'.tickSize = tick ∧
      ∀ side, Mirrors side tick ((e.processL2Update u).1.levels side u.symbol) (b'.tree side) := by
  obtain ⟨b', happly, htick', htree⟩ := @applyUpdate_eq profile b tick u htick hu hneg
  refine ⟨b', happly, htick', fun side => ?_⟩
  obtain ⟨orderIdCounter, hlevels⟩ := MatchingEngine.levels_processL2Update e u side
  rw [hlevels, htree]
  -- both start from nothing on a snapshot
  obtain ⟨m', hstart, hbook⟩ : ∃ m',
      Mirrors side tick (e.startLevels side u) (if u.isSnapshot then .new else b.tree side) ∧
      SideBook side tick (e.startLevels side u) m' := by
    unfold MatchingEngine.startLevels
    split_ifs
    · exact ⟨_, mirrors_new side tick, sideBook_nil side tick⟩
    · exact ⟨_, h side, hs side⟩
  exact @Mirrors.putAll side tick { orderIdCounter, levels := e.startLevels side u } m' _ hstart hbook hu.coarse
    (u.side side) (hu.counted side) (hu.nonneg side) u.timestamp

/-- **A run keeps both sides in step.** -/
theorem mirrors_after (profile : Profile) {symbol : String} {updates : List OrderBookUpdate}
    (h : ∀ u ∈ updates, u.symbol = symbol ∧ WellTicked tick u) (hneg : ∀ u ∈ updates, Negatable tick u) :
    ∃ b, after profile symbol tick updates = some b ∧ b.tickSize = tick ∧
      ∀ side, Mirrors side tick ((MatchingEngine.after updates).levels side symbol) (b.tree side) := by
  induction updates using List.reverseRecOn with
  | nil =>
      refine ⟨new symbol tick, rfl, rfl, ?_⟩
      rintro (_ | _)
      · exact mirrors_new .buy tick
      · exact mirrors_new .sell tick
  | append_singleton updates u ih =>
      have hprev : ∀ x ∈ updates, x.symbol = symbol ∧ WellTicked tick x :=
        fun x hx => h x (List.mem_append_left _ hx)
      obtain ⟨rfl, hu⟩ := h u (by simp)
      obtain ⟨b, hafter, htick, hmirrors⟩ := ih hprev fun x hx => hneg x (List.mem_append_left _ hx)
      have hbook := @MatchingEngine.engineBook_run (fun _ => tick) updates fun x hx => (hprev x hx).2.wellPriced
      obtain ⟨b', happly, htick', hmirrors'⟩ :=
        @mirrors_applyUpdate profile b tick (MatchingEngine.after updates) _ u htick hmirrors
          (fun side => hbook side u.symbol) hu (hneg u (by simp))
      refine ⟨b', ?_, htick', ?_⟩
      · rw [after_snoc, hafter]
        exact happly
      · rw [MatchingEngine.after_snoc]
        exact hmirrors'

/-- Where overflow is checked, a run that ends met no such bid. -/
theorem negatable_of_dev {symbol : String} {updates : List OrderBookUpdate}
    (h : ∀ u ∈ updates, u.symbol = symbol ∧ WellTicked tick u) {b : OptimizedOrderBook}
    (hafter : after .dev symbol tick updates = some b) : ∀ u ∈ updates, Negatable tick u := by
  induction updates using List.reverseRecOn generalizing b with
  | nil => simp
  | append_singleton updates u ih =>
      have hprev : ∀ x ∈ updates, x.symbol = symbol ∧ WellTicked tick x :=
        fun x hx => h x (List.mem_append_left _ hx)
      have hu := (h u (by simp)).2
      rw [after_snoc] at hafter
      obtain ⟨b₀, hafter₀, happly⟩ := Option.bind_eq_some_iff.mp hafter
      have hneg := ih hprev hafter₀
      refine List.forall_mem_append.mpr ⟨hneg, List.forall_mem_singleton.mpr ((negatable_iff hu).mpr ?_)⟩
      -- up to here the run is that of `mirrors_after`
      obtain ⟨b₁, hafter₁, htick, -⟩ := mirrors_after .dev hprev hneg
      obtain rfl := Option.some.inj (hafter₀.symm.trans hafter₁)
      unfold applyUpdate batchUpdate at happly
      obtain ⟨b₂, hbids, -⟩ := Option.bind_eq_some_iff.mp happly
      refine updateBids_dev ?_ hbids
      split <;> exact htick

/-! ## What is read -/

/-- The book shows these levels. -/
structure Shows (profile : Profile) (b : OptimizedOrderBook) (bids asks : List PriceLevel) : Prop where
  topBids : ∀ n, b.topBids profile n = some (bids.take n)
  topAsks : ∀ n, b.topAsks n = asks.take n
  bestBid : b.bestBid profile = some (bids.head?.map PriceLevel.entry)
  bestAsk : b.bestAsk = asks.head?.map PriceLevel.entry

/-- The levels that the entries of a tree are, read back. -/
theorem levels_eq {side : Side} {levels : List PriceLevel} {tree : BTreeMap Int ℚ}
    (h : Mirrors side tick levels tree) : levels = tree.entries.map fun e => ⟨keyPrice side tick e.1, e.2⟩ := by
  apply entries_injective
  rw [h.listed, entries, List.map_map]
  rfl

theorem bidLevel_eq (htick : b.tickSize = tick) {e : Int × ℚ} (h : InI64 (-e.1)) :
    b.bidLevel profile e = some ⟨keyPrice .buy tick e.1, e.2⟩ := by
  rw [bidLevel, Profile.i64_eq h, ← htick]
  rfl

theorem askLevel_eq (htick : b.tickSize = tick) (e : Int × ℚ) :
    b.askLevel e = ⟨keyPrice .sell tick e.1, e.2⟩ := by
  rw [← htick]
  rfl

/-- **Trees in step show the lists.** -/
theorem shows_of_mirrors {bids asks : List PriceLevel} (htick : b.tickSize = tick)
    (hbids : Mirrors .buy tick bids b.bids) (hasks : Mirrors .sell tick asks b.asks) : Shows profile b bids asks := by
  have hbid : ∀ e ∈ b.bids.entries, b.bidLevel profile e = some ⟨keyPrice .buy tick e.1, e.2⟩ :=
    fun e he => bidLevel_eq htick (hbids.inRange e he)
  have hask : b.askLevel = fun e => ⟨keyPrice .sell tick e.1, e.2⟩ := funext (askLevel_eq htick)
  constructor
  · intro n
    rw [levels_eq hbids, ← List.map_take, topBids]
    exact mapM_eq_map fun e he => hbid e (List.mem_of_mem_take he)
  · intro n
    rw [levels_eq hasks, ← List.map_take, topAsks, hask]
  · rw [levels_eq hbids, List.head?_map, bestBid]
    cases hhead : b.bids.entries.head? with
    | none => rfl
    | some e =>
        dsimp only
        rw [hbid e (List.mem_of_mem_head? hhead)]
        rfl
  · rw [levels_eq hasks, List.head?_map, bestAsk, hask, Option.map_map]
    rfl

/-- The standard book has the first hundred levels of each side. -/
theorem Shows.toOrderbook {bids asks : List PriceLevel} (h : Shows profile b bids asks) :
    b.toOrderbook profile = some { OrderBook.new b.symbol .binance with
      bids := bids.take 100, asks := asks.take 100,
      lastUpdateId := b.lastSequence, updateCount := b.updateCount } := by
  rw [OptimizedOrderBook.toOrderbook, h.topBids, h.topAsks]
  rfl

/-- After every update of a run the book shows the levels of the engine. -/
def Follows (profile : Profile) (symbol : String) (tick : ℚ) (updates : List OrderBookUpdate) : Prop :=
  ∀ before, before <+: updates → ∃ b, after profile symbol tick before = some b ∧
    Shows profile b ((MatchingEngine.after before).levels .buy symbol)
      ((MatchingEngine.after before).levels .sell symbol)

/-- **The book follows the engine** in both build profiles exactly if no bid has the one number of ticks that an `i64`
cannot negate. -/
theorem optimized_follows_iff (tick : ℚ) (symbol : String) (updates : List OrderBookUpdate)
    (h : ∀ u ∈ updates, u.symbol = symbol ∧ WellTicked tick u) :
    (∀ profile, Follows profile symbol tick updates) ↔ ∀ u ∈ updates, Negatable tick u := by
  constructor
  · -- the development profile is the one that panics
    intro hfollows
    obtain ⟨b, hafter, -⟩ := hfollows .dev updates List.prefix_rfl
    exact negatable_of_dev h hafter
  · intro hneg profile before hbefore
    obtain ⟨b, hafter, htick, hmirrors⟩ := @mirrors_after tick profile symbol before
      (fun u hu => h u (hbefore.subset hu)) fun u hu => hneg u (hbefore.subset hu)
    exact ⟨b, hafter, shows_of_mirrors htick (hmirrors .buy) (hmirrors .sell)⟩

open MatchingEngine in
theorem wellTicked_quote {bid ask : PriceLevel} (hcoarse : epsilon < tick) (isSnapshot : Bool)
    (hbid : ∃ ticks : Int, InI64 ticks ∧ bid.price = ticks * tick)
    (hask : ∃ ticks : Int, InI64 ticks ∧ ask.price = ticks * tick) (hq : 0 ≤ bid.quantity ∧ 0 ≤ ask.quantity) :
    WellTicked tick (quote isSnapshot bid ask) where
  coarse := hcoarse
  counted := by
    rintro (_ | _) l hl
    · rw [List.mem_singleton.mp hl]
      exact hbid
    · rw [List.mem_singleton.mp hl]
      exact hask
  nonneg := by
    rintro (_ | _) l hl
    · rw [List.mem_singleton.mp hl]
      exact hq.1
    · rw [List.mem_singleton.mp hl]
      exact hq.2

open MatchingEngine in
/-- A snapshot, then a better bid and the end of the ask. -/
theorem optimized_follows_quotes :
    Follows .release "BTCUSDT" (1 / 100) [quote true ⟨100, 1⟩ ⟨101, 2⟩, quote false ⟨201 / 2, 3⟩ ⟨101, 0⟩] := by
  have hcoarse : epsilon < 1 / 100 := by decide +kernel
  refine (optimized_follows_iff _ _ _ ?_).mpr ?_ .release
  · refine List.forall_mem_cons.mpr ⟨⟨rfl, ?_⟩, List.forall_mem_singleton.mpr ⟨rfl, ?_⟩⟩
    · exact wellTicked_quote hcoarse true ⟨10000, by decide, by norm_num⟩ ⟨10100, by decide, by norm_num⟩
        ⟨by norm_num, by norm_num⟩
    · exact wellTicked_quote hcoarse false ⟨10050, by decide, by norm_num⟩ ⟨10100, by decide, by norm_num⟩
        ⟨by norm_num, by norm_num⟩
  · unfold Negatable
    decide +kernel

/-- One bid, at the number of ticks that an `i64` cannot negate. -/
def lowestBid : OrderBookUpdate := MatchingEngine.quote false ⟨-2 ^ 63, 2⟩ ⟨101, 2⟩

/-- The development profile panics; the release profile takes the lowest bid for the best. -/
theorem lowest_bid_best :
    (lowestBid.symbol = "BTCUSDT" ∧ WellTicked 1 lowestBid) ∧
    (after .dev "BTCUSDT" 1 [MatchingEngine.quote true ⟨100, 1⟩ ⟨101, 1⟩, lowestBid]).isNone = true ∧
    (after .release "BTCUSDT" 1 [MatchingEngine.quote true ⟨100, 1⟩ ⟨101, 1⟩, lowestBid]).bind (bestBid .release) =
      some (some (-2 ^ 63, 2)) ∧
    ((MatchingEngine.after [MatchingEngine.quote true ⟨100, 1⟩ ⟨101, 1⟩, lowestBid]).levels .buy "BTCUSDT").head? =
      some ⟨100, 1⟩ := by
  refine ⟨⟨rfl, ?_⟩, by decide +kernel⟩
  exact wellTicked_quote (by decide +kernel) false ⟨-2 ^ 63, by decide, by norm_num⟩ ⟨101, by decide, by norm_num⟩
    ⟨by norm_num, by norm_num⟩

end OptimizedOrderBook

end Engine
end TradingPlatform
