import TradingPlatform.Nbbo.Manager

/-!
# `Nbbo.Runs` — the cached quote over a run

A manager starts without quotes, and a computation that finds one for a symbol without an entry never returns: the
first quote is never made. So the calls of a run return, and the cache is as the fresh books have it, exactly as long as
no computation finds a bid and an ask (`cached_best_iff`).
-/

namespace TradingPlatform
namespace Nbbo

open Guards Machine Market

inductive Call where
  | update (iteration : Iteration) (symbol : String) (exchange : Exchange) (orderBook : OrderBook) (timestamp : Int)
  | compute (iteration : Iteration) (symbol : String) (currentTime : Int)
  | cleanup (currentTime : Int)

namespace Call

def time : Call → Int
  | .update _ _ _ _ timestamp => timestamp
  | .compute _ _ currentTime  => currentTime
  | .cleanup currentTime      => currentTime

/-- A cleanup concerns every symbol. -/
def Concerns (symbol : String) : Call → Prop
  | .update _ symbol' _ _ _ => symbol' = symbol
  | .compute _ symbol' _    => symbol' = symbol
  | .cleanup _              => True

/-- The call and the result of its computation; `none` if it never returns. -/
def await (manager : NBBOManager) : Call → Option (NBBOManager × Option (Except String NBBO))
  | .update iteration symbol exchange orderBook timestamp =>
    (manager.updateOrderBook iteration symbol exchange orderBook timestamp).map (Prod.map id some)
  | .compute iteration symbol currentTime =>
    (manager.computeNbbo iteration symbol currentTime).map (Prod.map id some)
  | .cleanup currentTime => some (manager.cleanupStale currentTime, none)

end Call

/-- The cached quote is the best of the books that are fresh now, and is there when they have a bid and an ask. -/
structure Current (manager : NBBOManager) (symbol : String) (time : Int) : Prop where
  quoted : (manager.getNbbo symbol).isSome ↔ Complete (manager.Fresh symbol time)
  best   : ∀ nbbo ∈ manager.getNbbo symbol, nbbo.IsBest (manager.Fresh symbol time)

/-- The call returns, and the quotes it concerns are current after it. -/
def LeavesCurrent (manager : NBBOManager) (call : Call) : Prop :=
  ∃ next, call.await manager = some next ∧ ∀ symbol, call.Concerns symbol → Current next.1 symbol call.time

/-- If the call comes to a computation, the fresh books of its symbol have no bid or no ask. -/
def FindsNoQuote (manager : NBBOManager) : Call → Prop
  | .update _ symbol exchange orderBook timestamp =>
    ¬ (orderBook.bids = [] ∧ orderBook.asks = []) →
      ¬ Complete ((manager.store symbol exchange orderBook timestamp).Fresh symbol timestamp)
  | .compute _ symbol currentTime => ¬ Complete (manager.Fresh symbol currentTime)
  | .cleanup _                    => True

/-! ## Time -/

theorem ageMs_mono {time time' : Int} (h : time ≤ time') (lastUpdate : Int) :
    ageMs time lastUpdate ≤ ageMs time' lastUpdate :=
  Int.tdiv_le_tdiv (by decide) (Int.sub_le_sub_right h lastUpdate)

/-- A book that is fresh was fresh before. -/
theorem fresh_anti (manager : NBBOManager) (symbol : String) {time time' : Int} (h : time ≤ time') :
    manager.Fresh symbol time' ⊆ manager.Fresh symbol time :=
  fun entry hentry => ⟨hentry.1, hentry.2.1, (ageMs_mono h entry.2.lastUpdate).trans hentry.2.2⟩

theorem Complete.mono {books books' : Set BookEntry} (h : books ⊆ books') (hcomplete : Complete books) :
    Complete books' :=
  ⟨hcomplete.1.imp fun _ hentry => ⟨h hentry.1, hentry.2⟩, hcomplete.2.imp fun _ hentry => ⟨h hentry.1, hentry.2⟩⟩

theorem Quoted.complete {books : Set BookEntry} (h : Quoted books) : Complete books := by
  obtain ⟨⟨entry, hentry, quote, hquote, -⟩, entry', hentry', quote', hquote', -⟩ := h
  exact ⟨⟨entry, hentry, Option.isSome_of_mem hquote⟩, entry', hentry', Option.isSome_of_mem hquote'⟩

/-! ## What a run keeps as long as its calls return -/

/-- Nothing is cached, and no symbol has both a bid and an ask. -/
structure Unquoted (manager : NBBOManager) (now : Int) : Prop where
  keys       : (manager.orderBooks.map Prod.fst).Nodup
  cache      : manager.nbboCache = []
  incomplete : ∀ symbol, ¬ Complete (manager.Fresh symbol now)

theorem Unquoted.new (maxStaleMs now : Int) : Unquoted (.new maxStaleMs) now := by
  refine ⟨List.nodup_nil, rfl, fun symbol => ?_⟩
  rintro ⟨⟨entry, hentry, -⟩, -⟩
  exact absurd hentry.1 List.not_mem_nil

section Steps

variable {manager next : NBBOManager} {now time : Int} {symbol : String}

theorem getNbbo_of_cache (h : manager.nbboCache = []) (symbol : String) : manager.getNbbo symbol = none := by
  unfold NBBOManager.getNbbo
  rw [h]
  rfl

theorem Unquoted.wait (h : Unquoted manager now) (htime : now ≤ time) : Unquoted manager time :=
  ⟨h.keys, h.cache, fun symbol hcomplete =>
    h.incomplete symbol (hcomplete.mono (fresh_anti manager symbol htime))⟩

/-- Without a quote the cache is current exactly if there is none to be had. -/
theorem current_iff_of_cache (h : manager.nbboCache = []) :
    Current manager symbol time ↔ ¬ Complete (manager.Fresh symbol time) := by
  have hnone := getNbbo_of_cache h symbol
  constructor
  · intro hcurrent hcomplete
    have hsome := hcurrent.quoted.mpr hcomplete
    rw [hnone] at hsome
    cases hsome
  · intro hincomplete
    refine ⟨iff_of_false ?_ hincomplete, fun nbbo hnbbo => ?_⟩
    · rw [hnone]
      exact Bool.false_ne_true
    · rw [hnone] at hnbbo
      cases hnbbo

/-- **A cleanup** keeps exactly the books that are not stale. -/
theorem mem_cleanupStale (hkeys : (manager.orderBooks.map Prod.fst).Nodup) {time : Int} {entry : BookEntry} :
    entry ∈ (manager.cleanupStale time).orderBooks ↔
      entry ∈ manager.orderBooks ∧ ageMs time entry.2.lastUpdate ≤ manager.maxStaleMs := by
  have hkept : entry ∈ manager.orderBooks → (entry.1 ∈ (manager.orderBooks.filter fun other =>
      manager.maxStaleMs < ageMs time other.2.lastUpdate).map Prod.fst ↔
        manager.maxStaleMs < ageMs time entry.2.lastUpdate) := by
    intro hentry
    constructor
    · intro hkey
      obtain ⟨other, hother, heq⟩ := List.mem_map.mp hkey
      obtain ⟨hmem, hstale⟩ := List.mem_filter.mp hother
      rw [List.inj_on_of_nodup_map hkeys hmem hentry heq] at hstale
      exact of_decide_eq_true hstale
    · intro hstale
      exact List.mem_map_of_mem (List.mem_filter.mpr ⟨hentry, decide_eq_true hstale⟩)
  show entry ∈ manager.orderBooks.filter _ ↔ _
  rw [List.mem_filter, decide_eq_true_eq]
  refine and_congr_right fun hentry => ?_
  rw [hkept hentry, not_lt]

theorem Unquoted.cleanup (h : Unquoted manager now) (time : Int) : Unquoted (manager.cleanupStale time) now := by
  refine ⟨h.keys.sublist (List.filter_sublist.map _), h.cache, fun symbol hcomplete => ?_⟩
  refine h.incomplete symbol (hcomplete.mono ?_)
  rintro entry ⟨hentry, hfresh⟩
  exact ⟨((mem_cleanupStale h.keys).mp hentry).1, hfresh⟩

/-- The books of other symbols are not touched by an update. -/
theorem fresh_store (hkeys : (manager.orderBooks.map Prod.fst).Nodup) {symbol symbol' : String} (hne : symbol' ≠ symbol)
    (exchange : Exchange) (orderBook : OrderBook) (timestamp time : Int) :
    (manager.store symbol exchange orderBook timestamp).Fresh symbol' time = manager.Fresh symbol' time := by
  ext entry
  constructor
  · rintro ⟨hentry, hfresh⟩
    rcases (Assoc.mem_put hkeys).mp hentry with heq | ⟨-, hentry⟩
    · rw [heq] at hfresh
      exact absurd hfresh.1 hne.symm
    · exact ⟨hentry, hfresh⟩
  · rintro ⟨hentry, hfresh⟩
    refine ⟨(Assoc.mem_put hkeys).mpr (.inr ⟨fun heq => hne ?_, hentry⟩), hfresh⟩
    rw [← hfresh.1, heq]

/-! ## One call -/

/-- **A computation** of a manager that has cached nothing returns with the quote current exactly if it finds no bid or
    no ask. -/
theorem computeNbbo_current_iff (hcache : manager.nbboCache = []) (iteration : Iteration) :
    (∃ next, manager.computeNbbo iteration symbol time = some next ∧ Current next.1 symbol time) ↔
      ¬ Complete (manager.Fresh symbol time) := by
  obtain ⟨hfails, hfinds⟩ := computeNbbo_spec manager iteration symbol time
  by_cases hquoted : Quoted (manager.Fresh symbol time)
  · -- it never returns
    refine iff_of_false ?_ (not_not.mpr hquoted.complete)
    rintro ⟨next, hnext, -⟩
    have hsome := (hfinds hquoted).1.mp (Option.isSome_of_mem hnext)
    rw [getNbbo_of_cache hcache] at hsome
    cases hsome
  · -- it fails, and counts the attempt
    have hcurrent : Current { manager with nbboComputations := manager.nbboComputations + 1 } symbol time ↔
        ¬ Complete (manager.Fresh symbol time) := current_iff_of_cache hcache
    rw [hfails hquoted, ← hcurrent]
    constructor
    · rintro ⟨next, hnext, h⟩
      cases hnext
      exact h
    · exact fun h => ⟨_, rfl, h⟩

/-- What a computation that finds no bid or no ask leaves. -/
theorem Unquoted.compute (h : Unquoted manager now) (hincomplete : ¬ Complete (manager.Fresh symbol time))
    (iteration : Iteration) :
    ∃ next result, manager.computeNbbo iteration symbol time = some (next, result) ∧ Unquoted next now :=
  ⟨_, _, (computeNbbo_spec manager iteration symbol time).1 fun hquoted => hincomplete hquoted.complete,
    h.keys, h.cache, h.incomplete⟩

/-- **A book is stored** and leaves the books of its symbol without a bid or an ask. -/
theorem Unquoted.store (h : Unquoted manager now) {exchange : Exchange} {orderBook : OrderBook}
    (hincomplete : ¬ Complete ((manager.store symbol exchange orderBook now).Fresh symbol now)) :
    Unquoted (manager.store symbol exchange orderBook now) now := by
  refine ⟨Assoc.nodup_put h.keys _ _, h.cache, fun symbol' => ?_⟩
  by_cases hsymbol : symbol' = symbol
  · rwa [hsymbol]
  · rw [fresh_store h.keys hsymbol]
    exact h.incomplete symbol'

/-- The quote of one symbol is what a call on it concerns. -/
theorem exists_result_iff {computed : Option (NBBOManager × Except String NBBO)} :
    (∃ next, computed.map (Prod.map id some) = some next ∧
        ∀ symbol', symbol = symbol' → Current next.1 symbol' time) ↔
      ∃ next, computed = some next ∧ Current next.1 symbol time := by
  constructor
  · rintro ⟨next, hnext, hcurrent⟩
    obtain ⟨result, hresult, rfl⟩ := Option.map_eq_some_iff.mp hnext
    exact ⟨result, hresult, hcurrent symbol rfl⟩
  · rintro ⟨result, rfl, hcurrent⟩
    refine ⟨_, rfl, ?_⟩
    rintro symbol' rfl
    exact hcurrent

/-- **An update** of a manager that has cached nothing. -/
theorem Unquoted.update (h : Unquoted manager now) (iteration : Iteration) (symbol : String) (exchange : Exchange)
    (orderBook : OrderBook) :
    (LeavesCurrent manager (.update iteration symbol exchange orderBook now) ↔
        FindsNoQuote manager (.update iteration symbol exchange orderBook now)) ∧
      (FindsNoQuote manager (.update iteration symbol exchange orderBook now) →
        ∃ next result, Call.await manager (.update iteration symbol exchange orderBook now) = some (next, result) ∧
          Unquoted next now) := by
  have hcounted : Unquoted { manager with totalUpdates := manager.totalUpdates + 1 } now :=
    ⟨h.keys, h.cache, h.incomplete⟩
  unfold LeavesCurrent FindsNoQuote Call.await NBBOManager.updateOrderBook
  dsimp only
  by_cases hempty : orderBook.bids = [] ∧ orderBook.asks = []
  · rw [if_pos hempty]
    refine ⟨iff_of_true ⟨_, rfl, ?_⟩ (fun hne => absurd hempty hne), fun _ => ⟨_, _, rfl, hcounted⟩⟩
    rintro symbol' -
    exact (current_iff_of_cache hcounted.cache).mpr (hcounted.incomplete symbol')
  · rw [if_neg hempty]
    have hstored : (NBBOManager.store { manager with totalUpdates := manager.totalUpdates + 1 } symbol exchange
      orderBook now).nbboCache = [] := h.cache
    refine ⟨exists_result_iff.trans ((computeNbbo_current_iff hstored iteration).trans ?_), fun hfinds => ?_⟩
    · exact ⟨fun hincomplete _ => hincomplete, fun hfinds => hfinds hempty⟩
    · obtain ⟨next, result, hnext, hunquoted⟩ := (hcounted.store (hfinds hempty)).compute (hfinds hempty) iteration
      rw [hnext]
      exact ⟨next, some result, rfl, hunquoted⟩

/-- **One call** returns with its quotes current exactly if it finds no quote, and then nothing is cached after it. -/
theorem Unquoted.step (h : Unquoted manager now) {call : Call} (htime : now ≤ call.time) :
    (LeavesCurrent manager call ↔ FindsNoQuote manager call) ∧
      (FindsNoQuote manager call →
        ∃ next result, call.await manager = some (next, result) ∧ Unquoted next call.time) := by
  have hnow := h.wait htime
  cases call with
  | update iteration symbol exchange orderBook timestamp => exact hnow.update iteration symbol exchange orderBook
  | compute iteration symbol currentTime =>
      refine ⟨exists_result_iff.trans (computeNbbo_current_iff h.cache iteration), fun hincomplete => ?_⟩
      obtain ⟨next, result, hnext, hunquoted⟩ := hnow.compute hincomplete iteration
      unfold Call.await
      dsimp only
      rw [hnext]
      exact ⟨next, some result, rfl, hunquoted⟩
  | cleanup currentTime =>
      have hclean := hnow.cleanup currentTime
      refine ⟨iff_of_true ⟨_, rfl, ?_⟩ trivial, fun _ => ⟨_, _, rfl, hclean⟩⟩
      rintro symbol -
      exact (current_iff_of_cache hclean.cache).mpr (hclean.incomplete symbol)

end Steps

/-- **Every call** of a run returns with its quotes current exactly if every call finds no quote. -/
theorem Unquoted.run {manager : NBBOManager} {now : Int} (h : Unquoted manager now) {calls : List Call}
    (hnow : ∀ call ∈ calls, now ≤ call.time) (htimes : calls.Pairwise fun a b => a.time ≤ b.time) :
    Guarded (callStep Call.await) LeavesCurrent manager calls ↔
      Guarded (callStep Call.await) FindsNoQuote manager calls := by
  induction calls generalizing manager now with
  | nil => exact Iff.rfl
  | cons call calls ih =>
      obtain ⟨hlater, hrest⟩ := List.pairwise_cons.mp htimes
      obtain ⟨hiff, hkeeps⟩ := h.step (hnow call List.mem_cons_self)
      refine and_congr_right_iff.mpr ?_ |>.trans (and_congr_left' hiff)
      intro hleaves
      obtain ⟨next, result, hnext, hunquoted⟩ := hkeeps (hiff.mp hleaves)
      rw [callStep_of_some hnext]
      exact ih hunquoted hlater hrest

/-- **The cached quote is the best of the fresh books** directly after every call of a run, and the call returns,
    exactly if no computation of the run finds a bid and an ask. -/
theorem cached_best_iff (maxStaleMs : Int) (calls : List Call) (htimes : calls.Pairwise fun a b => a.time ≤ b.time) :
    (∀ done call, done ++ [call] <+: calls →
      LeavesCurrent (run (callStep Call.await) (.new maxStaleMs) done).1 call) ↔
    Guarded (callStep Call.await) FindsNoQuote (.new maxStaleMs) calls := by
  rw [← guarded_iff_points]
  cases calls with
  | nil => exact Iff.rfl
  | cons call calls =>
      have hunquoted := Unquoted.new maxStaleMs call.time
      exact hunquoted.run (List.forall_mem_cons.mpr ⟨le_rfl, (List.pairwise_cons.mp htimes).1⟩) htimes

/-! ## The first quote -/

instance (manager : NBBOManager) (symbol : String) (time : Int) : Decidable (Complete (manager.Fresh symbol time)) :=
  decidable_of_iff
    ((∃ entry ∈ manager.orderBooks, IsFresh manager.maxStaleMs symbol time entry ∧ (bidOf entry).isSome) ∧
      ∃ entry ∈ manager.orderBooks, IsFresh manager.maxStaleMs symbol time entry ∧ (askOf entry).isSome)
    (and_congr (exists_congr fun _ => and_assoc.symm) (exists_congr fun _ => and_assoc.symm))

instance (manager : NBBOManager) (call : Call) : Decidable (FindsNoQuote manager call) :=
  match call with
  | .update _ symbol exchange orderBook timestamp => inferInstanceAs (Decidable
      (¬ (orderBook.bids = [] ∧ orderBook.asks = []) →
        ¬ Complete ((manager.store symbol exchange orderBook timestamp).Fresh symbol timestamp)))
  | .compute _ symbol currentTime => inferInstanceAs (Decidable (¬ Complete (manager.Fresh symbol currentTime)))
  | .cleanup _                    => isTrue trivial

/-- The map visits its entries in the order they arrived. -/
def arrival : Iteration := ⟨id, fun _ => .refl _⟩

def bookOf (exchange : Exchange) (bids asks : List PriceLevel) : OrderBook :=
  { symbol := "BTC-USD", exchange, timestamp := 0, bids, asks, lastUpdateId := 1, firstUpdateId := 1, updateCount := 1 }

/-- A bid of one exchange and an ask of the other, which comes when the bid is stale. -/
def handedOver : List Call :=
  [.update arrival "BTC-USD" .okx (bookOf .okx [⟨100, 1⟩] []) 0,
    .compute arrival "BTC-USD" 500000,
    .update arrival "BTC-USD" .binance (bookOf .binance [] [⟨101, 1⟩]) 2000000,
    .cleanup 2500000, .update arrival "BTC-USD" .okx (bookOf .okx [] []) 2600000]

theorem cached_best_handedOver :
    (handedOver.Pairwise fun a b => a.time ≤ b.time) ∧
    Guarded (callStep Call.await) FindsNoQuote (.new 1000) handedOver ∧
      ∀ done call, done ++ [call] <+: handedOver →
        LeavesCurrent (run (callStep Call.await) (.new 1000) done).1 call :=
  have htimes : handedOver.Pairwise fun a b => a.time ≤ b.time := by decide +kernel
  have hfinds : Guarded (callStep Call.await) FindsNoQuote (.new 1000) handedOver := by decide +kernel
  ⟨htimes, hfinds, (cached_best_iff 1000 handedOver htimes).mpr hfinds⟩

/-- The first book of a manager has a bid and an ask. -/
def firstBook : Call := .update arrival "BTC-USD" .binance (bookOf .binance [⟨100, 1⟩] [⟨101, 1⟩]) 0

/-- The call never returns. -/
theorem firstBook_waits :
    firstBook.await (.new 60000) = none ∧
      ¬ ∀ done call, done ++ [call] <+: [firstBook] →
        LeavesCurrent (run (callStep Call.await) (.new 60000) done).1 call := by
  have hnone : firstBook.await (.new 60000) = none := by decide +kernel
  refine ⟨hnone, fun h => ?_⟩
  obtain ⟨next, hnext, -⟩ := h [] firstBook (List.prefix_refl _)
  rw [run_nil, hnone] at hnext
  cases hnext

end Nbbo
end TradingPlatform
