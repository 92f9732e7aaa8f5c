import TradingPlatform.Features.Calculator
import TradingPlatform.Engine.Matching
import TradingPlatform.Library.Expiry

/-!
# `Features.History` — what a pruned history still answers

A history drops what is older than its lookback, counted from the latest entry. Added in the order of the time
stamps, what is left is a filter of all that was added (`entries_after`), so the trades and events of a shorter past
are those of the unpruned history. The book in force some time ago is another matter: it may be older than the
lookback itself when updates are rare, and then it is gone.
-/

namespace TradingPlatform
namespace Features

open Market

/-! ## Order events -/

abbrev OrderEventHistory := History Engine.OrderEvent

def OrderEventHistory.eventTimestamp : Engine.OrderEvent → Int
  | .add _ _ _ _ timestamp  => timestamp
  | .modify _ _ timestamp   => timestamp
  | .cancel _ timestamp     => timestamp
  | .execute _ _ timestamp  => timestamp

def OrderEventHistory.eventsSince (h : OrderEventHistory) (lookbackMs : Int) : List Engine.OrderEvent :=
  let cutoff := (h.latest.map fun e => eventTimestamp e - lookbackMs * 1000).getD 0
  h.entries.filter fun e => eventTimestamp e ≥ cutoff

/-! ## Histories as queues -/

namespace History

variable {α : Type} {timestamp : α → Int}

/-- The history after a sequence of adds. -/
def after (timestamp : α → Int) (maxLookbackMs : Int) (added : List α) : History α :=
  added.foldl (add timestamp) (new maxLookbackMs)

/-- The history that drops nothing. -/
def unpruned (maxLookbackMs : Int) (added : List α) : History α :=
  { entries := added, maxLookbackMicros := maxLookbackMs * 1000 }

/-- The time that lies so many milliseconds back. -/
def back (lookbackMs time : Int) : Int := time - lookbackMs * 1000

theorem back_mono (lookbackMs : Int) {s t : Int} (h : s ≤ t) : back lookbackMs s ≤ back lookbackMs t := by
  unfold back
  omega

theorem back_le_back {lookbackMs maxLookbackMs : Int} (h : lookbackMs ≤ maxLookbackMs) (time : Int) :
    back maxLookbackMs time ≤ back lookbackMs time := by
  unfold back
  omega

theorem add_eq (h : History α) (a : α) :
    h.add timestamp a =
      { h with
        entries := (h.entries ++ [a]).dropWhile fun oldest =>
          timestamp oldest < timestamp a - h.maxLookbackMicros } := by
  unfold add cleanup
  dsimp only
  rw [List.getLast?_concat]

/-- The adds are pushes of the queue. -/
theorem foldl_add (maxLookbackMs : Int) (entries added : List α) :
    added.foldl (add timestamp) { entries, maxLookbackMicros := maxLookbackMs * 1000 }
      = { entries := added.foldl (Expiry.push timestamp (back maxLookbackMs)) entries,
          maxLookbackMicros := maxLookbackMs * 1000 } := by
  induction added generalizing entries with
  | nil => rfl
  | cons a added ih =>
      rw [List.foldl_cons, List.foldl_cons, add_eq]
      exact ih _

/-- **After adds in the order of the time stamps the history holds what is recent among all of them.** -/
theorem entries_after (maxLookbackMs : Int) {added : List α} (h : Expiry.Ordered timestamp added) :
    (after timestamp maxLookbackMs added).entries = Expiry.recent timestamp (back maxLookbackMs) added := by
  rw [← Expiry.foldl_push (fun _ _ => back_mono maxLookbackMs) h]
  exact congrArg History.entries (foldl_add maxLookbackMs [] added)

end History

open History

/-- The histories after their `add_snapshot`, `add_trade` and `add_event` calls, and what they would be unpruned. -/
def OrderBookHistory.after (maxLookbackMs : Int) (books : List OrderBook) : OrderBookHistory :=
  History.after OrderBook.timestamp maxLookbackMs books

def OrderBookHistory.unpruned (maxLookbackMs : Int) (books : List OrderBook) : OrderBookHistory :=
  History.unpruned maxLookbackMs books

def TradeHistory.after (maxLookbackMs : Int) (trades : List Trade) : TradeHistory :=
  History.after Trade.timestamp maxLookbackMs trades

def TradeHistory.unpruned (maxLookbackMs : Int) (trades : List Trade) : TradeHistory :=
  History.unpruned maxLookbackMs trades

def OrderEventHistory.after (maxLookbackMs : Int) (events : List Engine.OrderEvent) : OrderEventHistory :=
  History.after eventTimestamp maxLookbackMs events

def OrderEventHistory.unpruned (maxLookbackMs : Int) (events : List Engine.OrderEvent) : OrderEventHistory :=
  History.unpruned maxLookbackMs events

/-! ## Trades and events -/

theorem tradesSince_eq (h : TradeHistory) (lookbackMs : Int) :
    h.tradesSince lookbackMs = Expiry.recent Trade.timestamp (back lookbackMs) h.entries := by
  obtain ⟨entries, _⟩ := h
  obtain rfl | ⟨earlier, last, rfl⟩ := entries.eq_nil_or_concat'
  · rfl
  · simp [TradeHistory.tradesSince, latest, Expiry.recent_concat, back]

theorem eventsSince_eq (h : OrderEventHistory) (lookbackMs : Int) :
    h.eventsSince lookbackMs = Expiry.recent OrderEventHistory.eventTimestamp (back lookbackMs) h.entries := by
  obtain ⟨entries, _⟩ := h
  obtain rfl | ⟨earlier, last, rfl⟩ := entries.eq_nil_or_concat'
  · rfl
  · simp [OrderEventHistory.eventsSince, latest, Expiry.recent_concat, back]

/-- **The trades and events of a shorter past survive the pruning.** Whatever was added in the order of the time
    stamps, both queries return what is recent among all of it, in order, which is what they return on the history
    that drops nothing. -/
theorem recent_entries_survive {maxLookbackMs lookbackMs : Int} (hle : lookbackMs ≤ maxLookbackMs)
    {trades : List Trade} (htrades : trades.Pairwise fun t t' => t.timestamp ≤ t'.timestamp)
    {events : List Engine.OrderEvent} (hevents : events.Pairwise fun e e' =>
      OrderEventHistory.eventTimestamp e ≤ OrderEventHistory.eventTimestamp e') :
    ((TradeHistory.after maxLookbackMs trades).tradesSince lookbackMs
        = (TradeHistory.unpruned maxLookbackMs trades).tradesSince lookbackMs ∧
      (TradeHistory.unpruned maxLookbackMs trades).tradesSince lookbackMs
        = trades.filter fun t => ∀ latest ∈ trades.getLast?, back lookbackMs latest.timestamp ≤ t.timestamp) ∧
    ((OrderEventHistory.after maxLookbackMs events).eventsSince lookbackMs
        = (OrderEventHistory.unpruned maxLookbackMs events).eventsSince lookbackMs ∧
      (OrderEventHistory.unpruned maxLookbackMs events).eventsSince lookbackMs
        = events.filter fun e => ∀ latest ∈ events.getLast?,
            back lookbackMs (OrderEventHistory.eventTimestamp latest) ≤ OrderEventHistory.eventTimestamp e) := by
  refine ⟨⟨?_, ?_⟩, ?_, ?_⟩
  · rw [tradesSince_eq, tradesSince_eq, TradeHistory.after, entries_after maxLookbackMs htrades]
    exact Expiry.recent_recent (back_le_back hle) htrades
  · rw [tradesSince_eq]
    rfl
  · rw [eventsSince_eq, eventsSince_eq, OrderEventHistory.after, entries_after maxLookbackMs hevents]
    exact Expiry.recent_recent (back_le_back hle) hevents
  · rw [eventsSince_eq]
    rfl

/-- A trade of one unit at a time stamp. -/
def tradeAt (timestamp : Int) : Trade :=
  { timestamp, symbol := "BTCUSDT", exchange := .binance, price := 100, quantity := 1, side := .buy, tradeId := "" }

/-- Two trades at the cutoff of the query, after one that the history has dropped. -/
theorem recent_entries_survive_cutoff :
    (TradeHistory.after 300 [tradeAt 0, tradeAt 900000, tradeAt 900000, tradeAt 1000000]).tradesSince 100
      = (TradeHistory.unpruned 300 [tradeAt 0, tradeAt 900000, tradeAt 900000, tradeAt 1000000]).tradesSince 100 :=
  (@recent_entries_survive 300 100 (by decide) _ (by decide +kernel) [] List.Pairwise.nil).1.1

/-! ## The book in force -/

/-- The last of the books that were there so long before the latest. -/
def InForce (books : List OrderBook) (offsetMs : Int) (b : OrderBook) : Prop :=
  ∃ before later, books = before ++ b :: later ∧ ∀ latest ∈ books.getLast?,
    b.timestamp ≤ back offsetMs latest.timestamp ∧ ∀ b' ∈ later, back offsetMs latest.timestamp < b'.timestamp

/-- `get_book_at` is a search from the back. -/
theorem getBookAt_eq (h : OrderBookHistory) (offsetMs : Int) :
    h.getBookAt offsetMs = h.entries.getLast?.bind fun latest =>
      Expiry.asOf OrderBook.timestamp (back offsetMs latest.timestamp) h.entries := rfl

theorem getBookAt_unpruned (maxLookbackMs offsetMs : Int) (books : List OrderBook) (b : OrderBook) :
    (OrderBookHistory.unpruned maxLookbackMs books).getBookAt offsetMs = some b ↔ InForce books offsetMs b := by
  rw [getBookAt_eq]
  unfold OrderBookHistory.unpruned History.unpruned InForce
  dsimp only
  cases hlast : books.getLast? with
  | none =>
      rw [List.getLast?_eq_none_iff] at hlast
      simp [hlast]
  | some latest =>
      rw [Option.bind_some, Expiry.asOf_eq_some_iff]
      constructor
      · rintro ⟨htarget, before, later, hsplit, hlater⟩
        refine ⟨before, later, hsplit, ?_⟩
        rintro _ ⟨⟩
        exact ⟨htarget, hlater⟩
      · rintro ⟨before, later, hsplit, hboth⟩
        obtain ⟨htarget, hlater⟩ := hboth latest rfl
        exact ⟨htarget, before, later, hsplit, hlater⟩

/-- The latest book itself is never dropped. -/
theorem getLast?_entries_after {maxLookbackMs : Int} (hmax : 0 ≤ maxLookbackMs) {books : List OrderBook}
    (h : Expiry.Ordered OrderBook.timestamp books) :
    (OrderBookHistory.after maxLookbackMs books).entries.getLast? = books.getLast? := by
  rw [OrderBookHistory.after, entries_after maxLookbackMs h]
  obtain rfl | ⟨earlier, last, rfl⟩ := books.eq_nil_or_concat'
  · rfl
  · have hkeep : back maxLookbackMs last.timestamp ≤ last.timestamp := by
      unfold back
      omega
    rw [Expiry.recent_concat, List.filter_append, List.filter_cons_of_pos (by simpa using hkeep), List.filter_nil,
      List.getLast?_concat, List.getLast?_concat]

/-- **The book in force is found in the pruned history** exactly if, once a book has been dropped, another one lies
    between the end of the lookback and the time asked for. -/
theorem book_in_force_survives_iff {maxLookbackMs offsetMs : Int} (hoffset : 0 ≤ offsetMs)
    (hmax : offsetMs ≤ maxLookbackMs) {books : List OrderBook}
    (h : books.Pairwise fun b b' => b.timestamp ≤ b'.timestamp) :
    ((OrderBookHistory.after maxLookbackMs books).getBookAt offsetMs
        = (OrderBookHistory.unpruned maxLookbackMs books).getBookAt offsetMs ↔
      ∀ latest ∈ books.getLast?,
        (∃ b ∈ books, b.timestamp < back maxLookbackMs latest.timestamp) →
          ∃ b ∈ books, back maxLookbackMs latest.timestamp ≤ b.timestamp ∧
            b.timestamp ≤ back offsetMs latest.timestamp) ∧
    ∀ b, (OrderBookHistory.unpruned maxLookbackMs books).getBookAt offsetMs = some b ↔ InForce books offsetMs b := by
  refine ⟨?_, getBookAt_unpruned maxLookbackMs offsetMs books⟩
  rw [getBookAt_eq, getBookAt_eq, getLast?_entries_after (hoffset.trans hmax) h, OrderBookHistory.after,
    entries_after maxLookbackMs h]
  unfold OrderBookHistory.unpruned History.unpruned
  dsimp only
  obtain rfl | ⟨earlier, last, rfl⟩ := books.eq_nil_or_concat'
  · simp
  · rw [Expiry.recent_concat, List.getLast?_concat, Option.bind_some, Option.bind_some,
      Expiry.asOf_filter_iff (back_le_back hmax last.timestamp) h]
    simp

/-- A book at a time stamp. -/
def bookAt (timestamp : Int) : OrderBook := { OrderBook.new "BTCUSDT" .binance with timestamp }

/-- Updates every half second: the book of a second ago is there. -/
theorem book_in_force_survives_half_second :
    (OrderBookHistory.after 1000 [bookAt 0, bookAt 500000, bookAt 1000000, bookAt 1500000]).getBookAt 300
      = (OrderBookHistory.unpruned 1000 [bookAt 0, bookAt 500000, bookAt 1000000, bookAt 1500000]).getBookAt 300 :=
  (@book_in_force_survives_iff 1000 300 (by decide) (by decide) _ (by decide +kernel)).1.mpr (by decide +kernel)

/-- Two seconds without an update: the book that was in force all that time is dropped by the update that ends
    them. -/
theorem book_in_force_dropped :
    [bookAt 0, bookAt 2000000].Pairwise (fun b b' => b.timestamp ≤ b'.timestamp) ∧
    InForce [bookAt 0, bookAt 2000000] 300 (bookAt 0) ∧
    (OrderBookHistory.unpruned 1000 [bookAt 0, bookAt 2000000]).getBookAt 300 = some (bookAt 0) ∧
    (OrderBookHistory.after 1000 [bookAt 0, bookAt 2000000]).getBookAt 300 = none := by
  refine ⟨by decide +kernel, ?_, by decide +kernel, by decide +kernel⟩
  exact (getBookAt_unpruned 1000 300 _ _).mp (by decide +kernel)

end Features
end TradingPlatform
