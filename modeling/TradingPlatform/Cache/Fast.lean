import TradingPlatform.Library.Registers
import TradingPlatform.Cache.MarketCache
import TradingPlatform.Market.Types
import TradingPlatform.Rust.Overflow

/-!
# `Cache.Fast` — the reads of a slot without its sequence number

`read_bid_fast`, `read_ask_fast` and `read_spread_fast` load two fields one after the other, while the writer makes
updates of all four kinds. None of them loads the sequence number, and its stores are left out. Stores become visible
in the order of the program: the hardware does not reorder the relaxed ones of `update_orderbook_with_seq`.

A price and a quantity are of two versions, the price at most one ahead of its quantity (`read_side_fast_iff`). The
spread is between an ask and a bid that is not older (`read_spread_fast_iff`). Both are all that can be said, apart
from what was complete when the call began.
-/

namespace TradingPlatform
namespace Cache

open Machine Market Rust Registers

/-! ## Updates and reads -/

inductive Update where
  | bidFast (price qty : Int) (exchTs localTs : Nat)
  | askFast (price qty : Int) (exchTs localTs : Nat)
  | tradeFast (price : Int) (exchTs localTs : Nat)
  | orderbookWithSeq (quote : Quote)

def Update.stores : Update → List (Field × Int)
  | .bidFast price qty exchTs localTs =>
    [(.bestBid, price), (.bidQty, qty), (.exchangeTs, exchTs), (.localTs, localTs)]
  | .askFast price qty exchTs localTs =>
    [(.bestAsk, price), (.askQty, qty), (.exchangeTs, exchTs), (.localTs, localTs)]
  | .tradeFast price exchTs localTs   => [(.lastTrade, price), (.exchangeTs, exchTs), (.localTs, localTs)]
  | .orderbookWithSeq quote           => quote.stores

/-- What `read_bid_fast` or `read_ask_fast` loads. -/
def priceField : Side → Field
  | .buy  => .bestBid
  | .sell => .bestAsk

def qtyField : Side → Field
  | .buy  => .bidQty
  | .sell => .askQty

/-- `ask - bid` in the profile of the build. -/
def spread (profile : Profile) (ask bid : Int) : Option Int := profile.i64 (ask - bid)

/-- The slot after the first `n` updates. -/
def slotAfter (updates : List Update) (n : Nat) : Field → Int := Seqlock.version Update.stores (fun _ => 0) updates n

variable {R : Type*} [DecidableEq R]

/-- In some run whose updates are these a call that began after `since` of them returns what it has loaded. -/
def ReturnsFast (updates : List Update) (reader : R) (since : Nat) (loaded : List (Field × Int)) : Prop :=
  ∃ actions, (run (step Update.stores) (.new fun _ => 0) actions).1.begun = updates ∧
    ⟨reader, since, loaded⟩ ∈ (run (step Update.stores) (.new fun _ => 0) actions).2

/-! ## The order of the stores -/

theorem nodup_stores (update : Update) : (update.stores.map Prod.fst).Nodup := by
  cases update with
  | orderbookWithSeq quote =>
      show [Field.bestBid, .bestAsk, .bidQty, .askQty, .exchangeTs, .localTs].Nodup
      decide
  | bidFast price qty exchTs localTs =>
      show [Field.bestBid, .bidQty, .exchangeTs, .localTs].Nodup
      decide
  | askFast price qty exchTs localTs =>
      show [Field.bestAsk, .askQty, .exchangeTs, .localTs].Nodup
      decide
  | tradeFast price exchTs localTs =>
      show [Field.lastTrade, .exchangeTs, .localTs].Nodup
      decide

/-- A price that is stored is stored before its quantity. -/
theorem splits_price (update : Update) (side : Side) :
    Splits Update.stores update (priceField side) (qtyField side) ∨
      priceField side ∉ update.stores.map Prod.fst := by
  cases update with
  | bidFast price qty exchTs localTs =>
      cases side with
      | buy => exact Or.inl ⟨[_], _, rfl, by simp [priceField], by simp [qtyField]⟩
      | sell => exact Or.inr (by simp [Update.stores, priceField])
  | askFast price qty exchTs localTs =>
      cases side with
      | buy => exact Or.inr (by simp [Update.stores, priceField])
      | sell => exact Or.inl ⟨[_], _, rfl, by simp [priceField], by simp [qtyField]⟩
  | tradeFast price exchTs localTs => exact Or.inr (by cases side <;> simp [Update.stores, priceField])
  | orderbookWithSeq quote =>
      exact Or.inl ⟨[_, _], _, rfl, by cases side <;> simp [priceField], by cases side <;> simp [qtyField]⟩

/-- The bid is stored before the ask. -/
theorem not_stored_of_splits {update : Update} (h : Splits Update.stores update .bestAsk .bestBid) :
    Field.bestBid ∉ update.stores.map Prod.fst := by
  cases update with
  | orderbookWithSeq quote =>
      obtain ⟨made, pending, hstores, hask, hbid⟩ := h
      cases made with
      | nil => exact absurd hask List.not_mem_nil
      | cons store made =>
          obtain ⟨rfl, -⟩ := List.cons.inj (show (Field.bestBid, quote.bid) :: _ = store :: (made ++ pending) from hstores)
          exact absurd List.mem_cons_self hbid
  | bidFast price qty exchTs localTs =>
      obtain ⟨made, pending, hstores, hask, -⟩ := h
      have hmem : Field.bestAsk ∈ (made ++ pending).map Prod.fst := by
        rw [List.map_append]
        exact List.mem_append_left _ hask
      rw [← hstores] at hmem
      simp [Update.stores] at hmem
  | askFast price qty exchTs localTs => simp [Update.stores]
  | tradeFast price exchTs localTs => simp [Update.stores]

/-! ## What is returned -/

/-- **A price and its quantity**: exactly what versions of the two make up, both as recent as the last one complete when
    the call began, and the price at most one version ahead of the quantity. -/
theorem read_side_fast_iff (updates : List Update) (reader : R) (since : Nat) (side : Side) (price qty : Int) :
    ReturnsFast updates reader since [(priceField side, price), (qtyField side, qty)] ↔
      ∃ n m, since ≤ n ∧ since ≤ m ∧ n ≤ m + 1 ∧ n ≤ updates.length ∧ m ≤ updates.length ∧
        price = slotAfter updates n (priceField side) ∧ qty = slotAfter updates m (qtyField side) := by
  unfold ReturnsFast slotAfter
  rw [read_iff _ _ nodup_stores]
  constructor
  · rintro ⟨n, m, hn, hm, hnle, hmle, horder, hprice, hqty⟩
    refine ⟨n, m, hn, hm, ?_, hnle, hmle, hprice, hqty⟩
    rcases horder with hle | ⟨hsucc, -⟩
    · exact Nat.le_succ_of_le hle
    · exact Nat.le_of_eq hsucc
  · rintro ⟨n, m, hn, hm, hle, hnle, hmle, hprice, hqty⟩
    rcases Nat.lt_or_ge m n with hahead | hbehind
    · obtain rfl : n = m + 1 := Nat.le_antisymm hle hahead
      have hupdate : updates[m]? = some updates[m] := List.getElem?_eq_getElem hnle
      rcases splits_price updates[m] side with hsplits | hnot
      · exact ⟨m + 1, m, hn, hm, hnle, hmle, Or.inr ⟨rfl, _, hupdate, hsplits⟩, hprice, hqty⟩
      · -- this update leaves the price as it is
        exact ⟨m, m, hm, hm, hmle, hmle, Or.inl (Nat.le_refl m), hprice.trans (version_succ _ hupdate hnot), hqty⟩
    · exact ⟨n, m, hn, hm, hnle, hmle, Or.inl hbehind, hprice, hqty⟩

/-- **A spread**: exactly what an ask and a bid make up that are as recent as the last update complete when the call
    began, and the bid not older than the ask. -/
theorem read_spread_fast_iff (profile : Profile) (updates : List Update) (reader : R) (since : Nat)
    (result : Option Int) :
    (∃ ask bid, ReturnsFast updates reader since [(.bestAsk, ask), (.bestBid, bid)] ∧ result = spread profile ask bid) ↔
      ∃ n m, since ≤ n ∧ n ≤ m ∧ m ≤ updates.length ∧
        result = spread profile (slotAfter updates n .bestAsk) (slotAfter updates m .bestBid) := by
  unfold ReturnsFast slotAfter
  constructor
  · rintro ⟨ask, bid, hread, rfl⟩
    rw [read_iff _ _ nodup_stores] at hread
    obtain ⟨n, m, hn, hm, hnle, hmle, horder, rfl, rfl⟩ := hread
    rcases horder with hle | ⟨rfl, update, hupdate, hsplits⟩
    · exact ⟨n, m, hn, hle, hmle, rfl⟩
    · -- this update leaves the bid as it is
      refine ⟨m + 1, m + 1, hn, Nat.le_refl _, hnle, ?_⟩
      rw [version_succ _ hupdate (not_stored_of_splits hsplits)]
  · rintro ⟨n, m, hn, hle, hmle, rfl⟩
    refine ⟨_, _, (read_iff _ _ nodup_stores _ _ _ _ _ _ _).mpr ?_, rfl⟩
    exact ⟨n, m, hn, Nat.le_trans hn hle, Nat.le_trans hle hmle, hmle, Or.inl hle, rfl, rfl⟩

end Cache
end TradingPlatform
