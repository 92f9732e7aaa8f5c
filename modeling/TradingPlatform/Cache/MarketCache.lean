import TradingPlatform.Library.Seqlock
import Mathlib.Data.List.GetD

/-!
# `Cache.MarketCache` — the slot of one symbol

A `SymbolSlot` is written by `update_orderbook_with_seq` and read by `read_snapshot`, field by field, under a
sequence number that is odd while an update is under way. The slot is a sequence lock (`Library.Seqlock`) over its
seven atomics, with the stores and loads in the order of the source, and so a snapshot is never torn
(`snapshots_whole`).
-/

namespace TradingPlatform
namespace Cache

open Machine

/-- The atomics of a `SymbolSlot`, apart from the sequence number. -/
inductive Field where
  | bestBid
  | bestAsk
  | lastTrade
  | exchangeTs
  | localTs
  | bidQty
  | askQty
deriving DecidableEq

/-- The arguments of `update_orderbook_with_seq`. -/
structure Quote where
  bid     : Int
  ask     : Int
  bidQty  : Int
  askQty  : Int
  exchTs  : Nat
  localTs : Nat
deriving DecidableEq

/-- Write all fields. The last trade is not among them. -/
def Quote.stores (quote : Quote) : List (Field × Int) :=
  [(.bestBid, quote.bid), (.bestAsk, quote.ask), (.bidQty, quote.bidQty), (.askQty, quote.askQty),
    (.exchangeTs, quote.exchTs), (.localTs, quote.localTs)]

/-- Consistent market data snapshot. -/
structure MarketSnapshot where
  bestBid    : Int
  bestAsk    : Int
  bidQty     : Int
  askQty     : Int
  lastTrade  : Int
  exchangeTs : Nat
  localTs    : Nat
deriving DecidableEq

/-- The fields of an update in a snapshot. -/
def MarketSnapshot.quote (snapshot : MarketSnapshot) : Quote where
  bid     := snapshot.bestBid
  ask     := snapshot.bestAsk
  bidQty  := snapshot.bidQty
  askQty  := snapshot.askQty
  exchTs  := snapshot.exchangeTs
  localTs := snapshot.localTs

namespace SymbolSlot

/-- The slot, its writer and its readers. -/
abbrev Slot (R : Type*) := Seqlock.State Field Int Quote R

/-- Every field of a new slot is 0. -/
def new {R : Type*} : Slot R := .new fun _ => 0

/-- The loads of `read_snapshot` between the two of the sequence number. -/
def loads : List Field := [.bestBid, .bestAsk, .bidQty, .askQty, .lastTrade, .exchangeTs, .localTs]

/-- What is made of the values loaded. -/
def snapshotOf (loaded : List (Field × Int)) : MarketSnapshot :=
  let value (field : Field) : Int := (loaded.lookup field).getD 0
  { bestBid    := value .bestBid
    bestAsk    := value .bestAsk
    bidQty     := value .bidQty
    askQty     := value .askQty
    lastTrade  := value .lastTrade
    exchangeTs := (value .exchangeTs).toNat
    localTs    := (value .localTs).toNat }

variable {R : Type*} [DecidableEq R]

/-- A call of `update_orderbook_with_seq` or `read_snapshot`, or the next load or store of one. -/
abbrev Action (R : Type*) := Seqlock.Action Quote R

def step (slot : Slot R) (action : Action R) : Slot R × List (Seqlock.Read Field Int R) :=
  Seqlock.step Quote.stores loads slot action

/-- The reads that have returned. -/
def reads (actions : List (Action R)) : List (Seqlock.Read Field Int R) := (run step new actions).2

/-- The updates that have completed. -/
def updates (actions : List (Action R)) : List Quote := (run step new actions).1.completed

/-- The initial zeros, then one update after the other. -/
def quoteAt (updates : List Quote) : Nat → Quote
  | 0     => ⟨0, 0, 0, 0, 0, 0⟩
  | n + 1 => updates.getD n ⟨0, 0, 0, 0, 0, 0⟩

/-! ## Versions are quotes -/

/-- What a memory holds of an update. -/
def quoteIn (memory : Field → Int) : Quote :=
  ⟨memory .bestBid, memory .bestAsk, memory .bidQty, memory .askQty, (memory .exchangeTs).toNat,
    (memory .localTs).toNat⟩

/-- An update stores all of its fields. -/
theorem quoteIn_perform (memory : Field → Int) (quote : Quote) :
    quoteIn (Seqlock.perform memory quote.stores) = quote := by
  simp [quoteIn, Seqlock.perform, Quote.stores, Function.update]

theorem quoteIn_version (updates : List Quote) {n : Nat} (h : n ≤ updates.length) :
    quoteIn (Seqlock.version Quote.stores (fun _ => 0) updates n) = quoteAt updates n := by
  cases n with
  | zero => rfl
  | succ n =>
      have htake : updates.take (n + 1) = updates.take n ++ [updates[n]] := by
        rw [List.take_succ_eq_append_getElem h]
      unfold Seqlock.version
      rw [htake, List.foldl_append]
      show quoteIn (Seqlock.perform _ updates[n].stores) = updates.getD n _
      rw [quoteIn_perform, List.getD_eq_getElem _ _ h]

theorem quote_snapshotOf (memory : Field → Int) :
    (snapshotOf (loads.map fun field => (field, memory field))).quote = quoteIn memory := rfl

/-! ## No torn quotes -/

/-- The snapshot is that of version `n`, and that version was not yet overtaken when the read began. -/
def Shows (updates : List Quote) (read : Seqlock.Read Field Int R) (n : Nat) : Prop :=
  read.since ≤ n ∧ n ≤ updates.length ∧ (snapshotOf read.loaded).quote = quoteAt updates n

/-- **Snapshots are whole**, as recent as the last update completed when the read began, and those of one reader
    never go back; the counter must not come full circle during a read. -/
theorem snapshots_whole (actions : List (Action R))
    (hround : ∀ read ∈ reads actions, read.upto < read.since + 2 ^ 63) :
    ∃ versions : List Nat, List.Forall₂ (Shows (updates actions)) (reads actions) versions ∧
      ((reads actions).zip versions).Pairwise fun a b => a.1.reader = b.1.reader → a.2 ≤ b.2 := by
  obtain ⟨-, hreturned⟩ := Seqlock.run_keeps Quote.stores loads (fun _ => 0) actions
  obtain ⟨versions, hversions, hordered⟩ := Seqlock.exists_versions Quote.stores loads (fun _ => 0) actions hround
  refine ⟨versions, ?_, hordered⟩
  obtain ⟨hlength, hwhole⟩ := List.forall₂_iff_zip.mp hversions
  refine List.forall₂_iff_zip.mpr ⟨hlength, fun {read n} hmem => ?_⟩
  obtain ⟨hsince, hupto, hloaded⟩ := hwhole hmem
  have hle : n ≤ (updates actions).length := Nat.le_trans hupto (hreturned.upto read (List.of_mem_zip hmem).1)
  refine ⟨hsince, hle, ?_⟩
  rw [hloaded, quote_snapshotOf]
  exact quoteIn_version (updates actions) hle

/-- A reader that is overtaken between its loads, tries again, and reads once more after another update. -/
def overtaken : List (Action Bool) :=
  [.read true, .load true, .load true, .update ⟨10, 11, 1, 2, 100, 101⟩] ++ List.replicate 8 .store ++
    List.replicate 16 (.load true) ++ [.update ⟨12, 13, 3, 4, 200, 201⟩] ++ List.replicate 8 .store ++
    [.read true] ++ List.replicate 9 (.load true)

theorem snapshots_whole_overtaken :
    (reads overtaken).map (fun read => (snapshotOf read.loaded).quote) =
      [⟨10, 11, 1, 2, 100, 101⟩, ⟨12, 13, 3, 4, 200, 201⟩] ∧
    ∃ versions : List Nat, List.Forall₂ (Shows (updates overtaken)) (reads overtaken) versions ∧
      ((reads overtaken).zip versions).Pairwise fun a b => a.1.reader = b.1.reader → a.2 ≤ b.2 :=
  ⟨by decide +kernel, snapshots_whole overtaken (by decide +kernel)⟩

end SymbolSlot
end Cache
end TradingPlatform
