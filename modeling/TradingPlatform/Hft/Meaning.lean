import TradingPlatform.Hft.Entries

/-!
# `Hft.Meaning` — what the fixed-depth book says about the market

The abstract book of one side is the *last-writer-wins price map* of the levels it was given, unbounded: `listing`
is its levels, best first. `FastOrderBook` keeps at most `MAX_DEPTH` of them in arrays. This module says how much of
the map the arrays still tell:

* `applyUpdates_meaning` — order, bounds, freshness of every live level, and exactness until a delete
  follows an overflow;
* `bestLevels_applyUpdates` — the top of book survives up to 19 such deletes, and `bestBid_forgotten` is a
  run in which the twentieth loses it;
* `snapshot_replaces_iff` — `apply_update` merges a snapshot like any update, so it replaces the book only
  when the snapshot names every live price.
-/

namespace TradingPlatform
namespace Hft

open Ladder

/-! ## The abstract book of one side -/

/-- Price to quantity, the last level written for a price deciding; quantity zero clears it. Best price first. -/
def listing (better : Int → Int → Prop) [DecidableRel better] (ls : List FastPriceLevel) :
    List (Int × Int) :=
  replay better [] (ls.map levelOp)

section Side

variable {better : Int → Int → Prop} [DecidableRel better] [IsStrictTotalOrder Int better]

omit [DecidableRel better] [IsStrictTotalOrder Int better] in
theorem entry_injective {l l' : FastPriceLevel} (h : entry l = entry l') : l = l' := by
  cases l
  cases l'
  cases h
  rfl

omit [DecidableRel better] [IsStrictTotalOrder Int better] in
theorem pairwise_of_sorted {ls : List FastPriceLevel} (h : Sorted better (ls.map entry)) :
    ls.Pairwise (fun a b => better a.priceTicks b.priceTicks) :=
  (List.pairwise_map (f := entry)).mp h

/-- A price the map holds was written last by a level with that very quantity, not zero. -/
theorem lastWrite_levels {ls : List FastPriceLevel} {l : FastPriceLevel}
    (h : lastWrite l.priceTicks (ls.map levelOp) = some (some l.quantity)) :
    l.quantity ≠ 0 ∧
      ∃ pre post, ls = pre ++ l :: post ∧ ∀ l' ∈ post, l'.priceTicks ≠ l.priceTicks := by
  obtain ⟨pre, post, heq, hpost⟩ := lastWrite_eq_some_iff.mp h
  obtain ⟨pre', rest, rfl, rfl, hrest⟩ := List.map_eq_append_iff.mp heq
  obtain ⟨l', post', rfl, hl', rfl⟩ := List.map_eq_cons_iff.mp hrest
  have hprice : l'.priceTicks = l.priceTicks := congrArg Prod.fst hl'
  have hop : (if l'.quantity = 0 then none else some l'.quantity) = some l.quantity :=
    congrArg Prod.snd hl'
  by_cases hq : l'.quantity = 0
  · -- a delete would have left nothing
    rw [if_pos hq] at hop
    cases hop
  · rw [if_neg hq] at hop
    have hsame : l' = l := entry_injective (by rw [entry, entry, hprice, Option.some.inj hop])
    subst hsame
    exact ⟨hq, pre', post', rfl, fun x hx => hpost _ (List.mem_map_of_mem hx)⟩

/-- What the live levels of one side say about the levels `ls` it was given. -/
structure SideMeaning (better : Int → Int → Prop) [DecidableRel better] (ls live : List FastPriceLevel) :
    Prop where
  sorted       : live.Pairwise (fun a b => better a.priceTicks b.priceTicks)
  quantity_ne  : ∀ l ∈ live, l.quantity ≠ 0
  last_written : ∀ l ∈ live, ∃ pre post, ls = pre ++ l :: post ∧
                   ∀ l' ∈ post, l'.priceTicks ≠ l.priceTicks
  best         : NoLateErase better maxDepth (ls.map levelOp) →
                   live.map entry = (listing better ls).take maxDepth

/-- A bounded replay of `ls` has the meaning of `ls`. -/
theorem sideMeaning_of_replay {ls live : List FastPriceLevel}
    (h : live.map entry = replayBounded better maxDepth [] (ls.map levelOp)) :
    SideMeaning better ls live := by
  have hlast : ∀ l ∈ live, lastWrite l.priceTicks (ls.map levelOp) = some (some l.quantity) := by
    intro l hl
    have hmem : entry l ∈ replayBounded better maxDepth [] (ls.map levelOp) :=
      h ▸ List.mem_map_of_mem hl
    exact mem_replay_nil.mp (mem_replay_of_mem_bounded hmem)
  refine ⟨?_, fun l hl => (lastWrite_levels (hlast l hl)).1,
    fun l hl => (lastWrite_levels (hlast l hl)).2, ?_⟩
  · refine pairwise_of_sorted ?_
    rw [h]
    exact sorted_replayBounded sorted_nil _
  · intro hlate
    rw [h, replayBounded_eq_take (lateErases_eq_zero hlate)]
    rfl

end Side

/-! ## Runs from an empty book -/

namespace FastOrderBook

theorem liveBids_entry (symbolId : Nat) (us : List FastUpdate) :
    ((new symbolId).applyUpdates us).liveBids.map entry
      = replayBounded bidBetter maxDepth [] ((acceptedBids 0 us).map levelOp) := by
  rw [← (applyUpdates_fits (new_fits symbolId) us).bidEntries_eq]
  exact (entries_applyUpdates (new_fits symbolId) us).1

theorem liveAsks_entry (symbolId : Nat) (us : List FastUpdate) :
    ((new symbolId).applyUpdates us).liveAsks.map entry
      = replayBounded askBetter maxDepth [] ((acceptedAsks 0 us).map levelOp) := by
  rw [← (applyUpdates_fits (new_fits symbolId) us).askEntries_eq]
  exact (entries_applyUpdates (new_fits symbolId) us).2

/-- What a book built by `us` says about `us`. -/
structure Meaning (us : List FastUpdate) (b : FastOrderBook) : Prop where
  bidCount_le       : b.bidCount ≤ maxDepth
  askCount_le       : b.askCount ≤ maxDepth
  bids              : SideMeaning bidBetter (acceptedBids 0 us) b.liveBids
  asks              : SideMeaning askBetter (acceptedAsks 0 us) b.liveAsks
  stale_unchanged   : ∀ u : FastUpdate, u.updateId ≤ b.lastUpdateId → b.applyUpdate u = b
  lastUpdateId_mono : ∀ u : FastUpdate, b.lastUpdateId ≤ (b.applyUpdate u).lastUpdateId

/-- **The book invariant and what the book means**, after any run of updates. -/
theorem applyUpdates_meaning (symbolId : Nat) (us : List FastUpdate) :
    Meaning us ((new symbolId).applyUpdates us) where
  bidCount_le := (applyUpdates_fits (new_fits symbolId) us).bid
  askCount_le := (applyUpdates_fits (new_fits symbolId) us).ask
  bids := sideMeaning_of_replay (liveBids_entry symbolId us)
  asks := sideMeaning_of_replay (liveAsks_entry symbolId us)
  stale_unchanged := fun _ h => applyUpdate_stale h
  lastUpdateId_mono := fun u => by
    rw [lastUpdateId_applyUpdate]
    exact Nat.le_max_left _ _

/-! ## The top of book -/

/-- Twenty-one bids, best first, then the twenty best deleted again. -/
def forgetfulRun : List FastUpdate :=
  let level (quantity : Int) (priceTicks : Int) : FastPriceLevel := { priceTicks, quantity }
  [ FastUpdate.ofLevels 0 1 0 ([30, 29, 28, 27, 26, 25, 24, 23, 22, 21].map (level 1)) [] false,
    FastUpdate.ofLevels 0 2 0 ([20, 19, 18, 17, 16, 15, 14, 13, 12, 11].map (level 1)) [] false,
    FastUpdate.ofLevels 0 3 0 ([10].map (level 1)) [] false,
    FastUpdate.ofLevels 0 4 0 ([30, 29, 28, 27, 26, 25, 24, 23, 22, 21].map (level 0)) [] false,
    FastUpdate.ofLevels 0 5 0 ([20, 19, 18, 17, 16, 15, 14, 13, 12, 11].map (level 0)) [] false ]

/-- The bid at 10 was evicted, and the deletes bring it to the top of the market but not of the book. -/
theorem bestBid_forgotten :
    ((new 0).applyUpdates forgetfulRun).liveBids.head? = none ∧
    (listing bidBetter (acceptedBids 0 forgetfulRun)).head? = some (10, 1) := by
  decide +kernel

/-- **The top of book is right** on a side as long as fewer than `MAX_DEPTH` deletes on it follow the first
    moment at which more than `MAX_DEPTH` levels were live there. -/
theorem bestLevels_applyUpdates (symbolId : Nat) (us : List FastUpdate) :
    (lateErases bidBetter maxDepth ((acceptedBids 0 us).map levelOp) < maxDepth →
      ((new symbolId).applyUpdates us).liveBids.head?.map entry
        = (listing bidBetter (acceptedBids 0 us)).head?) ∧
    (lateErases askBetter maxDepth ((acceptedAsks 0 us).map levelOp) < maxDepth →
      ((new symbolId).applyUpdates us).liveAsks.head?.map entry
        = (listing askBetter (acceptedAsks 0 us)).head?) := by
  constructor
  · intro h
    rw [← List.head?_map, liveBids_entry, replayBounded_head? h]
    rfl
  · intro h
    rw [← List.head?_map, liveAsks_entry, replayBounded_head? h]
    rfl

/-- One delete past the overflow costs nothing at the top: after the first ten deletes the bid at 20 is
    still found. -/
theorem bestLevels_after_ten_deletes :
    ((new 0).applyUpdates (forgetfulRun.take 4)).liveBids.head?.map entry
      = (listing bidBetter (acceptedBids 0 (forgetfulRun.take 4))).head? :=
  (bestLevels_applyUpdates 0 (forgetfulRun.take 4)).1 (by decide +kernel)

end FastOrderBook

/-! ## Snapshots -/

section SnapshotSide

variable {better : Int → Int → Prop} [DecidableRel better] [IsStrictTotalOrder Int better]

/-- The levels are listed best first and are exactly `ls`. -/
def Holds (better : Int → Int → Prop) (live ls : List FastPriceLevel) : Prop :=
  live.Perm ls ∧ live.Pairwise (fun a b => better a.priceTicks b.priceTicks)

omit [DecidableRel better] [IsStrictTotalOrder Int better] in
/-- With distinct prices and no deletes, the last write of a price is its only level. -/
theorem lastWrite_of_distinct {ls : List FastPriceLevel} (hnd : (ls.map FastPriceLevel.priceTicks).Nodup)
    (hq : ∀ l ∈ ls, l.quantity ≠ 0) (l : FastPriceLevel) :
    lastWrite l.priceTicks (ls.map levelOp) = some (some l.quantity) ↔ l ∈ ls := by
  constructor
  · intro h
    obtain ⟨_, pre, post, rfl, _⟩ := lastWrite_levels h
    simp
  · intro hl
    obtain ⟨pre, post, rfl⟩ := List.append_of_mem hl
    refine lastWrite_eq_some_iff.mpr ⟨pre.map levelOp, post.map levelOp, ?_, ?_⟩
    · rw [List.map_append, List.map_cons, levelOp, if_neg (hq l hl)]
    · intro op hop
      obtain ⟨l', hl', rfl⟩ := List.mem_map.mp hop
      rw [List.map_append, List.map_cons, List.nodup_append, List.nodup_cons] at hnd
      intro heq
      exact hnd.2.1.1 (List.mem_map.mpr ⟨l', hl', heq⟩)

omit [DecidableRel better] [IsStrictTotalOrder Int better] in
theorem lastWrite_none_iff {ls : List FastPriceLevel} {p : Int} :
    lastWrite p (ls.map levelOp) = none ↔ ∀ l ∈ ls, l.priceTicks ≠ p := by
  rw [lastWrite_eq_none_iff, List.forall_mem_map]
  rfl

omit [IsStrictTotalOrder Int better] in
theorem levelOp_upserts {ls : List FastPriceLevel} (hq : ∀ l ∈ ls, l.quantity ≠ 0) :
    ∀ op ∈ ls.map levelOp, op.2 ≠ none := by
  intro op hop
  obtain ⟨l, hl, rfl⟩ := List.mem_map.mp hop
  rw [levelOp, if_neg (hq l hl)]
  exact Option.some_ne_none _

omit [DecidableRel better] in
/-- A ladder whose keys all lie in `ps` is no longer than `ps`. -/
theorem length_le_of_keys {es : List (Int × Int)} (h : Sorted better es) (ps : List Int)
    (hk : ∀ e ∈ es, e.1 ∈ ps) : es.length ≤ ps.length := by
  have hsub : es.map Prod.fst ⊆ ps := by
    intro p hp
    obtain ⟨e, he, rfl⟩ := List.mem_map.mp hp
    exact hk e he
  have hle := h.nodup_keys.length_le_of_subset hsub
  rwa [List.length_map] at hle

/-- **One side of a snapshot.** Merging at most ten distinct non-zero levels into a side leaves exactly
    those levels iff every live price was among them. -/
theorem holds_snapshot_iff {old new ls : List FastPriceLevel} (hold : Sorted better (old.map entry))
    (hnew : new.map entry = replayBounded better maxDepth (old.map entry) (ls.map levelOp))
    (hlen : ls.length ≤ maxUpdateLevels) (hnd : (ls.map FastPriceLevel.priceTicks).Nodup)
    (hq : ∀ l ∈ ls, l.quantity ≠ 0) :
    Holds better new ls ↔ ∀ l ∈ old, l.priceTicks ∈ ls.map FastPriceLevel.priceTicks := by
  have hsorted : Sorted better (new.map entry) := hnew ▸ sorted_replayBounded hold _
  -- as long as nothing is cut off, a level is live if the snapshot wrote it or did not name its price
  have hmem : new.map entry = replay better (old.map entry) (ls.map levelOp) → ∀ l,
      l ∈ new ↔ l ∈ ls ∨ ((∀ l' ∈ ls, l'.priceTicks ≠ l.priceTicks) ∧ l ∈ old) := by
    intro heq l
    have hinj : ∀ ks : List FastPriceLevel, entry l ∈ ks.map entry ↔ l ∈ ks := fun ks =>
      List.mem_map_of_injective (fun _ _ h => entry_injective h)
    rw [← hinj new, heq, entry, mem_replay hold, lastWrite_of_distinct hnd hq, lastWrite_none_iff,
      ← hinj old, entry]
  constructor
  · rintro ⟨hperm, _⟩ l hl
    by_contra hno
    -- ten levels in twenty slots: nothing was cut off, so a level the snapshot does not name stays
    have hcut : (replayBounded better maxDepth (old.map entry) (ls.map levelOp)).length < maxDepth := by
      rw [← hnew, List.length_map, hperm.length_eq]
      exact Nat.lt_of_le_of_lt hlen (by decide)
    have heq := hnew.trans (replayBounded_eq_replay_of_lt (levelOp_upserts hq) hcut)
    have hfar : ∀ l' ∈ ls, l'.priceTicks ≠ l.priceTicks := fun l' hl' he =>
      hno (List.mem_map.mpr ⟨l', hl', he⟩)
    exact hfar l (hperm.subset ((hmem heq l).mpr (Or.inr ⟨hfar, hl⟩))) rfl
  · intro hall
    -- all prices met on the way are prices of the snapshot, so the side never overflows
    have hfit : ∀ j, (replay better (old.map entry) ((ls.map levelOp).take j)).length ≤ maxDepth := by
      intro j
      refine Nat.le_trans (length_le_of_keys (sorted_replay hold _)
        (ls.map FastPriceLevel.priceTicks) ?_) (by rw [List.length_map]; exact Nat.le_trans hlen (by decide))
      rintro ⟨p, q⟩ he
      rcases (mem_replay hold).mp he with hw | ⟨_, hmem'⟩
      · obtain ⟨pre, post, hsplit, _⟩ := lastWrite_eq_some_iff.mp hw
        have hop : (p, some q) ∈ ls.map levelOp :=
          List.mem_of_mem_take (i := j) (by rw [hsplit]; simp)
        obtain ⟨l, hl, hle⟩ := List.mem_map.mp hop
        exact List.mem_map.mpr ⟨l, hl, congrArg Prod.fst hle⟩
      · obtain ⟨l, hl, hle⟩ := List.mem_map.mp hmem'
        exact (congrArg Prod.fst hle : l.priceTicks = p) ▸ hall l hl
    have heq := hnew.trans (replayBounded_eq_replay hfit)
    refine ⟨(List.perm_ext_iff_of_nodup hsorted.nodup_keys.of_map.of_map hnd.of_map).mpr ?_,
      pairwise_of_sorted hsorted⟩
    intro l
    rw [hmem heq l]
    refine or_iff_left ?_
    rintro ⟨hfar, hl⟩
    obtain ⟨l', hl', he⟩ := List.mem_map.mp (hall l hl)
    exact hfar l' hl' he

end SnapshotSide

namespace FastOrderBook

/-- The book consists of the update's levels and nothing else. -/
def ReplacedBy (b : FastOrderBook) (u : FastUpdate) : Prop :=
  Holds bidBetter b.liveBids u.bidLevels ∧ Holds askBetter b.liveAsks u.askLevels

/-- **When a snapshot replaces the book.** `apply_update` merges whatever `is_snapshot` says, so the old
    levels are gone afterwards exactly when the snapshot named all of them. -/
theorem snapshot_replaces_iff (symbolId : Nat) (us : List FastUpdate) (u : FastUpdate)
    (hfresh : ((new symbolId).applyUpdates us).lastUpdateId < u.updateId)
    (hbids : (u.bidLevels.map FastPriceLevel.priceTicks).Nodup)
    (hasks : (u.askLevels.map FastPriceLevel.priceTicks).Nodup)
    (hbidq : ∀ l ∈ u.bidLevels, l.quantity ≠ 0) (haskq : ∀ l ∈ u.askLevels, l.quantity ≠ 0) :
    (((new symbolId).applyUpdates us).applyUpdate u).ReplacedBy u ↔
      (∀ l ∈ ((new symbolId).applyUpdates us).liveBids,
        l.priceTicks ∈ u.bidLevels.map FastPriceLevel.priceTicks) ∧
      (∀ l ∈ ((new symbolId).applyUpdates us).liveAsks,
        l.priceTicks ∈ u.askLevels.map FastPriceLevel.priceTicks) := by
  have hb := applyUpdates_fits (new_fits symbolId) us
  have hb' := applyUpdate_fits hb u
  refine and_congr (holds_snapshot_iff ?_ ?_ (length_bidLevels_le u) hbids hbidq)
    (holds_snapshot_iff ?_ ?_ (length_askLevels_le u) hasks haskq)
  · rw [liveBids_entry]
    exact sorted_replayBounded sorted_nil _
  · rw [← hb.bidEntries_eq, ← hb'.bidEntries_eq, bidEntries_applyUpdate hb hfresh]
  · rw [liveAsks_entry]
    exact sorted_replayBounded sorted_nil _
  · rw [← hb.askEntries_eq, ← hb'.askEntries_eq, askEntries_applyUpdate hb hfresh]

/-- A book with one level a side, and the full books that follow it. -/
def firstBook : FastUpdate := FastUpdate.ofLevels 0 1 0 [⟨100, 5⟩] [⟨101, 5⟩] true
def sameAskBook : FastUpdate := FastUpdate.ofLevels 0 2 0 [⟨99, 4⟩] [⟨101, 3⟩] true
def samePricesBook : FastUpdate := FastUpdate.ofLevels 0 2 0 [⟨100, 4⟩, ⟨99, 1⟩] [⟨101, 3⟩] true

theorem samePricesBook_replaces :
    (((new 0).applyUpdates [firstBook]).applyUpdate samePricesBook).ReplacedBy samePricesBook :=
  (snapshot_replaces_iff 0 [firstBook] samePricesBook (by decide) (by decide) (by decide) (by decide)
    (by decide)).mpr (by decide)

/-- The bid at 100 is not in the second snapshot and stays. -/
theorem sameAskBook_merged :
    ((new 0).applyUpdates [firstBook]).lastUpdateId < sameAskBook.updateId ∧
    ¬ (((new 0).applyUpdates [firstBook]).applyUpdate sameAskBook).ReplacedBy sameAskBook := by
  refine ⟨by decide, fun h => ?_⟩
  have hlen := h.1.1.length_eq
  exact absurd hlen (by decide)

end FastOrderBook
end Hft
end TradingPlatform
