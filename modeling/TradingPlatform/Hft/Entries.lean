import TradingPlatform.Library.Ladder
import TradingPlatform.Hft.OrderBook
import Mathlib.Algebra.Order.Ring.Int

/-!
# `Hft.Entries` — the array loops are ladder writes

The live slots of a side, read as `(price, quantity)` pairs, are a `Ladder` under the side's priority. This
module proves, loop by loop, what the array code does to that list:

* an update is `Ladder.upsert` cut off at `MAX_DEPTH` (`entries_updateSide`);
* a removal is `Ladder.erase` (`entries_removeSide`);
* `apply_update` is a bounded replay of the update's levels, or nothing if the update is stale
  (`bidEntries_applyUpdate`, `askEntries_applyUpdate`);
* a run of updates is one bounded replay of the levels of the *accepted* updates
  (`bidEntries_applyUpdates`).

None of this needs the side to be sorted: search and shift follow `upsert` on any list that fits.
-/

namespace TradingPlatform
namespace Hft

open Ladder

/-! ## The levels of an update -/

theorem slice_ofFn (ls : List FastPriceLevel) :
    (Vector.ofFn (fun i : Fin maxUpdateLevels => ls.getD i.val default)).toList.take
        (min ls.length maxUpdateLevels) = ls.take maxUpdateLevels := by
  apply List.ext_getElem?
  intro i
  rw [List.getElem?_take, List.getElem?_take, Vector.getElem?_toList, Vector.getElem?_ofFn]
  by_cases hi : i < maxUpdateLevels
  · rw [if_pos hi, dif_pos hi]
    by_cases hl : i < ls.length
    · rw [if_pos (by omega), List.getElem?_eq_getElem hl]
      simp [hl]
    · rw [if_neg (by omega), List.getElem?_eq_none (Nat.le_of_not_lt hl)]
  · rw [if_neg hi, if_neg (by omega)]

@[simp] theorem bidLevels_ofLevels (symbolId updateId timestamp : Nat) (bids asks : List FastPriceLevel)
    (isSnapshot : Bool) :
    (FastUpdate.ofLevels symbolId updateId timestamp bids asks isSnapshot).bidLevels
      = bids.take maxUpdateLevels :=
  slice_ofFn bids

@[simp] theorem askLevels_ofLevels (symbolId updateId timestamp : Nat) (bids asks : List FastPriceLevel)
    (isSnapshot : Bool) :
    (FastUpdate.ofLevels symbolId updateId timestamp bids asks isSnapshot).askLevels
      = asks.take maxUpdateLevels :=
  slice_ofFn asks

/-- No update carries more than ten levels on a side. -/
theorem length_bidLevels_le (u : FastUpdate) : u.bidLevels.length ≤ maxUpdateLevels :=
  Nat.le_trans (List.length_take_le _ _) u.bidCount_le

theorem length_askLevels_le (u : FastUpdate) : u.askLevels.length ≤ maxUpdateLevels :=
  Nat.le_trans (List.length_take_le _ _) u.askCount_le

/-! ## Reading slots -/

theorem read_setIfInBounds {levels : Levels} {i j : Nat} {l : FastPriceLevel} (hi : i < maxDepth) :
    read (levels.setIfInBounds i l) j = if i = j then l else read levels j := by
  unfold read
  rw [Vector.getElem?_setIfInBounds]
  by_cases hij : i = j
  · simp [hij, hij ▸ hi]
  · simp [hij]

/-- Shifting down moves slots `lo..lo+n` one place towards the end and touches nothing else. -/
theorem read_shiftDown {levels : Levels} {lo n : Nat} (h : lo + n < maxDepth) (j : Nat) :
    read (shiftDown levels lo n) j
      = if lo < j ∧ j ≤ lo + n then read levels (j - 1) else read levels j := by
  induction n generalizing levels with
  | zero =>
      rw [shiftDown, if_neg (by omega)]
  | succ n ih =>
      rw [shiftDown, ih (by omega)]
      -- the write lands at `lo + n + 1`, past everything the remaining iterations read
      by_cases hlast : j = lo + n + 1
      · subst hlast
        rw [if_neg (by omega), if_pos (by omega), read_setIfInBounds (by omega), if_pos rfl]
        rfl
      · by_cases hj : lo < j ∧ j ≤ lo + n
        · rw [if_pos hj, if_pos (by omega), read_setIfInBounds (by omega), if_neg (by omega)]
        · rw [if_neg hj, if_neg (by omega), read_setIfInBounds (by omega), if_neg (by omega)]

/-- Shifting up moves slots `lo+1..lo+n+1` one place towards the front and touches nothing else. -/
theorem read_shiftUp {levels : Levels} {lo n : Nat} (h : lo + n ≤ maxDepth) (j : Nat) :
    read (shiftUp levels lo n) j
      = if lo ≤ j ∧ j < lo + n then read levels (j + 1) else read levels j := by
  induction n generalizing levels lo with
  | zero =>
      rw [shiftUp, if_neg (by omega)]
  | succ n ih =>
      rw [shiftUp, ih (by omega)]
      by_cases hfirst : j = lo
      · subst hfirst
        rw [if_neg (by omega), if_pos (by omega), read_setIfInBounds (by omega), if_pos rfl]
      · by_cases hj : lo + 1 ≤ j ∧ j < lo + 1 + n
        · rw [if_pos hj, if_pos (by omega), read_setIfInBounds (by omega), if_neg (by omega)]
        · rw [if_neg hj, if_neg (by omega), read_setIfInBounds (by omega), if_neg (by omega)]

/-! ## The live entries of a side -/

def entry (l : FastPriceLevel) : Int × Int := (l.priceTicks, l.quantity)

/-- The live slots as `(price, quantity)` pairs, best slot first. -/
def entries (s : BookSide) : List (Int × Int) := (List.range s.count).map (fun i => entry (read s.levels i))

@[simp] theorem length_entries (s : BookSide) : (entries s).length = s.count := by simp [entries]

theorem getElem?_entries (s : BookSide) (i : Nat) :
    (entries s)[i]? = if i < s.count then some (entry (read s.levels i)) else none := by
  unfold entries
  by_cases hi : i < s.count
  · rw [if_pos hi]
    simp [hi]
  · rw [if_neg hi]
    simp [Nat.le_of_not_lt hi]

/-- The entries are the slice `levels[0..count]`. -/
theorem entries_eq_slice {s : BookSide} (h : s.count ≤ maxDepth) :
    entries s = (s.levels.toList.take s.count).map entry := by
  apply List.ext_getElem?
  intro i
  rw [getElem?_entries, List.getElem?_map, List.getElem?_take]
  by_cases hi : i < s.count
  · have him : i < maxDepth := Nat.lt_of_lt_of_le hi h
    have hread : s.levels.toList[i]? = some (read s.levels i) := by
      simp [read, him]
    rw [if_pos hi, if_pos hi, hread]
    rfl
  · rw [if_neg hi, if_neg hi]
    rfl

/-! ## Search -/

section Search

variable {better : Int → Int → Prop} [DecidableRel better]

/-- What the search position says about the upsert of `(p, q)` into `es`. -/
def Slot.Places (better : Int → Int → Prop) [DecidableRel better] (es : List (Int × Int)) (p q : Int)
    (i : Nat) : Slot → Prop
  | .existing j =>
      i ≤ j ∧ (∃ q', es[j - i]? = some (p, q')) ∧ upsert better p q es = es.set (j - i) (p, q)
  | .insertAt j => i ≤ j ∧ j - i ≤ es.length ∧ upsert better p q es = es.insertIdx (j - i) (p, q)

/-- The search loop stops where `upsert` writes. Induction on the slots left, the list being theirs. -/
theorem findSlot_places (levels : Levels) (p q : Int) (i n : Nat) :
    Slot.Places better ((List.range' i n).map (fun j => entry (read levels j))) p q i
      (findSlot better levels p i n) := by
  induction n generalizing i with
  | zero => simp [findSlot, Slot.Places, upsert]
  | succ n ih =>
      rw [List.range'_succ, List.map_cons]
      unfold findSlot
      by_cases heq : (read levels i).priceTicks = p
      · -- on the price itself: `upsert` overwrites the head
        rw [if_pos heq]
        refine ⟨Nat.le_refl i, ⟨(read levels i).quantity, ?_⟩, ?_⟩
        · rw [Nat.sub_self, List.getElem?_cons_zero, entry, heq]
        · rw [upsert, if_pos (show (entry (read levels i)).1 = p from heq)]
          simp
      · rw [if_neg heq]
        by_cases hb : better p (read levels i).priceTicks
        · -- the first price that `p` beats: `upsert` inserts in front of it
          rw [if_pos hb]
          refine ⟨Nat.le_refl i, by simp, ?_⟩
          rw [upsert, if_neg (show ¬ (entry (read levels i)).1 = p from heq),
            if_pos (show better p (entry (read levels i)).1 from hb)]
          simp
        · -- neither: search and `upsert` both pass this slot
          rw [if_neg hb]
          have hup : ∀ es, upsert better p q (entry (read levels i) :: es)
              = entry (read levels i) :: upsert better p q es := by
            intro es
            rw [upsert, if_neg (show ¬ (entry (read levels i)).1 = p from heq),
              if_neg (show ¬ better p (entry (read levels i)).1 from hb)]
          have hrec := ih (i + 1)
          cases hslot : findSlot better levels p (i + 1) n with
          | existing j =>
              rw [hslot] at hrec
              obtain ⟨hle, ⟨q', hget⟩, hset⟩ := hrec
              have hj : j - i = (j - (i + 1)) + 1 := by omega
              refine ⟨by omega, ⟨q', ?_⟩, ?_⟩
              · rw [hj, List.getElem?_cons_succ]
                exact hget
              · rw [hup, hset, hj, List.set_cons_succ]
          | insertAt j =>
              rw [hslot] at hrec
              obtain ⟨hle, hlt, hins⟩ := hrec
              have hj : j - i = (j - (i + 1)) + 1 := by omega
              refine ⟨by omega, ?_, ?_⟩
              · rw [hj, List.length_cons]
                omega
              · rw [hup, hins, hj, List.insertIdx_succ_cons]

/-- The whole search: its slot is where `upsert` acts on the live entries. -/
theorem findSlot_entries (s : BookSide) (p q : Int) :
    Slot.Places better (entries s) p q 0 (findSlot better s.levels p 0 s.count) := by
  have h := @findSlot_places better _ s.levels p q 0 s.count
  rwa [← List.range_eq_range'] at h

/-- The removal search stops at the entry `erase` drops, or finds no entry of the price. -/
theorem findPrice_erases (levels : Levels) (p : Int) (i n : Nat) :
    match findPrice levels p i n with
    | some j => i ≤ j ∧ j - i < n ∧
        erase p ((List.range' i n).map (fun j => entry (read levels j)))
          = ((List.range' i n).map (fun j => entry (read levels j))).eraseIdx (j - i)
    | none => erase p ((List.range' i n).map (fun j => entry (read levels j)))
        = (List.range' i n).map (fun j => entry (read levels j)) := by
  induction n generalizing i with
  | zero => simp [findPrice, erase]
  | succ n ih =>
      rw [List.range'_succ, List.map_cons]
      unfold findPrice
      by_cases heq : (read levels i).priceTicks = p
      · rw [if_pos heq]
        refine ⟨Nat.le_refl i, by omega, ?_⟩
        rw [erase, if_pos (show (entry (read levels i)).1 = p from heq)]
        simp
      · rw [if_neg heq]
        have hrec := ih (i + 1)
        have her : ∀ es, erase p (entry (read levels i) :: es) = entry (read levels i) :: erase p es := by
          intro es
          rw [erase, if_neg (show ¬ (entry (read levels i)).1 = p from heq)]
        cases hfind : findPrice levels p (i + 1) n with
        | some j =>
            rw [hfind] at hrec
            obtain ⟨hle, hlt, herase⟩ := hrec
            have hj : j - i = (j - (i + 1)) + 1 := by omega
            refine ⟨by omega, by omega, ?_⟩
            rw [her, herase, hj, List.eraseIdx_cons_succ]
        | none =>
            rw [hfind] at hrec
            show erase p (_ :: _) = _
            rw [her, hrec]

end Search

/-! ## One side -/

section Side

variable {better : Int → Int → Prop} [DecidableRel better]

theorem entries_set {s : BookSide} (h : s.count ≤ maxDepth) {i : Nat} (hi : i < s.count)
    (l : FastPriceLevel) :
    entries { s with levels := s.levels.setIfInBounds i l } = (entries s).set i (entry l) := by
  apply List.ext_getElem?
  intro j
  rw [getElem?_entries, List.getElem?_set, getElem?_entries, length_entries, if_pos hi]
  show (if j < s.count then _ else _) = _
  by_cases hj : j < s.count
  · rw [if_pos hj, if_pos hj, read_setIfInBounds (by omega)]
    by_cases hij : i = j
    · rw [if_pos hij, if_pos hij]
    · rw [if_neg hij, if_neg hij]
  · rw [if_neg hj, if_neg hj, if_neg (show ¬ i = j by omega)]

/-- Shift, then write at the insertion position: the entries get the new one inserted, cut at the depth. -/
theorem entries_insertAt {s : BookSide} (h : s.count ≤ maxDepth) {pos : Nat} (hpos : pos < maxDepth)
    (hle : pos ≤ s.count) {n c : Nat} (hn : pos + n < maxDepth) (hc : c = min (s.count + 1) maxDepth)
    (hnc : c = pos + n + 1) (l : FastPriceLevel) :
    entries { levels := (shiftDown s.levels pos n).setIfInBounds pos l, count := c }
      = ((entries s).insertIdx pos (entry l)).take maxDepth := by
  apply List.ext_getElem?
  intro j
  rw [getElem?_entries, List.getElem?_take, List.getElem?_insertIdx, getElem?_entries, getElem?_entries,
    length_entries]
  show (if j < c then some (entry (read _ j)) else none) = _
  rw [read_setIfInBounds hpos, read_shiftDown hn]
  rcases Nat.lt_trichotomy j pos with hj | hj | hj
  · -- in front of the position nothing has moved
    rw [if_pos (show j < c by omega), if_neg (show ¬ pos = j by omega),
      if_neg (show ¬ (pos < j ∧ j ≤ pos + n) by omega), if_pos (show j < maxDepth by omega), if_pos hj,
      if_pos (show j < s.count by omega)]
  · subst hj
    rw [if_pos (show j < c by omega), if_pos rfl, if_pos hpos, if_neg (Nat.lt_irrefl j), if_pos rfl,
      if_pos hle]
  · -- behind it everything has moved one place, and the last entry of a full side is gone
    by_cases hjc : j < c
    · rw [if_pos hjc, if_neg (show ¬ pos = j by omega), if_pos (show pos < j ∧ j ≤ pos + n by omega),
        if_pos (show j < maxDepth by omega), if_neg (show ¬ j < pos by omega),
        if_neg (show ¬ j = pos by omega), if_pos (show j - 1 < s.count by omega)]
    · rw [if_neg hjc]
      by_cases hjm : j < maxDepth
      · rw [if_pos hjm, if_neg (show ¬ j < pos by omega), if_neg (show ¬ j = pos by omega),
          if_neg (show ¬ j - 1 < s.count by omega)]
      · rw [if_neg hjm]

/-- **`update_bid` / `update_ask` is an upsert cut off at the depth.** -/
theorem entries_updateSide {s : BookSide} (h : s.count ≤ maxDepth) (p q : Int) :
    entries (updateSide better s p q) = (upsert better p q (entries s)).take maxDepth := by
  have hplace := @findSlot_entries better _ s p q
  unfold updateSide
  cases hslot : findSlot better s.levels p 0 s.count with
  | existing i =>
      rw [hslot] at hplace
      obtain ⟨_, ⟨q', hget⟩, hup⟩ := hplace
      rw [Nat.sub_zero] at hget hup
      have hi : i < s.count := by
        have := (List.getElem?_eq_some_iff.mp hget).1
        rwa [length_entries] at this
      have hread : (read s.levels i).priceTicks = p := by
        rw [getElem?_entries, if_pos hi] at hget
        exact congrArg Prod.fst (Option.some.inj hget)
      show entries { s with levels := _ } = _
      rw [entries_set h hi, hup, List.take_of_length_le (by rw [List.length_set, length_entries]; exact h)]
      unfold entry
      rw [hread]
  | insertAt pos =>
      rw [hslot] at hplace
      obtain ⟨_, hle, hup⟩ := hplace
      rw [Nat.sub_zero] at hle hup
      rw [length_entries] at hle
      rw [hup]
      show entries (if pos < maxDepth then _ else s) = _
      by_cases hpos : pos < maxDepth
      · rw [if_pos hpos]
        by_cases hfull : s.count ≥ maxDepth
        · -- full: shift over the last slot
          rw [if_pos hfull]
          exact entries_insertAt (n := maxDepth - 1 - pos) (c := s.count) h hpos hle (by omega)
            (by omega) (by omega) ⟨p, q⟩
        · rw [if_neg hfull]
          exact entries_insertAt (n := s.count - pos) (c := s.count + 1) h hpos hle (by omega)
            (by omega) (by omega) ⟨p, q⟩
      · -- a full side whose every price beats `p`: the source drops the level
        rw [if_neg hpos]
        have hpos' : pos = (entries s).length := by rw [length_entries]; omega
        rw [hpos', List.insertIdx_length_self, List.take_append_of_le_length (by rw [length_entries]; omega),
          List.take_of_length_le (by rw [length_entries]; exact h)]

/-- **`remove_bid` / `remove_ask` is an erase.** -/
theorem entries_removeSide {s : BookSide} (h : s.count ≤ maxDepth) (p : Int) :
    entries (removeSide s p) = erase p (entries s) := by
  have hfind := findPrice_erases s.levels p 0 s.count
  rw [← List.range_eq_range'] at hfind
  unfold removeSide
  cases hslot : findPrice s.levels p 0 s.count with
  | none =>
      rw [hslot] at hfind
      exact hfind.symm
  | some i =>
      rw [hslot] at hfind
      obtain ⟨_, hi, herase⟩ := hfind
      rw [Nat.sub_zero] at hi herase
      refine Eq.trans ?_ herase.symm
      apply List.ext_getElem?
      intro j
      rw [getElem?_entries, List.getElem?_eraseIdx]
      show (if j < s.count - 1 then some (entry (read (shiftUp s.levels i (s.count - 1 - i)) j)) else none)
        = if j < i then (entries s)[j]? else (entries s)[j + 1]?
      rw [read_shiftUp (by omega), getElem?_entries, getElem?_entries]
      by_cases hji : j < i
      · rw [if_pos (show j < s.count - 1 by omega), if_neg (by omega), if_pos hji,
          if_pos (show j < s.count by omega)]
      · rw [if_neg hji]
        by_cases hj : j < s.count - 1
        · rw [if_pos hj, if_pos (by omega), if_pos (show j + 1 < s.count by omega)]
        · rw [if_neg hj, if_neg (show ¬ j + 1 < s.count by omega)]

/-- A level of an update as a ladder write: quantity zero erases. -/
def levelOp (l : FastPriceLevel) : Int × Option Int :=
  (l.priceTicks, if l.quantity = 0 then none else some l.quantity)

theorem entries_applyLevel {s : BookSide} (h : s.count ≤ maxDepth) (l : FastPriceLevel) :
    entries (applyLevel better s l) = writeBounded better maxDepth (entries s) (levelOp l) := by
  unfold applyLevel writeBounded levelOp
  by_cases hq : l.quantity = 0
  · rw [if_pos hq, if_pos hq, entries_removeSide h]
    refine (List.take_of_length_le ?_).symm
    have hle := (erase_sublist l.priceTicks (entries s)).length_le
    rw [length_entries] at hle
    exact Nat.le_trans hle h
  · rw [if_neg hq, if_neg hq, entries_updateSide h]
    rfl

theorem count_applyLevel_le {s : BookSide} (h : s.count ≤ maxDepth) (l : FastPriceLevel) :
    (applyLevel better s l).count ≤ maxDepth := by
  rw [← length_entries, entries_applyLevel h]
  exact List.length_take_le _ _

/-- The level loop of one side is a bounded replay. -/
theorem entries_applyLevels {s : BookSide} (h : s.count ≤ maxDepth) (ls : List FastPriceLevel) :
    (ls.foldl (applyLevel better) s).count ≤ maxDepth ∧
    entries (ls.foldl (applyLevel better) s)
      = replayBounded better maxDepth (entries s) (ls.map levelOp) := by
  induction ls generalizing s with
  | nil => exact ⟨h, rfl⟩
  | cons l ls ih =>
      rw [List.foldl_cons, List.map_cons, replayBounded_cons, ← entries_applyLevel h]
      exact ih (count_applyLevel_le h l)

end Side

/-! ## The book -/

namespace FastOrderBook

def bidEntries (b : FastOrderBook) : List (Int × Int) := entries b.bidSide
def askEntries (b : FastOrderBook) : List (Int × Int) := entries b.askSide

/-- Both counters are within the arrays. -/
structure Fits (b : FastOrderBook) : Prop where
  bid : b.bidCount ≤ maxDepth
  ask : b.askCount ≤ maxDepth

theorem Fits.bidEntries_eq {b : FastOrderBook} (h : b.Fits) : b.bidEntries = b.liveBids.map entry :=
  entries_eq_slice (s := b.bidSide) h.bid

theorem Fits.askEntries_eq {b : FastOrderBook} (h : b.Fits) : b.askEntries = b.liveAsks.map entry :=
  entries_eq_slice (s := b.askSide) h.ask

theorem new_fits (symbolId : Nat) : (new symbolId).Fits := ⟨Nat.zero_le _, Nat.zero_le _⟩

@[simp] theorem bidEntries_new (symbolId : Nat) : (new symbolId).bidEntries = [] := rfl
@[simp] theorem askEntries_new (symbolId : Nat) : (new symbolId).askEntries = [] := rfl
@[simp] theorem lastUpdateId_new (symbolId : Nat) : (new symbolId).lastUpdateId = 0 := rfl

/-- The bid loop of `apply_update` works on the bid side alone. -/
theorem foldl_bids (ls : List FastPriceLevel) (b : FastOrderBook) :
    ls.foldl (fun b level =>
        if level.quantity = 0 then b.removeBid level.priceTicks
        else b.updateBid level.priceTicks level.quantity) b
      = b.setBidSide (ls.foldl (applyLevel bidBetter) b.bidSide) := by
  induction ls generalizing b with
  | nil => rfl
  | cons l ls ih =>
      rw [List.foldl_cons, List.foldl_cons, ih]
      unfold applyLevel
      by_cases hq : l.quantity = 0
      · rw [if_pos hq, if_pos hq]
        rfl
      · rw [if_neg hq, if_neg hq]
        rfl

/-- The ask loop of `apply_update` works on the ask side alone. -/
theorem foldl_asks (ls : List FastPriceLevel) (b : FastOrderBook) :
    ls.foldl (fun b level =>
        if level.quantity = 0 then b.removeAsk level.priceTicks
        else b.updateAsk level.priceTicks level.quantity) b
      = b.setAskSide (ls.foldl (applyLevel askBetter) b.askSide) := by
  induction ls generalizing b with
  | nil => rfl
  | cons l ls ih =>
      rw [List.foldl_cons, List.foldl_cons, ih]
      unfold applyLevel
      by_cases hq : l.quantity = 0
      · rw [if_pos hq, if_pos hq]
        rfl
      · rw [if_neg hq, if_neg hq]
        rfl

theorem applyUpdate_stale {b : FastOrderBook} {u : FastUpdate} (h : u.updateId ≤ b.lastUpdateId) :
    b.applyUpdate u = b :=
  if_pos h

/-- A fresh update runs the two level loops and stamps the book. -/
theorem applyUpdate_fresh {b : FastOrderBook} {u : FastUpdate} (h : b.lastUpdateId < u.updateId) :
    b.applyUpdate u
      = { (b.setBidSide (u.bidLevels.foldl (applyLevel bidBetter) b.bidSide)).setAskSide
            (u.askLevels.foldl (applyLevel askBetter) b.askSide) with
          lastUpdateId := u.updateId, updateCount := b.updateCount + 1 } := by
  unfold applyUpdate
  rw [if_neg (Nat.not_le.mpr h)]
  simp only [foldl_bids, foldl_asks]
  rfl

theorem applyUpdate_fits {b : FastOrderBook} (hb : b.Fits) (u : FastUpdate) : (b.applyUpdate u).Fits := by
  rcases Nat.lt_or_ge b.lastUpdateId u.updateId with h | h
  · rw [applyUpdate_fresh h]
    exact ⟨(entries_applyLevels (s := b.bidSide) hb.bid u.bidLevels).1,
      (entries_applyLevels (s := b.askSide) hb.ask u.askLevels).1⟩
  · rwa [applyUpdate_stale h]

theorem bidEntries_applyUpdate {b : FastOrderBook} (hb : b.Fits) {u : FastUpdate}
    (h : b.lastUpdateId < u.updateId) :
    (b.applyUpdate u).bidEntries
      = replayBounded bidBetter maxDepth b.bidEntries (u.bidLevels.map levelOp) := by
  rw [applyUpdate_fresh h]
  exact (entries_applyLevels (s := b.bidSide) hb.bid u.bidLevels).2

theorem askEntries_applyUpdate {b : FastOrderBook} (hb : b.Fits) {u : FastUpdate}
    (h : b.lastUpdateId < u.updateId) :
    (b.applyUpdate u).askEntries
      = replayBounded askBetter maxDepth b.askEntries (u.askLevels.map levelOp) := by
  rw [applyUpdate_fresh h]
  exact (entries_applyLevels (s := b.askSide) hb.ask u.askLevels).2

theorem lastUpdateId_applyUpdate (b : FastOrderBook) (u : FastUpdate) :
    (b.applyUpdate u).lastUpdateId = max b.lastUpdateId u.updateId := by
  rcases Nat.lt_or_ge b.lastUpdateId u.updateId with h | h
  · rw [applyUpdate_fresh h]
    show u.updateId = _
    omega
  · rw [applyUpdate_stale h]
    omega

/-! ## Runs -/

/-- The updates of a run that are not skipped as old, `last` being the id the book starts from. -/
def accepted (last : Nat) : List FastUpdate → List FastUpdate
  | []      => []
  | u :: us => if u.updateId ≤ last then accepted last us else u :: accepted u.updateId us

/-- The bid levels of the accepted updates, in order. -/
def acceptedBids (last : Nat) (us : List FastUpdate) : List FastPriceLevel :=
  (accepted last us).flatMap FastUpdate.bidLevels

def acceptedAsks (last : Nat) (us : List FastUpdate) : List FastPriceLevel :=
  (accepted last us).flatMap FastUpdate.askLevels

theorem applyUpdates_fits {b : FastOrderBook} (hb : b.Fits) (us : List FastUpdate) :
    (b.applyUpdates us).Fits := by
  induction us generalizing b with
  | nil => exact hb
  | cons u us ih => exact ih (applyUpdate_fits hb u)

/-- **A run of updates is one bounded replay of the accepted levels**, on either side. -/
theorem entries_applyUpdates {b : FastOrderBook} (hb : b.Fits) (us : List FastUpdate) :
    (b.applyUpdates us).bidEntries
        = replayBounded bidBetter maxDepth b.bidEntries ((acceptedBids b.lastUpdateId us).map levelOp) ∧
    (b.applyUpdates us).askEntries
        = replayBounded askBetter maxDepth b.askEntries ((acceptedAsks b.lastUpdateId us).map levelOp) := by
  induction us generalizing b with
  | nil => exact ⟨rfl, rfl⟩
  | cons u us ih =>
      obtain ⟨ihb, iha⟩ := ih (applyUpdate_fits hb u)
      show ((b.applyUpdate u).applyUpdates us).bidEntries = _
        ∧ ((b.applyUpdate u).applyUpdates us).askEntries = _
      rw [ihb, iha]
      rcases Nat.lt_or_ge b.lastUpdateId u.updateId with h | h
      · have hid : (b.applyUpdate u).lastUpdateId = u.updateId := by
          rw [lastUpdateId_applyUpdate]; omega
        have hacc : accepted b.lastUpdateId (u :: us) = u :: accepted u.updateId us :=
          if_neg (Nat.not_le.mpr h)
        rw [hid, bidEntries_applyUpdate hb h, askEntries_applyUpdate hb h]
        unfold acceptedBids acceptedAsks
        rw [hacc, List.flatMap_cons, List.flatMap_cons, List.map_append, List.map_append,
          replayBounded_append, replayBounded_append]
        exact ⟨rfl, rfl⟩
      · have hacc : accepted b.lastUpdateId (u :: us) = accepted b.lastUpdateId us := if_pos h
        rw [applyUpdate_stale h]
        unfold acceptedBids acceptedAsks
        rw [hacc]
        exact ⟨rfl, rfl⟩

end FastOrderBook

end Hft
end TradingPlatform
