import TradingPlatform.Hft.Processor

/-!
# `Hft.Batches` — which updates of a batch are applied

`process_ring_batched` stores what it pops slot by slot and counts the valid updates, and it applies as many slots
as it counted. An update with an id out of range leaves an empty slot that is not counted, so as many valid updates
at the end are left out as there are empty slots in front of them (`batches_apply_all_iff`). The slots behind those
that were written are never reached.
-/

namespace TradingPlatform
namespace Hft

/-! ## Prefixes -/

section Prefix

variable {α : Type*} {P : α → Bool}

/-- What fails comes last. -/
def FailLast (P : α → Bool) (l : List α) : Prop := l.Pairwise fun a b => P b = true → P a = true

/-- The first elements, as many as `P` holds of, with those that fail left out. -/
def countedPrefix (P : α → Bool) (l : List α) : List α := (l.take (l.countP P)).filter P

theorem countedPrefix_sublist (l : List α) : (countedPrefix P l).Sublist (l.filter P) :=
  (List.take_sublist _ l).filter P

/-- The prefix has all of them when what fails comes last. -/
theorem countedPrefix_eq_filter_iff (l : List α) : countedPrefix P l = l.filter P ↔ FailLast P l := by
  unfold countedPrefix FailLast
  induction l with
  | nil => simp
  | cons a l ih =>
      rw [List.pairwise_cons]
      by_cases ha : P a = true
      · rw [List.countP_cons_of_pos ha, List.take_succ_cons, List.filter_cons_of_pos ha, List.filter_cons_of_pos ha,
          List.cons.injEq, ih]
        simp [ha]
      · rw [List.countP_cons_of_neg ha, List.filter_cons_of_neg ha]
        cases hcount : l.countP P with
        | zero =>
            -- nothing else passes
            have hnone := List.countP_eq_zero.mp hcount
            rw [List.take_zero, List.filter_nil, List.filter_eq_nil_iff.mpr hnone]
            refine iff_of_true rfl ⟨fun b hb hpass => absurd hpass (hnone b hb), ?_⟩
            exact List.pairwise_of_forall_mem_list fun x hx y hy hpass => absurd hpass (hnone y hy)
        | succ n =>
            -- the element that fails takes the place of one that passes
            rw [List.take_succ_cons, List.filter_cons_of_neg ha]
            refine iff_of_false (fun heq => ?_) fun hall => ?_
            · have hlength := congrArg List.length heq
              have hle := List.length_filter_le P (l.take n)
              have htake := List.length_take_le n l
              rw [← List.countP_eq_length_filter (l := l), hcount] at hlength
              omega
            · obtain ⟨b, hb, hpass⟩ := List.countP_pos_iff.mp (hcount ▸ Nat.succ_pos n : 0 < l.countP P)
              exact ha (hall.1 b hb hpass)

end Prefix

/-! ## The ring -/

namespace RingBuffer

/-- **Up to `n` pops** take the first `n`. -/
theorem popMany_eq {r : RingBuffer} (h : r.InRange) (n : Nat) :
    (r.popMany n).2 = r.contents.take n ∧ (r.popMany n).1.contents = r.contents.drop n := by
  induction n generalizing r with
  | zero => exact ⟨rfl, rfl⟩
  | succ n ih =>
      have hfirst := contents_pop h
      have hrange := h.pop
      unfold popMany
      cases hpop : r.pop with
      | mk r' popped =>
          rw [hpop] at hfirst hrange
          cases popped with
          | some update =>
              rw [Option.toList_some, List.singleton_append] at hfirst
              obtain ⟨htaken, hrest⟩ := ih hrange
              rw [hfirst, List.take_succ_cons, List.drop_succ_cons]
              exact ⟨congrArg (update :: ·) htaken, hrest⟩
          | none =>
              have hdrained : r.Drained := by
                unfold pop at hpop
                split at hpop
                next heq => exact heq
                next => cases (Prod.mk.inj hpop).2
              have hempty := contents_of_drained hdrained
              rw [hempty, Option.toList_none, List.nil_append] at hfirst
              rw [hempty, List.take_nil, List.drop_nil]
              exact ⟨rfl, hfirst.symm⟩

end RingBuffer

namespace HFTOrderBookProcessor

/-! ## One call -/

/-- The symbol id is in range. -/
def valid (update : FastUpdate) : Bool := decide (update.symbolId < maxSymbols)

theorem valid_iff {update : FastUpdate} : valid update = true ↔ update.symbolId < maxSymbols := decide_eq_true_iff

/-- Apply an update to its book. -/
def applyTo (books : Nat → FastOrderBook) (update : FastUpdate) : Nat → FastOrderBook :=
  Function.update books update.symbolId ((books update.symbolId).applyUpdate update)

/-- The slot of an update. -/
def slotOf (update : FastUpdate) : Option FastUpdate := if update.symbolId < maxSymbols then some update else none

/-- The updates that a call applies, in order. -/
def appliedUpdates (ring : RingBuffer) (batch : List (Option FastUpdate)) : List FastUpdate :=
  ((collectBatch ring batch).2.1.take (collectBatch ring batch).2.2).filterMap id

/-- **What a call collects**: it pops as many updates as there are slots, stores each in its slot, and counts those
    that are valid. Behind them are slots from before. -/
theorem collectBatch_counts (ring : RingBuffer) (slots : List (Option FastUpdate)) :
    (collectBatch ring slots).1 = (ring.popMany slots.length).1 ∧
    (collectBatch ring slots).2.2 = (ring.popMany slots.length).2.countP valid ∧
    ∃ stale, (collectBatch ring slots).2.1 = (ring.popMany slots.length).2.map slotOf ++ stale := by
  induction slots generalizing ring with
  | nil => exact ⟨rfl, rfl, [], rfl⟩
  | cons slot slots ih =>
      unfold collectBatch
      rw [List.length_cons]
      unfold RingBuffer.popMany
      cases hpop : ring.pop with
      | mk ring' popped =>
          cases popped with
          | none => exact ⟨rfl, rfl, none :: slots, rfl⟩
          | some update =>
              obtain ⟨hring, hcount, stale, hbatch⟩ := ih ring'
              dsimp only
              by_cases hvalid : update.symbolId < maxSymbols
              · rw [if_pos hvalid, List.countP_cons_of_pos (valid_iff.mpr hvalid), List.map_cons, slotOf,
                  if_pos hvalid]
                exact ⟨hring, congrArg (· + 1) hcount, stale, congrArg (some update :: ·) hbatch⟩
              · rw [if_neg hvalid, List.countP_cons_of_neg (valid_iff.not.mpr hvalid), List.map_cons, slotOf,
                  if_neg hvalid]
                exact ⟨hring, hcount, stale, congrArg (none :: ·) hbatch⟩

theorem length_collectBatch (ring : RingBuffer) (slots : List (Option FastUpdate)) :
    (collectBatch ring slots).2.1.length = slots.length := by
  induction slots generalizing ring with
  | nil => rfl
  | cons slot slots ih =>
      unfold collectBatch
      split
      next ring' update _ =>
        dsimp only
        split
        · exact congrArg (· + 1) (ih ring')
        · exact congrArg (· + 1) (ih ring')
      next => rfl

theorem filterMap_slotOf (updates : List FastUpdate) : (updates.map slotOf).filterMap id = updates.filter valid := by
  induction updates with
  | nil => rfl
  | cons update updates ih =>
      rw [List.map_cons]
      by_cases hvalid : update.symbolId < maxSymbols
      · rw [slotOf, if_pos hvalid, List.filter_cons_of_pos (valid_iff.mpr hvalid),
          List.filterMap_cons_some (rfl : id (some update) = some update), ih]
      · rw [slotOf, if_neg hvalid, List.filter_cons_of_neg (valid_iff.not.mpr hvalid),
          List.filterMap_cons_none (rfl : id (none : Option FastUpdate) = none), ih]

variable {ring : RingBuffer} {batch : List (Option FastUpdate)}

/-- The slots that are reached are the first of those written. -/
theorem appliedUpdates_eq (h : ring.InRange) (hlength : batch.length = batchSize) :
    appliedUpdates ring batch = countedPrefix valid (ring.contents.take batchSize) := by
  obtain ⟨-, hcount, stale, hbatch⟩ := collectBatch_counts ring batch
  rw [hlength, (ring.popMany_eq h batchSize).1] at hcount hbatch
  have hle : (ring.contents.take batchSize).countP valid ≤ ((ring.contents.take batchSize).map slotOf).length := by
    rw [List.length_map]
    exact List.countP_le_length
  unfold appliedUpdates countedPrefix
  rw [hcount, hbatch, List.take_append_of_le_length hle, ← List.map_take, filterMap_slotOf]

/-- What one call should do: pop the first sixteen, apply those that are valid, and return how many these are. -/
structure WholeBatch (p : HFTOrderBookProcessor) (ringId : RingId) (batch : List (Option FastUpdate)) : Prop where
  popped   : ((p.processRingBatched ringId batch).1.rings ringId).contents
    = (p.rings ringId).contents.drop batchSize
  applied  : appliedUpdates (p.rings ringId) batch = ((p.rings ringId).contents.take batchSize).filter valid
  books    : (p.processRingBatched ringId batch).1.orderbooks
    = (appliedUpdates (p.rings ringId) batch).foldl applyTo p.orderbooks
  returned : (p.processRingBatched ringId batch).2.2 = (appliedUpdates (p.rings ringId) batch).length

/-- What the ring is after a call. -/
theorem rings_processRingBatched {p : HFTOrderBookProcessor} {ringId : RingId} (h : (p.rings ringId).InRange)
    (hlength : batch.length = batchSize) :
    ((p.processRingBatched ringId batch).1.rings ringId).InRange ∧
    ((p.processRingBatched ringId batch).1.rings ringId).contents = (p.rings ringId).contents.drop batchSize ∧
    (p.processRingBatched ringId batch).2.1.length = batchSize := by
  obtain ⟨hring, -, -⟩ := collectBatch_counts (p.rings ringId) batch
  have hsame : (p.processRingBatched ringId batch).1.rings ringId = ((p.rings ringId).popMany batchSize).1 := by
    rw [← hlength, ← hring]
    exact Function.update_self ..
  rw [hsame]
  exact ⟨((p.rings ringId).contents_popMany h batchSize).2, ((p.rings ringId).popMany_eq h batchSize).2,
    (length_collectBatch (p.rings ringId) batch).trans hlength⟩

theorem wholeBatch_iff {p : HFTOrderBookProcessor} {ringId : RingId} (h : (p.rings ringId).InRange)
    (hlength : batch.length = batchSize) :
    WholeBatch p ringId batch ↔ FailLast valid ((p.rings ringId).contents.take batchSize) := by
  rw [← countedPrefix_eq_filter_iff, ← appliedUpdates_eq h hlength]
  refine ⟨fun hwhole => hwhole.applied, fun happlied => ⟨(rings_processRingBatched h hlength).2.1, happlied, rfl, ?_⟩⟩
  obtain ⟨-, hcount, -⟩ := collectBatch_counts (p.rings ringId) batch
  rw [hlength, ((p.rings ringId).popMany_eq h batchSize).1] at hcount
  rw [happlied, ← List.countP_eq_length_filter]
  exact hcount

/-! ## Draining a ring -/

/-- `n` calls for one ring, and all that they apply. -/
def drain (p : HFTOrderBookProcessor) (ringId : RingId) (batch : List (Option FastUpdate)) :
    Nat → HFTOrderBookProcessor × List FastUpdate
  | 0     => (p, [])
  | n + 1 =>
    let next := p.processRingBatched ringId batch
    ((drain next.1 ringId next.2.1 n).1,
      appliedUpdates (p.rings ringId) batch ++ (drain next.1 ringId next.2.1 n).2)

/-- The books are those of the updates applied, one by one. -/
theorem orderbooks_drain (p : HFTOrderBookProcessor) (ringId : RingId) (batch : List (Option FastUpdate)) (n : Nat) :
    (p.drain ringId batch n).1.orderbooks = (p.drain ringId batch n).2.foldl applyTo p.orderbooks := by
  induction n generalizing p batch with
  | zero => rfl
  | succ n ih =>
      unfold drain
      rw [ih, List.foldl_append]
      rfl

/-- Parts of two lists make up both only if each is whole. -/
theorem append_eq_append_iff_of_sublist {α : Type*} {as bs as' bs' : List α} (ha : as.Sublist as')
    (hb : bs.Sublist bs') : as ++ bs = as' ++ bs' ↔ as = as' ∧ bs = bs' := by
  constructor
  · intro heq
    have hlength := congrArg List.length heq
    have hla := ha.length_le
    have hlb := hb.length_le
    rw [List.length_append, List.length_append] at hlength
    exact ⟨ha.eq_of_length (by omega), hb.eq_of_length (by omega)⟩
  · rintro ⟨rfl, rfl⟩
    rfl

/-- The updates of the call number `k`, from 0. -/
def chunk (updates : List FastUpdate) (k : Nat) : List FastUpdate := (updates.drop (batchSize * k)).take batchSize

/-- **Enough calls** empty the ring. They apply no update that is not valid, each at most once and in order, and all
    that are valid when in every batch the invalid ones come last. -/
theorem drain_eq_iff {p : HFTOrderBookProcessor} {ringId : RingId} (h : (p.rings ringId).InRange)
    (hlength : batch.length = batchSize) {n : Nat} (hn : (p.rings ringId).contents.length ≤ batchSize * n) :
    ((p.drain ringId batch n).1.rings ringId).contents = [] ∧
    (p.drain ringId batch n).2.Sublist ((p.rings ringId).contents.filter valid) ∧
    ((p.drain ringId batch n).2 = (p.rings ringId).contents.filter valid ↔
      ∀ k, FailLast valid (chunk (p.rings ringId).contents k)) := by
  induction n generalizing p batch with
  | zero =>
      rw [List.eq_nil_of_length_eq_zero (Nat.le_zero.mp hn)]
      refine ⟨List.eq_nil_of_length_eq_zero (Nat.le_zero.mp hn), List.Sublist.refl _, iff_of_true rfl fun k => ?_⟩
      unfold chunk FailLast
      rw [List.drop_nil, List.take_nil]
      exact List.Pairwise.nil
  | succ n ih =>
      obtain ⟨hrange', hcontents, hlength'⟩ := rings_processRingBatched h hlength
      have hn' : ((p.processRingBatched ringId batch).1.rings ringId).contents.length ≤ batchSize * n := by
        rw [hcontents, List.length_drop]
        rw [Nat.mul_succ] at hn
        omega
      obtain ⟨hempty, hsublist, hiff⟩ := ih hrange' hlength' hn'
      have hsplit : (p.rings ringId).contents.filter valid =
          ((p.rings ringId).contents.take batchSize).filter valid ++
            ((p.rings ringId).contents.drop batchSize).filter valid := by
        rw [← List.filter_append, List.take_append_drop]
      have hfirst : (appliedUpdates (p.rings ringId) batch).Sublist
          (((p.rings ringId).contents.take batchSize).filter valid) := by
        rw [appliedUpdates_eq h hlength]
        exact countedPrefix_sublist _
      rw [hcontents] at hsublist hiff
      unfold drain
      dsimp only
      rw [hsplit]
      refine ⟨hempty, hfirst.append hsublist, ?_⟩
      rw [append_eq_append_iff_of_sublist hfirst hsublist, hiff, appliedUpdates_eq h hlength,
        countedPrefix_eq_filter_iff]
      -- the first chunk is that of this call, the others are those of the rest
      have hchunk : ∀ k, chunk (p.rings ringId).contents (k + 1) =
          chunk ((p.rings ringId).contents.drop batchSize) k := by
        intro k
        unfold chunk
        rw [List.drop_drop, Nat.mul_succ, Nat.add_comm]
      constructor
      · rintro ⟨hhead, hrest⟩ k
        cases k with
        | zero => exact hhead
        | succ k =>
            rw [hchunk]
            exact hrest k
      · intro hall
        exact ⟨hall 0, fun k => hchunk k ▸ hall (k + 1)⟩

/-- **Batches apply every update** exactly when the invalid ones of a batch come last: one call, and as many as empty
    the ring. -/
theorem batches_apply_all_iff {p : HFTOrderBookProcessor} {ringId : RingId} {batch : List (Option FastUpdate)}
    (h : (p.rings ringId).InRange) (hlength : batch.length = batchSize) :
    (WholeBatch p ringId batch ↔ FailLast valid ((p.rings ringId).contents.take batchSize)) ∧
    ∀ n, (p.rings ringId).contents.length ≤ batchSize * n →
      ((p.drain ringId batch n).1.rings ringId).contents = [] ∧
      (p.drain ringId batch n).1.orderbooks = (p.drain ringId batch n).2.foldl applyTo p.orderbooks ∧
      ((p.drain ringId batch n).2 = (p.rings ringId).contents.filter valid ↔
        ∀ k, FailLast valid (chunk (p.rings ringId).contents k)) := by
  refine ⟨wholeBatch_iff h hlength, fun n hn => ?_⟩
  obtain ⟨hempty, -, hiff⟩ := drain_eq_iff h hlength hn
  exact ⟨hempty, orderbooks_drain p ringId batch n, hiff⟩

/-- Two updates wait, the first for a book there is not. -/
def straySymbol : HFTOrderBookProcessor :=
  { new with rings := fun _ => ((RingBuffer.new.push (.ofLevels 5000 1 0 [⟨1, 1⟩] [] false)).1.push
      (.ofLevels 7 1 0 [⟨100, 5⟩] [] false)).1 }

theorem inRange_straySymbol (ringId : RingId) : (straySymbol.rings ringId).InRange :=
  (RingBuffer.inRange_new.push _).push _

theorem contents_straySymbol (ringId : RingId) : (straySymbol.rings ringId).contents =
    [.ofLevels 5000 1 0 [⟨1, 1⟩] [] false, .ofLevels 7 1 0 [⟨100, 5⟩] [] false] := by
  have hfirst := @RingBuffer.contents_push _ RingBuffer.inRange_new (.ofLevels 5000 1 0 [⟨1, 1⟩] [] false) rfl
  show ((RingBuffer.new.push _).1.push _).1.contents = _
  rw [RingBuffer.contents_push (RingBuffer.inRange_new.push _) rfl, hfirst, RingBuffer.contents_new]
  rfl

theorem batches_apply_all_iff_straySymbol :
    (WholeBatch straySymbol .binance (List.replicate batchSize none) ↔
      FailLast valid ((straySymbol.rings .binance).contents.take batchSize)) ∧
    ∀ n, (straySymbol.rings .binance).contents.length ≤ batchSize * n →
      ((straySymbol.drain .binance (List.replicate batchSize none) n).1.rings .binance).contents = [] ∧
      (straySymbol.drain .binance (List.replicate batchSize none) n).1.orderbooks
        = (straySymbol.drain .binance (List.replicate batchSize none) n).2.foldl applyTo straySymbol.orderbooks ∧
      ((straySymbol.drain .binance (List.replicate batchSize none) n).2
          = (straySymbol.rings .binance).contents.filter valid ↔
        ∀ k, FailLast valid (chunk (straySymbol.rings .binance).contents k)) :=
  batches_apply_all_iff (inRange_straySymbol .binance) List.length_replicate

/-- The valid update is popped and counted, and not applied. -/
theorem not_batches_apply_all : ¬ ∀ (p : HFTOrderBookProcessor) (ringId : RingId) (batch : List (Option FastUpdate)),
    (p.rings ringId).InRange → batch.length = batchSize → WholeBatch p ringId batch := by
  intro h
  have hwhole := h straySymbol .binance (List.replicate batchSize none) (inRange_straySymbol .binance)
    List.length_replicate
  rw [wholeBatch_iff (inRange_straySymbol .binance) List.length_replicate, contents_straySymbol] at hwhole
  revert hwhole
  unfold FailLast
  decide

end HFTOrderBookProcessor
end Hft
end TradingPlatform
