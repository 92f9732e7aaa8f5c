import TradingPlatform.Crypto.Builders
import TradingPlatform.Library.Machine

/-!
# `Crypto.Reference` — the builders of Bybit and Coinbase against a reference book

The reference is a price map for each side: a snapshot replaces it, a level of quantity 0 deletes its price, any
other overwrites it. A builder that is given clean snapshots lists that map at every point of the stream
(`maintains_reference`), sorted after each of its updates.
-/

namespace TradingPlatform
namespace Crypto

open Sender Ladder Machine OrderBookBuilder

/-! ## The reference book -/

def ScaledOrderBookUpdate.side (update : ScaledOrderBookUpdate) (isBid : Bool) : List (Int × Int) :=
  if isBid then update.bids else update.asks

/-- A price map for each side. -/
abbrev PriceMaps := Bool → Int → Option Int

/-- One message; there is no book before the first snapshot. -/
def referenceStep (incremental : String) (maps : Option PriceMaps) (update : ScaledOrderBookUpdate) :
    Option PriceMaps :=
  if update.messageType = "snapshot" then some fun isBid price => (update.side isBid).lookup price
  else if update.messageType = incremental then
    maps.map fun maps isBid => ((update.side isBid).map levelWrite).foldl assign (maps isBid)
  else maps

def reference (incremental : String) (messages : List ScaledOrderBookUpdate) : Option PriceMaps :=
  messages.foldl (referenceStep incremental) none

/-- Distinct prices on each side, and no quantity 0. -/
def Clean (update : ScaledOrderBookUpdate) : Prop :=
  ∀ isBid, ((update.side isBid).map Prod.fst).Nodup ∧ ∀ level ∈ update.side isBid, level.2 ≠ 0

instance (update : ScaledOrderBookUpdate) : Decidable (Clean update) := inferInstanceAs (Decidable (∀ _, _))

theorem referenceStep_isSome {incremental : String} {maps : Option PriceMaps} {update : ScaledOrderBookUpdate} :
    (referenceStep incremental maps update).isSome ↔ maps.isSome ∨ update.messageType = "snapshot" := by
  unfold referenceStep
  split
  next hsnapshot => simp [hsnapshot]
  next hsnapshot =>
    split
    · simp [hsnapshot]
    · simp [hsnapshot]

/-- There is a reference book from the first snapshot on. -/
theorem reference_isSome_iff {incremental : String} {messages : List ScaledOrderBookUpdate} :
    (reference incremental messages).isSome ↔ ∃ m ∈ messages, m.messageType = "snapshot" := by
  unfold reference
  induction messages using List.reverseRecOn with
  | nil => simp
  | append_singleton messages m ih =>
      rw [List.foldl_concat, referenceStep_isSome, ih]
      simp only [List.mem_append, List.mem_singleton]
      constructor
      · rintro (⟨m', hm', htype⟩ | htype)
        · exact ⟨m', .inl hm', htype⟩
        · exact ⟨m, .inr rfl, htype⟩
      · rintro ⟨m', hm' | rfl, htype⟩
        · exact .inl ⟨m', hm', htype⟩
        · exact .inr htype

/-! ## A builder and the reference -/

/-- Nothing happens for a message of unknown type, nor for an update without a book. -/
theorem process_ignored {incremental : String} {b : OrderBookBuilder} {update : ScaledOrderBookUpdate}
    (hsnapshot : update.messageType ≠ "snapshot") (h : update.messageType ≠ incremental ∨ b.orderbook = none) :
    process incremental b update = (b, []) := by
  unfold process
  rw [if_neg hsnapshot]
  split
  next htype => rw [h.resolve_left (not_not.mpr htype)]
  next => rfl

/-- A side lists its map: each price once, none with quantity 0. -/
structure SideTracks (levels : List (Int × Int)) (map : Int → Option Int) : Prop where
  lists : Lists levels map
  once  : (levels.map Prod.fst).Nodup
  live  : ∀ level ∈ levels, level.2 ≠ 0

/-- Neither has a book, or the book of the builder tracks the reference on both sides. -/
def Tracks (b : OrderBookBuilder) (maps : Option PriceMaps) : Prop :=
  Option.Rel (fun orderbook maps => ∀ isBid, SideTracks (orderbook.levels isBid) (maps isBid)) b.orderbook maps

theorem levels_replace (b : OrderBookBuilder) (update : ScaledOrderBookUpdate) (isBid : Bool) :
    (b.replace update).levels isBid = update.side isBid := by
  cases isBid with
  | true => rfl
  | false => rfl

theorem levels_amend (orderbook : OrderBookData) (update : ScaledOrderBookUpdate) (isBid : Bool) :
    (amend orderbook update).levels isBid =
      sortLevels isBid (applyLevels (orderbook.levels isBid) (update.side isBid)) := by
  cases isBid with
  | true => rfl
  | false => rfl

theorem Clean.sideTracks {update : ScaledOrderBookUpdate} (h : Clean update) (isBid : Bool) :
    SideTracks (update.side isBid) fun price => (update.side isBid).lookup price where
  lists := Assoc.lists_lookup (h isBid).1
  once  := (h isBid).1
  live  := (h isBid).2

/-- A side after an update; repeated prices in it are written one after the other. -/
theorem SideTracks.amend {levels : List (Int × Int)} {map : Int → Option Int} (h : SideTracks levels map)
    (isBid : Bool) (updates : List (Int × Int)) :
    SideTracks (sortLevels isBid (applyLevels levels updates)) ((updates.map levelWrite).foldl assign map) := by
  have hlists := Assoc.lists_writeAll h.once h.lists (updates.map levelWrite)
  have hperm : (sortLevels isBid (applyLevels levels updates)).Perm (applyLevels levels updates) :=
    List.perm_insertionSort _ _
  have hwritten : ∀ op ∈ updates.map levelWrite, ∀ quantity, op.2 = some quantity → quantity ≠ 0 := by
    intro op hop quantity hquantity
    obtain ⟨level, -, rfl⟩ := List.mem_map.mp hop
    unfold levelWrite at hquantity
    split at hquantity
    next => cases hquantity
    next hne =>
      rw [← Option.some.inj hquantity]
      exact hne
  refine ⟨?_, ?_, ?_⟩
  · intro price quantity
    rw [hperm.mem_iff]
    exact hlists price quantity
  · rw [(hperm.map Prod.fst).nodup_iff]
    exact Assoc.nodup_writeAll h.once _
  · intro level hlevel
    exact Assoc.forall_writeAll h.once h.live hwritten level (hperm.mem_iff.mp hlevel)

theorem sorted_amend {levels : List (Int × Int)} (h : (levels.map Prod.fst).Nodup) (isBid : Bool)
    (updates : List (Int × Int)) : Sorted (better isBid) (sortLevels isBid (applyLevels levels updates)) :=
  Assoc.sorted_insertionSort (notWorse_iff isBid) (Assoc.nodup_writeAll h _)

/-- **One message** keeps the builder with the reference. -/
theorem Tracks.step {incremental : String} {b : OrderBookBuilder} {maps : Option PriceMaps} (h : Tracks b maps)
    {update : ScaledOrderBookUpdate} (hclean : update.messageType = "snapshot" → Clean update) :
    Tracks (process incremental b update).1 (referenceStep incremental maps update) := by
  unfold process referenceStep
  split
  next hsnapshot =>
    refine .some fun isBid => ?_
    rw [levels_replace]
    exact (hclean hsnapshot).sideTracks isBid
  next =>
    split
    next =>
      unfold Tracks at h
      cases hb : b.orderbook with
      | none =>
          rw [hb] at h
          cases h
          dsimp only
          unfold Tracks
          rw [hb]
          exact .none
      | some orderbook =>
          rw [hb] at h
          cases h with
          | some hsides =>
              refine .some fun isBid => ?_
              rw [levels_amend]
              exact (hsides isBid).amend isBid _
    next => exact h

/-- **A whole stream** does. -/
theorem Tracks.run {incremental : String} {b : OrderBookBuilder} {maps : Option PriceMaps} (h : Tracks b maps)
    {messages : List ScaledOrderBookUpdate} (hclean : ∀ m ∈ messages, m.messageType = "snapshot" → Clean m) :
    Tracks (run (process incremental) b messages).1 (messages.foldl (referenceStep incremental) maps) := by
  induction messages generalizing b maps with
  | nil => exact h
  | cons m messages ih =>
      obtain ⟨hm, hrest⟩ := List.forall_mem_cons.mp hclean
      exact ih (h.step hm) hrest

/-! ## The stream of messages -/

/-- What a builder does with a stream of messages, at every point of it. -/
structure MaintainsReference (incremental : String)
    (processUpdate : OrderBookBuilder → ScaledOrderBookUpdate → OrderBookBuilder × List OrderBookData)
    (b : OrderBookBuilder) (messages : List ScaledOrderBookUpdate) : Prop where
  /-- An update before the first snapshot and a message of unknown type leave the state and publish nothing. -/
  ignored : ∀ done message, done ++ [message] <+: messages →
    message.messageType = incremental ∧ (∀ m ∈ done, m.messageType ≠ "snapshot") ∨
      message.messageType ≠ "snapshot" ∧ message.messageType ≠ incremental →
    processUpdate (run processUpdate b done).1 message = ((run processUpdate b done).1, [])
  tracks  : ∀ done, done <+: messages → (∃ m ∈ done, m.messageType = "snapshot") →
    ∃ orderbook maps, (run processUpdate b done).1.orderbook = some orderbook ∧
      reference incremental done = some maps ∧ ∀ isBid, SideTracks (orderbook.levels isBid) (maps isBid)
  sorted  : ∀ done message, done ++ [message] <+: messages → message.messageType = incremental →
    (∃ m ∈ done, m.messageType = "snapshot") →
    ∃ orderbook, (run processUpdate b (done ++ [message])).1.orderbook = some orderbook ∧
      ∀ isBid, Sorted (better isBid) (orderbook.levels isBid)

theorem maintainsReference {incremental : String} (hne : incremental ≠ "snapshot") {b : OrderBookBuilder}
    (hb : b.orderbook = none) {messages : List ScaledOrderBookUpdate}
    (hclean : ∀ m ∈ messages, m.messageType = "snapshot" → Clean m) :
    MaintainsReference incremental (process incremental) b messages := by
  have hstart : Tracks b none := by
    unfold Tracks
    rw [hb]
    exact .none
  have htracks : ∀ done, done <+: messages →
      Tracks (run (process incremental) b done).1 (reference incremental done) := fun done hdone =>
    hstart.run fun m hm => hclean m (hdone.subset hm)
  have hbook : ∀ done, done <+: messages → (∃ m ∈ done, m.messageType = "snapshot") →
      ∃ orderbook maps, (run (process incremental) b done).1.orderbook = some orderbook ∧
        reference incremental done = some maps ∧ ∀ isBid, SideTracks (orderbook.levels isBid) (maps isBid) := by
    intro done hdone hsnapshot
    obtain ⟨maps, hmaps⟩ := Option.isSome_iff_exists.mp (reference_isSome_iff.mpr hsnapshot)
    have h := htracks done hdone
    unfold Tracks at h
    rw [hmaps] at h
    cases hbook : (run (process incremental) b done).1.orderbook with
    | none =>
        rw [hbook] at h
        cases h
    | some orderbook =>
        rw [hbook] at h
        cases h with
        | some hsides => exact ⟨orderbook, maps, rfl, hmaps, hsides⟩
  refine ⟨?_, hbook, ?_⟩
  · rintro done message hdone (⟨htype, hnone⟩ | ⟨hsnapshot, htype⟩)
    · -- without a snapshot there is no book to amend
      have h := htracks done ((List.prefix_append ..).trans hdone)
      have hreference : reference incremental done = none := by
        rw [← Option.not_isSome_iff_eq_none, reference_isSome_iff]
        rintro ⟨m, hm, hsnapshot⟩
        exact hnone m hm hsnapshot
      unfold Tracks at h
      rw [hreference] at h
      cases hempty : (run (process incremental) b done).1.orderbook with
      | none => exact process_ignored (htype ▸ hne) (.inr hempty)
      | some orderbook =>
          rw [hempty] at h
          cases h
    · exact process_ignored hsnapshot (.inl htype)
  · intro done message hdone htype hsnapshot
    obtain ⟨orderbook, _, horderbook, -, hsides⟩ :=
      hbook done ((List.prefix_append ..).trans hdone) hsnapshot
    refine ⟨amend orderbook message, ?_, fun isBid => ?_⟩
    · rw [run_append_state, run_cons, process_incremental hne htype horderbook]
      rfl
    · rw [levels_amend]
      exact sorted_amend (hsides isBid).once isBid _

/-- **The builders maintain the reference book**, Bybit's with deltas and Coinbase's with updates, in every stream
    whose snapshots are clean. -/
theorem maintains_reference (exchange symbol assetType : String) (messages : List ScaledOrderBookUpdate)
    (hclean : ∀ m ∈ messages, m.messageType = "snapshot" → Clean m) :
    MaintainsReference "delta" BybitOrderBookBuilder.processUpdate (new exchange symbol assetType) messages ∧
    MaintainsReference "update" CoinbaseOrderBookBuilder.processUpdate (new exchange symbol assetType) messages :=
  ⟨maintainsReference (by decide) rfl hclean, maintainsReference (by decide) rfl hclean⟩

/-- Bids out of order, then two writes to one price and a delete. -/
def sampleStream : List ScaledOrderBookUpdate :=
  [{ messageType := "snapshot", bids := [(100, 5), (102, 1)], asks := [(103, 2)], timestamp := 1
     pricePrecision := 8, quantityPrecision := 8, timestampUnit := .milliseconds },
   { messageType := "delta", bids := [(101, 4), (101, 7), (100, 0)], asks := [], timestamp := 2
     pricePrecision := 8, quantityPrecision := 8, timestampUnit := .milliseconds }]

theorem maintains_reference_sampleStream :
    MaintainsReference "delta" BybitOrderBookBuilder.processUpdate (new "Bybit" "BTCUSDT" "spot") sampleStream ∧
    MaintainsReference "update" CoinbaseOrderBookBuilder.processUpdate (new "Bybit" "BTCUSDT" "spot") sampleStream :=
  maintains_reference "Bybit" "BTCUSDT" "spot" sampleStream (by decide +kernel)

end Crypto
end TradingPlatform
