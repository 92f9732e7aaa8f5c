import TradingPlatform.Builder.Merge
import TradingPlatform.Builder.Turn

/-!
# `Builder.Live` — a live book is a snapshot and what followed it

The invariant of a run ties the state, the book and the list of applied updates (`LiveInvariant`): while live,
the applied updates end in a snapshot and later updates, and the book is that snapshot with these merged in
(`SnapshotPlus`). A resync leaves the book alone, and only a snapshot leads back to live.
-/

namespace TradingPlatform
namespace Builder

open Market OrderBookBuilder

/-! ## The book as snapshot and deltas -/

/-- An update the builder is made for. The bound keeps `last_seq + 1` within `u64`. -/
structure WellFormed (grid : ℚ) (u : OrderBookUpdate) : Prop where
  coarse : epsilon < grid
  onGrid : ∀ side, ∀ l ∈ u.side side, OnGrid grid l.price
  nonneg : ∀ side, ∀ l ∈ u.side side, 0 ≤ l.quantity
  sorted : u.isSnapshot = true → ∀ side, (u.side side).Pairwise fun l l' => side.better l.price l'.price
  ids    : u.firstUpdateId ≤ u.updateId ∧ u.updateId < 2 ^ 64 - 1

/-- The levels of a snapshot with later updates merged in, level by level: quantity 0 deletes, any other
    overwrites. -/
def merged (side : Side) (snap : OrderBookUpdate) (deltas : List OrderBookUpdate) : LevelMap :=
  deltas.foldl (fun m d => (d.side side).foldl setLevel m) (levelMap (snap.side side))

/-- The book is the snapshot with these updates merged in. -/
structure SnapshotPlus (grid : ℚ) (book : OrderBook) (snap : OrderBookUpdate) (deltas : List OrderBookUpdate) :
    Prop where
  snapshot : snap.isSnapshot = true
  updates  : ∀ d ∈ deltas, d.isSnapshot = false
  lists    : ∀ side, SideLists grid (book.side side) (merged side snap deltas)
  sorted   : ∀ side, (book.side side).Pairwise fun l l' => side.better l.price l'.price
  zeros    : ∀ side, ∀ l ∈ book.side side, l.quantity = 0 → l ∈ snap.side side

theorem side_applyUpdate_snapshot {u : OrderBookUpdate} (h : u.isSnapshot = true) (book : OrderBook) (side : Side) :
    (applyUpdate book u).side side = u.side side := by
  unfold applyUpdate
  cases side <;> simp [h, OrderBook.side, OrderBookUpdate.side]

theorem side_applyUpdate_delta {u : OrderBookUpdate} (h : u.isSnapshot = false) (book : OrderBook) (side : Side) :
    (applyUpdate book u).side side = mergeSide side (book.side side) (u.side side) := by
  unfold applyUpdate
  cases side <;> simp [h, OrderBook.side, OrderBookUpdate.side]

@[simp] theorem lastUpdateId_applyUpdate (book : OrderBook) (u : OrderBookUpdate) :
    (applyUpdate book u).lastUpdateId = u.updateId := by
  unfold applyUpdate
  cases u.isSnapshot <;> rfl

theorem better_ne {side : Side} {p p' : ℚ} (h : side.better p p') : p ≠ p' := by
  rintro rfl
  exact irrefl_of side.better p h

/-- A snapshot starts over. -/
theorem snapshotPlus_snapshot {grid : ℚ} {u : OrderBookUpdate} (hu : WellFormed grid u) (hsnap : u.isSnapshot = true)
    (book : OrderBook) : SnapshotPlus grid (applyUpdate book u) u [] where
  snapshot := hsnap
  updates  := by simp
  lists    := by
    intro side
    rw [side_applyUpdate_snapshot hsnap]
    exact sideLists_levelMap ((hu.sorted hsnap side).imp better_ne) (hu.onGrid side)
  sorted   := by
    intro side
    rw [side_applyUpdate_snapshot hsnap]
    exact hu.sorted hsnap side
  zeros    := by
    intro side l hl _
    rwa [side_applyUpdate_snapshot hsnap] at hl

/-- A merge writes no level of quantity zero. -/
theorem mem_of_mem_mergeSide {side : Side} {levels us : List PriceLevel} {l : PriceLevel}
    (h : l ∈ mergeSide side levels us) (hzero : l.quantity = 0) : l ∈ levels := by
  have hfold : l ∈ us.foldl mergeLevel levels := (sortLevels_perm side _).mem_iff.mp h
  clear h
  induction us generalizing levels with
  | nil => exact hfold
  | cons u us ih =>
      have hone := ih hfold
      unfold mergeLevel at hone
      dsimp only at hone
      split_ifs at hone with hpos
      · rcases List.mem_append.mp hone with hold | hnew
        · exact List.mem_of_mem_filter hold
        · rw [List.mem_singleton.mp hnew] at hzero
          exact absurd hpos (by simp [hzero])
      · exact List.mem_of_mem_filter hone

/-- **A later update is merged in.** -/
theorem SnapshotPlus.delta {grid : ℚ} {book : OrderBook} {snap u : OrderBookUpdate} {deltas : List OrderBookUpdate}
    (h : SnapshotPlus grid book snap deltas) (hu : WellFormed grid u) (hdelta : u.isSnapshot = false) :
    SnapshotPlus grid (applyUpdate book u) snap (deltas ++ [u]) where
  snapshot := h.snapshot
  updates  := by
    intro d hd
    rcases List.mem_append.mp hd with hd | hd
    · exact h.updates d hd
    · rw [List.mem_singleton.mp hd]
      exact hdelta
  lists    := by
    intro side
    rw [side_applyUpdate_delta hdelta, merged, List.foldl_append]
    exact ((h.lists side).mergeSide side hu.coarse (hu.onGrid side) (hu.nonneg side)).1
  sorted   := by
    intro side
    rw [side_applyUpdate_delta hdelta]
    exact ((h.lists side).mergeSide side hu.coarse (hu.onGrid side) (hu.nonneg side)).2
  zeros    := by
    intro side l hl hzero
    rw [side_applyUpdate_delta hdelta] at hl
    exact h.zeros side l (mem_of_mem_mergeSide hl hzero) hzero

/-! ## The invariant of a run -/

/-- The updates applied so far. -/
def Effect.applied? : Effect → Option OrderBookUpdate
  | .applied _ u => some u
  | _            => none

def appliedUpdates (out : List Effect) : List OrderBookUpdate := out.filterMap Effect.applied?

@[simp] theorem appliedUpdates_nil : appliedUpdates [] = [] := rfl

@[simp] theorem appliedUpdates_append (out out' : List Effect) :
    appliedUpdates (out ++ out') = appliedUpdates out ++ appliedUpdates out' := List.filterMap_append

/-- The updates on their way to the book. -/
def bufferedIn : OrderBookState → List OrderBookUpdate
  | .buffering buffer                   => buffer
  | .fetchingSnapshot bufferedUpdates _ => bufferedUpdates
  | _                                   => []

/-- What a live state says about the book and the applied updates. -/
def LiveBook (grid : ℚ) (state : OrderBookState) (book : OrderBook) (applied : List OrderBookUpdate) : Prop :=
  ∀ lastSeq n, state = .live lastSeq n →
    lastSeq = book.lastUpdateId ∧
      ∃ before snap deltas, applied = before ++ snap :: deltas ∧ SnapshotPlus grid book snap deltas

/-- An update applied without being a snapshot followed the state it was applied to. -/
def FollowedState : Effect → Prop
  | .applied current u =>
      u.isSnapshot = false → ∃ lastSeq n, current = .live lastSeq n ∧
        (u.firstUpdateId = lastSeq + 1 ∨ u.updateId = lastSeq + 1)
  | _ => True

structure LiveInvariant (grid : ℚ) (s : Loop) (out : List Effect) : Prop where
  steady    : Steady s.builder.state
  channel   : ∀ u ∈ s.channel, WellFormed grid u
  pending   : ∀ u ∈ bufferedIn s.builder.state, WellFormed grid u
  live      : LiveBook grid s.builder.state s.builder.orderbook (appliedUpdates out)
  followed  : ∀ e ∈ out, FollowedState e

theorem mem_of_mem_makeRoom {buffer : List OrderBookUpdate} {u : OrderBookUpdate} (h : u ∈ makeRoom buffer) :
    u ∈ buffer := by
  unfold makeRoom at h
  split_ifs at h
  · exact List.mem_of_mem_drop h
  · exact h

theorem notLive {grid : ℚ} {state : OrderBookState} {book : OrderBook} {applied : List OrderBookUpdate}
    (h : ∀ lastSeq n, state ≠ .live lastSeq n) : LiveBook grid state book applied :=
  fun lastSeq n hstate => absurd hstate (h lastSeq n)

/-- The invariant after a step, part by part. -/
theorem LiveInvariant.next {grid : ℚ} {s s' : Loop} {out new : List Effect} {state : OrderBookState}
    {book : OrderBook} {channel : List OrderBookUpdate} (h : LiveInvariant grid s out)
    (hs' : Becomes s s' state book channel) (hsteady : Steady state) (hchannel : ∀ u ∈ channel, WellFormed grid u)
    (hpending : ∀ u ∈ bufferedIn state, WellFormed grid u)
    (hlive : LiveBook grid state book (appliedUpdates (out ++ new))) (hnew : ∀ e ∈ new, FollowedState e) :
    LiveInvariant grid s' (out ++ new) where
  steady   := hs'.state ▸ hsteady
  channel  := hs'.channel ▸ hchannel
  pending  := hs'.state ▸ hpending
  live     := by
    rw [hs'.state, hs'.orderbook]
    exact hlive
  followed := by
    intro e he
    rcases List.mem_append.mp he with he | he
    · exact h.followed e he
    · exact hnew e he

theorem LiveInvariant.received {grid : ℚ} {s : Loop} {out : List Effect} (h : LiveInvariant grid s out)
    {u : OrderBookUpdate} {rest : List OrderBookUpdate} (hchannel : s.channel = u :: rest) :
    WellFormed grid u ∧ ∀ x ∈ rest, WellFormed grid x := by
  have hall := h.channel
  rw [hchannel] at hall
  exact List.forall_mem_cons.mp hall

/-- **One turn keeps the invariant.** -/
theorem LiveInvariant.turn {grid : ℚ} {s s' : Loop} {expired : Bool} {out new : List Effect}
    (h : LiveInvariant grid s out) (hturn : Turn s expired s' new) : LiveInvariant grid s' (out ++ new) := by
  have hpending := h.pending
  have hlive := h.live
  cases hturn with
  | timeout buffer _ hstate _ hs' =>
      exact h.next hs' (.resyncing _) h.channel (by simp [bufferedIn]) (notLive (by simp))
        (by simp [FollowedState])
  | buffered buffer u rest _ hstate _ hchannel _ hs' =>
      obtain ⟨hu, hrest⟩ := h.received hchannel
      refine h.next hs' (.buffering _) hrest ?_ (notLive (by simp)) (by simp [FollowedState])
      intro x hx
      rcases List.mem_append.mp hx with hx | hx
      · rw [hstate] at hpending
        exact hpending x (mem_of_mem_makeRoom hx)
      · exact List.mem_singleton.mp hx ▸ hu
  | snapshot u rest _ hstate _ hchannel hsnap hs' =>
      obtain ⟨hu, hrest⟩ := h.received hchannel
      exact h.next hs' (.fetching u []) hrest (by simpa [bufferedIn] using hu) (notLive (by simp))
        (by simp [FollowedState])
  | paused first others _ hstate _ hchannel _ hs' =>
      rw [hstate] at hpending
      exact h.next hs' (.fetching first others) (by simp) hpending (notLive (by simp)) (by simp [FollowedState])
  | idle _ hstate hchannel _ hs' =>
      exact h.next hs' h.steady (by simp) hpending (by simpa using hlive) (by simp)
  | left _ _ hchannel _ hs' =>
      subst hs'
      exact ⟨h.steady, h.channel, hpending, by simpa using hlive, by simpa using h.followed⟩
  | fetched first others _ hstate hsnap hs' =>
      -- the snapshot becomes the book
      rw [hstate] at hpending
      have hfirst : WellFormed grid first := hpending first (by simp [bufferedIn])
      refine h.next hs' (.live _ _) h.channel (by simp [bufferedIn]) ?_ (by simp [FollowedState, hsnap])
      intro lastSeq n hlast
      obtain ⟨rfl, _⟩ := OrderBookState.live.inj hlast
      refine ⟨(lastUpdateId_applyUpdate _ _).symm, appliedUpdates out, first, [], ?_,
        snapshotPlus_snapshot hfirst hsnap _⟩
      simp [appliedUpdates, Effect.applied?]
  | stuck first others _ hstate hsnap hs' =>
      exact h.next hs' h.steady h.channel hpending (by simpa using hlive) (by simp)
  | gap lastSeq n u rest _ hstate hchannel hnot hs' =>
      obtain ⟨_, hrest⟩ := h.received hchannel
      exact h.next hs' (.resyncing _) hrest (by simp [bufferedIn]) (notLive (by simp)) (by simp [FollowedState])
  | applied lastSeq n u rest _ published hstate hchannel hfollows hpublished hs' =>
      obtain ⟨hu, hrest⟩ := h.received hchannel
      have hquiet : appliedUpdates published = [] := by
        apply List.filterMap_eq_nil_iff.mpr
        intro e he
        rw [hpublished e he]
        rfl
      have happlied : appliedUpdates (out ++ .received u :: .applied s.builder.state u :: published)
          = appliedUpdates out ++ [u] := by
        have hsplit : Effect.received u :: .applied s.builder.state u :: published
            = [.received u, .applied s.builder.state u] ++ published := rfl
        rw [hsplit, appliedUpdates_append, appliedUpdates_append, hquiet]
        rfl
      refine h.next hs' (.live _ _) hrest (by simp [bufferedIn]) ?_ ?_
      · intro last n' hlast
        obtain ⟨rfl, _⟩ := OrderBookState.live.inj hlast
        refine ⟨(lastUpdateId_applyUpdate _ _).symm, ?_⟩
        rw [happlied]
        obtain ⟨_, before, snap, deltas, hsplit, hplus⟩ := hlive lastSeq n hstate
        cases hsnap : u.isSnapshot with
        | true => exact ⟨appliedUpdates out, u, [], rfl, snapshotPlus_snapshot hu hsnap _⟩
        | false => exact ⟨before, snap, deltas ++ [u], by simp [hsplit], hplus.delta hu hsnap⟩
      · intro e he
        rcases List.mem_cons.mp he with rfl | he
        · trivial
        · rcases List.mem_cons.mp he with rfl | he
          · intro hdelta
            refine ⟨lastSeq, n, hstate, ?_⟩
            rcases hfollows with hsnap | hid | ⟨_, hfirst⟩
            · rw [hsnap] at hdelta
              cases hdelta
            · exact Or.inr hid
            · exact Or.inl hfirst
          · rw [hpublished e he]
            trivial
  | backoff reason _ hstate hs' =>
      exact h.next hs' (.buffering []) h.channel (by simp [bufferedIn]) (notLive (by simp))
        (by simp [FollowedState])

theorem liveInvariant_start (grid : ℚ) (symbol : String) (exchange : Exchange) :
    LiveInvariant grid (.start symbol exchange) [] where
  steady   := .buffering []
  channel  := by simp [Loop.start]
  pending  := by simp [Loop.start, bufferedIn]
  live     := notLive (by simp [Loop.start])
  followed := by simp

/-- Every update that is sent is one the builder is made for. -/
def SendsWellFormed (grid : ℚ) (es : List Event) : Prop := ∀ u, Event.send u ∈ es → WellFormed grid u

/-- **One event keeps the invariant.** -/
theorem LiveInvariant.step {grid : ℚ} {s : Loop} {out : List Effect} {e : Event} (h : LiveInvariant grid s out)
    (he : ∀ u, e = .send u → WellFormed grid u) : LiveInvariant grid (loopStep s e).1 (out ++ (loopStep s e).2) := by
  rcases loopStep_cases h.steady e with ⟨expired, _, _, hturn⟩ | ⟨hbuilder, _, hout, hchannel⟩
  · exact h.turn hturn
  · rw [hout, List.append_nil]
    refine ⟨hbuilder ▸ h.steady, ?_, hbuilder ▸ h.pending, hbuilder ▸ h.live, h.followed⟩
    intro u hu
    rcases hchannel u hu with hold | hnew
    · exact h.channel u hold
    · exact he u hnew

/-- **The invariant of a run.** -/
theorem liveInvariant_run {grid : ℚ} {es : List Event} (h : SendsWellFormed grid es) (symbol : String)
    (exchange : Exchange) : LiveInvariant grid (after symbol exchange es) (effects symbol exchange es) := by
  have hguard : Machine.Guarded loopStep (fun _ e => ∀ u, e = .send u → WellFormed grid u)
      (.start symbol exchange) es := by
    apply Machine.guarded_of_forall
    rintro e he u rfl
    exact h u he
  have hrun := hguard.trace_invariant (fun s out e hinv he => LiveInvariant.step hinv he)
    (liveInvariant_start grid symbol exchange)
  exact hrun

/-- **A live book is the last snapshot with the later updates merged in**, and each of these followed the one
    before it. -/
theorem live_book_is_snapshot_plus {grid : ℚ} {es : List Event} (h : SendsWellFormed grid es) {symbol : String}
    {exchange : Exchange} {lastSeq updatesSinceSync : Nat}
    (hlive : (after symbol exchange es).builder.state = .live lastSeq updatesSinceSync) :
    lastSeq = (after symbol exchange es).builder.orderbook.lastUpdateId ∧
    (∃ before snap deltas, appliedUpdates (effects symbol exchange es) = before ++ snap :: deltas ∧
      SnapshotPlus grid (after symbol exchange es).builder.orderbook snap deltas) ∧
    (∀ current u, Effect.applied current u ∈ effects symbol exchange es → u.isSnapshot = false →
      ∃ lastSeq n, current = .live lastSeq n ∧ (u.firstUpdateId = lastSeq + 1 ∨ u.updateId = lastSeq + 1)) := by
  have hinv := liveInvariant_run h symbol exchange
  obtain ⟨hlast, hbook⟩ := hinv.live lastSeq updatesSinceSync hlive
  exact ⟨hlast, hbook, fun current u hu => hinv.followed _ hu⟩

/-- A one-level update of each side. -/
def levelUpdate (isSnapshot : Bool) (updateId : Nat) (bid ask : PriceLevel) : OrderBookUpdate where
  exchange      := .binance
  symbol        := "BTCUSDT"
  timestamp     := 0
  bids          := [bid]
  asks          := [ask]
  isSnapshot    := isSnapshot
  updateId      := updateId
  firstUpdateId := updateId
  prevUpdateId  := none

theorem wellFormed_levelUpdate (isSnapshot : Bool) {updateId : Nat} {bid ask : PriceLevel}
    (hid : updateId < 2 ^ 64 - 1) (hbid : bid.price.den = 1) (hask : ask.price.den = 1)
    (hbidq : 0 ≤ bid.quantity) (haskq : 0 ≤ ask.quantity) :
    WellFormed 1 (levelUpdate isSnapshot updateId bid ask) where
  coarse := by unfold epsilon; norm_num
  onGrid := forall_mem_side_of_single rfl rfl (onGrid_one hbid) (onGrid_one hask)
  nonneg := forall_mem_side_of_single rfl rfl hbidq haskq
  sorted := by
    intro _ side
    cases side <;> exact List.pairwise_singleton _ _
  ids    := ⟨Nat.le_refl _, hid⟩

/-- A snapshot, and an update that deletes its bid. -/
def snapshotThenDelta : List Event :=
  [.send (levelUpdate true 10 ⟨100, 1⟩ ⟨101, 1⟩), .iterate false, .iterate false,
    .send (levelUpdate false 11 ⟨100, 0⟩ ⟨101, 2⟩), .iterate false]

theorem snapshotThenDelta_live :
    (after "BTCUSDT" .binance snapshotThenDelta).builder.state = .live 11 2 ∧
    11 = (after "BTCUSDT" .binance snapshotThenDelta).builder.orderbook.lastUpdateId := by
  have hstate : (after "BTCUSDT" .binance snapshotThenDelta).builder.state = .live 11 2 := by decide +kernel
  have hsends : SendsWellFormed 1 snapshotThenDelta := by
    intro u hu
    simp only [snapshotThenDelta, List.mem_cons, Event.send.injEq, reduceCtorEq, List.not_mem_nil, false_or,
      or_false] at hu
    rcases hu with rfl | rfl
    · apply wellFormed_levelUpdate <;> norm_num
    · apply wellFormed_levelUpdate <;> norm_num
  exact ⟨hstate, (live_book_is_snapshot_plus hsends hstate).1⟩

end Builder
end TradingPlatform
