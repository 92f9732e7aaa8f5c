import TradingPlatform.Feed.System

/-!
# `Feed.Recovery` — which unsynchronised states can be left again

The handler never fetches a second snapshot, so a synchroniser that has lost its chain can only join the
events still to come to the snapshot it already has. `recoverable_iff` says from which states that is
possible at all: the events kept in the buffer already join the snapshot, or nothing as late as the snapshot
has been received yet.
-/

namespace TradingPlatform
namespace Feed

open Json Stamped BinanceOrderbookSynchronizer BufferedDepthEvent

/-! ## One attempt -/

/-- An unsynchronised state is left exactly when the pending events are accepted. -/
theorem isSynchronized_handleDepth_iff {s : BinanceOrderbookSynchronizer} {data : Value}
    (hs : s.isSynchronized = false) :
    (handleDepth s data).1.isSynchronized = true ↔
      ∃ snap, s.snapshot = some snap ∧
        Accepts snap.lastUpdateId (pending s snap.lastUpdateId (depthEvent data)) := by
  have hstays : ¬ s.isSynchronized = true := fun h => Bool.false_ne_true (hs.symm.trans h)
  rcases handleDepth_of_unsynced hs data with ⟨hsnap, hr⟩ | ⟨snap, hsnap, ⟨hacc, hr⟩ | ⟨hrej, hr⟩⟩
  · rw [hr]
    refine iff_of_false hstays ?_
    rintro ⟨snap, hsome, _⟩
    rw [hsnap] at hsome
    cases hsome
  · rw [hr]
    exact iff_of_true rfl ⟨snap, hsnap, hacc⟩
  · rw [hr]
    refine iff_of_false hstays ?_
    rintro ⟨snap', hsome, hacc⟩
    obtain rfl := Option.some.inj (hsnap.symm.trans hsome)
    exact hrej hacc

/-- The pending events are the ones kept in the buffer and, when it is past the snapshot, the new one. -/
theorem pending_eq (s : BinanceOrderbookSynchronizer) (last : Nat) (e : BufferedDepthEvent) :
    pending s last e
      = retained last (makeRoom s.eventBuffer) ++ if last < e.finalUpdateId then [e] else [] := by
  unfold pending retained
  rw [List.filter_append, List.filter_singleton]
  by_cases h : last < e.finalUpdateId
  · rw [if_pos h, decide_eq_true h]
    rfl
  · rw [if_neg h, decide_eq_false h]
    rfl

/-- A batch is accepted with more events after it when it is accepted itself and they follow it. -/
theorem accepts_append {last : Nat} {es fs : List BufferedDepthEvent} (hne : es ≠ []) :
    Accepts last (es ++ fs) ↔ Accepts last es ∧ PuLinked (finalId last es) fs := by
  cases es with
  | nil => exact absurd rfl hne
  | cons e es =>
      show (_ ∧ Linked _ _ _ ((e :: es) ++ fs)) ↔ _
      rw [linked_append, ← and_assoc]
      exact Iff.rfl

/-! ## Recovery -/

/-- A continuation of exchange events: each has `U ≤ u`, and `U` past every `u` received so far. -/
def Fresh (seen : List BufferedDepthEvent) : List Value → Prop
  | []            => True
  | data :: datas =>
    (depthEvent data).firstUpdateId ≤ (depthEvent data).finalUpdateId ∧
    (∀ e ∈ seen, e.finalUpdateId < (depthEvent data).firstUpdateId) ∧
    Fresh (seen ++ [depthEvent data]) datas

/-- Some continuation synchronises. -/
def Recoverable (s : BinanceOrderbookSynchronizer) (seen : List BufferedDepthEvent) : Prop :=
  ∃ datas, Fresh seen datas ∧ (Machine.run syncStep s (datas.map .message)).1.isSynchronized = true

/-- The snapshot can still be joined: by the events kept in the buffer, or by one that has yet to come. In
    both cases there has to be an id left for that event. -/
def CanStillJoin (s : BinanceOrderbookSynchronizer) (seen : List BufferedDepthEvent) : Prop :=
  ∃ snap, s.snapshot = some snap ∧
    ((retained snap.lastUpdateId (makeRoom s.eventBuffer) = [] ∧ snap.lastUpdateId + 1 < 2 ^ 64 ∧
        ∀ e ∈ seen, e.finalUpdateId < snap.lastUpdateId) ∨
      (Accepts snap.lastUpdateId (retained snap.lastUpdateId (makeRoom s.eventBuffer)) ∧
        ∀ e ∈ seen, e.finalUpdateId + 1 < 2 ^ 64))

/-- An attempt that succeeds with the event at hand. -/
theorem canStillJoin_of_accepts {s : BinanceOrderbookSynchronizer} {seen : List BufferedDepthEvent}
    {data : Value} {snap : BinanceSnapshot} (hsnap : s.snapshot = some snap)
    (hafter : ∀ e ∈ seen, e.finalUpdateId < (depthEvent data).firstUpdateId)
    (hacc : Accepts snap.lastUpdateId (pending s snap.lastUpdateId (depthEvent data))) :
    CanStillJoin s seen := by
  refine ⟨snap, hsnap, ?_⟩
  rw [pending_eq] at hacc
  by_cases hkept : retained snap.lastUpdateId (makeRoom s.eventBuffer) = []
  · rw [hkept, List.nil_append] at hacc
    split at hacc
    next hpast =>
      obtain ⟨⟨hfirst, _⟩, _⟩ := hacc
      refine Or.inl ⟨hkept, Nat.lt_of_le_of_lt hpast (finalUpdateId_lt data), ?_⟩
      intro e he
      exact Nat.lt_of_lt_of_le (hafter e he) hfirst
    next => exact absurd hacc id
  · refine Or.inr ⟨((accepts_append hkept).mp hacc).1, ?_⟩
    intro e he
    exact Nat.lt_of_le_of_lt (hafter e he) (firstUpdateId_lt data)

/-- A failed attempt loses the buffer, so afterwards only the second way is left. -/
theorem canStillJoin_of_cleared {s : BinanceOrderbookSynchronizer} {seen : List BufferedDepthEvent}
    {e : BufferedDepthEvent} (hsub : ∀ f ∈ s.eventBuffer, f ∈ seen)
    (h : CanStillJoin s.cleared (seen ++ [e])) : CanStillJoin s seen := by
  obtain ⟨snap, hsnap, ⟨_, hroom, hseen⟩ | ⟨hacc, _⟩⟩ := h
  · have hseen' : ∀ f ∈ seen, f.finalUpdateId < snap.lastUpdateId := fun f hf =>
      hseen f (List.mem_append_left _ hf)
    refine ⟨snap, hsnap, Or.inl ⟨?_, hroom, hseen'⟩⟩
    -- what is in the buffer was received, hence is older than the snapshot
    apply List.filter_eq_nil_iff.mpr
    intro f hf hpast
    have hlt := hseen' f (hsub f (mem_of_mem_makeRoom hf))
    exact Nat.lt_asymm hlt (of_decide_eq_true hpast)
  · exact absurd hacc id

/-- Whatever continuation synchronises, the state could still join its snapshot. The induction is on the
    continuation; the events received so far grow with it. -/
theorem canStillJoin_of_run {s : BinanceOrderbookSynchronizer} {seen : List BufferedDepthEvent}
    {datas : List Value} (hsub : ∀ f ∈ s.eventBuffer, f ∈ seen) (hs : s.isSynchronized = false)
    (hfresh : Fresh seen datas)
    (hrun : (Machine.run syncStep s (datas.map .message)).1.isSynchronized = true) :
    CanStillJoin s seen := by
  induction datas generalizing s seen with
  | nil => exact absurd (hs.symm.trans hrun) Bool.false_ne_true
  | cons data datas ih =>
      obtain ⟨_, hafter, hrest⟩ := hfresh
      have hsub' : ∀ f ∈ (handleDepth s data).1.eventBuffer, f ∈ seen ++ [depthEvent data] := by
        intro f hf
        rcases mem_eventBuffer_syncStep (i := .message data) hf with hf | hf
        · exact List.mem_append_left _ (hsub f hf)
        · exact List.mem_append_right _ hf
      change (Machine.run syncStep (handleDepth s data).1 (datas.map .message)).1.isSynchronized = true at hrun
      rcases handleDepth_of_unsynced hs data with ⟨hsnap, hr⟩ | ⟨snap, hsnap, ⟨hacc, _⟩ | ⟨_, hr⟩⟩
      · -- without a snapshot there is nothing to join, now or later
        rw [hr] at hsub' hrun
        obtain ⟨snap, hsome, _⟩ := ih hsub' hs hrest hrun
        exact absurd (hsnap.symm.trans hsome) (by intro h; cases h)
      · exact canStillJoin_of_accepts hsnap hafter hacc
      · rw [hr] at hsub' hrun
        exact canStillJoin_of_cleared hsub (ih hsub' hs hrest hrun)

/-- One message that joins is a continuation. -/
theorem recoverable_of_message {s : BinanceOrderbookSynchronizer} {seen : List BufferedDepthEvent}
    {U u : Nat} {snap : BinanceSnapshot} (hs : s.isSynchronized = false) (hsnap : s.snapshot = some snap)
    (hU : U ≤ u) (hu : u < 2 ^ 64) (hafter : ∀ e ∈ seen, e.finalUpdateId < U)
    (hacc : Accepts snap.lastUpdateId
      (pending s snap.lastUpdateId ⟨U, u, none, depthMessage s.symbol U u none⟩)) :
    Recoverable s seen := by
  have hevent : depthEvent (depthMessage s.symbol U u none) = ⟨U, u, none, depthMessage s.symbol U u none⟩ :=
    depthEvent_depthMessage (Nat.lt_of_le_of_lt hU hu) hu (by intro p hp; cases hp)
  refine ⟨[depthMessage s.symbol U u none], ?_, ?_⟩
  · unfold Fresh
    rw [hevent]
    exact ⟨hU, hafter, trivial⟩
  · show (handleDepth s (depthMessage s.symbol U u none)).1.isSynchronized = true
    rw [isSynchronized_handleDepth_iff hs, hevent]
    exact ⟨snap, hsnap, hacc⟩

/-- A bound below `n` on finitely many ids can be taken to be one of them or zero. -/
theorem exists_bound {n : Nat} (seen : List BufferedDepthEvent)
    (h : ∀ e ∈ seen, e.finalUpdateId + 1 < n) (hn : 1 < n) :
    ∃ m, m + 1 < n ∧ ∀ e ∈ seen, e.finalUpdateId ≤ m := by
  induction seen with
  | nil => exact ⟨0, hn, by intro e he; cases he⟩
  | cons e seen ih =>
      obtain ⟨m, hm, hle⟩ := ih fun f hf => h f (List.mem_cons_of_mem _ hf)
      have he := h e (List.mem_cons_self ..)
      refine ⟨max e.finalUpdateId m, by omega, ?_⟩
      intro f hf
      rcases List.mem_cons.mp hf with rfl | hf
      · exact Nat.le_max_left ..
      · exact Nat.le_trans (hle f hf) (Nat.le_max_right ..)

theorem recoverable_of_canStillJoin {s : BinanceOrderbookSynchronizer} {seen : List BufferedDepthEvent}
    (hs : s.isSynchronized = false) (h : CanStillJoin s seen) : Recoverable s seen := by
  obtain ⟨snap, hsnap, ⟨hkept, hroom, hseen⟩ | ⟨hacc, hroom⟩⟩ := h
  · -- an event from the snapshot's id to the next joins by itself
    apply recoverable_of_message (U := snap.lastUpdateId) (u := snap.lastUpdateId + 1) hs hsnap
      (Nat.le_succ _) hroom hseen
    rw [pending_eq, hkept, if_pos (Nat.lt_succ_self _)]
    exact ⟨⟨Nat.le_refl _, Nat.le_succ _⟩, Or.inl rfl, trivial⟩
  · -- the kept events join; any later event lets the attempt happen
    obtain ⟨m, hm, hle⟩ := exists_bound seen hroom (by decide)
    apply recoverable_of_message (U := m + 1) (u := m + 1) hs hsnap (Nat.le_refl _) hm
      fun e he => Nat.lt_succ_of_le (hle e he)
    have hne : retained snap.lastUpdateId (makeRoom s.eventBuffer) ≠ [] := by
      intro hnil
      rw [hnil] at hacc
      exact hacc
    rw [pending_eq, accepts_append hne]
    refine ⟨hacc, ?_⟩
    split
    · exact ⟨Or.inl rfl, trivial⟩
    · trivial

/-- **When an unsynchronised state is not dead.** From a reachable unsynchronised state, with what has been
    received so far, some continuation of exchange events synchronises exactly when the snapshot at hand can
    still be joined. -/
theorem recoverable_iff (symbol assetType : String) (is : List SyncInput)
    (hs : (Machine.run syncStep (new symbol assetType) is).1.isSynchronized = false) :
    Recoverable (Machine.run syncStep (new symbol assetType) is).1 (received is) ↔
      CanStillJoin (Machine.run syncStep (new symbol assetType) is).1 (received is) := by
  constructor
  · rintro ⟨datas, hfresh, hrun⟩
    exact canStillJoin_of_run (eventBuffer_subset_received symbol assetType is) hs hfresh hrun
  · exact recoverable_of_canStillJoin hs

/-- A snapshot at 100 and a stale event after it. -/
def staleRun : List SyncInput :=
  [.fetched ⟨"BTCUSDT", 100, [], []⟩, .message (depthMessage "BTCUSDT" 50 60 (some 49))]

theorem staleRun_recoverable :
    Recoverable (Machine.run syncStep (new "BTCUSDT" "futures") staleRun).1 (received staleRun) :=
  (recoverable_iff "BTCUSDT" "futures" staleRun (by decide +kernel)).mpr
    ⟨⟨"BTCUSDT", 100, [], []⟩, by decide +kernel, Or.inl ⟨rfl, by decide, by decide +kernel⟩⟩

/-- A synchronisation at 100, then an event whose predecessor was lost. -/
def gapRun : List SyncInput :=
  [.fetched ⟨"BTCUSDT", 100, [], []⟩, .message (depthMessage "BTCUSDT" 95 105 (some 100)),
    .message (depthMessage "BTCUSDT" 120 130 (some 119))]

/-- The gap drops the flag, and no continuation brings it back. -/
theorem gapRun_dead :
    (Machine.run syncStep (new "BTCUSDT" "futures") (gapRun.take 2)).1.isSynchronized = true ∧
    (Machine.run syncStep (new "BTCUSDT" "futures") gapRun).1.isSynchronized = false ∧
    ¬ Recoverable (Machine.run syncStep (new "BTCUSDT" "futures") gapRun).1 (received gapRun) := by
  refine ⟨by decide +kernel, by decide +kernel, ?_⟩
  rintro ⟨datas, hfresh, hrun⟩
  have hsnap : (Machine.run syncStep (new "BTCUSDT" "futures") gapRun).1.snapshot
      = some ⟨"BTCUSDT", 100, [], []⟩ := by decide +kernel
  obtain ⟨snap, hsome, h⟩ := canStillJoin_of_run (eventBuffer_subset_received "BTCUSDT" "futures" gapRun)
    (by decide +kernel) hfresh hrun
  obtain rfl := Option.some.inj (hsnap.symm.trans hsome)
  rcases h with ⟨_, _, hseen⟩ | ⟨hacc, _⟩
  · -- 105 is already past the snapshot
    exact absurd hseen (by decide +kernel)
  · exact absurd hacc (by decide +kernel)

end Feed
end TradingPlatform
