import TradingPlatform.Feed.System

/-!
# `Feed.Delivered` — an in-order stream that synchronises is delivered whole

The events arrive in order, each following the one before; the snapshot arrives at some moment. If the
synchroniser is synchronised at the end, then everything past the snapshot has been delivered, once and in
order: an event can only be lost while unsynchronised, and once one past the snapshot is lost no later event
overlaps the snapshot any more.
-/

namespace TradingPlatform
namespace Feed

open Json Stamped BinanceOrderbookSynchronizer BufferedDepthEvent

/-- The event comes after the one with this final id and does not contradict it: its `pu`, when present,
    names it, and the ranges do not overlap. -/
def Continues (prev : Nat) (e : BufferedDepthEvent) : Prop :=
  e.Follows prev ∧ prev < e.firstUpdateId ∧ e.firstUpdateId ≤ e.finalUpdateId

instance (prev : Nat) (e : BufferedDepthEvent) : Decidable (Continues prev e) :=
  inferInstanceAs (Decidable (_ ∧ _))

/-- A stream in order, with or without `pu`. -/
def InOrder : List BufferedDepthEvent → Prop
  | []      => True
  | e :: es => e.firstUpdateId ≤ e.finalUpdateId ∧ Linked Continues finalUpdateId e.finalUpdateId es

instance : (es : List BufferedDepthEvent) → Decidable (InOrder es)
  | []     => isTrue trivial
  | _ :: _ => inferInstanceAs (Decidable (_ ∧ _))

/-- Whatever comes later starts after everything earlier. -/
theorem InOrder.pairwise {es : List BufferedDepthEvent} (h : InOrder es) :
    es.Pairwise (fun a b => a.finalUpdateId < b.firstUpdateId) ∧ ∀ e ∈ es, e.firstUpdateId ≤ e.finalUpdateId := by
  have key : ∀ {prev} {es : List BufferedDepthEvent}, Linked Continues finalUpdateId prev es →
      (∀ e ∈ es, prev < e.firstUpdateId) ∧
      es.Pairwise (fun a b => a.finalUpdateId < b.firstUpdateId) ∧ ∀ e ∈ es, e.firstUpdateId ≤ e.finalUpdateId := by
    intro prev es h
    induction es generalizing prev with
    | nil => exact ⟨by simp, List.Pairwise.nil, by simp⟩
    | cons e es ih =>
        obtain ⟨⟨_, hlt, hle⟩, hlink⟩ := h
        obtain ⟨hfirst, hpair, hwf⟩ := ih hlink
        refine ⟨?_, List.pairwise_cons.mpr ⟨hfirst, hpair⟩, ?_⟩
        · intro f hf
          rcases List.mem_cons.mp hf with rfl | hf
          · exact hlt
          · exact Nat.lt_trans hlt (Nat.lt_of_le_of_lt hle (hfirst f hf))
        · intro f hf
          rcases List.mem_cons.mp hf with rfl | hf
          · exact hle
          · exact hwf f hf
  cases es with
  | nil => exact ⟨List.Pairwise.nil, by simp⟩
  | cons e es =>
      obtain ⟨hfirst, hpair, hwf⟩ := key h.2
      refine ⟨List.pairwise_cons.mpr ⟨hfirst, hpair⟩, ?_⟩
      intro f hf
      rcases List.mem_cons.mp hf with rfl | hf
      · exact h.1
      · exact hwf f hf

theorem InOrder.of_append {es fs : List BufferedDepthEvent} (h : InOrder (es ++ fs)) : InOrder es := by
  cases es with
  | nil => trivial
  | cons e es => exact ⟨h.1, (linked_append.mp h.2).1⟩

/-- The event after a nonempty stream continues its last event. -/
theorem InOrder.continues {es : List BufferedDepthEvent} {last e : BufferedDepthEvent}
    (h : InOrder (es ++ [e])) (hlast : es.getLast? = some last) : Continues last.finalUpdateId e := by
  cases es with
  | nil => cases hlast
  | cons f fs =>
      have hlink := (linked_append.mp h.2).2.1
      cases hfs : fs.getLast? with
      | none =>
          obtain rfl := List.getLast?_eq_none_iff.mp hfs
          obtain rfl := Option.some.inj hlast
          exact hlink
      | some l =>
          rw [lastStamp_of_getLast? hfs] at hlink
          rw [List.getLast?_cons, hfs] at hlast
          obtain rfl := Option.some.inj hlast
          exact hlink

/-- The stream up to now and what has become of it: unsynchronised, the buffer holds its latest events and
    nothing was delivered; synchronised, everything past the snapshot was delivered. -/
inductive Progress (snap : BinanceSnapshot) (seen : List BufferedDepthEvent)
    (s : BinanceOrderbookSynchronizer) (out : List Value) : Prop where
  | buffering (unsynced : s.isSynchronized = false) (suffix : s.eventBuffer <:+ seen) (nothing : out = [])
  | delivering (synced : s.isSynchronized = true)
      (last : seen.getLast?.map finalUpdateId = some s.lastValidatedUpdateId)
      (past : snap.lastUpdateId < s.lastValidatedUpdateId)
      (all : out = (retained snap.lastUpdateId seen).map BufferedDepthEvent.data)

theorem suffix_makeRoom {buffer seen : List BufferedDepthEvent} (h : buffer <:+ seen) :
    makeRoom buffer <:+ seen := by
  unfold makeRoom
  split
  · exact (List.tail_suffix buffer).trans h
  · exact h

/-- An accepted suffix of an in-order stream retains all that the whole stream retains. -/
theorem retained_of_accepts {last : Nat} {es seen : List BufferedDepthEvent} (hsuf : es <:+ seen)
    (hord : InOrder seen) (hacc : Accepts last (retained last es)) : retained last es = retained last seen := by
  obtain ⟨pre, rfl⟩ := hsuf
  cases hret : retained last es with
  | nil => rw [hret] at hacc; exact absurd hacc id
  | cons f fs =>
      rw [hret] at hacc
      obtain ⟨⟨hfirst, _⟩, _⟩ := hacc
      have hf : f ∈ es := List.mem_of_mem_filter (hret ▸ List.mem_cons_self .. : f ∈ retained last es)
      have hpre : retained last pre = [] := by
        apply List.filter_eq_nil_iff.mpr
        intro e he hpast
        have hlt : e.finalUpdateId < f.firstUpdateId :=
          (List.pairwise_append.mp hord.pairwise.1).2.2 e he f hf
        have hpast : last < e.finalUpdateId := of_decide_eq_true hpast
        omega
      rw [← hret]
      unfold retained at hpre ⊢
      rw [List.filter_append, hpre, List.nil_append]

/-- A stream in order that retains anything retains its last event. -/
theorem retained_getLast? {last : Nat} {es : List BufferedDepthEvent} {e : BufferedDepthEvent}
    (hord : InOrder (es ++ [e])) (hne : retained last (es ++ [e]) ≠ []) :
    last < e.finalUpdateId ∧ finalId last (retained last (es ++ [e])) = e.finalUpdateId := by
  have hpast : last < e.finalUpdateId := by
    obtain ⟨f, hf⟩ := List.exists_mem_of_ne_nil _ hne
    obtain ⟨hmem, hlt⟩ := List.mem_filter.mp hf
    have hlt : last < f.finalUpdateId := of_decide_eq_true hlt
    rcases List.mem_append.mp hmem with hmem | hmem
    · have hord' := hord.pairwise
      have h1 := (List.pairwise_append.mp hord'.1).2.2 f hmem e (List.mem_singleton_self e)
      have h2 := hord'.2 e (by simp)
      omega
    · exact List.mem_singleton.mp hmem ▸ hlt
  refine ⟨hpast, ?_⟩
  unfold retained
  rw [List.filter_append, List.filter_singleton, decide_eq_true hpast]
  exact lastStamp_snoc

theorem Progress.message {snap : BinanceSnapshot} {seen : List BufferedDepthEvent}
    {s : BinanceOrderbookSynchronizer} {out : List Value} {data : Value} (h : Progress snap seen s out)
    (hsnap : ∀ snap', s.snapshot = some snap' → snap' = snap) (hord : InOrder (seen ++ [depthEvent data])) :
    Progress snap (seen ++ [depthEvent data]) (handleDepth s data).1 (out ++ (handleDepth s data).2) := by
  cases h with
  | buffering hun hsuf hout =>
      subst hout
      have hsuf' : makeRoom s.eventBuffer ++ [depthEvent data] <:+ seen ++ [depthEvent data] := by
        obtain ⟨pre, hpre⟩ := suffix_makeRoom hsuf
        exact ⟨pre, by rw [← List.append_assoc, hpre]⟩
      rcases handleDepth_of_unsynced hun data with ⟨_, hr⟩ | ⟨snap', hsome, ⟨hacc, hr⟩ | ⟨_, hr⟩⟩
      · rw [hr]
        exact .buffering hun hsuf' rfl
      · obtain rfl := hsnap snap' hsome
        -- the buffer may have lost older events, but none that the snapshot retains
        have hret : pending s snap'.lastUpdateId (depthEvent data)
            = retained snap'.lastUpdateId (seen ++ [depthEvent data]) :=
          retained_of_accepts hsuf' hord hacc
        rw [hr]
        rw [hret] at hacc ⊢
        have hne : retained snap'.lastUpdateId (seen ++ [depthEvent data]) ≠ [] := by
          intro hnil
          rw [hnil] at hacc
          exact hacc
        obtain ⟨hpast, hfinal⟩ := retained_getLast? hord hne
        refine .delivering rfl ?_ ?_ rfl
        · rw [List.getLast?_concat]
          exact congrArg some hfinal.symm
        · exact Nat.lt_of_lt_of_eq hpast hfinal.symm
      · rw [hr]
        exact .buffering hun List.nil_suffix rfl
  | delivering hsync hlast hpast hall =>
      obtain ⟨l, hl, hlid⟩ := Option.map_eq_some_iff.mp hlast
      obtain ⟨hfol, hlt, hle⟩ := hord.continues hl
      rw [hlid] at hfol hlt
      rcases handleDepth_of_synced hsync data with ⟨_, hr⟩ | ⟨hgap, _⟩
      · have hnext : snap.lastUpdateId < (depthEvent data).finalUpdateId := by omega
        rw [hr]
        refine .delivering hsync ?_ hnext ?_
        · rw [List.getLast?_concat]
          rfl
        · unfold retained at hall ⊢
          rw [List.filter_append, List.filter_singleton, decide_eq_true hnext, hall, List.map_append]
          rfl
      · -- the event continues the last one received, which is the last one validated
        exact absurd hfol hgap

theorem snapshot_handleDepth (s : BinanceOrderbookSynchronizer) (data : Value) :
    (handleDepth s data).1.snapshot = s.snapshot := by
  have hstep := depthStep s data
  generalize handleDepth s data = r at hstep
  cases hstep <;> rfl

/-- The only snapshot ever stored is this one. -/
def OnlyFetches (snap : BinanceSnapshot) (is : List SyncInput) : Prop :=
  ∀ snap', .fetched snap' ∈ is → snap' = snap

theorem progress_run (symbol assetType : String) {snap : BinanceSnapshot} {is : List SyncInput}
    (hfetch : OnlyFetches snap is) (hord : InOrder (received is)) :
    Progress snap (received is) (Machine.run syncStep (new symbol assetType) is).1
        (Machine.run syncStep (new symbol assetType) is).2 ∧
      ∀ snap', (Machine.run syncStep (new symbol assetType) is).1.snapshot = some snap' → snap' = snap := by
  induction is using List.reverseRecOn with
  | nil => exact ⟨.buffering rfl List.nil_suffix rfl, by intro snap' h; cases h⟩
  | append_singleton is i ih =>
      rw [received_append] at hord
      obtain ⟨hprog, hsnap⟩ := ih (fun snap' h => hfetch snap' (List.mem_append_left _ h)) hord.of_append
      rw [received_append, Machine.run_append_state, Machine.run_append_outputs]
      cases i with
      | fetched snapshot =>
          have hsame : snapshot = snap := hfetch snapshot (by simp)
          rw [received_fetched, List.append_nil]
          refine ⟨?_, fun snap' h => (Option.some.inj h).symm.trans hsame⟩
          cases hprog with
          | buffering hun hsuf hout => exact .buffering hun hsuf (by rw [hout]; rfl)
          | delivering hsync hlast hpast hall =>
              exact .delivering hsync hlast hpast ((List.append_nil _).trans hall)
      | message data =>
          have hnext := hprog.message hsnap hord
          simp only [Machine.run_cons, Machine.run_nil, List.append_nil]
          refine ⟨hnext, fun snap' h => ?_⟩
          rw [syncStep, snapshot_handleDepth] at h
          exact hsnap snap' h

/-- **An in-order stream is delivered whole.** If the run ends synchronised, what it delivered is exactly the
    messages past the snapshot, in order. -/
theorem delivered_of_inOrder (symbol assetType : String) {snap : BinanceSnapshot} {is : List SyncInput}
    (hfetch : OnlyFetches snap is) (hord : InOrder (received is))
    (hsync : (Machine.run syncStep (new symbol assetType) is).1.isSynchronized = true) :
    (Machine.run syncStep (new symbol assetType) is).2
      = (retained snap.lastUpdateId (received is)).map BufferedDepthEvent.data := by
  cases (progress_run symbol assetType hfetch hord).1 with
  | buffering hun => exact absurd (hun.symm.trans hsync) Bool.false_ne_true
  | delivering _ _ _ hall => exact hall

end Feed
end TradingPlatform
