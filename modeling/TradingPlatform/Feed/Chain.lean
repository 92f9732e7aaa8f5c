import TradingPlatform.Feed.System

/-!
# `Feed.Chain` — what is delivered is a chain

Since the last synchronisation the delivered events should cover the ids from the snapshot on without a hole.
A `Ledger` keeps what that statement is about: the snapshot id of the last synchronisation and everything
delivered since. The handler tests `pu` only, and `U` only on the first event. So a `pu` stands for the ids
before it only if the range of the event begins right behind it, and an event without one is good only if the
stream has lost nothing before it and repeats nothing. On streams of which this is true (`Unbroken`) what is
delivered has no hole, whatever is lost, repeated or reordered among the events with a `pu`.
-/

namespace TradingPlatform
namespace Feed

open Json Stamped BinanceOrderbookSynchronizer BufferedDepthEvent

/-- The event covers the id after `prev`. -/
def Covers (prev : Nat) (e : BufferedDepthEvent) : Prop :=
  e.firstUpdateId ≤ prev + 1 ∧ prev + 1 ≤ e.finalUpdateId

instance (prev : Nat) (e : BufferedDepthEvent) : Decidable (Covers prev e) :=
  inferInstanceAs (Decidable (_ ∧ _))

theorem Covers.le {prev : Nat} {e : BufferedDepthEvent} (h : Covers prev e) : prev ≤ e.finalUpdateId :=
  Nat.le_trans (Nat.le_succ prev) h.2

/-! ## The ledger -/

/-- The snapshot id of the last successful synchronisation and the messages delivered since. -/
structure Ledger where
  start     : Nat
  delivered : List Value

namespace Ledger

/-- The delivered messages cover the ids from the snapshot on. -/
def GapFree (l : Ledger) : Prop := Linked Covers finalUpdateId l.start (l.delivered.map depthEvent)

instance (l : Ledger) : Decidable l.GapFree := inferInstanceAs (Decidable (Linked ..))

/-- The last id the delivered messages reach. -/
def reached (l : Ledger) : Nat := finalId l.start (l.delivered.map depthEvent)

/-- A step from `s` to `s'` that delivered `out`; a synchronisation opens a new page. -/
def record (l : Ledger) (s s' : BinanceOrderbookSynchronizer) (out : List Value) : Ledger :=
  if s.isSynchronized = false ∧ s'.isSynchronized = true then
    { start := (s.snapshot.map BinanceSnapshot.lastUpdateId).getD 0, delivered := out }
  else { l with delivered := l.delivered ++ out }

theorem record_synchronized {l : Ledger} {s s' : BinanceOrderbookSynchronizer} {snap : BinanceSnapshot}
    {out : List Value} (hs : s.isSynchronized = false) (hs' : s'.isSynchronized = true)
    (hsnap : s.snapshot = some snap) : l.record s s' out = ⟨snap.lastUpdateId, out⟩ := by
  unfold record
  rw [if_pos ⟨hs, hs'⟩, hsnap]
  rfl

theorem record_extended {l : Ledger} {s s' : BinanceOrderbookSynchronizer} {out : List Value}
    (h : s'.isSynchronized = true → s.isSynchronized = true) :
    l.record s s' out = { l with delivered := l.delivered ++ out } := by
  unfold record
  rw [if_neg]
  rintro ⟨hs, hs'⟩
  exact Bool.false_ne_true (hs.symm.trans (h hs'))

theorem record_nothing {l : Ledger} {s s' : BinanceOrderbookSynchronizer}
    (h : s'.isSynchronized = true → s.isSynchronized = true) : l.record s s' [] = l := by
  rw [record_extended h, List.append_nil]

end Ledger

/-- The synchroniser with its ledger. -/
def watchedStep (w : BinanceOrderbookSynchronizer × Ledger) (i : SyncInput) :
    (BinanceOrderbookSynchronizer × Ledger) × List Value :=
  (((syncStep w.1 i).1, w.2.record w.1 (syncStep w.1 i).1 (syncStep w.1 i).2), (syncStep w.1 i).2)

/-! ## The stream -/

/-- What the event says of itself and of the stream before it: its range begins right behind its `pu`; without a `pu`
    it leaves no id out behind the last event and ends after all of them. -/
def Extends (seen : List BufferedDepthEvent) (e : BufferedDepthEvent) : Prop :=
  (∀ pu ∈ e.prevUpdateId, Covers pu e) ∧
  (e.prevUpdateId = none → (∀ d ∈ seen.getLast?, e.firstUpdateId ≤ d.finalUpdateId + 1) ∧
    ∀ d ∈ seen, d.finalUpdateId < e.finalUpdateId)

instance (seen : List BufferedDepthEvent) (e : BufferedDepthEvent) : Decidable (Extends seen e) :=
  inferInstanceAs (Decidable (_ ∧ (_ → _)))

/-- Every event extends those before it, the first ones `seen`. -/
def UnbrokenAfter (seen : List BufferedDepthEvent) : List BufferedDepthEvent → Prop
  | []      => True
  | e :: es => Extends seen e ∧ UnbrokenAfter (seen ++ [e]) es

instance UnbrokenAfter.decidable :
    (seen es : List BufferedDepthEvent) → Decidable (UnbrokenAfter seen es)
  | _, []         => isTrue trivial
  | seen, e :: es => @instDecidableAnd (Extends seen e) _ _ (UnbrokenAfter.decidable (seen ++ [e]) es)

abbrev Unbroken (es : List BufferedDepthEvent) : Prop := UnbrokenAfter [] es

theorem unbrokenAfter_append {seen es fs : List BufferedDepthEvent} :
    UnbrokenAfter seen (es ++ fs) ↔ UnbrokenAfter seen es ∧ UnbrokenAfter (seen ++ es) fs := by
  induction es generalizing seen with
  | nil => exact ⟨fun h => ⟨trivial, (List.append_nil seen).symm ▸ h⟩, fun h => List.append_nil seen ▸ h.2⟩
  | cons e es ih =>
      show Extends seen e ∧ UnbrokenAfter (seen ++ [e]) (es ++ fs) ↔ _
      rw [ih, ← and_assoc, List.append_assoc, List.singleton_append]
      rfl

theorem unbroken_snoc {es : List BufferedDepthEvent} {e : BufferedDepthEvent} :
    Unbroken (es ++ [e]) ↔ Unbroken es ∧ Extends es e := by
  rw [Unbroken, unbrokenAfter_append, List.nil_append]
  exact and_congr_right' ⟨And.left, fun h => ⟨h, trivial⟩⟩

/-! ## Honest events -/

/-- Passing the `pu` test means that nothing lies between. -/
def HonestAfter (prev : Nat) (e : BufferedDepthEvent) : Prop := e.Follows prev → Covers prev e

/-- Each event is honest about the one before it; nothing is asked of the first. -/
def HonestBatch : List BufferedDepthEvent → Prop
  | []      => True
  | e :: es => Linked HonestAfter finalUpdateId e.finalUpdateId es

theorem honestBatch_snoc {es : List BufferedDepthEvent} {e : BufferedDepthEvent} (h : HonestBatch es)
    (he : ∀ d ∈ es.getLast?, HonestAfter d.finalUpdateId e) : HonestBatch (es ++ [e]) := by
  cases es with
  | nil => trivial
  | cons d es =>
      show Linked HonestAfter finalUpdateId d.finalUpdateId (es ++ [e])
      refine linked_append.mpr ⟨h, ?_, trivial⟩
      cases hlast : es.getLast? with
      | none =>
          rw [List.getLast?_eq_none_iff.mp hlast] at he ⊢
          exact he d rfl
      | some f =>
          rw [lastStamp_of_getLast? hlast]
          refine he f ?_
          rw [List.getLast?_cons, hlast]
          rfl

/-- An event of an unbroken stream is honest about every event before it that the last one before it does not pass. -/
theorem honestAfter_of_extends {seen : List BufferedDepthEvent} {d e : BufferedDepthEvent} (h : Extends seen e)
    (hd : d ∈ seen) (hlast : ∀ f ∈ seen.getLast?, f.finalUpdateId ≤ d.finalUpdateId) :
    HonestAfter d.finalUpdateId e := by
  rintro (hnone | hpu)
  · obtain ⟨hfirst, hend⟩ := h.2 hnone
    obtain ⟨f, hf⟩ : ∃ f, seen.getLast? = some f := ⟨_, List.getLast?_eq_some_getLast (List.ne_nil_of_mem hd)⟩
    exact ⟨(hfirst f hf).trans (Nat.succ_le_succ (hlast f hf)), hend d hd⟩
  · exact h.1 _ hpu

theorem retained_snoc (last : Nat) (es : List BufferedDepthEvent) (e : BufferedDepthEvent) :
    retained last (es ++ [e]) = if last < e.finalUpdateId then retained last es ++ [e] else retained last es := by
  unfold retained
  rw [List.filter_append]
  split_ifs with he
  · rw [List.filter_cons_of_pos (by simpa using he), List.filter_nil]
  · rw [List.filter_cons_of_neg (by simpa using he), List.filter_nil, List.append_nil]

/-- What comes behind the last event that is kept ends no later. -/
theorem finalUpdateId_le_of_retained {last : Nat} {es : List BufferedDepthEvent} {d f : BufferedDepthEvent}
    (hd : (retained last es).getLast? = some d) (hf : es.getLast? = some f) : f.finalUpdateId ≤ d.finalUpdateId := by
  have hpast : last < d.finalUpdateId := of_decide_eq_true (List.mem_filter.mp (List.mem_of_getLast? hd)).2
  obtain ⟨es, rfl⟩ := List.getLast?_eq_some_iff.mp hf
  by_cases hkept : last < f.finalUpdateId
  · rw [retained_snoc, if_pos hkept, List.getLast?_concat] at hd
    rw [Option.some.inj hd]
  · exact (Nat.le_of_not_lt hkept).trans hpast.le

/-- **Among the events a snapshot keeps** of the end of an unbroken stream each is honest about the one before. -/
theorem honestBatch_retained {seen es : List BufferedDepthEvent} (h : Unbroken (seen ++ es)) (last : Nat) :
    HonestBatch (retained last es) := by
  induction es using List.reverseRecOn with
  | nil => trivial
  | append_singleton es e ih =>
      rw [← List.append_assoc, unbroken_snoc] at h
      obtain ⟨hbefore, hextends⟩ := h
      rw [retained_snoc]
      split_ifs with he
      · refine honestBatch_snoc (ih hbefore) fun d hd => ?_
        -- what comes between `d` and `e` was not kept, and so ends before `d`
        have hmem : d ∈ es := List.mem_of_mem_filter (List.mem_of_getLast? hd)
        refine honestAfter_of_extends hextends (List.mem_append_right _ hmem) fun f hf => ?_
        rw [List.getLast?_append, List.getLast?_eq_some_getLast (List.ne_nil_of_mem hmem)] at hf
        refine finalUpdateId_le_of_retained hd ?_
        rw [List.getLast?_eq_some_getLast (List.ne_nil_of_mem hmem)]
        exact hf
      · exact ih hbefore

/-- An accepted batch of honest events is a chain from the snapshot: the first event by the overlap test, the
    others because they are honest. -/
theorem covers_of_accepts {last : Nat} {es : List BufferedDepthEvent} (hacc : Accepts last es)
    (hpast : ∀ e ∈ es, last < e.finalUpdateId) (hhon : HonestBatch es) :
    Linked Covers finalUpdateId last es := by
  cases es with
  | nil => trivial
  | cons e es =>
      obtain ⟨⟨hfirst, _⟩, _, hlink⟩ := hacc
      have hcover : Covers last e :=
        ⟨Nat.le_succ_of_le hfirst, hpast e (List.mem_cons_self ..)⟩
      have hhon : Linked HonestAfter finalUpdateId e.finalUpdateId es := hhon
      refine ⟨hcover, (hhon.and hlink).imp ?_⟩
      intro prev f _ hf
      exact hf.1 hf.2

/-! ## The invariant -/

/-- What holds of a watched synchroniser that has received the events `seen` of an unbroken stream. -/
structure Sound (w : BinanceOrderbookSynchronizer × Ledger) (seen : List BufferedDepthEvent) : Prop where
  gapFree  : w.2.GapFree
  reached  : w.1.isSynchronized = true → w.1.lastValidatedUpdateId = w.2.reached
  buffered : Genuine w.1
  suffix   : w.1.eventBuffer <:+ seen
  empty    : w.1.isSynchronized = true → w.1.eventBuffer = []
  last     : w.1.isSynchronized = true → (∃ d ∈ seen, d.finalUpdateId = w.1.lastValidatedUpdateId) ∧
    ∀ f ∈ seen.getLast?, f.finalUpdateId ≤ w.1.lastValidatedUpdateId

theorem sound_new (symbol assetType : String) : Sound (new symbol assetType, ⟨0, []⟩) [] where
  gapFree  := trivial
  reached  := by intro h; cases h
  buffered := by intro e he; cases he
  suffix   := List.suffix_refl []
  empty    := by intro h; cases h
  last     := by intro h; cases h

theorem map_depthEvent_data {es : List BufferedDepthEvent} (h : ∀ e ∈ es, depthEvent e.data = e) :
    (es.map BufferedDepthEvent.data).map depthEvent = es := by
  rw [List.map_map]
  exact List.map_congr_left h |>.trans (List.map_id es)

/-- The buffer with one more event is the end of the stream. -/
theorem suffix_buffered {buffer seen : List BufferedDepthEvent} (h : buffer <:+ seen) (e : BufferedDepthEvent) :
    makeRoom buffer ++ [e] <:+ seen ++ [e] := by
  have hroom : makeRoom buffer <:+ buffer := by
    unfold makeRoom
    split
    · exact List.tail_suffix buffer
    · exact List.suffix_refl buffer
  obtain ⟨before, rfl⟩ := hroom.trans h
  exact ⟨before, (List.append_assoc ..).symm⟩

/-- An event that passes the `pu` test covers the next id. -/
theorem Sound.covers {s : BinanceOrderbookSynchronizer} {l : Ledger} {seen : List BufferedDepthEvent}
    {e : BufferedDepthEvent} (hw : Sound (s, l) seen) (hsync : s.isSynchronized = true) (he : Extends seen e)
    (hfol : e.Follows s.lastValidatedUpdateId) : Covers s.lastValidatedUpdateId e := by
  obtain ⟨⟨d, hd, hlast⟩, hend⟩ := hw.last hsync
  change d.finalUpdateId = s.lastValidatedUpdateId at hlast
  change ∀ f ∈ seen.getLast?, f.finalUpdateId ≤ s.lastValidatedUpdateId at hend
  rw [← hlast] at hfol hend ⊢
  exact honestAfter_of_extends he hd hend hfol

/-- A delivered event extends the chain. -/
theorem gapFree_deliver {s : BinanceOrderbookSynchronizer} {l : Ledger} {seen : List BufferedDepthEvent}
    {data : Value} (hw : Sound (s, l) seen) (hsync : s.isSynchronized = true)
    (hcover : Covers s.lastValidatedUpdateId (depthEvent data)) :
    Ledger.GapFree { l with delivered := l.delivered ++ [data] } := by
  show Linked Covers finalUpdateId l.start ((l.delivered ++ [data]).map depthEvent)
  rw [List.map_append, linked_append]
  have hlast : s.lastValidatedUpdateId = l.reached := hw.reached hsync
  rw [hlast] at hcover
  exact ⟨hw.gapFree, hcover, trivial⟩

/-- A synchronisation starts a chain at the snapshot. -/
theorem sound_join {s : BinanceOrderbookSynchronizer} {snap : BinanceSnapshot} {es seen : List BufferedDepthEvent}
    {e : BufferedDepthEvent} (hacc : Accepts snap.lastUpdateId (retained snap.lastUpdateId (es ++ [e])))
    (hes : es ++ [e] <:+ seen) (hseen : Unbroken seen)
    (hgen : ∀ f ∈ retained snap.lastUpdateId (es ++ [e]), depthEvent f.data = f) :
    Sound (s.synced snap.lastUpdateId (retained snap.lastUpdateId (es ++ [e])),
      ⟨snap.lastUpdateId, (retained snap.lastUpdateId (es ++ [e])).map BufferedDepthEvent.data⟩) seen := by
  have hpast : ∀ f ∈ retained snap.lastUpdateId (es ++ [e]), snap.lastUpdateId < f.finalUpdateId :=
    fun f hf => of_decide_eq_true (List.mem_filter.mp hf).2
  obtain ⟨before, rfl⟩ := hes
  refine ⟨?_, fun _ => ?_, fun f hf => absurd hf List.not_mem_nil, List.nil_suffix, fun _ => rfl, fun _ => ?_⟩
  · show Linked Covers finalUpdateId snap.lastUpdateId _
    rw [map_depthEvent_data hgen]
    exact covers_of_accepts hacc hpast (honestBatch_retained hseen _)
  · show finalId snap.lastUpdateId (retained snap.lastUpdateId (es ++ [e])) = finalId snap.lastUpdateId _
    rw [map_depthEvent_data hgen]
  · -- the last id is that of the last event that was kept
    obtain ⟨d, hd⟩ : ∃ d, (retained snap.lastUpdateId (es ++ [e])).getLast? = some d := by
      cases hkept : retained snap.lastUpdateId (es ++ [e]) with
      | nil => rw [hkept] at hacc; exact absurd hacc id
      | cons f fs => exact ⟨_, List.getLast?_eq_some_getLast (List.cons_ne_nil f fs)⟩
    have hlast : (s.synced snap.lastUpdateId (retained snap.lastUpdateId (es ++ [e]))).lastValidatedUpdateId =
        d.finalUpdateId := lastStamp_of_getLast? hd
    dsimp only
    rw [hlast]
    refine ⟨⟨d, List.mem_append_right _ (List.mem_of_mem_filter (List.mem_of_getLast? hd)), rfl⟩, fun f hf => ?_⟩
    rw [← List.append_assoc, List.getLast?_concat] at hf
    exact finalUpdateId_le_of_retained hd (List.getLast?_concat.trans hf)

theorem Sound.step {w : BinanceOrderbookSynchronizer × Ledger} {i : SyncInput} {seen : List BufferedDepthEvent}
    (hw : Sound w seen) (hseen : Unbroken (seen ++ received [i])) :
    Sound (watchedStep w i).1 (seen ++ received [i]) := by
  have hbuf := hw.buffered.syncStep i
  obtain ⟨s, l⟩ := w
  cases i with
  | fetched snapshot =>
      rw [received_fetched, List.append_nil]
      show Sound (_, l.record s { s with snapshot := some snapshot } []) seen
      rw [Ledger.record_nothing (by exact id)]
      exact ⟨hw.gapFree, hw.reached, hbuf, hw.suffix, hw.empty, hw.last⟩
  | message data =>
      rw [received_message] at hseen ⊢
      have hsuffix := suffix_buffered hw.suffix (depthEvent data)
      have hstep := depthStep s data
      show Sound ((handleDepth s data).1, l.record s (handleDepth s data).1 (handleDepth s data).2) _
      change Genuine (handleDepth s data).1 at hbuf
      generalize handleDepth s data = r at hstep hbuf
      cases hstep with
      | deliver hsync hfol =>
          have hcover := hw.covers hsync (unbroken_snoc.mp hseen).2 hfol
          rw [Ledger.record_extended fun _ => hsync]
          have hempty : s.eventBuffer = [] := hw.empty hsync
          refine ⟨gapFree_deliver hw hsync hcover, fun _ => ?_, hbuf, ?_, fun _ => hempty, fun _ => ?_⟩
          · show (depthEvent data).finalUpdateId = finalId l.start ((l.delivered ++ [data]).map depthEvent)
            rw [List.map_append]
            exact lastStamp_snoc.symm
          · show s.eventBuffer <:+ _
            rw [hempty]
            exact List.nil_suffix
          · refine ⟨⟨_, List.mem_append_right _ (List.mem_singleton_self _), rfl⟩, fun f hf => ?_⟩
            rw [List.getLast?_concat] at hf
            rw [← Option.some.inj hf]
      | gap hsync hgap =>
          rw [Ledger.record_nothing fun _ => hsync]
          exact ⟨hw.gapFree, fun h => absurd h Bool.false_ne_true, hbuf, hsuffix,
            fun h => absurd h Bool.false_ne_true, fun h => absurd h Bool.false_ne_true⟩
      | wait hsync hsnap =>
          rw [Ledger.record_nothing (by exact id)]
          have hno : ∀ {P : Prop}, (s.bufferEvent (depthEvent data)).isSynchronized = true → P :=
            fun h => absurd (hsync.symm.trans h) Bool.false_ne_true
          exact ⟨hw.gapFree, hno, hbuf, hsuffix, hno, hno⟩
      | join hsync snap hsnap hacc =>
          -- a new page: the chain starts over at the snapshot
          rw [Ledger.record_synchronized hsync rfl hsnap]
          exact sound_join hacc hsuffix hseen (hw.buffered.pending snap.lastUpdateId data)
      | reject hsync snap hsnap hrej =>
          rw [Ledger.record_nothing (by exact id)]
          have hno : ∀ {P : Prop}, s.cleared.isSynchronized = true → P :=
            fun h => absurd (hsync.symm.trans h) Bool.false_ne_true
          exact ⟨hw.gapFree, hno, hbuf, List.nil_suffix, hno, hno⟩

/-- While synchronised, the last id does not decrease over a step of an unbroken stream. -/
theorem Sound.lastValidatedUpdateId_mono {w : BinanceOrderbookSynchronizer × Ledger} {i : SyncInput}
    {seen : List BufferedDepthEvent} (hw : Sound w seen) (hseen : Unbroken (seen ++ received [i]))
    (hsync : w.1.isSynchronized = true) (hsync' : (watchedStep w i).1.1.isSynchronized = true) :
    w.1.lastValidatedUpdateId ≤ (watchedStep w i).1.1.lastValidatedUpdateId := by
  obtain ⟨s, l⟩ := w
  cases i with
  | fetched snapshot => exact Nat.le_refl _
  | message data =>
      change (handleDepth s data).1.isSynchronized = true at hsync'
      show s.lastValidatedUpdateId ≤ (handleDepth s data).1.lastValidatedUpdateId
      rcases handleDepth_of_synced hsync data with ⟨hfol, hr⟩ | ⟨_, hr⟩
      · rw [hr]
        exact (hw.covers hsync (unbroken_snoc.mp hseen).2 hfol).le
      · -- a gap gives the flag up
        rw [hr] at hsync'
        exact absurd hsync' Bool.false_ne_true

/-! ## Runs -/

/-- The watched run of a new synchroniser. -/
def watched (symbol assetType : String) (is : List SyncInput) : BinanceOrderbookSynchronizer × Ledger :=
  (Machine.run watchedStep (new symbol assetType, ⟨0, []⟩) is).1

theorem sound_watched (symbol assetType : String) {is : List SyncInput} (h : Unbroken (received is)) :
    Sound (watched symbol assetType is) (received is) := by
  induction is using List.reverseRecOn with
  | nil => exact sound_new symbol assetType
  | append_singleton is i ih =>
      rw [received_append] at h ⊢
      unfold watched
      rw [Machine.run_append_state]
      exact (ih (unbrokenAfter_append.mp h).1).step h

/-- **No gap, no regression, on an unbroken stream.** In every run whose messages form an unbroken stream, the messages
    delivered since the last synchronisation cover the ids from the snapshot on at every moment, each event continuing
    the one before; the last id is where they end, and no step moves it back. -/
theorem watched_gapFree (symbol assetType : String) (is : List SyncInput) (h : Unbroken (received is)) :
    (∀ done, done <+: is → (watched symbol assetType done).2.GapFree ∧
      ((watched symbol assetType done).1.isSynchronized = true →
        (watched symbol assetType done).1.lastValidatedUpdateId = (watched symbol assetType done).2.reached)) ∧
    ∀ done i, done ++ [i] <+: is → (watched symbol assetType done).1.isSynchronized = true →
      (watched symbol assetType (done ++ [i])).1.isSynchronized = true →
      (watched symbol assetType done).1.lastValidatedUpdateId
        ≤ (watched symbol assetType (done ++ [i])).1.lastValidatedUpdateId := by
  have hpast : ∀ done, done <+: is → Unbroken (received done) := by
    rintro done ⟨rest, rfl⟩
    rw [received_append] at h
    exact (unbrokenAfter_append.mp h).1
  constructor
  · intro done hdone
    have hsound := sound_watched symbol assetType (hpast done hdone)
    exact ⟨hsound.gapFree, hsound.reached⟩
  · intro done i hdone hsync hsync'
    have hseen := hpast _ hdone
    have hsound := sound_watched symbol assetType (hpast done ((List.prefix_append ..).trans hdone))
    rw [received_append] at hseen
    have hstep : watched symbol assetType (done ++ [i]) = (watchedStep (watched symbol assetType done) i).1 :=
      Machine.run_append_state ..
    rw [hstep] at hsync' ⊢
    exact hsound.lastValidatedUpdateId_mono hseen hsync hsync'

/-- A snapshot at 100, an event across it, and one more event. -/
def twoEvents (U u : Nat) : List SyncInput :=
  [.fetched ⟨"BTCUSDT", 100, [], []⟩, .message (depthMessage "BTCUSDT" 95 105 none),
    .message (depthMessage "BTCUSDT" U u none)]

/-- Two adjacent events, and one whose `pu` shows that the ids before it are lost. -/
def lostBehind : List SyncInput := twoEvents 106 110 ++ [.message (depthMessage "BTCUSDT" 121 130 (some 120))]

theorem lostBehind_gapFree :
    Unbroken (received lostBehind) ∧ (watched "BTCUSDT" "spot" lostBehind).2.delivered.length = 2 ∧
    (watched "BTCUSDT" "spot" lostBehind).2.GapFree := by
  have hunbroken : Unbroken (received lostBehind) := by decide +kernel
  exact ⟨hunbroken, by decide +kernel,
    ((watched_gapFree "BTCUSDT" "spot" lostBehind hunbroken).1 lostBehind (List.prefix_refl _)).1⟩

/-- Without `pu` a lost stretch of ids goes unnoticed. -/
theorem skipped_delivered :
    (watched "BTCUSDT" "spot" (twoEvents 200 210)).2.delivered.length = 2 ∧
    ¬ (watched "BTCUSDT" "spot" (twoEvents 200 210)).2.GapFree :=
  ⟨by decide +kernel, by decide +kernel⟩

end Feed
end TradingPlatform
