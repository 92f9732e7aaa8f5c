import TradingPlatform.Feed.BinanceSnapshot
import TradingPlatform.Library.Stamped

/-!
# `Feed.Sync` — what the synchroniser can do

Two facts about events decide everything: whether an event *follows* a final id (its `pu`, when present,
names that id), and whether the retained events are *accepted* by a snapshot (the first overlaps it, and each
follows the one before, the first following the snapshot itself). `synchronize_cases`, `validateEvent_follows` and
`validateEvent_gap` say what the two methods do in these terms, guards and resulting states included.

The last section applies them to one buffered stream: `synchronize_exact_iff`.
-/

namespace TradingPlatform
namespace Feed

open Json Stamped

namespace BufferedDepthEvent

/-- The `pu` test of the source: a missing `pu` passes. -/
def Follows (prev : Nat) (e : BufferedDepthEvent) : Prop :=
  e.prevUpdateId = none ∨ e.prevUpdateId = some prev

instance (prev : Nat) (e : BufferedDepthEvent) : Decidable (e.Follows prev) :=
  inferInstanceAs (Decidable (_ ∨ _))

theorem follows_none {e : BufferedDepthEvent} (h : e.prevUpdateId = none) (prev : Nat) :
    e.Follows prev := Or.inl h

theorem follows_some {e : BufferedDepthEvent} {pu : Nat} (h : e.prevUpdateId = some pu) {prev : Nat} :
    e.Follows prev ↔ pu = prev := by
  unfold Follows
  rw [h]
  simp

end BufferedDepthEvent

namespace BinanceOrderbookSynchronizer

open BufferedDepthEvent

/-! ## The drain loop -/

/-- Every event follows the final id of the one before. -/
abbrev PuLinked (prev : Nat) (es : List BufferedDepthEvent) : Prop :=
  Linked (fun prev e => Follows prev e) finalUpdateId prev es

/-- The final id reached after the events. -/
abbrev finalId (prev : Nat) (es : List BufferedDepthEvent) : Nat := lastStamp finalUpdateId prev es

theorem collectValidated_ok {prev : Nat} {es : List BufferedDepthEvent} (h : PuLinked prev es) :
    collectValidated prev es = .ok (es.map data, finalId prev es) := by
  induction es generalizing prev with
  | nil => rfl
  | cons e es ih =>
      obtain ⟨he, hes⟩ := h
      unfold collectValidated
      rw [ih hes]
      split
      next pu hpu =>
        rw [if_neg (not_not.mpr ((follows_some hpu).mp he))]
        rfl
      next => rfl

/-- A gap anywhere fails the whole batch. -/
theorem collectValidated_error {prev : Nat} {es : List BufferedDepthEvent} (h : ¬ PuLinked prev es) :
    ∃ text, collectValidated prev es = .error text := by
  induction es generalizing prev with
  | nil => exact absurd trivial h
  | cons e es ih =>
      unfold collectValidated
      by_cases he : e.Follows prev
      · -- this event follows, so the gap is further on
        have hes : ¬ PuLinked e.finalUpdateId es := fun hes => h ⟨he, hes⟩
        obtain ⟨text, htext⟩ := ih hes
        rw [htext]
        refine ⟨text, ?_⟩
        split
        next pu hpu =>
          rw [if_neg (not_not.mpr ((follows_some hpu).mp he))]
          rfl
        next => rfl
      · split
        next pu hpu => exact ⟨_, if_pos fun heq => he ((follows_some hpu).mpr heq)⟩
        next hpu => exact absurd (follows_none hpu prev) he

/-! ## `synchronize` -/

/-- The events of a buffer a snapshot with this id keeps. -/
def retained (last : Nat) (buffer : List BufferedDepthEvent) : List BufferedDepthEvent :=
  buffer.filter (last < ·.finalUpdateId)

/-- The first event overlaps the snapshot and the chain of `pu`s starts at the snapshot. -/
def Accepts (last : Nat) : List BufferedDepthEvent → Prop
  | []      => False
  | e :: es => (e.firstUpdateId ≤ last ∧ last ≤ e.finalUpdateId) ∧ PuLinked last (e :: es)

instance (last : Nat) : (es : List BufferedDepthEvent) → Decidable (Accepts last es)
  | []      => isFalse id
  | _ :: _  => inferInstanceAs (Decidable (_ ∧ _))

/-- The state a successful synchronisation leaves. -/
def synced (s : BinanceOrderbookSynchronizer) (last : Nat) (es : List BufferedDepthEvent) :
    BinanceOrderbookSynchronizer :=
  { s with eventBuffer := [], isSynchronized := true, lastValidatedUpdateId := finalId last es }

/-- The state after a failed one: the buffer is gone, whatever the reason. -/
def cleared (s : BinanceOrderbookSynchronizer) : BinanceOrderbookSynchronizer :=
  { s with eventBuffer := [] }

theorem synchronize_none {s : BinanceOrderbookSynchronizer} (h : s.snapshot = none) :
    s.synchronize = (s, .error "No snapshot available for synchronization") := by
  unfold synchronize
  rw [h]

theorem synchronize_some {s : BinanceOrderbookSynchronizer} {snap : BinanceSnapshot}
    (h : s.snapshot = some snap) : s.synchronize = s.synchronizeWith snap := by
  unfold synchronize
  rw [h]

theorem synchronize_accepted {s : BinanceOrderbookSynchronizer} {snap : BinanceSnapshot}
    (h : s.snapshot = some snap) (hacc : Accepts snap.lastUpdateId (retained snap.lastUpdateId s.eventBuffer)) :
    s.synchronize = (s.synced snap.lastUpdateId (retained snap.lastUpdateId s.eventBuffer),
      .ok ((retained snap.lastUpdateId s.eventBuffer).map data)) := by
  rw [synchronize_some h]
  unfold synchronizeWith
  cases hr : retained snap.lastUpdateId s.eventBuffer with
  | nil => rw [hr] at hacc; exact absurd hacc id
  | cons e es =>
      rw [hr] at hacc
      obtain ⟨hover, hlink⟩ := hacc
      rw [retained] at hr
      simp only [hr, if_neg (not_not.mpr hover), collectValidated_ok hlink]
      rfl

theorem synchronize_rejected {s : BinanceOrderbookSynchronizer} {snap : BinanceSnapshot}
    (h : s.snapshot = some snap)
    (hrej : ¬ Accepts snap.lastUpdateId (retained snap.lastUpdateId s.eventBuffer)) :
    ∃ text, s.synchronize = (s.cleared, .error text) := by
  rw [synchronize_some h]
  unfold synchronizeWith
  cases hr : retained snap.lastUpdateId s.eventBuffer with
  | nil =>
      rw [retained] at hr
      simp only [hr]
      exact ⟨_, rfl⟩
  | cons e es =>
      rw [hr] at hrej
      rw [retained] at hr
      by_cases hover : e.firstUpdateId ≤ snap.lastUpdateId ∧ snap.lastUpdateId ≤ e.finalUpdateId
      · -- the overlap is there, so it is the chain of `pu`s that breaks
        obtain ⟨text, htext⟩ := collectValidated_error fun hlink => hrej ⟨hover, hlink⟩
        refine ⟨text, ?_⟩
        simp only [hr, if_neg (not_not.mpr hover), htext]
        rfl
      · simp only [hr, if_pos hover]
        exact ⟨_, rfl⟩

/-- **What `synchronize` can do.** Without a snapshot nothing; with one, it hands over every retained event
    and moves to the synchronised state, or fails and empties the buffer. -/
theorem synchronize_cases (s : BinanceOrderbookSynchronizer) :
    (s.snapshot = none ∧ ∃ text, s.synchronize = (s, .error text)) ∨
    ∃ snap, s.snapshot = some snap ∧
      ((Accepts snap.lastUpdateId (retained snap.lastUpdateId s.eventBuffer) ∧
          s.synchronize = (s.synced snap.lastUpdateId (retained snap.lastUpdateId s.eventBuffer),
            .ok ((retained snap.lastUpdateId s.eventBuffer).map data))) ∨
        (¬ Accepts snap.lastUpdateId (retained snap.lastUpdateId s.eventBuffer) ∧
          ∃ text, s.synchronize = (s.cleared, .error text))) := by
  cases h : s.snapshot with
  | none => exact Or.inl ⟨rfl, _, synchronize_none h⟩
  | some snap =>
      refine Or.inr ⟨snap, rfl, ?_⟩
      by_cases hacc : Accepts snap.lastUpdateId (retained snap.lastUpdateId s.eventBuffer)
      · exact Or.inl ⟨hacc, synchronize_accepted h hacc⟩
      · exact Or.inr ⟨hacc, synchronize_rejected h hacc⟩

/-! ## `validate_event` -/

/-- **What `validate_event` can do** once synchronised: step to the event's final id, or give up the flag. -/
theorem validateEvent_follows {s : BinanceOrderbookSynchronizer} {e : BufferedDepthEvent}
    (hs : s.isSynchronized = true) (he : e.Follows s.lastValidatedUpdateId) :
    s.validateEvent e = ({ s with lastValidatedUpdateId := e.finalUpdateId }, true) := by
  unfold validateEvent
  rw [if_neg (not_not.mpr hs)]
  split
  next pu hpu => rw [if_neg (not_not.mpr ((follows_some hpu).mp he))]
  next => rfl

theorem validateEvent_gap {s : BinanceOrderbookSynchronizer} {e : BufferedDepthEvent}
    (hs : s.isSynchronized = true) (he : ¬ e.Follows s.lastValidatedUpdateId) :
    s.validateEvent e = ({ s with isSynchronized := false }, false) := by
  unfold validateEvent
  rw [if_neg (not_not.mpr hs)]
  split
  next pu hpu => rw [if_pos fun heq => he ((follows_some hpu).mpr heq)]
  next hpu => exact absurd (follows_none hpu _) he

/-! ## The buffer -/

theorem mem_of_mem_makeRoom {buffer : List BufferedDepthEvent} {e : BufferedDepthEvent}
    (h : e ∈ makeRoom buffer) : e ∈ buffer := by
  unfold makeRoom at h
  split at h
  · exact List.mem_of_mem_tail h
  · exact h

/-! ## One buffered stream -/

/-- The event comes directly after the one with this final id: `pu` names it and the ranges do not overlap. -/
def Succeeds (prev : Nat) (e : BufferedDepthEvent) : Prop :=
  e.prevUpdateId = some prev ∧ prev < e.firstUpdateId ∧ e.firstUpdateId ≤ e.finalUpdateId

instance (prev : Nat) (e : BufferedDepthEvent) : Decidable (Succeeds prev e) :=
  inferInstanceAs (Decidable (_ ∧ _))

/-- A stream as the exchange sends it: ranges in order, each event naming the one before. Nothing is said
    of the `pu` of the first. -/
def Contiguous : List BufferedDepthEvent → Prop
  | []      => True
  | e :: es => e.firstUpdateId ≤ e.finalUpdateId ∧ Linked Succeeds finalUpdateId e.finalUpdateId es

instance : (es : List BufferedDepthEvent) → Decidable (Contiguous es)
  | []     => isTrue trivial
  | _ :: _ => inferInstanceAs (Decidable (_ ∧ _))

theorem Succeeds.lt {prev : Nat} {e : BufferedDepthEvent} (h : Succeeds prev e) :
    prev < e.finalUpdateId := Nat.lt_of_lt_of_le h.2.1 h.2.2

theorem Contiguous.of_append {pre es : List BufferedDepthEvent} (h : Contiguous (pre ++ es)) :
    Contiguous es := by
  induction pre with
  | nil => exact h
  | cons e pre ih =>
      apply ih
      have hlink : Linked Succeeds finalUpdateId e.finalUpdateId (pre ++ es) := h.2
      cases hpre : pre ++ es with
      | nil => trivial
      | cons f fs =>
          rw [hpre] at hlink
          obtain ⟨⟨_, _, hf⟩, hfs⟩ := hlink
          exact ⟨hf, hfs⟩

/-- From the first event past the snapshot on, every event is retained. -/
theorem retained_of_contiguous {last : Nat} {pre post : List BufferedDepthEvent} {first : BufferedDepthEvent}
    (hcont : Contiguous (first :: post)) (hpast : last < first.finalUpdateId)
    (hpre : ∀ e ∈ pre, ¬ last < e.finalUpdateId) :
    retained last (pre ++ first :: post) = first :: post := by
  have hgrow := Linked.lt_of_mem (fun _ _ h => Succeeds.lt h) hcont.2
  have hpost : ∀ e ∈ post, last < e.finalUpdateId := fun e he => Nat.lt_trans hpast (hgrow e he)
  unfold retained
  rw [List.filter_append, List.filter_eq_nil_iff.mpr fun e he => by simpa using hpre e he,
    List.nil_append, List.filter_eq_self]
  intro e he
  rcases List.mem_cons.mp he with rfl | he
  · exact decide_eq_true hpast
  · exact decide_eq_true (hpost e he)

/-- Of a contiguous batch only the first event is really tested. -/
theorem accepts_of_contiguous {last : Nat} {first : BufferedDepthEvent} {post : List BufferedDepthEvent}
    (hcont : Contiguous (first :: post)) (hpast : last < first.finalUpdateId) :
    Accepts last (first :: post) ↔ first.firstUpdateId ≤ last ∧ first.Follows last := by
  have hlink : PuLinked first.finalUpdateId post :=
    hcont.2.imp fun _ _ _ h => Or.inr h.1
  constructor
  · rintro ⟨⟨hfirst, _⟩, hfollows, _⟩
    exact ⟨hfirst, hfollows⟩
  · rintro ⟨hfirst, hfollows⟩
    exact ⟨⟨hfirst, Nat.le_of_lt hpast⟩, hfollows, hlink⟩

/-- The synchronisation is complete and exact: exactly the messages past the snapshot come out, in order,
    the flag is set, the last id is that of the last event, nothing stays buffered. -/
def SynchronizesExactly (s : BinanceOrderbookSynchronizer) (last : Nat) : Prop :=
  (∃ s', s.synchronize = (s', .ok ((retained last s.eventBuffer).map data)) ∧
    s'.isSynchronized = true ∧ s'.eventBuffer = [] ∧
    s.eventBuffer.getLast?.map finalUpdateId = some s'.lastValidatedUpdateId)

/-- **When a contiguous stream synchronises.** With `first` the first event past the snapshot, the stream is
    handed over complete and exact precisely when `first` starts at or before the snapshot's own id and its
    `pu`, if it has one, is that id. -/
theorem synchronize_exact_iff {s : BinanceOrderbookSynchronizer} {snap : BinanceSnapshot}
    {first : BufferedDepthEvent} (hsnap : s.snapshot = some snap) (hcont : Contiguous s.eventBuffer)
    (hfirst : s.eventBuffer.find? (snap.lastUpdateId < ·.finalUpdateId) = some first) :
    s.SynchronizesExactly snap.lastUpdateId ↔
      first.firstUpdateId ≤ snap.lastUpdateId ∧
        (first.prevUpdateId = none ∨ first.prevUpdateId = some snap.lastUpdateId) := by
  obtain ⟨hpast, pre, post, hbuf, hpre⟩ := List.find?_eq_some_iff_append.mp hfirst
  have hpast : snap.lastUpdateId < first.finalUpdateId := of_decide_eq_true hpast
  -- everything turns on what is retained, which is `first` and all that comes after it
  have hcont' : Contiguous (first :: post) := Contiguous.of_append (hbuf ▸ hcont)
  have hret : retained snap.lastUpdateId s.eventBuffer = first :: post := by
    rw [hbuf]
    exact retained_of_contiguous hcont' hpast fun e he => by simpa using hpre e he
  have hiff := accepts_of_contiguous hcont' hpast
  show _ ↔ first.firstUpdateId ≤ snap.lastUpdateId ∧ first.Follows snap.lastUpdateId
  rw [← hiff, ← hret]
  constructor
  · rintro ⟨s', hs', -⟩
    by_contra hrej
    obtain ⟨text, htext⟩ := synchronize_rejected hsnap hrej
    rw [htext] at hs'
    cases hs'
  · intro hacc
    refine ⟨_, synchronize_accepted hsnap hacc, rfl, rfl, ?_⟩
    -- the last event of the buffer is the last one retained
    show _ = some (finalId snap.lastUpdateId (retained snap.lastUpdateId s.eventBuffer))
    obtain ⟨e, he⟩ : ∃ e, (first :: post).getLast? = some e :=
      ⟨_, List.getLast?_eq_some_getLast (List.cons_ne_nil _ _)⟩
    rw [hret, hbuf, List.getLast?_append, he]
    exact congrArg some (lastStamp_of_getLast? he).symm

/-- A synchroniser that holds a snapshot and has buffered some events. -/
def holding (last : Nat) (buffer : List BufferedDepthEvent) : BinanceOrderbookSynchronizer :=
  { new "BTCUSDT" "futures" with snapshot := some ⟨"BTCUSDT", last, [], []⟩, eventBuffer := buffer }

/-- An event that overlaps a snapshot at 100, with the `pu` left open. -/
def overlapping (pu : Option Nat) : BufferedDepthEvent := ⟨95, 105, pu, .object []⟩

/-- An overlapping event that names the snapshot, and its successor. -/
def joined : BinanceOrderbookSynchronizer :=
  holding 100 [overlapping (some 100), ⟨106, 110, some 105, .object []⟩]

theorem joined_synchronizes : joined.SynchronizesExactly 100 :=
  (@synchronize_exact_iff joined ⟨"BTCUSDT", 100, [], []⟩ (overlapping (some 100)) rfl (by decide) rfl).mpr
    ⟨by decide, Or.inr rfl⟩

/-- With its honest `pu` of 99 the overlapping event is taken for a gap. -/
theorem overlapping_rejected :
    Contiguous [overlapping (some 99)] ∧
    (holding 100 [overlapping (some 99)]).eventBuffer.find? (100 < ·.finalUpdateId)
      = some (overlapping (some 99)) ∧
    (overlapping (some 99)).firstUpdateId ≤ 100 + 1 ∧ 100 + 1 ≤ (overlapping (some 99)).finalUpdateId ∧
    ¬ (holding 100 [overlapping (some 99)]).SynchronizesExactly 100 := by
  refine ⟨by decide, rfl, by decide, by decide, ?_⟩
  rintro ⟨s', hs', -⟩
  obtain ⟨text, htext⟩ := synchronize_rejected (s := holding 100 [overlapping (some 99)]) rfl (by decide)
  rw [htext] at hs'
  cases hs'

end BinanceOrderbookSynchronizer
end Feed
end TradingPlatform
