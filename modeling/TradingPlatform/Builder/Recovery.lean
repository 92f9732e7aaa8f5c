import TradingPlatform.Builder.Live
import TradingPlatform.Builder.Progress
import TradingPlatform.Library.Stamped

/-!
# `Builder.Recovery` — from a gap to the next snapshot

After a gap the builder buffers from scratch. A snapshot brings it back when it is received live, or into an
empty buffer. Behind another update it is buffered and never looked at. `Receptive` excludes that, and the pause
that makes the builder spin; then the builder is live with the snapshot and everything behind it
(`recovers_at_next_snapshot`).

The proof has two phases: up to the moment the snapshot is received nothing is kept but the order of what is
still to come; from then on `Recovering` follows the updates taken.
-/

namespace TradingPlatform
namespace Builder

open Market OrderBookBuilder

/-! ## Statements -/

def Event.sent? : Event → Option OrderBookUpdate
  | .send u => some u
  | _       => none

/-- The updates sent, in order. -/
def sends (es : List Event) : List OrderBookUpdate := es.filterMap Event.sent?

@[simp] theorem sends_nil : sends [] = [] := rfl

@[simp] theorem sends_send (u : OrderBookUpdate) (es : List Event) : sends (.send u :: es) = u :: sends es := rfl

@[simp] theorem sends_close (es : List Event) : sends (.close :: es) = sends es := rfl

@[simp] theorem sends_iterate (expired : Bool) (es : List Event) : sends (.iterate expired :: es) = sends es := rfl

/-- A delta that continues where the last update ended. -/
def Continues (lastSeq : Nat) (u : OrderBookUpdate) : Prop :=
  u.isSnapshot = false ∧ (u.firstUpdateId = lastSeq + 1 ∨ u.updateId = lastSeq + 1)

/-- The updates are contiguous from this sequence number on. -/
abbrev Contiguous (lastSeq : Nat) (us : List OrderBookUpdate) : Prop :=
  Stamped.Linked Continues OrderBookUpdate.updateId lastSeq us

/-- The sequence number at the end of contiguous updates. -/
abbrev lastId (lastSeq : Nat) (us : List OrderBookUpdate) : Nat :=
  Stamped.lastStamp OrderBookUpdate.updateId lastSeq us

@[simp] theorem lastId_snoc (lastSeq : Nat) (us : List OrderBookUpdate) (u : OrderBookUpdate) :
    lastId lastSeq (us ++ [u]) = u.updateId := Stamped.lastStamp_snoc

/-- The book made of a snapshot and the updates behind it, on top of whatever there was. -/
def BuiltFrom (snap : OrderBookUpdate) (us : List OrderBookUpdate) (book : OrderBook) : Prop :=
  ∃ before, book = us.foldl applyUpdate (applyUpdate before snap)

/-- A gap has just been detected. -/
def GapDetected (s : Loop) : Prop := ∃ expected actual, s.builder.state = .resyncing (.sequenceGap expected actual) 1

/-- Neither does a pause meet a buffer that starts with a delta, nor, while buffering, this snapshot a buffer with
    something in it. -/
def Receptive (snap : OrderBookUpdate) (s : Loop) (e : Event) : Prop :=
  Primed s e ∧
    match e with
    | .iterate expired =>
        ∀ buffer, s.running = true → s.builder.state = .buffering buffer → expired = false →
          s.channel.head? = some snap → buffer = []
    | _ => True

theorem Continues.follows {lastSeq : Nat} {u : OrderBookUpdate} (h : Continues lastSeq u) : Follows lastSeq u := by
  rcases h.2 with hfirst | hid
  · exact Or.inr (Or.inr ⟨by omega, hfirst⟩)
  · exact Or.inr (Or.inl hid)

theorem Contiguous.deltas {lastSeq : Nat} {us : List OrderBookUpdate} (h : Contiguous lastSeq us) :
    ∀ u ∈ us, u.isSnapshot = false :=
  Stamped.Linked.forall_mem (fun _ _ hu => hu.1) h

theorem BuiltFrom.snoc {snap : OrderBookUpdate} {us : List OrderBookUpdate} {book : OrderBook}
    (h : BuiltFrom snap us book) (u : OrderBookUpdate) : BuiltFrom snap (us ++ [u]) (applyUpdate book u) := by
  obtain ⟨before, rfl⟩ := h
  exact ⟨before, by rw [List.foldl_append, List.foldl_cons, List.foldl_nil]⟩

/-- What such a book lists. -/
theorem BuiltFrom.snapshotPlus {grid : ℚ} {snap : OrderBookUpdate} {us : List OrderBookUpdate} {book : OrderBook}
    (h : BuiltFrom snap us book) (hsnap : snap.isSnapshot = true) (hdeltas : ∀ u ∈ us, u.isSnapshot = false)
    (hwf : ∀ u ∈ snap :: us, WellFormed grid u) : SnapshotPlus grid book snap us := by
  obtain ⟨before, rfl⟩ := h
  induction us using List.reverseRecOn with
  | nil => exact snapshotPlus_snapshot (hwf snap List.mem_cons_self) hsnap before
  | append_singleton us u ih =>
      have hplus := ih (fun v hv => hdeltas v (List.mem_append_left _ hv))
        (fun v hv => hwf v (by simp only [List.mem_cons, List.mem_append] at hv ⊢; tauto))
      rw [List.foldl_append, List.foldl_cons, List.foldl_nil]
      exact hplus.delta (hwf u (by simp)) (hdeltas u (by simp))

theorem Receptive.primed {snap : OrderBookUpdate} {s : Loop} {e : Event} (h : Receptive snap s e) : Primed s e := h.1

/-! ## From the snapshot on -/

/-- The snapshot has been received, and these updates after it. -/
structure Recovering (snap : OrderBookUpdate) (taken : List OrderBookUpdate) (s : Loop) : Prop where
  running : s.running = true
  opened  : s.closed = false
  phase   : (s.builder.state = .fetchingSnapshot [snap] 1 ∧ taken = []) ∨
    ((∃ n, s.builder.state = .live (lastId snap.updateId taken) n) ∧
      BuiltFrom snap taken s.builder.orderbook)

theorem Recovering.steady {snap : OrderBookUpdate} {taken : List OrderBookUpdate} {s : Loop}
    (h : Recovering snap taken s) : Steady s.builder.state := by
  rcases h.phase with ⟨hstate, _⟩ | ⟨⟨n, hstate⟩, _⟩
  · exact hstate ▸ .fetching snap []
  · exact hstate ▸ .live _ n

theorem Recovering.not_buffering {snap : OrderBookUpdate} {taken : List OrderBookUpdate} {s : Loop}
    (h : Recovering snap taken s) (buffer : List OrderBookUpdate) : s.builder.state ≠ .buffering buffer := by
  rcases h.phase with ⟨hstate, _⟩ | ⟨⟨n, hstate⟩, _⟩ <;> simp [hstate]

theorem Recovering.not_resyncing {snap : OrderBookUpdate} {taken : List OrderBookUpdate} {s : Loop}
    (h : Recovering snap taken s) (reason : ResyncReason) : s.builder.state ≠ .resyncing reason 1 := by
  rcases h.phase with ⟨hstate, _⟩ | ⟨⟨n, hstate⟩, _⟩ <;> simp [hstate]

/-- **One iteration** takes nothing, or the next update. -/
theorem Recovering.turn {snap : OrderBookUpdate} {taken : List OrderBookUpdate} {s s' : Loop}
    {expired : Bool} {out : List Effect} (h : Recovering snap taken s) (hturn : Turn s expired s' out)
    (hsnap : snap.isSnapshot = true) (hnext : Contiguous (lastId snap.updateId taken) s.channel) :
    (s'.channel = s.channel ∧ Recovering snap taken s') ∨
      ∃ u rest, s.channel = u :: rest ∧ s'.channel = rest ∧ Recovering snap (taken ++ [u]) s' := by
  have hrunning := h.running
  have hopen := h.opened
  cases hturn with
  | fetched first others _ hstate _ hs' =>
      -- the snapshot becomes the book
      rcases h.phase with ⟨hfetching, rfl⟩ | ⟨⟨n, hlive⟩, _⟩
      · obtain rfl := first_of_fetching (hfetching.symm.trans hstate)
        refine Or.inl ⟨hs'.channel, hs'.running.trans hrunning, hs'.closed.trans hopen, Or.inr ⟨⟨1, hs'.state⟩, ?_⟩⟩
        rw [hs'.orderbook]
        exact ⟨_, rfl⟩
      · rw [hlive] at hstate
        cases hstate
  | applied lastSeq n u rest _ published hstate hcons _ _ hs' =>
      rcases h.phase with ⟨hfetching, _⟩ | ⟨⟨n', hlive⟩, hbuilt⟩
      · rw [hfetching] at hstate
        cases hstate
      · refine Or.inr ⟨u, rest, hcons, hs'.channel, hs'.running.trans hrunning, hs'.closed.trans hopen,
          Or.inr ⟨⟨n + 1, ?_⟩, ?_⟩⟩
        · rw [hs'.state, lastId_snoc]
        · rw [hs'.orderbook]
          exact hbuilt.snoc u
  | gap lastSeq n u rest _ hstate hcons hnot _ =>
      -- a contiguous update leaves no gap
      rcases h.phase with ⟨hfetching, _⟩ | ⟨⟨n', hlive⟩, _⟩
      · rw [hfetching] at hstate
        cases hstate
      · rw [hlive] at hstate
        obtain ⟨rfl, rfl⟩ := OrderBookState.live.inj hstate
        rw [hcons] at hnext
        exact absurd hnext.1.follows hnot
  | idle _ hstate hnil _ hs' =>
      refine Or.inl ⟨by rw [hs'.channel, hnil], hs'.running.trans hrunning, hs'.closed.trans hopen, ?_⟩
      rw [hs'.state, hs'.orderbook]
      exact h.phase
  | stuck first others _ hstate hdelta _ =>
      rcases h.phase with ⟨hfetching, _⟩ | ⟨⟨n, hlive⟩, _⟩
      · obtain rfl := first_of_fetching (hfetching.symm.trans hstate)
        rw [hsnap] at hdelta
        cases hdelta
      · rw [hlive] at hstate
        cases hstate
  | left _ _ _ hclosed _ =>
      rw [hopen] at hclosed
      cases hclosed
  | timeout buffer _ hstate _ _ => exact absurd hstate (h.not_buffering buffer)
  | buffered buffer _ _ _ hstate _ _ _ _ => exact absurd hstate (h.not_buffering buffer)
  | snapshot _ _ _ hstate _ _ _ _ => exact absurd hstate (h.not_buffering [])
  | paused first others _ hstate _ _ _ _ => exact absurd hstate (h.not_buffering (first :: others))
  | backoff reason _ hstate _ => exact absurd hstate (h.not_resyncing reason)

/-- **A run from the snapshot on** takes contiguous updates one by one. -/
theorem Recovering.run {snap : OrderBookUpdate} {taken : List OrderBookUpdate} {s : Loop} {es : List Event}
    (h : Recovering snap taken s) (hsnap : snap.isSnapshot = true) (hes : ∀ e ∈ es, e ≠ .close)
    (hnext : Contiguous (lastId snap.updateId taken) (s.channel ++ sends es)) :
    ∃ more, more ++ (Machine.run loopStep s es).1.channel = s.channel ++ sends es ∧
      Recovering snap (taken ++ more) (Machine.run loopStep s es).1 := by
  induction es generalizing s taken with
  | nil => exact ⟨[], by simp, by simpa using h⟩
  | cons e es ih =>
      have hrest : ∀ e ∈ es, e ≠ .close := fun x hx => hes x (List.mem_cons_of_mem _ hx)
      rw [Machine.run_cons]
      cases e with
      | close => exact absurd rfl (hes .close List.mem_cons_self)
      | send u =>
          rw [loopStep_send h.opened]
          have hsent : Recovering snap taken { s with channel := s.channel ++ [u] } := ⟨h.running, h.opened, h.phase⟩
          have hsplit : s.channel ++ sends (.send u :: es) = (s.channel ++ [u]) ++ sends es := by simp
          rw [hsplit] at hnext ⊢
          exact ih hsent hrest hnext
      | iterate expired =>
          rw [loopStep_iterate h.running]
          have hturn := turn_iterate h.steady expired
          generalize (s.iterate expired).1 = s' at hturn
          generalize (s.iterate expired).2 = out at hturn
          have hnow := (Stamped.linked_append.mp hnext).1
          rcases h.turn hturn hsnap hnow with ⟨hchannel, hs'⟩ | ⟨u, rest, hcons, hchannel, hs'⟩
          · rw [sends_iterate, ← hchannel] at hnext ⊢
            exact ih hs' hrest hnext
          · rw [hcons, sends_iterate, List.cons_append, ← hchannel] at hnext
            obtain ⟨more, hmore, hrec⟩ := ih hs' hrest (by rw [lastId_snoc]; exact hnext.2)
            refine ⟨u :: more, ?_, by simpa using hrec⟩
            rw [hcons, sends_iterate, List.cons_append, List.cons_append, hmore, hchannel]

/-! ## Up to the snapshot -/

/-- **The snapshot is received** by a receptive builder. -/
theorem Turn.takes_snapshot {snap : OrderBookUpdate} {s s' : Loop} {expired : Bool} {out : List Effect}
    {rest : List OrderBookUpdate} (h : Turn s expired s' out) (hsnap : snap.isSnapshot = true)
    (hrunning : s.running = true) (hopen : s.closed = false) (hchannel : s.channel = snap :: rest)
    (htaken : s'.channel = rest) (hreceptive : Receptive snap s (.iterate expired)) : Recovering snap [] s' := by
  have hne : rest ≠ s.channel := by
    rw [hchannel]
    exact (List.cons_ne_self snap rest).symm
  cases h with
  | snapshot u rest' _ _ _ hcons _ hs' =>
      obtain ⟨rfl, _⟩ := List.cons.inj (hcons.symm.trans hchannel)
      exact ⟨hs'.running.trans hrunning, hs'.closed.trans hopen, Or.inl ⟨hs'.state, rfl⟩⟩
  | applied lastSeq n u rest' _ published _ hcons _ _ hs' =>
      obtain ⟨rfl, _⟩ := List.cons.inj (hcons.symm.trans hchannel)
      refine ⟨hs'.running.trans hrunning, hs'.closed.trans hopen, Or.inr ⟨⟨n + 1, hs'.state⟩, ?_⟩⟩
      rw [hs'.orderbook]
      exact ⟨_, rfl⟩
  | buffered buffer u rest' _ hstate hexpired hcons hnot _ =>
      -- a receptive builder has an empty buffer here
      obtain ⟨rfl, _⟩ := List.cons.inj (hcons.symm.trans hchannel)
      have hnil := hreceptive.2 buffer hrunning hstate hexpired (by rw [hchannel]; rfl)
      exact absurd ⟨hnil, hsnap⟩ hnot
  | gap lastSeq n u rest' _ _ hcons hnot _ =>
      obtain ⟨rfl, _⟩ := List.cons.inj (hcons.symm.trans hchannel)
      exact absurd (Or.inl hsnap) hnot
  | left _ _ hnil _ _ => simp [hnil] at hchannel
  | paused _ _ _ _ _ hnil _ _ => simp [hnil] at hchannel
  | idle _ _ hnil _ _ => simp [hnil] at hchannel
  | timeout _ _ _ _ hs' => exact absurd (htaken.symm.trans hs'.channel) hne
  | fetched _ _ _ _ _ hs' => exact absurd (htaken.symm.trans hs'.channel) hne
  | stuck _ _ _ _ _ hs' => exact absurd (htaken.symm.trans hs'.channel) hne
  | backoff _ _ _ hs' => exact absurd (htaken.symm.trans hs'.channel) hne

/-- **A run that takes everything** has recovered at the snapshot. -/
theorem recovering_of_drained {snap : OrderBookUpdate} {pre post : List OrderBookUpdate} {s : Loop}
    {es : List Event} (hsteady : Steady s.builder.state) (hrunning : s.running = true) (hopen : s.closed = false)
    (hsnap : snap.isSnapshot = true) (hes : ∀ e ∈ es, e ≠ .close)
    (harrivals : s.channel ++ sends es = pre ++ snap :: post) (hpost : Contiguous snap.updateId post)
    (hguard : Machine.Guarded loopStep (Receptive snap) s es)
    (hdrained : (Machine.run loopStep s es).1.channel = []) :
    Recovering snap post (Machine.run loopStep s es).1 := by
  induction es generalizing s pre with
  | nil =>
      rw [show s.channel = [] from hdrained] at harrivals
      simp at harrivals
  | cons e es ih =>
      have hrest : ∀ e ∈ es, e ≠ .close := fun x hx => hes x (List.mem_cons_of_mem _ hx)
      rw [Machine.run_cons] at hdrained ⊢
      cases e with
      | close => exact absurd rfl (hes .close List.mem_cons_self)
      | send u =>
          have hsplit : s.channel ++ sends (.send u :: es) = (s.channel ++ [u]) ++ sends es := by simp
          rw [hsplit] at harrivals
          obtain ⟨_, hguard⟩ := hguard
          rw [loopStep_send hopen] at hguard hdrained ⊢
          exact ih hsteady hrunning hopen hrest harrivals hguard hdrained
      | iterate expired =>
          obtain ⟨hreceptive, hguard⟩ := hguard
          rw [loopStep_iterate hrunning] at hguard hdrained ⊢
          have hturn := turn_iterate hsteady expired
          generalize (s.iterate expired).1 = s' at hturn hguard hdrained
          generalize (s.iterate expired).2 = out at hturn
          obtain ⟨hopen', hrunning', hchannel⟩ := hturn.channel_cases hopen
          rcases hchannel with hsame | ⟨u, rest, hcons, htaken⟩
          · rw [sends_iterate, ← hsame] at harrivals
            exact ih (hturn.steady hsteady) (hrunning'.trans hrunning) hopen' hrest harrivals hguard hdrained
          · rw [sends_iterate, hcons, List.cons_append, ← htaken] at harrivals
            cases pre with
            | cons x pre =>
                -- an update before the snapshot, whatever becomes of it
                obtain ⟨_, harrivals⟩ := List.cons.inj harrivals
                exact ih (hturn.steady hsteady) (hrunning'.trans hrunning) hopen' hrest harrivals hguard hdrained
            | nil =>
                obtain ⟨rfl, rfl⟩ := List.cons.inj harrivals
                have hrec : Recovering u [] s' :=
                  hturn.takes_snapshot hsnap hrunning hopen hcons htaken hreceptive
                obtain ⟨more, hmore, hdone⟩ := hrec.run hsnap hrest hpost
                rw [hdrained, List.append_nil] at hmore
                rwa [List.nil_append, hmore] at hdone

/-! ## Draining the channel -/

/-- What is left to do: three iterations for each waiting update, two more in front of a pause that ends the
    buffering, one more in a state that awaits no update. -/
def toDo (s : Loop) : Nat :=
  3 * s.channel.length +
    match s.builder.state with
    | .buffering []       => 0
    | .buffering (_ :: _) => 2
    | .live ..            => 0
    | _                   => 1

/-- An iteration of a primed builder works something off. -/
theorem toDo_iterate {s : Loop} (h : PrimedState s) (hrunning : s.running = true) (hopen : s.closed = false) :
    toDo (loopStep s (.iterate false)).1 < toDo s ∨ toDo (loopStep s (.iterate false)).1 = 0 := by
  rw [loopStep_iterate hrunning]
  have hturn := turn_iterate h.steady false
  generalize (s.iterate false).1 = s' at hturn
  generalize (s.iterate false).2 = out at hturn
  cases hturn with
  | timeout _ _ _ hexpired _ => cases hexpired
  | buffered buffer u rest _ hstate _ hcons _ hs' =>
      -- the buffer has something in it now
      have hone : (match s'.builder.state with
          | .buffering [] => 0 | .buffering (_ :: _) => 2 | .live .. => 0 | _ => 1) = 2 := by
        rw [hs'.state]
        cases makeRoom buffer <;> rfl
      simp only [toDo, hone, hs'.channel, hcons, List.length_cons]
      omega
  | snapshot u rest _ hstate _ hcons _ hs' =>
      simp only [toDo, hs'.channel, hs'.state, hstate, hcons, List.length_cons]
      omega
  | paused first others _ hstate _ hnil _ hs' =>
      simp only [toDo, hs'.channel, hs'.state, hstate, hnil]
      omega
  | idle _ hstate hnil _ hs' =>
      refine Or.inr ?_
      rcases hstate with ⟨hbuffering, _⟩ | ⟨lastSeq, n, hlive⟩
      · simp [toDo, hs'.channel, hs'.state, hbuffering]
      · simp [toDo, hs'.channel, hs'.state, hlive]
  | left _ _ _ hclosed _ =>
      rw [hopen] at hclosed
      cases hclosed
  | fetched first others _ hstate _ hs' =>
      simp only [toDo, hs'.channel, hs'.state, hstate]
      omega
  | stuck first others _ hstate hdelta _ =>
      obtain ⟨hsnap, _⟩ := h.snapshot first others hstate
      rw [hsnap] at hdelta
      cases hdelta
  | gap lastSeq n u rest _ hstate hcons _ hs' =>
      simp only [toDo, hs'.channel, hs'.state, hstate, hcons, List.length_cons]
      omega
  | applied lastSeq n u rest _ published hstate hcons _ _ hs' =>
      simp only [toDo, hs'.channel, hs'.state, hstate, hcons, List.length_cons]
      omega
  | backoff reason _ hstate hs' =>
      simp only [toDo, hs'.channel, hs'.state, hstate]
      omega

/-- **Enough iterations leave nothing to do.** -/
theorem toDo_run {snap : OrderBookUpdate} {s : Loop} {n : Nat} (h : PrimedState s) (hrunning : s.running = true)
    (hopen : s.closed = false) (hn : toDo s ≤ n)
    (hguard : Machine.Guarded loopStep (Receptive snap) s (List.replicate n (.iterate false))) :
    toDo (Machine.run loopStep s (List.replicate n (.iterate false))).1 = 0 := by
  induction n generalizing s with
  | zero => simpa using hn
  | succ n ih =>
      obtain ⟨hreceptive, hguard⟩ := hguard
      rw [List.replicate_succ, Machine.run_cons]
      have hprimed := h.step hreceptive.primed
      have hless := toDo_iterate h hrunning hopen
      rw [loopStep_iterate hrunning] at hprimed hless hguard ⊢
      obtain ⟨hopen', hrunning', _⟩ := (turn_iterate h.steady false).channel_cases hopen
      apply ih hprimed (hrunning'.trans hrunning) hopen' _ hguard
      omega

theorem channel_of_toDo {s : Loop} (h : toDo s = 0) : s.channel = [] := by
  unfold toDo at h
  exact List.length_eq_zero_iff.mp (by omega)

/-- A loop whose channel stays open runs on. -/
theorem running_of_open (symbol : String) (exchange : Exchange) {es : List Event} (hes : ∀ e ∈ es, e ≠ .close) :
    (after symbol exchange es).running = true ∧ (after symbol exchange es).closed = false := by
  induction es using List.reverseRecOn with
  | nil => exact ⟨rfl, rfl⟩
  | append_singleton es e ih =>
      obtain ⟨hrunning, hopen⟩ := ih fun x hx => hes x (List.mem_append_left _ hx)
      rw [after_snoc]
      cases e with
      | send u =>
          rw [loopStep_send hopen]
          exact ⟨hrunning, hopen⟩
      | close => exact absurd rfl (hes .close (by simp))
      | iterate expired =>
          rw [loopStep_iterate hrunning]
          obtain ⟨hopen', hrunning', _⟩ :=
            (turn_iterate (steady_after symbol exchange es) expired).channel_cases hopen
          exact ⟨hrunning'.trans hrunning, hopen'⟩

/-! ## Recovery -/

theorem sends_append (es es' : List Event) : sends (es ++ es') = sends es ++ sends es' := List.filterMap_append

theorem sends_replicate (n : Nat) (expired : Bool) : sends (List.replicate n (.iterate expired)) = [] := by
  induction n with
  | zero => rfl
  | succ n ih => rw [List.replicate_succ, sends_iterate, ih]

/-- **The builder recovers at the next snapshot.** From a gap on, whatever arrives and however the iterations
    fall, as long as the builder stays receptive: once what has arrived is worked off, it is live at the end of
    the updates behind the snapshot, and its book is the snapshot with these merged in. -/
theorem recovers_at_next_snapshot {symbol : String} {exchange : Exchange} {es later : List Event}
    {snap : OrderBookUpdate} {pre post : List OrderBookUpdate} {n : Nat}
    (hgap : GapDetected (after symbol exchange es)) (hopen : ∀ e ∈ es ++ later, e ≠ .close)
    (harrivals : (after symbol exchange es).channel ++ sends later = pre ++ snap :: post)
    (hsnap : snap.isSnapshot = true) (hpost : Contiguous snap.updateId post)
    (hguard : Machine.Guarded loopStep (Receptive snap) (after symbol exchange es)
      (later ++ List.replicate n (.iterate false)))
    (hn : toDo (after symbol exchange (es ++ later)) ≤ n) :
    (∃ updatesSinceSync, (after symbol exchange (es ++ later ++ List.replicate n (.iterate false))).builder.state
        = .live (lastId snap.updateId post) updatesSinceSync) ∧
      BuiltFrom snap post
        (after symbol exchange (es ++ later ++ List.replicate n (.iterate false))).builder.orderbook ∧
      ∀ grid, (∀ u ∈ snap :: post, WellFormed grid u) →
        SnapshotPlus grid (after symbol exchange (es ++ later ++ List.replicate n (.iterate false))).builder.orderbook
          snap post := by
  obtain ⟨hrunning, hopen₀⟩ := running_of_open symbol exchange fun e he => hopen e (List.mem_append_left _ he)
  obtain ⟨hlater, hiterations⟩ := Machine.guarded_append.mp hguard
  -- nothing is left to do at the end
  have hprimed : PrimedState (after symbol exchange es) := by
    obtain ⟨expected, actual, hstate⟩ := hgap
    exact ⟨steady_after symbol exchange es, by simp [hstate]⟩
  have hprimed' : PrimedState (after symbol exchange (es ++ later)) := by
    rw [after_append]
    exact hlater.invariant (fun _ _ hs he => hs.step he.primed) hprimed
  obtain ⟨hrunning', hopen'⟩ := running_of_open symbol exchange hopen
  rw [← after_append] at hiterations
  have hdone := toDo_run hprimed' hrunning' hopen' hn hiterations
  rw [← after_append] at hdone
  -- so the snapshot has been received, and everything behind it
  have harrivals' : (after symbol exchange es).channel ++ sends (later ++ List.replicate n (.iterate false))
      = pre ++ snap :: post := by
    rw [sends_append, sends_replicate, List.append_nil, harrivals]
  have hes : ∀ e ∈ later ++ List.replicate n (.iterate false), e ≠ .close := by
    intro e he
    rcases List.mem_append.mp he with he | he
    · exact hopen e (List.mem_append_right _ he)
    · rw [List.eq_of_mem_replicate he]
      simp
  rw [List.append_assoc, after_append] at hdone ⊢
  have hrec : Recovering snap post _ := recovering_of_drained (steady_after symbol exchange es) hrunning hopen₀
    hsnap hes harrivals' hpost hguard (channel_of_toDo hdone)
  rcases hrec.phase with ⟨hfetching, _⟩ | ⟨hlive, hbuilt⟩
  · simp [toDo, hfetching] at hdone
  · exact ⟨hlive, hbuilt, fun grid hwf => hbuilt.snapshotPlus hsnap hpost.deltas hwf⟩

/-- Live at 10, then an update that does not follow. -/
def gapRun : List Event :=
  [.send (levelUpdate true 10 ⟨100, 1⟩ ⟨101, 1⟩), .iterate false, .iterate false,
    .send (levelUpdate false 15 ⟨100, 2⟩ ⟨101, 2⟩), .iterate false]

/-- A snapshot and the update behind it, and nothing else. -/
def snapshotNext : List Event :=
  [.iterate false, .send (levelUpdate true 20 ⟨100, 1⟩ ⟨101, 1⟩), .iterate false,
    .send (levelUpdate false 21 ⟨100, 3⟩ ⟨101, 3⟩)]

/-- Not buffering, or with an empty buffer. -/
def nothingBuffered : OrderBookState → Bool
  | .buffering buffer => buffer.isEmpty
  | _                 => true

theorem receptive_of_nothingBuffered {snap : OrderBookUpdate} {s : Loop} {e : Event}
    (h : nothingBuffered s.builder.state = true) : Receptive snap s e := by
  have hempty : ∀ buffer, s.builder.state = .buffering buffer → buffer = [] := by
    intro buffer hstate
    rw [hstate] at h
    exact List.isEmpty_iff.mp h
  cases e with
  | iterate expired =>
      refine ⟨?_, fun buffer _ hstate _ _ => hempty buffer hstate⟩
      intro first others _ hstate _ _ _
      cases hempty _ hstate
  | send u => exact ⟨trivial, trivial⟩
  | close => exact ⟨trivial, trivial⟩

theorem snapshotNext_recovers :
    ∃ updatesSinceSync, (after "BTCUSDT" .binance
      (gapRun ++ snapshotNext ++ List.replicate 4 (.iterate false))).builder.state = .live 21 updatesSinceSync := by
  have hgap : GapDetected (after "BTCUSDT" .binance gapRun) := ⟨11, 15, by decide +kernel⟩
  have hopen : ∀ e ∈ gapRun ++ snapshotNext, e ≠ .close := by simp [gapRun, snapshotNext]
  have harrivals : (after "BTCUSDT" .binance gapRun).channel ++ sends snapshotNext
      = [] ++ levelUpdate true 20 ⟨100, 1⟩ ⟨101, 1⟩ :: [levelUpdate false 21 ⟨100, 3⟩ ⟨101, 3⟩] := by decide +kernel
  have hpost : Contiguous 20 [levelUpdate false 21 ⟨100, 3⟩ ⟨101, 3⟩] := ⟨⟨rfl, Or.inr rfl⟩, trivial⟩
  have hnothing : Machine.Guarded loopStep (fun s _ => nothingBuffered s.builder.state = true)
      (after "BTCUSDT" .binance gapRun) (snapshotNext ++ List.replicate 4 (.iterate false)) := by decide +kernel
  have hguard : Machine.Guarded loopStep (Receptive (levelUpdate true 20 ⟨100, 1⟩ ⟨101, 1⟩)) _ _ :=
    hnothing.imp fun _ _ h => receptive_of_nothingBuffered h
  exact (recovers_at_next_snapshot hgap hopen harrivals rfl hpost hguard (by decide +kernel)).1

/-- A delta at the front is there for good, whatever comes. -/
theorem stuck_forever {s : Loop} {first : OrderBookUpdate} {others : List OrderBookUpdate}
    (hstate : s.builder.state = .fetchingSnapshot (first :: others) 1) (hdelta : first.isSnapshot = false)
    (es : List Event) : (Machine.run loopStep s es).1.builder.state = .fetchingSnapshot (first :: others) 1 := by
  apply @Machine.run_invariant _ _ _ loopStep
    (fun s => s.builder.state = .fetchingSnapshot (first :: others) 1) _ _ hstate
  intro t e ht
  have hsteady : Steady t.builder.state := ht ▸ .fetching first others
  rcases loopStep_cases hsteady e with ⟨expired, _, _, hturn⟩ | ⟨hbuilder, _⟩
  · exact (hturn.of_delta ht hdelta).1.state.trans ht
  · rw [hbuilder, ht]

/-- A delta, then the snapshot, then a pause. -/
def deltaThenSnapshot : List Event :=
  [.iterate false, .send (levelUpdate false 16 ⟨100, 2⟩ ⟨101, 2⟩), .iterate false,
    .send (levelUpdate true 20 ⟨100, 1⟩ ⟨101, 1⟩), .iterate false, .iterate false]

/-- **A snapshot behind a delta** is received and not applied, and the builder stays where it is whatever comes. -/
theorem delta_before_snapshot_sticks :
    GapDetected (after "BTCUSDT" .binance gapRun) ∧
    (after "BTCUSDT" .binance gapRun).channel ++ sends deltaThenSnapshot
      = [levelUpdate false 16 ⟨100, 2⟩ ⟨101, 2⟩, levelUpdate true 20 ⟨100, 1⟩ ⟨101, 1⟩] ∧
    appliedUpdates (effects "BTCUSDT" .binance (gapRun ++ deltaThenSnapshot))
      = appliedUpdates (effects "BTCUSDT" .binance gapRun) ∧
    ∀ rest, (after "BTCUSDT" .binance (gapRun ++ deltaThenSnapshot ++ rest)).builder.state
      = .fetchingSnapshot [levelUpdate false 16 ⟨100, 2⟩ ⟨101, 2⟩, levelUpdate true 20 ⟨100, 1⟩ ⟨101, 1⟩] 1 := by
  have hstate : (after "BTCUSDT" .binance (gapRun ++ deltaThenSnapshot)).builder.state
      = .fetchingSnapshot [levelUpdate false 16 ⟨100, 2⟩ ⟨101, 2⟩, levelUpdate true 20 ⟨100, 1⟩ ⟨101, 1⟩] 1 := by
    decide +kernel
  refine ⟨⟨11, 15, by decide +kernel⟩, by decide +kernel, by decide +kernel, ?_⟩
  intro rest
  rw [after_append]
  exact stuck_forever hstate rfl rest

end Builder
end TradingPlatform
