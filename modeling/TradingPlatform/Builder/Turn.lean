import TradingPlatform.Builder.Builder

/-!
# `Builder.Turn` — what one iteration of the builder's loop can do

`trigger_resync` and `fetch_snapshot` always write attempt 1, so a run meets four states only (`Steady`). From
these, `Turn` lists all an iteration can do, with the conditions under which it does it; `turn_iterate` is the
only place where the iteration is unfolded.
-/

namespace TradingPlatform
namespace Builder

open Market OrderBookBuilder

/-- The states of a run. -/
inductive Steady : OrderBookState → Prop where
  | buffering (buffer : List OrderBookUpdate) : Steady (.buffering buffer)
  | fetching (first : OrderBookUpdate) (rest : List OrderBookUpdate) : Steady (.fetchingSnapshot (first :: rest) 1)
  | live (lastSeq updatesSinceSync : Nat) : Steady (.live lastSeq updatesSinceSync)
  | resyncing (reason : ResyncReason) : Steady (.resyncing reason 1)

/-- The update is applied to a live book: a snapshot, or the next one. -/
def Follows (lastSeq : Nat) (u : OrderBookUpdate) : Prop :=
  u.isSnapshot = true ∨ u.updateId = lastSeq + 1 ∨ (u.firstUpdateId > 0 ∧ u.firstUpdateId = lastSeq + 1)

/-- The loop goes on, with this state, book and channel. -/
structure Becomes (s s' : Loop) (state : OrderBookState) (orderbook : OrderBook) (channel : List OrderBookUpdate) :
    Prop where
  state     : s'.builder.state = state
  orderbook : s'.builder.orderbook = orderbook
  channel   : s'.channel = channel
  closed    : s'.closed = s.closed
  running   : s'.running = s.running

/-- One iteration. -/
inductive Turn (s : Loop) (expired : Bool) : Loop → List Effect → Prop where
  /-- The buffering phase has expired. -/
  | timeout (buffer : List OrderBookUpdate) (s' : Loop) (hstate : s.builder.state = .buffering buffer)
      (hexpired : expired = true)
      (hs' : Becomes s s' (.resyncing .timeout 1) s.builder.orderbook s.channel) :
      Turn s expired s' [.resync .timeout]
  /-- An update joins the buffer. -/
  | buffered (buffer : List OrderBookUpdate) (u : OrderBookUpdate) (rest : List OrderBookUpdate) (s' : Loop)
      (hstate : s.builder.state = .buffering buffer) (hexpired : expired = false) (hchannel : s.channel = u :: rest)
      (hnot : ¬ (buffer = [] ∧ u.isSnapshot = true))
      (hs' : Becomes s s' (.buffering (makeRoom buffer ++ [u])) s.builder.orderbook rest) :
      Turn s expired s' [.received u]
  /-- A snapshot meets an empty buffer. -/
  | snapshot (u : OrderBookUpdate) (rest : List OrderBookUpdate) (s' : Loop)
      (hstate : s.builder.state = .buffering []) (hexpired : expired = false) (hchannel : s.channel = u :: rest)
      (hsnap : u.isSnapshot = true)
      (hs' : Becomes s s' (.fetchingSnapshot [u] 1) s.builder.orderbook rest) :
      Turn s expired s' [.received u, .fetch]
  /-- A pause with something in the buffer. -/
  | paused (first : OrderBookUpdate) (others : List OrderBookUpdate) (s' : Loop)
      (hstate : s.builder.state = .buffering (first :: others)) (hexpired : expired = false)
      (hchannel : s.channel = []) (hopen : s.closed = false)
      (hs' : Becomes s s' (.fetchingSnapshot (first :: others) 1) s.builder.orderbook []) :
      Turn s expired s' [.fetch]
  /-- A pause with an empty buffer, or `recv` still waiting. -/
  | idle (s' : Loop)
      (hstate : (s.builder.state = .buffering [] ∧ expired = false) ∨ ∃ lastSeq n, s.builder.state = .live lastSeq n)
      (hchannel : s.channel = []) (hopen : s.closed = false)
      (hs' : Becomes s s' s.builder.state s.builder.orderbook []) :
      Turn s expired s' []
  /-- The channel is closed and empty. -/
  | left (s' : Loop) (hawaits : s.builder.awaits expired = true) (hchannel : s.channel = []) (hclosed : s.closed = true)
      (hs' : s' = { s with running := false }) :
      Turn s expired s' []
  /-- The first buffered update is a snapshot. -/
  | fetched (first : OrderBookUpdate) (others : List OrderBookUpdate) (s' : Loop)
      (hstate : s.builder.state = .fetchingSnapshot (first :: others) 1) (hsnap : first.isSnapshot = true)
      (hs' : Becomes s s' (.live first.updateId 1) (applyUpdate s.builder.orderbook first) s.channel) :
      Turn s expired s' [.applied s.builder.state first]
  /-- The first buffered update is none: nothing happens. -/
  | stuck (first : OrderBookUpdate) (others : List OrderBookUpdate) (s' : Loop)
      (hstate : s.builder.state = .fetchingSnapshot (first :: others) 1) (hsnap : first.isSnapshot = false)
      (hs' : Becomes s s' s.builder.state s.builder.orderbook s.channel) :
      Turn s expired s' []
  /-- An update that does not follow. -/
  | gap (lastSeq n : Nat) (u : OrderBookUpdate) (rest : List OrderBookUpdate) (s' : Loop)
      (hstate : s.builder.state = .live lastSeq n) (hchannel : s.channel = u :: rest) (hnot : ¬ Follows lastSeq u)
      (hs' : Becomes s s' (.resyncing (.sequenceGap (lastSeq + 1) u.updateId) 1) s.builder.orderbook rest) :
      Turn s expired s' [.received u, .resync (.sequenceGap (lastSeq + 1) u.updateId)]
  /-- An update that follows. -/
  | applied (lastSeq n : Nat) (u : OrderBookUpdate) (rest : List OrderBookUpdate) (s' : Loop) (published : List Effect)
      (hstate : s.builder.state = .live lastSeq n) (hchannel : s.channel = u :: rest) (hfollows : Follows lastSeq u)
      (hpublished : ∀ e ∈ published, e = .published (applyUpdate s.builder.orderbook u))
      (hs' : Becomes s s' (.live u.updateId (n + 1)) (applyUpdate s.builder.orderbook u) rest) :
      Turn s expired s' (.received u :: .applied s.builder.state u :: published)
  /-- The backoff is over. -/
  | backoff (reason : ResyncReason) (s' : Loop) (hstate : s.builder.state = .resyncing reason 1)
      (hs' : Becomes s s' (.buffering []) s.builder.orderbook s.channel) :
      Turn s expired s' [.backoff resyncBackoffBase]

/-- A fetching state knows its first update. -/
theorem first_of_fetching {first first' : OrderBookUpdate} {others others' : List OrderBookUpdate}
    (h : OrderBookState.fetchingSnapshot (first :: others) 1 = .fetchingSnapshot (first' :: others') 1) :
    first = first' :=
  (List.cons.inj (OrderBookState.fetchingSnapshot.inj h).1).1

/-- A buffer with room made is empty only if it was. -/
theorem makeRoom_eq_nil {buffer : List OrderBookUpdate} : makeRoom buffer = [] ↔ buffer = [] := by
  unfold makeRoom
  split_ifs with hfull
  · -- dropping 100 of 10000 leaves something
    unfold maxBufferSize at hfull
    constructor
    · intro hnil
      have hlen := List.drop_eq_nil_iff.mp hnil
      omega
    · rintro rfl
      rfl
  · exact Iff.rfl

theorem not_follows_iff {lastSeq : Nat} {u : OrderBookUpdate} :
    (!u.isSnapshot && decide (u.updateId ≠ lastSeq + 1) && hasGap lastSeq u) = true ↔ ¬ Follows lastSeq u := by
  unfold hasGap Follows
  cases u.isSnapshot <;> split_ifs <;> simp_all

/-- The update is a snapshot and alone in the buffer. -/
theorem alone_iff (buffer : List OrderBookUpdate) (u : OrderBookUpdate) :
    (makeRoom buffer ++ [u]).length = 1 ∧ u.isSnapshot = true ↔ buffer = [] ∧ u.isSnapshot = true := by
  rw [← makeRoom_eq_nil, List.length_append, List.length_singleton, Nat.add_eq_right, List.length_eq_zero_iff]

/-- An iteration that takes an update from the channel. -/
theorem iterate_received {s : Loop} {expired : Bool} {u : OrderBookUpdate} {rest : List OrderBookUpdate}
    (hawaits : s.builder.awaits expired = true) (hchannel : s.channel = u :: rest) :
    s.iterate expired
      = ({ s with builder := (s.builder.handleUpdate u).1, channel := rest },
          .received u :: (s.builder.handleUpdate u).2) := by
  unfold Loop.iterate
  rw [if_pos hawaits, hchannel]

/-- An iteration that awaits an update and gets none. -/
theorem iterate_empty {s : Loop} {expired : Bool} (hawaits : s.builder.awaits expired = true)
    (hchannel : s.channel = []) (hopen : s.closed = false) :
    s.iterate expired = ({ s with builder := (s.builder.advance expired).1 }, (s.builder.advance expired).2) := by
  unfold Loop.iterate
  rw [if_pos hawaits, hchannel]
  simp [hopen]

theorem iterate_closed {s : Loop} {expired : Bool} (hawaits : s.builder.awaits expired = true)
    (hchannel : s.channel = []) (hclosed : s.closed = true) :
    s.iterate expired = ({ s with running := false }, []) := by
  unfold Loop.iterate
  rw [if_pos hawaits, hchannel]
  simp [hclosed]

/-- An iteration of a state that awaits nothing. -/
theorem iterate_advance {s : Loop} {expired : Bool} (hsteady : Steady s.builder.state)
    (hawaits : s.builder.awaits expired = false) :
    s.iterate expired = ({ s with builder := (s.builder.advance expired).1 }, (s.builder.advance expired).2) := by
  unfold Loop.iterate
  rw [if_neg (by simp [hawaits])]
  generalize s.builder.state = state at hsteady
  cases hsteady <;> rfl

section Handlers

variable {b : OrderBookBuilder}

theorem handleUpdate_buffering {buffer : List OrderBookUpdate} (h : b.state = .buffering buffer) (u : OrderBookUpdate) :
    b.handleUpdate u = b.handleBufferingUpdate u buffer := by
  unfold handleUpdate
  rw [h]

theorem handleUpdate_gap {lastSeq n : Nat} {u : OrderBookUpdate} (h : b.state = .live lastSeq n)
    (hnot : ¬ Follows lastSeq u) :
    b.handleUpdate u = b.triggerResync (.sequenceGap (lastSeq + 1) u.updateId) := by
  unfold handleUpdate
  rw [h]
  exact if_pos (not_follows_iff.mpr hnot)

theorem handleUpdate_follows {lastSeq n : Nat} {u : OrderBookUpdate} (h : b.state = .live lastSeq n)
    (hfollows : Follows lastSeq u) :
    b.handleUpdate u =
      ({ b with
          state := .live u.updateId (n + 1)
          orderbook := applyUpdate b.orderbook u
          stats := { b.stats with totalUpdates := b.stats.totalUpdates + 1 } },
        .applied b.state u :: if n % 100 = 0 then [.published (applyUpdate b.orderbook u)] else []) := by
  have hcond : ¬ (!u.isSnapshot && decide (u.updateId ≠ lastSeq + 1) && hasGap lastSeq u) = true := by
    rw [not_follows_iff, not_not]
    exact hfollows
  unfold handleUpdate
  rw [h]
  exact if_neg hcond

end Handlers

/-- **Every iteration from a steady state is one of these.** -/
theorem turn_iterate {s : Loop} (h : Steady s.builder.state) (expired : Bool) :
    Turn s expired (s.iterate expired).1 (s.iterate expired).2 := by
  generalize hstate : s.builder.state = state at h
  have hsteady : Steady s.builder.state := hstate ▸ h
  cases h with
  | buffering buffer =>
      cases expired with
      | true =>
          have hawaits : s.builder.awaits true = false := by simp [awaits, hstate]
          rw [iterate_advance hsteady hawaits]
          have hadvance : s.builder.advance true = s.builder.triggerResync .timeout := by simp [advance, hstate]
          rw [hadvance]
          exact .timeout buffer _ hstate rfl ⟨rfl, rfl, rfl, rfl, rfl⟩
      | false =>
          have hawaits : s.builder.awaits false = true := by simp [awaits, hstate]
          cases hchannel : s.channel with
          | cons u rest =>
              rw [iterate_received hawaits hchannel, handleUpdate_buffering hstate]
              unfold handleBufferingUpdate
              by_cases hfirst : buffer = [] ∧ u.isSnapshot = true
              · rw [if_pos ((alone_iff buffer u).mpr hfirst)]
                obtain ⟨rfl, hsnap⟩ := hfirst
                exact .snapshot u rest _ hstate rfl hchannel hsnap ⟨rfl, rfl, rfl, rfl, rfl⟩
              · rw [if_neg (mt (alone_iff buffer u).mp hfirst)]
                exact .buffered buffer u rest _ hstate rfl hchannel hfirst ⟨rfl, rfl, rfl, rfl, rfl⟩
          | nil =>
              cases hclosed : s.closed with
              | true =>
                  rw [iterate_closed hawaits hchannel hclosed]
                  exact .left _ hawaits hchannel hclosed rfl
              | false =>
                  rw [iterate_empty hawaits hchannel hclosed]
                  cases buffer with
                  | nil =>
                      have hadvance : s.builder.advance false = (s.builder, []) := by simp [advance, hstate]
                      rw [hadvance]
                      exact .idle _ (Or.inl ⟨hstate, rfl⟩) hchannel hclosed ⟨rfl, rfl, hchannel, rfl, rfl⟩
                  | cons first others =>
                      have hadvance : s.builder.advance false = s.builder.fetchSnapshot (first :: others) := by
                        simp [advance, hstate]
                      rw [hadvance]
                      exact .paused first others _ hstate rfl hchannel hclosed ⟨rfl, rfl, hchannel, rfl, rfl⟩
  | fetching first others =>
      have hawaits : s.builder.awaits expired = false := by simp [awaits, hstate]
      rw [iterate_advance hsteady hawaits]
      cases hsnap : first.isSnapshot with
      | true =>
          have hadvance : s.builder.advance expired
              = ({ s.builder with
                    state := .live first.updateId 1, orderbook := applyUpdate s.builder.orderbook first },
                  [.applied s.builder.state first]) := by
            simp [advance, hstate, hsnap, maxResyncAttempts]
          rw [hadvance]
          exact .fetched first others _ hstate hsnap ⟨rfl, rfl, rfl, rfl, rfl⟩
      | false =>
          have hadvance : s.builder.advance expired = (s.builder, []) := by
            simp [advance, hstate, hsnap, maxResyncAttempts]
          rw [hadvance]
          exact .stuck first others _ hstate hsnap ⟨rfl, rfl, rfl, rfl, rfl⟩
  | live lastSeq n =>
      have hawaits : s.builder.awaits expired = true := by simp [awaits, hstate]
      cases hchannel : s.channel with
      | cons u rest =>
          rw [iterate_received hawaits hchannel]
          by_cases hfollows : Follows lastSeq u
          · rw [handleUpdate_follows hstate hfollows]
            refine .applied lastSeq n u rest _ _ hstate hchannel hfollows ?_ ⟨rfl, rfl, rfl, rfl, rfl⟩
            intro e he
            split_ifs at he
            · exact List.mem_singleton.mp he
            · cases he
          · rw [handleUpdate_gap hstate hfollows]
            exact .gap lastSeq n u rest _ hstate hchannel hfollows ⟨rfl, rfl, rfl, rfl, rfl⟩
      | nil =>
          cases hclosed : s.closed with
          | true =>
              rw [iterate_closed hawaits hchannel hclosed]
              exact .left _ hawaits hchannel hclosed rfl
          | false =>
              rw [iterate_empty hawaits hchannel hclosed]
              have hadvance : s.builder.advance expired = (s.builder, []) := by simp [advance, hstate]
              rw [hadvance]
              exact .idle _ (Or.inr ⟨lastSeq, n, hstate⟩) hchannel hclosed ⟨rfl, rfl, hchannel, rfl, rfl⟩
  | resyncing reason =>
      have hawaits : s.builder.awaits expired = false := by simp [awaits, hstate]
      have hadvance : s.builder.advance expired
          = ({ s.builder with state := .buffering [] }, [.backoff resyncBackoffBase]) := by
        simp [advance, hstate, maxResyncAttempts]
      rw [iterate_advance hsteady hawaits, hadvance]
      exact .backoff reason _ hstate ⟨rfl, rfl, rfl, rfl, rfl⟩

/-- A turn ends in a steady state again. -/
theorem Turn.steady {s s' : Loop} {expired : Bool} {out : List Effect} (h : Turn s expired s' out)
    (hs : Steady s.builder.state) : Steady s'.builder.state := by
  cases h with
  | timeout buffer _ _ _ hs' => exact hs'.state ▸ .resyncing _
  | buffered buffer u rest _ _ _ _ _ hs' => exact hs'.state ▸ .buffering _
  | snapshot u rest _ _ _ _ _ hs' => exact hs'.state ▸ .fetching u []
  | paused first others _ _ _ _ _ hs' => exact hs'.state ▸ .fetching first others
  | idle _ _ _ _ hs' => exact hs'.state ▸ hs
  | left _ _ _ _ hs' => exact hs' ▸ hs
  | fetched first others _ _ _ hs' => exact hs'.state ▸ .live _ _
  | stuck first others _ _ _ hs' => exact hs'.state ▸ hs
  | gap lastSeq n u rest _ _ _ _ hs' => exact hs'.state ▸ .resyncing _
  | applied lastSeq n u rest _ _ _ _ _ _ hs' => exact hs'.state ▸ .live _ _
  | backoff reason _ _ hs' => exact hs'.state ▸ .buffering []

/-! ## What is received -/

def Effect.received? : Effect → Option OrderBookUpdate
  | .received u => some u
  | _           => none

/-- The updates taken from the channel, in order. -/
def receivedUpdates (out : List Effect) : List OrderBookUpdate := out.filterMap Effect.received?

/-- An iteration takes from the front of the channel, and nothing gets lost between. -/
theorem Turn.received {s s' : Loop} {expired : Bool} {out : List Effect} (h : Turn s expired s' out) :
    receivedUpdates out ++ s'.channel = s.channel := by
  cases h with
  | timeout _ _ _ _ hs' => exact hs'.channel
  | buffered _ u rest _ _ _ hchannel _ hs' => simp [receivedUpdates, Effect.received?, hs'.channel, hchannel]
  | snapshot u rest _ _ _ hchannel _ hs' => simp [receivedUpdates, Effect.received?, hs'.channel, hchannel]
  | paused _ _ _ _ _ hchannel _ hs' => exact hs'.channel.trans hchannel.symm
  | idle _ _ hchannel _ hs' => exact hs'.channel.trans hchannel.symm
  | left _ _ _ _ hs' => rw [hs']; rfl
  | fetched _ _ _ _ _ hs' => exact hs'.channel
  | stuck _ _ _ _ _ hs' => exact hs'.channel
  | gap _ _ u rest _ _ hchannel _ hs' => simp [receivedUpdates, Effect.received?, hs'.channel, hchannel]
  | applied _ _ u rest _ published _ hchannel _ hpublished hs' =>
      have hquiet : receivedUpdates published = [] := by
        apply List.filterMap_eq_nil_iff.mpr
        intro e he
        rw [hpublished e he]
        rfl
      have hout : receivedUpdates (.received u :: .applied s.builder.state u :: published) = [u] := by
        show u :: receivedUpdates published = [u]
        rw [hquiet]
      rw [hout, hs'.channel, hchannel, List.singleton_append]
  | backoff _ _ _ hs' => exact hs'.channel

/-- While the channel is open an iteration goes on, and takes nothing or the first update of the channel. -/
theorem Turn.channel_cases {s s' : Loop} {expired : Bool} {out : List Effect} (h : Turn s expired s' out)
    (hopen : s.closed = false) :
    s'.closed = false ∧ s'.running = s.running ∧
      (s'.channel = s.channel ∨ ∃ u rest, s.channel = u :: rest ∧ s'.channel = rest) := by
  cases h with
  | left _ _ _ hclosed _ =>
      rw [hopen] at hclosed
      cases hclosed
  | timeout _ _ _ _ hs' => exact ⟨hs'.closed.trans hopen, hs'.running, Or.inl hs'.channel⟩
  | buffered _ u rest _ _ _ hcons _ hs' =>
      exact ⟨hs'.closed.trans hopen, hs'.running, Or.inr ⟨u, rest, hcons, hs'.channel⟩⟩
  | snapshot u rest _ _ _ hcons _ hs' =>
      exact ⟨hs'.closed.trans hopen, hs'.running, Or.inr ⟨u, rest, hcons, hs'.channel⟩⟩
  | paused _ _ _ _ _ hnil _ hs' => exact ⟨hs'.closed.trans hopen, hs'.running, Or.inl (by rw [hs'.channel, hnil])⟩
  | idle _ _ hnil _ hs' => exact ⟨hs'.closed.trans hopen, hs'.running, Or.inl (by rw [hs'.channel, hnil])⟩
  | fetched _ _ _ _ _ hs' => exact ⟨hs'.closed.trans hopen, hs'.running, Or.inl hs'.channel⟩
  | stuck _ _ _ _ _ hs' => exact ⟨hs'.closed.trans hopen, hs'.running, Or.inl hs'.channel⟩
  | gap _ _ u rest _ _ hcons _ hs' =>
      exact ⟨hs'.closed.trans hopen, hs'.running, Or.inr ⟨u, rest, hcons, hs'.channel⟩⟩
  | applied _ _ u rest _ _ _ hcons _ _ hs' =>
      exact ⟨hs'.closed.trans hopen, hs'.running, Or.inr ⟨u, rest, hcons, hs'.channel⟩⟩
  | backoff _ _ _ hs' => exact ⟨hs'.closed.trans hopen, hs'.running, Or.inl hs'.channel⟩

/-! ## Runs -/

/-- The loop after a run, and what the run did. -/
def after (symbol : String) (exchange : Exchange) (es : List Event) : Loop :=
  (Machine.run loopStep (.start symbol exchange) es).1

def effects (symbol : String) (exchange : Exchange) (es : List Event) : List Effect :=
  (Machine.run loopStep (.start symbol exchange) es).2

theorem after_append (symbol : String) (exchange : Exchange) (es later : List Event) :
    after symbol exchange (es ++ later) = (Machine.run loopStep (after symbol exchange es) later).1 :=
  Machine.run_append_state ..

theorem after_snoc (symbol : String) (exchange : Exchange) (es : List Event) (e : Event) :
    after symbol exchange (es ++ [e]) = (loopStep (after symbol exchange es) e).1 := by
  unfold after
  rw [Machine.run_append_state, Machine.run_cons, Machine.run_nil]

theorem effects_snoc (symbol : String) (exchange : Exchange) (es : List Event) (e : Event) :
    effects symbol exchange (es ++ [e])
      = effects symbol exchange es ++ (loopStep (after symbol exchange es) e).2 := by
  unfold effects
  rw [Machine.run_append_outputs, Machine.run_cons, Machine.run_nil, List.append_nil]
  rfl

theorem loopStep_send {s : Loop} (hopen : s.closed = false) (u : OrderBookUpdate) :
    loopStep s (.send u) = ({ s with channel := s.channel ++ [u] }, []) := by
  simp [loopStep, hopen]

theorem loopStep_send_closed {s : Loop} (hclosed : s.closed = true) (u : OrderBookUpdate) :
    loopStep s (.send u) = (s, []) := by
  simp [loopStep, hclosed]

theorem loopStep_iterate {s : Loop} (hrunning : s.running = true) (expired : Bool) :
    loopStep s (.iterate expired) = s.iterate expired := by
  simp [loopStep, hrunning]

theorem loopStep_stopped {s : Loop} (hstopped : s.running = false) (expired : Bool) :
    loopStep s (.iterate expired) = (s, []) := by
  simp [loopStep, hstopped]

/-- One event: a turn, or a change of the channel's end. -/
theorem loopStep_cases {s : Loop} (hs : Steady s.builder.state) (e : Event) :
    (∃ expired, e = .iterate expired ∧ s.running = true ∧ Turn s expired (loopStep s e).1 (loopStep s e).2) ∨
      ((loopStep s e).1.builder = s.builder ∧ (loopStep s e).1.running = s.running ∧ (loopStep s e).2 = [] ∧
        ∀ u ∈ (loopStep s e).1.channel, u ∈ s.channel ∨ e = .send u) := by
  cases e with
  | send u =>
      refine Or.inr ?_
      cases hclosed : s.closed with
      | true =>
          rw [loopStep_send_closed hclosed]
          exact ⟨rfl, rfl, rfl, fun x hx => Or.inl hx⟩
      | false =>
          rw [loopStep_send hclosed]
          refine ⟨rfl, rfl, rfl, ?_⟩
          intro x hx
          rcases List.mem_append.mp hx with hx | hx
          · exact Or.inl hx
          · exact Or.inr (by rw [List.mem_singleton.mp hx])
  | close => exact Or.inr ⟨rfl, rfl, rfl, fun u hu => Or.inl hu⟩
  | iterate expired =>
      cases hrunning : s.running with
      | true =>
          rw [loopStep_iterate hrunning]
          exact Or.inl ⟨expired, rfl, rfl, turn_iterate hs expired⟩
      | false =>
          rw [loopStep_stopped hrunning]
          exact Or.inr ⟨rfl, hrunning, rfl, fun u hu => Or.inl hu⟩

/-- An event that is no iteration leaves the builder alone. -/
theorem loopStep_quiet {s : Loop} {e : Event} (h : ∀ expired, e ≠ .iterate expired) :
    (loopStep s e).1.builder = s.builder ∧ (loopStep s e).1.running = s.running ∧ (loopStep s e).2 = [] := by
  cases e with
  | send u =>
      cases hclosed : s.closed with
      | true => simp [loopStep_send_closed hclosed]
      | false => simp [loopStep_send hclosed]
  | close => exact ⟨rfl, rfl, rfl⟩
  | iterate expired => exact absurd rfl (h expired)

theorem steady_loopStep {s : Loop} (hs : Steady s.builder.state) (e : Event) :
    Steady (loopStep s e).1.builder.state := by
  rcases loopStep_cases hs e with ⟨expired, _, _, hturn⟩ | ⟨hbuilder, _⟩
  · exact hturn.steady hs
  · exact hbuilder ▸ hs

theorem steady_after (symbol : String) (exchange : Exchange) (es : List Event) :
    Steady (after symbol exchange es).builder.state := by
  have hstart : Steady (Loop.start symbol exchange).builder.state := .buffering []
  exact @Machine.run_invariant _ _ _ loopStep (fun s => Steady s.builder.state)
    (fun _ e hs => steady_loopStep hs e) _ hstart es

end Builder
end TradingPlatform
