import TradingPlatform.Builder.Turn
import Mathlib.Data.List.Infix

/-!
# `Builder.Progress` — when fetching a snapshot ends

In `FetchingSnapshot` the first buffered update is taken for the snapshot. If it is none, an iteration changes
nothing, awaits nothing and does not count an attempt: the loop spins. Such a buffer comes from a pause over a
buffer that starts with a delta, and from nothing else (`never_spins_iff`).
-/

namespace TradingPlatform
namespace Builder

open Market OrderBookBuilder

/-! ## Progress -/

def Fetching (s : Loop) : Prop :=
  ∃ bufferedUpdates attempt, s.builder.state = .fetchingSnapshot bufferedUpdates attempt

/-- One iteration changes the state (a higher attempt is another state) or takes an update from the channel. -/
def Advances (s : Loop) (expired : Bool) : Prop :=
  (loopStep s (.iterate expired)).1.builder.state ≠ s.builder.state ∨
    (loopStep s (.iterate expired)).1.channel.length < s.channel.length

def Event.isIterate : Event → Bool
  | .iterate _ => true
  | _          => false

/-- Within so many iterations from here, whatever else happens, an update is received or fetching is over. -/
def IdlesAtMost (s : Loop) (n : Nat) : Prop :=
  ∀ later, n ≤ later.countP Event.isIterate → ∃ now, now <+: later ∧
    (¬ Fetching (Machine.run loopStep s now).1 ∨ ∃ u, Effect.received u ∈ (Machine.run loopStep s now).2)

/-- **The run never spins**: while fetching every iteration advances, and only finitely many pass without
    receiving an update or leaving. -/
def NeverSpins (symbol : String) (exchange : Exchange) (es : List Event) : Prop :=
  ∀ earlier, earlier <+: es →
    (Fetching (after symbol exchange earlier) → ∀ expired, Advances (after symbol exchange earlier) expired) ∧
    ∃ n, IdlesAtMost (after symbol exchange earlier) n

/-- A pause does not meet a buffer that starts with a delta. -/
def Primed (s : Loop) : Event → Prop
  | .iterate expired =>
      ∀ first others, s.running = true → s.builder.state = .buffering (first :: others) → expired = false →
        s.channel = [] → s.closed = false → first.isSnapshot = true
  | _ => True

/-! ## Turns of a fetching state -/

/-- A snapshot at the front makes the state live. -/
theorem Turn.of_snapshot {s s' : Loop} {expired : Bool} {out : List Effect} (h : Turn s expired s' out)
    {first : OrderBookUpdate} {others : List OrderBookUpdate}
    (hstate : s.builder.state = .fetchingSnapshot (first :: others) 1) (hsnap : first.isSnapshot = true) :
    s'.builder.state = .live first.updateId 1 := by
  cases h with
  | fetched first' others' _ hstate' _ hs' =>
      obtain rfl := first_of_fetching (hstate.symm.trans hstate')
      exact hs'.state
  | stuck first' others' _ hstate' hsnap' _ =>
      obtain rfl := first_of_fetching (hstate.symm.trans hstate')
      rw [hsnap] at hsnap'
      cases hsnap'
  | left _ hawaits _ _ _ => simp [awaits, hstate] at hawaits
  | _ => simp_all

/-- A delta at the front leaves everything as it is. -/
theorem Turn.of_delta {s s' : Loop} {expired : Bool} {out : List Effect} (h : Turn s expired s' out)
    {first : OrderBookUpdate} {others : List OrderBookUpdate}
    (hstate : s.builder.state = .fetchingSnapshot (first :: others) 1) (hdelta : first.isSnapshot = false) :
    Becomes s s' s.builder.state s.builder.orderbook s.channel ∧ out = [] := by
  cases h with
  | fetched first' others' _ hstate' hsnap' _ =>
      obtain rfl := first_of_fetching (hstate.symm.trans hstate')
      rw [hdelta] at hsnap'
      cases hsnap'
  | stuck _ _ _ _ _ hs' => exact ⟨hs', rfl⟩
  | left _ hawaits _ _ _ => simp [awaits, hstate] at hawaits
  | _ => simp_all

/-- A pause over a buffer leads to fetching it. -/
theorem Turn.of_pause {s s' : Loop} {out : List Effect} (h : Turn s false s' out) {first : OrderBookUpdate}
    {others : List OrderBookUpdate} (hstate : s.builder.state = .buffering (first :: others))
    (hchannel : s.channel = []) (hopen : s.closed = false) :
    s'.builder.state = .fetchingSnapshot (first :: others) 1 ∧ s'.running = s.running := by
  cases h with
  | paused first' others' _ hstate' _ _ _ hs' =>
      rw [hstate] at hstate'
      rw [OrderBookState.buffering.inj hstate']
      exact ⟨hs'.state, hs'.running⟩
  | _ => simp_all

/-! ## The invariant of a primed run -/

/-- While fetching, the loop is running and a snapshot stands at the front. -/
structure PrimedState (s : Loop) : Prop where
  steady   : Steady s.builder.state
  snapshot : ∀ first others, s.builder.state = .fetchingSnapshot (first :: others) 1 →
    first.isSnapshot = true ∧ s.running = true

theorem primedState_start (symbol : String) (exchange : Exchange) : PrimedState (.start symbol exchange) where
  steady   := .buffering []
  snapshot := by simp [Loop.start]

theorem PrimedState.step {s : Loop} {e : Event} (h : PrimedState s) (hprimed : Primed s e) :
    PrimedState (loopStep s e).1 := by
  refine ⟨steady_loopStep h.steady e, ?_⟩
  intro first others hfetching
  rcases loopStep_cases h.steady e with ⟨expired, rfl, hrunning, hturn⟩ | ⟨hbuilder, hrunning, _⟩
  · generalize (loopStep s (.iterate expired)).1 = s' at hturn hfetching
    generalize (loopStep s (.iterate expired)).2 = out at hturn
    cases hturn with
    | snapshot u rest _ _ _ _ hsnap hs' =>
        obtain rfl := first_of_fetching (hs'.state.symm.trans hfetching)
        exact ⟨hsnap, hs'.running.trans hrunning⟩
    | paused first' others' _ hstate hexpired hchannel hopen hs' =>
        obtain rfl := first_of_fetching (hs'.state.symm.trans hfetching)
        exact ⟨hprimed _ _ hrunning hstate hexpired hchannel hopen, hs'.running.trans hrunning⟩
    | left _ hawaits _ _ hs' =>
        subst hs'
        simp [awaits, show s.builder.state = _ from hfetching] at hawaits
    | stuck first' others' _ _ _ hs' =>
        obtain ⟨hsnap, hrun⟩ := h.snapshot first others (hs'.state ▸ hfetching)
        exact ⟨hsnap, hs'.running.trans hrun⟩
    | idle _ _ _ _ hs' =>
        obtain ⟨hsnap, hrun⟩ := h.snapshot first others (hs'.state ▸ hfetching)
        exact ⟨hsnap, hs'.running.trans hrun⟩
    | timeout _ _ _ _ hs' => simp [hs'.state] at hfetching
    | buffered _ _ _ _ _ _ _ _ hs' => simp [hs'.state] at hfetching
    | fetched _ _ _ _ _ hs' => simp [hs'.state] at hfetching
    | gap _ _ _ _ _ _ _ _ hs' => simp [hs'.state] at hfetching
    | applied _ _ _ _ _ _ _ _ _ _ hs' => simp [hs'.state] at hfetching
    | backoff _ _ _ hs' => simp [hs'.state] at hfetching
  · rw [hbuilder] at hfetching
    obtain ⟨hsnap, hrun⟩ := h.snapshot first others hfetching
    exact ⟨hsnap, hrunning.trans hrun⟩

/-- A primed state that is fetching goes live with the next iteration. -/
theorem PrimedState.leaves {s : Loop} (h : PrimedState s) (hfetching : Fetching s) (expired : Bool) :
    ∃ lastSeq n, (loopStep s (.iterate expired)).1.builder.state = .live lastSeq n := by
  obtain ⟨bufferedUpdates, attempt, hstate⟩ := hfetching
  have hsteady := h.steady
  rw [hstate] at hsteady
  cases hsteady with
  | fetching first others =>
      obtain ⟨hsnap, hrunning⟩ := h.snapshot first others hstate
      rw [loopStep_iterate hrunning]
      exact ⟨_, _, (turn_iterate h.steady expired).of_snapshot hstate hsnap⟩

/-- An event that is no iteration is no pause. -/
theorem primed_of_quiet {s : Loop} {e : Event} (h : e.isIterate = false) : Primed s e := by
  cases e with
  | iterate expired => cases h
  | send u => trivial
  | close => trivial

theorem PrimedState.idlesAtMost {s : Loop} (h : PrimedState s) : IdlesAtMost s 1 := by
  intro later
  induction later generalizing s with
  | nil => intro hcount; simp at hcount
  | cons e later ih =>
      intro hcount
      by_cases hfetching : Fetching s
      · cases hquiet : e.isIterate with
        | true =>
            -- the first iteration ends it
            cases e with
            | iterate expired =>
                refine ⟨[.iterate expired], by simp, Or.inl ?_⟩
                obtain ⟨lastSeq, n, hlive⟩ := h.leaves hfetching expired
                rintro ⟨bufferedUpdates, attempt, hstill⟩
                rw [Machine.run_cons, Machine.run_nil, hlive] at hstill
                cases hstill
            | send u => cases hquiet
            | close => cases hquiet
        | false =>
            rw [List.countP_cons_of_neg (by simp [hquiet])] at hcount
            obtain ⟨now, hnow, hdone⟩ := ih (h.step (primed_of_quiet hquiet)) hcount
            refine ⟨e :: now, by simpa using hnow, ?_⟩
            rw [Machine.run_cons]
            refine hdone.imp id ?_
            rintro ⟨x, hx⟩
            exact ⟨x, List.mem_append_right _ hx⟩
      · exact ⟨[], by simp, Or.inl hfetching⟩

/-! ## When a run spins -/

/-- With a delta at the front no iteration advances. -/
theorem not_advances {s : Loop} {first : OrderBookUpdate} {others : List OrderBookUpdate}
    (hstate : s.builder.state = .fetchingSnapshot (first :: others) 1) (hdelta : first.isSnapshot = false)
    (expired : Bool) : ¬ Advances s expired := by
  have hsame : (loopStep s (.iterate expired)).1.builder.state = s.builder.state ∧
      (loopStep s (.iterate expired)).1.channel = s.channel := by
    cases hrunning : s.running with
    | true =>
        have hsteady : Steady s.builder.state := hstate ▸ .fetching first others
        rw [loopStep_iterate hrunning]
        obtain ⟨hs', _⟩ := (turn_iterate hsteady expired).of_delta hstate hdelta
        exact ⟨hs'.state, hs'.channel⟩
    | false =>
        rw [loopStep_stopped hrunning]
        exact ⟨rfl, rfl⟩
  rintro (hstate' | hchannel)
  · exact hstate' hsame.1
  · rw [hsame.2] at hchannel
    exact Nat.lt_irrefl _ hchannel

/-- A run that does not spin never pauses over a buffer that starts with a delta. -/
theorem primed_of_neverSpins {symbol : String} {exchange : Exchange} {es : List Event}
    (h : NeverSpins symbol exchange es) : Machine.Guarded loopStep Primed (.start symbol exchange) es := by
  induction es using List.reverseRecOn with
  | nil => trivial
  | append_singleton es e ih =>
      apply Machine.guarded_append.mpr
      refine ⟨ih fun earlier hearlier => h earlier (hearlier.trans (List.prefix_append es [e])), ?_, trivial⟩
      show Primed (after symbol exchange es) e
      cases e with
      | send u => trivial
      | close => trivial
      | iterate expired =>
          intro first others hrunning hstate hexpired hchannel hopen
          subst hexpired
          by_contra hdelta
          have hturn := turn_iterate (steady_after symbol exchange es) false
          obtain ⟨hfetching, _⟩ := hturn.of_pause hstate hchannel hopen
          rw [← loopStep_iterate hrunning, ← after_snoc] at hfetching
          have hadvances := (h _ List.prefix_rfl).1 ⟨_, _, hfetching⟩ false
          exact not_advances hfetching (Bool.eq_false_iff.mpr hdelta) false hadvances

/-- **A run never spins exactly when no pause meets a buffer that starts with a delta.** -/
theorem never_spins_iff (symbol : String) (exchange : Exchange) (es : List Event) :
    NeverSpins symbol exchange es ↔ Machine.Guarded loopStep Primed (.start symbol exchange) es := by
  constructor
  · exact primed_of_neverSpins
  · rintro hguard earlier ⟨later, rfl⟩
    have hprimed : PrimedState (after symbol exchange earlier) :=
      (Machine.guarded_append.mp hguard).1.invariant (fun _ _ hs he => hs.step he)
        (primedState_start symbol exchange)
    refine ⟨?_, 1, hprimed.idlesAtMost⟩
    intro hfetching expired
    obtain ⟨lastSeq, n, hlive⟩ := hprimed.leaves hfetching expired
    obtain ⟨bufferedUpdates, attempt, hstate⟩ := hfetching
    refine Or.inl ?_
    rw [hlive, hstate]
    simp

/-- A delta that no snapshot comes before, and a pause. -/
def deltaThenPause : List Event := [.send default, .iterate false, .iterate false]

/-- **One delta and a pause.** From then on no iteration advances. -/
theorem delta_then_pause_spins :
    (after "BTCUSDT" .binance deltaThenPause).builder.state = .fetchingSnapshot [default] 1 ∧
    ¬ NeverSpins "BTCUSDT" .binance deltaThenPause := by
  have hstate : (after "BTCUSDT" .binance deltaThenPause).builder.state = .fetchingSnapshot [default] 1 := by decide
  refine ⟨hstate, ?_⟩
  intro h
  exact not_advances hstate rfl false ((h _ List.prefix_rfl).1 ⟨_, _, hstate⟩ false)

end Builder
end TradingPlatform
