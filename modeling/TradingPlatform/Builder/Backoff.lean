import TradingPlatform.Builder.Progress

/-!
# `Builder.Backoff` — how often a builder resynchronises in a row

The attempt is carried in the states, and `trigger_resync` and `fetch_snapshot` write 1 each time. So the error
state is never reached and every backoff is the base. A streak is what happened since a book was last live;
it is as short as the bound asks exactly when no buffering phase that follows a backoff expires
(`resync_bounded_iff`).
-/

namespace TradingPlatform
namespace Builder

open Market OrderBookBuilder

/-! ## Streaks -/

/-- The resynchronisations and the backoffs since the builder was last live. An applied update is what leads
    to a live state and keeps it. -/
structure Streak where
  resyncs  : Nat
  backoffs : List Nat
deriving DecidableEq

def Streak.step (streak : Streak) : Effect → Streak
  | .applied ..  => { resyncs := 0, backoffs := [] }
  | .resync _    => { streak with resyncs := streak.resyncs + 1 }
  | .fetch       => { streak with resyncs := streak.resyncs + 1 }
  | .backoff ms  => { streak with backoffs := streak.backoffs ++ [ms] }
  | .received _  => streak
  | .published _ => streak

def streakOf (out : List Effect) : Streak := out.foldl Streak.step { resyncs := 0, backoffs := [] }

@[simp] theorem streakOf_nil : streakOf [] = { resyncs := 0, backoffs := [] } := rfl

theorem streakOf_append (out new : List Effect) : streakOf (out ++ new) = new.foldl Streak.step (streakOf out) :=
  List.foldl_append

/-- `max_resync_attempts` in a row end in the error state, and the k-th backoff of a row is `k` times the base. -/
structure Bounded (s : Loop) (streak : Streak) : Prop where
  error    : maxResyncAttempts ≤ streak.resyncs → ∃ message canRetry, s.builder.state = .error message canRetry
  backoffs : ∀ k (h : k < streak.backoffs.length), streak.backoffs[k] = (k + 1) * resyncBackoffBase

/-- **Bounded resync**, at every moment of the run. -/
def BoundedResync (symbol : String) (exchange : Exchange) (es : List Event) : Prop :=
  ∀ earlier, earlier <+: es → Bounded (after symbol exchange earlier) (streakOf (effects symbol exchange earlier))

/-- No buffering phase expires that a backoff of the same streak has led to. -/
def NoSecondTimeout (symbol : String) (exchange : Exchange) (es : List Event) : Prop :=
  ∀ earlier, earlier ++ [.iterate true] <+: es → (after symbol exchange earlier).running = true →
    (∃ buffer, (after symbol exchange earlier).builder.state = .buffering buffer) →
    (streakOf (effects symbol exchange earlier)).backoffs = []

/-! ## The invariant of a streak -/

/-- How far the streak has come in each state, when no second timeout has happened. -/
def StreakFits (s : Loop) (streak : Streak) : Prop :=
  match s.builder.state with
  | .buffering _          => (streak.resyncs = 0 ∧ streak.backoffs = []) ∨
      (streak.resyncs = 1 ∧ streak.backoffs = [resyncBackoffBase])
  | .resyncing _ _        => streak.resyncs = 1 ∧ streak.backoffs = []
  | .fetchingSnapshot _ _ => streak.resyncs ≤ 2 ∧ (streak.backoffs = [] ∨ streak.backoffs = [resyncBackoffBase])
  | _                     => streak.resyncs = 0 ∧ streak.backoffs = []

theorem StreakFits.bounded {s : Loop} {streak : Streak} (h : StreakFits s streak) : Bounded s streak := by
  have hshort : streak.resyncs ≤ 2 ∧ (streak.backoffs = [] ∨ streak.backoffs = [resyncBackoffBase]) := by
    unfold StreakFits at h
    split at h <;> grind
  refine ⟨?_, ?_⟩
  · intro hmany
    have := hshort.1
    unfold maxResyncAttempts at hmany
    omega
  · intro k hk
    rcases hshort.2 with hnone | hone
    · simp [hnone] at hk
    · obtain rfl : k = 0 := by simpa [hone] using hk
      simp [hone]

/-- **One turn**, when a timeout is the first of its streak. -/
theorem StreakFits.turn {s s' : Loop} {expired : Bool} {streak : Streak} {new : List Effect} (h : StreakFits s streak)
    (hturn : Turn s expired s' new)
    (hfirst : expired = true → (∃ buffer, s.builder.state = .buffering buffer) → streak.backoffs = []) :
    StreakFits s' (new.foldl Streak.step streak) := by
  cases hturn with
  | timeout buffer _ hstate hexpired hs' =>
      have hnone := hfirst hexpired ⟨buffer, hstate⟩
      simp only [StreakFits, hstate] at h
      simp only [StreakFits, hs'.state, List.foldl_cons, List.foldl_nil, Streak.step]
      grind
  | buffered buffer u rest _ hstate _ _ _ hs' =>
      simpa only [StreakFits, hstate, hs'.state, List.foldl_cons, List.foldl_nil, Streak.step] using h
  | snapshot u rest _ hstate _ _ _ hs' =>
      simp only [StreakFits, hstate] at h
      simp only [StreakFits, hs'.state, List.foldl_cons, List.foldl_nil, Streak.step]
      grind
  | paused first others _ hstate _ _ _ hs' =>
      simp only [StreakFits, hstate] at h
      simp only [StreakFits, hs'.state, List.foldl_cons, List.foldl_nil, Streak.step]
      grind
  | idle _ _ _ _ hs' => simpa only [StreakFits, hs'.state, List.foldl_nil] using h
  | left _ _ _ _ hs' =>
      subst hs'
      exact h
  | fetched first others _ _ _ hs' => simp [StreakFits, hs'.state, Streak.step]
  | stuck first others _ _ _ hs' => simpa only [StreakFits, hs'.state, List.foldl_nil] using h
  | gap lastSeq n u rest _ hstate _ _ hs' =>
      simp only [StreakFits, hstate] at h
      simp only [StreakFits, hs'.state, List.foldl_cons, List.foldl_nil, Streak.step]
      grind
  | applied lastSeq n u rest _ published _ _ _ hpublished hs' =>
      have hquiet : ∀ streak : Streak, published.foldl Streak.step streak = streak := by
        intro streak
        clear hs'
        induction published with
        | nil => rfl
        | cons e es ih =>
            rw [List.foldl_cons, hpublished e List.mem_cons_self]
            exact ih fun x hx => hpublished x (List.mem_cons_of_mem _ hx)
      simp [StreakFits, hs'.state, Streak.step, hquiet]
  | backoff reason _ hstate hs' =>
      simp only [StreakFits, hstate] at h
      simp only [StreakFits, hs'.state, List.foldl_cons, List.foldl_nil, Streak.step]
      grind

theorem NoSecondTimeout.of_prefix {symbol : String} {exchange : Exchange} {es es' : List Event}
    (h : NoSecondTimeout symbol exchange es') (hes : es <+: es') : NoSecondTimeout symbol exchange es :=
  fun earlier hearlier => h earlier (hearlier.trans hes)

/-- **A run without a second timeout** keeps its streaks short. -/
theorem streakFits_run {symbol : String} {exchange : Exchange} {es : List Event}
    (h : NoSecondTimeout symbol exchange es) :
    StreakFits (after symbol exchange es) (streakOf (effects symbol exchange es)) := by
  induction es using List.reverseRecOn with
  | nil => exact Or.inl ⟨rfl, rfl⟩
  | append_singleton es e ih =>
      have hprev := ih (h.of_prefix (List.prefix_append es [e]))
      rw [after_snoc, effects_snoc, streakOf_append]
      rcases loopStep_cases (steady_after symbol exchange es) e with
        ⟨expired, rfl, hrunning, hturn⟩ | ⟨hbuilder, _, hout, _⟩
      · apply hprev.turn hturn
        rintro rfl hbuffering
        exact h es List.prefix_rfl hrunning hbuffering
      · rw [hout]
        unfold StreakFits at hprev ⊢
        rw [hbuilder]
        exact hprev

/-! ## A second timeout -/

theorem Turn.of_timeout {s s' : Loop} {out : List Effect} (h : Turn s true s' out) {buffer : List OrderBookUpdate}
    (hstate : s.builder.state = .buffering buffer) :
    s'.builder.state = .resyncing .timeout 1 ∧ s'.running = s.running ∧ out = [.resync .timeout] := by
  cases h with
  | timeout _ _ _ _ hs' => exact ⟨hs'.state, hs'.running, rfl⟩
  | left _ hawaits _ _ _ => simp [awaits, hstate] at hawaits
  | _ => simp_all

theorem Turn.of_resyncing {s s' : Loop} {expired : Bool} {out : List Effect} (h : Turn s expired s' out)
    {reason : ResyncReason} (hstate : s.builder.state = .resyncing reason 1) : out = [.backoff resyncBackoffBase] := by
  cases h with
  | backoff _ _ _ _ => rfl
  | left _ hawaits _ _ _ => simp [awaits, hstate] at hawaits
  | idle _ hidle _ _ _ => simp [hstate] at hidle
  | _ => simp_all

/-- A second backoff waits for the base again, and not for twice the base. -/
theorem second_backoff_unbounded {s : Loop} {streak : Streak} {reason : ResyncReason}
    (hstate : s.builder.state = .resyncing reason 1) (hrunning : s.running = true) (hbackoffs : streak.backoffs ≠ [])
    (expired : Bool) :
    ¬ Bounded (loopStep s (.iterate expired)).1 ((loopStep s (.iterate expired)).2.foldl Streak.step streak) := by
  intro hbounded
  have hsteady : Steady s.builder.state := hstate ▸ .resyncing reason
  have hout := (turn_iterate hsteady expired).of_resyncing hstate
  rw [loopStep_iterate hrunning, hout] at hbounded
  have hlast := hbounded.backoffs streak.backoffs.length (by simp [Streak.step])
  simp only [List.foldl_cons, List.foldl_nil, Streak.step, List.getElem_concat_length] at hlast
  have hpos := List.length_pos_of_ne_nil hbackoffs
  unfold resyncBackoffBase at hlast
  omega

/-- Whatever comes before the next iteration, the bound breaks with it. -/
theorem second_backoff_comes {s : Loop} {streak : Streak} {reason : ResyncReason}
    (hstate : s.builder.state = .resyncing reason 1) (hrunning : s.running = true) (hbackoffs : streak.backoffs ≠ [])
    (rest : List Event) :
    ∃ now, now <+: rest ++ [.iterate false] ∧
      ¬ Bounded (Machine.run loopStep s now).1 ((Machine.run loopStep s now).2.foldl Streak.step streak) := by
  induction rest generalizing s with
  | nil =>
      refine ⟨[.iterate false], List.prefix_rfl, ?_⟩
      rw [Machine.run_cons, Machine.run_nil, List.append_nil]
      exact second_backoff_unbounded hstate hrunning hbackoffs false
  | cons e rest ih =>
      by_cases hquiet : ∀ expired, e ≠ .iterate expired
      · obtain ⟨hbuilder, hrun, hout⟩ := loopStep_quiet (s := s) hquiet
        obtain ⟨now, hnow, hunbounded⟩ := ih (s := (loopStep s e).1) (hbuilder ▸ hstate) (hrun.trans hrunning)
        refine ⟨e :: now, by simpa using hnow, ?_⟩
        rw [Machine.run_cons, hout, List.nil_append]
        exact hunbounded
      · push Not at hquiet
        obtain ⟨expired, rfl⟩ := hquiet
        refine ⟨[.iterate expired], by simp, ?_⟩
        rw [Machine.run_cons, Machine.run_nil, List.append_nil]
        exact second_backoff_unbounded hstate hrunning hbackoffs expired

/-- The streak of a run, from a moment on. -/
theorem streakOf_effects_append (symbol : String) (exchange : Exchange) (es later : List Event) :
    streakOf (effects symbol exchange (es ++ later))
      = (Machine.run loopStep (after symbol exchange es) later).2.foldl Streak.step
          (streakOf (effects symbol exchange es)) := by
  unfold effects after
  rw [Machine.run_append_outputs, streakOf_append]

/-- A run that is bounded up to its next iteration has no second timeout. -/
theorem noSecondTimeout_of_bounded {symbol : String} {exchange : Exchange} {es : List Event}
    (h : BoundedResync symbol exchange (es ++ [.iterate false])) : NoSecondTimeout symbol exchange es := by
  rintro earlier ⟨rest, rfl⟩ hrunning ⟨buffer, hstate⟩
  by_contra hbackoffs
  have hturn := turn_iterate (steady_after symbol exchange earlier) true
  obtain ⟨hresyncing, hrun, hout⟩ := hturn.of_timeout hstate
  rw [← loopStep_iterate hrunning, ← after_snoc] at hresyncing hrun
  have hstreak : (streakOf (effects symbol exchange (earlier ++ [.iterate true]))).backoffs ≠ [] := by
    rw [effects_snoc, streakOf_append, loopStep_iterate hrunning, hout]
    exact hbackoffs
  obtain ⟨now, hnow, hunbounded⟩ := second_backoff_comes hresyncing (hrun.trans hrunning) hstreak rest
  rw [← after_append, ← streakOf_effects_append] at hunbounded
  have hall := (List.prefix_append_right_inj (earlier ++ [Event.iterate true])).mpr hnow
  rw [← List.append_assoc] at hall
  exact hunbounded (h _ hall)

/-- **Resynchronisation is bounded, up to and with the next iteration, exactly when no buffering phase that a
    backoff has led to expires.** -/
theorem resync_bounded_iff (symbol : String) (exchange : Exchange) (es : List Event) :
    BoundedResync symbol exchange (es ++ [.iterate false]) ↔ NoSecondTimeout symbol exchange es := by
  constructor
  · exact noSecondTimeout_of_bounded
  · intro h earlier hearlier
    have hall : NoSecondTimeout symbol exchange (es ++ [.iterate false]) := by
      intro before hbefore
      rcases List.prefix_concat_iff.mp hbefore with heq | hprefix
      · have hlast := (List.append_inj' heq rfl).2
        cases hlast
      · exact h before hprefix
    exact (streakFits_run (hall.of_prefix hearlier)).bounded

/-- Five times in a row nothing arrives before the buffering phase expires. -/
def fiveTimeouts : List Event := (List.replicate 5 [Event.iterate true, .iterate false]).flatten

/-- **Five resynchronisations in a row**, each after the same backoff, and the builder buffers on. -/
theorem five_timeouts_never_fail :
    streakOf (effects "BTCUSDT" .binance fiveTimeouts) = { resyncs := 5, backoffs := [100, 100, 100, 100, 100] } ∧
    (after "BTCUSDT" .binance fiveTimeouts).builder.state = .buffering [] ∧
    ¬ BoundedResync "BTCUSDT" .binance fiveTimeouts := by
  have hstreak : streakOf (effects "BTCUSDT" .binance fiveTimeouts)
      = { resyncs := 5, backoffs := [100, 100, 100, 100, 100] } := by decide
  have hstate : (after "BTCUSDT" .binance fiveTimeouts).builder.state = .buffering [] := by decide
  refine ⟨hstreak, hstate, ?_⟩
  intro h
  obtain ⟨message, canRetry, herror⟩ := (h _ List.prefix_rfl).error (by rw [hstreak]; decide)
  rw [hstate] at herror
  cases herror

end Builder
end TradingPlatform
