import TradingPlatform.Connection.Limits
import TradingPlatform.Library.SlidingWindow

/-!
# `Connection.Attempts` — the rate limit on connection attempts

`ConnectionAttemptTracker` is a sliding-window log that only `can_attempt` prunes. A caller that records an attempt
only when it has just been granted keeps every window within the limit, and a refusal names the exact wait
(`attempts_limited`).
-/

namespace TradingPlatform
namespace Connection

open Rust.Duration SlidingWindow

structure ConnectionAttemptTracker where
  attempts : List Nat
  limits   : ExchangeConnectionLimits

namespace ConnectionAttemptTracker

def new (limits : ExchangeConnectionLimits) : ConnectionAttemptTracker := { attempts := [], limits }

/-- `Instant::duration_since`: zero when the other instant is the later one. -/
def durationSince (now earlier : Nat) : Nat := now - earlier

def canAttempt (tracker : ConnectionAttemptTracker) (now : Nat) : Bool × ConnectionAttemptTracker :=
  let attempts := tracker.attempts.filter fun attemptTime =>
    durationSince now attemptTime < tracker.limits.connectionAttemptWindow
  (decide (attempts.length < tracker.limits.maxAttemptsPerWindow), { tracker with attempts })

def recordAttempt (tracker : ConnectionAttemptTracker) (now : Nat) : ConnectionAttemptTracker :=
  { tracker with attempts := tracker.attempts ++ [now] }

def timeUntilNextAttempt (tracker : ConnectionAttemptTracker) (now : Nat) : Option Nat :=
  if tracker.attempts.length < tracker.limits.maxAttemptsPerWindow then none
  else match tracker.attempts.head? with
    | some oldest =>
        let elapsed := durationSince now oldest
        if elapsed < tracker.limits.connectionAttemptWindow then
          some (tracker.limits.connectionAttemptWindow - elapsed)
        else none
    | none => none

/-- `RobustConnectionManager::can_connect` for the tracker of one exchange. -/
def canConnect (tracker : Option ConnectionAttemptTracker) (now : Nat) :
    Except Nat Unit × Option ConnectionAttemptTracker :=
  match tracker with
  | none => (.error (fromSecs 60), none)
  | some tracker =>
      let (allowed, tracker) := tracker.canAttempt now
      if allowed then (.ok (), some tracker)
      else (.error ((tracker.timeUntilNextAttempt now).getD (fromSecs 60)), some tracker)

/-! ## One call -/

variable (tracker : ConnectionAttemptTracker) (now : Nat)

theorem canAttempt_attempts :
    (tracker.canAttempt now).2.attempts
      = recent tracker.limits.connectionAttemptWindow now tracker.attempts := rfl

@[simp] theorem canAttempt_limits : (tracker.canAttempt now).2.limits = tracker.limits := rfl

theorem canAttempt_iff :
    (tracker.canAttempt now).1 = true ↔
      (recent tracker.limits.connectionAttemptWindow now tracker.attempts).length
        < tracker.limits.maxAttemptsPerWindow := decide_eq_true_iff

@[simp] theorem recordAttempt_attempts : (tracker.recordAttempt now).attempts = tracker.attempts ++ [now] := rfl

@[simp] theorem recordAttempt_limits : (tracker.recordAttempt now).limits = tracker.limits := rfl

/-- The tracker after `can_attempt` calls at the given times. -/
def polled (tracker : ConnectionAttemptTracker) (times : List Nat) : ConnectionAttemptTracker :=
  times.foldl (fun tracker time => (tracker.canAttempt time).2) tracker

variable {tracker now}

/-- Calls of `can_attempt` in between do not show. -/
theorem polled_spec {times : List Nat} (h : ∀ time ∈ times, time ≤ now) :
    (tracker.polled times).limits = tracker.limits ∧
    recent tracker.limits.connectionAttemptWindow now (tracker.polled times).attempts
      = recent tracker.limits.connectionAttemptWindow now tracker.attempts := by
  induction times generalizing tracker with
  | nil => exact ⟨rfl, rfl⟩
  | cons time times ih =>
      have hlater : ∀ t ∈ times, t ≤ now := fun t ht => h t (List.mem_cons_of_mem _ ht)
      obtain ⟨hlimits, hattempts⟩ := @ih (tracker.canAttempt time).2 hlater
      refine ⟨hlimits, ?_⟩
      rw [canAttempt_limits] at hattempts
      rw [polled, List.foldl_cons, ← polled, hattempts, canAttempt_attempts,
        recent_recent (h time List.mem_cons_self)]

theorem timeUntilNextAttempt_of_full {oldest : Nat} {rest : List Nat} (hattempts : tracker.attempts = oldest :: rest)
    (hfull : ¬ tracker.attempts.length < tracker.limits.maxAttemptsPerWindow)
    (hyoung : now - oldest < tracker.limits.connectionAttemptWindow) :
    tracker.timeUntilNextAttempt now = some (tracker.limits.connectionAttemptWindow - (now - oldest)) := by
  unfold timeUntilNextAttempt
  rw [if_neg hfull, hattempts]
  exact if_pos hyoung

end ConnectionAttemptTracker

open ConnectionAttemptTracker

/-! ## Runs -/

/-- A tracker with what has happened to it: the last time the clock was read, the time at which `can_attempt` has
    just returned true, and all attempts recorded. -/
structure Usage where
  tracker  : ConnectionAttemptTracker
  now      : Nat
  granted  : Option Nat
  recorded : List Nat

/-- The runs of a tracker on a clock that does not go back, with attempts recorded only as they are granted. -/
inductive Usage.Run (limits : ExchangeConnectionLimits) : Usage → Prop
  | new : Run limits { tracker := .new limits, now := 0, granted := none, recorded := [] }
  | canAttempt {usage : Usage} {now : Nat} : Run limits usage → usage.now ≤ now →
      Run limits
        { usage with
          tracker := (usage.tracker.canAttempt now).2
          now
          granted := if (usage.tracker.canAttempt now).1 then some now else none }
  | recordAttempt {usage : Usage} {now : Nat} : Run limits usage → usage.now ≤ now → usage.granted = some now →
      Run limits
        { tracker := usage.tracker.recordAttempt now, now, granted := none, recorded := usage.recorded ++ [now] }
  | timeUntilNextAttempt {usage : Usage} {now : Nat} : Run limits usage → usage.now ≤ now →
      Run limits { usage with now }

/-- What every call keeps. -/
structure Usage.Limited (limits : ExchangeConnectionLimits) (usage : Usage) : Prop where
  limits_eq : usage.tracker.limits = limits
  logged    : Logged usage.now usage.recorded
  kept      : usage.tracker.attempts.Sublist usage.recorded
  current   : ∀ now, usage.now ≤ now →
    recent limits.connectionAttemptWindow now usage.tracker.attempts
      = recent limits.connectionAttemptWindow now usage.recorded
  length    : usage.tracker.attempts.length ≤ limits.maxAttemptsPerWindow
  room      : ∀ time, usage.granted = some time →
    usage.tracker.attempts.length < limits.maxAttemptsPerWindow ∧
    (recent limits.connectionAttemptWindow time usage.recorded).length < limits.maxAttemptsPerWindow
  windows   : ∀ start,
    (window limits.connectionAttemptWindow start usage.recorded).length ≤ limits.maxAttemptsPerWindow

namespace Usage.Limited

variable {limits : ExchangeConnectionLimits} {usage : Usage} {now : Nat}

theorem new : Limited limits { tracker := .new limits, now := 0, granted := none, recorded := [] } where
  limits_eq := rfl
  logged    := Logged.nil
  kept      := List.Sublist.refl _
  current   := fun _ _ => rfl
  length    := Nat.zero_le _
  room      := by simp
  windows   := fun _ => Nat.zero_le _

theorem canAttempt (h : usage.Limited limits) (hnow : usage.now ≤ now) :
    Limited limits
      { usage with
        tracker := (usage.tracker.canAttempt now).2
        now
        granted := if (usage.tracker.canAttempt now).1 then some now else none } where
  limits_eq := h.limits_eq
  logged    := h.logged.of_le hnow
  kept      := recent_sublist.trans h.kept
  current   := by
    intro later hlater
    have hprune : (usage.tracker.canAttempt now).2.attempts
        = recent limits.connectionAttemptWindow now usage.tracker.attempts := by
      rw [canAttempt_attempts, h.limits_eq]
    show recent _ later (usage.tracker.canAttempt now).2.attempts = _
    rw [hprune, recent_recent hlater, h.current later (hnow.trans hlater)]
  length    := recent_sublist.length_le.trans h.length
  room      := by
    intro time htime
    simp only [canAttempt_iff, Option.ite_none_right_eq_some, Option.some.injEq] at htime
    obtain ⟨hroom, rfl⟩ := htime
    rw [h.limits_eq] at hroom
    refine ⟨?_, by rwa [← h.current now hnow]⟩
    rw [canAttempt_attempts, h.limits_eq]
    exact hroom
  windows   := h.windows

theorem recordAttempt (h : usage.Limited limits) (hnow : usage.now ≤ now) (hgranted : usage.granted = some now) :
    Limited limits
      { tracker := usage.tracker.recordAttempt now, now, granted := none, recorded := usage.recorded ++ [now] } where
  limits_eq := h.limits_eq
  logged    := h.logged.concat hnow
  kept      := h.kept.append (List.Sublist.refl _)
  current   := by
    intro later hlater
    rw [recordAttempt_attempts, recent_concat, recent_concat, h.current later (hnow.trans hlater)]
  length    := by
    rw [recordAttempt_attempts, List.length_append, List.length_singleton]
    exact (h.room now hgranted).1
  room      := by simp
  windows   := window_concat_le (h.room now hgranted).2 h.windows

theorem timeUntilNextAttempt (h : usage.Limited limits) (hnow : usage.now ≤ now) :
    Limited limits { usage with now } where
  limits_eq := h.limits_eq
  logged    := h.logged.of_le hnow
  kept      := h.kept
  current   := fun later hlater => h.current later (hnow.trans hlater)
  length    := h.length
  room      := h.room
  windows   := h.windows

theorem of_run (h : usage.Run limits) : usage.Limited limits := by
  induction h with
  | new => exact new
  | canAttempt _ hnow ih => exact ih.canAttempt hnow
  | recordAttempt _ hnow hgranted ih => exact ih.recordAttempt hnow hgranted
  | timeUntilNextAttempt _ hnow ih => exact ih.timeUntilNextAttempt hnow

/-- A refusal comes from a full log, whose oldest entry decides about the wait. -/
theorem refused (h : usage.Limited limits) (hlimit : 1 ≤ limits.maxAttemptsPerWindow) (hnow : usage.now ≤ now)
    (hrefused : (usage.tracker.canAttempt now).1 = false) :
    ∃ oldest rest, (usage.tracker.canAttempt now).2.attempts = oldest :: rest ∧
      (oldest :: rest).length = limits.maxAttemptsPerWindow ∧
      Logged now (oldest :: rest) ∧ now - oldest < limits.connectionAttemptWindow := by
  have hfull : ¬ (usage.tracker.canAttempt now).2.attempts.length < limits.maxAttemptsPerWindow := by
    intro hroom
    rw [← h.limits_eq] at hroom
    rw [(canAttempt_iff _ _).mpr hroom] at hrefused
    cases hrefused
  have hlength : (usage.tracker.canAttempt now).2.attempts.length ≤ limits.maxAttemptsPerWindow :=
    recent_sublist.length_le.trans h.length
  have hlogged : Logged now (usage.tracker.canAttempt now).2.attempts :=
    (h.logged.of_le hnow).sublist (recent_sublist.trans h.kept)
  have hyoung : ∀ t ∈ (usage.tracker.canAttempt now).2.attempts, now - t < limits.connectionAttemptWindow := by
    intro t ht
    rw [canAttempt_attempts, h.limits_eq] at ht
    exact (mem_recent.mp ht).2
  cases hattempts : (usage.tracker.canAttempt now).2.attempts with
  | nil =>
      rw [hattempts, List.length_nil] at hfull
      omega
  | cons oldest rest =>
      rw [hattempts] at hfull hlength hlogged hyoung
      exact ⟨oldest, rest, rfl, by omega, hlogged, hyoung oldest List.mem_cons_self⟩

/-- **The wait a refusal names is the least one.** -/
theorem wait_exact (h : usage.Limited limits) (hlimit : 1 ≤ limits.maxAttemptsPerWindow) (hnow : usage.now ≤ now)
    (hrefused : (usage.tracker.canAttempt now).1 = false) :
    ∃ d, (usage.tracker.canAttempt now).2.timeUntilNextAttempt now = some d ∧
      ∀ wait polls, (∀ time ∈ polls, time ≤ now + wait) →
        ((((usage.tracker.canAttempt now).2.polled polls).canAttempt (now + wait)).1 = true ↔ d ≤ wait) := by
  obtain ⟨oldest, rest, hattempts, hfull, hlogged, hyoung⟩ := h.refused hlimit hnow hrefused
  have hlimits : (usage.tracker.canAttempt now).2.limits = limits := h.limits_eq
  refine ⟨limits.connectionAttemptWindow - (now - oldest), ?_, ?_⟩
  · rw [timeUntilNextAttempt_of_full hattempts (by rw [hattempts, hlimits, hfull]; exact lt_irrefl _)
      (by rw [hlimits]; exact hyoung), hlimits]
  · intro wait polls hpolls
    obtain ⟨hpolled, hrecent⟩ := @polled_spec (usage.tracker.canAttempt now).2 (now + wait) polls hpolls
    have hlogged' : oldest ≤ now := hlogged.2 oldest List.mem_cons_self
    rw [canAttempt_iff, hpolled, hrecent, hlimits, hattempts, length_recent_lt_iff hlogged hfull]
    omega

end Usage.Limited

/-- **The rate limit holds in every window, and the wait is exact**, in every run. -/
theorem attempts_limited {limits : ExchangeConnectionLimits} (hlimit : 1 ≤ limits.maxAttemptsPerWindow)
    {usage : Usage} (h : usage.Run limits) :
    (∀ start,
      (window limits.connectionAttemptWindow start usage.recorded).length ≤ limits.maxAttemptsPerWindow) ∧
    ∀ now, usage.now ≤ now → (usage.tracker.canAttempt now).1 = false →
      ∃ d, (usage.tracker.canAttempt now).2.timeUntilNextAttempt now = some d ∧
        ∀ wait polls, (∀ time ∈ polls, time ≤ now + wait) →
          ((((usage.tracker.canAttempt now).2.polled polls).canAttempt (now + wait)).1 = true ↔ d ≤ wait) := by
  have hlimited : usage.Limited limits := .of_run h
  exact ⟨hlimited.windows, fun now hnow hrefused => hlimited.wait_exact hlimit hnow hrefused⟩

/-- One attempt in five minutes, taken at once. -/
def Usage.single : Usage where
  tracker  := ((ConnectionAttemptTracker.new { ExchangeConnectionLimits.default with maxAttemptsPerWindow := 1
    }).canAttempt 7).2.recordAttempt 7
  now      := 7
  granted  := none
  recorded := [7]

theorem attempts_limited_single :
    (∀ start, (window (fromSecs 300) start Usage.single.recorded).length ≤ 1) ∧
    (Usage.single.tracker.canAttempt 10).1 = false ∧
    ∃ d, (Usage.single.tracker.canAttempt 10).2.timeUntilNextAttempt 10 = some d ∧
      ∀ wait polls, (∀ time ∈ polls, time ≤ 10 + wait) →
        ((((Usage.single.tracker.canAttempt 10).2.polled polls).canAttempt (10 + wait)).1 = true ↔ d ≤ wait) := by
  have hrun : Usage.single.Run { ExchangeConnectionLimits.default with maxAttemptsPerWindow := 1 } :=
    .recordAttempt (.canAttempt .new (Nat.zero_le 7)) (Nat.le_refl 7) (by decide)
  have hlimited := attempts_limited (by decide) hrun
  have hrefused : (Usage.single.tracker.canAttempt 10).1 = false := by decide
  exact ⟨hlimited.1, hrefused, hlimited.2 10 (by decide) hrefused⟩

/-- So the minute that `can_connect` falls back to is never the answer for an exchange that was initialised. -/
theorem canConnect_wait {exchange : String} {usage : Usage}
    (h : usage.Run (ExchangeConnectionLimits.forExchange exchange)) {now : Nat} (hnow : usage.now ≤ now) {d : Nat}
    (herror : (canConnect (some usage.tracker) now).1 = .error d) :
    (usage.tracker.canAttempt now).2.timeUntilNextAttempt now = some d := by
  have hlimit := (ExchangeConnectionLimits.forExchange_sound exchange).attempts
  unfold canConnect at herror
  dsimp only at herror
  cases hallowed : (usage.tracker.canAttempt now).1 with
  | true =>
      rw [hallowed] at herror
      cases herror
  | false =>
      obtain ⟨wait, hwait, _⟩ := (Usage.Limited.of_run h).wait_exact hlimit hnow hallowed
      rw [hallowed, if_neg Bool.false_ne_true, hwait] at herror
      cases herror
      exact hwait

end Connection
end TradingPlatform
