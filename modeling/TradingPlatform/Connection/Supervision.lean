import TradingPlatform.Connection.Supervisor
import Mathlib.Data.List.Perm.Subperm
import Mathlib.Data.List.Infix

/-!
# `Connection.Supervision` — what holds under every schedule of a supervisor and its tasks

`Invariant` ties the counter to the tasks, and the streams in the map to the phase. From it: no connection ever has two
sockets, and the counter is never reset under a task (`one_socket_per_connection`). The loop comes round again, with
every connection asking for its streams once, exactly as long as no task has panicked and every asset type has a URL
(`recovers_iff`).
-/

namespace TradingPlatform
namespace Connection
namespace Supervisor

open Machine

variable {κ γ : Type*} {client : Client κ γ} {s : Supervisor κ γ}

/-! ## The invariant -/

/-- No task is left. -/
def Idle (s : Supervisor κ γ) : Prop := s.running = [] ∧ s.panicked = []

/-- What the phase says of the streams and the tasks. -/
def Fits (client : Client κ γ) (s : Supervisor κ γ) : Prop :=
  match s.phase with
  | .connecting todo _ => s.Idle ∧ todo <:+ client.keys ∧ ∀ key ∈ client.keys, key ∉ todo → client.accepts key = true
  | .subscribing todo => s.Idle ∧ todo <:+ client.keys ∧ ∀ key ∈ client.keys, client.accepts key = true
  | .fetchingSnapshots => s.Idle ∧ ∀ key ∈ client.keys, client.accepts key = true
  | .starting todo =>
      todo <:+ client.keys ∧ (∀ key ∈ todo, key ∉ s.running ++ s.panicked) ∧
        (∀ key ∉ todo, s.wsStreams key = false) ∧ ∀ key ∈ client.keys, client.accepts key = true
  | .waiting => (∀ key, s.wsStreams key = false) ∧ ∀ key ∈ client.keys, client.accepts key = true
  | .sleeping => s.Idle

structure Invariant (client : Client κ γ) (s : Supervisor κ γ) : Prop where
  fits    : s.Fits client
  nodup   : (s.running ++ s.panicked).Nodup
  known   : ∀ key ∈ s.running ++ s.panicked, key ∈ client.keys
  counted : s.activeConnections = (s.running ++ s.panicked).length
  streams : ∀ key, s.wsStreams key = true → key ∈ client.keys

theorem Invariant.init (client : Client κ γ) : Invariant client (Supervisor.init client) where
  fits    := ⟨⟨rfl, rfl⟩, List.suffix_refl _, fun _ hkey hnot => absurd hkey hnot⟩
  nodup   := List.nodup_nil
  known   := fun _ hkey => absurd hkey List.not_mem_nil
  counted := rfl
  streams := fun _ => nofun

/-- A state without tasks. -/
theorem Invariant.of_idle (hidle : s.Idle) (hfits : s.Fits client) (hcounted : s.activeConnections = 0)
    (hstreams : ∀ key, s.wsStreams key = true → key ∈ client.keys) : Invariant client s := by
  have hnone : s.running ++ s.panicked = [] := by rw [hidle.1, hidle.2, List.append_nil]
  refine ⟨hfits, ?_, ?_, ?_, hstreams⟩
  · rw [hnone]
    exact List.nodup_nil
  · rw [hnone]
    exact fun _ hkey => absurd hkey List.not_mem_nil
  · rw [hnone]
    exact hcounted

/-- The counter is at zero just then. -/
theorem Invariant.idle_iff (h : Invariant client s) : s.Idle ↔ s.activeConnections = 0 := by
  rw [h.counted, List.length_eq_zero_iff, List.append_eq_nil_iff]
  rfl

/-- There are never more tasks than connections. -/
theorem Invariant.length_le (h : Invariant client s) : (s.running ++ s.panicked).length ≤ client.keys.length :=
  (h.nodup.subperm h.known).length_le

/-- Tasks come after `connect` and `subscribe`. -/
theorem Invariant.idle (h : Invariant client s) (hstarting : ∀ todo, s.phase ≠ .starting todo)
    (hwaiting : s.phase ≠ .waiting) : s.Idle := by
  have hfits := h.fits
  unfold Fits at hfits
  split at hfits
  next => exact hfits.1
  next => exact hfits.1
  next => exact hfits.1
  next heq => exact absurd heq (hstarting _)
  next heq => exact absurd heq hwaiting
  next => exact hfits

/-- The phases of a client one of whose connections has no URL. -/
theorem Invariant.of_rejected (h : Invariant client s) {key : κ} (hkey : key ∈ client.keys)
    (hrejected : client.accepts key = false) : (∃ todo n, s.phase = .connecting todo n) ∨ s.phase = .sleeping := by
  have hne : ¬ ∀ key ∈ client.keys, client.accepts key = true := fun hall => by
    rw [hall key hkey] at hrejected
    cases hrejected
  have hfits := h.fits
  unfold Fits at hfits
  split at hfits
  next todo n heq => exact .inl ⟨todo, n, heq⟩
  next => exact absurd hfits.2.2 hne
  next => exact absurd hfits.2 hne
  next => exact absurd hfits.2.2.2 hne
  next => exact absurd hfits.2 hne
  next heq => exact .inr heq

/-- What is true of the phase stays true when a task ends. -/
theorem Invariant.fits_of_tasks (h : Invariant client s) {t : Supervisor κ γ} (hphase : t.phase = s.phase)
    (hstreams : t.wsStreams = s.wsStreams) (htasks : t.running ++ t.panicked ⊆ s.running ++ s.panicked)
    (hbusy : ¬ s.Idle) : t.Fits client := by
  have hfits := h.fits
  unfold Fits at hfits ⊢
  rw [hphase]
  split at hfits
  next => exact absurd hfits.1 hbusy
  next => exact absurd hfits.1 hbusy
  next => exact absurd hfits.1 hbusy
  next =>
    obtain ⟨hsuffix, hfresh, hclosed, haccepted⟩ := hfits
    rw [hstreams]
    exact ⟨hsuffix, fun key hkey hmem => hfresh key hkey (htasks hmem), hclosed, haccepted⟩
  next =>
    rw [hstreams]
    exact hfits
  next => exact absurd hfits hbusy

theorem fetchAdd_of_lt {n : Nat} (h : n + 1 < 2 ^ 64) : fetchAdd n = n + 1 := if_pos h

theorem fetchSub_of_pos {n : Nat} (h : 0 < n) : fetchSub n = n - 1 := if_neg (Nat.ne_of_gt h)

/-! ## What the supervisor does -/

/-- `start` finds no task from before. -/
theorem Invariant.starting (h : Invariant client s) (hidle : s.Idle)
    (haccepted : ∀ key ∈ client.keys, client.accepts key = true) :
    Invariant client { s with phase := .starting client.keys, activeConnections := 0 } := by
  refine .of_idle hidle ⟨List.suffix_refl _, ?_, ?_, haccepted⟩ rfl h.streams
  · intro key _
    show key ∉ s.running ++ s.panicked
    rw [hidle.1, hidle.2]
    exact List.not_mem_nil
  · exact fun key hkey => Bool.eq_false_iff.mpr fun hstream => hkey (h.streams key hstream)

variable [DecidableEq κ]

theorem Invariant.spawn (h : Invariant client s) {key : κ} {rest : List κ}
    (hphase : s.phase = .starting (key :: rest)) : Invariant client (s.spawn key rest).1 := by
  have hfits := h.fits
  unfold Fits at hfits
  rw [hphase] at hfits
  obtain ⟨hsuffix, hfresh, hclosed, haccepted⟩ := hfits
  have hrest : rest <:+ client.keys := (List.suffix_cons key rest).trans hsuffix
  have hnot : key ∉ rest := (List.nodup_cons.mp (hsuffix.nodup client.nodup)).1
  unfold Supervisor.spawn
  split
  next =>
    have hnodup : (key :: (s.running ++ s.panicked)).Nodup :=
      List.nodup_cons.mpr ⟨hfresh key List.mem_cons_self, h.nodup⟩
    have hknown : ∀ key' ∈ key :: (s.running ++ s.panicked), key' ∈ client.keys :=
      List.forall_mem_cons.mpr ⟨hsuffix.subset List.mem_cons_self, h.known⟩
    have hroom : (s.running ++ s.panicked).length + 1 < 2 ^ 64 :=
      Nat.lt_of_le_of_lt (hnodup.subperm hknown).length_le client.bounded
    refine ⟨⟨hrest, ?_, ?_, haccepted⟩, hnodup, hknown, ?_, ?_⟩
    · intro key' hkey'
      have hne : key' ≠ key := fun heq => hnot (heq ▸ hkey')
      exact List.not_mem_cons_of_ne_of_not_mem hne (hfresh key' (List.mem_cons_of_mem _ hkey'))
    · intro key' hkey'
      by_cases heq : key' = key
      · rw [heq]
        exact Function.update_self ..
      · exact (Function.update_of_ne heq ..).trans (hclosed key' (List.not_mem_cons_of_ne_of_not_mem heq hkey'))
    · show fetchAdd s.activeConnections = (s.running ++ s.panicked).length + 1
      rw [h.counted, fetchAdd_of_lt hroom]
    · intro key' hkey'
      by_cases heq : key' = key
      · rw [heq]
        exact hsuffix.subset List.mem_cons_self
      · exact h.streams key' ((Function.update_of_ne heq ..).symm.trans hkey')
  next hstream =>
    refine ⟨⟨hrest, fun key' hkey' => hfresh key' (List.mem_cons_of_mem _ hkey'), ?_, haccepted⟩, h.nodup, h.known,
      h.counted, h.streams⟩
    intro key' hkey'
    by_cases heq : key' = key
    · rw [heq]
      exact Bool.eq_false_iff.mpr hstream
    · exact hclosed key' (List.not_mem_cons_of_ne_of_not_mem heq hkey')

/-- The sockets of a connection that are open: in the map, and with its task. -/
def sockets (s : Supervisor κ γ) (key : κ) : Nat := (if s.wsStreams key then 1 else 0) + s.running.count key

/-- A stream in the map has no task yet. -/
theorem Invariant.not_running (h : Invariant client s) {key : κ} (hstream : s.wsStreams key = true) :
    key ∉ s.running := by
  have hfits := h.fits
  have hidle : s.Idle → key ∉ s.running := fun hidle => by
    rw [hidle.1]
    exact List.not_mem_nil
  unfold Fits at hfits
  split at hfits
  next => exact hidle hfits.1
  next => exact hidle hfits.1
  next => exact hidle hfits.1
  next todo _ =>
    obtain ⟨-, hfresh, hclosed, -⟩ := hfits
    have htodo : key ∈ todo := by
      by_contra hnot
      rw [hclosed key hnot] at hstream
      cases hstream
    exact fun hmem => hfresh key htodo (List.mem_append_left _ hmem)
  next =>
    rw [hfits.1 key] at hstream
    cases hstream
  next => exact hidle hfits

theorem Invariant.sockets_le_one (h : Invariant client s) (key : κ) : s.sockets key ≤ 1 := by
  have hcount : s.running.count key ≤ 1 := List.nodup_iff_count_le_one.mp (List.nodup_append.mp h.nodup).1 key
  unfold sockets
  split
  next hstream =>
    rw [List.count_eq_zero_of_not_mem (h.not_running hstream)]
  next => omega

/-- A task counts itself out. -/
theorem Invariant.counted_erase (h : Invariant client s) {key : κ} (hmem : key ∈ s.running) :
    fetchSub s.activeConnections = (s.running.erase key ++ s.panicked).length := by
  have hperm : (s.running ++ s.panicked).Perm (key :: (s.running.erase key ++ s.panicked)) :=
    (List.perm_cons_erase hmem).append_right s.panicked
  have hlength : s.activeConnections = (s.running.erase key ++ s.panicked).length + 1 :=
    h.counted.trans hperm.length_eq
  rw [fetchSub_of_pos (by omega), hlength]
  rfl

variable [DecidableEq γ]

theorem Invariant.attempt (h : Invariant client s) {key : κ} {rest : List κ} {retryCount : Nat}
    (hphase : s.phase = .connecting (key :: rest) retryCount) (ok : Bool) :
    Invariant client (s.attempt client key rest retryCount ok).1 := by
  have hfits := h.fits
  unfold Fits at hfits
  rw [hphase] at hfits
  obtain ⟨hidle, hsuffix, haccepted⟩ := hfits
  have hzero := h.idle_iff.mp hidle
  have hkey : key ∈ client.keys := hsuffix.subset List.mem_cons_self
  have hstreams : ∀ stream key', Function.update s.wsStreams key stream key' = true → key' ∈ client.keys := by
    intro stream key' hkey'
    by_cases heq : key' = key
    · rwa [heq]
    · rw [Function.update_of_ne heq] at hkey'
      exact h.streams key' hkey'
  -- with this connection done, whatever came of it
  have hnext : client.accepts key = true →
      ∀ key' ∈ client.keys, key' ∉ rest → client.accepts key' = true := by
    intro hkey key' hkey' hrest
    by_cases heq : key' = key
    · rwa [heq]
    · exact haccepted key' hkey' (List.not_mem_cons_of_ne_of_not_mem heq hrest)
  have hrest : rest <:+ client.keys := (List.suffix_cons key rest).trans hsuffix
  unfold Supervisor.attempt
  split
  next =>
    split
    next => exact h
    next => exact .of_idle hidle hidle hzero h.streams
  next hne =>
    have hok : client.accepts key = true := by simpa using hne
    split
    next => exact .of_idle hidle ⟨hidle, hrest, hnext hok⟩ hzero (hstreams true)
    next =>
      split
      next => exact h
      next =>
        split
        next => exact .of_idle hidle ⟨hidle, hrest, hnext hok⟩ hzero (hstreams false)
        next => exact .of_idle hidle ⟨hidle, hsuffix, haccepted⟩ hzero h.streams

theorem Invariant.proceed (h : Invariant client s) (ok : Bool) : Invariant client (s.proceed client ok).1 := by
  have hfits := h.fits
  unfold Fits at hfits
  unfold Supervisor.proceed
  split
  next hphase => exact h.attempt hphase ok
  next hphase =>
    rw [hphase] at hfits
    obtain ⟨hidle, -, haccepted⟩ := hfits
    have hall : ∀ key ∈ client.keys, client.accepts key = true :=
      fun key hkey => haccepted key hkey List.not_mem_nil
    refine .of_idle hidle ?_ (h.idle_iff.mp hidle) h.streams
    cases client.announces with
    | true => exact ⟨hidle, List.suffix_refl _, hall⟩
    | false => exact ⟨hidle, hall⟩
  next key rest hphase =>
    rw [hphase] at hfits
    obtain ⟨hidle, hsuffix, haccepted⟩ := hfits
    have hrest : rest <:+ client.keys := (List.suffix_cons key rest).trans hsuffix
    have hzero := h.idle_iff.mp hidle
    split
    · exact .of_idle hidle ⟨hidle, hrest, haccepted⟩ hzero h.streams
    · split
      · exact .of_idle hidle ⟨hidle, hrest, haccepted⟩ hzero h.streams
      · exact .of_idle hidle hidle hzero h.streams
  next hphase =>
    rw [hphase] at hfits
    exact h.starting hfits.1 hfits.2.2
  next hphase =>
    rw [hphase] at hfits
    split
    · exact h.starting hfits.1 hfits.2
    · exact .of_idle hfits.1 hfits.1 (h.idle_iff.mp hfits.1) h.streams
  next hphase => exact h.spawn hphase
  next hphase =>
    rw [hphase] at hfits
    exact ⟨⟨fun key => hfits.2.2.1 key List.not_mem_nil, hfits.2.2.2⟩, h.nodup, h.known, h.counted, h.streams⟩
  next =>
    split
    · exact h
    next hzero =>
      have hidle := h.idle_iff.mpr (Nat.eq_zero_of_not_pos hzero)
      exact .of_idle hidle hidle (Nat.eq_zero_of_not_pos hzero) h.streams
  next hphase =>
    rw [hphase] at hfits
    exact .of_idle hfits ⟨hfits, List.suffix_refl _, fun _ hkey hnot => absurd hkey hnot⟩ (h.idle_iff.mp hfits) h.streams

/-! ## What the tasks do -/

theorem Invariant.leaves (h : Invariant client s) (key : κ) (how : Ending) :
    Invariant client (s.step client (.leaves key how)).1 := by
  unfold Supervisor.step
  dsimp only
  split
  next hmem =>
    have hsublist : (s.running.erase key ++ s.panicked).Sublist (s.running ++ s.panicked) :=
      List.erase_sublist.append_right _
    refine ⟨?_, hsublist.nodup h.nodup, fun key' hkey' => h.known key' (hsublist.subset hkey'), ?_, h.streams⟩
    · refine h.fits_of_tasks rfl rfl hsublist.subset (fun hidle => ?_)
      rw [hidle.1] at hmem
      cases hmem
    · exact h.counted_erase hmem
  next => exact h

theorem Invariant.panics (h : Invariant client s) (key : κ) : Invariant client (s.step client (.panics key)).1 := by
  unfold Supervisor.step
  dsimp only
  split
  next hmem =>
    -- the task only changes lists
    have hperm : (s.running.erase key ++ key :: s.panicked).Perm (s.running ++ s.panicked) :=
      List.perm_middle.trans ((List.perm_cons_erase hmem).symm.append_right s.panicked)
    refine ⟨?_, hperm.nodup_iff.mpr h.nodup, fun key' hkey' => h.known key' (hperm.subset hkey'), ?_, h.streams⟩
    · refine h.fits_of_tasks rfl rfl hperm.subset (fun hidle => ?_)
      rw [hidle.1] at hmem
      cases hmem
    · exact h.counted.trans hperm.length_eq.symm
  next => exact h

/-- **One step** of the supervisor or of a task. -/
theorem Invariant.step (h : Invariant client s) (event : Event κ) : Invariant client (s.step client event).1 := by
  cases event with
  | proceed ok => exact h.proceed ok
  | leaves key how => exact h.leaves key how
  | panics key => exact h.panics key

theorem Invariant.run (h : Invariant client s) (events : List (Event κ)) :
    Invariant client (Machine.run (Supervisor.step client) s events).1 :=
  @run_invariant _ _ _ _ (Invariant client) (fun _ event h => h.step event) _ h events

/-! ## Safety -/

/-- Only `connect` dials. -/
theorem idle_of_attempted (h : Invariant client s) {event : Event κ} {key : κ} {ok : Bool}
    (hreport : Report.attempted key ok ∈ (s.step client event).2) : s.Idle := by
  refine h.idle (fun todo hphase => ?_) fun hphase => ?_
  all_goals
    cases event with
    | proceed ok' =>
        unfold step proceed at hreport
        simp only [hphase] at hreport
        revert hreport
        first
          | (cases todo <;> simp [spawn] <;> split <;> simp)
          | (split <;> simp)
    | leaves key' how => unfold step at hreport; revert hreport; dsimp only; split <;> simp
    | panics key' => unfold step at hreport; revert hreport; dsimp only; split <;> simp

/-- **Safety.** Whatever the network does and however the tasks are scheduled, no connection has two sockets, the
    counter is the number of tasks that have not left their loops, and there is none of them when a connection is
    attempted or `start` sets the counter to zero. -/
theorem one_socket_per_connection (client : Client κ γ) (events : List (Event κ)) :
    let s := (run (step client) (init client) events).1
    (∀ key, s.sockets key ≤ 1) ∧ s.activeConnections = s.running.length + s.panicked.length ∧
      (∀ event key ok, .attempted key ok ∈ (s.step client event).2 → s.running = [] ∧ s.panicked = []) ∧
      (s.phase = .subscribing [] ∨ s.phase = .fetchingSnapshots → s.activeConnections = 0) := by
  intro s
  have h : Invariant client s := (Invariant.init client).run events
  refine ⟨h.sockets_le_one, ?_, fun event key ok hreport => idle_of_attempted h hreport, fun hphase => ?_⟩
  · rw [h.counted, List.length_append]
  · refine h.idle_iff.mp (h.idle (fun todo heq => ?_) fun heq => ?_)
    all_goals
      rw [heq] at hphase
      rcases hphase with hphase | hphase <;> cases hphase

/-! ## Recovery -/

/-- Some schedule leads from one state to the other. -/
def Reaches (client : Client κ γ) (s t : Supervisor κ γ) : Prop := ∃ events, (run (step client) s events).1 = t

theorem Reaches.refl (s : Supervisor κ γ) : Reaches client s s := ⟨[], rfl⟩

theorem Reaches.trans {s t u : Supervisor κ γ} (hst : Reaches client s t) (htu : Reaches client t u) :
    Reaches client s u := by
  obtain ⟨xs, rfl⟩ := hst
  obtain ⟨ys, rfl⟩ := htu
  exact ⟨xs ++ ys, run_append_state s xs ys⟩

theorem Reaches.head {s u : Supervisor κ γ} (event : Event κ) (h : Reaches client (s.step client event).1 u) :
    Reaches client s u := (Reaches.trans ⟨[event], rfl⟩ h : _)

theorem Reaches.invariant {s t : Supervisor κ γ} (h : Reaches client s t) (hs : Invariant client s) :
    Invariant client t := by
  obtain ⟨events, rfl⟩ := h
  exact hs.run events

/-! ### Asking for the streams -/

/-- The connection that asks for its streams: with a message, or in the URL it is opened with. -/
def asks (client : Client κ γ) : Report κ → Option κ
  | .attempted key true => if client.announces then none else some key
  | .subscribed key     => if client.announces then some key else none
  | _                   => none

/-- Some schedule leads from one state to the other, and these connections ask for their streams on the way. -/
def Asks (client : Client κ γ) (s : Supervisor κ γ) (asked : List κ) (t : Supervisor κ γ) : Prop :=
  ∃ events, (run (step client) s events).1 = t ∧ (run (step client) s events).2.filterMap (asks client) = asked

theorem Asks.refl (s : Supervisor κ γ) : Asks client s [] s := ⟨[], rfl, rfl⟩

theorem Asks.trans {s t u : Supervisor κ γ} {xs ys : List κ} (hst : Asks client s xs t) (htu : Asks client t ys u) :
    Asks client s (xs ++ ys) u := by
  obtain ⟨events, rfl, rfl⟩ := hst
  obtain ⟨later, rfl, rfl⟩ := htu
  refine ⟨events ++ later, run_append_state s events later, ?_⟩
  rw [run_append_outputs, List.filterMap_append]

theorem Asks.of_step {s t : Supervisor κ γ} {asked : List κ} (event : Event κ) (ht : t = (s.step client event).1)
    (hasked : (s.step client event).2.filterMap (asks client) = asked) : Asks client s asked t := by
  refine ⟨[event], ht.symm, ?_⟩
  rw [run_cons, run_nil, List.append_nil]
  exact hasked

theorem Asks.reaches {s t : Supervisor κ γ} {asked : List κ} (h : Asks client s asked t) : Reaches client s t :=
  h.imp fun _ h => h.1

/-- Another state of the supervisor with the same tasks. -/
def SameTasks (s t : Supervisor κ γ) : Prop := t.running = s.running ∧ t.panicked = s.panicked

/-- Every connection of the list can be connected. Without a message of its own it asks for its streams by that. -/
theorem connects {todo : List κ} (haccepted : ∀ key ∈ todo, client.accepts key = true) {retryCount : Nat}
    (hphase : s.phase = .connecting todo retryCount) :
    ∃ t, Asks client s (if client.announces then [] else todo) t ∧ (∃ n, t.phase = .connecting [] n) ∧ SameTasks s t ∧
      ∀ key, key ∈ todo ∨ s.wsStreams key = true → t.wsStreams key = true := by
  induction todo generalizing s retryCount with
  | nil =>
      refine ⟨s, (ite_self ([] : List κ)).symm ▸ .refl s, ⟨_, hphase⟩, ⟨rfl, rfl⟩, fun key hkey => ?_⟩
      exact hkey.resolve_left List.not_mem_nil
  | cons key rest ih =>
      have hkey : client.accepts key = true := haccepted key List.mem_cons_self
      have hstep : ∃ t, Asks client s (if client.announces then [] else [key]) t ∧ t.phase = .connecting rest 0 ∧
          SameTasks s t ∧ t.wsStreams = Function.update s.wsStreams key true := by
        refine ⟨_, .of_step (.proceed true) rfl ?_, ?_⟩
        · cases hannounces : client.announces <;> cases hstream : s.wsStreams key <;>
            simp [step, proceed, hphase, attempt, hkey, replace, asks, hannounces, hstream]
        · simp [step, proceed, hphase, attempt, hkey, replace, SameTasks]
      obtain ⟨t, ht, htphase, httasks, htstreams⟩ := hstep
      obtain ⟨u, htu, huphase, hutasks, hustreams⟩ :=
        ih (fun key hkey => haccepted key (List.mem_cons_of_mem _ hkey)) htphase
      have hasked : (if client.announces then [] else [key]) ++ (if client.announces then [] else rest) =
          if client.announces then [] else key :: rest := by
        cases client.announces <;> rfl
      refine ⟨u, hasked ▸ ht.trans htu, huphase,
        ⟨hutasks.1.trans httasks.1, hutasks.2.trans httasks.2⟩, fun key' hkey' => hustreams key' ?_⟩
      rw [htstreams]
      by_cases heq : key' = key
      · exact .inr (by rw [heq, Function.update_self])
      · rw [Function.update_of_ne heq]
        exact hkey'.imp_left fun hmem => (List.mem_cons.mp hmem).resolve_left heq

/-- `subscribe` can succeed, with a message on every stream that is open. -/
theorem subscribes (client : Client κ γ) {todo : List κ} (hphase : s.phase = .subscribing todo) :
    ∃ t, Asks client s (if client.announces then todo.filter s.wsStreams else []) t ∧ t.phase = .subscribing [] ∧
      SameTasks s t ∧ t.wsStreams = s.wsStreams := by
  induction todo generalizing s with
  | nil => exact ⟨s, (ite_self ([] : List κ)).symm ▸ .refl s, hphase, ⟨rfl, rfl⟩, rfl⟩
  | cons key rest ih =>
      have hstep : ∃ t, Asks client s (if client.announces then [key].filter s.wsStreams else []) t ∧
          t.phase = .subscribing rest ∧ SameTasks s t ∧ t.wsStreams = s.wsStreams := by
        refine ⟨_, .of_step (.proceed true) rfl ?_, ?_⟩
        · cases hannounces : client.announces <;> cases hstream : s.wsStreams key <;>
            simp [step, proceed, hphase, asks, hannounces, hstream]
        · cases hstream : s.wsStreams key <;> simp [step, proceed, hphase, hstream, SameTasks]
      obtain ⟨t, ht, htphase, httasks, htstreams⟩ := hstep
      obtain ⟨u, htu, huphase, hutasks, hustreams⟩ := ih htphase
      have hasked : (if client.announces then [key].filter s.wsStreams else []) ++
          (if client.announces then rest.filter t.wsStreams else []) =
            if client.announces then (key :: rest).filter s.wsStreams else [] := by
        rw [htstreams]
        cases client.announces with
        | false => rfl
        | true => exact (List.filter_append [key] rest).symm
      exact ⟨u, hasked ▸ ht.trans htu, huphase,
        ⟨hutasks.1.trans httasks.1, hutasks.2.trans httasks.2⟩, hustreams.trans htstreams⟩

/-- `start` gives every open stream to a task. -/
theorem starts (client : Client κ γ) {todo : List κ} (hnodup : todo.Nodup) (hphase : s.phase = .starting todo) :
    ∃ t, Asks client s [] t ∧ t.phase = .starting [] ∧ t.panicked = s.panicked ∧
      ∀ key, key ∈ s.running ∨ key ∈ todo ∧ s.wsStreams key = true → key ∈ t.running := by
  induction todo generalizing s with
  | nil => exact ⟨s, .refl s, hphase, rfl, fun key hkey => hkey.resolve_right fun h => List.not_mem_nil h.1⟩
  | cons key rest ih =>
      obtain ⟨hnot, hnodup⟩ := List.nodup_cons.mp hnodup
      have hstep : ∃ t, Asks client s [] t ∧ t.phase = .starting rest ∧ t.panicked = s.panicked ∧
          (∀ key' ≠ key, t.wsStreams key' = s.wsStreams key') ∧
          ∀ key', key' ∈ s.running ∨ key' = key ∧ s.wsStreams key = true → key' ∈ t.running := by
        refine ⟨_, .of_step (.proceed true) rfl ?_, ?_⟩
        · cases hstream : s.wsStreams key <;> simp [step, proceed, hphase, spawn, hstream, asks]
        cases hstream : s.wsStreams key with
        | false => simp [step, proceed, hphase, spawn, hstream]
        | true =>
            simp only [step, proceed, hphase, spawn, hstream, if_true, List.mem_cons, and_true, true_and]
            exact ⟨fun key' hne => Function.update_of_ne hne .., fun key' => Or.symm⟩
      obtain ⟨t, ht, htphase, htpanicked, htstreams, htrunning⟩ := hstep
      obtain ⟨u, htu, huphase, hupanicked, hurunning⟩ := ih hnodup htphase
      refine ⟨u, ht.trans htu, huphase, hupanicked.trans htpanicked, fun key' hkey' => ?_⟩
      apply hurunning
      rcases hkey' with hkey' | ⟨hmem, hstream⟩
      · exact .inl (htrunning key' (.inl hkey'))
      · rcases List.mem_cons.mp hmem with rfl | hmem
        · exact .inl (htrunning _ (.inr ⟨rfl, hstream⟩))
        · refine .inr ⟨hmem, ?_⟩
          rw [htstreams key' fun heq => hnot (heq ▸ hmem)]
          exact hstream

/-- The tasks can all leave their loops. -/
theorem drains (client : Client κ γ) (hphase : s.phase = .waiting) :
    ∃ t, Reaches client s t ∧ t.phase = .waiting ∧ t.running = [] ∧ t.panicked = s.panicked := by
  generalize hrunning : s.running = running
  induction running generalizing s with
  | nil => exact ⟨s, .refl s, hphase, hrunning, rfl⟩
  | cons key rest ih =>
      have hstep : ∃ t, t = (s.step client (.leaves key .closed)).1 ∧ t.phase = .waiting ∧ t.panicked = s.panicked ∧
          t.running = rest := by
        refine ⟨_, rfl, ?_⟩
        simp [step, hrunning, hphase]
      obtain ⟨t, ht, htphase, htpanicked, htrunning⟩ := hstep
      obtain ⟨u, htu, huphase, hurunning, hupanicked⟩ := ih htphase htrunning
      exact ⟨u, .head _ (ht ▸ htu), huphase, hurunning, hupanicked.trans htpanicked⟩

/-- `start` can be reached with the streams that are open. -/
theorem begins (client : Client κ γ) (todo : List κ)
    (hphase : s.phase = .subscribing todo ∨ s.phase = .fetchingSnapshots ∧ todo = []) :
    ∃ t, Asks client s (if client.announces then todo.filter s.wsStreams else []) t ∧
      t.phase = .starting client.keys ∧ SameTasks s t ∧ t.wsStreams = s.wsStreams := by
  rcases hphase with hphase | ⟨hphase, rfl⟩
  · obtain ⟨t, ht, htphase, httasks, htstreams⟩ := subscribes client hphase
    have hstep : Asks client t [] (t.step client (.proceed true)).1 := by
      refine .of_step (.proceed true) rfl ?_
      simp [step, proceed, htphase]
    refine ⟨_, List.append_nil (if client.announces then _ else _ : List κ) ▸ ht.trans hstep, ?_⟩
    simp [step, proceed, htphase, SameTasks, httasks.1, httasks.2, htstreams]
  · refine ⟨_, .of_step (.proceed true) rfl ?_, ?_⟩
    · simp [step, proceed, hphase]
    · simp [step, proceed, hphase, SameTasks]

theorem begins_of_connected (client : Client κ γ) {n : Nat} (hphase : s.phase = .connecting [] n) :
    ∃ t, Asks client s (if client.announces then client.keys.filter s.wsStreams else []) t ∧
      t.phase = .starting client.keys ∧ SameTasks s t ∧ t.wsStreams = s.wsStreams := by
  have hstep : ∃ t, Asks client s [] t ∧ SameTasks s t ∧ t.wsStreams = s.wsStreams ∧
      t.phase = if client.announces then .subscribing client.keys else .fetchingSnapshots := by
    refine ⟨_, .of_step (.proceed true) rfl ?_, ?_⟩ <;> simp [step, proceed, hphase, SameTasks]
  obtain ⟨t, ht, httasks, htstreams, htphase⟩ := hstep
  have hbegins : ∃ u, Asks client t (if client.announces then client.keys.filter t.wsStreams else []) u ∧
      u.phase = .starting client.keys ∧ SameTasks t u ∧ u.wsStreams = t.wsStreams := by
    cases hannounces : client.announces with
    | true =>
        rw [hannounces, if_pos rfl] at htphase
        have hu := begins client client.keys (.inl htphase)
        rwa [hannounces] at hu
    | false =>
        rw [hannounces, if_neg Bool.false_ne_true] at htphase
        have hu := begins client [] (.inr ⟨htphase, rfl⟩)
        rwa [hannounces] at hu
  obtain ⟨u, htu, huphase, hutasks, hustreams⟩ := hbegins
  rw [htstreams] at htu
  exact ⟨u, ht.trans htu, huphase, ⟨hutasks.1.trans httasks.1, hutasks.2.trans httasks.2⟩,
    hustreams.trans htstreams⟩

/-! ### Coming round -/

/-- A client without a panic can give up all its connections. -/
theorem sleeps_of_starting (todo : List κ) (h : Invariant client s) (hpanicked : s.panicked = [])
    (hphase : s.phase = .starting todo ∨ s.phase = .waiting) : ∃ t, Reaches client s t ∧ t.phase = .sleeping := by
  have hwaiting : ∃ t, Reaches client s t ∧ t.phase = .waiting ∧ t.panicked = [] := by
    rcases hphase with hphase | hphase
    · have hsuffix : todo <:+ client.keys := by
        have hfits := h.fits
        unfold Fits at hfits
        rw [hphase] at hfits
        exact hfits.1
      obtain ⟨t, ht, htphase, htpanicked, -⟩ := starts client (hsuffix.nodup client.nodup) hphase
      refine ⟨_, ht.reaches.trans ⟨[.proceed true], rfl⟩, ?_⟩
      simp [step, proceed, htphase, htpanicked, hpanicked]
    · exact ⟨s, .refl s, hphase, hpanicked⟩
  obtain ⟨t, ht, htphase, htpanicked⟩ := hwaiting
  obtain ⟨u, htu, huphase, hurunning, hupanicked⟩ := drains client htphase
  have hu : Invariant client u := (ht.trans htu).invariant h
  have hzero : u.activeConnections = 0 := hu.idle_iff.mp ⟨hurunning, hupanicked.trans htpanicked⟩
  refine ⟨_, (ht.trans htu).trans ⟨[.proceed true], rfl⟩, ?_⟩
  simp [step, proceed, huphase, hzero]

theorem sleeps (h : Invariant client s) (hpanicked : s.panicked = [])
    (haccepted : ∀ key ∈ client.keys, client.accepts key = true) : ∃ t, Reaches client s t ∧ t.phase = .sleeping := by
  -- whatever comes before `start` leads there
  have hstart : ∀ t, Reaches client s t → t.phase = .starting client.keys → t.panicked = s.panicked →
      ∃ u, Reaches client s u ∧ u.phase = .sleeping := by
    intro t ht htphase htpanicked
    obtain ⟨u, htu, huphase⟩ := sleeps_of_starting client.keys (ht.invariant h) (htpanicked.trans hpanicked) (.inl htphase)
    exact ⟨u, ht.trans htu, huphase⟩
  cases hphase : s.phase with
  | connecting todo n =>
      have htodo : ∀ key ∈ todo, client.accepts key = true := by
        have hfits := h.fits
        unfold Fits at hfits
        rw [hphase] at hfits
        exact fun key hkey => haccepted key (hfits.2.1.subset hkey)
      obtain ⟨t, ht, ⟨n', htphase⟩, httasks, -⟩ := connects htodo hphase
      obtain ⟨u, htu, huphase, hutasks, -⟩ := begins_of_connected client htphase
      exact hstart u (ht.reaches.trans htu.reaches) huphase (hutasks.2.trans httasks.2)
  | subscribing todo =>
      obtain ⟨t, ht, htphase, httasks, -⟩ := begins client todo (.inl hphase)
      exact hstart t ht.reaches htphase httasks.2
  | fetchingSnapshots =>
      obtain ⟨t, ht, htphase, httasks, -⟩ := begins client [] (.inr ⟨hphase, rfl⟩)
      exact hstart t ht.reaches htphase httasks.2
  | starting todo => exact sleeps_of_starting todo h hpanicked (.inl hphase)
  | waiting => exact sleeps_of_starting [] h hpanicked (.inr hphase)
  | sleeping => exact ⟨s, .refl s, hphase⟩

/-- Every connection has a task that runs. -/
def Served (client : Client κ γ) (s : Supervisor κ γ) : Prop := ∀ key ∈ client.keys, key ∈ s.running

/-- From its sleep, the loop can connect everything, and every connection asks for its streams once. -/
theorem serves_of_sleeping (haccepted : ∀ key ∈ client.keys, client.accepts key = true) (hphase : s.phase = .sleeping) :
    ∃ t, Asks client s client.keys t ∧ Served client t := by
  have hwakes : ∃ t, Asks client s [] t ∧ t.phase = .connecting client.keys 0 := by
    refine ⟨_, .of_step (.proceed true) rfl ?_, ?_⟩ <;> simp [step, proceed, hphase]
  obtain ⟨r, hr, hrphase⟩ := hwakes
  obtain ⟨t, ht, ⟨n, htphase⟩, -, htstreams⟩ := connects haccepted hrphase
  obtain ⟨u, htu, huphase, -, hustreams⟩ := begins_of_connected client htphase
  obtain ⟨v, huv, -, -, hvrunning⟩ := starts client client.nodup huphase
  have hopen : ∀ key ∈ client.keys, t.wsStreams key = true := fun key hkey => htstreams key (.inl hkey)
  have hasked : [] ++ ((if client.announces then [] else client.keys) ++
      ((if client.announces then client.keys.filter t.wsStreams else []) ++ [])) = client.keys := by
    rw [List.filter_eq_self.mpr hopen, List.append_nil, List.nil_append]
    cases client.announces with
    | true => rfl
    | false => exact List.append_nil _
  refine ⟨v, hasked ▸ hr.trans (ht.trans (htu.trans huv)), fun key hkey => hvrunning key (.inr ⟨hkey, ?_⟩)⟩
  rw [hustreams]
  exact hopen key hkey

/-- A task that has panicked is not forgotten. -/
theorem panicked_run (events : List (Event κ)) {key : κ} (hkey : key ∈ s.panicked) :
    key ∈ (run (step client) s events).1.panicked := by
  refine @run_invariant (Supervisor κ γ) _ _ _ (fun t => key ∈ t.panicked) (fun t event ht => ?_) _ hkey events
  cases event with
  | proceed ok =>
      have hsame : (t.step client (.proceed ok)).1.panicked = t.panicked := by
        show (t.proceed client ok).1.panicked = t.panicked
        unfold proceed attempt spawn replace
        repeat' first | rfl | split
      rw [hsame]
      exact ht
  | leaves key' how =>
      unfold step
      dsimp only
      split <;> exact ht
  | panics key' =>
      unfold step
      dsimp only
      split
      · exact List.mem_cons_of_mem _ ht
      · exact ht

/-- A client that serves all its connections again has not panicked before, and has a URL for each. -/
theorem Invariant.of_served (h : Invariant client s) {later : List (Event κ)}
    (hserved : Served client (Machine.run (Supervisor.step client) s later).1) :
    s.panicked = [] ∧ ∀ key ∈ client.keys, client.accepts key = true := by
  have hlater : Invariant client (Machine.run (Supervisor.step client) s later).1 := h.run later
  refine ⟨List.eq_nil_iff_forall_not_mem.mpr fun key hkey => ?_, fun key hkey => ?_⟩
  · -- the key of a panic is among those that run, too
    have hrunning := hserved key (h.known key (List.mem_append_right _ hkey))
    exact (List.nodup_append.mp hlater.nodup).2.2 key hrunning key (panicked_run later hkey) rfl
  · by_contra hrejected
    have hphase := hlater.of_rejected hkey (Bool.eq_false_iff.mpr hrejected)
    have hidle := hlater.idle (fun todo heq => by rw [heq] at hphase; simp at hphase)
      fun heq => by rw [heq] at hphase; simp at hphase
    have hrunning := hserved key hkey
    rw [hidle.1] at hrunning
    cases hrunning

/-- A round that serves all connections, after some time: it begins without a task, and in it every connection asks for
    its streams once. -/
def ServedAgain (client : Client κ γ) (s : Supervisor κ γ) : Prop :=
  ∃ before round, (run (step client) s before).1.Idle ∧
    Served client (run (step client) (run (step client) s before).1 round).1 ∧
    ((run (step client) (run (step client) s before).1 round).2.filterMap (asks client)).Perm client.keys

/-- **Recovery.** After any history the client can come to serve all its connections again just as long as none of its
    tasks has panicked and each of its asset types has a URL. One panic, or one asset type without a URL, and it never
    does, whatever the network and the scheduler do. -/
theorem recovers_iff (client : Client κ γ) (events : List (Event κ)) :
    ServedAgain client (run (step client) (init client) events).1 ↔
      (run (step client) (init client) events).1.panicked = [] ∧ ∀ key ∈ client.keys, client.accepts key = true := by
  have h : Invariant client (run (step client) (init client) events).1 := (Invariant.init client).run events
  generalize (run (step client) (init client) events).1 = s at h ⊢
  constructor
  · rintro ⟨before, round, -, hserved, -⟩
    rw [← run_append_state] at hserved
    exact h.of_served hserved
  · rintro ⟨hpanicked, haccepted⟩
    obtain ⟨t, ⟨before, rfl⟩, htphase⟩ := sleeps h hpanicked haccepted
    obtain ⟨u, ⟨round, rfl, hasked⟩, hserved⟩ := serves_of_sleeping haccepted htphase
    have hidle : (run (step client) s before).1.Idle :=
      (h.run before).idle (fun todo heq => by rw [heq] at htphase; cases htphase)
        fun heq => by rw [heq] at htphase; cases htphase
    exact ⟨before, round, hidle, hserved, .of_eq hasked⟩

end Supervisor
end Connection
end TradingPlatform
