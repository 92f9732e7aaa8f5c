import TradingPlatform.Connection.Supervision
import Mathlib.Data.List.Count

/-!
# `Connection.Gauges` — what `CONNECTION_STATS` shows of the sockets

An entry is counted up where a connection succeeds and counted down by some of the tasks, at some of their endings.
So it is ahead of the sockets that are open by the number of sockets that have gone without anyone saying so
(`gauge_ahead`).
-/

namespace TradingPlatform
namespace Connection

open Machine

variable {κ γ : Type*}

/-! ## Reading the reports -/

namespace Report

variable [DecidableEq γ] (client : Client κ γ) (entry : γ)

/-- A connection of the entry has been made. -/
def dials : Report κ → Bool
  | .attempted key ok => ok && decide (client.statsKey key = entry)
  | _                 => false

/-- A socket of the entry is gone, and its task has said so. -/
def recorded : Report κ → Bool
  | .left key how => client.records how && decide (client.statsKey key = entry)
  | _             => false

/-- A socket of the entry is gone, and nobody has said so. -/
def unrecorded : Report κ → Bool
  | .left key how => !client.records how && decide (client.statsKey key = entry)
  | .dropped key  => decide (client.statsKey key = entry)
  | .crashed key  => decide (client.statsKey key = entry)
  | _             => false

end Report

namespace Supervisor

section

variable [DecidableEq κ]

/-- Counting after an update in one place. -/
theorem countP_update {keys : List κ} (hnodup : keys.Nodup) {key : κ} (hkey : key ∈ keys) (f : κ → Bool) (b : Bool)
    (p : κ → Bool) :
    keys.countP (fun k => Function.update f key b k && p k) + (f key && p key).toNat
      = keys.countP (fun k => f k && p k) + (b && p key).toNat := by
  induction keys with
  | nil => cases hkey
  | cons k rest ih =>
      obtain ⟨hnot, hnodup⟩ := List.nodup_cons.mp hnodup
      rcases List.mem_cons.mp hkey with rfl | hmem
      · have hrest : rest.countP (fun k => Function.update f key b k && p k) = rest.countP fun k => f k && p k := by
          refine List.countP_congr fun k hk => ?_
          have hne : k ≠ key := fun heq => hnot (heq ▸ hk)
          rw [Function.update_of_ne hne]
        rw [List.countP_cons, List.countP_cons, hrest, Function.update_self]
        cases f key <;> cases b <;> cases p key <;> simp
      · have hne : k ≠ key := fun heq => hnot (heq ▸ hmem)
        have := ih hnodup hmem
        rw [List.countP_cons, List.countP_cons, Function.update_of_ne hne]
        omega

end

variable [DecidableEq γ] {client : Client κ γ} {s : Supervisor κ γ} {entry : γ}

/-- The sockets of an entry that are open. -/
def live (client : Client κ γ) (s : Supervisor κ γ) (entry : γ) : Nat :=
  client.keys.countP (fun key => s.wsStreams key && decide (client.statsKey key = entry)) +
    s.running.countP (fun key => decide (client.statsKey key = entry))

/-- What a step does to the entry and to the sockets it stands for. -/
structure Balanced (client : Client κ γ) (s : Supervisor κ γ) (entry : γ)
    (next : Supervisor κ γ × List (Report κ)) : Prop where
  sockets : live client next.1 entry + next.2.countP (Report.recorded client entry)
      + next.2.countP (Report.unrecorded client entry)
    = live client s entry + next.2.countP (Report.dials client entry)
  connected : live client s entry ≤ (s.stats entry).connected →
    (next.1.stats entry).connected + next.2.countP (Report.recorded client entry)
      = (s.stats entry).connected + next.2.countP (Report.dials client entry)
  disconnected : live client s entry ≤ (s.stats entry).connected →
    (next.1.stats entry).disconnected = (s.stats entry).disconnected + next.2.countP (Report.recorded client entry)
  total : (next.1.stats entry).totalConnections
    = (s.stats entry).totalConnections + next.2.countP (Report.dials client entry)

/-- A step that only moves on. -/
theorem Balanced.silent (entry : γ) (phase : Phase κ) (activeConnections : Nat) :
    Balanced client s entry ({ s with phase, activeConnections }, []) :=
  ⟨rfl, fun _ => rfl, fun _ => rfl, rfl⟩

theorem Balanced.quiet (entry : γ) (phase : Phase κ) {reports : List (Report κ)}
    (hd : reports.countP (Report.dials client entry) = 0) (hr : reports.countP (Report.recorded client entry) = 0)
    (hu : reports.countP (Report.unrecorded client entry) = 0) : Balanced client s entry ({ s with phase }, reports) := by
  constructor
  · show live client s entry + _ + _ = _
    rw [hd, hr, hu]
  · intro _
    show _ + _ = _
    rw [hd, hr]
  · intro _
    rw [hr]
    rfl
  · rw [hd]
    rfl

variable [DecidableEq κ]

/-- The stream under a key makes way for another, or for none. -/
theorem live_update {key : κ} (hkey : key ∈ client.keys) (stream : Bool) (entry : γ) :
    live client { s with wsStreams := Function.update s.wsStreams key stream } entry
        + (s.wsStreams key && decide (client.statsKey key = entry)).toNat
      = live client s entry + (stream && decide (client.statsKey key = entry)).toNat := by
  have := countP_update client.nodup hkey s.wsStreams stream fun key => decide (client.statsKey key = entry)
  unfold live
  dsimp only
  omega

theorem Balanced.attempt {key : κ} (hkey : key ∈ client.keys) (entry : γ) (rest : List κ)
    (retryCount : Nat) (ok : Bool) : Balanced client s entry (s.attempt client key rest retryCount ok) := by
  have hupdate := fun stream => live_update (s := s) hkey stream entry
  unfold Supervisor.attempt
  split
  next =>
    split
    next => exact .quiet entry s.phase rfl rfl rfl
    next => exact .quiet entry .sleeping rfl rfl rfl
  next =>
    split
    next =>
      -- one socket more, and perhaps one less
      have hupdate := hupdate true
      constructor
      all_goals
        simp only [replace]
        by_cases hentry : client.statsKey key = entry
        · subst hentry
          cases hstream : s.wsStreams key <;>
            simp [hstream, Report.dials, Report.recorded, Report.unrecorded, ConnectionStats.opened] at hupdate ⊢
          all_goals exact hupdate
        · cases hstream : s.wsStreams key <;>
            simp [hstream, hentry, Ne.symm hentry, Report.dials, Report.recorded, Report.unrecorded,
              Function.update_of_ne] at hupdate ⊢
          all_goals exact hupdate
    next =>
      split
      next => exact .quiet entry s.phase rfl rfl rfl
      next =>
        split
        next =>
          have hupdate := hupdate false
          constructor
          all_goals
            simp only [replace]
            by_cases hentry : client.statsKey key = entry
            all_goals
              cases hstream : s.wsStreams key <;>
                simp [hstream, hentry, Report.dials, Report.recorded, Report.unrecorded] at hupdate ⊢
              all_goals exact hupdate
        next => exact .quiet entry _ rfl rfl rfl

/-- A stream goes from the map to its task. -/
theorem Balanced.spawn {key : κ} (hkey : key ∈ client.keys) (entry : γ) (rest : List κ) :
    Balanced client s entry (s.spawn key rest) := by
  unfold Supervisor.spawn
  split
  next hstream =>
    have hupdate := live_update (s := s) hkey false entry
    unfold live at hupdate
    constructor
    · unfold live
      dsimp only at hupdate ⊢
      rw [List.countP_cons]
      cases hentry : decide (client.statsKey key = entry)
      all_goals
        simp [hstream, hentry, Report.dials, Report.recorded, Report.unrecorded] at hupdate ⊢
        omega
    · exact fun _ => rfl
    · exact fun _ => rfl
    · rfl
  next => exact .quiet entry _ rfl rfl rfl

theorem Balanced.proceed (h : Invariant client s) (entry : γ) (ok : Bool) :
    Balanced client s entry (s.proceed client ok) := by
  have hfits := h.fits
  unfold Fits at hfits
  unfold Supervisor.proceed
  split
  next key rest _ hphase =>
    rw [hphase] at hfits
    exact .attempt (hfits.2.1.subset List.mem_cons_self) entry _ _ _
  next => exact .quiet entry _ rfl rfl rfl
  next =>
    split
    · exact .quiet entry _ rfl rfl rfl
    · split
      · exact .quiet entry _ rfl rfl rfl
      · exact .quiet entry _ rfl rfl rfl
  next => exact .silent entry _ _
  next =>
    split
    · exact .silent entry _ _
    · exact .quiet entry _ rfl rfl rfl
  next key rest hphase =>
    rw [hphase] at hfits
    exact .spawn (hfits.1.subset List.mem_cons_self) entry rest
  next => exact .quiet entry _ rfl rfl rfl
  next =>
    split
    · exact .quiet entry s.phase rfl rfl rfl
    · exact .quiet entry _ rfl rfl rfl
  next => exact .quiet entry _ rfl rfl rfl

/-- A task ends with its socket. -/
theorem live_erase (client : Client κ γ) {key : κ} (hkey : key ∈ s.running) (entry : γ) :
    (s.running.erase key).countP (fun key => decide (client.statsKey key = entry))
        + (decide (client.statsKey key = entry)).toNat
      = s.running.countP fun key => decide (client.statsKey key = entry) := by
  rw [(List.perm_cons_erase hkey).countP_eq, List.countP_cons]
  cases decide (client.statsKey key = entry) <;> rfl

theorem Balanced.step (h : Invariant client s) (entry : γ) (event : Event κ) :
    Balanced client s entry (s.step client event) := by
  cases event with
  | proceed ok => exact .proceed h entry ok
  | leaves key how =>
      unfold Supervisor.step
      dsimp only
      split
      next hmem =>
        have herase := live_erase client hmem entry
        have hlive : client.statsKey key = entry → 0 < live client s entry := fun hentry => by
          rw [decide_eq_true hentry, Bool.toNat_true] at herase
          unfold live
          omega
        by_cases hentry : client.statsKey key = entry
        · subst hentry
          cases hrecords : client.records how with
          | true =>
              -- the entry counts the socket that goes, so it is not at zero
              have hlost : live client s (client.statsKey key) ≤ (s.stats (client.statsKey key)).connected →
                  (s.stats (client.statsKey key)).connected > 0 := fun hle => Nat.lt_of_lt_of_le (hlive rfl) hle
              constructor
              · unfold live
                simp [hrecords, Report.dials, Report.recorded, Report.unrecorded] at herase ⊢
                omega
              · intro hle
                have := hlost hle
                simp [hrecords, Report.dials, Report.recorded, ConnectionStats.lost, hlost hle]
                omega
              · intro hle
                simp [hrecords, Report.recorded, ConnectionStats.lost, hlost hle]
              · simp [Report.dials, ConnectionStats.lost]
                split <;> rfl
          | false =>
              constructor
              · unfold live
                simp [hrecords, Report.dials, Report.recorded, Report.unrecorded] at herase ⊢
                omega
              · simp [hrecords, Report.dials, Report.recorded]
              · simp [hrecords, Report.recorded]
              · simp [Report.dials]
        · have hstats : (if client.records how then
              Function.update s.stats (client.statsKey key) (s.stats (client.statsKey key)).lost
              else s.stats) entry = s.stats entry := by
            split
            · exact Function.update_of_ne (Ne.symm hentry) ..
            · rfl
          refine ⟨?_, fun _ => ?_, fun _ => ?_, ?_⟩
          · unfold live
            simp [hentry, Report.dials, Report.recorded, Report.unrecorded] at herase ⊢
            omega
          all_goals simp [hentry, hstats, Report.dials, Report.recorded]
      next => exact .quiet entry s.phase rfl rfl rfl
  | panics key =>
      unfold Supervisor.step
      dsimp only
      split
      next hmem =>
        have herase := live_erase client hmem entry
        refine ⟨?_, fun _ => rfl, fun _ => rfl, rfl⟩
        unfold live
        dsimp only
        cases hentry : decide (client.statsKey key = entry)
        all_goals
          simp [hentry, Report.dials, Report.recorded, Report.unrecorded] at herase ⊢
          omega
      next => exact .quiet entry s.phase rfl rfl rfl

/-! ## Runs -/

/-- What an entry shows after some reports. -/
structure Shows (client : Client κ γ) (s : Supervisor κ γ) (reports : List (Report κ)) (entry : γ) : Prop where
  sockets      : live client s entry + reports.countP (Report.recorded client entry)
      + reports.countP (Report.unrecorded client entry) = reports.countP (Report.dials client entry)
  connected    : (s.stats entry).connected = live client s entry + reports.countP (Report.unrecorded client entry)
  disconnected : (s.stats entry).disconnected = reports.countP (Report.recorded client entry)
  total        : (s.stats entry).totalConnections = reports.countP (Report.dials client entry)

theorem Shows.step {reports : List (Report κ)} (hshows : Shows client s reports entry) (h : Invariant client s)
    (event : Event κ) :
    Shows client (s.step client event).1 (reports ++ (s.step client event).2) entry := by
  have hstep := Balanced.step h entry event
  have hle : live client s entry ≤ (s.stats entry).connected := by
    rw [hshows.connected]
    exact Nat.le_add_right ..
  have hsockets := hstep.sockets
  have hconnected := hstep.connected hle
  refine ⟨?_, ?_, ?_, ?_⟩
  · rw [List.countP_append, List.countP_append, List.countP_append]
    have := hshows.sockets
    omega
  · rw [List.countP_append]
    have := hshows.connected
    omega
  · rw [List.countP_append, hstep.disconnected hle, hshows.disconnected]
  · rw [List.countP_append, hstep.total, hshows.total]

theorem shows_run (client : Client κ γ) (events : List (Event κ)) (entry : γ) :
    Shows client (run (step client) (init client) events).1 (run (step client) (init client) events).2 entry := by
  have hinit : Invariant client (init client) ∧ Shows client (init client) [] entry := by
    have hnone : live client (init client) entry = 0 := by simp [live, init]
    refine ⟨.init client, ?_, ?_, rfl, rfl⟩
    all_goals
      rw [hnone]
      rfl
  have hstep : ∀ s reports event, Invariant client s ∧ Shows client s reports entry → True →
      Invariant client (s.step client event).1 ∧
        Shows client (s.step client event).1 (reports ++ (s.step client event).2) entry :=
    fun s reports event h _ => ⟨h.1.step event, h.2.step h.1 event⟩
  have hguard : Guarded (step client) (fun _ _ => True) (init client) events :=
    guarded_of_forall (P := fun _ => True) (fun _ _ => trivial) _
  exact (Guarded.trace_invariant hstep hguard hinit).2

/-- **The gauge runs ahead.** In every run an entry of `CONNECTION_STATS` shows the sockets that are open and all those
    ever lost without a record of it: it is exact just as long as there is none. -/
theorem gauge_ahead (client : Client κ γ) (events : List (Event κ)) (entry : γ) :
    let s := (run (step client) (init client) events).1
    let reports := (run (step client) (init client) events).2
    (s.stats entry).connected = live client s entry + reports.countP (Report.unrecorded client entry) ∧
      (s.stats entry).connected + (s.stats entry).disconnected = (s.stats entry).totalConnections ∧
      ((s.stats entry).connected = live client s entry ↔
        ∀ report ∈ reports, Report.unrecorded client entry report = false) := by
  intro s reports
  have h : Shows client s reports entry := shows_run client events entry
  have hsockets := h.sockets
  have hconnected := h.connected
  have htotal := h.total
  have hdisconnected := h.disconnected
  refine ⟨hconnected, by omega, ?_⟩
  have hzero : (s.stats entry).connected = live client s entry ↔
      reports.countP (Report.unrecorded client entry) = 0 := by omega
  rw [hzero, List.countP_eq_zero]
  exact forall₂_congr fun report _ => iff_of_eq (Bool.not_eq_true _)

end Supervisor
end Connection
end TradingPlatform
