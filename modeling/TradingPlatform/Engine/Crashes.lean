import TradingPlatform.Engine.Persistence
import TradingPlatform.Library.Machine

/-!
# `Engine.Crashes` — checkpoints, crashes in the middle of a write, and restarts

A process may die at any point of a checkpoint, also while a file is being written; then the file is there and cannot
be read. The next process starts with a new manager in the same directory. Half-written snapshots count as snapshots:
they are the youngest files, `find_snapshots` finds them and `cleanup_old_snapshots` counts them.

Recovery still returns the newest snapshot that was written to its end, through any number of crashes, unless a crash
hits the very file that holds it (`recovers_newest`). The file system is that of `Library.Directory`: modification
times increase strictly, so that no two files are equally young.
-/

namespace TradingPlatform
namespace Engine

open Market Directory Machine

/-! ## Half-written files -/

/-- What is left of a file is not JSON. A snapshot file with a buffer in it is as unreadable, and the other way
    around. -/
def halfWritten (name : String) : Content :=
  if isSnapshotName name then .buffer []
  else .snapshot ⟨0, .binance, "", .new "" .binance, 0, [], none, 1⟩

theorem loadSnapshot_halfWritten {name : String} (h : isSnapshotName name = true) :
    loadSnapshot (halfWritten name) = none := by
  rw [halfWritten, if_pos h]
  rfl

/-- How a call ends: it returns, or the process dies after so many file operations, perhaps in the next write. -/
inductive Outcome where
  | returned
  | died (done : Nat) (writing : Bool)
deriving DecidableEq

inductive Action where
  | checkpoint (call : Checkpoint) (outcome : Outcome)
  | recover

/-- The directory after a crash. -/
def dirAfter (dir : SnapshotDir) (ops : List FileOp) : Outcome → SnapshotDir
  | .returned          => dir.applyAll ops
  | .died done writing =>
      match writing, ops[done]? with
      | true, some (.write name _) => (dir.applyAll (ops.take done)).write name (halfWritten name)
      | _, _                       => dir.applyAll (ops.take done)

/-- A manager, its directory, and the file that holds the newest complete snapshot. -/
structure Session where
  saved  : Saved
  newest : Option (String × Checkpoint)

def Session.new (config : PersistenceConfig) (symbol : String) (exchange : Exchange) : Session :=
  { saved := .new config symbol exchange, newest := none }

/-- The call is one that makes a snapshot. -/
def PersistenceManager.due (m : PersistenceManager) : Bool := ¬ m.updatesSinceSnapshot + 1 < m.config.snapshotInterval

/-- The file a snapshot is written into, and the one it ends up in. -/
def PersistenceManager.written (m : PersistenceManager) (c : Checkpoint) : String :=
  snapshotStem m.symbol c.sequence c.timestamp ++ if m.config.atomicWrites then ".tmp" else ".json"

def PersistenceManager.final (m : PersistenceManager) (c : Checkpoint) : String :=
  snapshotStem m.symbol c.sequence c.timestamp ++ ".json"

/-- The newest complete snapshot after so many operations of a call. -/
def Session.newestAfter (s : Session) (c : Checkpoint) (done : Nat) : Option (String × Checkpoint) :=
  if s.saved.manager.due = false ∨ done = 0 then s.newest
  else if done = 1 then some (s.saved.manager.written c, c)
  else some (s.saved.manager.final c, c)

def Session.act (s : Session) : Action → Session
  | .checkpoint c .returned =>
      { saved := s.saved.checkpoint c, newest := s.newestAfter c 2 }
  | .checkpoint c (.died done writing) =>
      { saved :=
          { manager := .new s.saved.manager.config s.saved.manager.symbol s.saved.manager.exchange
            dir := dirAfter s.saved.dir (s.saved.fileOps c) (.died done writing) }
        newest := s.newestAfter c done }
  | .recover => { s with saved := { s.saved with dir := (Engine.recover s.saved.dir).1 } }

def Session.step (s : Session) (action : Action) : Session × List Empty := (s.act action, [])

/-- The crash, if there is one, does not hit the file with the newest complete snapshot. -/
def Session.Spares (s : Session) : Action → Prop
  | .checkpoint c (.died 0 true) =>
      s.saved.manager.due = true → ∀ held ∈ s.newest, s.saved.manager.written c ≠ held.1
  | _ => True

instance (s : Session) : (action : Action) → Decidable (s.Spares action)
  | .checkpoint c (.died 0 true) =>
      inferInstanceAs (Decidable (s.saved.manager.due = true → ∀ held ∈ s.newest, s.saved.manager.written c ≠ held.1))
  | .checkpoint _ .returned | .checkpoint _ (.died 0 false) | .checkpoint _ (.died (_ + 1) _) | .recover =>
      inferInstanceAs (Decidable True)

/-! ## What the directory holds -/

/-- A snapshot file that can be read. -/
def readable (e : String × File Content) : Bool := isSnapshotName e.1 && (loadSnapshot e.2.content).isSome

theorem readable_iff (e : String × File Content) :
    readable e = true ↔ isSnapshotName e.1 = true ∧ (loadSnapshot e.2.content).isSome = true := Bool.and_eq_true_iff

/-- The newest snapshot that can be read is of the call. -/
structure Kept (dir : SnapshotDir) (name : String) (c : Checkpoint) : Prop where
  wellFormed : dir.WellFormed
  newest     : ∃ state mtime, Disk.Newest readable dir (name, ⟨.snapshot state, mtime⟩) ∧
    state.orderbook = c.orderbook ∧ state.lastSequence = c.sequence

/-- It is the youngest of all snapshot files. -/
structure Fresh (dir : SnapshotDir) (name : String) (c : Checkpoint) : Prop where
  wellFormed : dir.WellFormed
  latest     : ∃ state mtime, Disk.Latest isSnapshotName dir (name, ⟨.snapshot state, mtime⟩) ∧
    state.orderbook = c.orderbook ∧ state.lastSequence = c.sequence

/-- The directory has what is said to be the newest complete snapshot. -/
def Sound (dir : SnapshotDir) : Option (String × Checkpoint) → Prop
  | none           => dir.WellFormed ∧ ∀ e ∈ dir.entries, readable e = false
  | some (name, c) => Kept dir name c

variable {dir : SnapshotDir} {name : String} {c : Checkpoint} {newest : Option (String × Checkpoint)}

theorem Fresh.stores (h : Fresh dir name c) : Kept dir name c := by
  obtain ⟨state, mtime, hlatest, hstate⟩ := h.latest
  have hreadable : readable (name, ⟨.snapshot state, mtime⟩) = true := (readable_iff _).mpr ⟨hlatest.picked, rfl⟩
  exact ⟨h.wellFormed, state, mtime, hlatest.newest (fun e he => ((readable_iff e).mp he).1) hreadable, hstate⟩

theorem fresh_write (hw : dir.WellFormed) (hname : isSnapshotName name = true) {state : PersistedState}
    (hbook : state.orderbook = c.orderbook) (hseq : state.lastSequence = c.sequence) :
    Fresh (dir.write name (.snapshot state)) name c :=
  ⟨hw.write name _, state, dir.clock, Disk.latest_write hw hname _, hbook, hseq⟩

theorem Fresh.rename (h : Fresh dir name c) {target : String} (hname : isSnapshotName target = true) :
    Fresh (dir.rename name target) target c := by
  obtain ⟨state, mtime, hlatest, hstate⟩ := h.latest
  exact ⟨h.wellFormed.rename name target, state, mtime, hlatest.rename h.wellFormed hname, hstate⟩

theorem Fresh.removeAll (h : Fresh dir name c) {entries : List (String × File Content)}
    (hothers : ∀ e ∈ entries, e.1 ≠ name) : Fresh (dir.applyAll (entries.map fun e => .remove e.1)) name c := by
  induction entries generalizing dir with
  | nil => exact h
  | cons e entries ih =>
      obtain ⟨state, mtime, hlatest, hstate⟩ := h.latest
      have hne := hothers e List.mem_cons_self
      refine ih ⟨h.wellFormed.remove e.1, state, mtime, hlatest.remove_other hne, hstate⟩ fun e' he' => ?_
      exact hothers e' (List.mem_cons_of_mem _ he')

/-- Cleaning up, all of it or a part, keeps the youngest. -/
theorem Fresh.cleanup (h : Fresh dir name c) {config : PersistenceConfig} (hmax : 1 ≤ config.maxSnapshots)
    (count : Nat) : Fresh (dir.applyAll ((cleanupOldSnapshots config dir).take count)) name c := by
  rw [cleanupOldSnapshots, ← List.map_take]
  refine h.removeAll fun e he => ?_
  obtain ⟨state, mtime, hlatest, -⟩ := h.latest
  have hpos : 0 < (findSnapshots dir).length :=
    List.length_pos_of_mem (Disk.mem_byAge.mpr ⟨hlatest.mem, hlatest.picked⟩)
  have hcount : (findSnapshots dir).length - config.maxSnapshots < (findSnapshots dir).length := by omega
  exact hlatest.ne_of_mem_take h.wellFormed hcount (List.mem_of_mem_take he)

/-! A file that can not be read as a snapshot is of no consequence, unless it takes the place of the one that holds
the newest. -/

theorem Sound.wellFormed (h : Sound dir newest) : dir.WellFormed := by
  cases newest with
  | none => exact h.1
  | some held => exact Kept.wellFormed h

theorem Sound.write (h : Sound dir newest) {content : Content} (hfile : ∀ held ∈ newest, name ≠ held.1)
    (hunreadable : ∀ mtime, readable (name, ⟨content, mtime⟩) = false) : Sound (dir.write name content) newest := by
  cases newest with
  | none =>
      refine ⟨h.1.write name content, fun e he => ?_⟩
      rcases List.mem_append.mp he with he | he
      · exact h.2 e (List.mem_of_mem_filter he)
      · rw [List.mem_singleton.mp he]
        exact hunreadable _
  | some held =>
      obtain ⟨hw, state, mtime, hnewest, hstate⟩ := h
      exact ⟨hw.write name content, state, mtime, hnewest.write_other (hfile _ rfl) (hunreadable _), hstate⟩

theorem Sound.isSnapshotName (h : Sound dir newest) : ∀ held ∈ newest, Engine.isSnapshotName held.1 = true := by
  rintro ⟨name, c⟩ rfl
  obtain ⟨-, state, mtime, hnewest, -⟩ := h
  exact ((readable_iff _).mp hnewest.picked).1

theorem readable_bufferFile (content : Content) (mtime : Nat) : readable (bufferFile, ⟨content, mtime⟩) = false := by
  rw [readable, isSnapshotName_bufferFile, Bool.false_and]

/-- Whatever becomes of the buffer file. -/
theorem Sound.writeBuffer (h : Sound dir newest) (content : Content) : Sound (dir.write bufferFile content) newest :=
  h.write (fun held hheld => (ne_bufferFile (h.isSnapshotName held hheld)).symm) (readable_bufferFile content)

theorem Sound.removeBuffer (h : Sound dir newest) : Sound (dir.remove bufferFile) newest := by
  cases newest with
  | none => exact ⟨h.1.remove _, fun e he => h.2 e (List.mem_of_mem_filter he)⟩
  | some held =>
      have hname := Sound.isSnapshotName h held rfl
      obtain ⟨hw, state, mtime, hnewest, hstate⟩ := h
      exact ⟨hw.remove _, state, mtime, hnewest.remove_other (ne_bufferFile hname).symm, hstate⟩

/-! ## One call -/

variable {s : Session}

/-- The snapshot part of a call, after so many of its operations. -/
theorem sound_saveState (hmax : 1 ≤ s.saved.manager.config.maxSnapshots) (h : Sound s.saved.dir s.newest)
    (c : Checkpoint) (done : Nat) :
    Sound (s.saved.dir.applyAll
        ((s.saved.manager.saveState s.saved.dir c.orderbook c.sequence c.timestamp).2.take done))
      (s.newestAfter c done) := by
  unfold PersistenceManager.saveState Session.newestAfter PersistenceManager.due
  by_cases hdue : s.saved.manager.updatesSinceSnapshot + 1 < s.saved.manager.config.snapshotInterval
  · rw [if_pos hdue, if_pos (.inl (by simp [hdue]))]
    rw [List.take_nil]
    exact h
  · rw [if_neg hdue]
    cases done with
    | zero =>
        rw [if_pos (.inr rfl), List.take_zero]
        exact h
    | succ done =>
        have hnot : ¬ ((decide ¬ s.saved.manager.updatesSinceSnapshot + 1 < s.saved.manager.config.snapshotInterval)
            = false ∨ done + 1 = 0) := by simp [hdue]
        rw [if_neg hnot]
        have hwritten : ∀ extension, Fresh (s.saved.dir.write (snapshotStem s.saved.manager.symbol c.sequence
            c.timestamp ++ extension) (.snapshot (s.saved.manager.state c.orderbook c.sequence c.timestamp))) _ c :=
          fun extension => fresh_write h.wellFormed (isSnapshotName_append _ _ _ extension) rfl rfl
        unfold PersistenceManager.written PersistenceManager.final
        by_cases hatomic : s.saved.manager.config.atomicWrites = true
        · simp only [hatomic, if_true, atomicWrite]
          cases done with
          | zero => exact (hwritten ".tmp").stores
          | succ done =>
              have hrenamed := (hwritten ".tmp").rename (isSnapshotName_append s.saved.manager.symbol c.sequence
                c.timestamp ".json")
              exact (hrenamed.cleanup hmax done).stores
        · simp only [if_neg hatomic]
          have hstored := ((hwritten ".json").cleanup hmax done).stores
          split <;> exact hstored

/-- All of a call, after so many of its operations. -/
theorem sound_fileOps (hmax : 1 ≤ s.saved.manager.config.maxSnapshots) (h : Sound s.saved.dir s.newest)
    (c : Checkpoint) (done : Nat) :
    Sound (s.saved.dir.applyAll ((s.saved.fileOps c).take done)) (s.newestAfter c done) := by
  unfold Saved.fileOps PersistenceManager.checkpoint
  rw [List.take_append, Disk.applyAll, List.foldl_append]
  have hsnapshot := sound_saveState hmax h c done
  unfold saveBuffer
  split
  · rw [List.take_nil]
    exact hsnapshot
  · generalize done - _ = left
    cases left with
    | zero => exact hsnapshot
    | succ left =>
        rw [List.take_succ_cons, List.take_nil]
        exact hsnapshot.writeBuffer _

/-- A snapshot is written first, before anything is renamed or removed. -/
theorem name_of_saveState {m : PersistenceManager} {c : Checkpoint} {done : Nat} {name : String} {content : Content}
    (h : (m.saveState dir c.orderbook c.sequence c.timestamp).2[done]? = some (.write name content)) :
    done = 0 ∧ m.due = true ∧ name = m.written c := by
  have hcleanup : ∀ dir, Op.write name content ∉ cleanupOldSnapshots m.config dir := by
    intro dir hmem
    obtain ⟨_, _, heq⟩ := List.mem_map.mp hmem
    cases heq
  unfold PersistenceManager.saveState at h
  split at h
  next => cases h
  next hdue =>
    have hdue : m.due = true := decide_eq_true hdue
    rw [PersistenceManager.written]
    by_cases hatomic : m.config.atomicWrites = true
    · simp only [hatomic, if_true, atomicWrite] at h ⊢
      rcases done with _ | _ | done
      · cases h
        exact ⟨rfl, hdue, rfl⟩
      · cases h
      · simp only [List.cons_append, List.nil_append, List.getElem?_cons_succ] at h
        exact absurd (List.mem_of_getElem? h) (hcleanup _)
    · simp only [if_neg hatomic] at h ⊢
      cases done with
      | zero =>
          cases h
          exact ⟨rfl, hdue, rfl⟩
      | succ done =>
          simp only [List.cons_append, List.nil_append, List.getElem?_cons_succ] at h
          exact absurd (List.mem_of_getElem? h) (hcleanup _)

/-- The writes of a call: the snapshot, if one is due, comes first, and the buffer last. -/
theorem name_of_write {c : Checkpoint} {done : Nat} {name : String} {content : Content}
    (h : (s.saved.fileOps c)[done]? = some (.write name content)) :
    name = bufferFile ∨ done = 0 ∧ s.saved.manager.due = true ∧ name = s.saved.manager.written c := by
  unfold Saved.fileOps PersistenceManager.checkpoint at h
  dsimp only at h
  by_cases hlt : done < (s.saved.manager.saveState s.saved.dir c.orderbook c.sequence c.timestamp).2.length
  · rw [List.getElem?_append_left hlt] at h
    exact .inr (name_of_saveState h)
  · rw [List.getElem?_append_right (Nat.not_lt.mp hlt)] at h
    have hmem := List.mem_of_getElem? h
    unfold saveBuffer at hmem
    split at hmem
    · cases hmem
    · cases List.mem_singleton.mp hmem
      exact .inl rfl

/-- **A crash** at any point of a call. -/
theorem sound_died (hmax : 1 ≤ s.saved.manager.config.maxSnapshots) (h : Sound s.saved.dir s.newest)
    {c : Checkpoint} {done : Nat} {writing : Bool} (hspares : s.Spares (.checkpoint c (.died done writing))) :
    Sound (dirAfter s.saved.dir (s.saved.fileOps c) (.died done writing)) (s.newestAfter c done) := by
  have hdone := sound_fileOps hmax h c done
  unfold dirAfter
  dsimp only
  split
  next name content hop =>
    rcases name_of_write hop with rfl | ⟨rfl, hdue, rfl⟩
    · exact hdone.writeBuffer _
    · -- nothing has been done yet, and the write is of the snapshot
      have hname : isSnapshotName (s.saved.manager.written c) = true := isSnapshotName_append ..
      refine hdone.write (fun held hheld => ?_) fun mtime => ?_
      · rw [Session.newestAfter, if_pos (.inr rfl)] at hheld
        exact hspares hdue held hheld
      · rw [readable, loadSnapshot_halfWritten hname, Option.isSome_none, Bool.and_false]
  next => exact hdone

/-! ## Any history -/

structure Session.Sound (config : PersistenceConfig) (s : Session) : Prop where
  managed : s.saved.manager.config = config
  holds   : Engine.Sound s.saved.dir s.newest

variable {config : PersistenceConfig}

theorem Session.Sound.act (hmax : 1 ≤ config.maxSnapshots) (h : s.Sound config) (action : Action)
    (hspares : s.Spares action) : (s.act action).Sound config := by
  obtain ⟨rfl, hholds⟩ := h
  match action with
  | .checkpoint c .returned =>
      refine ⟨?_, ?_⟩
      · show (s.saved.manager.saveState _ _ _ _).1.config = _
        unfold PersistenceManager.saveState
        split <;> rfl
      · have hall := sound_fileOps hmax hholds c ((s.saved.fileOps c).length + 2)
        rw [List.take_of_length_le (Nat.le_add_right ..)] at hall
        have hnewest : s.newestAfter c ((s.saved.fileOps c).length + 2) = s.newestAfter c 2 := by
          simp [Session.newestAfter]
        rw [hnewest] at hall
        exact hall
  | .checkpoint c (.died done writing) => exact ⟨rfl, sound_died hmax hholds hspares⟩
  | .recover =>
      refine ⟨rfl, ?_⟩
      show Engine.Sound (recover s.saved.dir).1 s.newest
      unfold recover loadBuffer
      split
      next => exact hholds
      next =>
        dsimp only
        split
        · exact hholds.removeBuffer
        · exact hholds

theorem Session.Sound.new (config : PersistenceConfig) (symbol : String) (exchange : Exchange) :
    (Session.new config symbol exchange).Sound config :=
  ⟨rfl, Disk.wellFormed_empty, fun _ he => absurd he List.not_mem_nil⟩

/-- What is recovered of a sound directory. -/
theorem Sound.recover (h : Sound dir newest) :
    (Engine.recover dir).2.map (fun recovered => (recovered.1, recovered.2.1))
      = newest.map fun held => (held.2.orderbook, held.2.sequence) := by
  have hload : (loadLatestState dir).map (fun state => (state.orderbook, state.lastSequence))
      = newest.map fun held => (held.2.orderbook, held.2.sequence) := by
    cases newest with
    | none =>
        have hnone : loadLatestState dir = none := by
          refine List.findSome?_eq_none_iff.mpr fun e he => ?_
          obtain ⟨hmem, hname⟩ := Disk.mem_byAge.mp (List.mem_reverse.mp he)
          have hunreadable := h.2 e hmem
          rw [readable, hname, Bool.true_and] at hunreadable
          exact Option.isNone_iff_eq_none.mp (by simpa using hunreadable)
        rw [hnone]
        rfl
    | some held =>
        obtain ⟨hw, state, mtime, hnewest, hbook, hseq⟩ := h
        have hsome : loadLatestState dir = some state := hnewest.findSome?_byAge hw readable_iff
        rw [hsome, Option.map_some, Option.map_some, hbook, hseq]
  rw [← hload]
  unfold Engine.recover
  split
  next heq => rw [heq]; rfl
  next heq => rw [heq]; rfl

/-- **Durability.** After any history of checkpoints, crashes in the middle of them and recoveries, in which no crash
    hits the file of the newest complete snapshot, recovery returns that snapshot, and nothing if there is none yet.
    The half-written files do not matter, and neither does how many snapshots are kept. -/
theorem recovers_newest (config : PersistenceConfig) (hmax : 1 ≤ config.maxSnapshots) (symbol : String)
    (exchange : Exchange) (actions : List Action)
    (hspares : Guarded Session.step Session.Spares (.new config symbol exchange) actions) :
    let s := (run Session.step (.new config symbol exchange) actions).1
    (recover s.saved.dir).2.map (fun recovered => (recovered.1, recovered.2.1))
      = s.newest.map fun held => (held.2.orderbook, held.2.sequence) := by
  have hsound : ((run Session.step (.new config symbol exchange) actions).1).Sound config :=
    Guarded.invariant (fun s action h hspares => h.act hmax action hspares) hspares (.new config symbol exchange)
  exact hsound.holds.recover

/-- One snapshot, and then a crash in the middle of the next. -/
def tornHistory : List Action :=
  [.checkpoint bufferedCall .returned, .checkpoint emptyCall (.died 0 true), .recover,
    .checkpoint emptyCall (.died 0 true)]

theorem torn_history_recovers :
    (recover (run Session.step (.new everyCall "BTCUSDT" .binance) tornHistory).1.saved.dir).2.map
        (fun recovered => (recovered.1, recovered.2.1))
      = some (bufferedCall.orderbook, 12345) :=
  (recovers_newest everyCall (by decide) "BTCUSDT" .binance tornHistory (by decide +kernel)).trans (by decide +kernel)

end Engine
end TradingPlatform
