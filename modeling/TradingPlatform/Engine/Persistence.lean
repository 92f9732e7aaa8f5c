import TradingPlatform.Market.OrderBook
import TradingPlatform.Library.Directory

/-!
# `Engine.Persistence` — checkpoints on disk

A checkpoint writes a snapshot file, removes the oldest snapshots, and writes the buffered updates into a file of
their own. Recovery takes the youngest snapshot and whatever buffer file there is. What a checkpoint does is a
list of file operations, and a crash leaves a prefix of it done. Files hold values: encoding is exact, and every
operation succeeds.

The buffer file is written only when there is something to write, and last. So recovery puts the newest snapshot
together with the last buffer that was not empty (`Between.recover_crashed`, `recovers_checkpoints_iff`).
-/

namespace TradingPlatform
namespace Engine

open Market Directory

/-! ## Files -/

/-- Persisted orderbook state -/
structure PersistedState where
  timestamp       : Nat
  exchange        : Exchange
  symbol          : String
  orderbook       : OrderBook
  lastSequence    : Nat
  bufferedUpdates : List OrderBookUpdate
  checksum        : Option String
  version         : Nat
deriving DecidableEq

inductive Content where
  | snapshot (state : PersistedState)
  | buffer (updates : List OrderBookUpdate)
deriving DecidableEq

/-- The snapshot directory of one exchange and symbol. -/
abbrev SnapshotDir := Disk String Content

abbrev FileOp := Op String Content

def bufferFile : String := "buffer.json"

def isSnapshotName (name : String) : Bool := decide ("snapshot_".toList <+: name.toList)

/-- The name without its extension. -/
def snapshotStem (symbol : String) (sequence timestamp : Nat) : String :=
  "snapshot_" ++ (symbol ++ "_" ++ toString sequence ++ "_" ++ toString timestamp)

/-! ## The persistence manager -/

structure PersistenceConfig where
  snapshotInterval : Nat
  maxSnapshots     : Nat
  atomicWrites     : Bool

structure PersistenceManager where
  config               : PersistenceConfig
  symbol               : String
  exchange             : Exchange
  updatesSinceSnapshot : Nat

def PersistenceManager.new (config : PersistenceConfig) (symbol : String) (exchange : Exchange) :
    PersistenceManager :=
  { config, symbol, exchange, updatesSinceSnapshot := 0 }

/-- Find all snapshot files, oldest first. A file not yet renamed is among them. -/
def findSnapshots (dir : SnapshotDir) : List (String × File Content) := Disk.byAge isSnapshotName dir

/-- Write to a temporary file, then rename it. -/
def atomicWrite (stem : String) (content : Content) : List FileOp :=
  [.write (stem ++ ".tmp") content, .rename (stem ++ ".tmp") (stem ++ ".json")]

def cleanupOldSnapshots (config : PersistenceConfig) (dir : SnapshotDir) : List FileOp :=
  ((findSnapshots dir).take ((findSnapshots dir).length - config.maxSnapshots)).map fun e => .remove e.1

/-- What a snapshot holds. The buffered updates are not in it. -/
def PersistenceManager.state (m : PersistenceManager) (orderbook : OrderBook) (sequence timestamp : Nat) :
    PersistedState where
  timestamp       := timestamp
  exchange        := m.exchange
  symbol          := m.symbol
  orderbook       := orderbook
  lastSequence    := sequence
  bufferedUpdates := []
  checksum        := none
  version         := 1

/-- Save orderbook state to disk, every `snapshot_interval` calls. -/
def PersistenceManager.saveState (m : PersistenceManager) (dir : SnapshotDir) (orderbook : OrderBook)
    (sequence timestamp : Nat) : PersistenceManager × List FileOp :=
  if m.updatesSinceSnapshot + 1 < m.config.snapshotInterval then
    ({ m with updatesSinceSnapshot := m.updatesSinceSnapshot + 1 }, [])
  else
    let stem := snapshotStem m.symbol sequence timestamp
    let content := Content.snapshot (m.state orderbook sequence timestamp)
    let writes := if m.config.atomicWrites then atomicWrite stem content else [.write (stem ++ ".json") content]
    ({ m with updatesSinceSnapshot := 0 }, writes ++ cleanupOldSnapshots m.config (dir.applyAll writes))

/-- Nothing is written when there is nothing to write; an older buffer file stays. -/
def saveBuffer (buffer : List OrderBookUpdate) : List FileOp :=
  if buffer = [] then [] else [.write bufferFile (.buffer buffer)]

def loadSnapshot : Content → Option PersistedState
  | .snapshot state => some state
  | .buffer _       => none

/-- Load most recent orderbook state: of the snapshots that can be read, the youngest. -/
def loadLatestState (dir : SnapshotDir) : Option PersistedState :=
  (findSnapshots dir).reverse.findSome? fun e => loadSnapshot e.2.content

/-- Load buffered updates; the file is removed once it has been read. -/
def loadBuffer (dir : SnapshotDir) : SnapshotDir × List OrderBookUpdate :=
  match dir.lookup bufferFile with
  | some (.buffer updates) => (dir.remove bufferFile, updates)
  | _                      => (dir, [])

/-! ## The recovery manager -/

/-- The arguments of a `checkpoint` call, and the second at which it is made. -/
structure Checkpoint where
  orderbook : OrderBook
  sequence  : Nat
  buffer    : List OrderBookUpdate
  timestamp : Nat
deriving DecidableEq

/-- The file operations of a checkpoint, in order. -/
def PersistenceManager.checkpoint (m : PersistenceManager) (dir : SnapshotDir) (c : Checkpoint) :
    PersistenceManager × List FileOp :=
  ((m.saveState dir c.orderbook c.sequence c.timestamp).1,
    (m.saveState dir c.orderbook c.sequence c.timestamp).2 ++ saveBuffer c.buffer)

/-- What recovery returns: a book, its sequence number and a buffer. -/
abbrev Recovered := OrderBook × Nat × List OrderBookUpdate

def recover (dir : SnapshotDir) : SnapshotDir × Option Recovered :=
  match loadLatestState dir with
  | none       => (dir, none)
  | some state => ((loadBuffer dir).1, some (state.orderbook, state.lastSequence, (loadBuffer dir).2))

/-- A manager and its directory. -/
structure Saved where
  manager : PersistenceManager
  dir     : SnapshotDir

/-- A manager that starts in an empty directory. -/
def Saved.new (config : PersistenceConfig) (symbol : String) (exchange : Exchange) : Saved :=
  { manager := .new config symbol exchange, dir := .empty }

namespace Saved

def fileOps (s : Saved) (c : Checkpoint) : List FileOp := (s.manager.checkpoint s.dir c).2

def checkpoint (s : Saved) (c : Checkpoint) : Saved :=
  { manager := (s.manager.checkpoint s.dir c).1, dir := s.dir.applyAll (s.fileOps c) }

/-- One call after the other. -/
def afterAll (s : Saved) (calls : List Checkpoint) : Saved := calls.foldl checkpoint s

/-- The directory when the call crashes after `n` of its file operations. -/
def crashed (s : Saved) (c : Checkpoint) (n : Nat) : SnapshotDir := s.dir.applyAll ((s.fileOps c).take n)

end Saved

/-! ## What a directory holds -/

/-- The buffer file there is when `buffer` was the last one with something in it. -/
def storedBuffer (buffer : List OrderBookUpdate) : Option Content :=
  if buffer = [] then none else some (.buffer buffer)

/-- The youngest snapshot is of `c` and goes by `name`; the buffer file has `buffer`. -/
structure Holds (dir : SnapshotDir) (name : String) (c : Checkpoint) (buffer : List OrderBookUpdate) : Prop where
  wellFormed : dir.WellFormed
  latest     : ∃ state mtime, Disk.Latest isSnapshotName dir (name, ⟨.snapshot state, mtime⟩) ∧
    state.orderbook = c.orderbook ∧ state.lastSequence = c.sequence
  buffered   : dir.lookup bufferFile = storedBuffer buffer

theorem isSnapshotName_bufferFile : isSnapshotName bufferFile = false := by decide

/-- A temporary file and a finished one both count as snapshots. -/
theorem isSnapshotName_append (symbol : String) (sequence timestamp : Nat) (extension : String) :
    isSnapshotName (snapshotStem symbol sequence timestamp ++ extension) = true := by
  refine decide_eq_true ?_
  rw [snapshotStem, String.toList_append, String.toList_append, List.append_assoc]
  exact List.prefix_append _ _

theorem ne_bufferFile {name : String} (h : isSnapshotName name = true) : name ≠ bufferFile := by
  rintro rfl
  rw [isSnapshotName_bufferFile] at h
  cases h

variable {dir : SnapshotDir} {name : String} {c : Checkpoint} {buffer : List OrderBookUpdate}

/-- **Recovery** returns the book and number of that snapshot, and that buffer. -/
theorem Holds.recover (h : Holds dir name c buffer) :
    (recover dir).2 = some (c.orderbook, c.sequence, buffer) := by
  obtain ⟨state, mtime, hlatest, hbook, hseq⟩ := h.latest
  have hload : loadLatestState dir = some state := by
    obtain ⟨older, hage⟩ := List.getLast?_eq_some_iff.mp hlatest.getLast?_byAge
    rw [loadLatestState, findSnapshots, hage, List.reverse_append]
    rfl
  have hbuffer : (loadBuffer dir).2 = buffer := by
    rw [loadBuffer, h.buffered, storedBuffer]
    by_cases hempty : buffer = []
    · rw [if_pos hempty, hempty]
    · rw [if_neg hempty]
  rw [Engine.recover, hload]
  simp only [hbook, hseq, hbuffer]

/-! ## One checkpoint -/

/-- A snapshot just written is held, whatever there was before. -/
theorem holds_write (hw : dir.WellFormed) (hbuffer : dir.lookup bufferFile = storedBuffer buffer)
    (hname : isSnapshotName name = true) {state : PersistedState} (hbook : state.orderbook = c.orderbook)
    (hseq : state.lastSequence = c.sequence) : Holds (dir.write name (.snapshot state)) name c buffer where
  wellFormed := hw.write name _
  latest     := ⟨state, dir.clock, Disk.latest_write hw hname _, hbook, hseq⟩
  buffered   := by rw [Disk.lookup_write_other _ (ne_bufferFile hname), hbuffer]

theorem Holds.rename (h : Holds dir name c buffer) {target : String} (hname : isSnapshotName target = true) :
    Holds (dir.rename name target) target c buffer := by
  obtain ⟨state, mtime, hlatest, hbook, hseq⟩ := h.latest
  refine ⟨h.wellFormed.rename name target, ⟨state, mtime, hlatest.rename h.wellFormed hname, hbook, hseq⟩, ?_⟩
  rw [Disk.lookup_rename_other _ (ne_bufferFile hlatest.picked) (ne_bufferFile hname), h.buffered]

theorem Holds.remove (h : Holds dir name c buffer) {other : String} (hname : isSnapshotName other = true)
    (hne : other ≠ name) : Holds (dir.remove other) name c buffer := by
  obtain ⟨state, mtime, hlatest, hbook, hseq⟩ := h.latest
  refine ⟨h.wellFormed.remove other, ⟨state, mtime, hlatest.remove_other hne, hbook, hseq⟩, ?_⟩
  rw [Disk.lookup_remove_other _ (ne_bufferFile hname), h.buffered]

theorem Holds.removeAll (h : Holds dir name c buffer) {entries : List (String × File Content)}
    (hother : ∀ e ∈ entries, isSnapshotName e.1 = true ∧ e.1 ≠ name) :
    Holds (dir.applyAll (entries.map fun e => .remove e.1)) name c buffer := by
  induction entries generalizing dir with
  | nil => exact h
  | cons e entries ih =>
      obtain ⟨hname, hne⟩ := hother e List.mem_cons_self
      exact ih (h.remove hname hne) fun e' he' => hother e' (List.mem_cons_of_mem _ he')

/-- Cleaning up never removes the youngest snapshot, as at least one is kept. -/
theorem Holds.others (h : Holds dir name c buffer) {config : PersistenceConfig} (hmax : 1 ≤ config.maxSnapshots)
    {e : String × File Content}
    (he : e ∈ (findSnapshots dir).take ((findSnapshots dir).length - config.maxSnapshots)) :
    isSnapshotName e.1 = true ∧ e.1 ≠ name := by
  obtain ⟨state, mtime, hlatest, -, -⟩ := h.latest
  obtain ⟨older, hage⟩ := List.getLast?_eq_some_iff.mp hlatest.getLast?_byAge
  obtain ⟨hmem, hpicked⟩ := List.mem_filter.mp ((List.mem_insertionSort _).mp (List.mem_of_mem_take he))
  refine ⟨hpicked, fun hname => ?_⟩
  have heq := h.wellFormed.eq_of_name hmem hlatest.mem hname
  -- The youngest is not among the older ones, as no entry occurs twice.
  have hnodup : (findSnapshots dir).Nodup :=
    (List.perm_insertionSort _ _).nodup_iff.mpr (h.wellFormed.names.of_map.filter _)
  rw [findSnapshots, hage] at he hnodup
  rw [List.length_append, List.length_singleton, List.take_append_of_le_length (by omega)] at he
  rw [heq] at he
  exact (List.nodup_append.mp hnodup).2.2 _ (List.mem_of_mem_take he) _ (List.mem_singleton_self _) rfl

/-- **Every nonempty part of a snapshot's operations** leaves that snapshot, and the buffer as it was. -/
theorem PersistenceManager.saveState_holds {m : PersistenceManager} (hinterval : m.config.snapshotInterval ≤ 1)
    (hmax : 1 ≤ m.config.maxSnapshots) (hw : dir.WellFormed) (hbuffer : dir.lookup bufferFile = storedBuffer buffer)
    (c : Checkpoint) {n : Nat} (hn : 0 < n) :
    ∃ name, Holds (dir.applyAll ((m.saveState dir c.orderbook c.sequence c.timestamp).2.take n)) name c buffer := by
  obtain ⟨n, rfl⟩ := Nat.exists_eq_succ_of_ne_zero (Nat.pos_iff_ne_zero.mp hn)
  unfold PersistenceManager.saveState
  rw [if_neg (by omega)]
  -- A part of the cleanup removes a part of the older snapshots.
  have hclean : ∀ {dir' name} k, Holds dir' name c buffer →
      Holds (dir'.applyAll ((cleanupOldSnapshots m.config dir').take k)) name c buffer := by
    intro dir' name k h
    rw [cleanupOldSnapshots, ← List.map_take]
    exact h.removeAll fun e he => h.others hmax (List.mem_of_mem_take he)
  have hwritten : ∀ extension, Holds (dir.write (snapshotStem m.symbol c.sequence c.timestamp ++ extension)
      (.snapshot (m.state c.orderbook c.sequence c.timestamp))) _ c buffer := fun extension =>
    holds_write hw hbuffer (isSnapshotName_append _ _ _ extension) rfl rfl
  by_cases hatomic : m.config.atomicWrites = true
  · simp only [hatomic, if_true, atomicWrite]
    cases n with
    | zero => exact ⟨_, hwritten _⟩
    | succ n => exact ⟨_, hclean n ((hwritten _).rename (isSnapshotName_append _ _ _ _))⟩
  · simp only [if_neg hatomic]
    exact ⟨_, hclean n (hwritten _)⟩

/-- The buffer is written last, if at all. -/
theorem Holds.saveBuffer (h : Holds dir name c buffer) (updates : List OrderBookUpdate) :
    Holds (dir.applyAll (saveBuffer updates)) name c (if updates = [] then buffer else updates) := by
  rw [Engine.saveBuffer]
  by_cases hempty : updates = []
  · rw [if_pos hempty, if_pos hempty]
    exact h
  · obtain ⟨state, mtime, hlatest, hstate⟩ := h.latest
    rw [if_neg hempty, if_neg hempty]
    refine ⟨h.wellFormed.write _ _, ⟨state, mtime, hlatest.write_other isSnapshotName_bufferFile _, hstate⟩, ?_⟩
    rw [storedBuffer, if_neg hempty]
    exact Disk.lookup_write _ _ _

/-! ## A sequence of checkpoints -/

/-- The updates in the buffer file after some calls: those of the last call that had any. -/
def leftover (calls : List Checkpoint) : List OrderBookUpdate :=
  ((calls.map Checkpoint.buffer).filter (· ≠ [])).getLast?.getD []

theorem leftover_snoc (calls : List Checkpoint) (c : Checkpoint) :
    leftover (calls ++ [c]) = if c.buffer = [] then leftover calls else c.buffer := by
  unfold leftover
  rw [List.map_append, List.filter_append]
  by_cases hempty : c.buffer = []
  · simp [hempty]
  · simp [hempty]

/-- The state between two calls. -/
structure Between (config : PersistenceConfig) (s : Saved) (calls : List Checkpoint) : Prop where
  managed    : s.manager.config = config
  wellFormed : s.dir.WellFormed
  buffered   : s.dir.lookup bufferFile = storedBuffer (leftover calls)

variable {config : PersistenceConfig} {s : Saved} {before : List Checkpoint}

/-- The snapshot part of a call's operations is never empty. -/
theorem one_le_snapshot_length (hinterval : config.snapshotInterval ≤ 1) (h : Between config s before)
    (c : Checkpoint) : 1 ≤ (s.manager.saveState s.dir c.orderbook c.sequence c.timestamp).2.length := by
  rw [← h.managed] at hinterval
  unfold PersistenceManager.saveState
  rw [if_neg (by omega)]
  by_cases hatomic : s.manager.config.atomicWrites = true
  · simp [hatomic, atomicWrite]
  · simp [hatomic]

theorem Between.snapshot (hinterval : config.snapshotInterval ≤ 1) (hmax : 1 ≤ config.maxSnapshots)
    (h : Between config s before) (c : Checkpoint) {n : Nat} (hn : 0 < n) :
    ∃ name, Holds (s.dir.applyAll ((s.manager.saveState s.dir c.orderbook c.sequence c.timestamp).2.take n)) name c
      (leftover before) := by
  rw [← h.managed] at hinterval hmax
  exact PersistenceManager.saveState_holds hinterval hmax h.wellFormed h.buffered c hn

theorem Between.checkpoint (hinterval : config.snapshotInterval ≤ 1) (hmax : 1 ≤ config.maxSnapshots)
    (h : Between config s before) (c : Checkpoint) :
    ∃ name, Holds (s.checkpoint c).dir name c (leftover (before ++ [c])) := by
  obtain ⟨name, hsnapshot⟩ := h.snapshot hinterval hmax c (one_le_snapshot_length hinterval h c)
  rw [List.take_length] at hsnapshot
  refine ⟨name, ?_⟩
  rw [leftover_snoc, Saved.checkpoint, Saved.fileOps, PersistenceManager.checkpoint, Disk.applyAll, List.foldl_append]
  exact hsnapshot.saveBuffer c.buffer

theorem Between.next (hinterval : config.snapshotInterval ≤ 1) (hmax : 1 ≤ config.maxSnapshots)
    (h : Between config s before) (c : Checkpoint) : Between config (s.checkpoint c) (before ++ [c]) := by
  obtain ⟨name, hholds⟩ := h.checkpoint hinterval hmax c
  refine ⟨?_, hholds.wellFormed, hholds.buffered⟩
  rw [← h.managed, Saved.checkpoint, PersistenceManager.checkpoint, PersistenceManager.saveState]
  split <;> rfl

theorem between_afterAll (hinterval : config.snapshotInterval ≤ 1) (hmax : 1 ≤ config.maxSnapshots) (symbol : String)
    (exchange : Exchange) (calls : List Checkpoint) :
    Between config ((Saved.new config symbol exchange).afterAll calls) calls := by
  induction calls using List.reverseRecOn with
  | nil => exact ⟨rfl, Disk.wellFormed_empty, rfl⟩
  | append_singleton calls c ih =>
      rw [Saved.afterAll, List.foldl_append]
      exact ih.next hinterval hmax c

/-- After one operation of a call the snapshot is its own, the buffer not yet. -/
theorem Between.recover_first (hinterval : config.snapshotInterval ≤ 1) (hmax : 1 ≤ config.maxSnapshots)
    (h : Between config s before) (c : Checkpoint) :
    (recover (s.crashed c 1)).2 = some (c.orderbook, c.sequence, leftover before) := by
  obtain ⟨name, hholds⟩ := h.snapshot hinterval hmax c (Nat.one_pos)
  rw [Saved.crashed, Saved.fileOps, PersistenceManager.checkpoint,
    List.take_append_of_le_length (one_le_snapshot_length hinterval h c)]
  exact hholds.recover

/-- **A crash in a call** leaves the buffer of before, or that of after. -/
theorem Between.recover_crashed (hinterval : config.snapshotInterval ≤ 1) (hmax : 1 ≤ config.maxSnapshots)
    (h : Between config s before) (c : Checkpoint) {n : Nat} (hn : 0 < n) :
    (recover (s.crashed c n)).2 = some (c.orderbook, c.sequence, leftover before) ∨
      (recover (s.crashed c n)).2 = some (c.orderbook, c.sequence, leftover (before ++ [c])) := by
  by_cases hsnap : n ≤ (s.manager.saveState s.dir c.orderbook c.sequence c.timestamp).2.length
  · left
    obtain ⟨name, hholds⟩ := h.snapshot hinterval hmax c hn
    rw [Saved.crashed, Saved.fileOps, PersistenceManager.checkpoint, List.take_append_of_le_length hsnap]
    exact hholds.recover
  · right
    obtain ⟨name, hholds⟩ := h.checkpoint hinterval hmax c
    have hone : (saveBuffer c.buffer).length ≤ 1 := by
      rw [saveBuffer]
      split <;> simp
    have hall : s.crashed c n = (s.checkpoint c).dir := by
      rw [Saved.crashed, Saved.checkpoint, List.take_of_length_le]
      rw [Saved.fileOps, PersistenceManager.checkpoint, List.length_append]
      omega
    rw [hall]
    exact hholds.recover

/-! ## What recovery promises, and when it keeps it -/

/-- What the call would have recovery return. -/
def Checkpoint.result (c : Checkpoint) : Recovered := (c.orderbook, c.sequence, c.buffer)

/-- Recovery after the calls returns the last of them, and recovery after a crash in one of them returns one of
    those made so far. -/
structure RecoversCheckpoints (s : Saved) (calls : List Checkpoint) : Prop where
  last  : ∀ c, calls.getLast? = some c → (recover (s.afterAll calls).dir).2 = some c.result
  crash : ∀ before c, before ++ [c] <+: calls → ∀ n, 0 < n → n ≤ ((s.afterAll before).fileOps c).length →
    ∃ c' ∈ before ++ [c], (recover ((s.afterAll before).crashed c n)).2 = some c'.result

/-- The buffer left in its file is right for the last call, and before each call it is one that came with the
    book and number the call is about to save. -/
structure NothingLeaks (calls : List Checkpoint) : Prop where
  last  : ∀ c, calls.getLast? = some c → c.buffer = leftover calls
  crash : ∀ before c, before ++ [c] <+: calls →
    ∃ c' ∈ before ++ [c], c'.result = (c.orderbook, c.sequence, leftover before)

theorem recoversCheckpoints_iff_nothingLeaks (hinterval : config.snapshotInterval ≤ 1)
    (hmax : 1 ≤ config.maxSnapshots) (symbol : String) (exchange : Exchange) (calls : List Checkpoint) :
    RecoversCheckpoints (.new config symbol exchange) calls ↔ NothingLeaks calls := by
  have hbetween := between_afterAll hinterval hmax symbol exchange
  -- Recovery after all calls, the last of which is `c`.
  have hend : ∀ before c, calls = before ++ [c] →
      (recover ((Saved.new config symbol exchange).afterAll calls).dir).2 =
        some (c.orderbook, c.sequence, leftover calls) := by
    rintro before c rfl
    obtain ⟨name, hholds⟩ := (hbetween before).checkpoint hinterval hmax c
    rw [Saved.afterAll, List.foldl_append]
    exact hholds.recover
  constructor
  · intro h
    refine ⟨fun c hlast => ?_, fun before c hinitial => ?_⟩
    · obtain ⟨before, hcalls⟩ := List.getLast?_eq_some_iff.mp hlast
      have := h.last c hlast
      rw [hend before c hcalls] at this
      simpa [Checkpoint.result] using this.symm
    · have hlength : 1 ≤ (((Saved.new config symbol exchange).afterAll before).fileOps c).length := by
        rw [Saved.fileOps, PersistenceManager.checkpoint, List.length_append]
        exact Nat.le_add_right_of_le (one_le_snapshot_length hinterval (hbetween before) c)
      obtain ⟨c', hmem, hc'⟩ := h.crash before c hinitial 1 Nat.one_pos hlength
      rw [(hbetween before).recover_first hinterval hmax c] at hc'
      exact ⟨c', hmem, (Option.some.inj hc').symm⟩
  · intro h
    refine ⟨fun c hlast => ?_, fun before c hinitial n hn _ => ?_⟩
    · obtain ⟨before, hcalls⟩ := List.getLast?_eq_some_iff.mp hlast
      rw [hend before c hcalls, ← h.last c hlast]
      rfl
    · obtain ⟨c', hmem, hc'⟩ := h.crash before c hinitial
      rcases (hbetween before).recover_crashed hinterval hmax c hn with hrec | hrec
      · exact ⟨c', hmem, by rw [hrec, hc']⟩
      · -- The new buffer is in place: with nothing to write it is still the old one.
        rw [leftover_snoc] at hrec
        by_cases hempty : c.buffer = []
        · rw [if_pos hempty] at hrec
          exact ⟨c', hmem, by rw [hrec, hc']⟩
        · rw [if_neg hempty] at hrec
          exact ⟨c, List.mem_append_right _ (List.mem_singleton_self _), by rw [hrec, Checkpoint.result]⟩

theorem leftover_eq_nil {calls : List Checkpoint} (h : ∀ c ∈ calls, c.buffer = []) : leftover calls = [] := by
  have hnone : (calls.map Checkpoint.buffer).filter (· ≠ []) = [] := by
    refine List.filter_eq_nil_iff.mpr fun updates hmem => ?_
    obtain ⟨c, hc, rfl⟩ := List.mem_map.mp hmem
    simpa using h c hc
  rw [leftover, hnone]
  rfl

/-- With nothing ever buffered there is nothing to leak. -/
theorem nothingLeaks_of_unbuffered {calls : List Checkpoint} (h : ∀ c ∈ calls, c.buffer = []) : NothingLeaks calls where
  last  := by
    intro c hlast
    rw [leftover_eq_nil h, h c (List.mem_of_getLast? hlast)]
  crash := by
    intro before c hinitial
    have hbefore : leftover before = [] :=
      leftover_eq_nil fun c' hc' => h c' (hinitial.mem (List.mem_append_left _ hc'))
    have hc := h c (hinitial.mem (List.mem_append_right _ (List.mem_singleton_self _)))
    exact ⟨c, List.mem_append_right _ (List.mem_singleton_self _), by rw [Checkpoint.result, hbefore, hc]⟩

/-- A call told apart by its book and number finds its own buffer in the file before it has written it: that
    buffer is empty. -/
theorem unbuffered_of_nothingLeaks {calls : List Checkpoint}
    (hdistinct : calls.Pairwise fun c c' => (c.orderbook, c.sequence) ≠ (c'.orderbook, c'.sequence))
    (h : NothingLeaks calls) {before : List Checkpoint} (hbefore : before <+: calls) :
    ∀ c ∈ before, c.buffer = [] := by
  induction before using List.reverseRecOn with
  | nil => intro c hc; cases hc
  | append_singleton before c ih =>
      have hempty := ih ((List.prefix_append _ _).trans hbefore)
      obtain ⟨c', hmem, hc'⟩ := h.crash before c hbefore
      rw [leftover_eq_nil hempty] at hc'
      simp only [Checkpoint.result, Prod.mk.injEq] at hc'
      obtain ⟨hbook, hseq, hbuffer⟩ := hc'
      have hlast : c.buffer = [] := by
        rcases List.mem_append.mp hmem with hold | hself
        · have hne := (List.pairwise_append.mp (hdistinct.sublist hbefore.sublist)).2.2 c' hold c
            (List.mem_singleton_self _)
          exact absurd (by rw [hbook, hseq]) hne
        · rwa [List.mem_singleton.mp hself] at hbuffer
      intro c₁ hc₁
      rcases List.mem_append.mp hc₁ with hold | hself
      · exact hempty c₁ hold
      · rwa [List.mem_singleton.mp hself]

/-- **Recovery returns checkpoints** exactly when the buffer file never holds what another call left there. When
    every call saves a book and number of its own, that is when no call buffers anything. -/
theorem recovers_checkpoints_iff (hinterval : config.snapshotInterval ≤ 1) (hmax : 1 ≤ config.maxSnapshots)
    (symbol : String) (exchange : Exchange) (calls : List Checkpoint) :
    (RecoversCheckpoints (.new config symbol exchange) calls ↔ NothingLeaks calls) ∧
    (calls.Pairwise (fun c c' => (c.orderbook, c.sequence) ≠ (c'.orderbook, c'.sequence)) →
      (RecoversCheckpoints (.new config symbol exchange) calls ↔ ∀ c ∈ calls, c.buffer = [])) := by
  have hiff := recoversCheckpoints_iff_nothingLeaks hinterval hmax symbol exchange calls
  refine ⟨hiff, fun hdistinct => ⟨fun h => ?_, fun h => hiff.mpr (nothingLeaks_of_unbuffered h)⟩⟩
  exact unbuffered_of_nothingLeaks hdistinct (hiff.mp h) (List.prefix_refl _)

/-! Two checkpoints of one symbol: the first has an update buffered, the second none. -/

def everyCall : PersistenceConfig := { snapshotInterval := 1, maxSnapshots := 10, atomicWrites := true }

def bufferedCall : Checkpoint :=
  { orderbook := .new "BTCUSDT" .binance, sequence := 12345, buffer := [default], timestamp := 1700000000 }

def emptyCall : Checkpoint := { bufferedCall with sequence := 12346, buffer := [], timestamp := 1700000060 }

/-- After the second, recovery returns the buffer of the first; after a crash in the first, before its buffer is
    written, it returns none. -/
theorem stale_buffer_recovered :
    (recover ((Saved.new everyCall "BTCUSDT" .binance).afterAll [bufferedCall, emptyCall]).dir).2 =
      some (emptyCall.orderbook, 12346, [default]) ∧
    (recover ((Saved.new everyCall "BTCUSDT" .binance).crashed bufferedCall 2)).2 =
      some (bufferedCall.orderbook, 12345, []) ∧
    ¬ RecoversCheckpoints (.new everyCall "BTCUSDT" .binance) [bufferedCall, emptyCall] := by
  have hstale : (recover ((Saved.new everyCall "BTCUSDT" .binance).afterAll [bufferedCall, emptyCall]).dir).2 =
      some (emptyCall.orderbook, 12346, [default]) := by decide +kernel
  refine ⟨hstale, by decide +kernel, fun h => ?_⟩
  have hlast := h.last emptyCall rfl
  rw [hstale] at hlast
  revert hlast
  decide +kernel

theorem unbuffered_calls_recovered :
    RecoversCheckpoints (.new everyCall "BTCUSDT" .binance)
      [emptyCall, { emptyCall with sequence := 12347, timestamp := 1700000120 }] :=
  ((@recovers_checkpoints_iff everyCall (by decide) (by decide) "BTCUSDT" .binance _).2
    (by decide +kernel)).mpr (by decide +kernel)

end Engine
end TradingPlatform
