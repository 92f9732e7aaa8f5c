import TradingPlatform.Library.Machine
import Mathlib.Algebra.Group.Nat.Defs
import Mathlib.Data.List.Forall2
import Mathlib.Logic.Function.Basic

/-!
# `Library.Seqlock` — a sequence lock, load by load and store by store

One writer and any number of readers share a memory and a counter of 64 bits. An update makes the counter odd,
stores its fields one by one and makes the counter even again. A reader loads the counter, the fields and the
counter once more; it returns what it has loaded if the counter was even and has not changed, and starts over
otherwise. All loads and stores interleave in any order.

The updates completed so far number the versions of the memory. The invariant `Inv` ties the counter to the number
of the version, and what a reader has loaded to the version it began with, as long as that is the current one and
no update is under way. A reader that returns has therefore read one version (`read_version`), unless the counter
came full circle in between; and what one reader returns is never older than what it returned before
(`exists_versions`).
-/

namespace Seqlock

open Machine

variable {F V U R : Type*}

/-! ## The counter -/

/-- The counter at rest after `n` updates. -/
def stamp (n : Nat) : UInt64 := UInt64.ofNat (2 * n)

theorem or_one {x : UInt64} (h : x % 2 = 1) : x ||| 1 = x := by
  have hodd : x.toNat % 2 = 1 := by simpa using congrArg UInt64.toNat h
  apply UInt64.toNat_inj.mp
  rw [UInt64.toNat_or]
  apply Nat.eq_of_testBit_eq
  intro i
  rw [Nat.testBit_or]
  cases i with
  | zero => simp [hodd]
  | succ i =>
      have hone : Nat.testBit (UInt64.toNat 1) (i + 1) = false := by simp [Nat.testBit_succ]
      rw [hone, Bool.or_false]

theorem and_not_one {x : UInt64} (h : x % 2 = 0) : x &&& ~~~1 = x := by
  have heven : x.toNat % 2 = 0 := by simpa using congrArg UInt64.toNat h
  apply UInt64.toBitVec_inj.mp
  apply BitVec.eq_of_getLsbD_eq
  intro i hi
  rw [UInt64.toBitVec_and, UInt64.toBitVec_not, BitVec.getLsbD_and, BitVec.getLsbD_not, UInt64.toBitVec_one,
    BitVec.getLsbD_one]
  cases i with
  | zero =>
      have hlow : x.toBitVec.getLsbD 0 = false := by
        rw [BitVec.getLsbD, UInt64.toNat_toBitVec, Nat.testBit_zero, heven]
        rfl
      rw [hlow]
      rfl
  | succ i => simp [hi]

theorem stamp_even (n : Nat) : stamp n % 2 = 0 := by
  apply UInt64.toNat_inj.mp
  simp [stamp]

theorem stamp_odd (n : Nat) : (stamp n + 1) % 2 = 1 := by
  apply UInt64.toNat_inj.mp
  simp [stamp]

theorem stamp_succ (n : Nat) : stamp n + 1 + 1 = stamp (n + 1) := by
  apply UInt64.toNat_inj.mp
  simp [stamp]
  omega

/-- Within one round of the counter a stamp tells the version. -/
theorem stamp_injective {n m : Nat} (hle : n ≤ m) (hround : m < n + 2 ^ 63) (h : stamp n = stamp m) : n = m := by
  have hnat := congrArg UInt64.toNat h
  simp [stamp] at hnat
  omega

/-! ## The machine -/

section Machine

variable [DecidableEq F] (stores : U → List (F × V))

/-- Stores, one after the other. -/
def perform (memory : F → V) (writes : List (F × V)) : F → V :=
  writes.foldl (fun memory store => Function.update memory store.1 store.2) memory

/-- Where the writer is in an update; `seq` is its own copy of the counter. -/
inductive Writer (F V U : Type*) where
  | idle
  /-- The counter has been loaded and incremented. -/
  | loaded (seq : UInt64) (update : U)
  /-- The counter in memory is odd; these stores are still to come. -/
  | storing (seq : UInt64) (update : U) (rest : List (F × V))

/-- Where a reader is; `since` updates were complete when its call began. -/
inductive Reader (F V : Type*) where
  | idle
  | starting (since : Nat)
  /-- `s1` is the counter it has loaded, `fields` are still to be loaded. -/
  | loading (since : Nat) (s1 : UInt64) (loaded : List (F × V)) (fields : List F)

/-- The shared memory, the threads, and a record of the updates completed so far. -/
structure State (F V U R : Type*) where
  seq       : UInt64
  memory    : F → V
  writer    : Writer F V U
  readers   : R → Reader F V
  completed : List U

def State.new (memory : F → V) : State F V U R :=
  { seq := 0, memory, writer := .idle, readers := fun _ => .idle, completed := [] }

/-- What can happen next. -/
inductive Action (U R : Type*) where
  /-- An update is called and loads the counter. -/
  | update (update : U)
  /-- The next store of the update. -/
  | store
  /-- A reader is called. -/
  | read (reader : R)
  /-- Its next load. -/
  | load (reader : R)

/-- What a call returned: between `since` updates completed, when it began, and `upto`. -/
structure Read (F V R : Type*) where
  reader : R
  since  : Nat
  upto   : Nat
  loaded : List (F × V)
deriving DecidableEq

/-- One store. An update that is called while another is under way is not one of this writer. -/
def State.store (s : State F V U R) : State F V U R :=
  match s.writer with
  | .idle                                       => s
  | .loaded seq update                          =>
    { s with seq := seq ||| 1, writer := .storing seq update (stores update) }
  | .storing seq update ((field, value) :: rest) =>
    { s with memory := Function.update s.memory field value, writer := .storing seq update rest }
  | .storing seq update []                      =>
    { s with seq := (seq + 1) &&& ~~~1, writer := .idle, completed := s.completed ++ [update] }

section Readers

variable [DecidableEq R]

def State.moveTo (s : State F V U R) (reader : R) (position : Reader F V) : State F V U R :=
  { s with readers := Function.update s.readers reader position }

/-- One load; after the last field the counter is loaded once more. -/
def State.load (fields : List F) (s : State F V U R) (reader : R) : State F V U R × List (Read F V R) :=
  match s.readers reader with
  | .idle                                 => (s, [])
  | .starting since                       => (s.moveTo reader (.loading since s.seq [] fields), [])
  | .loading since s1 loaded (field :: rest) =>
    (s.moveTo reader (.loading since s1 (loaded ++ [(field, s.memory field)]) rest), [])
  | .loading since s1 loaded []           =>
    if s1 = s.seq ∧ s1 % 2 = 0 then
      (s.moveTo reader .idle, [{ reader, since, upto := s.completed.length, loaded }])
    else (s.moveTo reader (.starting since), [])

def step (fields : List F) (s : State F V U R) : Action U R → State F V U R × List (Read F V R)
  | .update update =>
    match s.writer with
    | .idle => ({ s with writer := .loaded (s.seq + 1) update }, [])
    | _     => (s, [])
  | .store         => (s.store stores, [])
  | .read reader   =>
    match s.readers reader with
    | .idle => (s.moveTo reader (.starting s.completed.length), [])
    | _     => (s, [])
  | .load reader   => s.load fields reader

end Readers

/-! ## Versions -/

/-- The memory after the first `n` updates. -/
def version (initial : F → V) (updates : List U) (n : Nat) : F → V :=
  (updates.take n).foldl (fun memory update => perform memory (stores update)) initial

theorem version_append {initial : F → V} {updates : List U} {n : Nat} (h : n ≤ updates.length)
    (more : List U) : version stores initial (updates ++ more) n = version stores initial updates n := by
  unfold version
  rw [List.take_append_of_le_length h]

theorem version_concat (initial : F → V) (updates : List U) (update : U) :
    version stores initial (updates ++ [update]) (updates.length + 1) =
      perform (version stores initial updates updates.length) (stores update) := by
  have hall : (updates ++ [update]).take (updates.length + 1) = updates ++ [update] :=
    List.take_of_length_le (List.length_append ▸ Nat.le_refl _)
  unfold version
  rw [hall, List.foldl_append, List.take_length]
  rfl

namespace State

/-- The version in memory as long as no update is under way. -/
def current (initial : F → V) (s : State F V U R) : F → V := version stores initial s.completed s.completed.length

/-- No store of an update has been made, except of completed ones. -/
def Quiet (s : State F V U R) : Prop :=
  match s.writer with
  | .storing _ _ _ => False
  | _              => True

/-- What the writer remembers, and what it has stored. -/
def WriterOk (initial : F → V) (s : State F V U R) : Prop :=
  match s.writer with
  | .idle                      => s.seq = stamp s.completed.length ∧ s.memory = s.current stores initial
  | .loaded seq _              => s.seq = stamp s.completed.length ∧ s.memory = s.current stores initial ∧
      seq = stamp s.completed.length + 1
  | .storing seq update rest => s.seq = stamp s.completed.length + 1 ∧ seq = stamp s.completed.length + 1 ∧
      perform s.memory rest = perform (s.current stores initial) (stores update)

/-- What a reader remembers. With an even counter it has loaded the version of that number, if this is still the
    current one and no update is under way. -/
def ReaderOk (fields : List F) (initial : F → V) (s : State F V U R) : Reader F V → Prop
  | .idle                         => True
  | .starting since               => since ≤ s.completed.length
  | .loading since s1 loaded rest => since ≤ s.completed.length ∧ loaded.map Prod.fst ++ rest = fields ∧
      (s1 % 2 = 0 → ∃ n, since ≤ n ∧ n ≤ s.completed.length ∧ s1 = stamp n ∧
        (n = s.completed.length → s.Quiet → ∀ e ∈ loaded, e.2 = s.current stores initial e.1))

end State

structure Inv (fields : List F) (initial : F → V) (s : State F V U R) : Prop where
  writer  : s.WriterOk stores initial
  readers : ∀ reader, s.ReaderOk stores fields initial (s.readers reader)

theorem Inv.new (fields : List F) (initial : F → V) : Inv stores fields initial (.new initial : State F V U R) :=
  ⟨⟨rfl, rfl⟩, fun _ => trivial⟩

section Steps

variable {stores : U → List (F × V)} {fields : List F} {initial : F → V} {s : State F V U R}

theorem State.WriterOk.quiet (h : s.WriterOk stores initial) (hquiet : s.Quiet) :
    s.seq = stamp s.completed.length ∧ s.memory = s.current stores initial := by
  unfold State.WriterOk at h
  unfold State.Quiet at hquiet
  cases hwriter : s.writer with
  | idle =>
      rw [hwriter] at h
      exact h
  | loaded seq update =>
      rw [hwriter] at h
      exact ⟨h.1, h.2.1⟩
  | storing seq update rest =>
      rw [hwriter] at hquiet
      exact hquiet.elim

/-- While an update is under way the counter is odd. -/
theorem State.WriterOk.odd (h : s.WriterOk stores initial) (hbusy : ¬ s.Quiet) : s.seq % 2 = 1 := by
  unfold State.WriterOk at h
  unfold State.Quiet at hbusy
  cases hwriter : s.writer with
  | idle =>
      rw [hwriter] at hbusy
      exact absurd trivial hbusy
  | loaded seq update =>
      rw [hwriter] at hbusy
      exact absurd trivial hbusy
  | storing seq update rest =>
      rw [hwriter] at h
      rw [h.1]
      exact stamp_odd _

/-- A reader is not disturbed by an update that completes or starts its stores, nor by what leaves the version as
    it is. -/
theorem State.ReaderOk.next {next : State F V U R} {reader : Reader F V} (h : s.ReaderOk stores fields initial reader)
    (hle : s.completed.length ≤ next.completed.length)
    (hsame : next.completed.length = s.completed.length → next.Quiet →
      s.Quiet ∧ next.current stores initial = s.current stores initial) :
    next.ReaderOk stores fields initial reader := by
  cases reader with
  | idle => trivial
  | starting since => exact Nat.le_trans h hle
  | loading since s1 loaded rest =>
      obtain ⟨hsince, hfields, hloaded⟩ := h
      refine ⟨Nat.le_trans hsince hle, hfields, fun heven => ?_⟩
      obtain ⟨n, hn, hnle, hstamp, hvalues⟩ := hloaded heven
      refine ⟨n, hn, Nat.le_trans hnle hle, hstamp, fun heq hquiet => ?_⟩
      have hlength : next.completed.length = s.completed.length := Nat.le_antisymm (heq ▸ hnle) hle
      obtain ⟨hbefore, hcurrent⟩ := hsame hlength hquiet
      rw [hcurrent]
      exact hvalues (heq.trans hlength) hbefore

/-- **The writer**: a store keeps the invariant. -/
theorem Inv.store (h : Inv stores fields initial s) : Inv stores fields initial (s.store stores) := by
  have hwriter := h.writer
  unfold State.WriterOk at hwriter
  unfold State.store
  split
  next => exact h
  next seq update hloaded =>
    rw [hloaded] at hwriter
    obtain ⟨hseq, hmemory, rfl⟩ := hwriter
    refine ⟨⟨or_one (stamp_odd _), rfl, ?_⟩, fun reader => (h.readers reader).next (Nat.le_refl _) fun _ hquiet => ?_⟩
    · rw [hmemory]
      rfl
    · exact hquiet.elim
  next seq update field value rest hstoring =>
    rw [hstoring] at hwriter
    exact ⟨hwriter, fun reader => (h.readers reader).next (Nat.le_refl _) fun _ hquiet => hquiet.elim⟩
  next seq update hstoring =>
    rw [hstoring] at hwriter
    obtain ⟨-, rfl, hmemory⟩ := hwriter
    have hlength : (s.completed ++ [update]).length = s.completed.length + 1 := by
      rw [List.length_append, List.length_singleton]
    refine ⟨⟨?_, ?_⟩, fun reader => (h.readers reader).next ?_ fun heq => ?_⟩
    · show (stamp s.completed.length + 1 + 1) &&& ~~~1 = stamp (s.completed ++ [update]).length
      rw [hlength, stamp_succ, and_not_one (stamp_even _)]
    · show s.memory = version stores initial (s.completed ++ [update]) (s.completed ++ [update]).length
      rw [hlength, version_concat]
      exact hmemory
    · exact hlength ▸ Nat.le_succ _
    · exact absurd (hlength.symm.trans heq) (Nat.succ_ne_self _)

theorem Inv.update (h : Inv stores fields initial s) (hidle : s.writer = .idle) (update : U) :
    Inv stores fields initial { s with writer := .loaded (s.seq + 1) update } := by
  have hquiet : s.Quiet := by
    unfold State.Quiet
    rw [hidle]
    trivial
  obtain ⟨hseq, hmemory⟩ := h.writer.quiet hquiet
  refine ⟨⟨hseq, hmemory, congrArg (· + 1) hseq⟩, fun reader => ?_⟩
  exact (h.readers reader).next (Nat.le_refl _) fun _ _ => ⟨hquiet, rfl⟩

/-- What a reader loads next belongs to the version it began with, if there has been no update since. -/
theorem State.ReaderOk.load (hwriter : s.WriterOk stores initial) {since : Nat} {s1 : UInt64} {loaded : List (F × V)}
    {field : F} {rest : List F} (h : s.ReaderOk stores fields initial (.loading since s1 loaded (field :: rest))) :
    s.ReaderOk stores fields initial (.loading since s1 (loaded ++ [(field, s.memory field)]) rest) := by
  obtain ⟨hsince, hfields, hloaded⟩ := h
  refine ⟨hsince, ?_, fun heven => ?_⟩
  · rw [List.map_append, List.append_assoc]
    exact hfields
  · obtain ⟨n, hn, hnle, hstamp, hvalues⟩ := hloaded heven
    refine ⟨n, hn, hnle, hstamp, fun heq hquiet e he => ?_⟩
    rcases List.mem_append.mp he with he | he
    · exact hvalues heq hquiet e he
    · rw [List.mem_singleton.mp he, ← (hwriter.quiet hquiet).2]

/-- What a read returns: one version, not older than the last one completed when it began. -/
def Read.Whole (stores : U → List (F × V)) (fields : List F) (initial : F → V) (updates : List U) (read : Read F V R)
    (n : Nat) : Prop :=
  read.since ≤ n ∧ n ≤ read.upto ∧
    read.loaded = fields.map fun field => (field, version stores initial updates n field)

/-- **A read that returns** has read one version, unless the counter came full circle meanwhile. -/
theorem State.ReaderOk.returns (hwriter : s.WriterOk stores initial) {since : Nat} {loaded : List (F × V)}
    (reader : R) (h : s.ReaderOk stores fields initial (.loading since s.seq loaded [])) (heven : s.seq % 2 = 0)
    (hround : s.completed.length < since + 2 ^ 63) :
    ∃ n, (Read.mk reader since s.completed.length loaded).Whole stores fields initial s.completed n := by
  have hquiet : s.Quiet := by
    by_contra hbusy
    rw [hwriter.odd hbusy] at heven
    exact absurd heven (by decide)
  obtain ⟨-, hfields, hloaded⟩ := h
  obtain ⟨n, hn, hnle, hstamp, hvalues⟩ := hloaded heven
  have heq : n = s.completed.length := by
    refine stamp_injective hnle ?_ (hstamp.symm.trans (hwriter.quiet hquiet).1)
    omega
  refine ⟨n, hn, hnle, ?_⟩
  have hall := hvalues heq hquiet
  rw [List.append_nil] at hfields
  rw [← hfields, List.map_map]
  conv_lhs => rw [← List.map_id loaded]
  refine List.map_congr_left fun e he => ?_
  show e = (e.1, version stores initial s.completed n e.1)
  rw [heq]
  exact Prod.ext rfl (hall e he)

/-! ## Runs -/

/-- When the call a reader is in began. -/
def Reader.since? : Reader F V → Option Nat
  | .idle                => none
  | .starting since      => some since
  | .loading since _ _ _ => some since

/-- What was returned so far: whole versions, and the calls of one reader one after the other. -/
structure Returned (stores : U → List (F × V)) (fields : List F) (initial : F → V) (s : State F V U R)
    (reads : List (Read F V R)) : Prop where
  whole   : ∀ read ∈ reads, read.upto < read.since + 2 ^ 63 → ∃ n, read.Whole stores fields initial s.completed n
  upto    : ∀ read ∈ reads, read.upto ≤ s.completed.length
  since   : ∀ read ∈ reads, ∀ since ∈ (s.readers read.reader).since?, read.upto ≤ since
  ordered : reads.Pairwise fun a b => a.reader = b.reader → a.upto ≤ b.since

theorem Returned.new (stores : U → List (F × V)) (fields : List F) (initial : F → V) :
    Returned stores fields initial (.new initial : State F V U R) [] :=
  ⟨fun _ hread => absurd hread List.not_mem_nil, fun _ hread => absurd hread List.not_mem_nil,
    fun _ hread => absurd hread List.not_mem_nil, .nil⟩

theorem Read.Whole.append {read : Read F V R} {updates : List U} {n : Nat}
    (h : read.Whole stores fields initial updates n) (hle : read.upto ≤ updates.length) (more : List U) :
    read.Whole stores fields initial (updates ++ more) n := by
  obtain ⟨hsince, hupto, hloaded⟩ := h
  refine ⟨hsince, hupto, ?_⟩
  rw [version_append stores (Nat.le_trans hupto hle)]
  exact hloaded

/-- Time passes for what was returned. -/
theorem Returned.next {reads : List (Read F V R)} {next : State F V U R} (h : Returned stores fields initial s reads)
    {more : List U} (hcompleted : next.completed = s.completed ++ more)
    (hreaders : next.readers = s.readers) : Returned stores fields initial next reads := by
  refine ⟨fun read hread hround => ?_, fun read hread => ?_, fun read hread => ?_, h.ordered⟩
  · obtain ⟨n, hn⟩ := h.whole read hread hround
    rw [hcompleted]
    exact ⟨n, hn.append (h.upto read hread) more⟩
  · rw [hcompleted, List.length_append]
    exact Nat.le_add_right_of_le (h.upto read hread)
  · rw [hreaders]
    exact h.since read hread

/-- Versions can be chosen in order, because calls of one reader do not overlap. -/
theorem versions_of_ordered {updates : List U} {reads : List (Read F V R)}
    (hordered : reads.Pairwise fun a b => a.reader = b.reader → a.upto ≤ b.since)
    (hwhole : ∀ read ∈ reads, ∃ n, read.Whole stores fields initial updates n) :
    ∃ versions : List Nat, List.Forall₂ (fun read n => read.Whole stores fields initial updates n) reads versions ∧
      (reads.zip versions).Pairwise fun a b => a.1.reader = b.1.reader → a.2 ≤ b.2 := by
  induction reads with
  | nil => exact ⟨[], .nil, .nil⟩
  | cons read reads ih =>
      obtain ⟨hfirst, hrest⟩ := List.pairwise_cons.mp hordered
      obtain ⟨n, hn⟩ := hwhole read List.mem_cons_self
      obtain ⟨versions, hversions, hpairs⟩ :=
        ih hrest fun other hother => hwhole other (List.mem_cons_of_mem _ hother)
      refine ⟨n :: versions, .cons hn hversions, List.pairwise_cons.mpr ⟨?_, hpairs⟩⟩
      rintro ⟨other, m⟩ hmem hsame
      have hother : other.Whole stores fields initial updates m := (List.forall₂_iff_zip.mp hversions).2 hmem
      calc n ≤ read.upto   := hn.2.1
        _    ≤ other.since := hfirst other (List.of_mem_zip hmem).1 hsame
        _    ≤ m           := hother.1

variable [DecidableEq R]

/-- A reader that moves disturbs nobody. -/
theorem Inv.moveTo (h : Inv stores fields initial s) {reader : R} {position : Reader F V}
    (hposition : s.ReaderOk stores fields initial position) :
    Inv stores fields initial (s.moveTo reader position) := by
  refine ⟨h.writer, fun other => ?_⟩
  by_cases hother : other = reader
  · rw [hother]
    show s.ReaderOk stores fields initial (Function.update s.readers reader position reader)
    rw [Function.update_self]
    exact hposition
  · show s.ReaderOk stores fields initial (Function.update s.readers reader position other)
    rw [Function.update_of_ne hother]
    exact h.readers other

/-- It has been in its call before, or begins one now. -/
theorem Returned.moveTo {reads : List (Read F V R)} (h : Returned stores fields initial s reads) {reader : R}
    {position : Reader F V} (hsince : ∀ since ∈ position.since?,
      since ∈ (s.readers reader).since? ∨ since = s.completed.length) :
    Returned stores fields initial (s.moveTo reader position) reads := by
  refine ⟨h.whole, h.upto, fun read hread since hmem => ?_, h.ordered⟩
  have hmem : since ∈ (Function.update s.readers reader position read.reader).since? := hmem
  by_cases hreader : read.reader = reader
  · rw [hreader, Function.update_self] at hmem
    rcases hsince since hmem with hbefore | rfl
    · exact h.since read hread since (hreader ▸ hbefore)
    · exact h.upto read hread
  · rw [Function.update_of_ne hreader] at hmem
    exact h.since read hread since hmem

/-- **A load** keeps both. -/
theorem load_keeps (h : Inv stores fields initial s) {reads : List (Read F V R)}
    (hreads : Returned stores fields initial s reads) (reader : R) :
    Inv stores fields initial (s.load fields reader).1 ∧
      Returned stores fields initial (s.load fields reader).1 (reads ++ (s.load fields reader).2) := by
  have hreader := h.readers reader
  unfold State.load
  cases hposition : s.readers reader with
  | idle => exact ⟨h, (List.append_nil reads).symm ▸ hreads⟩
  | starting since =>
      rw [hposition] at hreader
      dsimp only
      rw [List.append_nil]
      refine ⟨h.moveTo ⟨hreader, rfl, fun heven => ?_⟩, hreads.moveTo fun time htime => .inl ?_⟩
      · have hquiet : s.Quiet := by
          by_contra hbusy
          rw [h.writer.odd hbusy] at heven
          exact absurd heven (by decide)
        exact ⟨_, hreader, Nat.le_refl _, (h.writer.quiet hquiet).1, fun _ _ => nofun⟩
      · rw [hposition]
        exact htime
  | loading since s1 loaded rest =>
      rw [hposition] at hreader
      cases rest with
      | cons field rest =>
          dsimp only
          rw [List.append_nil]
          refine ⟨h.moveTo (hreader.load h.writer), hreads.moveTo fun time htime => .inl ?_⟩
          rw [hposition]
          exact htime
      | nil =>
          dsimp only
          by_cases hvalid : s1 = s.seq ∧ s1 % 2 = 0
          · rw [if_pos hvalid]
            obtain ⟨rfl, heven⟩ := hvalid
            refine ⟨h.moveTo trivial, ?_⟩
            have hmoved : Returned stores fields initial (s.moveTo reader .idle) reads := hreads.moveTo nofun
            refine ⟨fun read hread hround => ?_, fun read hread => ?_, fun read hread time htime => ?_, ?_⟩
            · rcases List.mem_append.mp hread with hread | hread
              · exact hmoved.whole read hread hround
              · obtain rfl := List.mem_singleton.mp hread
                exact hreader.returns h.writer reader heven hround
            · rcases List.mem_append.mp hread with hread | hread
              · exact hmoved.upto read hread
              · obtain rfl := List.mem_singleton.mp hread
                exact Nat.le_refl _
            · rcases List.mem_append.mp hread with hread | hread
              · exact hmoved.since read hread time htime
              · obtain rfl := List.mem_singleton.mp hread
                have htime : time ∈ (Function.update s.readers reader .idle reader).since? := htime
                rw [Function.update_self] at htime
                cases htime
            · refine List.pairwise_append.mpr ⟨hreads.ordered, List.pairwise_singleton .., ?_⟩
              intro a ha b hb hsame
              obtain rfl := List.mem_singleton.mp hb
              refine hreads.since a ha since ?_
              rw [hsame, hposition]
              rfl
          · rw [if_neg hvalid, List.append_nil]
            refine ⟨h.moveTo hreader.1, hreads.moveTo fun time htime => .inl ?_⟩
            rw [hposition]
            exact htime

/-- **One step** keeps the invariant and what was returned. -/
theorem step_keeps (h : Inv stores fields initial s) {reads : List (Read F V R)}
    (hreads : Returned stores fields initial s reads) (action : Action U R) :
    Inv stores fields initial (step stores fields s action).1 ∧
      Returned stores fields initial (step stores fields s action).1 (reads ++ (step stores fields s action).2) := by
  cases action with
  | update update =>
      unfold step
      cases hwriter : s.writer with
      | idle =>
          dsimp only
          rw [List.append_nil]
          exact ⟨h.update hwriter update, hreads.next (List.append_nil _).symm rfl⟩
      | loaded seq update =>
          dsimp only
          rw [List.append_nil]
          exact ⟨h, hreads⟩
      | storing seq update rest =>
          dsimp only
          rw [List.append_nil]
          exact ⟨h, hreads⟩
  | store =>
      obtain ⟨more, hcompleted, hreaders⟩ : ∃ more, (s.store stores).completed = s.completed ++ more ∧
          (s.store stores).readers = s.readers := by
        unfold State.store
        split
        next => exact ⟨[], (List.append_nil _).symm, rfl⟩
        next => exact ⟨[], (List.append_nil _).symm, rfl⟩
        next => exact ⟨[], (List.append_nil _).symm, rfl⟩
        next seq update _ => exact ⟨[update], rfl, rfl⟩
      refine ⟨h.store, ?_⟩
      show Returned stores fields initial (s.store stores) (reads ++ [])
      rw [List.append_nil]
      exact hreads.next hcompleted hreaders
  | read reader =>
      unfold step
      dsimp only
      cases hposition : s.readers reader with
      | idle =>
          have hstarting : s.ReaderOk stores fields initial (.starting s.completed.length) := Nat.le_refl _
          dsimp only
          rw [List.append_nil]
          refine ⟨h.moveTo hstarting, hreads.moveTo fun time htime => .inr ?_⟩
          exact (Option.some.inj htime).symm
      | starting since =>
          dsimp only
          rw [List.append_nil]
          exact ⟨h, hreads⟩
      | loading since s1 loaded rest =>
          dsimp only
          rw [List.append_nil]
          exact ⟨h, hreads⟩
  | load reader => exact load_keeps h hreads reader

/-- **Every run** keeps them. -/
theorem run_keeps (stores : U → List (F × V)) (fields : List F) (initial : F → V) (actions : List (Action U R)) :
    Inv stores fields initial (run (step stores fields) (.new initial) actions).1 ∧
      Returned stores fields initial (run (step stores fields) (.new initial) actions).1
        (run (step stores fields) (.new initial) actions).2 := by
  have hguard : Guarded (step stores fields) (fun _ _ => True) (.new initial : State F V U R) actions :=
    guarded_of_forall (fun _ _ => trivial) _
  have hkeeps : ∀ (s : State F V U R) reads action,
      Inv stores fields initial s ∧ Returned stores fields initial s reads → True →
      Inv stores fields initial (step stores fields s action).1 ∧
        Returned stores fields initial (step stores fields s action).1 (reads ++ (step stores fields s action).2) :=
    fun _ _ action h _ => step_keeps h.1 h.2 action
  exact hguard.trace_invariant hkeeps ⟨.new stores fields initial, .new stores fields initial⟩

/-- **Versions**: what is returned are whole versions, and one reader never goes back to an older one. -/
theorem exists_versions (stores : U → List (F × V)) (fields : List F) (initial : F → V) (actions : List (Action U R))
    (hround : ∀ read ∈ (run (step stores fields) (.new initial) actions).2, read.upto < read.since + 2 ^ 63) :
    ∃ versions : List Nat,
      List.Forall₂ (fun read n =>
          read.Whole stores fields initial (run (step stores fields) (.new initial) actions).1.completed n)
        (run (step stores fields) (.new initial) actions).2 versions ∧
      ((run (step stores fields) (.new initial) actions).2.zip versions).Pairwise fun a b =>
        a.1.reader = b.1.reader → a.2 ≤ b.2 := by
  obtain ⟨-, hreturned⟩ := run_keeps stores fields initial actions
  exact versions_of_ordered hreturned.ordered fun read hread => hreturned.whole read hread (hround read hread)

end Steps

end Machine

end Seqlock
