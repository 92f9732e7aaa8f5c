import TradingPlatform.Library.Seqlock

/-!
# `Library.Spinning` — when a reader of a sequence lock returns

A reader starts over as long as the counter is odd or has changed. While the writer makes no step, `loadsLeft` counts
the loads a reader still needs: with an even counter each of its loads takes one off, whatever the other readers do, and
the last one returns; with an odd one no reader ever returns (`returns_iff`).
-/

namespace Seqlock

open Machine

variable {F V U R : Type*}

/-- The action is one of a reader. -/
def Action.OfReader : Action U R → Prop
  | .read _ | .load _    => True
  | .update _ | .store   => False

/-- Loads of the counter and the fields until a reader returns, if the counter is even and stays as it is. -/
def Reader.left (fields : List F) (seq : UInt64) : Reader F V → Nat
  | .idle                => 0
  | .starting _          => fields.length + 2
  | .loading _ s1 _ rest => rest.length + 1 + if s1 = seq then 0 else fields.length + 2

def loadsLeft (fields : List F) (s : State F V U R) (reader : R) : Nat := (s.readers reader).left fields s.seq

theorem loadsLeft_pos (fields : List F) {s : State F V U R} {reader : R} (hcalled : s.readers reader ≠ .idle) :
    0 < loadsLeft fields s reader := by
  unfold loadsLeft
  cases hposition : s.readers reader with
  | idle => exact absurd hposition hcalled
  | starting since => exact Nat.succ_pos _
  | loading since s1 loaded rest =>
      show 0 < rest.length + 1 + _
      omega

/-- A reader never has more left than the rest of one round and another one. -/
theorem loadsLeft_le [DecidableEq F] {stores : U → List (F × V)} {fields : List F} {initial : F → V}
    {s : State F V U R} (h : Inv stores fields initial s) (reader : R) :
    loadsLeft fields s reader ≤ 2 * fields.length + 3 := by
  have hreader := h.readers reader
  unfold loadsLeft
  cases hposition : s.readers reader with
  | idle => exact Nat.zero_le _
  | starting since =>
      show fields.length + 2 ≤ _
      omega
  | loading since s1 loaded rest =>
      rw [hposition] at hreader
      have hlength := congrArg List.length hreader.2.1
      rw [List.length_append] at hlength
      show rest.length + 1 + (if s1 = s.seq then 0 else fields.length + 2) ≤ _
      split <;> omega

section Loads

variable [DecidableEq R]

def Action.loads (reader : R) : Action U R → Bool
  | .load other => other = reader
  | _           => false

variable {fields : List F} {s : State F V U R}

theorem load_seq (s : State F V U R) (reader : R) :
    (s.load fields reader).1.seq = s.seq ∧ (s.load fields reader).1.writer = s.writer := by
  unfold State.load
  split
  · exact ⟨rfl, rfl⟩
  · exact ⟨rfl, rfl⟩
  · exact ⟨rfl, rfl⟩
  · split <;> exact ⟨rfl, rfl⟩

theorem load_readers {reader other : R} (h : other ≠ reader) (s : State F V U R) :
    (s.load fields reader).1.readers other = s.readers other := by
  unfold State.load
  split
  · rfl
  · exact Function.update_of_ne h ..
  · exact Function.update_of_ne h ..
  · split <;> exact Function.update_of_ne h ..

theorem loadsLeft_moveTo (s : State F V U R) (reader : R) (position : Reader F V) :
    loadsLeft fields (s.moveTo reader position) reader = position.left fields s.seq := by
  unfold loadsLeft State.moveTo
  dsimp only
  rw [Function.update_self]

theorem readers_moveTo (s : State F V U R) (reader : R) (position : Reader F V) :
    (s.moveTo reader position).readers reader = position := Function.update_self ..

/-- An odd counter lets nobody return. -/
theorem load_odd (hodd : s.seq % 2 = 1) (reader : R) : (s.load fields reader).2 = [] := by
  unfold State.load
  split
  · rfl
  · rfl
  · rfl
  · rw [if_neg]
    rintro ⟨rfl, heven⟩
    rw [hodd] at heven
    exact absurd heven (by decide)

variable (fields) in
/-- **A load** with an even counter: the last one returns, any other takes one off. -/
theorem load_even (heven : s.seq % 2 = 0) {reader : R} (hcalled : s.readers reader ≠ .idle) :
    (loadsLeft fields s reader = 1 ∧ ∃ read, (s.load fields reader).2 = [read] ∧ read.reader = reader) ∨
    ((s.load fields reader).2 = [] ∧ (s.load fields reader).1.readers reader ≠ .idle ∧
      loadsLeft fields s reader = loadsLeft fields (s.load fields reader).1 reader + 1 ∧
      1 < loadsLeft fields s reader) := by
  unfold State.load
  cases hposition : s.readers reader with
  | idle => exact absurd hposition hcalled
  | starting since =>
      right
      have hleft : loadsLeft fields s reader = fields.length + 2 := by
        unfold loadsLeft
        rw [hposition]
        rfl
      dsimp only
      rw [readers_moveTo, loadsLeft_moveTo, hleft]
      refine ⟨rfl, nofun, ?_, by omega⟩
      simp [Reader.left]
  | loading since s1 loaded rest =>
      have hleft : loadsLeft fields s reader = rest.length + 1 + if s1 = s.seq then 0 else fields.length + 2 := by
        unfold loadsLeft
        rw [hposition]
        rfl
      cases rest with
      | cons field rest =>
          right
          dsimp only
          rw [readers_moveTo, loadsLeft_moveTo, hleft, List.length_cons]
          refine ⟨rfl, nofun, ?_, by omega⟩
          show rest.length + 1 + 1 + _ = rest.length + 1 + _ + 1
          omega
      | nil =>
          dsimp only
          by_cases hsame : s1 = s.seq
          · left
            subst hsame
            rw [if_pos ⟨rfl, heven⟩, hleft, if_pos rfl]
            exact ⟨rfl, _, rfl, rfl⟩
          · right
            rw [if_neg fun h => hsame h.1, hleft, if_neg hsame, List.length_nil]
            dsimp only
            rw [readers_moveTo, loadsLeft_moveTo]
            refine ⟨rfl, nofun, ?_, by omega⟩
            show 0 + 1 + (fields.length + 2) = fields.length + 2 + 1
            omega

theorem reader_of_load {reader : R} {read : Read F V R} (h : read ∈ (s.load fields reader).2) :
    read.reader = reader := by
  unfold State.load at h
  split at h
  · cases h
  · cases h
  · cases h
  · split at h
    · obtain rfl := List.mem_singleton.mp h
      rfl
    · cases h

end Loads

/-! ## Runs -/

section Runs

variable [DecidableEq F] [DecidableEq R] {stores : U → List (F × V)} {fields : List F} {s : State F V U R}

variable (stores fields) in
/-- A step of another reader, or a call while the last one is under way. -/
theorem step_other {action : Action U R} (hreader : action.OfReader) {reader : R} (hcalled : s.readers reader ≠ .idle)
    (hother : action.loads reader = false) :
    (step stores fields s action).1.seq = s.seq ∧
    (step stores fields s action).1.readers reader = s.readers reader ∧
    ∀ read ∈ (step stores fields s action).2, read.reader ≠ reader := by
  cases action with
  | update update => exact absurd hreader id
  | store => exact absurd hreader id
  | read other =>
      unfold step
      dsimp only
      split
      next hidle =>
        have hne : reader ≠ other := by
          rintro rfl
          exact hcalled hidle
        exact ⟨rfl, Function.update_of_ne hne .., nofun⟩
      next => exact ⟨rfl, rfl, nofun⟩
  | load other =>
      have hne : other ≠ reader := of_decide_eq_false hother
      exact ⟨(load_seq s other).1, load_readers (Ne.symm hne) s, fun read hread => reader_of_load hread ▸ hne⟩

/-- An odd counter stays, and nobody returns. -/
theorem run_odd (hodd : s.seq % 2 = 1) {actions : List (Action U R)} (hreaders : ∀ action ∈ actions, action.OfReader) :
    (run (step stores fields) s actions).2 = [] := by
  induction actions generalizing s with
  | nil => rfl
  | cons action actions ih =>
      obtain ⟨hfirst, hrest⟩ := List.forall_mem_cons.mp hreaders
      have hstep : (step stores fields s action).2 = [] ∧ (step stores fields s action).1.seq = s.seq := by
        cases action with
        | update update => exact absurd hfirst id
        | store => exact absurd hfirst id
        | read reader =>
            unfold step
            dsimp only
            split <;> exact ⟨rfl, rfl⟩
        | load reader => exact ⟨load_odd hodd reader, (load_seq s reader).1⟩
      rw [run_cons, hstep.1, ih (hstep.2 ▸ hodd) hrest]
      rfl

/-- With an even counter the loads left are what counts. -/
theorem run_even (heven : s.seq % 2 = 0) {reader : R} (hcalled : s.readers reader ≠ .idle)
    {actions : List (Action U R)} (hreaders : ∀ action ∈ actions, action.OfReader) :
    (∃ read ∈ (run (step stores fields) s actions).2, read.reader = reader) ↔
      loadsLeft fields s reader ≤ actions.countP (Action.loads reader) := by
  induction actions generalizing s with
  | nil =>
      have hpos := loadsLeft_pos fields hcalled
      refine iff_of_false ?_ (by rw [List.countP_nil]; omega)
      rintro ⟨read, hread, -⟩
      cases hread
  | cons action actions ih =>
      obtain ⟨hfirst, hrest⟩ := List.forall_mem_cons.mp hreaders
      rw [run_cons, List.countP_cons]
      cases hloads : action.loads reader with
      | true =>
          obtain rfl : action = .load reader := by
            cases action with
            | load other => exact congrArg Action.load (of_decide_eq_true hloads)
            | _ => cases hloads
          rcases load_even fields heven hcalled with ⟨hone, read, hreturned, hsame⟩ | ⟨hnone, hcalled', hless, -⟩
          · rw [hone]
            refine iff_of_true ⟨read, List.mem_append_left _ ?_, hsame⟩ (by rw [if_pos rfl]; omega)
            show read ∈ (s.load fields reader).2
            rw [hreturned]
            exact List.mem_singleton_self read
          · rw [show (step stores fields s (.load reader)).2 = [] from hnone, List.nil_append, hless, if_pos rfl,
              Nat.add_le_add_iff_right]
            exact ih ((load_seq s reader).1 ▸ heven) hcalled' hrest
      | false =>
          obtain ⟨hseq, hposition, hothers⟩ := step_other stores fields hfirst hcalled hloads
          have hleft : loadsLeft fields (step stores fields s action).1 reader = loadsLeft fields s reader := by
            unfold loadsLeft
            rw [hposition, hseq]
          rw [if_neg Bool.false_ne_true, Nat.add_zero, ← hleft, ← ih (hseq ▸ heven) (hposition ▸ hcalled) hrest]
          constructor
          · rintro ⟨read, hread, hsame⟩
            rcases List.mem_append.mp hread with hread | hread
            · exact absurd hsame (hothers read hread)
            · exact ⟨read, hread, hsame⟩
          · rintro ⟨read, hread, hsame⟩
            exact ⟨read, List.mem_append_right _ hread, hsame⟩

/-- **A reader returns**, while the writer makes no step, exactly when the counter is even and the reader makes the loads
    it has left. -/
theorem returns_iff {reader : R} (hcalled : s.readers reader ≠ .idle) {actions : List (Action U R)}
    (hreaders : ∀ action ∈ actions, action.OfReader) :
    (∃ read ∈ (run (step stores fields) s actions).2, read.reader = reader) ↔
      s.seq % 2 = 0 ∧ loadsLeft fields s reader ≤ actions.countP (Action.loads reader) := by
  by_cases heven : s.seq % 2 = 0
  · rw [run_even heven hcalled hreaders]
    exact (and_iff_right heven).symm
  · refine iff_of_false ?_ fun h => heven h.1
    have hodd : s.seq % 2 = 1 := by
      apply UInt64.toNat_inj.mp
      have hne : s.seq.toNat % 2 ≠ 0 := fun h => heven (UInt64.toNat_inj.mp (by simpa using h))
      simp
      omega
    rw [run_odd hodd hreaders]
    rintro ⟨read, hread, -⟩
    cases hread

end Runs

end Seqlock
